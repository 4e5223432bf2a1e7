import Opifex.AcceptanceCriteria
import Opifex.Lib.Record
import Opifex.Runner
import Opifex.Vocabulary
import Opifex.WorkOrderIdentity

/-!
# Generating a work order from an authorized issue

Pure and deterministic: everything that varies, the base commit included, is
passed in. A rejection is a normal outcome and carries every problem found; an
exception is left for coordinates that cannot be named.
-/

namespace Opifex

open Record (Looked)

/-- An issue's material, already parsed: the sections of its body, and what its labels
ask of routing. -/
structure IssueProjection where
  repositoryOwner : String
  repositoryName : String
  issueNumber : ℕ
  title : String
  taskSpec : String
  acceptanceCriteria : List String
  pathConstraints : List String
  decisionRefs : List String
  issueUrl : String
  needs : List (Looked RunnerNeed)
  modelTier : Option (Looked ModelTier)
deriving DecidableEq

/-- What a work order is generated from: the issue as projected, with the commit, the
attempt and the limits. -/
structure GenerationInput where
  issue : IssueProjection
  /-- The commit the work starts from, resolved now and pinned. -/
  baseCommit : String
  attempt : ℕ
  budgetCeilingUsd : Option Usd
  wallClockTimeoutMinutes : Option ℕ
deriving DecidableEq

/-- A work order as it is dispatched. Nothing of it changes afterwards: an issue that is
edited does not change what was authorised. -/
structure GeneratedWorkOrder where
  identity : String
  branch : String
  coordinates : WorkOrderCoordinates
  repositoryOwner : String
  repositoryName : String
  issueNumber : ℕ
  issueUrl : String
  issueTitle : Option String
  baseCommit : String
  attempt : ℕ
  taskSpec : String
  acceptanceCriteria : List String
  pathConstraints : List String
  decisionRefs : List String
  budgetCeilingUsd : Option Usd
  wallClockTimeoutMinutes : Option ℕ
  needs : List (Looked RunnerNeed)
  modelTier : Option (Looked ModelTier)
deriving DecidableEq

/-- The needs routing is given. -/
def GeneratedWorkOrder.routingNeeds (workOrder : GeneratedWorkOrder) :
    List RunnerNeed :=
  workOrder.needs.filterMap Looked.own?

/-- The tier routing is given. -/
def GeneratedWorkOrder.routingTier (workOrder : GeneratedWorkOrder) :
    Option ModelTier :=
  workOrder.modelTier.bind Looked.own?

/-- A work order, or what is wrong with the criteria, with the message that the author
is shown. -/
inductive GenerationResult where
  | generated (workOrder : GeneratedWorkOrder)
  | rejected (problems : List CriteriaProblem) (message : String)
deriving DecidableEq

/-- What is wrong with an issue: provenance first, then the task spec, then
the criteria. -/
def generationProblems (issue : IssueProjection) : List CriteriaProblem :=
  (if Text.trim issue.issueUrl = "" then
    [{ criterion := none
       reason :=
        "No link back to the issue. VISION §5 requires the Issue -> Work " ++
          "Order edge, and a missing one is undetectable once the work " ++
          "order exists." }]
  else []) ++
  (if Text.trim issue.taskSpec = "" then
    [{ criterion := none
       reason := "No task spec. There is nothing to tell a runner to do." }]
  else []) ++
  assessCriteria issue.acceptanceCriteria

/-- The coordinates that the identity and the branch are spelled from. -/
def GenerationInput.coordinates (input : GenerationInput) :
    WorkOrderCoordinates where
  repository := input.issue.repositoryName
  issueNumber := input.issue.issueNumber
  baseCommit := input.baseCommit
  attempt := input.attempt

/-- The work order of an issue without problems, under the names its
coordinates have. -/
def assembleWorkOrder (input : GenerationInput) (identity branch : String) :
    GeneratedWorkOrder where
  identity := identity
  branch := branch
  coordinates := input.coordinates
  repositoryOwner := input.issue.repositoryOwner
  repositoryName := input.issue.repositoryName
  issueNumber := input.issue.issueNumber
  issueUrl := Text.trim input.issue.issueUrl
  issueTitle := (some (Text.trim input.issue.title)).filter Text.truthy
  baseCommit := input.baseCommit
  attempt := input.attempt
  taskSpec := Text.trim input.issue.taskSpec
  acceptanceCriteria := cleanCriteria input.issue.acceptanceCriteria
  pathConstraints := input.issue.pathConstraints
  decisionRefs := input.issue.decisionRefs
  budgetCeilingUsd := input.budgetCeilingUsd
  wallClockTimeoutMinutes := input.wallClockTimeoutMinutes
  needs := input.issue.needs
  modelTier := input.issue.modelTier

/-- **Turn an issue into a work order, or say precisely why it cannot be
one.** -/
def generateWorkOrder (input : GenerationInput) :
    Except String GenerationResult :=
  let problems := generationProblems input.issue
  if !problems.isEmpty then
    .ok (.rejected problems (describeProblems problems))
  else do
    let identity ← workOrderIdentity input.coordinates
    let branch ← workOrderBranch input.coordinates
    return .generated (assembleWorkOrder input identity branch)

/-- **What generation guarantees of a work order**: the issue had no problem,
its coordinates can be named, and it carries their names. -/
theorem generateWorkOrder_generated {input : GenerationInput}
    {workOrder : GeneratedWorkOrder}
    (h : generateWorkOrder input = .ok (.generated workOrder)) :
    generationProblems input.issue = [] ∧
      validate input.coordinates = .ok () ∧
      workOrder = assembleWorkOrder input (identityOf input.coordinates)
        (branchOf input.coordinates) := by
  unfold generateWorkOrder at h
  dsimp only at h
  split_ifs at h with hproblems
  · simp at h
  · have hnone : generationProblems input.issue = [] := by
      simpa [List.isEmpty_iff] using hproblems
    cases hv : validate input.coordinates with
    | error message =>
      simp [workOrderIdentity, hv, bind, Except.bind] at h
    | ok _ =>
      have hid := workOrderIdentity_eq_ok.mpr ⟨hv, rfl⟩
      have hbr := workOrderBranch_eq_ok.mpr ⟨hv, rfl⟩
      rw [hid, hbr] at h
      simp only [bind, Except.bind, pure, Except.pure, Except.ok.injEq,
        GenerationResult.generated.injEq] at h
      exact ⟨hnone, rfl, h.symm⟩

/-- Generation fails only on coordinates that cannot be named. -/
theorem generateWorkOrder_error {input : GenerationInput} {message : String}
    (h : generateWorkOrder input = .error message) :
    validate input.coordinates = .error message := by
  unfold generateWorkOrder at h
  dsimp only at h
  split_ifs at h with hproblems
  cases hv : validate input.coordinates with
  | error other =>
    simpa [workOrderIdentity, hv, bind, Except.bind] using h
  | ok _ =>
    have hid := workOrderIdentity_eq_ok.mpr ⟨hv, rfl⟩
    have hbr := workOrderBranch_eq_ok.mpr ⟨hv, rfl⟩
    simp [hid, hbr, bind, Except.bind, pure, Except.pure] at h

/-- A generated work order has a link back to its issue. -/
theorem issueUrl_ne_empty {input : GenerationInput}
    (h : generationProblems input.issue = []) :
    Text.trim input.issue.issueUrl ≠ "" := by
  intro hurl
  simp [generationProblems, hurl] at h

end Opifex
