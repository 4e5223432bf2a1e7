import Opifex.Issue
import Opifex.WorkOrderGenerator

/-!
# An issue, as the thing a runner can be asked to build

The body's sections carry the task spec, the criteria, the path constraints
and the decisions the work rests on; labels carry what it needs from a runner.
An issue that is not a candidate is skipped silently, a candidate whose spec
is not good enough is rejected with its problems, and a hold is reported on a
work order that exists rather than suppressing it.
-/

namespace Opifex

open Pattern in
/-- `^#{1,6}[ \t]+(.+)$`, multiline. -/
def headingPattern : Pattern :=
  all [lineStart, rep 1 (some 6) (oneOf "#"), many1 (oneOf " \t"),
    group 1 (many1 dot), lineEnd]

/-- Headings in a body, trimmed and in lower case, with the text beneath
each. -/
def parseSections (body : String) : List (String × String) :=
  (headingPattern.splitBy body).map fun part =>
    (Text.toLowerCase (Text.trim part.1), Text.trim part.2)

/-- `sections.get(heading)`: the last section under that heading. -/
def getSection (sections : List (String × String)) (heading : String) :
    Option String :=
  sections.reverse.lookup heading

/-- Which section carries the prose handed to the runner. -/
def taskSpecSection : String := "Proposed solution"

/-- Where path constraints may be declared. -/
def pathConstraintsSection : String := "Affected component"

/-- The feature template's acceptance-criteria heading. -/
def acceptanceCriteriaSection : String := "Acceptance criteria"

open Pattern in
/-- `^\s*[-*]\s*(?:\[[ xX]?\]\s*)?(.+)$`, multiline. -/
def criterionPattern : Pattern :=
  all [lineStart, many space, oneOf "-*", many space,
    optional (all [text "[", optional (oneOf " xX"), text "]", many space]),
    group 1 (many1 dot), lineEnd]

/-- Checklist items, as criteria. Checkbox state is ignored. -/
def readAcceptanceCriteria (sections : List (String × String)) :
    List String :=
  match getSection sections (Text.toLowerCase acceptanceCriteriaSection) with
  | none => []
  | some content =>
    ((criterionPattern.matchAll content).map fun m =>
      Text.trim (m.2.captured 1)).filter Text.truthy

/-- The character that quotes code in Markdown. -/
def codeQuote : Char := Char.ofNat 96

open Pattern in
/-- A quoted glob: text between code quotes that holds a star or a slash. -/
def globPattern : Pattern :=
  let quote := char (· == codeQuote)
  let inside := char (· != codeQuote)
  all [quote, group 1 (all [many inside, oneOf "*/", many inside]), quote]

/-- Path constraints: only quoted globs, never a component's name. -/
def readPathConstraints (sections : List (String × String)) : List String :=
  match getSection sections (Text.toLowerCase pathConstraintsSection) with
  | none => []
  | some content =>
    ((globPattern.matchAll content).map fun m =>
      Text.trim (m.2.captured 1)).filter Text.truthy

open Pattern in
/-- `\bADR-(\d{3,4})\b`, in either case. -/
def decisionPattern : Pattern :=
  all [wordEdge, oneOf "aA", oneOf "dD", oneOf "rR", text "-",
    group 1 (rep 3 (some 4) (char Char.isDigit)), wordEdge]

/-- Decision references anywhere in the body, each once. -/
def readDecisionRefs (body : String) : List String :=
  ((decisionPattern.matchAll body).map fun m =>
    "ADR-" ++ m.2.captured 1).eraseDups

/-- Why an issue produced nothing, silently: it is not for the factory, or is not
written so that the factory could work on it. -/
inductive SkipReason where
  | notOpen
  | notMarkedReady
  | noBody
  | missingTaskSpec
  | missingAcceptanceCriteria
deriving DecidableEq, Repr

/-- What becomes of an issue: a work order, or the reason why there is none. A rejection
has a message for its author; a skip is silent. -/
inductive IssueProjectionResult where
  /-- A work order, and whether a human's hold withholds it. -/
  | eligible (workOrder : GeneratedWorkOrder) (held : Bool)
  | skipped (reason : SkipReason)
  | rejected (problems : List CriteriaProblem) (message : String)
deriving DecidableEq

/-- What an issue is projected from: the issue, where it is, what its work is to be
based on, and the limits of the repository. -/
structure ProjectIssueInput where
  issue : NormalizedIssue
  repositoryOwner : String
  repositoryName : String
  baseCommit : String
  attempt : ℕ
  budgetCeilingUsd : Option Usd
  wallClockTimeoutMinutes : Option ℕ
deriving DecidableEq

/-- The address of an issue, as a work order records it. -/
def issueUrl (owner name : String) (issueNumber : ℕ) : String :=
  "https://github.com/" ++ owner ++ "/" ++ name ++ "/issues/" ++
    toString issueNumber

/-- What the generator is given for an issue with these sections. -/
def ProjectIssueInput.generation (input : ProjectIssueInput) (body : String)
    (sections : List (String × String)) (taskSpec : String)
    (criteria : List String) : GenerationInput where
  issue :=
    { repositoryOwner := input.repositoryOwner
      repositoryName := input.repositoryName
      issueNumber := input.issue.number
      title := input.issue.title
      issueUrl :=
        issueUrl input.repositoryOwner input.repositoryName input.issue.number
      taskSpec := taskSpec
      acceptanceCriteria := criteria
      pathConstraints := readPathConstraints sections
      decisionRefs := readDecisionRefs body
      needs := input.issue.readNeeds
      modelTier := input.issue.readModelTier }
  baseCommit := input.baseCommit
  attempt := input.attempt
  budgetCeilingUsd := input.budgetCeilingUsd
  wallClockTimeoutMinutes := input.wallClockTimeoutMinutes

/-- **Project one issue.** -/
def projectIssue (input : ProjectIssueInput) :
    Except String IssueProjectionResult :=
  let issue := input.issue
  if issue.state != .isOpen then .ok (.skipped .notOpen)
  else if !issue.carries .ready then .ok (.skipped .notMarkedReady)
  else
    match issue.body.filter fun body => Text.truthy (Text.trim body) with
    | none => .ok (.skipped .noBody)
    | some body =>
      let sections := parseSections body
      match ((getSection sections (Text.toLowerCase taskSpecSection)).map
        Text.trim).filter Text.truthy with
      | none => .ok (.skipped .missingTaskSpec)
      | some taskSpec =>
        let criteria := readAcceptanceCriteria sections
        if criteria.isEmpty then .ok (.skipped .missingAcceptanceCriteria)
        else do
          match ← generateWorkOrder
            (input.generation body sections taskSpec criteria) with
          | .rejected problems message => return .rejected problems message
          | .generated workOrder =>
            return .eligible workOrder (issue.carries .hold)

/-- **What projecting an issue guarantees of its work order**: an open, ready
issue, generated from the material of its own body. -/
theorem projectIssue_eligible {input : ProjectIssueInput}
    {workOrder : GeneratedWorkOrder} {held : Bool}
    (h : projectIssue input = .ok (.eligible workOrder held)) :
    input.issue.state = .isOpen ∧ input.issue.carries .ready ∧
      held = input.issue.carries .hold ∧
      ∃ body sections taskSpec criteria,
        generateWorkOrder (input.generation body sections taskSpec criteria) =
          .ok (.generated workOrder) := by
  unfold projectIssue at h
  dsimp only at h
  split_ifs at h with hopen hready
  · simp at h
  · simp at h
  · split at h
    · simp at h
    next body hbody =>
      split at h
      · simp at h
      next taskSpec htask =>
        split_ifs at h with hcriteria
        · simp at h
        · cases hg : generateWorkOrder (input.generation body
            (parseSections body) taskSpec
            (readAcceptanceCriteria (parseSections body))) with
          | error message => simp [hg, bind, Except.bind] at h
          | ok result =>
            cases result with
            | rejected problems message =>
              simp [hg, bind, Except.bind, pure, Except.pure] at h
            | generated generated =>
              simp only [hg, bind, Except.bind, pure, Except.pure,
                Except.ok.injEq, IssueProjectionResult.eligible.injEq] at h
              obtain ⟨rfl, rfl⟩ := h
              exact ⟨by simpa using hopen, by simpa using hready, rfl,
                _, _, _, _, hg⟩

/-- What an issue's work order is named after. -/
def ProjectIssueInput.coordinates (input : ProjectIssueInput) :
    WorkOrderCoordinates where
  repository := input.repositoryName
  issueNumber := input.issue.number
  baseCommit := input.baseCommit
  attempt := input.attempt

/-- An eligible work order carries the names of its coordinates. -/
theorem projectIssue_names {input : ProjectIssueInput}
    {workOrder : GeneratedWorkOrder} {held : Bool}
    (h : projectIssue input = .ok (.eligible workOrder held)) :
    validate input.coordinates = .ok () ∧
      workOrder.identity = identityOf input.coordinates ∧
      workOrder.branch = branchOf input.coordinates ∧
      workOrder.issueNumber = input.issue.number := by
  obtain ⟨-, -, -, body, sections, taskSpec, criteria, hgenerated⟩ :=
    projectIssue_eligible h
  obtain ⟨-, hvalid, rfl⟩ := generateWorkOrder_generated hgenerated
  exact ⟨hvalid, rfl, rfl, rfl⟩

/-- Projecting an issue throws only on coordinates that cannot be named. -/
theorem projectIssue_error {input : ProjectIssueInput} {message : String}
    (h : projectIssue input = .error message) :
    validate input.coordinates = .error message := by
  unfold projectIssue at h
  dsimp only at h
  split_ifs at h with hopen hready
  split at h
  · simp at h
  next body hbody =>
    split at h
    · simp at h
    next taskSpec htask =>
      split_ifs at h with hcriteria
      cases hg : generateWorkOrder (input.generation body
        (parseSections body) taskSpec
        (readAcceptanceCriteria (parseSections body))) with
      | error other =>
        have hvalid := generateWorkOrder_error hg
        simp only [hg, bind, Except.bind, Except.error.injEq] at h
        rw [← h]
        exact hvalid
      | ok result =>
        cases result with
        | rejected problems text =>
          simp [hg, bind, Except.bind, pure, Except.pure] at h
        | generated generated =>
          simp [hg, bind, Except.bind, pure, Except.pure] at h

end Opifex
