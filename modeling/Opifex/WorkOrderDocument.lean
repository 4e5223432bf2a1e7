import Opifex.Tables
import Opifex.WorkOrderGenerator

/-!
# The work order as a document, and back from its row

One function produces the bytes of both records of an authorization. A stored
row is rebuilt into the thing that was authorized or refused: it has to derive
its own identity and branch, carry the issue's URL, and declare only needs and
a tier this build understands.
-/

namespace Opifex

open Record (Looked)

/-- The version of the document's schema. -/
def workOrderSchemaVersion : String := "1.1.0"

/-- An optional member of a JSON object. -/
def optionalField (name : String) (value : Option Json) :
    List (String × Json) :=
  (value.map fun v => (name, v)).toList

/-- A need as it prints: a function in an array is null, the prototype has no
members. -/
def needJson : Looked RunnerNeed → Json
  | .own need => .str need.name
  | .inherited key => if key = "constructor" then .null else .obj []

/-- A tier as it prints. A member that is a function is left out. -/
def tierJson : Looked ModelTier → Option Json
  | .own tier => some (.str tier.name)
  | .inherited key => if key = "constructor" then none else some (.obj [])

/-- The document that goes into both records. An empty list of decisions and
an absent tier are left out. -/
def toWorkOrderDocument (workOrder : GeneratedWorkOrder) : Json :=
  let texts (l : List String) := Json.arr (l.map Json.str)
  .obj
    ([("schemaVersion", .str workOrderSchemaVersion),
      ("identity", .str workOrder.identity),
      ("branch", .str workOrder.branch),
      ("repository",
        .obj
          [("owner", .str workOrder.repositoryOwner),
            ("name", .str workOrder.repositoryName)]),
      ("baseCommit", .str workOrder.baseCommit),
      ("attempt", .num (toString workOrder.attempt)),
      ("issue",
        .obj
          [("number", .num (toString workOrder.issueNumber)),
            ("url", .str workOrder.issueUrl)])] ++
      optionalField "decisionRefs"
        (if workOrder.decisionRefs.isEmpty then none
          else some (texts workOrder.decisionRefs)) ++
      [("taskSpec", .str workOrder.taskSpec),
        ("acceptanceCriteria", texts workOrder.acceptanceCriteria),
        ("pathConstraints", texts workOrder.pathConstraints),
        ("budgetCeilingUsd",
          (workOrder.budgetCeilingUsd.map fun b => Json.num b.text).getD
            .null),
        ("wallClockTimeoutMinutes",
          (workOrder.wallClockTimeoutMinutes.map fun n =>
            Json.num (toString n)).getD .null),
        ("needs", .arr (workOrder.needs.map needJson))] ++
      optionalField "modelTier" (workOrder.modelTier.bind tierJson))

/-- **The bytes of an authorization**: two-space indented, newline
terminated. -/
def serializeWorkOrder (workOrder : GeneratedWorkOrder) : String :=
  Json.stringify (toWorkOrderDocument workOrder) ++ "\n"

/-! ## Rebuilding a stored row -/

/-- Why a row was not rebuilt: it disagrees with itself, or its coordinates
could not be named at all. -/
inductive RehydrateFailure where
  | rehydration (message : String)
  | other (message : String)
deriving DecidableEq

/-- What the failure says. -/
def RehydrateFailure.message : RehydrateFailure → String
  | .rehydration message => message
  | .other message => message

/-- Every need this build understands. -/
def knownNeeds : List RunnerNeed :=
  [.fullStreaming, .costReporting, .structuredRateLimits, .ownInfrastructure]

/-- Every tier this build understands. -/
def knownModelTiers : List ModelTier := [.small, .standard, .large]

/-- The need a column's text names. -/
def needOfText (text : String) : Option RunnerNeed :=
  knownNeeds.find? fun need => need.name == text

/-- The tier a column's text names. -/
def tierOfText (text : String) : Option ModelTier :=
  knownModelTiers.find? fun tier => tier.name == text

/-- The need a stored value names, if it is a text at all. -/
def needOfStored (stored : Looked String) : Option RunnerNeed :=
  stored.own?.bind needOfText

/-- The tier a stored value names, if it is a text at all. -/
def tierOfStored (stored : Looked String) : Option ModelTier :=
  stored.own?.bind tierOfText

/-- The row's needs, or a refusal that names the ones this build does not
understand. -/
def WorkOrderRow.readNeeds (row : WorkOrderRow) :
    Except RehydrateFailure (List RunnerNeed) :=
  let unknown := row.needs.filter fun need => (needOfStored need).isNone
  if !unknown.isEmpty then
    .error (.rehydration
      ("Work order " ++ row.identity ++ " declares need(s) this build does " ++
        "not understand: " ++ ", ".intercalate (unknown.map (·.text)) ++
        ". Refusing to route it as though it had not asked."))
  else .ok (row.needs.filterMap needOfStored)

/-- The tier the row asked for, or none. -/
def WorkOrderRow.readModelTier (row : WorkOrderRow) :
    Except RehydrateFailure (Option ModelTier) :=
  match row.modelTier with
  | none => .ok none
  | some stored =>
    match tierOfStored stored with
    | some tier => .ok (some tier)
    | none =>
      .error (.rehydration
        ("Work order " ++ row.identity ++ " asks for model tier \"" ++
          stored.text ++ "\", which this build does not understand. " ++
          "Refusing to route it as though it had not asked."))

/-- The coordinates that a stored row has, with the name of its repository. -/
def WorkOrderRow.coordinates (row : WorkOrderRow)
    (repository : RepositoryRow) : WorkOrderCoordinates where
  repository := repository.name
  issueNumber := row.issueNumber
  baseCommit := row.baseCommit
  attempt := row.attempt

/-- The names the row's own coordinates derive. -/
def derivedNames (coordinates : WorkOrderCoordinates) :
    Except RehydrateFailure (String × String) :=
  match workOrderIdentity coordinates, workOrderBranch coordinates with
  | .ok identity, .ok branch => .ok (identity, branch)
  | .error message, _ => .error (.other message)
  | _, .error message => .error (.other message)

/-- **A stored work order, back as the thing that was authorized.** -/
def rehydrateWorkOrder (row : WorkOrderRow) (repository : RepositoryRow) :
    Except RehydrateFailure GeneratedWorkOrder := do
  let coordinates := row.coordinates repository
  let (derivedIdentity, derivedBranch) ← derivedNames coordinates
  if derivedIdentity ≠ row.identity then
    throw (.rehydration
      ("Work order " ++ row.identity ++ " does not match the identity its " ++
        "own coordinates derive (\"" ++ derivedIdentity ++
        "\"); refusing to dispatch a row that disagrees with itself"))
  if derivedBranch ≠ row.branch then
    throw (.rehydration
      ("Work order " ++ row.identity ++ " stores branch \"" ++ row.branch ++
        "\" but its coordinates derive \"" ++ derivedBranch ++
        "\"; refusing to dispatch a row whose branch and identity disagree"))
  if row.issueUrl = "" then
    throw (.rehydration
      ("Work order " ++ row.identity ++ " has no issue URL, which the " ++
        "work-order schema requires"))
  let needs ← row.readNeeds
  let modelTier ← row.readModelTier
  return {
    identity := row.identity
    branch := row.branch
    coordinates := coordinates
    repositoryOwner := repository.owner
    repositoryName := repository.name
    issueNumber := row.issueNumber
    issueUrl := row.issueUrl
    issueTitle := row.issueTitle
    baseCommit := row.baseCommit
    attempt := row.attempt
    taskSpec := row.taskSpec
    acceptanceCriteria := row.acceptanceCriteria
    pathConstraints := row.pathConstraints
    decisionRefs := row.decisionRefs
    budgetCeilingUsd := row.budgetCeilingUsd
    wallClockTimeoutMinutes := row.wallClockTimeoutMinutes
    needs := needs.map Looked.own
    modelTier := modelTier.map Looked.own }

/-! ## What rebuilding keeps -/

/-- Coordinates that validate derive their names. -/
theorem derivedNames_of_validate {coordinates : WorkOrderCoordinates}
    (h : validate coordinates = .ok ()) :
    derivedNames coordinates =
      .ok (identityOf coordinates, branchOf coordinates) := by
  have hidentity := workOrderIdentity_eq_ok.mpr ⟨h, rfl⟩
  have hbranch := workOrderBranch_eq_ok.mpr ⟨h, rfl⟩
  simp [derivedNames, hidentity, hbranch]

/-- A need is read back from its own name. -/
theorem needOfText_name (need : RunnerNeed) :
    needOfText need.name = some need := by
  cases need <;> decide

/-- A tier is read back from its own name. -/
theorem tierOfText_name (tier : ModelTier) :
    tierOfText tier.name = some tier := by
  cases tier <;> decide

/-- A stored need is read back where it was one. -/
theorem needOfStored_map (need : Looked RunnerNeed) :
    needOfStored (need.map RunnerNeed.name) = need.own? := by
  cases need with
  | own need => exact needOfText_name need
  | inherited key => rfl

/-- A stored tier is read back where it was one. -/
theorem tierOfStored_map (tier : Looked ModelTier) :
    tierOfStored (tier.map ModelTier.name) = tier.own? := by
  cases tier with
  | own tier => exact tierOfText_name tier
  | inherited key => rfl

/-- Needs of the vocabulary are read back from their column. -/
theorem readNeeds_of_own {row : WorkOrderRow} {needs : List RunnerNeed}
    (h : row.needs = (needs.map Looked.own).map (·.map RunnerNeed.name)) :
    row.readNeeds = .ok needs := by
  have hread : ∀ need, needOfStored
      ((Looked.own need).map RunnerNeed.name) = some need := fun need =>
    needOfStored_map (.own need)
  have hunknown : row.needs.filter (fun need => (needOfStored need).isNone) =
      [] := by
    rw [h, List.filter_eq_nil_iff]
    intro stored hstored
    simp only [List.map_map, List.mem_map, Function.comp_apply] at hstored
    obtain ⟨need, -, rfl⟩ := hstored
    rw [hread]
    exact Bool.false_ne_true
  have hneeds : row.needs.filterMap needOfStored = needs := by
    rw [h, List.map_map, List.filterMap_map]
    simp only [Function.comp_def, hread, List.filterMap_some]
  simp [WorkOrderRow.readNeeds, hunknown, hneeds]

/-- A need outside the vocabulary has the row refused. -/
theorem readNeeds_of_inherited {row : WorkOrderRow}
    {needs : List (Looked RunnerNeed)} {key : String}
    (h : row.needs = needs.map (·.map RunnerNeed.name))
    (hkey : .inherited key ∈ needs) :
    ∃ message, row.readNeeds = .error (.rehydration message) := by
  have hmem : Looked.inherited key ∈
      row.needs.filter fun need => (needOfStored need).isNone := by
    rw [h]
    exact List.mem_filter.mpr
      ⟨List.mem_map.mpr ⟨.inherited key, hkey, rfl⟩, rfl⟩
  unfold WorkOrderRow.readNeeds
  dsimp only
  rw [if_pos (by simpa using List.ne_nil_of_mem hmem)]
  exact ⟨_, rfl⟩

/-- A tier of the vocabulary is read back from its column. -/
theorem readModelTier_of_own {row : WorkOrderRow} {tier : Option ModelTier}
    (h : row.modelTier = (tier.map Looked.own).map (·.map ModelTier.name)) :
    row.readModelTier = .ok tier := by
  unfold WorkOrderRow.readModelTier
  cases tier with
  | none =>
    rw [h]
    rfl
  | some tier =>
    rw [h]
    show (match tierOfStored ((Looked.own tier).map ModelTier.name) with
      | some tier => _
      | none => _) = _
    rw [tierOfStored_map]
    rfl

/-- What a row is rebuilt into declares needs and a tier of the
vocabulary. -/
theorem rehydrateWorkOrder_own {row : WorkOrderRow}
    {repository : RepositoryRow} {workOrder : GeneratedWorkOrder}
    (h : rehydrateWorkOrder row repository = .ok workOrder) :
    ∃ (needs : List RunnerNeed) (tier : Option ModelTier),
      row.readNeeds = .ok needs ∧
      workOrder.needs = needs.map Looked.own ∧
      workOrder.modelTier = tier.map Looked.own := by
  unfold rehydrateWorkOrder at h
  cases hnames : derivedNames (row.coordinates repository) with
  | error failure => simp [hnames, bind, Except.bind] at h
  | ok names =>
    cases hneeds : row.readNeeds with
    | error failure =>
      simp only [hnames, hneeds, bind, Except.bind] at h
      split_ifs at h
    | ok needs =>
      cases htier : row.readModelTier with
      | error failure =>
        simp only [hnames, hneeds, htier, bind, Except.bind] at h
        split_ifs at h
      | ok tier =>
        simp only [hnames, hneeds, htier, bind, Except.bind] at h
        split_ifs at h
        cases h
        exact ⟨needs, tier, rfl, rfl, rfl⟩

end Opifex
