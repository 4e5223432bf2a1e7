import Opifex.IssueProjection
import Opifex.Lib.Machine
import Opifex.WorkOrderDocument

/-!
# Turning projected work orders into rows

The half of projection that writes. An issue that has a work order is never
projected again; its hold is reconciled with its label instead, and only
between `queued` and `held`. A new work order is inserted unless the unique
columns refuse it, and one bad issue does not stop the ones behind it.
-/

namespace Opifex

/-- The columns a pass needs from a work order that already exists. An issue that has
one is not projected again. -/
structure ExistingWorkOrder where
  id : ℕ
  issueNumber : ℕ
  status : WorkOrderStatus
deriving DecidableEq

/-- What the projection reads of a work order. -/
def WorkOrderRow.toExisting (row : WorkOrderRow) : ExistingWorkOrder where
  id := row.id
  issueNumber := row.issueNumber
  status := row.status

/-- The work orders of a repository, as the tick loaded them. -/
def Db.loadWorkOrders (db : Db) (repositoryId : ℕ) : List ExistingWorkOrder :=
  (db.workOrders.rows.filter fun row => row.repositoryId == repositoryId).map
    WorkOrderRow.toExisting

/-- What a pass over the issues of a repository is given. It was all read before the
pass, and other ticks may have written since. -/
structure ProjectionInput where
  repository : RepositoryRow
  issues : List NormalizedIssue
  /-- Work orders the repository had when the tick loaded them. -/
  existingWorkOrders : List ExistingWorkOrder
  /-- The repository's HEAD, resolved once and pinned onto every work order of
  the pass. -/
  baseCommit : String
  now : Instant

/-- An issue that was rejected, with what its author is told. The source keeps the
digest of the body; here the body stands for it. -/
structure RejectedIssue where
  issueNumber : ℕ
  problems : List CriteriaProblem
  message : String
  body : String
deriving DecidableEq

/-- What a pass did, and what it did not do and why: the orders it created, the
rejections, and counts of the rest. -/
structure ProjectionResult where
  created : List GeneratedWorkOrder
  heldOnCreate : ℕ
  alreadyPresent : ℕ
  holdsApplied : ℕ
  holdsLifted : ℕ
  rejected : List RejectedIssue
  skipped : SkipReason → ℕ

/-- A pass that has done nothing yet. -/
def ProjectionResult.none : ProjectionResult :=
  ⟨[], 0, 0, 0, 0, [], fun _ => 0⟩

/-- A line logged at error level for one issue. The pass goes on with the next. -/
structure LoggedFailure where
  issueNumber : ℕ
  line : String
deriving DecidableEq

/-- A pass under way: the database, the counts, and what it has logged so far. -/
structure ProjectionPass where
  db : Db
  result : ProjectionResult
  log : List LoggedFailure

/-- Is there an issue here that would need a base commit resolved for it? -/
def needsBaseCommit (issues : List NormalizedIssue)
    (existingWorkOrders : List ExistingWorkOrder) : Bool :=
  issues.any fun issue =>
    issue.state == .isOpen && issue.carries .ready &&
      !(existingWorkOrders.map (·.issueNumber)).contains issue.number

/-- `known.get(issueNumber)`: a map keeps the last work order it is built
from under a number. -/
def knownWorkOrder (existingWorkOrders : List ExistingWorkOrder)
    (issueNumber : ℕ) : Option ExistingWorkOrder :=
  existingWorkOrders.reverse.find? fun existing =>
    existing.issueNumber == issueNumber

/-- What a tick hands the pass for one repository. -/
def Db.projectionInput (db : Db) (repository : RepositoryRow)
    (issues : List NormalizedIssue) (baseCommit : String) (now : Instant) :
    ProjectionInput where
  repository := repository
  issues := issues
  existingWorkOrders := db.loadWorkOrders repository.id
  baseCommit := baseCommit
  now := now

/-! ## Holds -/

/-- Only these two statuses move. A dispatched work order has a run against
it. -/
def isHoldable (status : WorkOrderStatus) : Bool :=
  status == .queued || status == .held

/-- The update that makes a row agree with the hold label. A released row is
queued from now, so it does not jump ahead of what has waited. -/
def holdUpdate (shouldHold : Bool) (now : Instant) (row : WorkOrderRow) :
    WorkOrderRow :=
  if shouldHold then { row with status := .held, queuedAt := none }
  else { row with status := .queued, queuedAt := some now }

theorem holdUpdate_id (shouldHold : Bool) (now : Instant)
    (row : WorkOrderRow) : (holdUpdate shouldHold now row).id = row.id := by
  cases shouldHold <;> rfl

/-- Move an untouched work order between `queued` and `held`. -/
def reconcileHold (now : Instant) (existing : ExistingWorkOrder)
    (issue : NormalizedIssue) (pass : ProjectionPass) : ProjectionPass :=
  let shouldHold := issue.carries .hold
  let isHeld := existing.status == .held
  if shouldHold = isHeld then pass
  else
    { pass with
      db := pass.db.updateWorkOrder existing.id (holdUpdate shouldHold now)
        (holdUpdate_id shouldHold now)
      result :=
        if shouldHold then
          { pass.result with holdsApplied := pass.result.holdsApplied + 1 }
        else { pass.result with holdsLifted := pass.result.holdsLifted + 1 } }

/-! ## New rows -/

/-- The row `persist` writes. -/
def createData (repositoryId : ℕ) (workOrder : GeneratedWorkOrder)
    (held : Bool) (now : Instant) (id : ℕ) : WorkOrderRow where
  id := id
  identity := workOrder.identity
  repositoryId := repositoryId
  issueNumber := workOrder.issueNumber
  issueUrl := workOrder.issueUrl
  issueTitle := workOrder.issueTitle
  baseCommit := workOrder.baseCommit
  attempt := workOrder.attempt
  branch := workOrder.branch
  status := if held then .held else .queued
  -- A held row stamped with a queue time would take priority once released.
  queuedAt := if held then none else some now
  holdReason := none
  taskSpec := workOrder.taskSpec
  acceptanceCriteria := workOrder.acceptanceCriteria
  pathConstraints := workOrder.pathConstraints
  decisionRefs := workOrder.decisionRefs
  needs := workOrder.needs.map (·.map RunnerNeed.name)
  modelTier := workOrder.modelTier.map (·.map ModelTier.name)
  budgetCeilingUsd := workOrder.budgetCeilingUsd
  wallClockTimeoutMinutes := workOrder.wallClockTimeoutMinutes

/-- Two rows one of which the unique constraints refuse: the identity, the
branch, and the four columns the identity is built from. -/
def WorkOrderRow.violatesUnique (row other : WorkOrderRow) : Bool :=
  row.identity == other.identity || row.branch == other.branch ||
    (row.repositoryId == other.repositoryId &&
      row.issueNumber == other.issueNumber &&
      row.baseCommit == other.baseCommit && row.attempt == other.attempt)

theorem createData_key (repositoryId : ℕ) (workOrder : GeneratedWorkOrder)
    (held : Bool) (now : Instant) (id : ℕ) :
    Keyed.key (createData repositoryId workOrder held now id) = id := rfl

/-- The database with the new row in it. -/
def insertWorkOrder (db : Db) (repositoryId : ℕ)
    (workOrder : GeneratedWorkOrder) (held : Bool) (now : Instant) : Db :=
  { db with
    workOrders :=
      db.workOrders.insert (createData repositoryId workOrder held now)
        (createData_key repositoryId workOrder held now) }

theorem mem_insertWorkOrder {db : Db} {repositoryId : ℕ}
    {workOrder : GeneratedWorkOrder} {held : Bool} {now : Instant}
    {row : WorkOrderRow} :
    row ∈ (insertWorkOrder db repositoryId workOrder held now).workOrders.rows ↔
      row ∈ db.workOrders.rows ∨
        row = createData repositoryId workOrder held now db.workOrders.next :=
  Table.mem_insert (createData_key repositoryId workOrder held now)

/-- **Write the row, or leave the existing one exactly as it is.** True when a
row was created. The pre-read asks for the identity alone; a unique violation
of the insert is taken for a race on that identity. -/
def persist (db : Db) (repositoryId : ℕ) (workOrder : GeneratedWorkOrder)
    (held : Bool) (now : Instant) : Db × Bool :=
  if db.workOrders.rows.any fun row => row.identity == workOrder.identity then
    (db, false)
  else if db.workOrders.rows.any
      (createData repositoryId workOrder held now
        db.workOrders.next).violatesUnique then
    (db, false)
  else (insertWorkOrder db repositoryId workOrder held now, true)

/-- `persist` leaves the database alone or inserts the row. -/
theorem persist_eq_or (db : Db) (repositoryId : ℕ)
    (workOrder : GeneratedWorkOrder) (held : Bool) (now : Instant) :
    persist db repositoryId workOrder held now = (db, false) ∨
      persist db repositoryId workOrder held now =
        (insertWorkOrder db repositoryId workOrder held now, true) := by
  unfold persist
  split_ifs
  · exact Or.inl rfl
  · exact Or.inl rfl
  · exact Or.inr rfl

/-! ## The pass -/

/-- What `projectIssue` is given for one issue of the pass: the first attempt,
under the repository's defaults. -/
def ProjectionInput.issueInput (input : ProjectionInput)
    (issue : NormalizedIssue) : ProjectIssueInput where
  issue := issue
  repositoryOwner := input.repository.owner
  repositoryName := input.repository.name
  baseCommit := input.baseCommit
  attempt := 1
  budgetCeilingUsd := input.repository.budgetCeilingUsd
  wallClockTimeoutMinutes := input.repository.wallClockTimeoutMinutes

/-- Count one more issue as stored already. -/
def ProjectionPass.countPresent (pass : ProjectionPass) : ProjectionPass :=
  { pass with
    result :=
      { pass.result with
        alreadyPresent := pass.result.alreadyPresent + 1 } }

/-- Store an eligible work order and count it. -/
def storeProjected (input : ProjectionInput) (workOrder : GeneratedWorkOrder)
    (held : Bool) (pass : ProjectionPass) : ProjectionPass :=
  let (db, written) :=
    persist pass.db input.repository.id workOrder held input.now
  if written then
    { pass with
      db := db
      result :=
        { pass.result with
          created := pass.result.created ++ [workOrder]
          heldOnCreate := pass.result.heldOnCreate + if held then 1 else 0 } }
  else pass.countPresent

/-- One issue. A work order of it is only held or released; without one the issue is
projected, and the work order inserted. -/
def projectOne (input : ProjectionInput) (issue : NormalizedIssue)
    (pass : ProjectionPass) : Except String ProjectionPass :=
  match knownWorkOrder input.existingWorkOrders issue.number with
  | some existing =>
    let reconciled :=
      if isHoldable existing.status then
        reconcileHold input.now existing issue pass
      else pass
    .ok reconciled.countPresent
  | none => do
    match ← projectIssue (input.issueInput issue) with
    | .skipped reason =>
      return { pass with
        result :=
          { pass.result with
            skipped := fun r =>
              pass.result.skipped r + if r = reason then 1 else 0 } }
    | .rejected problems message =>
      return { pass with
        result :=
          { pass.result with
            rejected := pass.result.rejected ++
              [⟨issue.number, problems, message, issue.body.getD ""⟩] } }
    | .eligible workOrder held =>
      return storeProjected input workOrder held pass

/-- The line logged when an issue could not be projected. -/
def projectionFailure (repository : RepositoryRow) (issueNumber : ℕ)
    (message : String) : LoggedFailure where
  issueNumber := issueNumber
  line := "Could not project " ++ repository.fullName ++ "#" ++
    toString issueNumber ++ ": " ++ message

/-- One issue of the pass: an error is logged, never thrown. -/
def projectNext (input : ProjectionInput) (pass : ProjectionPass)
    (issue : NormalizedIssue) : ProjectionPass :=
  match projectOne input issue pass with
  | .ok pass => pass
  | .error message =>
    { pass with
      log := pass.log ++
        [projectionFailure input.repository issue.number message] }

/-- **Project one repository's issues, persisting what is eligible.** -/
def project (input : ProjectionInput) (db : Db) : ProjectionPass :=
  Machine.run (projectNext input) ⟨db, .none, []⟩ input.issues

/-! ## What one issue of a pass can do -/

section Next

variable {input : ProjectionInput} {issue : NormalizedIssue}

/-- An issue with a work order has its hold reconciled, if it still can be. -/
theorem projectNext_of_known {existing : ExistingWorkOrder}
    (h : knownWorkOrder input.existingWorkOrders issue.number =
      some existing) (pass : ProjectionPass) :
    projectNext input pass issue =
      (if isHoldable existing.status then
        reconcileHold input.now existing issue pass
      else pass).countPresent := by
  simp [projectNext, projectOne, h]

/-- An issue without one is stored, or logged, or only counted. -/
theorem projectNext_of_unknown
    (h : knownWorkOrder input.existingWorkOrders issue.number = none)
    (pass : ProjectionPass) :
    ((projectNext input pass issue).db = pass.db ∧
        (projectNext input pass issue).log = pass.log) ∨
      (∃ workOrder held,
        projectIssue (input.issueInput issue) =
            .ok (.eligible workOrder held) ∧
          projectNext input pass issue =
            storeProjected input workOrder held pass) ∨
      ∃ message,
        projectIssue (input.issueInput issue) = .error message ∧
          projectNext input pass issue =
            { pass with
              log := pass.log ++
                [projectionFailure input.repository issue.number message] } := by
  cases hproject : projectIssue (input.issueInput issue) with
  | error message =>
    refine Or.inr (Or.inr ⟨message, rfl, ?_⟩)
    simp [projectNext, projectOne, h, hproject, bind, Except.bind]
  | ok projected =>
    cases projected with
    | skipped reason =>
      refine Or.inl ?_
      simp [projectNext, projectOne, h, hproject, bind, Except.bind, pure,
        Except.pure]
    | rejected problems message =>
      refine Or.inl ?_
      simp [projectNext, projectOne, h, hproject, bind, Except.bind, pure,
        Except.pure]
    | eligible workOrder held =>
      refine Or.inr (Or.inl ⟨workOrder, held, rfl, ?_⟩)
      simp [projectNext, projectOne, h, hproject, bind, Except.bind, pure,
        Except.pure]

/-- Storing a work order inserts its row or leaves the database alone. -/
theorem storeProjected_db (input : ProjectionInput)
    (workOrder : GeneratedWorkOrder) (held : Bool) (pass : ProjectionPass) :
    (storeProjected input workOrder held pass).db = pass.db ∨
      (storeProjected input workOrder held pass).db =
        insertWorkOrder pass.db input.repository.id workOrder held
          input.now := by
  unfold storeProjected
  rcases persist_eq_or pass.db input.repository.id workOrder held input.now with
    hkept | hstored
  · rw [hkept]
    exact Or.inl rfl
  · rw [hstored]
    exact Or.inr rfl

/-- A pass changes the database by a hold of a known work order, by a new row,
or not at all. -/
theorem projectNext_db (input : ProjectionInput) (pass : ProjectionPass)
    (issue : NormalizedIssue) :
    (∃ existing,
      knownWorkOrder input.existingWorkOrders issue.number = some existing ∧
        (projectNext input pass issue).db =
          if isHoldable existing.status then
            (reconcileHold input.now existing issue pass).db
          else pass.db) ∨
      knownWorkOrder input.existingWorkOrders issue.number = none ∧
        ((projectNext input pass issue).db = pass.db ∨
          ∃ workOrder held,
            (projectNext input pass issue).db =
              insertWorkOrder pass.db input.repository.id workOrder held
                input.now) := by
  cases hknown : knownWorkOrder input.existingWorkOrders issue.number with
  | some existing =>
    refine Or.inl ⟨existing, rfl, ?_⟩
    rw [projectNext_of_known hknown]
    show (if _ then _ else pass).db = _
    split <;> rfl
  | none =>
    refine Or.inr ⟨rfl, ?_⟩
    rcases projectNext_of_unknown hknown pass with ⟨hsame, -⟩ |
      ⟨workOrder, held, -, hnext⟩ | ⟨message, -, hnext⟩
    · exact Or.inl hsame
    · rw [hnext]
      rcases storeProjected_db input workOrder held pass with hsame | hstored
      · exact Or.inl hsame
      · exact Or.inr ⟨workOrder, held, hstored⟩
    · exact Or.inl (by rw [hnext])

end Next

end Opifex
