import Opifex.Lib.Machine
import Opifex.RunExecutor

/-!
# Draining the queue

Queued work orders are handed to the executor, oldest first, a batch at a
time. The queue reads the rows and nothing else: a hold reaches it only
through a row's status, and a row that could not be started stays where it is.

What a drain adds to the world is said per work order: it submits only for the
rows it selected (`submissions_drain`), and what it does for one of them it
does when that row's turn comes.
-/

namespace Opifex

/-- How many work orders one drain considers. -/
def dispatchBatchSize : ℕ := 25

/-- `orderBy: { queuedAt: 'asc' }`, nulls last. -/
def byQueuedAt (a b : WorkOrderRow) : Ordering :=
  match a.queuedAt, b.queuedAt with
  | some x, some y => compare x y
  | some _, none => .lt
  | none, some _ => .gt
  | none, none => .eq

/-- A work order waits in the queue. -/
def Db.isQueued (db : Db) (id : ℕ) : Bool :=
  db.workOrders.rows.any fun row => row.id == id && row.status == .queued

/-- A work order's row with its repository's, as the select of the drain joins them. -/
structure StoredRow where
  row : WorkOrderRow
  repository : RepositoryRow
deriving DecidableEq

/-- The batch a drain selects. -/
def Db.selectQueued (db : Db) : List StoredRow :=
  ((Preference.rank byQueuedAt
    (db.workOrders.rows.filter fun row => row.status == .queued)).take
      dispatchBatchSize).filterMap fun row =>
        (db.repositories.find row.repositoryId).map (⟨row, ·⟩)

/-- The counts of a drain. `observed` counts the decisions that were only logged, with
dispatch switched off. -/
structure DrainResult where
  dispatched : ℕ
  stillQueued : ℕ
  observed : ℕ
  failed : ℕ
  unrebuildable : ℕ
  repositoriesDisabled : ℕ
deriving DecidableEq

/-- A drain that has gone through nothing. -/
def DrainResult.none : DrainResult := ⟨0, 0, 0, 0, 0, 0⟩

/-- What each outcome of an execution is counted as. -/
def DrainResult.count (result : DrainResult) :
    ExecutionResult → DrainResult
  | .dispatched _ _ _ => { result with dispatched := result.dispatched + 1 }
  | .queued _ _ => { result with stillQueued := result.stillQueued + 1 }
  | .observed _ _ => { result with observed := result.observed + 1 }
  -- The work order is left queued, so that a later drain retries it.
  | .failed _ _ => { result with failed := result.failed + 1 }

/-- A row that disagrees with itself needs a human. -/
def World.quarantine (world : World) (workOrderId : ℕ) (reason : String) :
    World :=
  { world with
    db :=
      world.db.updateWorkOrder workOrderId (fun row =>
        { row with status := .quarantined, holdReason := some reason })
        fun _ => rfl }

/-- One work order of the batch. An error that is no rehydration error is
caught and counted. -/
def dispatchOne (env : ExecutorEnv) (answers : ℕ → Answers)
    (state : World × DrainResult) (stored : StoredRow) :
    World × DrainResult :=
  let (world, result) := state
  if !stored.repository.dispatchEnabled then
    (world,
      { result with
        repositoriesDisabled := result.repositoriesDisabled + 1 })
  else
    match rehydrateWorkOrder stored.row stored.repository with
    | .error (.rehydration message) =>
      (world.quarantine stored.row.id message,
        { result with unrebuildable := result.unrebuildable + 1 })
    | .error (.other _) => (world, { result with failed := result.failed + 1 })
    | .ok workOrder =>
      match dispatchWorkOrder env (answers stored.row.id)
        ⟨workOrder, stored.row.id⟩ world with
      | (.done execution, world) => (world, result.count execution)
      | (_, world) => (world, result)

/-- **Hand queued work orders to the executor, oldest first.** -/
def drain (env : ExecutorEnv) (answers : ℕ → Answers) (world : World) :
    World × DrainResult :=
  Machine.run (dispatchOne env answers) (world, .none) world.db.selectQueued

/-- **What one work order of the batch does to the world**: nothing, or its
row is set aside, or it is dispatched. -/
theorem dispatchOne_world (env : ExecutorEnv) (answers : ℕ → Answers)
    (state : World × DrainResult) (stored : StoredRow) :
    (dispatchOne env answers state stored).1 =
      if stored.repository.dispatchEnabled then
        match rehydrateWorkOrder stored.row stored.repository with
        | .error (.rehydration message) =>
          state.1.quarantine stored.row.id message
        | .error (.other _) => state.1
        | .ok workOrder =>
          (dispatchWorkOrder env (answers stored.row.id)
            ⟨workOrder, stored.row.id⟩ state.1).2
      else state.1 := by
  obtain ⟨world, result⟩ := state
  unfold dispatchOne
  dsimp only
  cases stored.repository.dispatchEnabled with
  | false => rfl
  | true =>
    cases rehydrateWorkOrder stored.row stored.repository with
    | error failure => cases failure <;> rfl
    | ok workOrder =>
      rcases hdispatch : dispatchWorkOrder env (answers stored.row.id)
        ⟨workOrder, stored.row.id⟩ world with ⟨phase, after⟩
      cases phase <;> simp [hdispatch]

/-- The selected rows are rows of the table, and queued. -/
theorem mem_selectQueued {db : Db} {stored : StoredRow}
    (h : stored ∈ db.selectQueued) :
    stored.row ∈ db.workOrders.rows ∧ stored.row.status = .queued ∧
      db.repositories.find stored.row.repositoryId =
        some stored.repository := by
  obtain ⟨row, hrow, hstored⟩ := List.mem_filterMap.mp h
  obtain ⟨repository, hrepository, rfl⟩ := Option.map_eq_some_iff.mp hstored
  have hqueued := Preference.mem_rank.mp (List.mem_of_mem_take hrow)
  obtain ⟨hmem, hstatus⟩ := List.mem_filter.mp hqueued
  exact ⟨hmem, by simpa using hstatus, hrepository⟩

/-! ## What a drain submits -/

/-- The submissions made for a work order. -/
def World.submissionsFor (world : World) (workOrderId : ℕ) :
    List Submission :=
  world.submissions.filter fun submission =>
    submission.workOrderId == workOrderId

section Submissions

variable {id : ℕ}

/-- An accepted submission is one more for its own work order. -/
theorem length_submissionsFor_accept (world : World) (workOrderId : ℕ)
    (spec : WorkOrderSpec) :
    ((world.accept workOrderId spec).submissionsFor id).length
      = (world.submissionsFor id).length
        + if workOrderId = id then 1 else 0 := by
  unfold World.submissionsFor World.accept
  rw [List.filter_append, List.length_append]
  by_cases hid : workOrderId = id
  · simp [hid]
  · simp [hid]

/-- A phase of a dispatch submits for its own work order. -/
theorem submissionsFor_dispatchNext (env : ExecutorEnv) (answers : Answers)
    {input : DispatchWorkOrderInput} (hne : input.workOrderId ≠ id)
    (state : DispatchPhase × World) :
    (dispatchNext env answers input state).2.submissionsFor id =
      state.2.submissionsFor id := by
  obtain ⟨phase, world⟩ := state
  unfold dispatchNext
  cases phase with
  | decide =>
    simp only [dispatchStep]
    split
    · split <;> rfl
    · rfl
  | admission decision runnerKey =>
    simp only [dispatchStep]
    split
    · rfl
    · split <;> rfl
  | create decision runnerKey => rfl
  | write runId runnerKey =>
    simp only [dispatchStep]
    split <;> rfl
  | submit runId runnerKey =>
    simp only [dispatchStep]
    split
    · simp [World.submissionsFor, World.accept, hne]
    · rfl
  | track runId runnerKey =>
    simp only [dispatchStep]
    split <;> rfl
  | update runId runnerKey =>
    simp only [dispatchStep]
    split <;> rfl
  | recover runId failure => cases failure <;> rfl
  | done result => rfl

/-- A dispatch submits for its own work order. -/
theorem submissionsFor_dispatchWorkOrder (env : ExecutorEnv)
    (answers : Answers) {input : DispatchWorkOrderInput}
    (hne : input.workOrderId ≠ id) (world : World) :
    (dispatchWorkOrder env answers input world).2.submissionsFor id =
      world.submissionsFor id := by
  unfold dispatchWorkOrder
  exact Function.Iterate.rec
    (fun state : DispatchPhase × World =>
      state.2.submissionsFor id = world.submissionsFor id)
    rfl (fun _ h => (submissionsFor_dispatchNext env answers hne _).trans h) 8

/-- One work order of the batch submits for itself. -/
theorem submissionsFor_dispatchOne (env : ExecutorEnv)
    (answers : ℕ → Answers) {stored : StoredRow} (hne : stored.row.id ≠ id)
    (state : World × DrainResult) :
    (dispatchOne env answers state stored).1.submissionsFor id =
      state.1.submissionsFor id := by
  rw [dispatchOne_world]
  split
  · split
    · rfl
    · rfl
    next workOrder _ =>
      have hne' : (DispatchWorkOrderInput.mk workOrder
        stored.row.id).workOrderId ≠ id := hne
      exact submissionsFor_dispatchWorkOrder env _ hne' state.1
  · rfl

/-- **A drain submits only for rows that are queued when it selects.** -/
theorem submissionsFor_drain (env : ExecutorEnv) (answers : ℕ → Answers)
    {world : World}
    (h : ∀ row ∈ world.db.workOrders.rows, row.id = id →
      row.status ≠ .queued) :
    (drain env answers world).1.submissionsFor id =
      world.submissionsFor id := by
  have hkept : ∀ stored ∈ world.db.selectQueued,
      ∀ state : World × DrainResult,
        state.1.submissionsFor id = world.submissionsFor id →
        (dispatchOne env answers state stored).1.submissionsFor id =
          world.submissionsFor id := by
    intro stored hstored state hstate
    obtain ⟨hmem, hqueued, -⟩ := mem_selectQueued hstored
    have hne : stored.row.id ≠ id := fun hid => h _ hmem hid hqueued
    exact (submissionsFor_dispatchOne env answers hne state).trans hstate
  exact Machine.run_preserves_of_mem hkept rfl

end Submissions

end Opifex
