import Opifex.DesiredStateGates
import Opifex.HoldBrake

/-!
# A work order that cannot start

The retry ceiling is checked by the projection, against a work order's
`attempt`. A dispatch that fails marks its run and leaves the row queued, under
the attempt it had, and the next drain takes it from there: no tick moves the
attempt (`attempt_runOnce`), and no drain looks at what the projection says.

The ceiling bounds the runs where these two are made good from outside: a tick
lets the order through only while the projection still asks for its dispatch,
and what a failed start has used is counted before the next tick
(`runs_le_ceiling_of_counted`).
-/

namespace Opifex

/-- The runs a work order has had. -/
def Db.countRuns (db : Db) (workOrderId : ℕ) : ℕ :=
  db.runs.rows.countP fun run => run.workOrderId == workOrderId

/-- An execution on these answers ends failed: something throws, and it is not
a capacity refusal. -/
def Answers.fails (answers : Answers) : Bool :=
  match answers.write, answers.submit with
  | .error _, _ => true
  | .ok _, .error (.atCapacity _) => false
  | .ok _, .error (.error _) => true
  | .ok _, .ok _ => !(answers.track.isOk && answers.update.isOk)

/-! ## One dispatch -/

section Dispatch

variable {env : ExecutorEnv} {answers : Answers}
  {input : DispatchWorkOrderInput} {world : World} {id : ℕ}

theorem countRuns_createRun (decision : DispatchDecision)
    (runnerKey : RunnerKey) (workOrderId : ℕ) :
    (world.createRun env workOrderId runnerKey decision).db.countRuns id =
      world.db.countRuns id + if workOrderId = id then 1 else 0 := by
  simp [Db.countRuns, World.createRun, Table.insert, runData,
    List.countP_append, List.countP_singleton]

theorem countRuns_failRun (runId : ℕ) (now : Instant) (message : String) :
    (world.failRun runId now message).db.countRuns id =
      world.db.countRuns id :=
  Table.countP_modify (f := RunRow.fail now message) (fun _ => rfl)
    fun _ => rfl

theorem countRuns_deleteRun_createRun (decision : DispatchDecision)
    (runnerKey : RunnerKey) (workOrderId : ℕ) :
    ((world.createRun env workOrderId runnerKey decision).deleteRun
      world.db.runs.next).db.countRuns id = world.db.countRuns id := by
  unfold Db.countRuns
  rw [show ((world.createRun env workOrderId runnerKey decision).deleteRun
    world.db.runs.next).db.runs.rows = world.db.runs.rows from
      Table.rows_delete_insert
        (runData_key env workOrderId runnerKey decision)]

/-- A dispatch of another work order leaves the count. -/
theorem countRuns_dispatchWorkOrder_of_ne (hne : input.workOrderId ≠ id) :
    (dispatchWorkOrder env answers input world).2.db.countRuns id =
      world.db.countRuns id := by
  cases hadmits : env.admits world.db input.workOrder with
  | false =>
    obtain ⟨result, hdone⟩ := dispatchWorkOrder_refused hadmits
    rw [hdone]
  | true =>
    obtain ⟨decision, runnerKey, hcreate⟩ :=
      dispatchWorkOrder_admitted hadmits
    have hcreated : (world.createRun env input.workOrderId runnerKey
        decision).db.countRuns id = world.db.countRuns id := by
      rw [countRuns_createRun, if_neg hne, Nat.add_zero]
    rw [hcreate, dispatchNext_execution]
    dsimp only
    cases answers.write with
    | error message => exact (countRuns_failRun _ _ _).trans hcreated
    | ok _ =>
      cases answers.submit with
      | error failure =>
        cases failure with
        | atCapacity message => exact countRuns_deleteRun_createRun _ _ _
        | error message => exact (countRuns_failRun _ _ _).trans hcreated
      | ok handle =>
        cases answers.track with
        | error message => exact (countRuns_failRun _ _ _).trans hcreated
        | ok _ =>
          cases answers.update with
          | error message => exact (countRuns_failRun _ _ _).trans hcreated
          | ok _ => exact hcreated

/-- **A dispatch that fails leaves one more run, and the work orders as they
were.** -/
theorem dispatchWorkOrder_of_fails (hfails : answers.fails = true)
    (hadmits : env.admits world.db input.workOrder = true) :
    (dispatchWorkOrder env answers input world).2.db.countRuns
        input.workOrderId = world.db.countRuns input.workOrderId + 1 ∧
      (dispatchWorkOrder env answers input world).2.db.workOrders =
        world.db.workOrders := by
  obtain ⟨decision, runnerKey, hcreate⟩ := dispatchWorkOrder_admitted hadmits
  have hcreated : (world.createRun env input.workOrderId runnerKey
      decision).db.countRuns input.workOrderId =
        world.db.countRuns input.workOrderId + 1 := by
    rw [countRuns_createRun, if_pos rfl]
  have hfailed : ∀ after : World,
      after.db = (world.createRun env input.workOrderId runnerKey
        decision).db →
      ∀ message, (after.failRun world.db.runs.next env.now
          message).db.countRuns input.workOrderId =
        world.db.countRuns input.workOrderId + 1 ∧
      (after.failRun world.db.runs.next env.now message).db.workOrders =
        world.db.workOrders := by
    intro after hafter message
    refine ⟨(countRuns_failRun _ _ _).trans (by rw [hafter, hcreated]), ?_⟩
    show after.db.workOrders = _
    rw [hafter]
    rfl
  rw [hcreate, dispatchNext_execution]
  dsimp only
  unfold Answers.fails at hfails
  cases hwrite : answers.write with
  | error message => exact hfailed _ rfl message
  | ok _ =>
    cases hsubmit : answers.submit with
    | error failure =>
      cases failure with
      | atCapacity message =>
        rw [hwrite, hsubmit] at hfails
        cases hfails
      | error message => exact hfailed _ rfl message
    | ok handle =>
      cases htrack : answers.track with
      | error message => exact hfailed _ rfl message
      | ok _ =>
        cases hupdate : answers.update with
        | error message => exact hfailed _ rfl message
        | ok _ =>
          rw [hwrite, hsubmit, htrack, hupdate] at hfails
          cases hfails

/-- **What a dispatch adds to a work order's runs**, when it fails if it is
that order's. -/
theorem countRuns_dispatchWorkOrder (input : DispatchWorkOrderInput)
    (world : World) (hfails : input.workOrderId = id → answers.fails = true) :
    (dispatchWorkOrder env answers input world).2.db.countRuns id =
      world.db.countRuns id +
        if input.workOrderId = id ∧
          env.admits world.db input.workOrder = true then 1 else 0 := by
  by_cases hid : input.workOrderId = id
  · cases hadmits : env.admits world.db input.workOrder with
    | false =>
      obtain ⟨result, hdone⟩ := dispatchWorkOrder_refused hadmits
      rw [hdone, if_neg fun h => Bool.false_ne_true h.2]
      rfl
    | true =>
      have hmore := (dispatchWorkOrder_of_fails (hfails hid) hadmits).1
      rw [hid] at hmore
      rw [hmore, if_pos ⟨hid, rfl⟩]
  · rw [countRuns_dispatchWorkOrder_of_ne hid, if_neg fun h => hid h.1,
      Nat.add_zero]

end Dispatch

/-! ## One drain -/

/-- At its turn, a selected row is let through to execution: its repository
dispatches, its document rebuilds, and the order is admitted. -/
def letsThrough (env : ExecutorEnv) (db : Db) (stored : StoredRow) : Bool :=
  stored.repository.dispatchEnabled &&
    match rehydrateWorkOrder stored.row stored.repository with
    | .ok workOrder => env.admits db workOrder
    | .error _ => false

/-- The turn at which a work order is let through counts as one. -/
def turn (env : ExecutorEnv) (id : ℕ) (state : World × DrainResult)
    (stored : StoredRow) : ℕ :=
  if stored.row.id = id ∧ letsThrough env state.1.db stored = true then 1
  else 0

section Drain

variable {env : ExecutorEnv} {answers : ℕ → Answers} {id : ℕ}

/-- **One work order of the batch**: a run when it is the one that fails, and
it is let through. -/
theorem countRuns_dispatchOne (hfails : (answers id).fails = true)
    (state : World × DrainResult) (stored : StoredRow) :
    (dispatchOne env answers state stored).1.db.countRuns id =
      state.1.db.countRuns id + turn env id state stored := by
  rw [dispatchOne_world]
  unfold turn letsThrough
  cases stored.repository.dispatchEnabled with
  | false =>
    rw [if_neg Bool.false_ne_true, if_neg fun h => Bool.false_ne_true h.2]
    rfl
  | true =>
    rw [if_pos rfl]
    cases rehydrateWorkOrder stored.row stored.repository with
    | error failure =>
      rw [if_neg fun h => Bool.false_ne_true h.2]
      cases failure <;> rfl
    | ok workOrder =>
      exact countRuns_dispatchWorkOrder ⟨workOrder, stored.row.id⟩ state.1
        fun hid => by rwa [show stored.row.id = id from hid]

/-- **A drain adds a run for each turn the work order is let through.** -/
theorem countRuns_drain (hfails : (answers id).fails = true) (world : World) :
    (drain env answers world).1.db.countRuns id =
      world.db.countRuns id +
        Machine.total (dispatchOne env answers) (turn env id) (world, .none)
          world.db.selectQueued :=
  Machine.measure_run (fun state : World × DrainResult =>
    state.1.db.countRuns id)
    (fun stored _ state => countRuns_dispatchOne hfails state stored) _

end Drain

/-! ## One tick -/

section Tick

/-- One issue of a pass leaves the runs as they are. -/
theorem runs_projectNext (input : ProjectionInput) (pass : ProjectionPass)
    (issue : NormalizedIssue) :
    (projectNext input pass issue).db.runs = pass.db.runs := by
  rcases projectNext_db input pass issue with ⟨existing, -, hdb⟩ |
    ⟨-, hdb | ⟨workOrder, held, hdb⟩⟩
  · rw [hdb]
    split
    · rcases reconcileHold_db input.now existing issue pass with hkept | hheld
      · rw [hkept]
      · rw [hheld]
        rfl
    · rfl
  · rw [hdb]
  · rw [hdb]
    rfl

/-- A pass leaves the runs as they are. -/
theorem runs_project (input : ProjectionInput) (db : Db) :
    (project input db).db.runs = db.runs := by
  have hkept : ∀ (pass : ProjectionPass) (issue : NormalizedIssue),
      pass.db.runs = db.runs →
      (projectNext input pass issue).db.runs = db.runs :=
    fun pass issue h => (runs_projectNext input pass issue).trans h
  exact Machine.run_preserves hkept _ rfl

/-- Observing a repository leaves the runs as they are. -/
theorem runs_observeOne (tick : TickInput) (db : Db)
    (repository : RepositoryRow) :
    (observeOne tick db repository).runs = db.runs := by
  unfold observeOne
  split
  · show (projectWorkOrders tick repository db).runs = db.runs
    unfold projectWorkOrders
    dsimp only
    split
    · rfl
    · split
      · rfl
      · exact runs_project _ db
  · rfl

/-- The sweep leaves the runs as they are. -/
theorem runs_observeAll (tick : TickInput) (db : Db) :
    (observeAll tick db).runs = db.runs := by
  have hkept : ∀ (db' : Db) (repository : RepositoryRow),
      db'.runs = db.runs → (observeOne tick db' repository).runs = db.runs :=
    fun db' repository h => (runs_observeOne tick db' repository).trans h
  exact Machine.run_preserves hkept _ rfl

variable {id : ℕ}

/-- A phase of a resume creates and deletes no run. -/
theorem countRuns_resumeNext (env : ExecutorEnv) (answers : Answers)
    (runId : ℕ) (state : ResumePhase × World) :
    (resumeNext env answers runId state).2.db.countRuns id =
      state.2.db.countRuns id := by
  obtain ⟨phase, world⟩ := state
  have hupdated : ∀ (status : RunStatus) (f : RunRow → RunRow)
      (hf : ∀ r, (f r).id = r.id), (∀ r, (f r).workOrderId = r.workOrderId) →
      (world.updateRun runId status f hf).db.countRuns id =
        world.db.countRuns id :=
    fun status f hf h => Table.countP_modify hf fun r => by rw [h]
  have hmodified : ∀ (f : RunRow → RunRow) (hf : ∀ r, (f r).id = r.id),
      (∀ r, (f r).workOrderId = r.workOrderId) →
      (world.modifyRun runId f hf).db.countRuns id =
        world.db.countRuns id :=
    fun f hf h => Table.countP_modify hf fun r => by rw [h]
  unfold resumeNext
  cases phase with
  | gate =>
    simp only [resumeStep]
    split <;> rfl
  | admission parked =>
    simp only [resumeStep]
    split
    · rfl
    · split <;> rfl
  | claim parked =>
    simp only [resumeStep]
    split
    · exact hupdated _ _ _ fun _ => rfl
    · rfl
  | submit parked =>
    simp only [resumeStep]
    split <;> rfl
  | closeAttempts parked handle =>
    simp only [resumeStep]
    split
    · exact hmodified _ _ fun _ => rfl
    · rfl
  | openAttempt parked handle =>
    simp only [resumeStep]
    split
    · exact hmodified _ _ fun _ => rfl
    · rfl
  | track parked =>
    simp only [resumeStep]
    split <;> rfl
  | recover parked failure =>
    cases failure <;> exact hupdated _ _ _ fun _ => rfl
  | done result => rfl

/-- Nor does a resume. -/
theorem countRuns_resumeParkedRun (env : ExecutorEnv) (answers : Answers)
    (runId : ℕ) (world : World) :
    (resumeParkedRun env answers runId world).2.db.countRuns id =
      world.db.countRuns id := by
  unfold resumeParkedRun
  exact Function.Iterate.rec
    (fun state : ResumePhase × World =>
      state.2.db.countRuns id = world.db.countRuns id)
    rfl (fun _ h => (countRuns_resumeNext env answers runId _).trans h) 8

/-- Before its drain, a tick creates and deletes no run. -/
theorem countRuns_beforeDrain (tick : TickInput) (world : World) :
    (beforeDrain tick world).db.countRuns id = world.db.countRuns id := by
  have hswept : (afterSweep tick world).db.countRuns id =
      world.db.countRuns id := by
    show (observeAll tick world.db).runs.rows.countP _ = _
    rw [runs_observeAll]
    rfl
  have hkept : ∀ runId ∈ tick.resumes, ∀ world' : World,
      world'.db.countRuns id = world.db.countRuns id →
      (resumeParkedRun tick.env (tick.resumeAnswers runId) runId
        world').2.db.countRuns id = world.db.countRuns id :=
    fun runId _ world' h =>
      (countRuns_resumeParkedRun tick.env _ runId world').trans h
  exact Machine.run_preserves_of_mem hkept hswept

/-- How often the drain of a tick lets a work order through. -/
def TickInput.starts (tick : TickInput) (id : ℕ) (world : World) : ℕ :=
  if tick.enabled then
    Machine.total (dispatchOne tick.env tick.answers) (turn tick.env id)
      (beforeDrain tick world, .none)
      (beforeDrain tick world).db.selectQueued
  else 0

/-- **What a tick adds to the runs of a work order that cannot start.** -/
theorem countRuns_runOnce {tick : TickInput}
    (hfails : (tick.answers id).fails = true) (world : World) :
    (runOnce tick world).db.countRuns id =
      world.db.countRuns id + tick.starts id world := by
  unfold runOnce TickInput.starts
  split
  · rw [countRuns_drain hfails, countRuns_beforeDrain]
  · rfl

end Tick

/-! ## The attempt the ceiling is checked against -/

/-- A row with an attempt. -/
def AttemptIs (id attempt : ℕ) (db : Db) : Prop :=
  ∃ row, db.workOrders.find id = some row ∧ row.attempt = attempt

section Attempt

variable {id attempt : ℕ} {db : Db}

/-- An update that keeps the attempt. -/
theorem AttemptIs.update (h : AttemptIs id attempt db) (other : ℕ)
    {f : WorkOrderRow → WorkOrderRow} (hf : ∀ r, (f r).id = r.id)
    (hattempt : ∀ r, (f r).attempt = r.attempt) :
    AttemptIs id attempt (db.updateWorkOrder other f hf) := by
  obtain ⟨row, hfind, rfl⟩ := h
  refine ⟨if row.id == other then f row else row, ?_, ?_⟩
  · rw [Db.find_updateWorkOrder, hfind, Option.map_some]
  · split_ifs
    · exact hattempt row
    · rfl

theorem attempt_holdUpdate (shouldHold : Bool) (now : Instant)
    (row : WorkOrderRow) :
    (holdUpdate shouldHold now row).attempt = row.attempt := by
  cases shouldHold <;> rfl

/-- One issue of a pass leaves the attempt. -/
theorem attempt_projectNext {input : ProjectionInput} (pass : ProjectionPass)
    (issue : NormalizedIssue) (h : AttemptIs id attempt pass.db) :
    AttemptIs id attempt (projectNext input pass issue).db := by
  obtain ⟨row, hfind, rfl⟩ := h
  refine ⟨_, find_projectNext input hfind issue, ?_⟩
  split_ifs
  · exact attempt_holdUpdate _ _ row
  · rfl

/-- Observing a repository leaves the attempt. -/
theorem attempt_observeOne {tick : TickInput} (db : Db)
    (repository : RepositoryRow) (h : AttemptIs id attempt db) :
    AttemptIs id attempt (observeOne tick db repository) := by
  unfold observeOne
  split
  · show AttemptIs id attempt (projectWorkOrders tick repository db)
    unfold projectWorkOrders
    dsimp only
    split
    · exact h
    · split
      · exact h
      · exact Machine.run_preserves attempt_projectNext _ h
  · exact h

/-- A phase of a dispatch leaves the attempt. -/
theorem attempt_dispatchNext {env : ExecutorEnv} {answers : Answers}
    {input : DispatchWorkOrderInput} (state : DispatchPhase × World)
    (h : AttemptIs id attempt state.2.db) :
    AttemptIs id attempt (dispatchNext env answers input state).2.db := by
  obtain ⟨phase, world⟩ := state
  unfold dispatchNext
  cases phase with
  | decide =>
    simp only [dispatchStep]
    split
    · split <;> exact h
    · exact h
  | admission decision runnerKey =>
    simp only [dispatchStep]
    split
    · exact h
    · split <;> exact h
  | create decision runnerKey => exact h
  | write runId runnerKey =>
    simp only [dispatchStep]
    split <;> exact h
  | submit runId runnerKey =>
    simp only [dispatchStep]
    split <;> exact h
  | track runId runnerKey =>
    simp only [dispatchStep]
    split <;> exact h
  | update runId runnerKey =>
    simp only [dispatchStep]
    split
    · exact h.update _ _ fun _ => rfl
    · exact h
  | recover runId failure => cases failure <;> exact h
  | done result => exact h

/-- One work order of the batch leaves the attempt. -/
theorem attempt_dispatchOne {env : ExecutorEnv} {answers : ℕ → Answers}
    (state : World × DrainResult) (stored : StoredRow)
    (h : AttemptIs id attempt state.1.db) :
    AttemptIs id attempt (dispatchOne env answers state stored).1.db := by
  rw [dispatchOne_world]
  split
  · split
    · exact h.update _ _ fun _ => rfl
    · exact h
    · unfold dispatchWorkOrder
      exact Function.Iterate.rec
        (fun state : DispatchPhase × World => AttemptIs id attempt state.2.db)
        h (fun _ => attempt_dispatchNext _) 8
  · exact h

/-- What precedes the drain leaves the attempt. -/
theorem attempt_beforeDrain {tick : TickInput} {world : World}
    (h : AttemptIs id attempt world.db) :
    AttemptIs id attempt (beforeDrain tick world).db := by
  unfold AttemptIs
  rw [workOrders_beforeDrain]
  exact Machine.run_preserves attempt_observeOne _ h

/-- So does the drain. -/
theorem attempt_drain {env : ExecutorEnv} {answers : ℕ → Answers}
    {world : World} (h : AttemptIs id attempt world.db) :
    AttemptIs id attempt (drain env answers world).1.db := by
  have hkept : ∀ (state : World × DrainResult) (stored : StoredRow),
      AttemptIs id attempt state.1.db →
        AttemptIs id attempt (dispatchOne env answers state stored).1.db :=
    attempt_dispatchOne
  exact Machine.run_preserves hkept _ h

/-- **No tick changes the attempt of a row**, however its dispatch ends: the
check against the ceiling answers as it did before the first one. -/
theorem attempt_runOnce {tick : TickInput} {world : World}
    (h : AttemptIs id attempt world.db) :
    AttemptIs id attempt (runOnce tick world).db := by
  unfold runOnce
  split
  · exact attempt_drain (attempt_beforeDrain h)
  · exact h

/-- The attempt of a work order, and `0` of one that is not stored. -/
def Db.attemptOf (db : Db) (id : ℕ) : ℕ :=
  ((db.workOrders.find id).map (·.attempt)).getD 0

theorem AttemptIs.attemptOf_eq (h : AttemptIs id attempt db) :
    db.attemptOf id = attempt := by
  obtain ⟨row, hfind, rfl⟩ := h
  unfold Db.attemptOf
  rw [hfind]
  rfl

/-- What leaves the attempt of a stored work order does not lower it. -/
theorem attemptOf_le {after : Db}
    (hkept : ∀ attempt, AttemptIs id attempt db → AttemptIs id attempt after) :
    db.attemptOf id ≤ after.attemptOf id := by
  cases hfind : db.workOrders.find id with
  | none =>
    unfold Db.attemptOf
    rw [hfind]
    exact Nat.zero_le _
  | some row =>
    have hbefore : AttemptIs id row.attempt db := ⟨row, hfind, rfl⟩
    rw [hbefore.attemptOf_eq, (hkept _ hbefore).attemptOf_eq]

end Attempt

/-! ## The check of the projection -/

/-- A stored work order as the projection is handed it, with its newest
run. -/
def WorkOrderRow.observed (row : WorkOrderRow) (run : Option ObservedRun) :
    ObservedWorkOrder where
  identity := row.identity
  issueNumber := row.issueNumber
  attempt := row.attempt
  status := row.status
  run := run

/-- The projection asks for a dispatch of a row, under a retry ceiling. -/
def AsksForDispatch (retryCeiling : ℕ) (row : WorkOrderRow) : Prop :=
  ∃ (issue : NormalizedIssue) (run : Option ObservedRun)
    (observed : ObservedState), observed.retryCeiling = retryCeiling
      ∧ (projectIntent issue (some (row.observed run)) observed).intent
        = .dispatch

/-- **What is asked for has attempts left**, unless it is a quarantine that was
cleared; and what has some left is asked for, of an issue that is ready. -/
theorem asksForDispatch_iff {retryCeiling : ℕ} {row : WorkOrderRow}
    (hstatus : row.status ≠ .quarantined) :
    AsksForDispatch retryCeiling row ↔ row.attempt < retryCeiling := by
  constructor
  · rintro ⟨issue, run, observed, rfl, hdispatch⟩
    obtain ⟨-, ⟨w, hw, hquarantined, -⟩ | ⟨-, -, hready⟩⟩ :=
      projectIntent_dispatch_iff.mp hdispatch
    · rw [← Option.some.inj hw] at hquarantined
      exact absurd hquarantined hstatus
    · obtain ⟨-, -, hattempt⟩ := readyIntent_dispatch.mp hready
      exact hattempt _ rfl
  · intro hattempt
    refine ⟨exportIssue, none,
      ⟨⟨"acme", "app", true, none⟩, [], [], [], retryCeiling⟩, rfl, ?_⟩
    refine projectIntent_dispatch_iff.mpr
      ⟨by decide, Or.inr ⟨?_, by decide, readyIntent_dispatch.mpr ⟨rfl, ?_, ?_⟩⟩⟩
    · intro w hw
      rw [← Option.some.inj hw]
      exact ⟨hstatus, rfl⟩
    · exact spendReached_eq_none.mp rfl
    · intro w hw
      rw [← Option.some.inj hw]
      exact hattempt

/-! ## Every sequence of ticks -/

/-- A tick, and what something else writes before the next one: a person, another task,
or a count of the attempt. -/
structure RetryTurn where
  tick : TickInput
  elsewhere : World → World

/-- The tick of a turn, and then what is written. -/
def retryStep (world : World) (turn : RetryTurn) : World :=
  turn.elsewhere (runOnce turn.tick world)

/-- **An attempt that is counted.** Where the tick of a turn lets the work
order through, the projection asks for a dispatch of its row, and before the
next tick its attempt is raised. What else is written creates no run of it and
takes no attempt back. -/
structure AttemptCounted (retryCeiling id : ℕ) (world : World) (turn : RetryTurn) :
    Prop where
  asked : turn.tick.starts id world ≠ 0 →
    ∀ stored ∈ (beforeDrain turn.tick world).db.selectQueued,
      stored.row.id = id → AsksForDispatch retryCeiling stored.row
  raised : turn.tick.starts id world ≠ 0 →
    (runOnce turn.tick world).db.attemptOf id
      < (retryStep world turn).db.attemptOf id
  kept : (runOnce turn.tick world).db.attemptOf id
    ≤ (retryStep world turn).db.attemptOf id
  created : (retryStep world turn).db.countRuns id
    ≤ (runOnce turn.tick world).db.countRuns id

section Turns

variable {retryCeiling id : ℕ} {world : World}

/-- A batch has a row of a work order once. -/
theorem countP_selectQueued_le (db : Db) (id : ℕ) :
    db.selectQueued.countP (·.row.id == id) ≤ 1 := by
  have hkeys := List.nodup_iff_count_le_one.mp db.workOrders.nodup id
  rw [List.count, List.countP_map] at hkeys
  unfold Db.selectQueued
  rw [List.countP_filterMap]
  calc List.countP _ _
      ≤ List.countP (fun row : WorkOrderRow => row.id == id) _ := by
        refine List.countP_mono_left fun row _ h => ?_
        cases hrepository : db.repositories.find row.repositoryId with
        | none =>
          rw [hrepository] at h
          cases h
        | some repository =>
          rw [hrepository] at h
          exact h
    _ ≤ List.countP (fun row : WorkOrderRow => row.id == id)
          (Preference.rank byQueuedAt
            (db.workOrders.rows.filter fun row => row.status == .queued)) :=
        (List.take_sublist _ _).countP_le
    _ = List.countP (fun row : WorkOrderRow => row.id == id)
          (db.workOrders.rows.filter fun row => row.status == .queued) :=
        Preference.rank_perm_self.countP_eq _
    _ ≤ List.countP (fun row : WorkOrderRow => row.id == id)
          db.workOrders.rows := List.filter_sublist.countP_le
    _ ≤ 1 := hkeys

/-- What a tick lets through is in its batch. -/
theorem starts_le_countP (tick : TickInput) :
    tick.starts id world
      ≤ (beforeDrain tick world).db.selectQueued.countP (·.row.id == id) := by
  unfold TickInput.starts
  split
  · refine Machine.total_le_countP (fun state stored => ?_) _ _
    unfold turn
    by_cases hid : stored.row.id = id
    · rw [if_pos (beq_iff_eq.mpr hid)]
      split <;> decide
    · rw [if_neg fun h => hid h.1]
      exact Nat.zero_le _
  · exact Nat.zero_le _

theorem exists_of_starts {tick : TickInput} (h : tick.starts id world ≠ 0) :
    tick.enabled = true ∧ ∃ stored ∈ (beforeDrain tick world).db.selectQueued,
      stored.row.id = id := by
  constructor
  · by_contra hdisabled
    exact h (if_neg hdisabled)
  · have hpos : 0 < (beforeDrain tick world).db.selectQueued.countP
        (·.row.id == id) :=
      Nat.lt_of_lt_of_le (Nat.pos_of_ne_zero h) (starts_le_countP tick)
    obtain ⟨stored, hstored, hid⟩ := List.countP_pos_iff.mp hpos
    exact ⟨stored, hstored, beq_iff_eq.mp hid⟩

/-- **What a ceiling bounds**, at each step of a run: no more runs than attempts
were counted, and none past the ceiling. -/
structure AttemptsHold (retryCeiling id base : ℕ) (world : World) : Prop where
  counted : world.db.countRuns id ≤ base + world.db.attemptOf id
  within : world.db.countRuns id ≤ base + retryCeiling

theorem attemptsHold_retryStep {base : ℕ} (h : AttemptsHold retryCeiling id base world)
    {turn : RetryTurn} (hfails : (turn.tick.answers id).fails = true)
    (hcounted : AttemptCounted retryCeiling id world turn) :
    AttemptsHold retryCeiling id base (retryStep world turn) := by
  have hruns := countRuns_runOnce hfails world
  have hattempt : world.db.attemptOf id
      ≤ (runOnce turn.tick world).db.attemptOf id :=
    attemptOf_le fun _ => attempt_runOnce
  have hcreated := hcounted.created
  have hkept := hcounted.kept
  have hbefore := h.counted
  have hwithin := h.within
  by_cases hstarts : turn.tick.starts id world = 0
  · exact ⟨by omega, by omega⟩
  · obtain ⟨henabled, stored, hstored, hid⟩ := exists_of_starts hstarts
    obtain ⟨hmem, hqueued, -⟩ := mem_selectQueued hstored
    have hleft : stored.row.attempt < retryCeiling :=
      (asksForDispatch_iff (by rw [hqueued]; decide)).mp
        (hcounted.asked hstarts stored hstored hid)
    -- the attempt the projection was asked about is the one the tick leaves
    have hselected : AttemptIs id stored.row.attempt
        (beforeDrain turn.tick world).db :=
      ⟨stored.row, Table.find_eq_some.mpr ⟨hmem, hid⟩, rfl⟩
    have hafter : (runOnce turn.tick world).db.attemptOf id
        = stored.row.attempt := by
      unfold runOnce
      rw [if_pos henabled]
      exact (attempt_drain hselected).attemptOf_eq
    have hone : turn.tick.starts id world ≤ 1 :=
      (starts_le_countP turn.tick).trans (countP_selectQueued_le _ id)
    have hraised := hcounted.raised hstarts
    exact ⟨by omega, by omega⟩

/-- Along every run. -/
theorem attemptsHold_run {base : ℕ} {turns : List RetryTurn}
    (hbase : AttemptsHold retryCeiling id base world)
    (hfails : ∀ turn ∈ turns, (turn.tick.answers id).fails = true)
    (h : Machine.Always retryStep (AttemptCounted retryCeiling id) world turns) :
    AttemptsHold retryCeiling id base (Machine.run retryStep world turns) := by
  induction turns generalizing world with
  | nil => exact hbase
  | cons turn turns ih =>
    refine ih ?_ (fun later hlater => hfails later
      (List.mem_cons_of_mem turn hlater)) h.2
    exact attemptsHold_retryStep hbase (hfails turn List.mem_cons_self) h.1

end Turns

/-- The loop without anything else writing. -/
def runTicks (world : World) (ticks : List TickInput) : World :=
  Machine.run (fun world tick => runOnce tick world) world ticks

/-- A tick that observes nothing new, and whose records of a work order cannot
be written. -/
def failingTick : TickInput where
  env := localEnv
  enabled := true
  leaseAcquired := true
  canSpend := true
  canObserve := fun _ => true
  issues := fun _ => [exportIssue]
  head := fun _ => some appHead
  answers := fun _ => { allOk with write := .error "connection lost" }
  resumes := []
  resumeAnswers := fun _ => allOk

/-- A failing tick, and a retry policy that counts the attempt. -/
def countedTurn : RetryTurn where
  tick := failingTick
  elsewhere world :=
    { world with
      db :=
        world.db.updateWorkOrder 0 (fun row =>
          { row with attempt := row.attempt + 1 }) fun _ => rfl }

/-- It counts, while the rows it selects have attempts left. -/
theorem attemptCounted_countedTurn {world : World}
    (hleft : ∀ stored ∈ (beforeDrain failingTick world).db.selectQueued,
      stored.row.attempt < 3)
    (hraised : (runOnce failingTick world).db.attemptOf 0
      < (retryStep world countedTurn).db.attemptOf 0) :
    AttemptCounted 3 0 world countedTurn where
  asked _ stored hstored _ := by
    obtain ⟨-, hqueued, -⟩ := mem_selectQueued hstored
    exact (asksForDispatch_iff (by rw [hqueued]; decide)).mpr
      (hleft stored hstored)
  raised _ := hraised
  kept := hraised.le
  created := Nat.le_refl _

end Opifex
