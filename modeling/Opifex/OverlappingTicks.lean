import Opifex.RetryCeiling

/-!
# Overlapping ticks

The interval does not wait for the tick before, and the lease covers only the
sweep: a tick that does not get it resumes and drains all the same. So ticks
interleave, statement by statement and call by call, and between a drain's
select and the status update of what it dispatched another drain can select
the same row.

A system is a world and the ticks open on it. A step moves one of them by one
statement or call, or a runner reports. Nothing here locks a work order; what a
schedule has to respect for no work order to be dispatched twice is a guard on
five of the steps. Two invariants carry it. One says who accounts for a live
run: the status of its row, or a dispatch still under way. The other says that
no two ticks have a dispatch of one work order under way, and that a resume
under way is of a row that is not in the queue; so while a row is queued, one
submission is all that can be made for it.
-/

namespace Opifex

/-! ## A tick, step by step -/

/-- Where a tick is: which statement it comes to next, with what it has read before.
Between two stages other ticks may move. -/
inductive Stage where
  | start
  /-- Under the lease, with the repositories left to observe. -/
  | sweeping (repositories : List RepositoryRow)
  /-- In the pass of a repository, with the issues left to it. -/
  | projecting (input : ProjectionInput) (result : ProjectionResult)
      (log : List LoggedFailure) (issues : List NormalizedIssue)
      (repositories : List RepositoryRow)
  | touching (repository : RepositoryRow) (repositories : List RepositoryRow)
  | resuming (runIds : List ℕ)
  | resumingOne (runId : ℕ) (phase : ResumePhase) (runIds : List ℕ)
  | selecting
  | draining (batch : List StoredRow)
  | dispatching (input : DispatchWorkOrderInput) (phase : DispatchPhase)
      (batch : List StoredRow)
  | finished

/-- The stages a tick is in only while it has the lease. -/
def Stage.underLease : Stage → Bool
  | .sweeping _ => true
  | .projecting .. => true
  | .touching .. => true
  | _ => false

/-- **One step of a tick**: a statement, a call, or a decision on what was
read. -/
def tickStep (tick : TickInput) (leaseFree : Bool) :
    Stage → World → Stage × World
  | .start, world =>
    if tick.enabled then
      if tick.canSpend && leaseFree then
        (.sweeping world.db.listObserved, world)
      else (.resuming tick.resumes, world)
    else (.finished, world)
  | .sweeping [], world => (.resuming tick.resumes, world)
  | .sweeping (repository :: repositories), world =>
    if tick.observes repository then
      let issues := tick.issues repository
      let existingWorkOrders := world.db.loadWorkOrders repository.id
      if !needsBaseCommit issues existingWorkOrders then
        (.touching repository repositories, world)
      else
        match tick.head repository with
        | none => (.touching repository repositories, world)
        | some baseCommit =>
          (.projecting
            ⟨repository, issues, existingWorkOrders, baseCommit, tick.env.now⟩
            .none [] issues repositories, world)
    else (.sweeping repositories, world)
  | .projecting input _ _ [] repositories, world =>
    (.touching input.repository repositories, world)
  | .projecting input result log (issue :: issues) repositories, world =>
    let pass := projectNext input ⟨world.db, result, log⟩ issue
    (.projecting input pass.result pass.log issues repositories,
      { world with db := pass.db })
  | .touching repository repositories, world =>
    (.sweeping repositories,
      { world with db := world.db.touchRepository repository.id tick.env.now })
  | .resuming [], world => (.selecting, world)
  | .resuming (runId :: runIds), world =>
    (.resumingOne runId .gate runIds, world)
  | .resumingOne _ (.done _) runIds, world => (.resuming runIds, world)
  | .resumingOne runId phase runIds, world =>
    let (phase, world) :=
      resumeStep tick.env (tick.resumeAnswers runId) runId phase world
    (.resumingOne runId phase runIds, world)
  | .selecting, world => (.draining world.db.selectQueued, world)
  | .draining [], world => (.finished, world)
  | .draining (stored :: batch), world =>
    if !stored.repository.dispatchEnabled then (.draining batch, world)
    else
      match rehydrateWorkOrder stored.row stored.repository with
      | .error (.rehydration message) =>
        (.draining batch, world.quarantine stored.row.id message)
      | .error (.other _) => (.draining batch, world)
      | .ok workOrder =>
        (.dispatching ⟨workOrder, stored.row.id⟩ .decide batch, world)
  | .dispatching _ (.done _) batch, world => (.draining batch, world)
  | .dispatching input phase batch, world =>
    let (phase, world) :=
      dispatchStep tick.env (tick.answers input.workOrderId) input phase world
    (.dispatching input phase batch, world)
  | .finished, world => (.finished, world)

/-- A resume that is not done takes its next phase. -/
theorem tickStep_resumingOne {phase : ResumePhase} (tick : TickInput)
    (leaseFree : Bool) (runId : ℕ) (runIds : List ℕ) (world : World)
    (h : ∀ result, phase ≠ .done result) :
    tickStep tick leaseFree (.resumingOne runId phase runIds) world =
      (.resumingOne runId (resumeNext tick.env (tick.resumeAnswers runId)
          runId (phase, world)).1 runIds,
        (resumeNext tick.env (tick.resumeAnswers runId) runId
          (phase, world)).2) := by
  cases phase with
  | done result => exact absurd rfl (h result)
  | _ => rfl

/-- So does a dispatch. -/
theorem tickStep_dispatching {phase : DispatchPhase} (tick : TickInput)
    (leaseFree : Bool) (input : DispatchWorkOrderInput)
    (batch : List StoredRow) (world : World)
    (h : ∀ result, phase ≠ .done result) :
    tickStep tick leaseFree (.dispatching input phase batch) world =
      (.dispatching input (dispatchNext tick.env
          (tick.answers input.workOrderId) input (phase, world)).1 batch,
        (dispatchNext tick.env (tick.answers input.workOrderId) input
          (phase, world)).2) := by
  cases phase with
  | done result => exact absurd rfl (h result)
  | _ => rfl

/-! ## The system -/

/-- A tick that has started, and the statement it comes to next. The timer does not wait
for a tick to end before it starts another. -/
structure OpenTick where
  tick : TickInput
  stage : Stage

/-- The database and the runners, with every tick that is under way. One step of one of
them, or one report of a run, is a step of the system. -/
structure System where
  world : World
  ticks : List OpenTick

/-- `pg_try_advisory_lock` would succeed. -/
def System.leaseFree (system : System) : Bool :=
  system.ticks.all fun opened => !opened.stage.underLease

/-- What a runner, or the poller, may say of a run that is live. -/
def World.report (world : World) (runId : ℕ) (status : RunStatus) : World :=
  { world with
    db :=
      { world.db with
        runs :=
          world.db.runs.modify (fun run => run.id == runId && run.status.isLive)
            (fun run => { run with status := status }) fun _ => rfl } }

/-- What happens next: a tick goes on, or a run reports its status. A list of them is
one interleaving. -/
inductive SystemInput where
  /-- The open tick at an index takes its next step. -/
  | advance (index : ℕ)
  | report (runId : ℕ) (status : RunStatus)
deriving DecidableEq

/-- A step of the system. A tick reads the lease as the other ticks leave it. -/
def systemStep (system : System) : SystemInput → System
  | .advance index =>
    match system.ticks[index]? with
    | none => system
    | some opened =>
      let (stage, world) :=
        tickStep opened.tick system.leaseFree opened.stage system.world
      ⟨world, system.ticks.set index ⟨opened.tick, stage⟩⟩
  | .report runId status =>
    { system with world := system.world.report runId status }

/-- **No work order has two live runs.** -/
def Exclusive (db : Db) : Prop :=
  ∀ run ∈ db.runs.rows, ∀ other ∈ db.runs.rows,
    run.status.isLive = true → other.status.isLive = true →
      run.workOrderId = other.workOrderId → run = other

instance (db : Db) : Decidable (Exclusive db) :=
  inferInstanceAs (Decidable (∀ run ∈ db.runs.rows,
    ∀ other ∈ db.runs.rows, run.status.isLive = true →
      other.status.isLive = true → run.workOrderId = other.workOrderId →
        run = other))

/-- **While it is queued, a work order is submitted at most once**: along every
stretch of a run in which its row is queued before each step. -/
def SubmittedOnce (start : System) (steps : List SystemInput) : Prop :=
  ∀ id before stretch, before ++ stretch <+: steps →
    Machine.Always systemStep (fun system _ => system.world.db.isQueued id = true)
      (Machine.run systemStep start before) stretch →
    ((Machine.run systemStep start (before ++ stretch)).world.submissionsFor
        id).length
      ≤ ((Machine.run systemStep start before).world.submissionsFor id).length
        + 1

/-- **No double dispatch**, along a run: no state that is reached has two live
runs for one work order, and no queued work order is submitted twice. -/
structure DispatchesOnce (start : System) (steps : List SystemInput) : Prop
    where
  exclusive : ∀ reached, reached <+: steps →
    Exclusive (Machine.run systemStep start reached).world.db
  submitted : SubmittedOnce start steps

/-! ## Who accounts for a live run -/

/-- The run a dispatch has created and not yet left. -/
def DispatchPhase.created : DispatchPhase → Option ℕ
  | .write runId _ => some runId
  | .submit runId _ => some runId
  | .track runId _ => some runId
  | .update runId _ => some runId
  | .recover runId _ => some runId
  | _ => none

/-- The dispatch a tick has under way: its work order, and the run it
created. -/
def Stage.inFlight : Stage → Option (ℕ × ℕ)
  | .dispatching input phase _ =>
    phase.created.map fun runId => (input.workOrderId, runId)
  | _ => none

/-- A tick holds a submission that the rows do not show yet. -/
def System.InFlight (system : System) (flight : ℕ × ℕ) : Prop :=
  ∃ (index : ℕ) (opened : OpenTick), system.ticks[index]? = some opened ∧
    opened.stage.inFlight = some flight

/-- **The invariant**: no work order has two live runs, and the work order of
a live run has a row that no drain selects and no hold moves, unless the
dispatch that created the run is under way. -/
structure Accounted (system : System) : Prop where
  exclusive : Exclusive system.world.db
  live : ∀ run ∈ system.world.db.runs.rows, run.status.isLive = true →
    ∃ row, system.world.db.workOrders.find run.workOrderId = some row ∧
      (isHoldable row.status = true →
        system.InFlight (run.workOrderId, run.id))

/-- What every statement but the creation of a run keeps: the live runs were
live, and a row that a hold moves was one. -/
structure Keeps (before after : Db) : Prop where
  live : ∀ run ∈ after.runs.rows, run.status.isLive = true →
    ∃ old ∈ before.runs.rows, old.status.isLive = true ∧ old.id = run.id ∧
      old.workOrderId = run.workOrderId
  rows : ∀ id row, before.workOrders.find id = some row →
    ∃ row', after.workOrders.find id = some row' ∧
      (isHoldable row'.status = true → isHoldable row.status = true)

namespace Keeps

variable {before after : Db}

/-- The tables that matter are as they were. -/
theorem of_eq (hruns : after.runs = before.runs)
    (hrows : after.workOrders = before.workOrders) : Keeps before after where
  live run hrun hlive := ⟨run, hruns ▸ hrun, hlive, rfl, rfl⟩
  rows _ row hfind := ⟨row, hrows ▸ hfind, fun h => h⟩

theorem refl (db : Db) : Keeps db db := of_eq rfl rfl

/-- Runs are updated, and none becomes live. -/
theorem of_modify {p : RunRow → Bool} {f : RunRow → RunRow}
    {hf : ∀ r, Keyed.key (f r) = Keyed.key r}
    (hlive : ∀ r, p r = true → (f r).status.isLive = true →
      r.status.isLive = true)
    (howner : ∀ r, (f r).workOrderId = r.workOrderId) :
    Keeps before { before with runs := before.runs.modify p f hf } where
  live run hrun hrunning := by
    obtain ⟨old, hold, rfl⟩ := (Table.mem_modify hf).mp hrun
    refine ⟨old, hold, ?_⟩
    by_cases hp : p old = true
    · rw [if_pos hp] at hrunning ⊢
      exact ⟨hlive old hp hrunning, (hf old).symm, (howner old).symm⟩
    · rw [if_neg hp] at hrunning ⊢
      exact ⟨hrunning, rfl, rfl⟩
  rows _ row hfind := ⟨row, hfind, fun h => h⟩

/-- One work order is updated, and not to a status a hold moves. -/
theorem of_updateWorkOrder {id : ℕ} {f : WorkOrderRow → WorkOrderRow}
    {hf : ∀ r, (f r).id = r.id}
    (hstatus : ∀ r, isHoldable (f r).status = false) :
    Keeps before (before.updateWorkOrder id f hf) where
  live run hrun hlive := ⟨run, hrun, hlive, rfl, rfl⟩
  rows other row hfind := by
    refine ⟨if row.id == id then f row else row, ?_, ?_⟩
    · rw [Db.find_updateWorkOrder, hfind, Option.map_some]
    · split_ifs
      · intro h
        rw [hstatus row] at h
        exact absurd h Bool.false_ne_true
      · exact fun h => h

/-- A run is deleted. -/
theorem of_delete (runId : ℕ) :
    Keeps before { before with runs := before.runs.delete runId } where
  live run hrun hlive := ⟨run, (Table.mem_delete.mp hrun).1, hlive, rfl, rfl⟩
  rows _ row hfind := ⟨row, hfind, fun h => h⟩

end Keeps

/-- A dispatch is no longer needed to account for its run: the run is not
live, or its work order's row is none a hold moves. -/
def Arrived (db : Db) (flight : ℕ × ℕ) : Prop :=
  (∀ run ∈ db.runs.rows, run.id = flight.2 → run.status.isLive = false) ∨
    ∀ row, db.workOrders.find flight.1 = some row →
      isHoldable row.status = false

/-- **What keeps the invariant**: the tables are kept, and a dispatch that is
no longer under way has arrived. -/
theorem Accounted.of_keeps {before after : System} (h : Accounted before)
    (hkeeps : Keeps before.world.db after.world.db)
    (hflights : ∀ flight, before.InFlight flight →
      after.InFlight flight ∨ Arrived after.world.db flight) :
    Accounted after where
  exclusive run hrun other hother hlive hlive' howner := by
    obtain ⟨old, hold, holdLive, hid, holdOwner⟩ :=
      hkeeps.live run hrun hlive
    obtain ⟨old', hold', holdLive', hid', holdOwner'⟩ :=
      hkeeps.live other hother hlive'
    have hsame : old = old' := h.exclusive old hold old' hold' holdLive
      holdLive' (holdOwner.trans (howner.trans holdOwner'.symm))
    have hids : run.id = other.id := by rw [← hid, ← hid', hsame]
    exact Table.eq_of_key hrun hother hids
  live run hrun hlive := by
    obtain ⟨old, hold, holdLive, hid, howner⟩ := hkeeps.live run hrun hlive
    obtain ⟨row, hfind, hflight⟩ := h.live old hold holdLive
    obtain ⟨row', hfind', hholdable⟩ := hkeeps.rows _ row hfind
    rw [howner] at hfind'
    refine ⟨row', hfind', fun hrow' => ?_⟩
    have hunder := hflight (hholdable hrow')
    rw [howner, hid] at hunder
    rcases hflights _ hunder with hstill | hdead | hmoved
    · exact hstill
    · rw [hdead run hrun rfl] at hlive
      exact absurd hlive Bool.false_ne_true
    · rw [hmoved row' hfind'] at hrow'
      exact absurd hrow' Bool.false_ne_true

/-! ## What each step keeps -/

/-- What a step of a tick owes the invariant: the tables keep what they are asked to,
and a submission on its way is still on its way or shown by the rows. -/
structure StepKeeps (stage : Stage) (world : World) (after : Stage × World) :
    Prop where
  tables : Keeps world.db after.2.db
  flight : ∀ flight, stage.inFlight = some flight →
    after.1.inFlight = some flight ∨ Arrived after.2.db flight

/-- A step of a tick that has no dispatch under way. -/
theorem StepKeeps.of_grounded {stage : Stage} {world : World}
    {after : Stage × World} (hgrounded : stage.inFlight = none)
    (htables : Keeps world.db after.2.db) : StepKeeps stage world after where
  tables := htables
  flight flight h := by
    rw [hgrounded] at h
    cases h

section Dispatch

variable {env : ExecutorEnv} {answers : Answers}
  {input : DispatchWorkOrderInput} {batch : List StoredRow} {world : World}
  {runId : ℕ}

/-- **The status update ends a dispatch.** -/
theorem stepKeeps_update (runnerKey : RunnerKey) (result : ExecutionResult) :
    StepKeeps (.dispatching input (.update runId runnerKey) batch) world
      (.dispatching input (.done result) batch,
        world.setStatus input.workOrderId .dispatched) where
  tables := Keeps.of_updateWorkOrder fun _ => rfl
  flight flight h := by
    cases h
    refine Or.inr (Or.inr fun row hrow => ?_)
    rw [World.find_setStatus, Option.map_eq_some_iff] at hrow
    obtain ⟨old, hold, rfl⟩ := hrow
    have hid : old.id = input.workOrderId := (Table.find_eq_some.mp hold).2
    rw [if_pos (beq_iff_eq.mpr hid)]
    rfl

/-- So does the deletion of a run its runner had no room for. -/
theorem stepKeeps_deleteRun (message : String) (result : ExecutionResult) :
    StepKeeps
      (.dispatching input (.recover runId (.atCapacity message)) batch) world
      (.dispatching input (.done result) batch, world.deleteRun runId) where
  tables := Keeps.of_delete runId
  flight flight h := by
    cases h
    exact Or.inr (Or.inl fun run hrun hid =>
      absurd hid (Table.mem_delete.mp hrun).2)

/-- So does failing a run, when it is still running if it is live. -/
theorem stepKeeps_failRun (message : String) (result : ExecutionResult)
    (hrunning : ∀ run ∈ world.db.runs.rows, run.id = runId →
      run.status.isLive = true → run.status = .running) :
    StepKeeps (.dispatching input (.recover runId (.error message)) batch)
      world
      (.dispatching input (.done result) batch,
        world.failRun runId env.now message) where
  tables := Keeps.of_modify (fun _ _ h => absurd h Bool.false_ne_true)
    fun _ => rfl
  flight flight h := by
    cases h
    refine Or.inr (Or.inl fun run hrun hid => ?_)
    obtain ⟨old, hold, rfl⟩ := List.mem_map.mp hrun
    by_cases hmatches : (old.id == runId && old.status == .running) = true
    · rw [if_pos hmatches]
      rfl
    · rw [if_neg hmatches] at hid ⊢
      by_contra hlive
      refine hmatches ?_
      rw [hid, hrunning old hold hid (by simpa using hlive)]
      simp

/-- **A phase of a dispatch that does not create the run.** -/
theorem stepKeeps_dispatchNext {phase : DispatchPhase}
    (hcreate : ∀ decision runnerKey, phase ≠ .create decision runnerKey)
    (hrunning : ∀ runId message, phase = .recover runId (.error message) →
      ∀ run ∈ world.db.runs.rows, run.id = runId →
        run.status.isLive = true → run.status = .running) :
    StepKeeps (.dispatching input phase batch) world
      (.dispatching input
          (dispatchNext env answers input (phase, world)).1 batch,
        (dispatchNext env answers input (phase, world)).2) := by
  unfold dispatchNext
  cases phase with
  | decide =>
    refine StepKeeps.of_grounded rfl ?_
    simp only [dispatchStep]
    split
    · split <;> exact Keeps.refl _
    · exact Keeps.refl _
  | admission decision runnerKey =>
    refine StepKeeps.of_grounded rfl ?_
    simp only [dispatchStep]
    split
    · exact Keeps.refl _
    · split <;> exact Keeps.refl _
  | create decision runnerKey => exact absurd rfl (hcreate decision runnerKey)
  | write runId runnerKey =>
    simp only [dispatchStep]
    split <;> exact ⟨Keeps.refl _, fun _ => Or.inl⟩
  | submit runId runnerKey =>
    simp only [dispatchStep]
    split <;> exact ⟨Keeps.refl _, fun _ => Or.inl⟩
  | track runId runnerKey =>
    simp only [dispatchStep]
    split <;> exact ⟨Keeps.refl _, fun _ => Or.inl⟩
  | update runId runnerKey =>
    simp only [dispatchStep]
    split
    · exact stepKeeps_update runnerKey _
    · exact ⟨Keeps.refl _, fun _ => Or.inl⟩
  | recover runId failure =>
    cases failure with
    | atCapacity message => exact stepKeeps_deleteRun message _
    | error message =>
      exact stepKeeps_failRun message _ (hrunning runId message rfl)
  | done result => exact StepKeeps.of_grounded rfl (Keeps.refl _)

end Dispatch

/-- A run that matches a guarded update has the status it asks for. -/
theorem isLive_of_match {run : RunRow} {runId : ℕ} {status : RunStatus}
    (h : (run.id == runId && run.status == status) = true)
    (hlive : status.isLive = true) : run.status.isLive = true := by
  rw [beq_iff_eq.mp (Bool.and_eq_true_iff.mp h).2, hlive]

/-- A phase of a resume makes no run live and leaves the work orders. -/
theorem keeps_resumeNext (env : ExecutorEnv) (answers : Answers) (runId : ℕ)
    (phase : ResumePhase) (world : World) :
    Keeps world.db (resumeNext env answers runId (phase, world)).2.db := by
  unfold resumeNext
  cases phase with
  | gate =>
    simp only [resumeStep]
    split <;> exact Keeps.refl _
  | admission parked =>
    simp only [resumeStep]
    split
    · exact Keeps.refl _
    · split <;> exact Keeps.refl _
  | claim parked =>
    simp only [resumeStep]
    split
    · -- A parked run is live already.
      exact Keeps.of_modify (fun _ hrun _ => isLive_of_match hrun rfl)
        fun _ => rfl
    · exact Keeps.refl _
  | submit parked =>
    simp only [resumeStep]
    split <;> exact Keeps.refl _
  | closeAttempts parked handle =>
    simp only [resumeStep]
    split
    · exact Keeps.of_modify (fun _ _ h => h) fun _ => rfl
    · exact Keeps.refl _
  | openAttempt parked handle =>
    simp only [resumeStep]
    split
    · exact Keeps.of_modify (fun _ _ h => h) fun _ => rfl
    · exact Keeps.refl _
  | track parked =>
    simp only [resumeStep]
    split <;> exact Keeps.refl _
  | recover parked failure =>
    cases failure with
    | atCapacity message =>
      exact Keeps.of_modify (fun _ hrun _ => isLive_of_match hrun rfl)
        fun _ => rfl
    | error message =>
      exact Keeps.of_modify (fun _ _ h => absurd h Bool.false_ne_true)
        fun _ => rfl
  | done result => exact Keeps.refl _

/-- An issue of a pass, when the row it moves, if any, is still one a hold
moves. -/
theorem keeps_projectNext (input : ProjectionInput) (pass : ProjectionPass)
    (issue : NormalizedIssue)
    (hfresh : ∀ row ∈ pass.db.workOrders.rows,
      moves input.existingWorkOrders row.id issue = true →
        isHoldable row.status = true) :
    Keeps pass.db (projectNext input pass issue).db where
  live run hrun hlive := by
    rw [runs_projectNext] at hrun
    exact ⟨run, hrun, hlive, rfl, rfl⟩
  rows id row hfind := by
    refine ⟨_, find_projectNext input hfind issue, ?_⟩
    obtain ⟨hmem, hid⟩ := Table.find_eq_some.mp hfind
    split_ifs with hmoves
    · exact fun _ => hfresh row hmem (by rwa [show row.id = id from hid])
    · exact fun h => h

/-! ## Every interleaving -/

/-- **What a schedule has to respect.** A run is created only while its work
order is queued and no tick has a dispatch of it under way; a hold moves only a
row that is still queued or held; when a dispatch that threw marks its run
failed, that run is still running if it is live; and once a runner has accepted
a dispatch, neither tracking it nor the update of its row throws. -/
def System.guard (system : System) (tick : TickInput) : Stage → Bool
  | .dispatching input (.create _ _) _ =>
    system.world.db.isQueued input.workOrderId &&
      system.ticks.all fun opened =>
        (opened.stage.inFlight.map Prod.fst) != some input.workOrderId
  | .dispatching input (.track _ _) _ =>
    (tick.answers input.workOrderId).track.isOk
  | .dispatching input (.update _ _) _ =>
    (tick.answers input.workOrderId).update.isOk
  | .dispatching _ (.recover runId (.error _)) _ =>
    system.world.db.runs.rows.all fun run =>
      run.id != runId || !run.status.isLive || run.status == .running
  | .projecting input _ _ (issue :: _) _ =>
    system.world.db.workOrders.rows.all fun row =>
      !moves input.existingWorkOrders row.id issue || isHoldable row.status
  | _ => true

/-- A step that respects them. -/
def System.respects (system : System) : SystemInput → Bool
  | .advance index =>
    (system.ticks[index]?).all fun opened =>
      system.guard opened.tick opened.stage
  | .report _ _ => true

/-- A work order that is queued has a row. -/
theorem Db.find_of_isQueued {db : Db} {id : ℕ} (h : db.isQueued id = true) :
    ∃ row, db.workOrders.find id = some row ∧ row.status = .queued := by
  obtain ⟨row, hrow, hmatches⟩ := List.any_eq_true.mp h
  obtain ⟨hid, hstatus⟩ := Bool.and_eq_true_iff.mp hmatches
  exact ⟨row, Table.find_eq_some.mpr ⟨hrow, beq_iff_eq.mp hid⟩,
    beq_iff_eq.mp hstatus⟩

section Step

variable {system : System} {index : ℕ} {opened : OpenTick}

theorem systemStep_advance (hopened : system.ticks[index]? = some opened) :
    systemStep system (.advance index) =
      ⟨(tickStep opened.tick system.leaseFree opened.stage system.world).2,
        system.ticks.set index ⟨opened.tick, (tickStep opened.tick
          system.leaseFree opened.stage system.world).1⟩⟩ := by
  simp [systemStep, hopened]

/-- The dispatch a tick has under way is seen in the system. -/
theorem inFlight_set_self (hopened : system.ticks[index]? = some opened)
    (world : World) {stage : Stage} {flight : ℕ × ℕ}
    (h : stage.inFlight = some flight) :
    System.InFlight ⟨world, system.ticks.set index ⟨opened.tick, stage⟩⟩
      flight := by
  obtain ⟨hlt, -⟩ := List.getElem?_eq_some_iff.mp hopened
  exact ⟨index, ⟨opened.tick, stage⟩, by simp [hlt], h⟩

/-- The dispatches of the other ticks stay under way. -/
theorem inFlight_set (hopened : system.ticks[index]? = some opened)
    (world : World) (stage : Stage) {flight : ℕ × ℕ}
    (h : system.InFlight flight) :
    System.InFlight ⟨world, system.ticks.set index ⟨opened.tick, stage⟩⟩
        flight ∨ opened.stage.inFlight = some flight := by
  obtain ⟨other, opened', hother, hflight⟩ := h
  by_cases hsame : other = index
  · subst hsame
    rw [hopened] at hother
    cases hother
    exact Or.inr hflight
  · refine Or.inl ⟨other, opened', ?_, hflight⟩
    rwa [List.getElem?_set_ne (Ne.symm hsame)]

/-- A step of one tick that owes the invariant nothing keeps it. -/
theorem Accounted.of_stepKeeps (h : Accounted system)
    (hopened : system.ticks[index]? = some opened) {after : Stage × World}
    (hstep : StepKeeps opened.stage system.world after) :
    Accounted ⟨after.2, system.ticks.set index ⟨opened.tick, after.1⟩⟩ := by
  refine h.of_keeps hstep.tables fun flight hflight => ?_
  rcases inFlight_set hopened after.2 after.1 hflight with hother | hown
  · exact Or.inl hother
  · exact (hstep.flight flight hown).imp_left
      (inFlight_set_self hopened after.2)

/-- **The creation of a run**, of a work order that is queued and that no tick
has a dispatch of under way. -/
theorem Accounted.of_createRun (h : Accounted system)
    (hopened : system.ticks[index]? = some opened) (env : ExecutorEnv)
    {input : DispatchWorkOrderInput} {decision : DispatchDecision}
    {runnerKey : RunnerKey} {batch : List StoredRow}
    (hstage : opened.stage =
      .dispatching input (.create decision runnerKey) batch)
    (hqueued : system.world.db.isQueued input.workOrderId = true)
    (hfree : ∀ runId, ¬ system.InFlight (input.workOrderId, runId)) :
    Accounted
      ⟨system.world.createRun env input.workOrderId runnerKey decision,
        system.ticks.set index ⟨opened.tick,
          .dispatching input (.write system.world.db.runs.next runnerKey)
            batch⟩⟩ := by
  obtain ⟨row, hfind, hstatus⟩ := Db.find_of_isQueued hqueued
  have hholdable : isHoldable row.status = true := by
    rw [hstatus]
    rfl
  -- A live run of the work order would be accounted for by a dispatch.
  have hnone : ∀ run ∈ system.world.db.runs.rows,
      run.status.isLive = true → run.workOrderId ≠ input.workOrderId := by
    intro run hrun hlive howner
    obtain ⟨row', hfind', hflight⟩ := h.live run hrun hlive
    rw [howner] at hfind' hflight
    rw [hfind] at hfind'
    cases hfind'
    exact hfree run.id (hflight hholdable)
  have hmem : ∀ {run}, run ∈ (system.world.createRun env input.workOrderId
      runnerKey decision).db.runs.rows ↔
        run ∈ system.world.db.runs.rows ∨
          run = runData env input.workOrderId runnerKey decision
            system.world.db.runs.next :=
    Table.mem_insert (runData_key env input.workOrderId runnerKey decision)
  constructor
  · intro run hrun other hother hlive hlive' howner
    rcases hmem.mp hrun with hold | rfl <;>
      rcases hmem.mp hother with hold' | rfl
    · exact h.exclusive run hold other hold' hlive hlive' howner
    · exact absurd howner (hnone run hold hlive)
    · exact absurd howner.symm (hnone other hold' hlive')
    · rfl
  · intro run hrun hlive
    rcases hmem.mp hrun with hold | rfl
    · obtain ⟨row', hfind', hflight⟩ := h.live run hold hlive
      refine ⟨row', hfind', fun hmoved => ?_⟩
      refine (inFlight_set hopened _ _ (hflight hmoved)).resolve_right ?_
      rw [hstage]
      exact fun h => by cases h
    · exact ⟨row, hfind, fun _ => inFlight_set_self hopened _ rfl⟩

/-- **What a step that creates no run keeps**, when it respects the guard. -/
theorem stepKeeps_tickStep (tick : TickInput) (leaseFree : Bool)
    {stage : Stage} (hguard : system.guard tick stage = true)
    (hcreate : ∀ input decision runnerKey batch,
      stage ≠ .dispatching input (.create decision runnerKey) batch) :
    StepKeeps stage system.world
      (tickStep tick leaseFree stage system.world) := by
  cases stage with
  | start =>
    refine StepKeeps.of_grounded rfl ?_
    simp only [tickStep]
    split
    · split <;> exact Keeps.refl _
    · exact Keeps.refl _
  | sweeping repositories =>
    refine StepKeeps.of_grounded rfl ?_
    cases repositories with
    | nil => exact Keeps.refl _
    | cons repository repositories =>
      simp only [tickStep]
      split
      · split
        · exact Keeps.refl _
        · split <;> exact Keeps.refl _
      · exact Keeps.refl _
  | projecting input result log issues repositories =>
    refine StepKeeps.of_grounded rfl ?_
    cases issues with
    | nil => exact Keeps.refl _
    | cons issue issues =>
      refine keeps_projectNext input ⟨system.world.db, result, log⟩ issue ?_
      intro row hrow hmoves
      have hrows := List.all_eq_true.mp hguard row hrow
      simpa [hmoves] using hrows
  | touching repository repositories =>
    exact StepKeeps.of_grounded rfl (Keeps.of_eq rfl rfl)
  | resuming runIds =>
    refine StepKeeps.of_grounded rfl ?_
    cases runIds <;> exact Keeps.refl _
  | resumingOne runId phase runIds =>
    refine StepKeeps.of_grounded rfl ?_
    by_cases hdone : ∃ result, phase = .done result
    · obtain ⟨result, rfl⟩ := hdone
      exact Keeps.refl _
    · rw [tickStep_resumingOne tick leaseFree runId runIds system.world
        fun result h => hdone ⟨result, h⟩]
      exact keeps_resumeNext tick.env _ runId phase system.world
  | selecting => exact StepKeeps.of_grounded rfl (Keeps.refl _)
  | draining batch =>
    refine StepKeeps.of_grounded rfl ?_
    cases batch with
    | nil => exact Keeps.refl _
    | cons stored batch =>
      simp only [tickStep]
      split
      · exact Keeps.refl _
      · split
        · exact Keeps.of_updateWorkOrder fun _ => rfl
        · exact Keeps.refl _
        · exact Keeps.refl _
  | dispatching input phase batch =>
    have hphase : ∀ decision runnerKey, phase ≠ .create decision runnerKey :=
      fun decision runnerKey h => hcreate input decision runnerKey batch
        (by rw [h])
    have hrunning : ∀ runId message, phase = .recover runId (.error message) →
        ∀ run ∈ system.world.db.runs.rows, run.id = runId →
          run.status.isLive = true → run.status = .running := by
      rintro runId message rfl run hrun hid hlive
      have hrows := List.all_eq_true.mp hguard run hrun
      simpa [hid, hlive] using hrows
    by_cases hdone : ∃ result, phase = .done result
    · obtain ⟨result, rfl⟩ := hdone
      exact StepKeeps.of_grounded rfl (Keeps.refl _)
    · rw [tickStep_dispatching tick leaseFree input batch system.world
        fun result h => hdone ⟨result, h⟩]
      exact stepKeeps_dispatchNext hphase hrunning
  | finished => exact StepKeeps.of_grounded rfl (Keeps.refl _)

/-- **A step that respects the guard keeps the invariant.** -/
theorem accounted_systemStep (system : System) (step : SystemInput)
    (h : Accounted system) (hrespects : system.respects step = true) :
    Accounted (systemStep system step) := by
  cases step with
  | report runId status =>
    refine h.of_keeps ?_ fun _ => Or.inl
    exact Keeps.of_modify (fun _ hrun _ => (Bool.and_eq_true_iff.mp hrun).2)
      fun _ => rfl
  | advance index =>
    cases hopened : system.ticks[index]? with
    | none => simpa [systemStep, hopened] using h
    | some opened =>
      have hguard : system.guard opened.tick opened.stage = true := by
        simpa [System.respects, hopened] using hrespects
      rw [systemStep_advance hopened]
      by_cases hcreate : ∃ input decision runnerKey batch, opened.stage =
          .dispatching input (.create decision runnerKey) batch
      · obtain ⟨input, decision, runnerKey, batch, hstage⟩ := hcreate
        rw [hstage] at hguard ⊢
        obtain ⟨hqueued, hfree⟩ := Bool.and_eq_true_iff.mp hguard
        refine h.of_createRun hopened opened.tick.env hstage hqueued ?_
        rintro runId ⟨other, opened', hother, hflight⟩
        have hne := List.all_eq_true.mp hfree opened'
          (List.mem_of_getElem? hother)
        simp [hflight] at hne
      · exact h.of_stepKeeps hopened
          (stepKeeps_tickStep opened.tick system.leaseFree hguard
            fun input decision runnerKey batch hstage =>
              hcreate ⟨input, decision, runnerKey, batch, hstage⟩)

end Step

/-! ## Who may submit for a queued row -/

/-- The run a resume has read, with its work order. -/
def ResumePhase.holding : ResumePhase → Option ParkedRun
  | .admission parked => some parked
  | .claim parked => some parked
  | .submit parked => some parked
  | .closeAttempts parked _ => some parked
  | .openAttempt parked _ => some parked
  | .track parked => some parked
  | .recover parked _ => some parked
  | _ => none

/-- The work order of the resume a tick has under way. -/
def Stage.resumes : Stage → Option ℕ
  | .resumingOne _ phase _ => phase.holding.map (·.row.id)
  | _ => none

/-- The work order a step of a tick submits, if a runner accepts it. -/
def Stage.submits (tick : TickInput) : Stage → Option ℕ
  | .dispatching input (.submit _ _) _ =>
    if (tick.answers input.workOrderId).submit.isOk then some input.workOrderId
    else none
  | .resumingOne runId (.submit parked) _ =>
    if (tick.resumeAnswers runId).submit.isOk then some parked.row.id else none
  | _ => none

/-- The work order whose dispatch a runner has accepted, until its row is
updated. -/
def Stage.handedOver : Stage → Option ℕ
  | .dispatching input (.track _ _) _ => some input.workOrderId
  | .dispatching input (.update _ _) _ => some input.workOrderId
  | _ => none

/-- **The invariant**: two ticks do not have a dispatch of one work order under
way, and a resume under way is of a row that is neither queued nor held. -/
structure Apart (system : System) : Prop where
  flights : ∀ (i j : ℕ) (opened other : OpenTick),
    system.ticks[i]? = some opened → system.ticks[j]? = some other →
    ∀ flight flight', opened.stage.inFlight = some flight →
      other.stage.inFlight = some flight' → flight.1 = flight'.1 → i = j
  resumes : ∀ opened ∈ system.ticks, ∀ id, opened.stage.resumes = some id →
    ∃ row, system.world.db.workOrders.find id = some row
      ∧ isHoldable row.status = false

section Submissions

variable {system : System} {index : ℕ} {opened : OpenTick} {id : ℕ}

/-- **What a dispatch submits.** -/
theorem submissionsFor_dispatchNext_self (env : ExecutorEnv)
    (answers : Answers) (input : DispatchWorkOrderInput)
    (phase : DispatchPhase) (world : World) :
    ((dispatchNext env answers input (phase, world)).2.submissionsFor
        id).length
      = (world.submissionsFor id).length
        + match phase with
          | .submit _ _ =>
            if answers.submit.isOk ∧ input.workOrderId = id then 1 else 0
          | _ => 0 := by
  unfold dispatchNext
  cases phase with
  | decide =>
    simp only [dispatchStep]
    split
    · split <;> rfl
    · rfl
  | admission decision runnerKey =>
    simp only [dispatchStep]
    split
    · rfl
    · split <;> rfl
  | create decision runnerKey => rfl
  | write runId runnerKey =>
    simp only [dispatchStep]
    split <;> rfl
  | submit runId runnerKey =>
    simp only [dispatchStep]
    cases answers.submit with
    | error failure => simp [Except.isOk, Except.toBool]
    | ok handle => simp [length_submissionsFor_accept, Except.isOk, Except.toBool]
  | track runId runnerKey =>
    simp only [dispatchStep]
    split <;> rfl
  | update runId runnerKey =>
    simp only [dispatchStep]
    split <;> rfl
  | recover runId failure => cases failure <;> rfl
  | done result => rfl

/-- What a resume does. -/
theorem submissionsFor_resumeNext (env : ExecutorEnv) (answers : Answers)
    (runId : ℕ) (phase : ResumePhase) (world : World) :
    ((resumeNext env answers runId (phase, world)).2.submissionsFor id).length
      = (world.submissionsFor id).length
        + match phase with
          | .submit parked =>
            if answers.submit.isOk ∧ parked.row.id = id then 1 else 0
          | _ => 0 := by
  unfold resumeNext
  cases phase with
  | gate =>
    simp only [resumeStep]
    split <;> rfl
  | admission parked =>
    simp only [resumeStep]
    split
    · rfl
    · split <;> rfl
  | claim parked =>
    simp only [resumeStep]
    split <;> rfl
  | submit parked =>
    simp only [resumeStep]
    cases answers.submit with
    | error failure => simp [Except.isOk, Except.toBool]
    | ok handle =>
      simp [length_submissionsFor_accept, Except.isOk, Except.toBool]
  | closeAttempts parked handle =>
    simp only [resumeStep]
    split <;> rfl
  | openAttempt parked handle =>
    simp only [resumeStep]
    split <;> rfl
  | track parked =>
    simp only [resumeStep]
    split <;> rfl
  | recover parked failure => cases failure <;> rfl
  | done result => rfl

/-- **What a step of a tick submits.** -/
theorem submissionsFor_tickStep (tick : TickInput) (leaseFree : Bool)
    (stage : Stage) (world : World) :
    ((tickStep tick leaseFree stage world).2.submissionsFor id).length
      = (world.submissionsFor id).length
        + if stage.submits tick = some id then 1 else 0 := by
  cases stage with
  | start =>
    simp only [tickStep]
    split
    · split <;> rfl
    · rfl
  | sweeping repositories =>
    cases repositories with
    | nil => rfl
    | cons repository repositories =>
      simp only [tickStep]
      split
      · split
        · rfl
        · split <;> rfl
      · rfl
  | projecting input result log issues repositories =>
    cases issues <;> rfl
  | touching repository repositories => rfl
  | resuming runIds => cases runIds <;> rfl
  | resumingOne runId phase runIds =>
    by_cases hdone : ∃ result, phase = .done result
    · obtain ⟨result, rfl⟩ := hdone
      rfl
    · rw [tickStep_resumingOne tick leaseFree runId runIds world
        fun result h => hdone ⟨result, h⟩, submissionsFor_resumeNext]
      cases phase with
      | submit parked => simp [Stage.submits]
      | _ => rfl
  | selecting => rfl
  | draining batch =>
    cases batch with
    | nil => rfl
    | cons stored batch =>
      simp only [tickStep]
      split
      · rfl
      · split <;> rfl
  | dispatching input phase batch =>
    by_cases hdone : ∃ result, phase = .done result
    · obtain ⟨result, rfl⟩ := hdone
      rfl
    · rw [tickStep_dispatching tick leaseFree input batch world
        fun result h => hdone ⟨result, h⟩, submissionsFor_dispatchNext_self]
      cases phase with
      | submit runId runnerKey => simp [Stage.submits]
      | _ => rfl
  | finished => rfl

/-- A dispatch that is under way was, or its run has just been created. -/
theorem inFlight_tickStep {tick : TickInput} {leaseFree : Bool} {stage : Stage}
    {world : World} {flight : ℕ × ℕ}
    (h : (tickStep tick leaseFree stage world).1.inFlight = some flight) :
    stage.inFlight = some flight
      ∨ ∃ input decision runnerKey batch,
        stage = .dispatching input (.create decision runnerKey) batch
          ∧ flight.1 = input.workOrderId := by
  cases stage with
  | dispatching input phase batch =>
    cases phase with
    | create decision runnerKey =>
      cases h
      exact Or.inr ⟨input, decision, runnerKey, batch, rfl, rfl⟩
    | recover runId failure =>
      cases failure <;> cases h
    | done result => cases h
    | _ =>
      simp only [tickStep, dispatchStep] at h
      grind [Stage.inFlight, DispatchPhase.created]
  | resumingOne runId phase runIds =>
    cases phase <;> cases h
  | projecting input result log issues repositories =>
    cases issues <;> cases h
  | resuming runIds => cases runIds <;> cases h
  | touching repository repositories => cases h
  | selecting => cases h
  | finished => cases h
  | start =>
    simp only [tickStep] at h
    grind [Stage.inFlight]
  | sweeping repositories =>
    cases repositories with
    | nil => cases h
    | cons repository repositories =>
      simp only [tickStep] at h
      grind [Stage.inFlight]
  | draining batch =>
    cases batch with
    | nil => cases h
    | cons stored batch =>
      simp only [tickStep] at h
      grind [Stage.inFlight, DispatchPhase.created]

/-- A resume that is under way was, or has just read a row that is
dispatched. -/
theorem resumes_tickStep {tick : TickInput} {leaseFree : Bool} {stage : Stage}
    {world : World}
    (h : (tickStep tick leaseFree stage world).1.resumes = some id) :
    stage.resumes = some id
      ∨ ∃ row, world.db.workOrders.find id = some row
        ∧ row.status = .dispatched := by
  cases stage with
  | resumingOne runId phase runIds =>
    cases phase with
    | gate =>
      simp only [tickStep, resumeStep] at h
      split at h
      · cases h
      · next parked hgate =>
        obtain ⟨-, -, hrow, hstatus⟩ := resumeGate_eq_ok hgate
        cases h
        refine Or.inr ⟨parked.row, ?_, hstatus⟩
        dsimp only
        rw [show parked.row.id = parked.run.workOrderId from
          (Table.find_eq_some.mp hrow).2]
        exact hrow
    | recover parked failure => cases failure <;> cases h
    | done result => cases h
    | _ =>
      simp only [tickStep, resumeStep] at h
      grind [Stage.resumes, ResumePhase.holding]
  | dispatching input phase batch =>
    cases phase <;> cases h
  | projecting input result log issues repositories =>
    cases issues <;> cases h
  | resuming runIds => cases runIds <;> cases h
  | touching repository repositories => cases h
  | selecting => cases h
  | finished => cases h
  | start =>
    simp only [tickStep] at h
    grind [Stage.resumes]
  | sweeping repositories =>
    cases repositories with
    | nil => cases h
    | cons repository repositories =>
      simp only [tickStep] at h
      grind [Stage.resumes]
  | draining batch =>
    cases batch with
    | nil => cases h
    | cons stored batch =>
      simp only [tickStep] at h
      grind [Stage.resumes]

/-- A row that is neither queued nor held stays so. -/
theorem notHoldable_tickStep {tick : TickInput} {leaseFree : Bool}
    {stage : Stage} (hguard : system.guard tick stage = true)
    (h : ∃ row, system.world.db.workOrders.find id = some row
      ∧ isHoldable row.status = false) :
    ∃ row, (tickStep tick leaseFree stage system.world).2.db.workOrders.find id
      = some row ∧ isHoldable row.status = false := by
  by_cases hcreate : ∃ input decision runnerKey batch,
      stage = .dispatching input (.create decision runnerKey) batch
  · obtain ⟨input, decision, runnerKey, batch, rfl⟩ := hcreate
    exact h
  · have hkeeps := (stepKeeps_tickStep tick leaseFree hguard
      fun input decision runnerKey batch hstage =>
        hcreate ⟨input, decision, runnerKey, batch, hstage⟩).tables
    obtain ⟨row, hfind, hstatus⟩ := h
    obtain ⟨row', hfind', hholdable⟩ := hkeeps.rows id row hfind
    refine ⟨row', hfind', ?_⟩
    by_contra hrow'
    rw [hholdable (by simpa using hrow')] at hstatus
    cases hstatus

/-- A dispatch that is under way after a step of a tick was before, or the step
has just created its run. -/
theorem inFlight_set_tickStep {world : World} {i : ℕ} {other : OpenTick}
    {flight : ℕ × ℕ} (hopened : system.ticks[index]? = some opened)
    (hother : (system.ticks.set index ⟨opened.tick, (tickStep opened.tick
      system.leaseFree opened.stage world).1⟩)[i]? = some other)
    (hflight : other.stage.inFlight = some flight) :
    (∃ old, system.ticks[i]? = some old ∧ old.stage.inFlight = some flight)
      ∨ i = index ∧ ∃ input decision runnerKey batch,
        opened.stage = .dispatching input (.create decision runnerKey) batch
          ∧ flight.1 = input.workOrderId := by
  by_cases hi : i = index
  · subst hi
    obtain ⟨hlt, -⟩ := List.getElem?_eq_some_iff.mp hopened
    rw [List.getElem?_set_self hlt] at hother
    obtain rfl := Option.some.inj hother
    obtain hold | hcreated := inFlight_tickStep hflight
    · exact Or.inl ⟨opened, hopened, hold⟩
    · exact Or.inr ⟨rfl, hcreated⟩
  · rw [List.getElem?_set_ne (Ne.symm hi)] at hother
    exact Or.inl ⟨other, hother, hflight⟩

/-- **A step that respects the guard keeps the ticks apart.** -/
theorem apart_systemStep (system : System) (step : SystemInput)
    (h : Apart system) (hrespects : system.respects step = true) :
    Apart (systemStep system step) := by
  cases step with
  | report runId status => exact ⟨h.flights, h.resumes⟩
  | advance index =>
    cases hopened : system.ticks[index]? with
    | none => simpa [systemStep, hopened] using h
    | some opened =>
      have hguard : system.guard opened.tick opened.stage = true := by
        simpa [System.respects, hopened] using hrespects
      rw [systemStep_advance hopened]
      -- whoever creates a run is alone with its work order
      have hfree : ∀ input decision runnerKey batch,
          opened.stage = .dispatching input (.create decision runnerKey) batch →
          ∀ (i : ℕ) (other : OpenTick) (flight : ℕ × ℕ),
            system.ticks[i]? = some other → other.stage.inFlight = some flight →
            flight.1 ≠ input.workOrderId := by
        intro input decision runnerKey batch hstage i other flight hother
          hflight
        rw [hstage] at hguard
        have hne := List.all_eq_true.mp (Bool.and_eq_true_iff.mp hguard).2
          other (List.mem_of_getElem? hother)
        simpa [hflight] using hne
      constructor
      · intro i j one two hone htwo flight flight' hflight hflight' howner
        obtain ⟨old, hold, holdflight⟩ | ⟨rfl, input, _, _, _, hstage, hid⟩ :=
          inFlight_set_tickStep hopened hone hflight
        · obtain ⟨old', hold', holdflight'⟩ |
              ⟨rfl, input, _, _, _, hstage, hid⟩ :=
            inFlight_set_tickStep hopened htwo hflight'
          · exact h.flights i j old old' hold hold' flight flight' holdflight
              holdflight' howner
          · exact absurd (howner.trans hid)
              (hfree _ _ _ _ hstage i old flight hold holdflight)
        · obtain ⟨old', hold', holdflight'⟩ | ⟨rfl, -⟩ :=
            inFlight_set_tickStep hopened htwo hflight'
          · exact absurd (howner.symm.trans hid)
              (hfree _ _ _ _ hstage j old' flight' hold' holdflight')
          · rfl
      · intro one hone id hresumes
        obtain ⟨i, hget⟩ := List.mem_iff_getElem?.mp hone
        refine notHoldable_tickStep hguard ?_
        by_cases hi : i = index
        · subst hi
          obtain ⟨hlt, -⟩ := List.getElem?_eq_some_iff.mp hopened
          rw [List.getElem?_set_self hlt] at hget
          obtain rfl := Option.some.inj hget
          obtain hold | ⟨row, hfind, hstatus⟩ := resumes_tickStep hresumes
          · exact h.resumes opened (List.mem_of_getElem? hopened) id hold
          · refine ⟨row, hfind, ?_⟩
            rw [hstatus]
            rfl
        · rw [List.getElem?_set_ne (Ne.symm hi)] at hget
          exact h.resumes one (List.mem_of_getElem? hget) id hresumes

/-! ## A stretch in which a work order is queued -/

/-- **How far a stretch has come**: nothing was submitted for the work order
yet, or one dispatch was, and its row is still to be updated. -/
def Submitted (id base : ℕ) (system : System) : Prop :=
  (system.world.submissionsFor id).length = base
    ∨ (system.world.submissionsFor id).length = base + 1
      ∧ ∃ (index : ℕ) (opened : OpenTick), system.ticks[index]? = some opened
        ∧ opened.stage.handedOver = some id

/-- A dispatch that was accepted is under way. -/
theorem inFlight_of_handedOver {stage : Stage} (h : stage.handedOver = some id) :
    ∃ flight, stage.inFlight = some flight ∧ flight.1 = id := by
  cases stage with
  | dispatching input phase batch =>
    cases phase with
    | track runId runnerKey =>
      cases h
      exact ⟨_, rfl, rfl⟩
    | update runId runnerKey =>
      cases h
      exact ⟨_, rfl, rfl⟩
    | _ => cases h
  | _ => cases h

/-- **What submits** is a dispatch under way, accepted with that, or a
resume. -/
theorem of_submits {tick : TickInput} {stage : Stage} (leaseFree : Bool)
    (world : World) (h : stage.submits tick = some id) :
    (∃ flight, stage.inFlight = some flight ∧ flight.1 = id
        ∧ stage.handedOver = none
        ∧ (tickStep tick leaseFree stage world).1.handedOver = some id)
      ∨ stage.resumes = some id := by
  cases stage with
  | dispatching input phase batch =>
    cases phase with
    | submit runId runnerKey =>
      unfold Stage.submits at h
      dsimp only at h
      split_ifs at h with hok
      cases h
      refine Or.inl ⟨_, rfl, rfl, rfl, ?_⟩
      simp only [tickStep, dispatchStep]
      cases hsubmit : (tick.answers input.workOrderId).submit with
      | error failure =>
        rw [hsubmit] at hok
        cases hok
      | ok handle => rfl
    | _ => cases h
  | resumingOne runId phase runIds =>
    cases phase with
    | submit parked =>
      unfold Stage.submits at h
      dsimp only at h
      split_ifs at h
      cases h
      exact Or.inr rfl
    | _ => cases h
  | _ => cases h

/-- A dispatch that was accepted goes on to update its row, which leaves the
queue with that. -/
theorem handedOver_tickStep {tick : TickInput} {leaseFree : Bool}
    {stage : Stage} (h : stage.handedOver = some id)
    (hguard : system.guard tick stage = true) :
    (tickStep tick leaseFree stage system.world).1.handedOver = some id
      ∨ (tickStep tick leaseFree stage system.world).2.db.isQueued id
        = false := by
  cases stage with
  | dispatching input phase batch =>
    cases phase with
    | track runId runnerKey =>
      cases h
      left
      have hok : (tick.answers input.workOrderId).track.isOk = true := hguard
      simp only [tickStep, dispatchStep]
      cases htrack : (tick.answers input.workOrderId).track with
      | error message =>
        rw [htrack] at hok
        cases hok
      | ok _ => rfl
    | update runId runnerKey =>
      cases h
      right
      have hok : (tick.answers input.workOrderId).update.isOk = true := hguard
      simp only [tickStep, dispatchStep]
      cases hupdate : (tick.answers input.workOrderId).update with
      | error message =>
        rw [hupdate] at hok
        cases hok
      | ok _ =>
        dsimp only
        by_contra hqueued
        obtain ⟨row, hfind, hstatus⟩ :=
          Db.find_of_isQueued (by simpa using hqueued)
        rw [World.find_setStatus, Option.map_eq_some_iff] at hfind
        obtain ⟨old, hold, rfl⟩ := hfind
        have hid : old.id = input.workOrderId :=
          (Table.find_eq_some.mp hold).2
        rw [if_pos (beq_iff_eq.mpr hid)] at hstatus
        cases hstatus
    | _ => cases h
  | _ => cases h

/-- **A step of a stretch**: while the row is queued, one submission is made
for it at most, and a dispatch that made it is still under way. -/
theorem submitted_systemStep {base : ℕ} (hapart : Apart system)
    (h : Submitted id base system)
    (hqueued : system.world.db.isQueued id = true) {step : SystemInput}
    (hrespects : system.respects step = true) :
    ((systemStep system step).world.submissionsFor id).length ≤ base + 1
      ∧ ((systemStep system step).world.db.isQueued id = true →
        Submitted id base (systemStep system step)) := by
  have hbound : (system.world.submissionsFor id).length ≤ base + 1 := by
    obtain hnone | ⟨hone, -⟩ := h <;> omega
  cases step with
  | report runId status => exact ⟨hbound, fun _ => h⟩
  | advance index =>
    cases hopened : system.ticks[index]? with
    | none =>
      have hsame : systemStep system (.advance index) = system := by
        simp [systemStep, hopened]
      rw [hsame]
      exact ⟨hbound, fun _ => h⟩
    | some opened =>
      have hguard : system.guard opened.tick opened.stage = true := by
        simpa [System.respects, hopened] using hrespects
      obtain ⟨hlt, -⟩ := List.getElem?_eq_some_iff.mp hopened
      rw [systemStep_advance hopened]
      have hcount := @submissionsFor_tickStep id opened.tick system.leaseFree
        opened.stage system.world
      by_cases hsubmits : opened.stage.submits opened.tick = some id
      · rw [if_pos hsubmits] at hcount
        obtain ⟨flight, hflight, hid, hbefore, hafter⟩ | hresumes :=
          of_submits system.leaseFree system.world hsubmits
        · obtain hnone | ⟨-, other, opened', hother, hover⟩ := h
          · rw [hnone] at hcount
            exact ⟨Nat.le_of_eq hcount, fun _ => Or.inr ⟨hcount, index, _,
              List.getElem?_set_self hlt, hafter⟩⟩
          · -- two ticks would have a dispatch of it under way
            obtain ⟨flight', hflight', hid'⟩ := inFlight_of_handedOver hover
            obtain rfl := hapart.flights index other opened opened' hopened
              hother flight flight' hflight hflight' (hid.trans hid'.symm)
            rw [hopened] at hother
            obtain rfl := Option.some.inj hother
            rw [hbefore] at hover
            cases hover
        · obtain ⟨row, hfind, hstatus⟩ := hapart.resumes opened
            (List.mem_of_getElem? hopened) id hresumes
          obtain ⟨row', hfind', hstatus'⟩ := Db.find_of_isQueued hqueued
          rw [hfind] at hfind'
          obtain rfl := Option.some.inj hfind'
          rw [hstatus'] at hstatus
          cases hstatus
      · rw [if_neg hsubmits, Nat.add_zero] at hcount
        dsimp only
        rw [hcount]
        refine ⟨hbound, fun hafter => ?_⟩
        obtain hnone | ⟨hone, other, opened', hother, hover⟩ := h
        · exact Or.inl (hcount.trans hnone)
        · refine Or.inr ⟨hcount.trans hone, ?_⟩
          by_cases hsame : other = index
          · subst hsame
            rw [hopened] at hother
            obtain rfl := Option.some.inj hother
            obtain hover' | hleft :=
              @handedOver_tickStep _ _ _ system.leaseFree _ hover hguard
            · exact ⟨other, _, List.getElem?_set_self hlt, hover'⟩
            · rw [hleft] at hafter
              cases hafter
          · exact ⟨other, opened', by
              rwa [List.getElem?_set_ne (Ne.symm hsame)], hover⟩

/-- **Along a stretch** in which the row is queued before each step. -/
theorem submitted_run {base : ℕ} (stretch : List SystemInput)
    (hapart : Apart system) (h : Submitted id base system)
    (hrespects : Machine.Always systemStep
      (fun system step => system.respects step = true) system stretch)
    (hqueued : Machine.Always systemStep
      (fun system _ => system.world.db.isQueued id = true) system stretch) :
    ((Machine.run systemStep system stretch).world.submissionsFor id).length
      ≤ base + 1 := by
  induction stretch generalizing system with
  | nil =>
    obtain hnone | ⟨hone, -⟩ := h
    · exact (Nat.le_of_eq hnone).trans (Nat.le_succ base)
    · exact Nat.le_of_eq hone
  | cons step rest ih =>
    obtain ⟨hbound, hnext⟩ :=
      submitted_systemStep hapart h hqueued.1 hrespects.1
    cases rest with
    | nil => exact hbound
    | cons _ _ =>
      exact ih (apart_systemStep system step hapart hrespects.1)
        (hnext hqueued.2.1) hrespects.2 hqueued.2

end Submissions

/-- The tables before any tick is open on them: no work order has two live
runs, and one that has one is neither queued nor held. -/
structure Settled (db : Db) : Prop where
  exclusive : Exclusive db
  live : ∀ run ∈ db.runs.rows, run.status.isLive = true →
    ∃ row, db.workOrders.find run.workOrderId = some row ∧
      isHoldable row.status = false

/-- Ticks that have just been opened. -/
def System.opened (world : World) (ticks : List TickInput) : System :=
  ⟨world, ticks.map fun tick => ⟨tick, .start⟩⟩

theorem accounted_opened {world : World} (hsettled : Settled world.db)
    (ticks : List TickInput) : Accounted (System.opened world ticks) := by
  refine ⟨hsettled.exclusive, fun run hrun hlive => ?_⟩
  obtain ⟨row, hfind, hstuck⟩ := hsettled.live run hrun hlive
  refine ⟨row, hfind, fun hmoved => ?_⟩
  rw [hstuck] at hmoved
  exact absurd hmoved Bool.false_ne_true

theorem apart_opened (world : World) (ticks : List TickInput) :
    Apart (System.opened world ticks) := by
  have hstart : ∀ opened ∈ (System.opened world ticks).ticks,
      opened.stage = .start := by
    rintro opened hopened
    obtain ⟨tick, -, rfl⟩ := List.mem_map.mp hopened
    rfl
  constructor
  · intro i j opened other hopened hother flight flight' hflight
    rw [hstart opened (List.mem_of_getElem? hopened)] at hflight
    cases hflight
  · intro opened hopened id hresumes
    rw [hstart opened hopened] at hresumes
    cases hresumes

/-- **No double dispatch, on a schedule that respects the guard.** For any
number of ticks opened on settled tables and every interleaving of their steps
and of what runners report: if each step respects the guard, no state that is
reached has two live runs for one work order, and while a row is queued one
submission is made for it at most. -/
theorem dispatchesOnce_of_respects {world : World} (hsettled : Settled world.db)
    (ticks : List TickInput) {steps : List SystemInput}
    (hrespects : Machine.Always systemStep
      (fun system step => system.respects step = true)
      (System.opened world ticks) steps) :
    DispatchesOnce (System.opened world ticks) steps where
  exclusive := by
    rintro reached ⟨later, rfl⟩
    exact (Machine.run_invariant accounted_systemStep
      (accounted_opened hsettled ticks) hrespects.prefix).exclusive
  submitted := by
    rintro id before stretch ⟨later, rfl⟩ hqueued
    rw [Machine.run_append]
    exact submitted_run stretch
      (Machine.run_invariant apart_systemStep (apart_opened world ticks)
        hrespects.prefix.prefix)
      (Or.inl rfl) hrespects.prefix.suffix hqueued

/-- A tick that observes nothing new, and dispatches what is queued. -/
def quietTick : TickInput := { failingTick with answers := fun _ => allOk }

theorem settled_queuedWorld : Settled queuedWorld.db where
  exclusive _ hrun := absurd hrun List.not_mem_nil
  live _ hrun := absurd hrun List.not_mem_nil

/-- A tick, and one that opens when it is done. -/
theorem dispatchesOnce_of_respects_consecutive :
    DispatchesOnce (System.opened queuedWorld [quietTick, quietTick])
      (List.replicate 16 (.advance 0) ++ List.replicate 8 (.advance 1)) :=
  dispatchesOnce_of_respects settled_queuedWorld [quietTick, quietTick]
    (by decide +kernel)

/-- A tick takes the lease; the next, which does not get it, selects the one
queued row before the first has, and each creates its run for it. -/
def overlap : List SystemInput :=
  .advance 0 :: List.replicate 6 (.advance 1) ++
    List.replicate 8 (.advance 0) ++ [.advance 1, .advance 0]

/-- **Two overlapping ticks dispatch one work order twice.** -/
theorem double_dispatch :
    ¬ ∀ (world : World), Settled world.db →
      ∀ (ticks : List TickInput) (steps : List SystemInput),
        DispatchesOnce (System.opened world ticks) steps := by
  intro h
  have hexclusive := (h queuedWorld settled_queuedWorld [quietTick, quietTick]
    overlap).exclusive overlap (List.prefix_refl overlap)
  exact absurd hexclusive (by decide +kernel)

end Opifex
