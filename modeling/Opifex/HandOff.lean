import Opifex.OverlappingTicks
import Opifex.RunPoller

/-!
# Handing a run to the poller

A dispatch writes the row as running before it submits, and a resume claims
the row before it submits: the poller gets the handle last. Between the two a
poller pass finds a live run it holds no handle for and marks it stalled. Both
recoveries are guarded on the status the call wrote, so they pass over a row
that was marked; and a row that was marked before its handle arrived keeps the
label.

One call and any number of poller passes act on one world, a statement at a
time. The poller's own writes are split where it awaits: what a pass read it
looks at later, and an update it decided on lands later still.
-/

namespace Opifex

/-! ## What the poller writes, on the executor's rows -/

namespace World

/-- `markLost`: a live run becomes stalled, and is labelled. -/
def markLost (world : World) (runId : ℕ) : World :=
  { world with
    db :=
      { world.db with
        runs :=
          world.db.runs.modify (fun run => run.id == runId && run.status.isLive)
            RunRow.lose RunRow.key_lose } }

/-- `record`: a live run gets an attention reason. -/
def record (world : World) (runId : ℕ) (reason : String) : World :=
  { world with
    db :=
      { world.db with
        runs :=
          world.db.runs.modify (fun run => run.id == runId && run.status.isLive)
            (RunRow.attention reason) (RunRow.key_attention reason) } }

/-- `forget`. -/
def forget (world : World) (runId : ℕ) : World :=
  { world with tracked := world.tracked.filter (· != runId) }

/-- What `reconcileUntracked` selects: live runs, in no order, and no more
than one pass looks at. -/
def liveBatch (world : World) (order : ℕ → ℕ) : List RunRow :=
  (Preference.rank (fun a b => compare (order a.id) (order b.id))
    (world.db.runs.rows.filter (·.status.isLive))).take pollBatchSize

section Find

variable (world : World) {runId other : ℕ}

theorem find_markLost :
    (world.markLost other).db.runs.find runId =
      (world.db.runs.find runId).map fun run =>
        if run.id == other && run.status.isLive then run.lose else run :=
  Table.find_modify (f := RunRow.lose) RunRow.key_lose

theorem find_record {reason : String} :
    (world.record other reason).db.runs.find runId =
      (world.db.runs.find runId).map fun run =>
        if run.id == other && run.status.isLive then run.attention reason
        else run :=
  Table.find_modify (f := RunRow.attention reason)
    (RunRow.key_attention reason)

end Find

end World

theorem key_transition (events : List RunEventPayload) (advanced : Bool)
    (run : RunRow) : (transition events advanced run).id = run.id :=
  congrArg Prod.fst (origin_transition events advanced run)

/-! ## The system -/

/-- How the statements of a call turn out, those of its recovery
included. -/
structure HandOffAnswers extends Answers where
  /-- What routing, or the gate of a resume, reads. -/
  read : Except String Unit
  /-- What spend admission reads. -/
  admission : Except String Unit
  /-- `run.create`, or the update that claims a parked run. -/
  row : Except String Unit
  /-- The statement of the recovery. -/
  recover : Except String Unit
deriving DecidableEq

/-- One call, under way or done: a dispatch or a resume, in one of the phases of the
method. -/
inductive Call where
  | dispatching (input : DispatchWorkOrderInput) (phase : DispatchPhase)
  | resuming (runId : ℕ) (phase : ResumePhase)
  /-- An error left the method. -/
  | threw (message : String)
deriving DecidableEq

namespace HandOffAnswers

/-- The runner refuses the submission for want of room. -/
def isAtCapacity (answers : HandOffAnswers) : Bool :=
  match answers.submit with
  | .error (.atCapacity _) => true
  | _ => false

/-- What the statement of a phase is answered, where the phase does not ask
`Answers` itself. -/
def ofDispatch (answers : HandOffAnswers) : DispatchPhase → Except String Unit
  | .decide => answers.read
  | .admission .. => answers.admission
  | .create .. => answers.row
  | .recover .. => answers.recover
  | _ => .ok ()

/-- What a phase of a resume is answered, when it asks the database or the ledger. -/
def ofResume (answers : HandOffAnswers) : ResumePhase → Except String Unit
  | .gate => answers.read
  | .admission _ => answers.admission
  | .claim _ => answers.row
  | .recover .. => answers.recover
  | _ => .ok ()

end HandOffAnswers

/-- A call, the passes of the poller under way, and the world they share. A pass reads
rows and looks at them one by one, so what it looks at may be older than the table. -/
structure HandOff where
  world : World
  call : Call
  /-- The row waits for the handle of the invocation it was written for: a
  handle the poller may have of it is of the invocation before. -/
  awaiting : Bool
  /-- Rows that passes have read and not looked at yet. -/
  seen : List RunRow
  /-- Updates of `markLost` that were sent and have not landed. -/
  marking : List ℕ

namespace HandOff

/-- What moves: the call, or one of the statements of a pass of the poller. Any order of
them is a schedule. -/
inductive Turn where
  /-- The call makes its next statement. -/
  | call
  /-- A pass selects the live runs. -/
  | select (order : ℕ → ℕ)
  /-- A pass looks at one of the rows it read. -/
  | account (index : ℕ)
  /-- An update of `markLost` lands, or throws. -/
  | mark (runId : ℕ) (answer : Except String Unit)
  /-- The status statement of what was drained from a tracked run. -/
  | ingest (runId : ℕ) (events : List RunEventPayload) (advanced : Bool)
  /-- A deadline or a budget is written on a tracked run. -/
  | record (runId : ℕ) (reason : String)
  /-- The end of a poll of a tracked run. -/
  | heed (runId : ℕ) (status : RunnerRunStatus)

/-- Whether the row waits for a handle once a dispatch has made a
statement. -/
def awaitingDispatch (awaiting : Bool) : DispatchPhase → Bool
  | .write .. => true
  | .update .. => false
  | .done _ => false
  | _ => awaiting

/-- And once a resume has. -/
def awaitingResume (awaiting : Bool) : ResumePhase → Bool
  | .submit _ => true
  | .done _ => false
  | _ => awaiting

/-- What is left of a dispatch when a statement it does not recover from
throws. The delete of its recovery swallows what it throws. -/
def thrownDispatch (input : DispatchWorkOrderInput) (message : String) :
    DispatchPhase → Call
  | .recover _ (.atCapacity refusal) =>
    .dispatching input
      (.done (.queued (some .capableRunnersAreAtCapacity) refusal))
  | _ => .threw message

/-- **The next statement of the call.** -/
def callStep (env : ExecutorEnv) (answers : HandOffAnswers) (s : HandOff) :
    HandOff :=
  match s.call with
  | .dispatching input phase =>
    match answers.ofDispatch phase with
    | .error message => { s with call := thrownDispatch input message phase }
    | .ok _ =>
      let (phase, world) :=
        dispatchStep env answers.toAnswers input phase s.world
      { s with
        call := .dispatching input phase
        world := world
        awaiting := awaitingDispatch s.awaiting phase }
  | .resuming runId phase =>
    match answers.ofResume phase with
    | .error message => { s with call := .threw message }
    | .ok _ =>
      let (phase, world) :=
        resumeStep env answers.toAnswers runId phase s.world
      { s with
        call := .resuming runId phase
        world := world
        awaiting := awaitingResume s.awaiting phase }
  | .threw _ => s

/-- Whether a pass reports a row it read: it has no handle now, and was not
reported when it was read. -/
def isUnreported (s : HandOff) (run : RunRow) : Bool :=
  !s.world.tracked.contains run.id && !run.saysLost

/-- **One step**, of the call or of a poller pass. -/
def step (env : ExecutorEnv) (answers : HandOffAnswers) (s : HandOff) :
    Turn → HandOff
  | .call => s.callStep env answers
  | .select order => { s with seen := s.seen ++ s.world.liveBatch order }
  | .account index =>
    match s.seen[index]? with
    | none => s
    | some run =>
      { s with
        seen := s.seen.eraseIdx index
        marking :=
          if s.isUnreported run then s.marking ++ [run.id] else s.marking }
  | .mark runId answer =>
    if runId ∈ s.marking then
      { s with
        marking := s.marking.erase runId
        world :=
          match answer with
          | .ok _ => s.world.markLost runId
          | .error _ => s.world }
    else s
  | .ingest runId events advanced =>
    if runId ∈ s.world.tracked then
      { s with
        world :=
          s.world.modifyRun runId (transition events advanced)
            (key_transition events advanced) }
    else s
  | .record runId reason =>
    if runId ∈ s.world.tracked then
      { s with world := s.world.record runId reason }
    else s
  | .heed runId status =>
    if runId ∈ s.world.tracked then
      match status with
      | .unknown =>
        { s with
          world := s.world.forget runId
          marking := s.marking ++ [runId] }
      | .succeeded | .failed => { s with world := s.world.forget runId }
      | .running | .blocked => s
    else s

end HandOff

/-! ## Where a call is -/

namespace Call

/-- The call is over. -/
def isDone : Call → Bool
  | .dispatching _ (.done _) => true
  | .resuming _ (.done _) => true
  | .threw _ => true
  | _ => false

/-- The call says that it started the run. -/
def started : Call → Bool
  | .dispatching _ (.done (.dispatched ..)) => true
  | .resuming _ (.done (.resumed ..)) => true
  | _ => false

/-- The call says that the run failed. -/
def failed : Call → Bool
  | .dispatching _ (.done (.failed ..)) => true
  | .resuming _ (.done (.failed ..)) => true
  | _ => false

/-- The next statement is that of the recovery. -/
def recovering : Call → Bool
  | .dispatching _ (.recover ..) => true
  | .resuming _ (.recover ..) => true
  | _ => false

/-- The row was written as running, and the call has yet to hand the run over
or to recover. -/
def pending : Call → Bool
  | .dispatching _ (.write ..) => true
  | .dispatching _ (.submit ..) => true
  | .dispatching _ (.track ..) => true
  | .dispatching _ (.recover ..) => true
  | .resuming _ (.submit _) => true
  | .resuming _ (.closeAttempts ..) => true
  | .resuming _ (.openAttempt ..) => true
  | .resuming _ (.track _) => true
  | .resuming _ (.recover ..) => true
  | _ => false

/-- A dispatch that its runner will have no room for, on its way to deleting
the row. -/
def doomed (answers : HandOffAnswers) : Call → Bool
  | .dispatching _ (.write ..) =>
    answers.write.isOk && answers.isAtCapacity && answers.recover.isOk
  | .dispatching _ (.submit ..) => answers.isAtCapacity && answers.recover.isOk
  | .dispatching _ (.recover _ (.atCapacity _)) => answers.recover.isOk
  | _ => false

section Over

variable {call : Call}

theorem pending_of_isDone (h : call.isDone = true) : call.pending = false := by
  unfold isDone at h
  split at h <;> first | rfl | cases h

theorem doomed_of_isDone {answers : HandOffAnswers} (h : call.isDone = true) :
    call.doomed answers = false := by
  unfold isDone at h
  split at h <;> first | rfl | cases h

theorem failed_of_started (h : call.started = true) : call.failed = false := by
  unfold started at h
  split at h <;> first | rfl | cases h

end Over

end Call

namespace HandOff

/-! ## What is asked when the call is done -/

/-- The poller has the handle of the run's own invocation. -/
def Held (runId : ℕ) (s : HandOff) : Prop :=
  runId ∈ s.world.tracked ∧ s.awaiting = false

/-- **What a call that is done leaves of its run**: no row, one that has ended,
one that is parked, or one the poller has the handle of; and a run that the
call started is not labelled as lost. -/
structure Settles (runId : ℕ) (s : HandOff) : Prop where
  slot : ∀ run ∈ s.world.db.runs.find runId,
    run.status.isLive = false ∨ run.status = .blocked ∨ s.Held runId
  label : s.call.started = true → ∀ run ∈ s.world.db.runs.find runId,
    run.attentionReason ≠ some lostHandleReason

/-- **What a schedule has to respect.** The statement of the recovery does not
throw, unless the run was handed over; no update of `markLost` lands on the
run while it is live, unless the call is about to delete it; a poll that lets
go of the handle finds the run ended or parked; and nothing but `markLost`
writes the label. -/
def Respects (answers : HandOffAnswers) (runId : ℕ) (s : HandOff) :
    Turn → Prop
  | .call =>
    s.call.recovering = true → answers.recover.isOk = true ∨ s.Held runId
  | .mark other answer =>
    other = runId → other ∈ s.marking → answer.isOk = true →
      s.call.doomed answers = true ∨
        ∀ run ∈ s.world.db.runs.find runId, run.status.isLive = false
  | .ingest other events _ =>
    other = runId → ∀ event ∈ events, ∀ failure ∈ event.failure,
      failure.reason ≠ lostHandleReason
  | .record other reason => other = runId → reason ≠ lostHandleReason
  | .heed other status =>
    other = runId → status ≠ .running → status ≠ .blocked → s.Held runId →
      ∀ run ∈ s.world.db.runs.find runId, run.status ≠ .running
  | .select _ | .account _ => True

instance (runId : ℕ) (s : HandOff) : Decidable (s.Held runId) :=
  inferInstanceAs (Decidable (_ ∧ _))

instance (answers : HandOffAnswers) (runId : ℕ) (s : HandOff) :
    ∀ turn, Decidable (s.Respects answers runId turn)
  | .call => inferInstanceAs (Decidable (_ → _ ∨ _))
  | .select _ => inferInstanceAs (Decidable True)
  | .account _ => inferInstanceAs (Decidable True)
  | .mark _ _ =>
    inferInstanceAs (Decidable (_ → _ → _ → _ ∨ ∀ run ∈ _, _))
  | .ingest _ _ _ =>
    inferInstanceAs (Decidable (_ → ∀ event ∈ _, ∀ failure ∈ _, _))
  | .record _ _ => inferInstanceAs (Decidable (_ → _))
  | .heed _ _ =>
    inferInstanceAs (Decidable (_ → _ → _ → _ → ∀ run ∈ _, _))

/-- **A call that is about to begin**, of a dispatch or of the resume of a run
that is parked and not labelled. Passes of the poller may be under way. -/
inductive Opens (runId : ℕ) : HandOff → Prop where
  | dispatch {world : World} {input : DispatchWorkOrderInput}
      {seen : List RunRow} {marking : List ℕ}
      (hfresh : world.db.runs.next = runId) :
      Opens runId ⟨world, .dispatching input .decide, false, seen, marking⟩
  | resume {world : World} {seen : List RunRow} {marking : List ℕ}
      (hparked : ∀ run ∈ world.db.runs.find runId,
        run.status = .blocked ∧ run.attentionReason ≠ some lostHandleReason) :
      Opens runId ⟨world, .resuming runId .gate, false, seen, marking⟩

/-! ## The invariant -/

/-- The run the phase is about, or will be. -/
def Concerns (runId : ℕ) (s : HandOff) : Prop :=
  match s.call with
  | .dispatching _ .decide => s.world.db.runs.next = runId
  | .dispatching _ (.admission ..) => s.world.db.runs.next = runId
  | .dispatching _ (.create ..) => s.world.db.runs.next = runId
  | .dispatching _ phase => ∀ created, phase.created = some created →
      created = runId
  | .resuming resumed _ => resumed = runId
  | .threw _ => True

/-- A row that is not stalled, runs only while somebody has it, and is not
labelled unless the call says that it failed. -/
structure RowSound (runId : ℕ) (s : HandOff) (run : RunRow) : Prop where
  notStalled : run.status ≠ .stalled
  running : run.status = .running → s.Held runId ∨ s.call.pending = true
  label : run.attentionReason = some lostHandleReason → s.call.failed = true

/-- **The invariant** of a schedule that respects what is asked: the run is the call's
own, and its row is what the call's phase leaves, or the call is bound to fail. -/
structure Sound (answers : HandOffAnswers) (runId : ℕ) (s : HandOff) :
    Prop where
  concerns : s.Concerns runId
  awaiting : s.awaiting = true → s.call.pending = true
  row : s.call.doomed answers = true ∨
    ∀ run ∈ s.world.db.runs.find runId, s.RowSound runId run

section Invariant

variable {env : ExecutorEnv} {answers : HandOffAnswers} {runId : ℕ}
  {s after : HandOff} {run : RunRow}

/-- What a sound row needs of the state around it. -/
theorem RowSound.mono (h : s.RowSound runId run)
    (hheld : s.Held runId → after.Held runId ∨ after.call.pending = true)
    (hpending : s.call.pending = true →
      after.Held runId ∨ after.call.pending = true)
    (hfailed : s.call.failed = true → after.call.failed = true) :
    after.RowSound runId run where
  notStalled := h.notStalled
  running hrunning := (h.running hrunning).elim hheld hpending
  label hlabel := hfailed (h.label hlabel)

/-- A sound row is what is asked of a call that is done. -/
theorem Sound.settles (h : Sound answers runId s)
    (hdone : s.call.isDone = true) : s.Settles runId := by
  have hrow : ∀ run ∈ s.world.db.runs.find runId, s.RowSound runId run := by
    refine h.row.resolve_left ?_
    rw [Call.doomed_of_isDone hdone]
    exact Bool.false_ne_true
  constructor
  · intro run hrun
    cases hstatus : run.status with
    | running =>
      refine Or.inr (Or.inr ?_)
      refine ((hrow run hrun).running hstatus).resolve_right ?_
      rw [Call.pending_of_isDone hdone]
      exact Bool.false_ne_true
    | stalled => exact absurd hstatus (hrow run hrun).notStalled
    | blocked => exact Or.inr (Or.inl rfl)
    | _ => exact Or.inl rfl
  · intro hstarted run hrun hlabel
    have hfailed := (hrow run hrun).label hlabel
    rw [Call.failed_of_started hstarted] at hfailed
    exact Bool.false_ne_true hfailed

/-- No row, nothing to be sound. -/
theorem Sound.of_find_none (hconcerns : s.Concerns runId)
    (hawaiting : s.awaiting = true → s.call.pending = true)
    (hnone : s.world.db.runs.find runId = none) : Sound answers runId s where
  concerns := hconcerns
  awaiting := hawaiting
  row := Or.inr fun run hrun => by
    rw [hnone] at hrun
    cases hrun

end Invariant

/-! ## The statements of the call -/

section Statements

variable {env : ExecutorEnv} {answers : HandOffAnswers} {runId : ℕ}
  {world : World} {input : DispatchWorkOrderInput} {phase : DispatchPhase}
  {awaiting : Bool} {seen : List RunRow} {marking : List ℕ}

/-- A guarded update finds the row with the status it asks for, or leaves
it. -/
theorem mem_find_updateRun {status : RunStatus} {f : RunRow → RunRow}
    {hf : ∀ r, (f r).id = r.id} {run : RunRow}
    (h : run ∈ (world.updateRun runId status f hf).db.runs.find runId) :
    ∃ old ∈ world.db.runs.find runId,
      (old.status = status ∧ run = f old) ∨
        (old.status ≠ status ∧ run = old) := by
  rw [World.find_updateRun] at h
  obtain ⟨old, hold, rfl⟩ := Option.mem_map.mp h
  refine ⟨old, hold, ?_⟩
  rw [show old.id = runId from (Table.find_eq_some.mp hold).2]
  by_cases hstatus : old.status = status
  · exact Or.inl ⟨hstatus, by simp [hstatus]⟩
  · exact Or.inr ⟨hstatus, by simp [hstatus]⟩

/-- The recovery that fails a run: afterwards nothing of it is running. -/
theorem Sound.failRun {s after : HandOff} {now : Instant} {message : String}
    (hworld : after.world = s.world.failRun runId now message)
    (hfailed : after.call.failed = true)
    (hawaiting : after.awaiting = false) (hconcerns : after.Concerns runId)
    (hrow : ∀ run ∈ s.world.db.runs.find runId, s.RowSound runId run) :
    Sound answers runId after where
  concerns := hconcerns
  awaiting h := by
    rw [hawaiting] at h
    cases h
  row := by
    refine Or.inr fun run hrun => ?_
    rw [hworld] at hrun
    obtain ⟨old, hold, ⟨-, rfl⟩ | ⟨hstatus, rfl⟩⟩ := mem_find_updateRun hrun
    · exact
        { notStalled := fun h => by cases h
          running := fun h => by cases h
          label := fun _ => hfailed }
    · exact
        { notStalled := (hrow run hold).notStalled
          running := fun h => absurd h hstatus
          label := fun _ => hfailed }

/-- The call goes on, and the run's row is as it was. -/
theorem Sound.advance {s after : HandOff} (h : Sound answers runId s)
    (hfind : after.world.db.runs.find runId = s.world.db.runs.find runId)
    (hconcerns : after.Concerns runId)
    (hawaiting : after.awaiting = true → after.call.pending = true)
    (hdoomed : s.call.doomed answers = true →
      after.call.doomed answers = true)
    (hheld : s.Held runId → after.Held runId ∨ after.call.pending = true)
    (hpending : s.call.pending = true →
      after.Held runId ∨ after.call.pending = true)
    (hfailed : s.call.failed = true → after.call.failed = true) :
    Sound answers runId after where
  concerns := hconcerns
  awaiting := hawaiting
  row := h.row.imp hdoomed fun hrow run hrun =>
    (hrow run (hfind ▸ hrun)).mono hheld hpending hfailed

/-! ### The phases of a dispatch -/

/-- What a dispatch is once it has made a statement that did not throw. -/
def afterDispatch (input : DispatchWorkOrderInput) (awaiting : Bool)
    (seen : List RunRow) (marking : List ℕ) (next : DispatchPhase × World) :
    HandOff :=
  ⟨next.2, .dispatching input next.1, awaitingDispatch awaiting next.1, seen,
    marking⟩

/-- A dispatch that ends before it has created a row. -/
theorem sound_undispatched {result : ExecutionResult}
    (hnone : world.db.runs.find runId = none) :
    Sound answers runId
      (afterDispatch input awaiting seen marking (.done result, world)) :=
  .of_find_none (fun _ hcreated => by cases hcreated)
    (fun hawaiting => by cases hawaiting) hnone

/-- A dispatch on its way to a recovery, of which nothing was done. -/
theorem Sound.toRecovery {created : ℕ} {failure : Failure}
    (h : Sound answers runId ⟨world, .dispatching input phase, awaiting, seen, marking⟩)
    (hconcerns : ∀ other, some created = some other → other = runId)
    (hdoomed : (Call.dispatching input phase).doomed answers = true →
      (Call.dispatching input (.recover created failure)).doomed answers = true)
    (hfailed : (Call.dispatching input phase).failed = false) :
    Sound answers runId
      (afterDispatch input awaiting seen marking (.recover created failure, world)) :=
  h.advance rfl hconcerns (fun _ => rfl) hdoomed (fun _ => Or.inr rfl)
    (fun _ => Or.inr rfl) fun hf => absurd (hfailed.symm.trans hf) Bool.false_ne_true

theorem sound_decide
    (h : Sound answers runId ⟨world, .dispatching input .decide, awaiting, seen, marking⟩) :
    Sound answers runId (afterDispatch input awaiting seen marking
      (dispatchNext env answers.toAnswers input (.decide, world))) := by
  have hnone : world.db.runs.find runId = none := by
    rw [← show world.db.runs.next = runId from h.concerns]
    exact Table.find_next
  have hcase : (∃ decision runnerKey, dispatchNext env answers.toAnswers input
      (.decide, world) = (.admission decision runnerKey, world)) ∨
        ∃ result, dispatchNext env answers.toAnswers input (.decide, world)
          = (.done result, world) := by
    show (∃ _ _, dispatchStep _ _ _ _ _ = _) ∨ ∃ _, dispatchStep _ _ _ _ _ = _
    rw [dispatchStep]
    split
    · split_ifs
      · exact Or.inl ⟨_, _, rfl⟩
      · exact Or.inr ⟨_, rfl⟩
    · exact Or.inr ⟨_, rfl⟩
  obtain ⟨decision, runnerKey, hnext⟩ | ⟨result, hnext⟩ := hcase
  · rw [hnext]
    exact .of_find_none h.concerns h.awaiting hnone
  · rw [hnext]
    exact sound_undispatched hnone

theorem sound_admission {decision : DispatchDecision} {runnerKey : RunnerKey}
    (h : Sound answers runId
      ⟨world, .dispatching input (.admission decision runnerKey), awaiting, seen, marking⟩) :
    Sound answers runId (afterDispatch input awaiting seen marking
      (dispatchNext env answers.toAnswers input
        (.admission decision runnerKey, world))) := by
  have hnone : world.db.runs.find runId = none := by
    rw [← show world.db.runs.next = runId from h.concerns]
    exact Table.find_next
  have hcase : dispatchNext env answers.toAnswers input
      (.admission decision runnerKey, world) = (.create decision runnerKey, world) ∨
        ∃ result, dispatchNext env answers.toAnswers input
          (.admission decision runnerKey, world) = (.done result, world) := by
    show dispatchStep _ _ _ _ _ = _ ∨ ∃ _, dispatchStep _ _ _ _ _ = _
    rw [dispatchStep]
    split
    · exact Or.inr ⟨_, rfl⟩
    · split_ifs
      · exact Or.inl rfl
      · exact Or.inr ⟨_, rfl⟩
  obtain hnext | ⟨result, hnext⟩ := hcase
  · rw [hnext]
    exact .of_find_none h.concerns h.awaiting hnone
  · rw [hnext]
    exact sound_undispatched hnone

/-- The row is created as running, and nobody has marked it. -/
theorem sound_create {decision : DispatchDecision} {runnerKey : RunnerKey}
    (h : Sound answers runId
      ⟨world, .dispatching input (.create decision runnerKey), awaiting, seen, marking⟩) :
    Sound answers runId (afterDispatch input awaiting seen marking
      (dispatchNext env answers.toAnswers input
        (.create decision runnerKey, world))) := by
  have hid : world.db.runs.next = runId := h.concerns
  refine ⟨fun created hcreated => ?_, fun _ => rfl, Or.inr fun run hrun => ?_⟩
  · rw [← hid]
    exact (Option.some.inj hcreated).symm
  · have hrow : run = runData env input.workOrderId runnerKey decision
        world.db.runs.next := by
      rw [← hid] at hrun
      exact Option.some.inj (hrun.symm.trans (World.find_createRun ..))
    rw [hrow]
    exact
      { notStalled := fun h => by cases h
        running := fun _ => Or.inr rfl
        label := fun h => by cases h }

theorem sound_write {created : ℕ} {runnerKey : RunnerKey}
    (h : Sound answers runId
      ⟨world, .dispatching input (.write created runnerKey), awaiting, seen, marking⟩) :
    Sound answers runId (afterDispatch input awaiting seen marking
      (dispatchNext env answers.toAnswers input (.write created runnerKey, world))) := by
  show Sound answers runId (afterDispatch input awaiting seen marking
    (dispatchStep env answers.toAnswers input (.write created runnerKey) world))
  rw [dispatchStep]
  cases hwrite : answers.write with
  | ok _ =>
    refine h.advance rfl h.concerns (fun _ => rfl) (fun hdoomed => ?_)
      (fun _ => Or.inr rfl) (fun _ => Or.inr rfl) fun hf => hf
    simpa [afterDispatch, Call.doomed, hwrite, Except.isOk, Except.toBool] using hdoomed
  | error message =>
    refine h.toRecovery h.concerns (fun hdoomed => ?_) rfl
    simp [Call.doomed, hwrite, Except.isOk, Except.toBool] at hdoomed

theorem sound_submit {created : ℕ} {runnerKey : RunnerKey}
    (h : Sound answers runId
      ⟨world, .dispatching input (.submit created runnerKey), awaiting, seen, marking⟩) :
    Sound answers runId (afterDispatch input awaiting seen marking
      (dispatchNext env answers.toAnswers input (.submit created runnerKey, world))) := by
  show Sound answers runId (afterDispatch input awaiting seen marking
    (dispatchStep env answers.toAnswers input (.submit created runnerKey) world))
  rw [dispatchStep]
  cases hsubmit : answers.submit with
  | ok handle =>
    refine h.advance rfl h.concerns (fun _ => rfl) (fun hdoomed => ?_)
      (fun _ => Or.inr rfl) (fun _ => Or.inr rfl) fun hf => hf
    simp [Call.doomed, HandOffAnswers.isAtCapacity, hsubmit] at hdoomed
  | error failure =>
    refine h.toRecovery h.concerns (fun hdoomed => ?_) rfl
    cases failure with
    | atCapacity message => exact (Bool.and_eq_true_iff.mp hdoomed).2
    | error message =>
      simp [Call.doomed, HandOffAnswers.isAtCapacity, hsubmit] at hdoomed

/-- From here on the poller has the handle. -/
theorem sound_track {created : ℕ} {runnerKey : RunnerKey}
    (h : Sound answers runId
      ⟨world, .dispatching input (.track created runnerKey), awaiting, seen, marking⟩) :
    Sound answers runId (afterDispatch input awaiting seen marking
      (dispatchNext env answers.toAnswers input (.track created runnerKey, world))) := by
  have hid : created = runId := h.concerns created rfl
  show Sound answers runId (afterDispatch input awaiting seen marking
    (dispatchStep env answers.toAnswers input (.track created runnerKey) world))
  rw [dispatchStep]
  cases htrack : answers.track with
  | ok _ =>
    have hheld : (afterDispatch input awaiting seen marking
        (.update created runnerKey, world.track created)).Held runId :=
      ⟨List.mem_append_right _ (List.mem_singleton.mpr hid.symm), rfl⟩
    exact h.advance rfl h.concerns (fun hw => by cases hw) (fun hd => by cases hd)
      (fun _ => Or.inl hheld) (fun _ => Or.inl hheld) fun hf => hf
  | error message =>
    exact h.toRecovery h.concerns (fun hd => by cases hd) rfl

theorem sound_update {created : ℕ} {runnerKey : RunnerKey}
    (h : Sound answers runId
      ⟨world, .dispatching input (.update created runnerKey), awaiting, seen, marking⟩) :
    Sound answers runId (afterDispatch input awaiting seen marking
      (dispatchNext env answers.toAnswers input (.update created runnerKey, world))) := by
  show Sound answers runId (afterDispatch input awaiting seen marking
    (dispatchStep env answers.toAnswers input (.update created runnerKey) world))
  rw [dispatchStep]
  cases hupdate : answers.update with
  | ok _ =>
    exact h.advance rfl (fun _ hcreated => by cases hcreated)
      (fun hw => by cases hw) (fun hd => by cases hd)
      (fun hheld => Or.inl ⟨hheld.1, rfl⟩) (fun hp => by cases hp)
      fun hf => hf
  | error message =>
    exact h.toRecovery h.concerns (fun hd => by cases hd) rfl

/-- The row is deleted, or failed if it is still running. -/
theorem sound_recover {created : ℕ} {failure : Failure}
    (h : Sound answers runId
      ⟨world, .dispatching input (.recover created failure), awaiting, seen, marking⟩) :
    Sound answers runId (afterDispatch input awaiting seen marking
      (dispatchNext env answers.toAnswers input (.recover created failure, world))) := by
  obtain rfl : created = runId := h.concerns created rfl
  cases failure with
  | atCapacity message =>
    exact .of_find_none (fun _ hcreated => by cases hcreated)
      (fun hawaiting => by cases hawaiting) (World.find_deleteRun ..)
  | error message =>
    exact .failRun rfl rfl rfl (fun _ hcreated => by cases hcreated)
      (h.row.resolve_left Bool.false_ne_true)

/-- **A statement of a dispatch that does not throw.** -/
theorem sound_dispatchNext
    (h : Sound answers runId
      ⟨world, .dispatching input phase, awaiting, seen, marking⟩) :
    Sound answers runId (afterDispatch input awaiting seen marking
      (dispatchNext env answers.toAnswers input (phase, world))) := by
  cases phase with
  | decide => exact sound_decide h
  | admission decision runnerKey => exact sound_admission h
  | create decision runnerKey => exact sound_create h
  | write created runnerKey => exact sound_write h
  | submit created runnerKey => exact sound_submit h
  | track created runnerKey => exact sound_track h
  | update created runnerKey => exact sound_update h
  | recover created failure => exact sound_recover h
  | done result =>
    exact h.advance rfl (fun _ hcreated => by cases hcreated)
      (fun hw => by cases hw) (fun hd => by cases hd)
      (fun hheld => Or.inl ⟨hheld.1, rfl⟩) (fun hp => by cases hp)
      fun hf => hf

/-! ### The phases of a resume -/

/-- What a resume is once it has made a statement that did not throw. -/
def afterResume (runId : ℕ) (awaiting : Bool) (seen : List RunRow)
    (marking : List ℕ) (next : ResumePhase × World) : HandOff :=
  ⟨next.2, .resuming runId next.1, awaitingResume awaiting next.1, seen, marking⟩

/-- An update of the attempts keeps what the invariant reads of a row. -/
theorem Sound.modifyRun {s after : HandOff} {f : RunRow → RunRow}
    {hf : ∀ r, (f r).id = r.id} (h : Sound answers runId s)
    (hworld : after.world = s.world.modifyRun runId f hf)
    (hstatus : ∀ r, (f r).status = r.status)
    (hreason : ∀ r, (f r).attentionReason = r.attentionReason)
    (hconcerns : after.Concerns runId) (hpending : after.call.pending = true)
    (hdoomed : s.call.doomed answers = false)
    (hfailed : s.call.failed = false) : Sound answers runId after where
  concerns := hconcerns
  awaiting _ := hpending
  row := by
    refine Or.inr fun run hrun => ?_
    rw [hworld, World.find_modifyRun] at hrun
    obtain ⟨old, hold, rfl⟩ := Option.mem_map.mp hrun
    rw [show old.id = runId from (Table.find_eq_some.mp hold).2, beq_self_eq_true,
      if_pos rfl]
    have hsound := h.row.resolve_left (by rw [hdoomed]; exact
      Bool.false_ne_true) old hold
    exact
      { notStalled := by rw [hstatus]; exact hsound.notStalled
        running := fun _ => Or.inr hpending
        label := fun hlabel => by
          rw [hreason] at hlabel
          exact absurd (hsound.label hlabel) (by rw [hfailed]; decide) }

section Resume

variable {stage : ResumePhase} {parked : ParkedRun}

/-- A resume that ends with the row as it was, which nobody waits for. -/
theorem Sound.resumeDone {result : ResumeResult}
    (h : Sound answers runId ⟨world, .resuming runId stage, awaiting, seen, marking⟩)
    (hpending : (Call.resuming runId stage).pending = false)
    (hfailed : (Call.resuming runId stage).failed = true →
      (Call.resuming runId (.done result)).failed = true) :
    Sound answers runId
      (afterResume runId awaiting seen marking (.done result, world)) :=
  h.advance rfl rfl (fun hw => by cases hw) (fun hd => by cases hd)
    (fun hheld => Or.inl ⟨hheld.1, rfl⟩)
    (fun hp => absurd (hpending.symm.trans hp) Bool.false_ne_true) hfailed

/-- A resume that goes on with the row it has claimed. -/
theorem Sound.resumeOn {next : ResumePhase}
    (h : Sound answers runId ⟨world, .resuming runId stage, awaiting, seen, marking⟩)
    {after : World} (hfind : after.db.runs.find runId = world.db.runs.find runId)
    (hpending : (Call.resuming runId next).pending = true)
    (hfailed : (Call.resuming runId stage).failed = false) :
    Sound answers runId (afterResume runId awaiting seen marking (next, after)) :=
  h.advance hfind rfl (fun _ => hpending) (fun hd => by cases hd)
    (fun _ => Or.inr hpending) (fun _ => Or.inr hpending)
    fun hf => absurd (hfailed.symm.trans hf) Bool.false_ne_true

theorem sound_gate
    (h : Sound answers runId ⟨world, .resuming runId .gate, awaiting, seen, marking⟩) :
    Sound answers runId (afterResume runId awaiting seen marking
      (resumeNext env answers.toAnswers runId (.gate, world))) := by
  have hcase : (∃ result, resumeNext env answers.toAnswers runId (.gate, world)
      = (.done result, world)) ∨
        ∃ parked, resumeNext env answers.toAnswers runId (.gate, world)
          = (.admission parked, world) := by
    show (∃ _, resumeStep _ _ _ _ _ = _) ∨ ∃ _, resumeStep _ _ _ _ _ = _
    rw [resumeStep]
    split
    · exact Or.inl ⟨_, rfl⟩
    · exact Or.inr ⟨_, rfl⟩
  obtain ⟨result, hnext⟩ | ⟨parked, hnext⟩ := hcase
  · rw [hnext]
    exact h.resumeDone rfl fun hf => by cases hf
  · rw [hnext]
    exact h.advance rfl rfl h.awaiting (fun hd => by cases hd) Or.inl
      (fun hp => by cases hp) fun hf => by cases hf

theorem sound_readmission
    (h : Sound answers runId
      ⟨world, .resuming runId (.admission parked), awaiting, seen, marking⟩) :
    Sound answers runId (afterResume runId awaiting seen marking
      (resumeNext env answers.toAnswers runId (.admission parked, world))) := by
  have hcase : (∃ result, resumeNext env answers.toAnswers runId
      (.admission parked, world) = (.done result, world)) ∨
        resumeNext env answers.toAnswers runId (.admission parked, world)
          = (.claim parked, world) := by
    show (∃ _, resumeStep _ _ _ _ _ = _) ∨ resumeStep _ _ _ _ _ = _
    rw [resumeStep]
    split
    · exact Or.inl ⟨_, rfl⟩
    · split_ifs
      · exact Or.inr rfl
      · exact Or.inl ⟨_, rfl⟩
  obtain ⟨result, hnext⟩ | hnext := hcase
  · rw [hnext]
    exact h.resumeDone rfl fun hf => by cases hf
  · rw [hnext]
    exact h.advance rfl rfl h.awaiting (fun hd => by cases hd) Or.inl
      (fun hp => by cases hp) fun hf => by cases hf

/-- The claim leaves the label of the row as it was. -/
theorem sound_claim
    (h : Sound answers runId
      ⟨world, .resuming runId (.claim parked), awaiting, seen, marking⟩) :
    Sound answers runId (afterResume runId awaiting seen marking
      (resumeNext env answers.toAnswers runId (.claim parked, world))) := by
  by_cases hparked : world.parked runId = true
  · rw [show resumeNext env answers.toAnswers runId (.claim parked, world)
        = (.submit parked, world.updateRun runId .blocked
          (RunRow.claim parked.attempt) fun _ => rfl) by
      show resumeStep _ _ _ _ _ = _
      rw [resumeStep, if_pos hparked]]
    refine ⟨rfl, fun _ => rfl, Or.inr fun run hrun => ?_⟩
    obtain ⟨old, hold, hold'⟩ := mem_find_updateRun hrun
    have hsound := h.row.resolve_left Bool.false_ne_true old hold
    obtain ⟨-, rfl⟩ | ⟨-, rfl⟩ := hold'
    · exact
        { notStalled := fun h => by cases h
          running := fun _ => Or.inr rfl
          label := fun hlabel => by cases hsound.label hlabel }
    · exact hsound.mono (fun _ => Or.inr rfl) (fun hp => by cases hp)
        fun hf => by cases hf
  · have hcase : ∃ result, resumeNext env answers.toAnswers runId
        (.claim parked, world) = (.done result, world) := by
      show ∃ _, resumeStep _ _ _ _ _ = _
      rw [resumeStep, if_neg hparked]
      exact ⟨_, rfl⟩
    obtain ⟨result, hnext⟩ := hcase
    rw [hnext]
    exact h.resumeDone rfl fun hf => by cases hf

theorem sound_resubmit
    (h : Sound answers runId
      ⟨world, .resuming runId (.submit parked), awaiting, seen, marking⟩) :
    Sound answers runId (afterResume runId awaiting seen marking
      (resumeNext env answers.toAnswers runId (.submit parked, world))) := by
  show Sound answers runId (afterResume runId awaiting seen marking
    (resumeStep env answers.toAnswers runId (.submit parked) world))
  rw [resumeStep]
  cases answers.submit with
  | ok handle => exact h.resumeOn rfl rfl rfl
  | error failure => exact h.resumeOn rfl rfl rfl

theorem sound_closeAttempts {handle : RunHandle}
    (h : Sound answers runId
      ⟨world, .resuming runId (.closeAttempts parked handle), awaiting, seen, marking⟩) :
    Sound answers runId (afterResume runId awaiting seen marking
      (resumeNext env answers.toAnswers runId
        (.closeAttempts parked handle, world))) := by
  show Sound answers runId (afterResume runId awaiting seen marking
    (resumeStep env answers.toAnswers runId (.closeAttempts parked handle) world))
  rw [resumeStep]
  cases answers.closeAttempts with
  | ok _ => exact h.modifyRun rfl (fun _ => rfl) (fun _ => rfl) rfl rfl rfl rfl
  | error message => exact h.resumeOn rfl rfl rfl

theorem sound_openAttempt {handle : RunHandle}
    (h : Sound answers runId
      ⟨world, .resuming runId (.openAttempt parked handle), awaiting, seen, marking⟩) :
    Sound answers runId (afterResume runId awaiting seen marking
      (resumeNext env answers.toAnswers runId
        (.openAttempt parked handle, world))) := by
  show Sound answers runId (afterResume runId awaiting seen marking
    (resumeStep env answers.toAnswers runId (.openAttempt parked handle) world))
  rw [resumeStep]
  cases answers.openAttempt with
  | ok _ => exact h.modifyRun rfl (fun _ => rfl) (fun _ => rfl) rfl rfl rfl rfl
  | error message => exact h.resumeOn rfl rfl rfl

/-- From here on the poller has the handle. -/
theorem sound_retrack
    (h : Sound answers runId
      ⟨world, .resuming runId (.track parked), awaiting, seen, marking⟩) :
    Sound answers runId (afterResume runId awaiting seen marking
      (resumeNext env answers.toAnswers runId (.track parked, world))) := by
  show Sound answers runId (afterResume runId awaiting seen marking
    (resumeStep env answers.toAnswers runId (.track parked) world))
  rw [resumeStep]
  cases answers.track with
  | ok _ =>
    have htracked : runId ∈ (world.track runId).tracked :=
      List.mem_append_right _ (List.mem_singleton_self _)
    exact h.advance rfl rfl (fun hw => by cases hw) (fun hd => by cases hd)
      (fun _ => Or.inl ⟨htracked, rfl⟩) (fun _ => Or.inl ⟨htracked, rfl⟩)
      fun hf => by cases hf
  | error message => exact h.resumeOn rfl rfl rfl

/-- The row is parked again, or failed, if it is still running. -/
theorem sound_resumeRecover {failure : Failure}
    (h : Sound answers runId
      ⟨world, .resuming runId (.recover parked failure), awaiting, seen, marking⟩) :
    Sound answers runId (afterResume runId awaiting seen marking
      (resumeNext env answers.toAnswers runId (.recover parked failure, world))) := by
  have hrow := h.row.resolve_left Bool.false_ne_true
  cases failure with
  | atCapacity message =>
    refine ⟨rfl, (fun hw => by cases hw), Or.inr fun run hrun => ?_⟩
    obtain ⟨old, hold, ⟨-, rfl⟩ | ⟨hstatus, rfl⟩⟩ := mem_find_updateRun hrun
    · exact
        { notStalled := fun h => by cases h
          running := fun h => by cases h
          label := fun hlabel => by cases (hrow old hold).label hlabel }
    · exact
        { notStalled := (hrow run hold).notStalled
          running := fun h => absurd h hstatus
          label := fun hlabel => by cases (hrow run hold).label hlabel }
  | error message => exact .failRun rfl rfl rfl rfl hrow

/-- **A statement of a resume that does not throw.** -/
theorem sound_resumeNext
    (h : Sound answers runId
      ⟨world, .resuming runId stage, awaiting, seen, marking⟩) :
    Sound answers runId (afterResume runId awaiting seen marking
      (resumeNext env answers.toAnswers runId (stage, world))) := by
  cases stage with
  | gate => exact sound_gate h
  | admission parked => exact sound_readmission h
  | claim parked => exact sound_claim h
  | submit parked => exact sound_resubmit h
  | closeAttempts parked handle => exact sound_closeAttempts h
  | openAttempt parked handle => exact sound_openAttempt h
  | track parked => exact sound_retrack h
  | recover parked failure => exact sound_resumeRecover h
  | done result => exact h.resumeDone rfl fun hf => hf

end Resume

/-! ### What throws -/

/-- **A statement that throws and is not recovered from**: the row is not
written yet, or the poller has its handle. -/
theorem Sound.thrown {s : HandOff} {call : Call} (h : Sound answers runId s)
    (hheld : s.call.pending = true → s.Held runId)
    (hdoomed : s.call.doomed answers = false)
    (hfailed : s.call.failed = false)
    (hconcerns : ({ s with call := call } : HandOff).Concerns runId) :
    Sound answers runId { s with call := call } where
  concerns := hconcerns
  awaiting hw := by
    have hnot := (hheld (h.awaiting hw)).2
    rw [hnot] at hw
    cases hw
  row := by
    refine Or.inr fun run hrun => ?_
    have hrow := h.row.resolve_left (by rw [hdoomed]; exact
      Bool.false_ne_true) run hrun
    refine hrow.mono Or.inl (fun hp => Or.inl (hheld hp)) fun hf => ?_
    rw [hfailed] at hf
    cases hf

/-- **The call's turn.** -/
theorem sound_callStep {s : HandOff} (h : Sound answers runId s)
    (hrespects : s.Respects answers runId .call) :
    Sound answers runId (s.callStep env answers) := by
  obtain ⟨world, call, awaiting, seen, marking⟩ := s
  cases call with
  | threw message => exact h
  | dispatching input phase =>
    cases hanswer : answers.ofDispatch phase with
    | ok _ =>
      unfold callStep
      simp only [hanswer]
      exact sound_dispatchNext h
    | error message =>
      unfold callStep
      simp only [hanswer]
      cases phase with
      | recover created failure =>
        have hthrows : answers.recover.isOk = false := by
          rw [show answers.recover = .error message from hanswer]
          rfl
        have hheld := (hrespects rfl).resolve_left (by
          rw [hthrows]
          exact Bool.false_ne_true)
        cases failure with
        | atCapacity refusal =>
          exact h.thrown (fun _ => hheld) hthrows rfl
            fun _ hcreated => by cases hcreated
        | error _ => exact h.thrown (fun _ => hheld) rfl rfl trivial
      | decide => exact h.thrown (fun hp => by cases hp) rfl rfl trivial
      | admission decision runnerKey =>
        exact h.thrown (fun hp => by cases hp) rfl rfl trivial
      | create decision runnerKey =>
        exact h.thrown (fun hp => by cases hp) rfl rfl trivial
      | _ => cases hanswer
  | resuming resumed phase =>
    obtain rfl : resumed = runId := h.concerns
    cases hanswer : answers.ofResume phase with
    | ok _ =>
      unfold callStep
      simp only [hanswer]
      exact sound_resumeNext h
    | error message =>
      unfold callStep
      simp only [hanswer]
      cases phase with
      | recover parked failure =>
        have hheld := (hrespects rfl).resolve_left (by
          rw [show answers.recover = .error message from hanswer]
          exact Bool.false_ne_true)
        exact h.thrown (fun _ => hheld) rfl rfl trivial
      | gate => exact h.thrown (fun hp => by cases hp) rfl rfl trivial
      | admission parked =>
        exact h.thrown (fun hp => by cases hp) rfl rfl trivial
      | claim parked => exact h.thrown (fun hp => by cases hp) rfl rfl trivial
      | _ => cases hanswer

end Statements

/-! ## The poller's turns -/

section Poller

variable {env : ExecutorEnv} {answers : HandOffAnswers} {runId other : ℕ}
  {s : HandOff}

/-- **What a status statement makes of a run**: nothing, a run that is running
or parked with the label it had, or one that has ended. -/
theorem transition_cases (events : List RunEventPayload) (advanced : Bool)
    (run : RunRow) :
    let next := transition events advanced run
    next = run ∨
      ((next.status = .running ∨ next.status = .blocked) ∧
        next.attentionReason = run.attentionReason) ∨
      ∃ terminal ∈ events, next.status.isLive = false ∧
        (next.attentionReason = run.attentionReason ∨
          next.attentionReason =
            some ((terminal.failure.map (·.reason)).getD "run failed")) := by
  intro next
  cases hlive : run.status.isLive with
  | false => exact Or.inl (transition_of_not_live hlive)
  | true =>
    cases hterminal : terminalEventIn events with
    | some terminal =>
      refine Or.inr (Or.inr ⟨terminal, (terminalEventIn_eq_some hterminal).1, ?_⟩)
      rw [show next = (run.conclude terminal).endOpenAttempts terminal from
        (transition_of_terminal hterminal).trans
          (RunRow.concludeRun_of_live hlive)]
      show (if _ then _ else _ : RunStatus).isLive = false ∧ _
      constructor
      · split <;> rfl
      · show (if _ then _ else _) = _ ∨ (if _ then _ else _) = _
        split
        · exact Or.inl rfl
        · exact Or.inr rfl
    | none =>
      cases hadvanced : advanced with
      | false =>
        refine Or.inl ?_
        show transition events advanced run = run
        rw [hadvanced, transition_not_advanced hterminal]
      | true =>
        refine Or.inr (Or.inl ?_)
        rw [show next = if (blockingEventIn events).isSome then run.blockRun
            else run.resumeRun by
          show transition events advanced run = _
          rw [hadvanced, transition_advanced hterminal]]
        split_ifs
        · refine ⟨Or.inr (RunRow.status_blockRun hlive), ?_⟩
          rw [RunRow.blockRun, if_pos hlive]
        · refine ⟨Or.inl (RunRow.status_resumeRun hlive), ?_⟩
          rw [RunRow.resumeRun]
          split <;> rfl

/-- The poller's turn changes no row of the run. -/
theorem Sound.keep {after : HandOff} (h : Sound answers runId s)
    (hcall : after.call = s.call) (hawaiting : after.awaiting = s.awaiting)
    (hdb : after.world.db = s.world.db)
    (hheld : s.Held runId →
      (∀ run ∈ s.world.db.runs.find runId, run.status ≠ .running) ∨
        after.Held runId) : Sound answers runId after where
  concerns := by
    have hconcerns := h.concerns
    unfold Concerns at hconcerns ⊢
    rwa [hcall, hdb]
  awaiting := by
    rw [hcall, hawaiting]
    exact h.awaiting
  row := by
    rw [hcall, hdb]
    refine h.row.imp_right fun hrow run hrun => ?_
    have hsound := hrow run hrun
    refine ⟨hsound.notStalled, fun hrunning => ?_, ?_⟩
    · rw [hcall]
      refine (hsound.running hrunning).imp_left fun hhas => ?_
      exact (hheld hhas).resolve_left fun hnone => hnone run hrun hrunning
    · rw [hcall]
      exact hsound.label

/-- The poller's turn rewrites the row of the run, or one of another. -/
theorem Sound.rewrite {after : HandOff} {f : RunRow → RunRow}
    (h : Sound answers runId s) (hcall : after.call = s.call)
    (hawaiting : after.awaiting = s.awaiting)
    (hnext : after.world.db.runs.next = s.world.db.runs.next)
    (htracked : after.world.tracked = s.world.tracked)
    (hfind : after.world.db.runs.find runId
      = (s.world.db.runs.find runId).map f)
    (hrow : s.call.doomed answers = true ∨
      ∀ run ∈ s.world.db.runs.find runId, s.RowSound runId run →
        s.RowSound runId (f run)) : Sound answers runId after where
  concerns := by
    have hconcerns := h.concerns
    unfold Concerns at hconcerns ⊢
    rwa [hcall, hnext]
  awaiting := by
    rw [hcall, hawaiting]
    exact h.awaiting
  row := by
    rw [hcall, hfind]
    obtain hdoomed | hrow := hrow
    · exact Or.inl hdoomed
    refine h.row.imp_right fun hold run hrun => ?_
    obtain ⟨old, hfound, rfl⟩ := Option.mem_map.mp hrun
    refine (hrow old hfound (hold old hfound)).mono (fun hheld => Or.inl ?_)
      (fun hp => Or.inr ?_) fun hf => ?_
    · exact ⟨by rw [htracked]; exact hheld.1, by rw [hawaiting]; exact hheld.2⟩
    · rwa [hcall]
    · rwa [hcall]

/-- **What a pass writes on the run**, while it is live. -/
theorem Sound.ofLive {after : HandOff} {f : RunRow → RunRow}
    (h : Sound answers runId s) (hcall : after.call = s.call)
    (hawaiting : after.awaiting = s.awaiting)
    (hnext : after.world.db.runs.next = s.world.db.runs.next)
    (htracked : after.world.tracked = s.world.tracked)
    (hfind : after.world.db.runs.find runId
      = (s.world.db.runs.find runId).map fun run =>
          if run.id == other && run.status.isLive then f run else run)
    (hrow : other = runId → s.call.doomed answers = true ∨
      ∀ run ∈ s.world.db.runs.find runId, run.status.isLive = true →
        s.RowSound runId run → s.RowSound runId (f run)) :
    Sound answers runId after := by
  refine h.rewrite hcall hawaiting hnext htracked hfind ?_
  by_cases hother : other = runId
  · refine (hrow hother).imp_right fun hrow run hrun hsound => ?_
    split_ifs with hguard
    · exact hrow run hrun (Bool.and_eq_true_iff.mp hguard).2 hsound
    · exact hsound
  · refine Or.inr fun run hrun hsound => ?_
    rw [if_neg]
    · exact hsound
    · intro hguard
      have hid : run.id = runId := (Table.find_eq_some.mp hrun).2
      have hsame := beq_iff_eq.mp (Bool.and_eq_true_iff.mp hguard).1
      exact hother (hsame.symm.trans hid)

theorem sound_mark {answer : Except String Unit} (h : Sound answers runId s)
    (hrespects : s.Respects answers runId (.mark other answer)) :
    Sound answers runId (s.step env answers (.mark other answer)) := by
  show Sound answers runId (if other ∈ s.marking then _ else s)
  by_cases hmem : other ∈ s.marking
  · rw [if_pos hmem]
    cases answer with
    | error message => exact h.keep rfl rfl rfl Or.inr
    | ok _ =>
      refine h.ofLive rfl rfl rfl rfl (World.find_markLost s.world)
        fun hother => (hrespects hother hmem rfl).imp_right ?_
      -- the row is not live, so the update does not find it
      intro hended run hrun hlive
      rw [hended run hrun] at hlive
      cases hlive
  · rw [if_neg hmem]
    exact h

theorem sound_record {reason : String} (h : Sound answers runId s)
    (hrespects : s.Respects answers runId (.record other reason)) :
    Sound answers runId (s.step env answers (.record other reason)) := by
  show Sound answers runId (if other ∈ s.world.tracked then _ else s)
  by_cases hmem : other ∈ s.world.tracked
  · rw [if_pos hmem]
    refine h.ofLive rfl rfl rfl rfl (World.find_record s.world)
      fun hother => Or.inr fun run hrun hlive hsound => ?_
    exact ⟨hsound.notStalled, hsound.running, fun hlabel =>
      absurd (Option.some.inj hlabel) (hrespects hother)⟩
  · rw [if_neg hmem]
    exact h

/-- A row of a tracked run is held, or the call is under way. -/
theorem Sound.held_or_pending (h : Sound answers runId s)
    (hmem : runId ∈ s.world.tracked) :
    s.Held runId ∨ s.call.pending = true := by
  cases hawaiting : s.awaiting with
  | true => exact Or.inr (h.awaiting hawaiting)
  | false => exact Or.inl ⟨hmem, hawaiting⟩

theorem sound_ingest {events : List RunEventPayload} {advanced : Bool}
    (h : Sound answers runId s)
    (hrespects : s.Respects answers runId (.ingest other events advanced)) :
    Sound answers runId (s.step env answers (.ingest other events advanced)) := by
  show Sound answers runId (if other ∈ s.world.tracked then _ else s)
  by_cases hmem : other ∈ s.world.tracked
  · rw [if_pos hmem]
    refine h.rewrite rfl rfl rfl rfl
      (Table.find_modify (key_transition events advanced))
      (Or.inr fun run hrun hsound => ?_)
    split_ifs with hguard
    · have hid : run.id = runId := (Table.find_eq_some.mp hrun).2
      have hother : other = runId := (beq_iff_eq.mp hguard).symm.trans hid
      rw [hother] at hmem
      obtain hsame | ⟨hstatus, hreason⟩ | ⟨terminal, hterminal, hended, hreason⟩ :=
        transition_cases events advanced run
      · rw [hsame]
        exact hsound
      · refine ⟨fun hstalled => ?_, fun _ => h.held_or_pending hmem, ?_⟩
        · obtain hrunning | hblocked := hstatus
          · rw [hrunning] at hstalled
            cases hstalled
          · rw [hblocked] at hstalled
            cases hstalled
        · rw [hreason]
          exact hsound.label
      · refine ⟨fun hstalled => ?_, fun _ => h.held_or_pending hmem, ?_⟩
        · rw [hstalled] at hended
          cases hended
        · obtain hreason | hreason := hreason
          · rw [hreason]
            exact hsound.label
          · intro hlabel
            have htext := Option.some.inj (hreason.symm.trans hlabel)
            cases hfailure : terminal.failure with
            | none =>
              rw [hfailure] at htext
              exact absurd htext (by decide)
            | some failure =>
              rw [hfailure] at htext
              exact absurd htext
                (hrespects hother terminal hterminal failure hfailure)
    · exact hsound
  · rw [if_neg hmem]
    exact h

theorem sound_heed {status : RunnerRunStatus} (h : Sound answers runId s)
    (hrespects : s.Respects answers runId (.heed other status)) :
    Sound answers runId (s.step env answers (.heed other status)) := by
  have hforget : ∀ marking : List ℕ, status ≠ .running → status ≠ .blocked →
      Sound answers runId
        { s with world := s.world.forget other, marking := marking } := by
    intro marking hrunning hblocked
    refine h.keep rfl rfl rfl fun hheld => ?_
    by_cases hother : other = runId
    · exact Or.inl (hrespects hother hrunning hblocked hheld)
    · refine Or.inr ⟨List.mem_filter.mpr ⟨hheld.1, ?_⟩, hheld.2⟩
      exact bne_iff_ne.mpr fun hsame => hother hsame.symm
  show Sound answers runId (if other ∈ s.world.tracked then _ else s)
  by_cases hmem : other ∈ s.world.tracked
  · rw [if_pos hmem]
    cases status with
    | running => exact h
    | blocked => exact h
    | unknown => exact hforget _ (by decide) (by decide)
    | succeeded => exact hforget s.marking (by decide) (by decide)
    | failed => exact hforget s.marking (by decide) (by decide)
  · rw [if_neg hmem]
    exact h

end Poller

/-! ## Every interleaving -/

variable {answers : HandOffAnswers} {runId : ℕ}

/-- **A turn that respects what is asked keeps the invariant.** -/
theorem sound_step (env : ExecutorEnv) (s : HandOff) (turn : Turn)
    (h : Sound answers runId s) (hrespects : s.Respects answers runId turn) :
    Sound answers runId (s.step env answers turn) := by
  cases turn with
  | call => exact sound_callStep h hrespects
  | select order => exact h.keep rfl rfl rfl Or.inr
  | account index =>
    show Sound answers runId (match s.seen[index]? with
      | none => s
      | some run => _)
    split
    · exact h
    · exact h.keep rfl rfl rfl Or.inr
  | mark other answer => exact sound_mark h hrespects
  | ingest other events advanced => exact sound_ingest h hrespects
  | record other reason => exact sound_record h hrespects
  | heed other status => exact sound_heed h hrespects

theorem Opens.sound {s : HandOff} (h : Opens runId s) :
    Sound answers runId s := by
  cases h with
  | dispatch hfresh =>
    refine .of_find_none hfresh (fun hw => by cases hw) ?_
    rw [← hfresh]
    exact Table.find_next
  | resume hparked =>
    refine ⟨rfl, (fun hw => by cases hw), Or.inr fun run hrun => ?_⟩
    obtain ⟨hstatus, hlabel⟩ := hparked run hrun
    refine ⟨?_, fun hrunning => ?_, fun hlost => absurd hlost hlabel⟩
    · rw [hstatus]
      decide
    · rw [hstatus] at hrunning
      cases hrunning

/-- **A call is safe against the poller on a schedule that respects what is
asked.** For a dispatch, or the resume of a parked run, with each of its
statements answered or thrown, and every interleaving with passes of the
poller: if each step respects what is asked, then in every state that is
reached with the call done the run has no row, has ended, is parked, or is
one the poller has the handle of; and a run the call started is not labelled
as lost. -/
theorem settles_of_respects (env : ExecutorEnv) {start : HandOff}
    (hopens : Opens runId start) {turns : List Turn}
    (hrespects : Machine.Always (step env answers)
      (fun s turn => s.Respects answers runId turn) start turns) :
    ∀ reached, reached <+: turns →
      let s := Machine.run (step env answers) start reached
      s.call.isDone = true → s.Settles runId := by
  rintro reached ⟨later, rfl⟩ s hdone
  have hsound : Sound answers runId s :=
    Machine.run_invariant (fun s turn h => sound_step env s turn h)
      hopens.sound hrespects.prefix
  exact hsound.settles hdone

/-- Nothing throws. -/
def noneThrow : HandOffAnswers where
  toAnswers := allOk
  read := .ok ()
  admission := .ok ()
  row := .ok ()
  recover := .ok ()

/-- The dispatch of the one work order that is queued. -/
def queuedDispatch : HandOff :=
  ⟨queuedWorld, .dispatching ⟨exportOrder, 0⟩ .decide, false, [], []⟩

/-- A pass before the dispatch, and one after it. -/
def apart : List Turn :=
  .select id :: List.replicate 8 .call ++ [.select id, .account 0]

theorem settles_of_respects_apart :
    (Machine.run (step localEnv noneThrow) queuedDispatch apart).Settles 0 := by
  have hrespects : Machine.Always (step localEnv noneThrow)
      (fun s turn => s.Respects noneThrow 0 turn) queuedDispatch apart := by
    decide +kernel
  exact settles_of_respects localEnv (.dispatch rfl) hrespects apart
    List.prefix_rfl (by decide +kernel)

/-- A pass that finds the run while its records are being written. -/
def marked : List Turn :=
  List.replicate 3 .call ++ [.select id, .account 0, .mark 0 (.ok ())]

/-- **A dispatch that fails after a pass leaves its run stalled for good**:
the recovery does not find a row that is no longer running. -/
theorem stalled_for_good :
    ¬ ∀ (env : ExecutorEnv) (answers : HandOffAnswers) (runId : ℕ)
      (start : HandOff), Opens runId start → ∀ turns : List Turn,
        let s := Machine.run (step env answers) start turns
        s.call.isDone = true → s.Settles runId := by
  intro h
  have hsettles := h localEnv
    { noneThrow with write := .error "connection lost" } 0 queuedDispatch
    (.dispatch rfl) (marked ++ [.call, .call]) (by decide +kernel)
  exact absurd hsettles.slot (by decide +kernel)

/-- And a dispatch that does not fail leaves a run that is tracked labelled as
lost. -/
example :
    let s := Machine.run (step localEnv noneThrow) queuedDispatch
      (marked ++ List.replicate 4 .call)
    s.call.started = true ∧ s.world.tracked = [0] ∧
      (s.world.db.runs.find 0).map (·.attentionReason)
        = some (some lostHandleReason) := by
  decide +kernel

end HandOff

end Opifex
