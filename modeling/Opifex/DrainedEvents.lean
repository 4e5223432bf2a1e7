import Opifex.LocalRunner

/-!
# Between the runner and the tables

A poll hands out what the runner has queued and keeps no copy, and the poller
ingests what it was handed. An ingestion that throws before it stores the batch
leaves the events nowhere: not in the queue, not in the tables, and no later
tick can ask for them again.

Every other path keeps them. An event is queued or stored after every step of a
session exactly when no tick drains an event into an ingestion that stores
nothing (`none_lost_iff`).
-/

namespace Opifex

namespace Poller

/-- The events stored for a run, if its row is there. -/
def rowEvents (runId : ℕ) (poller : Poller) : Option (List RunEventRow) :=
  (poller.table.find runId).map (·.record.events)

section Writes

variable {poller after : Poller} {runId other : ℕ} {reason : String}

theorem rowEvents_of_find
    (h : after.table.find runId = poller.table.find runId) :
    after.rowEvents runId = poller.rowEvents runId := by
  rw [rowEvents, rowEvents, h]

/-- A write that leaves the events of every row leaves those of a run. -/
theorem rowEvents_modify {p : WatchedRun → Bool} {f : WatchedRun → WatchedRun}
    (hkey : ∀ watched, Keyed.key (f watched) = Keyed.key watched)
    (hf : ∀ watched, (f watched).record.events = watched.record.events) :
    rowEvents runId { poller with table := poller.table.modify p f hkey }
      = poller.rowEvents runId :=
  column_modify hkey fun watched _ _ => hf watched

theorem rowEvents_record :
    (record other reason poller).rowEvents runId = poller.rowEvents runId :=
  rowEvents_modify (WatchedRun.key_attention reason) fun _ => rfl

theorem rowEvents_markLost :
    (markLost other poller).rowEvents runId = poller.rowEvents runId :=
  rowEvents_modify WatchedRun.key_lose fun _ => rfl

theorem rowEvents_storeRecord {stored : RunRecord} :
    (storeRecord runId stored poller).rowEvents runId
      = (poller.rowEvents runId).map fun _ => stored.events := by
  show ((poller.table.modify (fun watched => watched.record.run.id == runId)
    (WatchedRun.ingested stored) (WatchedRun.key_ingested stored)).find
      runId).map _ = _
  rw [Table.find_modify, rowEvents]
  cases hfind : poller.table.find runId with
  | none => rfl
  | some watched =>
    have hkey : (watched.record.run.id == runId) = true :=
      beq_iff_eq.mpr (Table.find_eq_some.mp hfind).2
    rw [Option.map_some, if_pos hkey]
    rfl

end Writes

section Parts

variable {Candidate : Type*} {validator : RunEventValidator Candidate}
  {answers : PollAnswers Candidate} {poller : Poller} {runId other : ℕ}

theorem rowEvents_enforceDeadlines :
    (enforceDeadlines answers poller).rowEvents runId
      = poller.rowEvents runId :=
  view_enforceDeadlines (fun _ _ _ => rowEvents_record) fun _ _ _ => rfl

theorem rowEvents_enforceBudget {runIsLive : Bool} :
    (enforceBudget answers other runIsLive poller).rowEvents runId
      = poller.rowEvents runId :=
  view_enforceBudget (fun _ _ _ => rowEvents_record) fun _ _ _ _ => rfl

theorem rowEvents_heed {status : RunnerRunStatus} :
    (heed other status poller).rowEvents runId = poller.rowEvents runId := by
  cases status with
  | unknown => exact rowEvents_markLost
  | _ => rfl

theorem rowEvents_reconcileUntracked :
    (reconcileUntracked answers poller).rowEvents runId
      = poller.rowEvents runId :=
  view_reconcileUntracked (fun _ _ => rowEvents_markLost) fun _ _ => rfl

theorem rowEvents_ingestPolled {poll : RunPollResult Candidate} :
    (ingestPolled validator answers runId poll poller).rowEvents runId
      = (poller.table.find runId).map fun watched =>
          (ingestAttempt validator runId watched.record poll.events
            (answers.ingestFailure runId)).1.events := by
  unfold ingestPolled
  cases hfind : poller.table.find runId with
  | none =>
    show (poller.table.find runId).map _ = none
    rw [hfind]
    rfl
  | some watched =>
    have hrow : poller.rowEvents runId = some watched.record.events := by
      rw [rowEvents, hfind]
      rfl
    simp only
    split
    · rename_i stored hattempt
      show rowEvents runId (storeRecord runId stored poller) = _
      rw [rowEvents_storeRecord, hrow, Option.map_some, Option.map_some,
        hattempt]
    · rename_i stored ingested hattempt
      rw [rowEvents_heed, rowEvents_enforceBudget]
      show rowEvents runId (storeRecord runId stored poller) = _
      rw [rowEvents_storeRecord, hrow, Option.map_some, Option.map_some,
        hattempt]

/-- What a poll makes of the events of its run: nothing, when its ingestion
stores nothing, and the batch added to them otherwise. -/
theorem rowEvents_pollOne {poll : RunPollResult Candidate}
    (hpoll : answers.poll runId = .ok poll) (hne : poll.events ≠ []) :
    (StoresNothing validator runId poll.events (answers.ingestFailure runId) →
      (pollOne validator answers runId poller).rowEvents runId
        = poller.rowEvents runId) ∧
    (¬ StoresNothing validator runId poll.events
        (answers.ingestFailure runId) →
      (pollOne validator answers runId poller).rowEvents runId
        = (poller.rowEvents runId).map fun events => createMany events
            ((validator.acceptAll runId poll.events).2.map toRow)) := by
  have hpolled : (pollOne validator answers runId poller).rowEvents runId
      = (poller.table.find runId).map fun watched =>
          (ingestAttempt validator runId watched.record poll.events
            (answers.ingestFailure runId)).1.events := by
    unfold pollOne
    rw [hpoll]
    have hempty : poll.events.isEmpty = false := by simpa using hne
    simp only [hempty, Bool.false_eq_true, if_false]
    exact rowEvents_ingestPolled
  refine ⟨fun hnothing => ?_, fun hstores => ?_⟩
  · rw [hpolled, rowEvents]
    refine congrArg (fun view => Option.map view (poller.table.find runId)) ?_
    funext watched
    rw [ingestAttempt_of_storesNothing hnothing]
  · rw [hpolled, rowEvents, Option.map_map]
    refine congrArg (fun view => Option.map view (poller.table.find runId)) ?_
    funext watched
    exact events_ingestAttempt hne hstores watched.record

theorem rowEvents_pollOne_nil {poll : RunPollResult Candidate}
    (hpoll : answers.poll runId = .ok poll) (hnil : poll.events = []) :
    (pollOne validator answers runId poller).rowEvents runId
      = poller.rowEvents runId := by
  unfold pollOne
  rw [hpoll]
  have hempty : poll.events.isEmpty = true := by rw [hnil]; rfl
  simp only [hempty, if_true]
  rw [rowEvents_heed]
  rfl

/-- Polling other runs leaves the events of a run. -/
theorem rowEvents_foldl_pollOne_other {ids : List ℕ} (h : runId ∉ ids) :
    (ids.foldl (fun poller other => pollOne validator answers other poller)
      poller).rowEvents runId = poller.rowEvents runId := by
  induction ids generalizing poller with
  | nil => rfl
  | cons other ids ih =>
    obtain ⟨hother, hids⟩ := not_or.mp (mt List.mem_cons.mpr h)
    rw [List.foldl_cons, ih hids,
      rowEvents_of_find (find_pollOne_other (Ne.symm hother))]

/-- Polling a run among others makes of its events what one poll makes of
them. -/
theorem rowEvents_foldl_pollOne {g : List RunEventRow → List RunEventRow}
    (hself : ∀ poller : Poller,
      (pollOne validator answers runId poller).rowEvents runId
        = (poller.rowEvents runId).map g)
    (hidem : ∀ events, g (g events) = g events) {ids : List ℕ}
    (h : runId ∈ ids) :
    (ids.foldl (fun poller other => pollOne validator answers other poller)
      poller).rowEvents runId = (poller.rowEvents runId).map g := by
  induction ids generalizing poller with
  | nil => cases h
  | cons other ids ih =>
    rw [List.foldl_cons]
    by_cases hother : other = runId
    · rw [hother]
      by_cases hids : runId ∈ ids
      · rw [ih hids, hself, Option.map_map, show g ∘ g = g from funext hidem]
      · rw [rowEvents_foldl_pollOne_other hids, hself]
    · rw [ih ((List.mem_cons.mp h).resolve_left (Ne.symm hother)),
        rowEvents_of_find (find_pollOne_other hother)]

/-- Of the parts of a tick only the polls store events. -/
theorem rowEvents_tick :
    (tick validator answers poller).rowEvents runId
      = ((step validator poller (.deadlines answers)).pollBatch.foldl
          (fun poller other => pollOne validator answers other poller)
          (step validator poller (.deadlines answers))).rowEvents runId :=
  rowEvents_reconcileUntracked

theorem rowEvents_deadlines :
    (step validator poller (.deadlines answers)).rowEvents runId
      = poller.rowEvents runId :=
  rowEvents_enforceDeadlines

end Parts

end Poller

/-! ## A session -/

/-- The runner's side of a run and the poller beside it, with a record of what
the runner ever queued. -/
structure Session where
  run : LocalRun
  poller : Poller
  queued : List RunnerEvent
  queued_of_pending : ∀ event ∈ run.pending, event ∈ queued

/-- What happens next: the runner observes its process, or the poller ticks and drains
what the runner has pending. -/
inductive SessionStep where
  | observe (input : RunnerInput)
  /-- A tick of the poller. Of this run it asks the runner. -/
  | tick (answers : PollAnswers RunnerEvent)

namespace Session

variable (env : MapperEnv)
  (fits : RunnerEvent → Except (List ValidationFailure) Unit)

/-- The answers of a tick, with the runner's for the run. -/
def answersOf (session : Session) (answers : PollAnswers RunnerEvent) :
    PollAnswers RunnerEvent :=
  { answers with
    poll := fun runId =>
      if runId = session.run.runId then .ok session.run.pollResult
      else answers.poll runId }

/-- The tick asks the runner about the run. -/
def Polls (session : Session) (answers : PollAnswers RunnerEvent) : Prop :=
  session.run.runId ∈ (Poller.step (runnerValidator fits) session.poller
    (.deadlines (session.answersOf answers))).pollBatch

instance (session : Session) (answers : PollAnswers RunnerEvent) :
    Decidable (session.Polls fits answers) :=
  inferInstanceAs (Decidable (_ ∈ _))

/-- What an input queues. -/
def newlyQueued (session : Session) (input : RunnerInput) :
    List RunnerEvent :=
  (session.run.observe env input).pending.drop session.run.pending.length

theorem pending_eq (session : Session) (input : RunnerInput) :
    (session.run.observe env input).pending
      = session.run.pending ++ session.newlyQueued env input := by
  obtain ⟨queued, hqueued⟩ := @LocalRun.pending_observe env session.run input
  rw [newlyQueued, hqueued, List.drop_left]

/-- A step. A poll that reaches the run takes what is pending, whether or not it is
ingested. -/
def step (session : Session) : SessionStep → Session
  | .observe input =>
    { run := session.run.observe env input
      poller := session.poller
      queued := session.queued ++ session.newlyQueued env input
      queued_of_pending := by
        intro event hevent
        rw [session.pending_eq env input] at hevent
        obtain hevent | hevent := List.mem_append.mp hevent
        · exact List.mem_append_left _ (session.queued_of_pending event hevent)
        · exact List.mem_append_right _ hevent }
  | .tick answers =>
    { run :=
        if session.Polls fits answers then session.run.drained
        else session.run
      poller :=
        Poller.tick (runnerValidator fits) (session.answersOf answers)
          session.poller
      queued := session.queued
      queued_of_pending := by
        intro event hevent
        split at hevent
        · cases hevent
        · exact session.queued_of_pending event hevent }

/-- The event is stored for the run. -/
def IsStored (session : Session) (event : RunnerEvent) : Prop :=
  ∃ events, session.poller.rowEvents session.run.runId = some events ∧
    isStored events (toRow event.toPayload) = true

instance (session : Session) (event : RunnerEvent) :
    Decidable (session.IsStored event) :=
  decidable_of_iff
    ((session.poller.rowEvents session.run.runId).any (fun events =>
      isStored events (toRow event.toPayload)) = true)
    (by
      unfold IsStored
      cases session.poller.rowEvents session.run.runId <;> simp)

/-- **No event is lost**: what was queued is queued or stored. -/
def NoneLost (session : Session) : Prop :=
  ∀ event ∈ session.queued,
    event ∈ session.run.pending ∨ session.IsStored event

instance (session : Session) : Decidable session.NoneLost :=
  inferInstanceAs (Decidable (∀ event ∈ session.queued,
    event ∈ session.run.pending ∨ session.IsStored event))

/-- The ingestion of what is queued stores nothing: the run has no row, the
lookup or the insert throws, or an event among it is refused. -/
def DrainsToNothing (session : Session) (answers : PollAnswers RunnerEvent) :
    Prop :=
  session.poller.rowEvents session.run.runId = none ∨
    StoresNothing (runnerValidator fits) session.run.runId session.run.pending
      (answers.ingestFailure session.run.runId)

/-- The step loses no event: if it drains the queue into nothing, then nothing
that is not stored already. -/
def Loses (session : Session) : SessionStep → Prop
  | .observe _ => False
  | .tick answers =>
    session.Polls fits answers ∧ session.DrainsToNothing fits answers ∧
      ∃ event ∈ session.run.pending, ¬ session.IsStored event

section Steps

variable {env fits} {session : Session} {answers : PollAnswers RunnerEvent}
  {event : RunnerEvent}

/-! ### What a tick stores -/

theorem rowEvents_runId_tick :
    (step env fits session (.tick answers)).poller.rowEvents
        (step env fits session (.tick answers)).run.runId
      = (Poller.tick (runnerValidator fits) (session.answersOf answers)
          session.poller).rowEvents session.run.runId := by
  show Poller.rowEvents (if _ then session.run.drained else session.run).runId _
    = _
  split <;> rfl

theorem answersOf_poll :
    (session.answersOf answers).poll session.run.runId
      = .ok session.run.pollResult :=
  if_pos rfl

/-- A tick that does not poll the run leaves its events. -/
theorem rowEvents_tick_of_unpolled (h : ¬ session.Polls fits answers) :
    (step env fits session (.tick answers)).poller.rowEvents
        (step env fits session (.tick answers)).run.runId
      = session.poller.rowEvents session.run.runId := by
  rw [rowEvents_runId_tick, Poller.rowEvents_tick,
    Poller.rowEvents_foldl_pollOne_other h, Poller.rowEvents_deadlines]

/-- So does a tick whose ingestion stores nothing. -/
theorem rowEvents_tick_of_nothing
    (h : session.run.pending = [] ∨
      StoresNothing (runnerValidator fits) session.run.runId
        session.run.pending (answers.ingestFailure session.run.runId)) :
    (step env fits session (.tick answers)).poller.rowEvents
        (step env fits session (.tick answers)).run.runId
      = session.poller.rowEvents session.run.runId := by
  by_cases hpolls : session.Polls fits answers
  · have hself : ∀ poller : Poller,
        (Poller.pollOne (runnerValidator fits) (session.answersOf answers)
          session.run.runId poller).rowEvents session.run.runId
          = (poller.rowEvents session.run.runId).map id := by
      intro poller
      rw [Option.map_id]
      by_cases hnil : session.run.pending = []
      · exact Poller.rowEvents_pollOne_nil answersOf_poll hnil
      · exact (Poller.rowEvents_pollOne answersOf_poll hnil).1
          (h.resolve_left hnil)
    rw [rowEvents_runId_tick, Poller.rowEvents_tick,
      Poller.rowEvents_foldl_pollOne hself (fun _ => rfl) hpolls,
      Option.map_id, Poller.rowEvents_deadlines]
    rfl
  · exact rowEvents_tick_of_unpolled hpolls

/-- A tick that polls the run and does not drain it to nothing stores what was
queued. -/
theorem rowEvents_tick_of_stored (hpolls : session.Polls fits answers)
    (hne : session.run.pending ≠ [])
    (hstores : ¬ StoresNothing (runnerValidator fits) session.run.runId
      session.run.pending (answers.ingestFailure session.run.runId)) :
    (step env fits session (.tick answers)).poller.rowEvents
        (step env fits session (.tick answers)).run.runId
      = (session.poller.rowEvents session.run.runId).map fun events =>
          createMany events
            ((session.run.pending.map RunnerEvent.toPayload).map toRow) := by
  have haccepted : ((runnerValidator fits).acceptAll session.run.runId
      session.run.pending).2 = session.run.pending.map RunnerEvent.toPayload := by
    refine runnerValidator_acceptAll ?_
    by_contra hrejected
    refine hstores ?_
    unfold StoresNothing
    split
    · trivial
    · trivial
    · exact hrejected
  rw [rowEvents_runId_tick, Poller.rowEvents_tick,
    Poller.rowEvents_foldl_pollOne
      (fun poller => (Poller.rowEvents_pollOne answersOf_poll hne).2 hstores)
      (fun events => createMany_createMany events _) hpolls,
    Poller.rowEvents_deadlines]
  rw [show (session.run.pollResult).events = session.run.pending from rfl,
    haccepted]

theorem isStored_tick_iff
    (h : (step env fits session (.tick answers)).poller.rowEvents
        (step env fits session (.tick answers)).run.runId
      = session.poller.rowEvents session.run.runId) :
    (step env fits session (.tick answers)).IsStored event ↔
      session.IsStored event := by
  unfold IsStored
  rw [h]

/-- A tick that drains the queue to nothing stores nothing. -/
theorem isStored_tick_of_drains (h : session.DrainsToNothing fits answers) :
    (step env fits session (.tick answers)).IsStored event ↔
      session.IsStored event := by
  by_cases hnothing : session.run.pending = [] ∨
      StoresNothing (runnerValidator fits) session.run.runId
        session.run.pending (answers.ingestFailure session.run.runId)
  · exact isStored_tick_iff (rowEvents_tick_of_nothing hnothing)
  · by_cases hpolls : session.Polls fits answers
    · obtain ⟨hne, hstores⟩ := not_or.mp hnothing
      -- there is no row, before as after
      refine isStored_tick_iff ?_
      rw [rowEvents_tick_of_stored hpolls hne hstores,
        h.resolve_right hstores]
      rfl
    · exact isStored_tick_iff (rowEvents_tick_of_unpolled hpolls)

/-- The insert keeps what was stored, and stores what was queued. -/
theorem isStored_tick_of_stored (hpolls : session.Polls fits answers)
    (hne : session.run.pending ≠ [])
    (hdrains : ¬ session.DrainsToNothing fits answers)
    (hevent : event ∈ session.run.pending ∨ session.IsStored event) :
    (step env fits session (.tick answers)).IsStored event := by
  obtain ⟨hrow, hstores⟩ := not_or.mp hdrains
  obtain ⟨events, hevents⟩ := Option.ne_none_iff_exists'.mp hrow
  refine ⟨createMany events
    ((session.run.pending.map RunnerEvent.toPayload).map toRow), ?_, ?_⟩
  · rw [rowEvents_tick_of_stored hpolls hne hstores, hevents]
    rfl
  · obtain hpending | ⟨stored, hstored, hmem⟩ := hevent
    · exact isStored_createMany rfl
        (List.mem_map_of_mem (List.mem_map_of_mem hpending))
    · rw [hevents] at hstored
      cases hstored
      exact isStored_createMany_of_isStored hmem

/-! ### One step -/

theorem noneLost_observe (h : session.NoneLost) (input : RunnerInput) :
    (step env fits session (.observe input)).NoneLost := by
  intro event hevent
  have hrunId : (session.run.observe env input).runId = session.run.runId :=
    LocalRun.runId_observe
  obtain hevent | hevent := List.mem_append.mp hevent
  · obtain hpending | ⟨events, hevents, hstored⟩ := h event hevent
    · refine Or.inl ?_
      show event ∈ (session.run.observe env input).pending
      rw [pending_eq]
      exact List.mem_append_left _ hpending
    · refine Or.inr ⟨events, ?_, hstored⟩
      show session.poller.rowEvents (session.run.observe env input).runId = _
      rw [hrunId]
      exact hevents
  · refine Or.inl ?_
    show event ∈ (session.run.observe env input).pending
    rw [pending_eq]
    exact List.mem_append_right _ hevent

/-- A tick that asks the runner leaves nothing queued. -/
theorem noneLost_tick_of_polls (hpolls : session.Polls fits answers) :
    (step env fits session (.tick answers)).NoneLost ↔
      ∀ event ∈ session.queued,
        (step env fits session (.tick answers)).IsStored event := by
  have hpending : (step env fits session (.tick answers)).run.pending = [] := by
    show (if _ then session.run.drained else session.run).pending = []
    rw [if_pos hpolls]
    rfl
  refine forall₂_congr fun event _ => ?_
  rw [hpending]
  exact or_iff_right List.not_mem_nil

/-- **A step keeps every event exactly when it does not lose one.** -/
theorem noneLost_step (h : session.NoneLost) (i : SessionStep) :
    (step env fits session i).NoneLost ↔ ¬ session.Loses fits i := by
  cases i with
  | observe input => exact iff_of_true (noneLost_observe h input) id
  | tick answers =>
    by_cases hpolls : session.Polls fits answers
    · rw [noneLost_tick_of_polls hpolls]
      by_cases hdrains : session.DrainsToNothing fits answers
      · -- nothing is stored, so what was queued has to be already
        simp only [isStored_tick_of_drains hdrains]
        constructor
        · rintro hall ⟨-, -, event, hevent, hnot⟩
          exact hnot (hall event (session.queued_of_pending event hevent))
        · intro hkeeps event hevent
          obtain hpending | hstored := h event hevent
          · by_contra hnot
            exact hkeeps ⟨hpolls, hdrains, event, hpending, hnot⟩
          · exact hstored
      · refine iff_of_true (fun event hevent => ?_) fun hloses =>
          hdrains hloses.2.1
        by_cases hnil : session.run.pending = []
        · rw [isStored_tick_iff (rowEvents_tick_of_nothing (Or.inl hnil))]
          have hstored := h event hevent
          rw [hnil] at hstored
          exact hstored.resolve_left List.not_mem_nil
        · exact isStored_tick_of_stored hpolls hnil hdrains (h event hevent)
    · refine iff_of_true (fun event hevent => ?_) fun hloses => hpolls hloses.1
      rw [isStored_tick_iff (rowEvents_tick_of_unpolled hpolls)]
      show event ∈ (if _ then session.run.drained else session.run).pending ∨ _
      rw [if_neg hpolls]
      exact h event hevent

/-- **When no event is lost**: along every session, each event the runner
queued is queued or stored after every step, exactly when no tick drains an
event that is not stored yet into an ingestion that stores nothing. -/
theorem none_lost_iff (h : session.NoneLost) (steps : List SessionStep) :
    Machine.Always (step env fits)
        (fun s i => (step env fits s i).NoneLost) session steps ↔
      Machine.Always (step env fits) (fun s i => ¬ s.Loses fits i) session
        steps :=
  Machine.always_iff_of_invariant NoneLost
    (fun _ i hs => noneLost_step hs i) h steps

end Steps

/-! ## An ending that is lost -/

/-- A submitted run, tracked and with its first event queued. -/
def trackedSession : Session where
  run := submittedRun
  poller :=
    { table :=
        { rows :=
            [{ record := ⟨freshRun, []⟩
               workOrderIdentity := "wo_app_7_a3f91c2_a1"
               repository := "acme/app"
               issueNumber := 7 }]
          next := 2
          nodup := by simp
          bounded := by
            intro watched hwatched
            rw [List.mem_singleton.mp hwatched]
            decide }
      tracked := [(1, submittedRun.handle)]
      deadlineEnforced := []
      budgetEnforced := [] }
  queued := submittedRun.pending
  queued_of_pending := fun _ hevent => hevent

/-- A tick whose ingestion throws where it is told to. -/
def tickThrowing (failure : Option IngestFailure) : SessionStep :=
  .tick
    { now := 1785660015000
      defaultTimeoutMinutes := none
      graceMinutes := 2
      poll := fun _ => .error "no such run"
      cancel := fun _ => .ok ()
      cancelForBudget := fun _ => .ok ()
      ingestFailure := fun _ => failure
      quotaRecorded := fun _ => 0
      order := id }

/-- The run ends, and the tick after it cannot read the database. -/
def endingLost : List SessionStep :=
  [tickThrowing none,
    .observe (.exit (.exited 0) ""
      ⟨1785660020000, "r1", "claude-code-local"⟩),
    tickThrowing (some .lookup), tickThrowing none]

/-- **A terminal event is lost**: it is neither queued nor stored, the run is
not polled any more, and it is taken for stalled. -/
theorem ending_lost :
    let final := Machine.run (step plainEnv anyFits) trackedSession endingLost
    ¬ final.NoneLost ∧ final.queued.map (·.type) = [.started, .completed] ∧
      final.poller.isTracked 1 = false ∧
      (final.poller.table.find 1).map (·.record.run.status)
        = some .stalled := by
  decide

theorem none_lost_iff_ending :
    Machine.Always (step plainEnv anyFits)
        (fun s i => (step plainEnv anyFits s i).NoneLost) trackedSession
        endingLost ↔
      Machine.Always (step plainEnv anyFits)
        (fun s i => ¬ s.Loses anyFits i) trackedSession endingLost :=
  none_lost_iff (fun _ hevent => Or.inl hevent) endingLost

end Session

end Opifex
