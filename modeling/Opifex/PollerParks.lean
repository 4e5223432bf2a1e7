import Opifex.Lib.Machine
import Opifex.RunPoller
import Opifex.Watchdog

/-!
# A parked run and the poller

A parked run is quiet on purpose. The poller leaves it alone as long as it
holds a handle for it that its runner still knows; but a live run it holds no
handle for it marks as lost, and its idea of live includes the parked ones.
So the first tick of a restarted process turns a park into a stall, the
watchdog no longer sees the run, and nothing wakes it.

A tick is taken apart into the steps it makes. Each of them either leaves a
park exactly as it was or ends it (`parkOf_step`), and none brings one back.
-/

namespace Opifex

namespace PollAnswers

variable {Candidate : Type*}

/-- The runner answers that it does not know the run, and has nothing left of
it. -/
def disowns (answers : PollAnswers Candidate) (runId : ℕ) : Bool :=
  match answers.poll runId with
  | .ok poll => poll.events.isEmpty && poll.status == .unknown
  | .error _ => false

/-- No event of the run is ingested: the runner reports none, or the ingestion
throws before it stores one. -/
def Unheard (validator : RunEventValidator Candidate)
    (answers : PollAnswers Candidate) (runId : ℕ) : Prop :=
  ∀ poll, answers.poll runId = .ok poll → poll.events = [] ∨
    StoresNothing validator runId poll.events (answers.ingestFailure runId)

end PollAnswers

namespace Poller

/-- What the watchdog would read of a run, if it is parked. -/
def parkOf (runId : ℕ) (poller : Poller) : Option BlockedRunState :=
  ((poller.table.find runId).filter WatchedRun.isBlocked).map
    WatchedRun.blockedState

section Writes

variable {poller : Poller} {runId other : ℕ} {reason : String}
  {state : BlockedRunState} {watched : WatchedRun}

theorem parkOf_eq_some :
    poller.parkOf runId = some state ↔
      ∃ watched, poller.table.find runId = some watched ∧
        watched.isBlocked = true ∧ watched.blockedState = state := by
  rw [parkOf, Option.map_eq_some_iff]
  simp only [Option.filter_eq_some_iff, and_assoc]

/-- A write that changes neither the status nor what the watchdog reads of a
run leaves its park. -/
theorem parkOf_modify {p : WatchedRun → Bool} {f : WatchedRun → WatchedRun}
    (hkey : ∀ watched, Keyed.key (f watched) = Keyed.key watched)
    (hf : ∀ watched, poller.table.find runId = some watched → p watched = true →
      (f watched).isBlocked = watched.isBlocked ∧
        (f watched).blockedState = watched.blockedState) :
    parkOf runId { poller with table := poller.table.modify p f hkey }
      = poller.parkOf runId := by
  show (((poller.table.modify p f hkey).find runId).filter _).map _ = _
  rw [Table.find_modify, parkOf]
  cases hfind : poller.table.find runId with
  | none => rfl
  | some watched =>
    by_cases hp : p watched = true
    · obtain ⟨hblocked, hstate⟩ := hf watched hfind hp
      rw [Option.map_some, if_pos hp, Option.filter_some, Option.filter_some,
        hblocked]
      split
      · rw [Option.map_some, Option.map_some, hstate]
      · rfl
    · rw [Option.map_some, if_neg hp]

theorem parkOf_record :
    (record other reason poller).parkOf runId = poller.parkOf runId :=
  parkOf_modify (WatchedRun.key_attention reason) fun _ _ _ => ⟨rfl, rfl⟩

/-- Storing a record as it was leaves every park. -/
theorem parkOf_storeRecord_self
    (hfind : poller.table.find runId = some watched) :
    (storeRecord runId watched.record poller).parkOf runId
      = poller.parkOf runId := by
  refine parkOf_modify (WatchedRun.key_ingested watched.record)
    fun row hrow _ => ?_
  rw [hfind] at hrow
  cases hrow
  exact ⟨rfl, rfl⟩

/-- A park is read from the row of its run. -/
theorem parkOf_of_find {after : Poller}
    (h : after.table.find runId = poller.table.find runId) :
    after.parkOf runId = poller.parkOf runId := by
  rw [parkOf, parkOf, h]

theorem parkOf_markLost_other (h : other ≠ runId) :
    (markLost other poller).parkOf runId = poller.parkOf runId :=
  parkOf_of_find (find_markLost_other h)

/-- A run that is marked as lost is not parked any more. -/
theorem parkOf_markLost_self : (markLost runId poller).parkOf runId = none := by
  show (((poller.table.modify
    (fun watched => watched.record.run.id == runId && watched.isLive)
    WatchedRun.lose WatchedRun.key_lose).find runId).filter
      WatchedRun.isBlocked).map WatchedRun.blockedState = none
  rw [Table.find_modify, Option.map_eq_none_iff, Option.filter_eq_none_iff]
  intro lost hlost
  obtain ⟨watched, hfind, rfl⟩ := Option.map_eq_some_iff.mp hlost
  have hkey : (watched.record.run.id == runId) = true :=
    beq_iff_eq.mpr (Table.find_eq_some.mp hfind).2
  rw [hkey, Bool.true_and]
  by_cases hlive : watched.isLive = true
  · rw [if_pos hlive]
    exact Bool.false_ne_true
  · rw [if_neg hlive]
    -- only a live run is blocked
    intro hblocked
    refine hlive ?_
    rw [WatchedRun.isLive, beq_iff_eq.mp hblocked]
    rfl

end Writes

/-! ## The parts of a tick -/

section Parts

variable {Candidate : Type*} {validator : RunEventValidator Candidate}
  {answers : PollAnswers Candidate} {poller : Poller} {runId other : ℕ}
  {state : BlockedRunState}

/-- A deadline writes a reason, which no park is made of. -/
theorem parkOf_enforceDeadlines :
    (enforceDeadlines answers poller).parkOf runId = poller.parkOf runId :=
  view_enforceDeadlines (fun _ _ _ => parkOf_record)
    fun _ _ _ => rfl

theorem parkOf_heed_self {status : RunnerRunStatus} :
    (heed runId status poller).parkOf runId
      = if status == .unknown then none else poller.parkOf runId := by
  cases status with
  | unknown => exact parkOf_markLost_self
  | _ => rfl

/-- Polling one run leaves the park of another. -/
theorem parkOf_pollOne_other (h : other ≠ runId) :
    (pollOne validator answers other poller).parkOf runId
      = poller.parkOf runId :=
  parkOf_of_find (find_pollOne_other h)

/-- A poll that brought no event to the tables ends the park exactly when the
runner does not know the run. -/
theorem parkOf_pollOne_unheard (h : answers.Unheard validator runId) :
    (pollOne validator answers runId poller).parkOf runId
      = if answers.disowns runId then none else poller.parkOf runId := by
  unfold pollOne PollAnswers.disowns
  cases hpoll : answers.poll runId with
  | error message => rfl
  | ok poll =>
    by_cases hempty : poll.events.isEmpty = true
    · simp only [hempty, if_true, Bool.true_and]
      exact parkOf_heed_self
    · -- the ingestion throws, so the status is not acted on
      have hnothing := (h poll hpoll).resolve_left
        fun hnil => hempty (List.isEmpty_iff.mpr hnil)
      simp only [Bool.eq_false_iff.mpr hempty, Bool.false_and,
        Bool.false_eq_true, if_false]
      unfold ingestPolled
      split
      · rfl
      · rename_i watched hfind
        rw [ingestAttempt_of_storesNothing hnothing]
        show parkOf runId (storeRecord _ _ _) = _
        rw [parkOf_storeRecord_self hfind]
        rfl

theorem parkOf_reconcileOne {watched : WatchedRun} :
    (poller.reconcileOne watched).parkOf runId
      = if watched.record.run.id = runId ∧ poller.isUnreported watched = true
        then none else poller.parkOf runId := by
  unfold reconcileOne
  by_cases hunreported : poller.isUnreported watched = true
  · rw [if_pos hunreported]
    by_cases hid : watched.record.run.id = runId
    · rw [if_pos ⟨hid, hunreported⟩, hid]
      exact parkOf_markLost_self
    · rw [if_neg (fun h => hid h.1)]
      exact parkOf_markLost_other hid
  · rw [if_neg hunreported, if_neg (fun h => hunreported h.2)]

theorem isUnreported_reconcileOne {watched reported : WatchedRun} :
    (poller.reconcileOne reported).isUnreported watched
      = poller.isUnreported watched := by
  unfold reconcileOne
  split <;> rfl

/-- The runs the pass reports lose their park. -/
theorem parkOf_foldl_reconcileOne {rows : List WatchedRun} :
    (rows.foldl reconcileOne poller).parkOf runId
      = if ∃ watched ∈ rows, watched.record.run.id = runId ∧
          poller.isUnreported watched = true
        then none else poller.parkOf runId := by
  induction rows generalizing poller with
  | nil => simp
  | cons watched rows ih =>
    rw [List.foldl_cons, ih]
    simp only [isUnreported_reconcileOne, parkOf_reconcileOne,
      List.exists_mem_cons_iff]
    by_cases hrest : ∃ watched ∈ rows, watched.record.run.id = runId ∧
        poller.isUnreported watched = true
    · rw [if_pos hrest, if_pos (Or.inr hrest)]
    · rw [if_neg hrest]
      by_cases hfirst : watched.record.run.id = runId ∧
          poller.isUnreported watched = true
      · rw [if_pos hfirst, if_pos (Or.inl hfirst)]
      · rw [if_neg hfirst, if_neg (not_or.mpr ⟨hfirst, hrest⟩)]

/-- The pass leaves a park it holds a handle for, or does not get to. -/
theorem parkOf_reconcileUntracked (h : poller.parkOf runId = some state) :
    (reconcileUntracked answers poller).parkOf runId = some state ↔
      poller.isTracked runId = true ∨
        ∀ watched ∈ poller.liveBatch answers,
          watched.record.run.id ≠ runId := by
  rw [reconcileUntracked, parkOf_foldl_reconcileOne, h]
  obtain ⟨row, hfind, hblocked, -⟩ := parkOf_eq_some.mp h
  obtain ⟨hrow, hkey⟩ := Table.find_eq_some.mp hfind
  -- the one row of the batch that could be the run is the parked one
  have hunreported : ∀ watched ∈ poller.liveBatch answers,
      watched.record.run.id = runId →
        (poller.isUnreported watched = true ↔
          ¬ poller.isTracked runId = true) := by
    intro watched hwatched hid
    have hmem : watched ∈ poller.table.rows :=
      List.mem_of_mem_filter
        (Preference.mem_rank.mp (List.mem_of_mem_take hwatched))
    have hsame : watched = row :=
      Table.eq_of_key hmem hrow (Eq.trans hid hkey.symm)
    have hstatus : row.record.run.status = .blocked := beq_iff_eq.mp hblocked
    rw [isUnreported, hid, hsame, RunRow.saysLost, hstatus]
    simp
  by_cases htracked : poller.isTracked runId = true
  · rw [if_neg]
    · exact iff_of_true rfl (Or.inl htracked)
    · rintro ⟨watched, hwatched, hid, h⟩
      exact (hunreported watched hwatched hid).mp h htracked
  · by_cases hbatch : ∃ watched ∈ poller.liveBatch answers,
        watched.record.run.id = runId
    · obtain ⟨watched, hwatched, hid⟩ := hbatch
      rw [if_pos ⟨watched, hwatched, hid,
        (hunreported watched hwatched hid).mpr htracked⟩]
      refine iff_of_false (fun h => by cases h) ?_
      rintro (h | h)
      · exact htracked h
      · exact h watched hwatched hid
    · rw [if_neg]
      · exact iff_of_true rfl
          (Or.inr fun watched hwatched hid => hbatch ⟨watched, hwatched, hid⟩)
      · rintro ⟨watched, hwatched, hid, -⟩
        exact hbatch ⟨watched, hwatched, hid⟩

end Parts

/-! ## One step -/

section Steps

variable {Candidate : Type*} (validator : RunEventValidator Candidate)

/-- The step does not move a parked run that nothing was heard of: a poll,
unless its runner disowns it; the pass over the live runs, if the process
holds a handle for it or the pass does not get to it. -/
def Spares (runId : ℕ) (poller : Poller) : Step Candidate → Prop
  | .deadlines _ => True
  | .poll answers other => other = runId → answers.disowns runId = false
  | .reconcile answers =>
    poller.isTracked runId = true ∨
      ∀ watched ∈ poller.liveBatch answers, watched.record.run.id ≠ runId

variable {validator} {poller : Poller} {runId : ℕ} {state : BlockedRunState}

/-- No step brings a park back. -/
theorem parkOf_of_step {i : Step Candidate}
    (hi : i.answers.Unheard validator runId)
    (h : (step validator poller i).parkOf runId = some state) :
    poller.parkOf runId = some state := by
  cases i with
  | deadlines answers =>
    rw [step, parkOf_enforceDeadlines] at h
    exact h
  | poll answers other =>
    by_cases hother : other = runId
    · have hi : answers.Unheard validator runId := hi
      rw [step, hother, parkOf_pollOne_unheard hi] at h
      split at h
      · cases h
      · exact h
    · exact (parkOf_pollOne_other hother).symm.trans h
  | reconcile answers =>
    rw [step, reconcileUntracked, parkOf_foldl_reconcileOne] at h
    split at h
    · cases h
    · exact h

/-- A step keeps a park exactly when it spares it. -/
theorem parkOf_step {i : Step Candidate}
    (hi : i.answers.Unheard validator runId)
    (h : poller.parkOf runId = some state) :
    (step validator poller i).parkOf runId = some state ↔
      Spares runId poller i := by
  cases i with
  | deadlines answers =>
    rw [step, parkOf_enforceDeadlines]
    exact iff_of_true h trivial
  | poll answers other =>
    by_cases hother : other = runId
    · have hi : answers.Unheard validator runId := hi
      rw [step, hother, parkOf_pollOne_unheard hi, h]
      cases hdisowns : answers.disowns runId with
      | true =>
        refine iff_of_false (fun h => by cases h) fun hspares => ?_
        rw [hspares rfl] at hdisowns
        cases hdisowns
      | false => exact iff_of_true rfl fun _ => hdisowns
    · exact iff_of_true ((parkOf_pollOne_other hother).trans h)
        fun heq => absurd heq hother
  | reconcile answers => exact parkOf_reconcileUntracked h

end Steps

/-! ## Every sequence of ticks -/

/-- The run is still parked as it was, and a sweep of the watchdog decides
about it what it would have decided before. -/
structure Survives (runId : ℕ) (state : BlockedRunState) (poller : Poller) :
    Prop where
  parked : poller.parkOf runId = some state
  swept : ∀ (now : Instant) (random : ℕ → Draw),
    actionsAbout runId (sweepBlocked now random poller.table).actions
      = state.actionsForParking (state.decideParking now (random runId))

section Ticks

variable {Candidate : Type*} {validator : RunEventValidator Candidate}
  {poller : Poller} {runId : ℕ} {state : BlockedRunState}

/-- What is parked, the watchdog sees. -/
theorem survives_iff :
    Survives runId state poller ↔ poller.parkOf runId = some state := by
  refine ⟨Survives.parked, fun h => ⟨h, fun now random => ?_⟩⟩
  obtain ⟨watched, hfind, hblocked, rfl⟩ := parkOf_eq_some.mp h
  rw [(sweep_row hfind).2, WatchedRun.sweptActions, if_pos hblocked]
  rfl

/-- **When a park survives the poller**: over every sequence of ticks in which
nothing is heard of the run, it is parked afterwards as it was before, and the
watchdog wakes it when it is due, exactly if no poll finds it disowned and no
pass over the live runs finds it without a handle. -/
theorem park_survives_iff (hparked : poller.parkOf runId = some state)
    {ticks : List (PollAnswers Candidate)}
    (hunheard : ∀ answers ∈ ticks, answers.Unheard validator runId) :
    Survives runId state
        (Machine.run (fun poller answers => tick validator answers poller)
          poller ticks) ↔
      Machine.Always (fun poller answers => tick validator answers poller)
        (fun poller answers =>
          Machine.Always (step validator) (Spares runId) poller
            (tickSteps validator poller answers)) poller ticks := by
  have hsteps : ∀ answers ∈ ticks, ∀ poller : Poller,
      ∀ i ∈ tickSteps validator poller answers,
        i.answers.Unheard validator runId := by
    intro answers hanswers poller i hi
    rw [answers_of_mem_tickSteps hi]
    exact hunheard answers hanswers
  rw [survives_iff]
  refine Machine.run_iff_always
    (fun poller : Poller => poller.parkOf runId = some state) ?_ ?_ hparked
  · intro answers hanswers poller h
    rw [tick_eq_run] at h
    exact Machine.run_reflects_of_mem
      (fun poller : Poller => poller.parkOf runId = some state)
      (fun i hi _ => parkOf_of_step (hsteps answers hanswers poller i hi)) h
  · intro answers hanswers poller h
    show (tick validator answers poller).parkOf runId = some state ↔ _
    rw [tick_eq_run]
    exact Machine.run_iff_always
      (fun poller : Poller => poller.parkOf runId = some state)
      (fun i hi _ => parkOf_of_step (hsteps answers hanswers poller i hi))
      (fun i hi _ => parkOf_step (hsteps answers hanswers poller i hi)) h

end Ticks

/-! ## The first tick of a restarted process -/

/-- A block with a reset. -/
def resetBlock : RunEventPayload :=
  { eventOf "e1" .blocked 1000 with
    blocked := some ⟨.rateLimit, some 5000⟩ }

/-- The run it blocked, parked until the reset. -/
def parkedRun : WatchedRun :=
  WatchedRun.planned 5000
    { record := ((⟨freshRun, []⟩ : RunRecord).persist [resetBlock]).1
      workOrderIdentity := "wo_app_7_a3f91c2_a1"
      repository := "acme/app"
      issueNumber := 7 }

/-- A process that holds no handles. -/
def restarted : Poller where
  table :=
    { rows := [parkedRun]
      next := 2
      nodup := by simp
      bounded := by
        intro watched hwatched
        rw [List.mem_singleton.mp hwatched]
        decide }
  tracked := []
  deadlineEnforced := []
  budgetEnforced := []

/-- Nothing to report and nothing that fails. -/
def quiet : PollAnswers RunEventPayload where
  now := 2000
  defaultTimeoutMinutes := none
  graceMinutes := 2
  poll := fun _ => .ok { status := .running, events := [] }
  cancel := fun _ => .ok ()
  cancelForBudget := fun _ => .ok ()
  ingestFailure := fun _ => none
  quotaRecorded := fun _ => 0
  order := id

/-- **A restart ends the park**: the run is stalled, and the sweep after its
plan is due says nothing about it. -/
theorem restart_ends_park :
    restarted.parkOf 1 = some parkedRun.blockedState ∧
      ((tick passing quiet restarted).table.find 1).map
        (·.record.run.status) = some .stalled ∧
      actionsAbout 1 (sweepBlocked 6000 (fun _ => ⟨0, le_refl 0, zero_lt_one⟩)
        (tick passing quiet restarted).table).actions = [] := by
  decide

theorem park_survives_iff_quiet :
    Survives 1 parkedRun.blockedState
        (Machine.run (fun poller answers => tick passing answers poller)
          restarted [quiet]) ↔
      Machine.Always (fun poller answers => tick passing answers poller)
        (fun poller answers =>
          Machine.Always (step passing) (Spares 1) poller
            (tickSteps passing poller answers)) restarted [quiet] := by
  refine park_survives_iff ?_ ?_
  · decide
  · intro answers hanswers poll hpoll
    rw [List.mem_singleton.mp hanswers] at hpoll
    cases hpoll
    exact Or.inl rfl

end Poller

end Opifex
