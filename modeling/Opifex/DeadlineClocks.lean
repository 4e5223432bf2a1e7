import Opifex.PollerParks
import Opifex.SubmitHandles

/-!
# Two clocks for one ceiling

The runner arms a timer for each process it starts. The control plane, as a
backstop behind it, counts from the creation of the run's row, and a resume
reuses the row. So the two agree on the ceiling and not on when it began to run:
the time a run was parked, the time before its process started and the time after
it ended all count against it.

A sweep acts once the row is three seconds past the ceiling and the grace,
which is what is left of the tenth of a minute it rounds to
(`isOverdue_iff`). It is right exactly when the row was without a process for
less than it is past them (`cancels_overruns_iff`).
-/

namespace Opifex

/-! ## When a sweep acts -/

/-- The ceiling in force, in minutes; a ceiling that is not positive is
none. -/
def DeadlineInputs.limit (inputs : DeadlineInputs) : Option ℤ :=
  (inputs.timeoutMinutes <|> inputs.defaultTimeoutMinutes).filter fun minutes =>
    0 < minutes

/-- Whether the control plane gives the run up. -/
def DeadlineVerdict.isOverdue : DeadlineVerdict → Bool
  | .within _ _ => false
  | .overdue _ _ _ _ => true

/-- The ceiling and the grace, in milliseconds. -/
def enforcedAfterMs (limitMinutes graceMinutes : ℤ) : ℤ :=
  (limitMinutes + max 0 graceMinutes) * 60000

/-- Tenths of a minute are compared with half of one to spare. -/
theorem elapsedTenths_le_iff (startedAt now : Instant) (minutes : ℤ) :
    elapsedTenths startedAt now ≤ minutes * 10 ↔
      now - startedAt < minutes * 60000 + 3000 := by
  unfold elapsedTenths
  rw [Rounding.round_le_iff]
  have hcast : ((now - startedAt : ℤ) : ℚ) < ((minutes * 60000 + 3000 : ℤ) : ℚ) ↔
      now - startedAt < minutes * 60000 + 3000 := Int.cast_lt
  rw [← hcast]
  push_cast
  constructor
  · intro h
    linarith
  · intro h
    linarith

/-- **When a run is overdue**: its row is three seconds past the ceiling in
force and the grace. -/
theorem isOverdue_iff {inputs : DeadlineInputs} {now : Instant} :
    (decideDeadline inputs now).isOverdue = true ↔
      ∃ limit, inputs.limit = some limit ∧
        inputs.startedAt + enforcedAfterMs limit inputs.graceMinutes + 3000
          ≤ now := by
  unfold decideDeadline DeadlineInputs.limit
  cases hlimit : inputs.timeoutMinutes <|> inputs.defaultTimeoutMinutes with
  | none =>
    refine iff_of_false Bool.false_ne_true ?_
    rintro ⟨limit, h, -⟩
    cases h
  | some limit =>
    simp only
    by_cases hpositive : limit ≤ 0
    · rw [if_pos hpositive, Option.filter_some,
        if_neg (by simpa using hpositive)]
      refine iff_of_false Bool.false_ne_true ?_
      rintro ⟨limit, h, -⟩
      cases h
    · have hlimited : (some limit).filter (fun minutes => decide (0 < minutes))
          = some limit := by
        rw [Option.filter_some, if_pos (decide_eq_true (not_le.mp hpositive))]
      rw [if_neg hpositive, hlimited]
      have hiff := elapsedTenths_le_iff inputs.startedAt now
        (limit + max 0 inputs.graceMinutes)
      split_ifs with hwithin
      · refine iff_of_false Bool.false_ne_true ?_
        rintro ⟨_, hsame, hlate⟩
        rw [← Option.some.inj hsame] at hlate
        have hearly := hiff.mp hwithin
        unfold enforcedAfterMs at hlate
        linarith
      · refine iff_of_true rfl ⟨limit, rfl, ?_⟩
        have hlate := not_lt.mp (mt hiff.mpr hwithin)
        unfold enforcedAfterMs
        linarith

/-! ## What a sweep cancels -/

namespace Poller

variable {Candidate : Type*} {answers : PollAnswers Candidate}
  {poller : Poller} {runId : ℕ} {watched : WatchedRun}

/-- The sweep looks at the run: its row is live, the process has its handle,
and it was not cancelled before. -/
def Looks (runId : ℕ) (poller : Poller) (watched : WatchedRun) : Prop :=
  poller.table.find runId = some watched ∧ watched.isLive = true ∧
    poller.isTracked runId = true ∧ runId ∉ poller.deadlineEnforced

/-- A run that is overdue is marked, and no other. -/
theorem deadlineEnforced_enforceDeadline :
    (enforceDeadline answers poller watched).deadlineEnforced
      = poller.deadlineEnforced ++
          if (decideDeadline (deadlineInputs answers watched)
            answers.now).isOverdue
          then [watched.record.run.id] else [] := by
  unfold enforceDeadline cancelForDeadline
  split
  · rename_i hwithin
    rw [hwithin]
    exact (List.append_nil _).symm
  · rename_i hoverdue
    rw [hoverdue]
    simp only
    split
    · split <;> rfl
    · rfl

theorem mem_deadlineEnforced_foldl {candidates : List WatchedRun} :
    runId ∈ (candidates.foldl (enforceDeadline answers)
        poller).deadlineEnforced ↔
      runId ∈ poller.deadlineEnforced ∨
        ∃ watched ∈ candidates, watched.record.run.id = runId ∧
          (decideDeadline (deadlineInputs answers watched)
            answers.now).isOverdue = true := by
  induction candidates generalizing poller with
  | nil => simp
  | cons watched candidates ih =>
    rw [List.foldl_cons, ih, deadlineEnforced_enforceDeadline, List.mem_append,
      or_assoc, List.exists_mem_cons_iff]
    refine or_congr_right (or_congr_left ?_)
    split_ifs with hoverdue
    · rw [List.mem_singleton, and_iff_left hoverdue, eq_comm]
    · exact iff_of_false List.not_mem_nil fun h => hoverdue h.2

/-- **What a sweep cancels**: the runs it looks at that are overdue. -/
theorem enforced_iff :
    (runId ∉ poller.deadlineEnforced ∧
        runId ∈ (enforceDeadlines answers poller).deadlineEnforced) ↔
      ∃ watched, poller.Looks runId watched ∧
        (decideDeadline (deadlineInputs answers watched)
          answers.now).isOverdue = true := by
  unfold enforceDeadlines
  rw [mem_deadlineEnforced_foldl]
  constructor
  · rintro ⟨hnot, hmem⟩
    obtain ⟨watched, hwatched, hid, hoverdue⟩ := hmem.resolve_left hnot
    obtain ⟨hrow, hcandidate⟩ := List.mem_filter.mp hwatched
    obtain ⟨hlive, -⟩ := Bool.and_eq_true_iff.mp hcandidate
    obtain ⟨hlive, htracked⟩ := Bool.and_eq_true_iff.mp hlive
    rw [hid] at htracked
    exact ⟨watched, ⟨Table.find_eq_some.mpr ⟨hrow, hid⟩, hlive, htracked,
      hnot⟩, hoverdue⟩
  · rintro ⟨watched, ⟨hfind, hlive, htracked, hnot⟩, hoverdue⟩
    obtain ⟨hrow, hid⟩ := Table.find_eq_some.mp hfind
    have hid : watched.record.run.id = runId := hid
    refine ⟨hnot, Or.inr ⟨watched, List.mem_filter.mpr ⟨hrow, ?_⟩, hid,
      hoverdue⟩⟩
    rw [hid, hlive, htracked]
    simpa using hnot

/-! ## The row keeps its start -/

/-- How long a sweep comes after the ceiling and the grace have passed since
an instant. -/
def excess (answers : PollAnswers Candidate) (createdAt : Instant)
    (limitMinutes : ℤ) : ℤ :=
  answers.now - createdAt - enforcedAfterMs limitMinutes answers.graceMinutes

/-- A row is overdue three seconds after them. -/
theorem isOverdue_deadlineInputs {createdAt : Instant}
    (hstart : watched.record.run.startedAt = createdAt) :
    (decideDeadline (deadlineInputs answers watched) answers.now).isOverdue
        = true ↔
      ∃ limit, (deadlineInputs answers watched).limit = some limit ∧
        3000 ≤ excess answers createdAt limit := by
  rw [isOverdue_iff]
  refine exists_congr fun limit => and_congr_right fun _ => ?_
  show watched.record.run.startedAt
    + enforcedAfterMs limit answers.graceMinutes + 3000 ≤ answers.now ↔ _
  rw [hstart, excess]
  constructor
  · intro h
    linarith
  · intro h
    linarith

/-- When the row of a run was created. -/
def startedAt (runId : ℕ) : Poller → Option Instant :=
  column (·.record.run.startedAt) runId

section Start

variable {validator : RunEventValidator Candidate} {other : ℕ}

theorem startedAt_record {reason : String} :
    (record other reason poller).startedAt runId = poller.startedAt runId :=
  column_modify (WatchedRun.key_attention reason) fun _ _ _ => rfl

theorem startedAt_markLost :
    (markLost other poller).startedAt runId = poller.startedAt runId :=
  column_modify WatchedRun.key_lose fun _ _ _ => rfl

/-- Storing what was ingested leaves the start. -/
theorem startedAt_storeRecord {stored : RunRecord}
    (hfind : poller.table.find other = some watched)
    (h : stored.run.startedAt = watched.record.run.startedAt) :
    (storeRecord other stored poller).startedAt runId
      = poller.startedAt runId := by
  refine column_modify (WatchedRun.key_ingested stored) fun row hrow hkey => ?_
  obtain ⟨hwatched, hid⟩ := Table.find_eq_some.mp hfind
  have hsame : row = watched :=
    Table.eq_of_key hrow hwatched ((beq_iff_eq.mp hkey).trans hid.symm)
  rw [hsame]
  exact h

theorem startedAt_enforceBudget {runIsLive : Bool} :
    (enforceBudget answers other runIsLive poller).startedAt runId
      = poller.startedAt runId :=
  view_enforceBudget (fun _ _ _ => startedAt_record) fun _ _ _ _ => rfl

theorem startedAt_heed {status : RunnerRunStatus} :
    (heed other status poller).startedAt runId = poller.startedAt runId := by
  cases status with
  | unknown => exact startedAt_markLost
  | _ => rfl

theorem startedAt_pollOne :
    (pollOne validator answers other poller).startedAt runId
      = poller.startedAt runId := by
  unfold pollOne
  split
  · rfl
  · simp only
    split
    · rw [startedAt_heed]
      rfl
    · unfold ingestPolled
      split
      · rfl
      · rename_i poll _ _ _ row hrow
        have hstart : (ingestAttempt validator other row.record poll.events
            (answers.ingestFailure other)).1.run.startedAt
              = row.record.run.startedAt :=
          congrArg (·.2.2.2) (origin_ingestAttempt validator other row.record
            poll.events (answers.ingestFailure other))
        split
        · rename_i stored hattempt
          rw [hattempt] at hstart
          exact startedAt_storeRecord hrow hstart
        · rename_i stored ingested hattempt
          rw [hattempt] at hstart
          rw [startedAt_heed, startedAt_enforceBudget]
          exact startedAt_storeRecord hrow hstart

/-- **No step of a tick moves the start of a row.** -/
theorem startedAt_step (i : Step Candidate) :
    (step validator poller i).startedAt runId = poller.startedAt runId := by
  cases i with
  | deadlines answers =>
    exact view_enforceDeadlines (fun _ _ _ => startedAt_record)
      fun _ _ _ => rfl
  | poll answers other => exact startedAt_pollOne
  | reconcile answers =>
    exact view_reconcileUntracked (fun _ _ => startedAt_markLost)
      fun _ _ => rfl

end Start

/-- What an executor writes on the row of a run that has a status. -/
def writeRun (runId : ℕ) (status : RunStatus) (f : RunRow → RunRow)
    (hf : ∀ r, (f r).id = r.id) (poller : Poller) : Poller :=
  { poller with
    table :=
      poller.table.modify
        (fun watched =>
          watched.record.run.id == runId && watched.record.run.status == status)
        (fun watched =>
          { watched with
            record := { watched.record with run := f watched.record.run } })
        fun watched => hf watched.record.run }

theorem startedAt_writeRun {other : ℕ} {status : RunStatus}
    {f : RunRow → RunRow} (hf : ∀ r, (f r).id = r.id)
    (h : ∀ r, (f r).startedAt = r.startedAt) :
    (writeRun other status f hf poller).startedAt runId
      = poller.startedAt runId :=
  column_modify (fun watched => hf watched.record.run)
    fun watched _ _ => h watched.record.run

end Poller

/-! ## The history of a run -/

/-- One process of a run, as its runner sees it. A resumed run has a new process, and a
timer that is armed anew. -/
structure Invocation where
  startedAt : Instant
  /-- The minutes its timer was armed with. -/
  armed : Option ℤ
  endedAt : Option Instant
deriving DecidableEq

/-- How long it has been executing. -/
def Invocation.executing (invocation : Invocation) (now : Instant) : ℤ :=
  invocation.endedAt.getD now - invocation.startedAt

/-- The poller, with the newest process of one run. Both have a clock that is to end the
run: the poller's own deadline and the process's timer. -/
structure TimedRun where
  poller : Poller
  invocation : Invocation

namespace TimedRun

/-- What happens to a run once it has a row: the steps of poller ticks, those
of the resumes of its work order, and those of its processes. -/
inductive Step (Candidate : Type*) where
  | poller (step : Poller.Step Candidate)
  /-- A resume claims the parked row. -/
  | claim (attempt : ℕ)
  /-- The runner starts a process, and arms its timer. -/
  | start (now : Instant) (spec : WorkOrderSpec)
      (settings : LocalRunnerSettings)
  /-- The poller gets the handle. -/
  | track (handle : RunHandle)
  /-- The process ends. -/
  | exit (now : Instant)
  /-- The recoveries of a resume. -/
  | park (attemptCount : ℕ)
  | fail (now : Instant) (message : String)
  /-- The process of the control plane is restarted. -/
  | restart

variable {Candidate : Type*} (validator : RunEventValidator Candidate)
  (runId : ℕ)

/-- A step of either clock's side: the poller and the rows, or the runner and its
process. -/
def step (s : TimedRun) : Step Candidate → TimedRun
  | .poller step => { s with poller := s.poller.step validator step }
  | .claim attempt =>
    { s with
      poller :=
        s.poller.writeRun runId .blocked (RunRow.claim attempt) fun _ => rfl }
  | .start now spec settings =>
    { s with invocation := ⟨now, armDeadline settings spec, none⟩ }
  | .track handle => { s with poller := s.poller.track runId handle }
  | .exit now =>
    { s with
      invocation :=
        { s.invocation with endedAt := s.invocation.endedAt <|> some now } }
  | .park attemptCount =>
    { s with
      poller :=
        s.poller.writeRun runId .running (RunRow.park attemptCount)
          fun _ => rfl }
  | .fail now message =>
    { s with
      poller :=
        s.poller.writeRun runId .running (RunRow.fail now message)
          (RunRow.id_fail now message) }
  | .restart => { s with poller := s.poller.restart }

/-- **An overrun**: the newest process has been executing for longer than the
ceiling in force and the grace. Where its timer was armed for that ceiling, it
is due. -/
structure Overrun (answers : PollAnswers Candidate) (invocation : Invocation)
    (watched : WatchedRun) : Prop where
  exceeded : ∃ limit,
    (Poller.deadlineInputs answers watched).limit = some limit ∧
      enforcedAfterMs limit answers.graceMinutes
        < invocation.executing answers.now
  due : ∀ limit, (Poller.deadlineInputs answers watched).limit = some limit →
    invocation.armed = some limit →
      limit * 60000 < invocation.executing answers.now

/-- What a sweep cancels, it cancels for an overrun. -/
def CancelsOverruns (s : TimedRun) : Step Candidate → Prop
  | .poller (.deadlines answers) =>
    (runId ∉ s.poller.deadlineEnforced ∧
        runId ∈ (s.poller.enforceDeadlines answers).deadlineEnforced) →
      ∀ watched ∈ s.poller.table.find runId,
        Overrun answers s.invocation watched
  | _ => True

/-- **What a sweep that looks at the run must find**: if the row is three
seconds past the ceiling and the grace, it was without its newest process for
less than it is past them. -/
def Attended (createdAt : Instant) (s : TimedRun) : Step Candidate → Prop
  | .poller (.deadlines answers) =>
    ∀ watched, s.poller.Looks runId watched →
      ∀ limit ∈ (Poller.deadlineInputs answers watched).limit,
        3000 ≤ Poller.excess answers createdAt limit →
          answers.now - createdAt - s.invocation.executing answers.now
            < Poller.excess answers createdAt limit
  | _ => True

variable {validator} {runId} {createdAt : Instant} {s : TimedRun}

/-- **No step of a history moves the start of the row.** -/
theorem startedAt_step (i : Step Candidate) :
    (s.step validator runId i).poller.startedAt runId
      = s.poller.startedAt runId := by
  cases i with
  | poller step => exact Poller.startedAt_step step
  | claim attempt =>
    exact Poller.startedAt_writeRun (f := RunRow.claim attempt) (fun _ => rfl)
      fun _ => rfl
  | park attemptCount =>
    exact Poller.startedAt_writeRun (f := RunRow.park attemptCount)
      (fun _ => rfl) fun _ => rfl
  | fail now message =>
    exact Poller.startedAt_writeRun (f := RunRow.fail now message)
      (fun _ => rfl) fun _ => rfl
  | _ => rfl

/-- The timer is armed for less than the sweep waits for. -/
theorem overrun_of_exceeded {answers : PollAnswers Candidate}
    {invocation : Invocation} {watched : WatchedRun} {limit : ℤ}
    (hlimit : (Poller.deadlineInputs answers watched).limit = some limit)
    (h : enforcedAfterMs limit answers.graceMinutes
      < invocation.executing answers.now) :
    Overrun answers invocation watched where
  exceeded := ⟨limit, hlimit, h⟩
  due other hother _ := by
    rw [← Option.some.inj (hlimit.symm.trans hother)]
    refine lt_of_le_of_lt ?_ h
    have hgrace : limit ≤ limit + max 0 answers.graceMinutes :=
      le_add_of_nonneg_right (le_max_left 0 _)
    exact mul_le_mul_of_nonneg_right hgrace (by decide)

/-- **A sweep is right exactly when it finds what it must.** -/
theorem cancelsOverruns_iff
    (hcreated : ∀ start ∈ s.poller.startedAt runId, start = createdAt)
    (i : Step Candidate) :
    s.CancelsOverruns runId i ↔ s.Attended runId createdAt i := by
  have hstart : ∀ watched, s.poller.table.find runId = some watched →
      watched.record.run.startedAt = createdAt := fun watched hfind =>
    hcreated _ (by rw [Poller.startedAt, Poller.column, hfind]; rfl)
  cases i with
  | poller step =>
    cases step with
    | deadlines answers =>
      show (_ → _) ↔ ∀ watched, _ → _
      rw [Poller.enforced_iff]
      constructor
      · intro hcancels watched hlooks limit hlimit hexcess
        have hoverdue := (Poller.isOverdue_deadlineInputs
          (hstart watched hlooks.1)).mpr ⟨limit, hlimit, hexcess⟩
        obtain ⟨other, hother, hexceeded⟩ :=
          (hcancels ⟨watched, hlooks, hoverdue⟩ watched hlooks.1).exceeded
        rw [Option.some.inj (hother.symm.trans hlimit)] at hexceeded
        unfold Poller.excess
        linarith
      · rintro hattended ⟨watched, hlooks, hoverdue⟩ row hrow
        obtain ⟨limit, hlimit, hexcess⟩ := (Poller.isOverdue_deadlineInputs
          (hstart watched hlooks.1)).mp hoverdue
        have habsent := hattended watched hlooks limit hlimit hexcess
        unfold Poller.excess at habsent
        rw [Option.some.inj (hrow.symm.trans hlooks.1)]
        exact overrun_of_exceeded hlimit (by linarith)
    | _ => exact Iff.rfl
  | _ => exact Iff.rfl

/-- **Exactly when the backstop only acts on overruns.** For a run whose row
was created at an instant, and every history of it: each sweep cancels the run
only for an overrun of its newest process if and only if each sweep that looks
at it, three seconds or more after the ceiling and the grace have passed since
its creation, finds that it was without that process for less than that. -/
theorem cancels_overruns_iff (validator : RunEventValidator Candidate)
    (hcreated : ∀ start ∈ s.poller.startedAt runId, start = createdAt)
    (history : List (Step Candidate)) :
    Machine.Always (step validator runId) (CancelsOverruns runId) s history ↔
      Machine.Always (step validator runId) (Attended runId createdAt) s
        history :=
  Machine.always_congr_of_preserved
    (fun s i (h : ∀ start ∈ s.poller.startedAt runId, start = createdAt) => by
      rw [startedAt_step]
      exact h)
    (fun _ i h => cancelsOverruns_iff h i) hcreated

/-- The handle of its work order, which every process of it has. -/
def askedHandle : RunHandle :=
  ⟨ClaudeCodeLocalRunner.key, askedSpec.identity, askedSpec.identity⟩

/-- The run that is parked, whose process ended five minutes in; the process
that has its handle never went away. -/
def parkedTimed : TimedRun where
  poller :=
    { Poller.restarted with
      tracked := [(1, askedHandle)] }
  invocation := ⟨1000, some 60, some 300000⟩

/-- What is around a sweep at an instant. -/
def sweptAt (now : Instant) : PollAnswers RunEventPayload :=
  { Poller.quiet with now := now, defaultTimeoutMinutes := some 60 }

/-- The park ends after ten hours, and the next sweep comes a minute later. -/
def resumedLate : List (Step RunEventPayload) :=
  [.claim 2, .start 36000000 askedSpec localSettings,
    .track askedHandle, .poller (.deadlines (sweptAt 36060000))]

theorem cancels_overruns_iff_resumedLate :
    Machine.Always (step passing 1) (CancelsOverruns 1) parkedTimed
        resumedLate ↔
      Machine.Always (step passing 1) (Attended 1 0) parkedTimed
        resumedLate := by
  have hcreated : parkedTimed.poller.startedAt 1 = some 0 := by
    decide
  refine cancels_overruns_iff passing (fun start hstart => ?_) resumedLate
  exact (Option.some.inj (hcreated.symm.trans hstart)).symm

/-- **A resume is cancelled for the time its run was parked.** -/
theorem cancels_for_the_park :
    ¬ ∀ (validator : RunEventValidator RunEventPayload) (runId : ℕ)
      (s : TimedRun) (history : List (Step RunEventPayload)),
        Machine.Always (step validator runId) (CancelsOverruns runId) s
          history := by
  intro h
  obtain ⟨-, -, -, hsweep, -⟩ := h passing 1 parkedTimed resumedLate
  have hoverrun := hsweep (by decide +kernel) _ rfl
  obtain ⟨limit, hlimit, hexceeded⟩ := hoverrun.exceeded
  obtain rfl : (60 : ℤ) = limit := Option.some.inj hlimit
  exact absurd hexceeded (by decide)

end TimedRun

end Opifex
