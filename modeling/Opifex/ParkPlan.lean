import Opifex.IngestConfluence
import Opifex.Lib.Machine
import Opifex.RunPoller
import Opifex.Watchdog

/-!
# The plan and the block it was drawn from

`resumesAt` is drawn from a block and should not outlive it. Three components
write a parked run: ingestion moves its status and its newest block, the
poller stalls it, and the watchdog writes the plan. Only a return to running
erases the plan, and the watchdog's write is guarded by nothing, so it can
land on a run that moved on since it was read.

The plan is bound to its block as long as every ending, every loss and every
undated block finds a run without a plan, and every plan finds a run that is
still blocked on a dated block (`plan_bound_iff`).
-/

namespace Opifex

open HighWater (below)

/-- The newest block of a run carries no reset. -/
def UndatedBlock (events : List RunEventRow) : Prop :=
  ∃ row, newestBlock events = some row ∧ row.blockedUntil = none

/-- The run, and the plan a sweep has drawn and not yet written. One sweep is
on its way at a time. -/
structure ParkState where
  watched : WatchedRun
  pending : Option Instant
deriving DecidableEq

/-- What happens to a run that may be parked. A sweep is two steps, since events may be
ingested between what it reads and what it writes. -/
inductive ParkStep where
  /-- A batch of events is ingested. -/
  | ingest (events : List RunEventPayload)
  /-- The poller writes an attention reason. -/
  | record (reason : String)
  /-- The poller marks the run as lost. -/
  | markLost
  /-- A sweep reads the run and decides. -/
  | sweepRead (now : Instant) (random : Draw)
  /-- The sweep persists the plan it drew. -/
  | sweepWrite

namespace WatchedRun

/-- The batch moves the newest event of the run forward. -/
def advancedBy (events : List RunEventPayload) (watched : WatchedRun) : Bool :=
  (newestOf events).any (below watched.record.run.lastEventAt)

/-- The events stored once the batch is. -/
def eventsWith (events : List RunEventPayload) (watched : WatchedRun) :
    List RunEventRow :=
  createMany watched.record.events (events.map toRow)

end WatchedRun

/-- The plan a decision draws. -/
def ParkingDecision.plan? : ParkingDecision → Option Instant
  | .park resumeAt _ => some resumeAt
  | _ => none

namespace ParkState

/-- One step of a component. -/
def step (state : ParkState) : ParkStep → ParkState
  | .ingest events =>
    { state with watched := state.watched.delivered events }
  | .record reason =>
    { state with
      watched :=
        if state.watched.isLive then state.watched.attention reason
        else state.watched }
  | .markLost =>
    { state with
      watched :=
        if state.watched.isLive then state.watched.lose else state.watched }
  | .sweepRead now random =>
    { state with
      pending :=
        if state.watched.isBlocked then
          (state.watched.decision now random).plan?
        else none }
  | .sweepWrite =>
    match state.pending with
    | some plan => { watched := state.watched.planned plan, pending := none }
    | none => state

/-- With nothing in between, the two halves of a sweep are the sweep. -/
theorem sweep_halves (watched : WatchedRun) (pending : Option Instant)
    (now : Instant) (random : Draw) :
    (step (step ⟨watched, pending⟩ (.sweepRead now random)) .sweepWrite).watched
      = watched.swept now random := by
  unfold WatchedRun.swept
  by_cases hblocked : watched.isBlocked = true
  · simp only [step, hblocked, if_true]
    cases watched.decision now random <;> rfl
  · rw [if_neg hblocked]
    simp only [step, if_neg hblocked]

/-- **The plan is bound to its block.** A run blocked without a reset has no
plan, so it gets its patience and is then escalated; and only a blocked run
has a plan. -/
structure PlanBound (watched : WatchedRun) : Prop where
  undated : watched.isBlocked = true → UndatedBlock watched.record.events →
    watched.record.run.resumesAt = none
  escalated : watched.isBlocked = true → UndatedBlock watched.record.events →
    ∀ (now : Instant) (random : Draw),
      watched.decision now random
        = if undatedBlockPatienceMs
              < now - watched.blockedState.blockedSince then
            .escalate (watched.blockedState.escalateReason
              (now - watched.blockedState.blockedSince))
          else
            .waiting (BlockedRunState.patientReason
              (now - watched.blockedState.blockedSince))
  held : watched.record.run.resumesAt ≠ none → watched.isBlocked = true

/-- The step keeps the plan bound. -/
def Keeps (state : ParkState) : ParkStep → Prop
  | .ingest events =>
    state.watched.record.run.resumesAt = none ∨
      (terminalEventIn events = none ∧
        ((state.watched.advancedBy events = true ∧
            blockingEventIn events = none) ∨
          ¬ UndatedBlock (state.watched.eventsWith events)))
  | .record _ => True
  | .markLost => state.watched.record.run.resumesAt = none
  | .sweepRead _ _ => True
  | .sweepWrite =>
    state.pending = none ∨
      (state.watched.isBlocked = true ∧
        ¬ UndatedBlock state.watched.record.events)

section Bound

variable {watched : WatchedRun} {plan : Instant}

/-- The decision follows from the missing plan. -/
theorem planBound_iff :
    PlanBound watched ↔
      watched.record.run.resumesAt = none ∨
        (watched.isBlocked = true ∧ ¬ UndatedBlock watched.record.events) := by
  constructor
  · intro h
    by_cases hplan : watched.record.run.resumesAt = none
    · exact Or.inl hplan
    · have hblocked := h.held hplan
      exact Or.inr ⟨hblocked, fun hundated => hplan (h.undated hblocked hundated)⟩
  · intro h
    have hundated : watched.isBlocked = true →
        UndatedBlock watched.record.events →
          watched.record.run.resumesAt = none :=
      fun _ hundated => h.resolve_right fun hdated => hdated.2 hundated
    refine ⟨hundated, fun hblocked hblock now random => ?_, fun hplan => ?_⟩
    · have hreset : watched.blockedState.resetAt = none := by
        obtain ⟨row, hrow, huntil⟩ := hblock
        show (newestBlock watched.record.events).bind _ = none
        rw [hrow]
        exact huntil
      exact BlockedRunState.decideParking_undated hreset
        (hundated hblocked hblock)
    · exact (h.resolve_left hplan).1

/-- Without a plan nothing is to be bound. -/
theorem planBound_of_none (h : watched.record.run.resumesAt = none) :
    PlanBound watched :=
  planBound_iff.mpr (Or.inl h)

theorem planBound_of_plan (h : watched.record.run.resumesAt = some plan) :
    PlanBound watched ↔
      watched.isBlocked = true ∧ ¬ UndatedBlock watched.record.events := by
  rw [planBound_iff, h]
  exact or_iff_right (Option.some_ne_none plan)

end Bound

/-! ## A batch on a run with a plan -/

section Delivery

variable {watched : WatchedRun} {events : List RunEventPayload}
  {plan newest : Instant}

/-- A batch changes the status and the plan of a run by its status statement
alone. -/
theorem delivered_run (h : newestOf events = some newest) :
    ∃ run : RunRow, run.status = watched.record.run.status ∧
      run.resumesAt = watched.record.run.resumesAt ∧
      (watched.delivered events).record.run
        = transition events (watched.advancedBy events) run := by
  refine ⟨(watched.record.run.moveLastEventAt newest).rollUpCost
    (aggregate (watched.eventsWith events)), ?_, ?_, ?_⟩
  · rw [RunRow.rollUpCost_status, RunRow.moveLastEventAt_status]
  · rw [RunRow.rollUpCost_resumesAt, RunRow.moveLastEventAt_resumesAt]
  · rw [WatchedRun.advancedBy, h]
    exact run_persist h

theorem delivered_nil (h : newestOf events = none) :
    (watched.delivered events).record.run = watched.record.run :=
  run_persist_of_none h

/-- **What a batch makes of a plan**: an ending leaves it on a run that is not
blocked any more, a return to running erases it, and anything else leaves it
on the block that is then the newest. -/
theorem planBound_delivered (hblocked : watched.isBlocked = true)
    (hplan : watched.record.run.resumesAt = some plan)
    (hdated : ¬ UndatedBlock watched.record.events) :
    PlanBound (watched.delivered events) ↔
      terminalEventIn events = none ∧
        ((watched.advancedBy events = true ∧ blockingEventIn events = none) ∨
          ¬ UndatedBlock (watched.eventsWith events)) := by
  have hstatus : watched.record.run.status = .blocked := beq_iff_eq.mp hblocked
  have hevents : (watched.delivered events).record.events
      = watched.eventsWith events := rfl
  cases hnewest : newestOf events with
  | none =>
    -- an empty batch changes nothing
    have hnil : events = [] := newestOf_eq_none.mp hnewest
    have hrun := @delivered_nil watched events hnewest
    rw [planBound_of_plan (hrun ▸ hplan), hevents]
    rw [WatchedRun.isBlocked, hrun, hnil]
    exact iff_of_true ⟨hblocked, hdated⟩ ⟨rfl, Or.inr hdated⟩
  | some newest =>
    obtain ⟨run, hrunStatus, hrunPlan, hrun⟩ :=
      @delivered_run watched events newest hnewest
    rw [hstatus] at hrunStatus
    rw [hplan] at hrunPlan
    have hlive : run.status.isLive = true := by rw [hrunStatus]; rfl
    cases hterminal : terminalEventIn events with
    | some terminal =>
      rw [transition_of_terminal hterminal] at hrun
      have hkept : (watched.delivered events).record.run.resumesAt
          = some plan := by
        rw [hrun, resumesAt_concludeRun, hrunPlan]
      rw [planBound_of_plan hkept]
      refine iff_of_false (fun h => ?_) (fun h => by cases h.1)
      have hended := beq_iff_eq.mp h.1
      rw [hrun, RunRow.concludeRun_of_live hlive] at hended
      exact absurd hended (RunRow.status_conclude_ne_blocked terminal run)
    | none =>
      rw [and_iff_right rfl]
      cases hadvanced : watched.advancedBy events with
      | false =>
        rw [hadvanced, transition_not_advanced hterminal] at hrun
        rw [planBound_of_plan (hrun ▸ hrunPlan), hevents,
          WatchedRun.isBlocked, hrun, hrunStatus]
        simp
      | true =>
        rw [hadvanced, transition_advanced hterminal] at hrun
        cases hblocking : blockingEventIn events with
        | some block =>
          rw [hblocking, Option.isSome_some, if_pos rfl] at hrun
          have hkept : (watched.delivered events).record.run.resumesAt
              = some plan := by
            rw [hrun, resumesAt_blockRun, hrunPlan]
          rw [planBound_of_plan hkept, hevents, WatchedRun.isBlocked, hrun,
            RunRow.status_blockRun hlive]
          simp
        | none =>
          rw [hblocking, Option.isSome_none, if_neg Bool.false_ne_true] at hrun
          have hresumable : run.isResumable = true := by
            rw [RunRow.isResumable, hrunStatus]
            rfl
          refine iff_of_true (planBound_of_none ?_) (Or.inl ⟨rfl, rfl⟩)
          rw [hrun, resumesAt_resumeRun, if_pos hresumable]

end Delivery

/-! ## Every interleaving -/

section Steps

variable {state : ParkState}

/-- **Which steps keep a plan bound.** -/
theorem planBound_step (h : PlanBound state.watched) (i : ParkStep) :
    PlanBound (step state i).watched ↔ Keeps state i := by
  have hbound := planBound_iff.mp h
  cases i with
  | ingest events =>
    cases hplan : state.watched.record.run.resumesAt with
    | none =>
      refine iff_of_true (planBound_of_none ?_) (Or.inl hplan)
      rw [Option.eq_none_iff_forall_ne_some]
      intro plan hkept
      rw [resumesAt_persist hkept] at hplan
      cases hplan
    | some plan =>
      obtain ⟨hblocked, hdated⟩ := (planBound_of_plan hplan).mp h
      rw [Keeps, hplan, or_iff_right (Option.some_ne_none plan)]
      exact planBound_delivered hblocked hplan hdated
  | record reason =>
    refine iff_of_true ?_ trivial
    show PlanBound (if _ then _ else _)
    split
    · exact planBound_iff.mpr hbound
    · exact h
  | markLost =>
    show PlanBound (if _ then _ else _) ↔ _ = none
    cases hplan : state.watched.record.run.resumesAt with
    | none =>
      refine iff_of_true ?_ rfl
      split
      · exact planBound_of_none hplan
      · exact h
    | some plan =>
      -- a run with a plan is blocked, hence live, and stalled now
      obtain ⟨hblocked, -⟩ := (planBound_of_plan hplan).mp h
      have hlive : state.watched.isLive = true := by
        rw [WatchedRun.isLive, beq_iff_eq.mp hblocked]
        rfl
      have hlost : state.watched.lose.record.run.resumesAt = some plan := hplan
      rw [if_pos hlive, planBound_of_plan hlost]
      exact iff_of_false (fun hlost => Bool.false_ne_true hlost.1)
        (Option.some_ne_none plan)
  | sweepRead now random => exact iff_of_true h trivial
  | sweepWrite =>
    show PlanBound (step state .sweepWrite).watched ↔ _ ∨ _
    unfold step
    cases hpending : state.pending with
    | none => exact iff_of_true h (Or.inl rfl)
    | some plan =>
      rw [or_iff_right (Option.some_ne_none plan)]
      exact planBound_of_plan rfl

/-- **When a plan never outlives its block**: along every interleaving of
batches, sweeps and poller steps that starts bound, the plan is bound after
every step exactly when each step keeps it. -/
theorem plan_bound_iff (h : PlanBound state.watched) (steps : List ParkStep) :
    Machine.Always step (fun s i => PlanBound (step s i).watched) state steps ↔
      Machine.Always step Keeps state steps :=
  Machine.always_iff_of_invariant
    (fun s : ParkState => PlanBound s.watched)
    (fun _ i hs => planBound_step hs i) h steps

end Steps

/-! ## An undated block over a dated plan -/

/-- A block with a reset, and a later one without. -/
def datedBlock : RunEventPayload :=
  { eventOf "e1" .blocked 1000 with
    blocked := some ⟨.rateLimit, some 9000⟩ }

/-- A block without a date, after the first. -/
def undatedBlock : RunEventPayload :=
  { eventOf "e2" .blocked 2000 with
    blocked := some ⟨.unknown, none⟩ }

/-- A run that was just dispatched. -/
def dispatched : ParkState where
  watched :=
    { record := ⟨freshRun, []⟩
      workOrderIdentity := "wo_app_7_a3f91c2_a1"
      repository := "acme/app"
      issueNumber := 7 }
  pending := none

/-- The first block is planned for, and then the second is reported. -/
def reblocked : List ParkStep :=
  [.ingest [datedBlock],
    .sweepRead 1500 ⟨0, zero_isDraw⟩, .sweepWrite,
    .ingest [undatedBlock]]

/-- **A plan outlives its block**: the run is blocked on a block without a
reset, and long after its patience it is woken on the plan of the first. -/
theorem plan_outlives_block :
    let watched := (Machine.run step dispatched reblocked).watched
    watched.isBlocked = true ∧
      (newestBlock watched.record.events).map (·.blockedUntil) = some none ∧
      watched.record.run.resumesAt = some 9000 ∧
      (watched.sweptActions 9000000 ⟨0, le_refl 0, zero_lt_one⟩).map (·.type)
        = [.resume] := by
  decide +kernel

theorem plan_bound_iff_reblocked :
    Machine.Always step (fun s i => PlanBound (step s i).watched) dispatched
        reblocked ↔
      Machine.Always step Keeps dispatched reblocked :=
  plan_bound_iff (planBound_of_none rfl) reblocked

end ParkState

end Opifex
