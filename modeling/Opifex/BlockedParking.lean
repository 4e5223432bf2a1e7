import Opifex.DiffEngine
import Opifex.Lib.Rounding
import Opifex.RunEvents

/-!
# Parking a blocked run

A blocked run is parked until its reset plus a jitter, so that runs parked by
one quota window do not wake together. `resumesAt` is that plan, and nobody
but the watchdog computes one. Each sweep decides again from what it reads: it
keeps a plan unless the newest block's reset has overtaken it, wakes the run
once the plan is due, and escalates a block that nothing can date.

The randomness is an argument. A number of `Math.random` is a rational in
`[0, 1)`.
-/

namespace Opifex

/-- What `Math.random()` returns. -/
def Draw := {x : ℚ // 0 ≤ x ∧ x < 1}

theorem zero_isDraw : (0 : ℚ) ≤ 0 ∧ (0 : ℚ) < 1 := ⟨le_refl 0, zero_lt_one⟩

/-- A run that reported itself blocked, as the parking decision sees it: since when, for
how long it says, and what was planned for it on an earlier pass. -/
structure BlockedRunState where
  runId : ℕ
  workOrderIdentity : String
  repository : String
  issueNumber : ℕ
  /-- When the run reported the block. -/
  blockedSince : Instant
  /-- The reset time the runner supplied, or null when it could not say. -/
  resetAt : Option Instant
  reason : Option String
  /-- The resume this control plane has already planned, jitter included. -/
  resumesAt : Option Instant
deriving DecidableEq

/-- What a sweep does about a blocked run. Each carries the sentence that goes to the
log or the escalation. -/
inductive ParkingDecision where
  /-- Schedule a resume at the reset time plus jitter. -/
  | park (resumeAt : Instant) (reason : String)
  /-- Its scheduled time has arrived. -/
  | resume (reason : String)
  /-- Already parked with a future resume; nothing to do. -/
  | waiting (reason : String)
  /-- No reset time and it has waited too long. -/
  | escalate (reason : String)
deriving DecidableEq

/-- The jitter is drawn from a window that grows with the wait, by this fraction of it.
-/
def jitterFraction : ℚ := 1 / 10

/-- The window is never narrower than this. -/
def minJitterMs : ℤ := 15000

/-- Nor is it ever wider than this. -/
def maxJitterMs : ℤ := 10 * 60000

/-- How long a block without a reset time may sit before a human is told. -/
def undatedBlockPatienceMs : ℤ := 30 * 60000

/-- The width of the jitter: a tenth of the block, within bounds. -/
def jitterWindow (resetAt blockedSince : Instant) : ℚ :=
  min (maxJitterMs : ℚ)
    (max (minJitterMs : ℚ) (max 0 (resetAt - blockedSince) * jitterFraction))

/-- Jitter proportional to how long the block lasts. -/
def jitterFor (resetAt blockedSince : Instant) (random : Draw) : ℤ :=
  ⌊random.val * jitterWindow resetAt blockedSince⌋

/-- Minutes as the reasons print them: `Math.round(ms / 60_000)`. -/
def roundedMinutes (ms : ℤ) : String :=
  toString (Rounding.round ((ms : ℚ) / 60000))

namespace BlockedRunState

/-- The newest block's reset has overtaken the plan. -/
def superseded (run : BlockedRunState) : Bool :=
  match run.resumesAt, run.resetAt with
  | some plan, some reset => decide (plan < reset)
  | _, _ => false

/-- The plan a sweep honours: the one that is there, unless it was
superseded. -/
def standingPlan (run : BlockedRunState) : Option Instant :=
  if run.superseded then none else run.resumesAt

/-- Said of a run whose planned resume is still to come. -/
def waitingReason (run : BlockedRunState) (plan : Instant) : String :=
  "parked until " ++ plan.toISOString ++ " (" ++
    run.reason.getD "reason not reported" ++ ")"

/-- Said of a run whose planned resume has come. -/
def resumeReason (run : BlockedRunState) (plan : Instant) : String :=
  "resume " ++ run.workOrderIdentity ++ ": its scheduled time " ++
    plan.toISOString ++ " has passed"

/-- Said of a run that has waited too long without a date. -/
def escalateReason (run : BlockedRunState) (waitedMs : ℤ) : String :=
  run.workOrderIdentity ++ " has been blocked since " ++
    run.blockedSince.toISOString ++ " with reason '" ++
    run.reason.getD "unknown" ++
    "' and no reset time, so nothing can compute when it would resume. " ++
    "It has waited " ++ roundedMinutes waitedMs ++ "m and needs a human."

/-- Said of a run without a date that may wait some more. -/
def patientReason (waitedMs : ℤ) : String :=
  "blocked with no reset time; waiting " ++
    roundedMinutes (undatedBlockPatienceMs - waitedMs) ++
    "m more before escalating"

/-- Said of a run that gets a plan, or a newer plan than the one it had. -/
def parkReason (run : BlockedRunState) (reset : Instant) (jitterMs : ℤ) :
    String :=
  (if run.superseded then "re-park" else "park") ++ " " ++
    run.workOrderIdentity ++ " until " ++
    Instant.toISOString (reset + jitterMs) ++ ": blocked on '" ++
    run.reason.getD "unknown" ++ "' resetting at " ++ reset.toISOString ++
    (if run.superseded then
      ", which supersedes the " ++
        (run.resumesAt.map Instant.toISOString).getD "undefined" ++
        " already planned"
    else "") ++
    ", plus " ++ toString (Rounding.round ((jitterMs : ℚ) / 1000)) ++
    "s jitter so simultaneously-parked runs do not resume together"

/-- **Decide what to do about one blocked run.** -/
def decideParking (run : BlockedRunState) (now : Instant) (random : Draw) :
    ParkingDecision :=
  match run.standingPlan with
  | some plan =>
    -- deciding again would move the time on each pass, and it would never come
    if now < plan then .waiting (run.waitingReason plan)
    else .resume (run.resumeReason plan)
  | none =>
    match run.resetAt with
    | none =>
      let waitedMs := now - run.blockedSince
      if undatedBlockPatienceMs < waitedMs then
        .escalate (run.escalateReason waitedMs)
      else .waiting (patientReason waitedMs)
    | some reset =>
      let jitterMs := jitterFor reset run.blockedSince random
      .park (reset + jitterMs) (run.parkReason reset jitterMs)

/-- What every action about the run shares. -/
def evidence (run : BlockedRunState) : ActionEvidence where
  intent := .blocked
  inputLabels := []
  workOrderIdentity := some run.workOrderIdentity
  runStatus := some .blocked
  currentMirrorLabels := []
  desiredMirrorLabels := []

/-- One action about the run. -/
def action (run : BlockedRunState) (type : ReconcileActionType)
    (reason : String) : ReconcileAction where
  type := type
  repository := run.repository
  issueNumber := run.issueNumber
  reason := reason
  evidence := run.evidence
  runId := some run.runId

/-- The action a parking decision implies. -/
def actionsForParking (run : BlockedRunState) :
    ParkingDecision → List ReconcileAction
  | .park resumeAt reason =>
    [{ run.action .park reason with resumeAt := some resumeAt.toISOString }]
  | .resume reason => [run.action .resume reason]
  | .escalate reason =>
    [{ run.action .escalate reason with escalationKind := some .system }]
  -- a blocked run waiting out its quota is the system working
  | .waiting _ => []

end BlockedRunState

/-! ## The jitter -/

section Jitter

variable {reset blockedSince : Instant} {random : Draw}

theorem jitterWindow_pos : 0 < jitterWindow reset blockedSince := by
  have hmin : (0 : ℚ) < (minJitterMs : ℚ) := by norm_num [minJitterMs]
  have hmax : (0 : ℚ) < (maxJitterMs : ℚ) := by norm_num [maxJitterMs]
  exact lt_min hmax (hmin.trans_le (le_max_left _ _))

/-- The jitter is added after the reset, never before it. -/
theorem jitterFor_nonneg : 0 ≤ jitterFor reset blockedSince random :=
  Int.floor_nonneg.mpr (mul_nonneg random.property.1 jitterWindow_pos.le)

theorem jitterFor_le : jitterFor reset blockedSince random ≤ maxJitterMs := by
  have hdraw : random.val * jitterWindow reset blockedSince
      ≤ 1 * (maxJitterMs : ℚ) :=
    mul_le_mul random.property.2.le (min_le_left _ _) jitterWindow_pos.le
      zero_le_one
  rw [one_mul] at hdraw
  exact_mod_cast (Int.floor_le _).trans hdraw

end Jitter

/-! ## One decision -/

namespace BlockedRunState

variable {run : BlockedRunState} {now plan reset : Instant} {random : Draw}

theorem decideParking_standing (h : run.standingPlan = some plan) :
    run.decideParking now random
      = if now < plan then .waiting (run.waitingReason plan)
        else .resume (run.resumeReason plan) := by
  unfold decideParking
  rw [h]

theorem decideParking_dated (h : run.standingPlan = none)
    (hreset : run.resetAt = some reset) :
    run.decideParking now random
      = .park (reset + jitterFor reset run.blockedSince random)
          (run.parkReason reset (jitterFor reset run.blockedSince random)) := by
  unfold decideParking
  rw [h, hreset]

/-- Where there is a reset, the plan that stands is the one it has not
overtaken. -/
theorem standingPlan_dated (hreset : run.resetAt = some reset) :
    run.standingPlan = run.resumesAt.filter fun plan => decide (reset ≤ plan) := by
  unfold standingPlan superseded
  rw [hreset]
  cases hplan : run.resumesAt with
  | none => rfl
  | some plan =>
    show (if decide (plan < reset) then none else some plan) = _
    rw [Option.filter_some]
    by_cases h : plan < reset
    · rw [if_pos (decide_eq_true h), if_neg (by simpa using h)]
    · rw [if_neg (by simpa using h), if_pos (by simpa using h)]

/-- Without a reset any plan stands: nothing can overtake it. -/
theorem standingPlan_undated (hreset : run.resetAt = none) :
    run.standingPlan = run.resumesAt := by
  unfold standingPlan superseded
  rw [hreset]
  cases run.resumesAt <;> rfl

/-- A block nothing can date, on a run without a plan, gets its patience and
is then escalated. -/
theorem decideParking_undated (hreset : run.resetAt = none)
    (hplan : run.resumesAt = none) :
    run.decideParking now random
      = if undatedBlockPatienceMs < now - run.blockedSince then
          .escalate (run.escalateReason (now - run.blockedSince))
        else .waiting (patientReason (now - run.blockedSince)) := by
  unfold decideParking
  rw [standingPlan_undated hreset, hplan, hreset]

/-- A run is woken on a plan that stands and is due. -/
theorem due_of_resume {action : ReconcileAction}
    (haction : action ∈ run.actionsForParking (run.decideParking now random))
    (htype : action.type = .resume) :
    ∃ plan, run.standingPlan = some plan ∧ plan ≤ now := by
  unfold decideParking at haction
  cases hstanding : run.standingPlan with
  | some plan =>
    refine ⟨plan, rfl, ?_⟩
    rw [hstanding] at haction
    by_cases hdue : now < plan
    · simp only [if_pos hdue] at haction
      cases haction
    · exact not_lt.mp hdue
  | none =>
    rw [hstanding] at haction
    cases hreset : run.resetAt with
    | some reset =>
      rw [hreset] at haction
      rw [List.mem_singleton.mp haction] at htype
      cases htype
    | none =>
      rw [hreset] at haction
      by_cases hpatience : undatedBlockPatienceMs < now - run.blockedSince
      · simp only [if_pos hpatience] at haction
        rw [List.mem_singleton.mp haction] at htype
        cases htype
      · simp only [if_neg hpatience] at haction
        cases haction

/-- Every action of a decision names the run. -/
theorem runId_actionsForParking {decision : ParkingDecision}
    {action : ReconcileAction} (h : action ∈ run.actionsForParking decision) :
    action.runId = some run.runId := by
  cases decision with
  | waiting reason => cases h
  | park resumeAt reason => rw [List.mem_singleton.mp h]; rfl
  | resume reason => rw [List.mem_singleton.mp h]; rfl
  | escalate reason => rw [List.mem_singleton.mp h]; rfl

end BlockedRunState

end Opifex
