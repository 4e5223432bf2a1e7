import Opifex.IngestConfluence
import Opifex.Lib.Machine
import Opifex.Watchdog

/-!
# A dated park holds still and never wakes early

A sweep plans a dated block once. The plan lies between the reset and the
greatest jitter after it, no later sweep draws it again, and the run is handed
over for waking by exactly the later sweeps the plan is due at. The sweep that
plans hands nothing over, even when the reset is past and its plan is due
already: the next one does. A newer block with a reset beyond the plan makes
the next sweep plan again, and no sweep wakes a run before its newest reset.
-/

namespace Opifex

/-- One sweep of the watchdog, and what others wrote before it on other
runs. -/
structure WatchdogTick (runId : ℕ) where
  now : Instant
  random : ℕ → Draw
  elsewhere : Table WatchedRun → Table WatchedRun
  keeps : ∀ table, (elsewhere table).find runId = table.find runId

namespace WatchdogTick

variable {runId : ℕ}

/-- The sweep of a tick, after whatever happened elsewhere. -/
def sweep (table : Table WatchedRun) (i : WatchdogTick runId) :
    BlockedSweep :=
  sweepBlocked i.now i.random (i.elsewhere table)

/-- The table a sweep leaves. -/
def step (table : Table WatchedRun) (i : WatchdogTick runId) :
    Table WatchedRun :=
  (sweep table i).table

/-- What a sweep reports about the run. -/
def reports (table : Table WatchedRun) (i : WatchdogTick runId) :
    List ReconcileAction :=
  actionsAbout runId (sweep table i).actions

theorem step_row {table : Table WatchedRun} {watched : WatchedRun}
    (h : table.find runId = some watched) (i : WatchdogTick runId) :
    (step table i).find runId
        = some (watched.swept i.now (i.random runId)) ∧
      reports table i = watched.sweptActions i.now (i.random runId) :=
  sweep_row ((i.keeps table).trans h)

end WatchdogTick

/-- A sweep that plans: the plan is on the run, the park is all it reports, and
nothing is woken. -/
structure Plans (runId : ℕ) (watched : WatchedRun) (plan : Instant)
    (table : Table WatchedRun) (i : WatchdogTick runId) : Prop where
  row : (WatchdogTick.step table i).find runId = some (watched.planned plan)
  park : (WatchdogTick.reports table i).map (·.type) = [.park]
  resumeAt :
    (WatchdogTick.reports table i).map (·.resumeAt) = [some plan.toISOString]

/-- A sweep that honours a plan: it writes nothing on the run, and wakes it
exactly when the plan is due. -/
structure Honours (runId : ℕ) (watched : WatchedRun) (plan : Instant)
    (table : Table WatchedRun) (i : WatchdogTick runId) : Prop where
  row : (WatchdogTick.step table i).find runId = some watched
  resume : (WatchdogTick.reports table i).map (·.type)
    = if plan ≤ i.now then [.resume] else []

/-- A run with its newest block's reset: it is blocked, and the state that parking reads
of it names the reset. -/
structure Dated (watched : WatchedRun) (reset : Instant) : Prop where
  blocked : watched.isBlocked = true
  reset : watched.blockedState.resetAt = some reset

section Sweeps

variable {runId : ℕ} {watched : WatchedRun} {reset plan : Instant}
  {table : Table WatchedRun}

/-- A plan does not change what is known of the block. -/
theorem Dated.planned (h : Dated watched reset) (plan : Instant) :
    Dated (watched.planned plan) reset :=
  ⟨h.blocked, h.reset⟩

/-- The plan a sweep draws. -/
theorem plans_of_overtaken (h : Dated watched reset)
    (hplan : ∀ plan ∈ watched.record.run.resumesAt, plan < reset)
    (hfind : table.find runId = some watched) (i : WatchdogTick runId) :
    ∃ plan, reset ≤ plan ∧ plan ≤ reset + maxJitterMs ∧
      Plans runId watched plan table i := by
  obtain ⟨hrow, hreports⟩ := WatchdogTick.step_row hfind i
  have hstanding : watched.blockedState.standingPlan = none := by
    rw [BlockedRunState.standingPlan_dated h.reset, Option.filter_eq_none_iff]
    intro plan hmem
    simpa using hplan plan hmem
  have hdecision : watched.decision i.now (i.random runId) = _ :=
    BlockedRunState.decideParking_dated hstanding h.reset
  rw [WatchedRun.swept, if_pos h.blocked, hdecision] at hrow
  rw [WatchedRun.sweptActions, if_pos h.blocked, hdecision] at hreports
  refine ⟨_, le_add_of_nonneg_right jitterFor_nonneg,
    add_le_add_right jitterFor_le reset, hrow, ?_, ?_⟩
  · rw [hreports]
    rfl
  · rw [hreports]
    rfl

/-- A plan the reset has not overtaken is honoured by the next sweep. -/
theorem honours_of_standing (h : Dated watched reset)
    (hplan : watched.record.run.resumesAt = some plan) (hle : reset ≤ plan)
    (hfind : table.find runId = some watched) (i : WatchdogTick runId) :
    Honours runId watched plan table i := by
  obtain ⟨hrow, hreports⟩ := WatchdogTick.step_row hfind i
  have hstanding : watched.blockedState.standingPlan = some plan := by
    rw [BlockedRunState.standingPlan_dated h.reset,
      show watched.blockedState.resumesAt = some plan from hplan,
      Option.filter_some, if_pos (decide_eq_true hle)]
  have hdecision : watched.decision i.now (i.random runId) = _ :=
    BlockedRunState.decideParking_standing hstanding
  rw [WatchedRun.swept, if_pos h.blocked, hdecision] at hrow
  rw [WatchedRun.sweptActions, if_pos h.blocked, hdecision] at hreports
  by_cases hdue : plan ≤ i.now
  · rw [if_neg (not_lt.mpr hdue)] at hrow hreports
    refine ⟨hrow, ?_⟩
    rw [hreports, if_pos hdue]
    rfl
  · rw [if_pos (not_le.mp hdue)] at hrow hreports
    refine ⟨hrow, ?_⟩
    rw [hreports, if_neg hdue]
    rfl

/-- And by every sweep after it, as none of them writes. -/
theorem always_honours (h : Dated watched reset)
    (hplan : watched.record.run.resumesAt = some plan) (hle : reset ≤ plan)
    (hfind : table.find runId = some watched)
    (ticks : List (WatchdogTick runId)) :
    Machine.Always WatchdogTick.step (Honours runId watched plan) table
      ticks := by
  have hstep : ∀ (s : Table WatchedRun) (i : WatchdogTick runId),
      s.find runId = some watched → Honours runId watched plan s i :=
    fun s i hs => honours_of_standing h hplan hle hs i
  exact Machine.always_of_preserved (fun s i hs => (hstep s i hs).row) hstep
    hfind ticks

/-- No run is woken before its newest reset. -/
theorem reset_le_of_resume
    (hreset : watched.blockedState.resetAt = some reset)
    (hfind : table.find runId = some watched) (i : WatchdogTick runId)
    (hresume : ∃ action ∈ WatchdogTick.reports table i,
      action.type = .resume) : reset ≤ i.now := by
  obtain ⟨action, haction, htype⟩ := hresume
  rw [(WatchdogTick.step_row hfind i).2, WatchedRun.sweptActions] at haction
  by_cases hblocked : watched.isBlocked
  · rw [if_pos hblocked] at haction
    obtain ⟨plan, hstanding, hdue⟩ :=
      BlockedRunState.due_of_resume haction htype
    rw [BlockedRunState.standingPlan_dated hreset] at hstanding
    have hle : reset ≤ plan := by
      simpa using (Option.filter_eq_some_iff.mp hstanding).2
    exact hle.trans hdue
  · rw [if_neg hblocked] at haction
    cases haction

/-- **A dated park is stable and never wakes early.** A sweep that finds no
plan, or one the reset has overtaken, writes a plan between the reset and the
greatest jitter after it, and the sweeps after it keep that plan and wake the
run exactly when it is due. A plan the reset has not overtaken is kept in the
same way. When a batch brings a block with a reset beyond the plan, the next
sweep plans anew. And no sweep wakes the run before its newest reset. -/
theorem dated_park (h : Dated watched reset)
    (hfind : table.find runId = some watched) :
    ((∀ plan ∈ watched.record.run.resumesAt, plan < reset) →
      ∀ (first : WatchdogTick runId) (rest : List (WatchdogTick runId)),
        ∃ plan, reset ≤ plan ∧ plan ≤ reset + maxJitterMs ∧
          Plans runId watched plan table first ∧
          Machine.Always WatchdogTick.step
            (Honours runId (watched.planned plan) plan)
            (WatchdogTick.step table first) rest) ∧
    (∀ plan ∈ watched.record.run.resumesAt, reset ≤ plan →
      ∀ ticks : List (WatchdogTick runId),
        Machine.Always WatchdogTick.step (Honours runId watched plan) table
          ticks) ∧
    (∀ plan ∈ watched.record.run.resumesAt,
      ∀ (events : List RunEventPayload) (later : Table WatchedRun)
        (newer : Instant), Dated (watched.delivered events) newer →
        later.find runId = some (watched.delivered events) → plan < newer →
          ∀ next : WatchdogTick runId,
            ∃ replaced, newer ≤ replaced ∧ replaced ≤ newer + maxJitterMs ∧
              Plans runId (watched.delivered events) replaced later next) ∧
    ∀ i : WatchdogTick runId,
      (∃ action ∈ WatchdogTick.reports table i, action.type = .resume) →
        reset ≤ i.now := by
  refine ⟨fun hplan first rest => ?_, fun plan hplan hle ticks => ?_,
    fun plan hplan events later newer hnewer hlater hlt next => ?_,
    fun i hresume => ?_⟩
  · obtain ⟨plan, hlow, hhigh, hplans⟩ :=
      plans_of_overtaken h hplan hfind first
    exact ⟨plan, hlow, hhigh, hplans,
      always_honours (h.planned plan) rfl hlow hplans.row rest⟩
  · exact always_honours h hplan hle hfind ticks
  · refine plans_of_overtaken hnewer (fun kept hkept => ?_) hlater next
    -- what a batch leaves of the plan is the plan
    have hsame : watched.record.run.resumesAt = some kept :=
      resumesAt_persist hkept
    rw [show watched.record.run.resumesAt = some plan from hplan] at hsame
    rw [← Option.some.inj hsame]
    exact hlt
  · exact reset_le_of_resume h.reset hfind i hresume

end Sweeps

/-! ## A block reported after its reset -/

/-- A block at 1000 whose reset was at 500. -/
def lateBlock : RunEventPayload :=
  { eventOf "e1" .blocked 1000 with
    blocked := some ⟨.quotaExhausted, some 500⟩ }

/-- The run it blocked. -/
def lateRun : WatchedRun where
  record := ((⟨freshRun, []⟩ : RunRecord).persist [lateBlock]).1
  workOrderIdentity := "wo_app_7_a3f91c2_a1"
  repository := "acme/app"
  issueNumber := 7

/-- A table with one run, blocked since before its date. -/
def lateTable : Table WatchedRun where
  rows := [lateRun]
  next := 2
  nodup := by simp
  bounded := by
    intro watched hwatched
    rw [List.mem_singleton.mp hwatched]
    decide

/-- A sweep that draws no jitter. -/
def plainTick (now : Instant) : WatchdogTick 1 where
  now := now
  random := fun _ => ⟨0, zero_isDraw⟩
  elsewhere := id
  keeps := fun _ => rfl

theorem late_find : lateTable.find 1 = some lateRun := by
  decide

theorem late_dated : Dated lateRun 500 := by
  refine ⟨?_, ?_⟩
  · decide
  · decide

/-- **The sweep that plans wakes nothing**, though its plan is due. -/
theorem due_plan_not_woken :
    (WatchdogTick.step lateTable (plainTick 2000)).find 1
        = some (lateRun.planned 500) ∧
      (500 : Instant) ≤ (plainTick 2000).now ∧
      (WatchdogTick.reports lateTable (plainTick 2000)).map (·.type)
        = [.park] := by
  decide +kernel

theorem dated_park_late :
    ∃ plan, (500 : Instant) ≤ plan ∧ plan ≤ 500 + maxJitterMs ∧
      Plans 1 lateRun plan lateTable (plainTick 2000) ∧
      Machine.Always WatchdogTick.step
        (Honours 1 (lateRun.planned plan) plan)
        (WatchdogTick.step lateTable (plainTick 2000)) [plainTick 3000] := by
  refine (dated_park late_dated late_find).1 ?_ (plainTick 2000)
    [plainTick 3000]
  intro plan hplan
  have hnone : lateRun.record.run.resumesAt = none := by decide
  rw [hnone] at hplan
  cases hplan

end Opifex
