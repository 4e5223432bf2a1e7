import Opifex.BudgetEscalations
import Opifex.EscalationDispatcher
import Opifex.LivenessVerdicts
import Opifex.Watchdog

/-!
# Resolving what has cleared

A tick sweeps the live and the blocked runs, raises an escalation for what it
found, and takes every run it judged and did not escalate about for recovered:
all that is outstanding about such a run is resolved, whatever its kind.

For the kinds the sweep itself raises that is right, and a failed run is never
judged (`cleared_of_recovered`). A budget is checked elsewhere, and a
quarantine is not checked at all, so an escalation of these kinds is resolved
while its condition holds.
-/

namespace Opifex

/-! ## The sweep -/

/-- Why a run makes no progress: nobody hears of it, or it waits for a time that it has
told. -/
inductive DeadTimeKind where
  | stalled
  | parked
deriving DecidableEq, Repr

/-- An action of the diff engine as `raiseFrom` finds it. -/
def ReconcileAction.handed (action : ReconcileAction) : HandedAction where
  type := action.type
  repository := some action.repository
  issueNumber := some action.issueNumber
  reason := action.reason
  evidence := some action.evidence
  runId := action.runId
  escalationKind := action.escalationKind

/-- What a sweep answers: the rows it leaves, what is to be escalated, and the counts of
what it found. -/
structure WatchdogSweepResult where
  table : Table WatchedRun
  runsJudged : ℕ := 0
  /-- Every run the sweep looked at, live and blocked. -/
  judgedRunIds : List ℕ := []
  actions : List HandedAction := []
  silentRuns : ℕ := 0
  loopingRuns : ℕ := 0
  /-- Runs whose runner does not report tool detail. -/
  loopCheckUnavailable : ℕ := 0
  parkedRuns : ℕ := 0
  resumableRuns : ℕ := 0
  /-- Every run that makes no progress, and since when. -/
  deadObservations : List (DeadTimeKind × DeadObservation) := []

section Sweep

variable (fidelityOf : RunnerKey → Option StreamingFidelity) (now : Instant)

namespace WatchedRun

/-- What the loop check says of it. -/
def loop (watched : WatchedRun) : LoopVerdict :=
  detectLoop (fidelityOf watched.record.run.runnerKey) watched.toolObservations

/-- It has gone silent. -/
def isSilent (watched : WatchedRun) : Bool :=
  ((watched.liveState fidelityOf).silence now).isSome

/-- What the loop check makes of a run that is not silent. -/
def loopActions (watched : WatchedRun) : List HandedAction :=
  if (watched.loop fidelityOf).looping then
    actionsForLoop (watched.loop fidelityOf) (watched.liveState fidelityOf)
  else []

end WatchedRun

/-- **Judge every live run**, and park or wake the blocked ones. -/
def watchdogSweep (random : ℕ → Draw) (table : Table WatchedRun) :
    WatchdogSweepResult :=
  let runs := loadLiveRuns table
  let verdicts := detectSilentRuns (runs.map (·.liveState fidelityOf)) now
  let silentIds := verdicts.map (·.runId)
  -- a silent run has no events, and a loop is defined by events flowing
  let checked := runs.filter fun watched =>
    !silentIds.contains watched.record.run.id
  let parking := sweepBlocked now random table
  { table := parking.table
    runsJudged := runs.length
    judgedRunIds := runs.map (·.record.run.id) ++ parking.judgedRunIds
    actions := verdicts.flatMap actionsForSilence ++
      checked.flatMap (·.loopActions fidelityOf) ++
        parking.actions.map ReconcileAction.handed
    silentRuns := verdicts.length
    loopingRuns := checked.countP fun watched =>
      (watched.loop fidelityOf).looping
    loopCheckUnavailable := checked.countP fun watched =>
      !(watched.loop fidelityOf).available
    parkedRuns := parking.parked
    resumableRuns := parking.resumable
    deadObservations :=
      verdicts.map (fun verdict =>
        (.stalled, ⟨verdict.runId, verdict.progressStoppedAt⟩)) ++
        parking.deadObservations.map fun observation => (.parked, observation) }

/-- A sweep that throws is caught, and judged nothing; it leaves the plans it
had written. -/
def sweepWatchdog (random : ℕ → Draw) (table : Table WatchedRun)
    (thrown : Option (Table WatchedRun)) : WatchdogSweepResult :=
  match thrown with
  | some left => { table := left }
  | none => watchdogSweep fidelityOf now random table

end Sweep

/-- **Turn `escalate` actions into escalation records**, and resolve what is
outstanding about the runs that were judged and not escalated. -/
def raiseEscalations (escalations : Table EscalationRow) (raisedAt : Instant)
    (actions : List HandedAction) (judgedRunIds : List ℕ) :
    Table EscalationRow :=
  let raising := raiseFrom escalations raisedAt actions
  match raising.error with
  -- an error is caught, and then nothing is resolved
  | some _ => raising.escalations
  | none =>
    let recovered := recovered actions judgedRunIds
    if recovered = [] then raising.escalations
    else (EscalationWrite.resolveStale recovered).onTable raising.escalations

/-! ## What a tick does to a stored escalation -/

section Raise

variable {escalations : Table EscalationRow} {escalation : EscalationRow}
  {id : ℕ} {raisedAt : Instant} {actions : List HandedAction}
  {judgedRunIds : List ℕ}

/-- Raising leaves the rows that are there. -/
theorem find_raiseFrom (h : escalations.find id = some escalation) :
    (raiseFrom escalations raisedAt actions).escalations.find id
      = some escalation := by
  have hstep : ∀ (raising : Raising) (action : HandedAction),
      raising.escalations.find id = some escalation →
        (raiseOne raisedAt raising action).escalations.find id
          = some escalation := by
    intro raising action hfind
    unfold raiseOne
    split_ifs
    · exact hfind
    · split
      · exact hfind
      · split
        · exact find_onTable _ hfind
        · exact hfind
  exact Machine.run_preserves hstep _ h

/-- The row is one a tick resolves: outstanding, and of a run that is taken
for recovered. -/
def EscalationRow.isCleared (escalation : EscalationRow)
    (actions : List HandedAction) (judgedRunIds : List ℕ) : Bool :=
  escalation.isStale (recovered actions judgedRunIds)

/-- **What a tick does to a stored row**: it is resolved or left alone. -/
theorem find_raiseEscalations (h : escalations.find id = some escalation) :
    (raiseEscalations escalations raisedAt actions judgedRunIds).find id
      = some (if (raiseFrom escalations raisedAt actions).error = none
            ∧ escalation.isCleared actions judgedRunIds
          then escalation.resolve else escalation) := by
  have hraised : (raiseFrom escalations raisedAt actions).escalations.find id
      = some escalation := find_raiseFrom h
  unfold raiseEscalations
  dsimp only
  cases herror : (raiseFrom escalations raisedAt actions).error with
  | some error =>
    dsimp only
    rw [if_neg]
    · exact hraised
    · rintro ⟨hthrew, -⟩
      cases hthrew
  | none =>
    dsimp only
    by_cases hnone : recovered actions judgedRunIds = []
    · have hstale : ¬ escalation.isCleared actions judgedRunIds := by
        rw [EscalationRow.isCleared, hnone, EscalationRow.isStale]
        cases escalation.runId <;> exact Bool.false_ne_true
      rw [if_pos hnone, if_neg fun hboth => hstale hboth.2]
      exact hraised
    · rw [if_neg hnone, find_onTable _ hraised]
      simp only [true_and]
      rfl

theorem mem_recovered {runId : ℕ} :
    runId ∈ recovered actions judgedRunIds
      ↔ runId ∈ judgedRunIds ∧ runId ∉ stillEscalating actions := by
  rw [recovered, List.mem_filter, Bool.not_eq_true', ← Bool.not_eq_true,
    List.contains_iff_mem]

theorem mem_stillEscalating {runId : ℕ} :
    runId ∈ stillEscalating actions
      ↔ ∃ action ∈ actions, action.type = .escalate
          ∧ action.runId = some runId := by
  simp only [stillEscalating, List.mem_filterMap, List.mem_filter, beq_iff_eq,
    and_assoc]

end Raise

/-! ## The condition of a kind -/

namespace WatchedRun

/-- The sweep judges it as a live run. -/
def isWatched (watched : WatchedRun) : Bool :=
  watched.record.run.status == .running ||
    watched.record.run.status == .stalled

/-- What an escalation of a kind is about holds of the run. A run loops only
while events of it flow; that its work order is quarantined is not in its own
row. -/
def Condition (fidelityOf : RunnerKey → Option StreamingFidelity)
    (now : Instant) (random : ℕ → Draw) (quarantinedOrder : ℕ → Prop)
    (watched : WatchedRun) : EscalationKind → Prop
  | .runStalled => watched.isSilent fidelityOf now
  | .runLooping => watched.isWatched ∧ (watched.loop fidelityOf).looping
  | .runFailed => watched.record.run.status = .failed
  | .quarantined => watched.record.run.status = .quarantined
      ∨ quarantinedOrder watched.record.run.workOrderId
  | .budgetExceeded => watched.overrun true ≠ .within
  | .system => watched.isBlocked
      ∧ ∃ reason, watched.decision now (random watched.record.run.id)
          = .escalate reason

end WatchedRun

section Judged

variable {fidelityOf : RunnerKey → Option StreamingFidelity} {now : Instant}
  {random : ℕ → Draw} {table : Table WatchedRun} {watched : WatchedRun}
  {runId : ℕ} {more : List HandedAction}

theorem judgedRunIds_sweepBlocked :
    (sweepBlocked now random table).judgedRunIds
      = (loadBlockedRuns table).map (·.runId) := by
  have hstep : ∀ (sweep : BlockedSweep) (run : BlockedRunState),
      sweep.judgedRunIds = (loadBlockedRuns table).map (·.runId) →
        (sweepOne now random sweep run).judgedRunIds
          = (loadBlockedRuns table).map (·.runId) := by
    intro sweep run h
    unfold sweepOne
    dsimp only
    split <;> exact h
  exact Machine.run_preserves hstep (loadBlockedRuns table) rfl

/-- A run that was judged is running, stalled or blocked. -/
theorem status_of_judged (hfind : table.find runId = some watched)
    (h : runId ∈ (watchdogSweep fidelityOf now random table).judgedRunIds) :
    watched.isWatched ∨ watched.isBlocked := by
  obtain ⟨hmem, hkey⟩ := Table.find_eq_some.mp hfind
  have hsame : ∀ other ∈ table.rows, other.record.run.id = runId →
      other = watched :=
    fun other hother hid => Table.eq_of_key hother hmem (hid.trans hkey.symm)
  have hjudged : runId ∈ (loadLiveRuns table).map (·.record.run.id)
      ++ (sweepBlocked now random table).judgedRunIds := h
  rw [judgedRunIds_sweepBlocked, List.mem_append] at hjudged
  rcases hjudged with hlive | hblocked
  · obtain ⟨other, hother, hid⟩ := List.mem_map.mp hlive
    obtain ⟨hrow, hstatus⟩ := List.mem_filter.mp hother
    rw [hsame other hrow hid] at hstatus
    exact Or.inl hstatus
  · obtain ⟨state, hstate, hid⟩ := List.mem_map.mp hblocked
    obtain ⟨other, hother, rfl⟩ := List.mem_map.mp hstate
    obtain ⟨hrow, hstatus⟩ := List.mem_filter.mp hother
    rw [hsame other hrow hid] at hstatus
    exact Or.inr hstatus

/-- A silent run is escalated, and so is a looping one. -/
theorem exists_escalate_silence (verdict : SilenceVerdict) :
    ∃ action ∈ actionsForSilence verdict, action.type = .escalate
      ∧ action.runId = some verdict.runId :=
  ⟨_, List.mem_cons_of_mem _ List.mem_cons_self, rfl, rfl⟩

theorem exists_escalate_loop (verdict : LoopVerdict) (run : WatchedRunState) :
    ∃ action ∈ actionsForLoop verdict run, action.type = .escalate
      ∧ action.runId = some run.runId :=
  ⟨_, List.mem_cons_of_mem _ List.mem_cons_self, rfl, rfl⟩

/-- What the sweep escalates about a live run. -/
theorem escalates_of_live (hfind : table.find runId = some watched)
    (hwatched : watched.isWatched)
    (h : watched.isSilent fidelityOf now
      ∨ (watched.loop fidelityOf).looping) :
    runId ∈ stillEscalating
      ((watchdogSweep fidelityOf now random table).actions ++ more) := by
  obtain ⟨hmem, hkey⟩ := Table.find_eq_some.mp hfind
  have hid : watched.record.run.id = runId := hkey
  have hlive : watched ∈ loadLiveRuns table :=
    List.mem_filter.mpr ⟨hmem, hwatched⟩
  rw [mem_stillEscalating]
  by_cases hsilent : watched.isSilent fidelityOf now
  · obtain ⟨verdict, hverdict⟩ := Option.isSome_iff_exists.mp hsilent
    obtain ⟨action, haction, htype, hrun⟩ := exists_escalate_silence verdict
    have hdetected : verdict ∈ detectSilentRuns
        ((loadLiveRuns table).map (·.liveState fidelityOf)) now :=
      List.mem_filterMap.mpr ⟨_, List.mem_map_of_mem hlive, hverdict⟩
    refine ⟨action, List.mem_append_left _ (List.mem_append_left _
      (List.mem_append_left _ (List.mem_flatMap.mpr
        ⟨verdict, hdetected, haction⟩))), htype, ?_⟩
    rw [hrun, runId_silence hverdict, ← hid]
    rfl
  · -- no verdict of silence is about the run
    have hchecked : watched ∈ (loadLiveRuns table).filter fun watched =>
        !((detectSilentRuns ((loadLiveRuns table).map
          (·.liveState fidelityOf)) now).map (·.runId)).contains
            watched.record.run.id := by
      refine List.mem_filter.mpr ⟨hlive, ?_⟩
      rw [Bool.not_eq_true', ← Bool.not_eq_true, List.contains_iff_mem]
      intro hlisted
      obtain ⟨verdict, hdetected, hverdictId⟩ := List.mem_map.mp hlisted
      obtain ⟨state, hstate, hverdict⟩ := List.mem_filterMap.mp hdetected
      obtain ⟨other, hother, rfl⟩ := List.mem_map.mp hstate
      have hotherId : other.record.run.id = watched.record.run.id :=
        (runId_silence hverdict).symm.trans hverdictId
      have hsame : other = watched :=
        Table.eq_of_key (List.mem_of_mem_filter hother) hmem hotherId
      rw [hsame] at hverdict
      exact hsilent (Option.isSome_iff_exists.mpr ⟨verdict, hverdict⟩)
    obtain ⟨action, haction, htype, hrun⟩ := exists_escalate_loop
      (watched.loop fidelityOf) (watched.liveState fidelityOf)
    have hloopActions : action ∈ watched.loopActions fidelityOf := by
      rw [WatchedRun.loopActions, if_pos (h.resolve_left hsilent)]
      exact haction
    refine ⟨action, List.mem_append_left _ (List.mem_append_left _
      (List.mem_append_right _ (List.mem_flatMap.mpr
        ⟨watched, hchecked, hloopActions⟩))), htype, ?_⟩
    rw [hrun, ← hid]
    rfl

/-- What the sweep escalates about a blocked run. -/
theorem escalates_of_blocked (hfind : table.find runId = some watched)
    (hblocked : watched.isBlocked) {reason : String}
    (h : watched.decision now (random runId) = .escalate reason) :
    runId ∈ stillEscalating
      ((watchdogSweep fidelityOf now random table).actions ++ more) := by
  have habout : actionsAbout runId (sweepBlocked now random table).actions
      = watched.sweptActions now (random runId) := (sweep_row hfind).2
  rw [WatchedRun.sweptActions, if_pos hblocked, h] at habout
  have hmem : { watched.blockedState.action .escalate reason with
      escalationKind := some .system }
        ∈ (sweepBlocked now random table).actions := by
    refine List.mem_of_mem_filter (p := fun action =>
      action.runId == some runId) ?_
    rw [show (sweepBlocked now random table).actions.filter _ = _ from habout]
    exact List.mem_singleton_self _
  have hid : watched.record.run.id = runId := (Table.find_eq_some.mp hfind).2
  rw [mem_stillEscalating]
  refine ⟨_, List.mem_append_left _ (List.mem_append_right _
    (List.mem_map_of_mem hmem)), rfl, ?_⟩
  exact congrArg some hid

/-- **What the sweep finds is never taken for recovered**: of a run that is,
only its budget and the quarantine of its work order can still be wrong. -/
theorem cleared_of_recovered {quarantinedOrder : ℕ → Prop}
    {kind : EscalationKind} (hfind : table.find runId = some watched)
    (h : runId ∈ recovered
      ((watchdogSweep fidelityOf now random table).actions ++ more)
      (watchdogSweep fidelityOf now random table).judgedRunIds)
    (hholds : watched.Condition fidelityOf now random quarantinedOrder kind) :
    kind = .budgetExceeded ∧ watched.overrun true ≠ .within
      ∨ kind = .quarantined
        ∧ quarantinedOrder watched.record.run.workOrderId := by
  obtain ⟨hjudged, hquiet⟩ := mem_recovered.mp h
  have hstatus := status_of_judged hfind hjudged
  have hid : watched.record.run.id = runId := (Table.find_eq_some.mp hfind).2
  have hnot : ∀ status, watched.record.run.status = status →
      status = .running ∨ status = .stalled ∨ status = .blocked := by
    intro status hvalue
    rw [WatchedRun.isWatched, WatchedRun.isBlocked, hvalue] at hstatus
    revert hstatus
    cases status <;> decide
  cases kind with
  | runStalled =>
    have hlive : watched.isWatched :=
      (isSome_silence.mp hholds).1
    exact absurd (escalates_of_live hfind hlive (Or.inl hholds)) hquiet
  | runLooping =>
    exact absurd (escalates_of_live hfind hholds.1 (Or.inr hholds.2)) hquiet
  | runFailed =>
    have himpossible := hnot .failed hholds
    exact absurd himpossible (by decide)
  | quarantined =>
    refine Or.inr ⟨rfl, hholds.resolve_left fun hvalue => ?_⟩
    exact absurd (hnot .quarantined hvalue) (by decide)
  | budgetExceeded => exact Or.inl ⟨rfl, hholds⟩
  | system =>
    obtain ⟨hblocked, reason, hdecision⟩ := hholds
    rw [hid] at hdecision
    exact absurd (escalates_of_blocked hfind hblocked hdecision) hquiet

end Judged

/-! ## What a tick resolves -/

/-- What a tick finds and what happens around it: the runs, the escalations, and what
the sweep and the diff engine do before the escalations are resolved. -/
structure ResolutionTick where
  table : Table WatchedRun
  escalations : Table EscalationRow
  fidelityOf : RunnerKey → Option StreamingFidelity
  now : Instant
  random : ℕ → Draw
  /-- What the sweep left, if it threw. -/
  thrown : Option (Table WatchedRun) := none
  /-- The actions of the diff engine. -/
  planned : List HandedAction := []
  raisedAt : Instant
  quarantinedOrder : ℕ → Prop := fun _ => False

namespace ResolutionTick

variable (tick : ResolutionTick)

/-- The sweep of a tick. -/
def sweep : WatchdogSweepResult :=
  sweepWatchdog tick.fidelityOf tick.now tick.random tick.table tick.thrown

/-- What a tick hands over to be escalated: what its sweep found, and what its parks ask
for. -/
def actions : List HandedAction := tick.sweep.actions ++ tick.planned

/-- The escalations after the tick. -/
def after : Table EscalationRow :=
  raiseEscalations tick.escalations tick.raisedAt tick.actions
    tick.sweep.judgedRunIds

/-- The condition of a kind holds of a run. -/
def Holds (kind : EscalationKind) (runId : ℕ) : Prop :=
  ∃ watched, tick.table.find runId = some watched
    ∧ watched.Condition tick.fidelityOf tick.now tick.random
        tick.quarantinedOrder kind

/-- **Automatic resolution clears only what has cleared**, and a run the sweep
did not judge resolves nothing. -/
structure OnlyCleared : Prop where
  cleared : ∀ id before after, tick.escalations.find id = some before →
    tick.after.find id = some after → before.status ≠ .resolved →
      after.status = .resolved →
        ∀ runId, before.runId = some runId → ¬ tick.Holds before.kind runId
  dropped : ∀ id before, tick.escalations.find id = some before →
    (∀ runId, before.runId = some runId → runId ∉ tick.sweep.judgedRunIds) →
      tick.after.find id = some before

/-- What nobody checks before it is resolved: the run was judged and not
escalated, and still it is over its budget, or its work order is
quarantined. -/
def Unchecked (watched : WatchedRun) (kind : EscalationKind) : Prop :=
  kind = .budgetExceeded ∧ watched.overrun true ≠ .within
    ∨ kind = .quarantined
      ∧ tick.quarantinedOrder watched.record.run.workOrderId

/-- **A tick resolves only what has cleared** if and only if raising threw, or
none of the runs taken for recovered has an escalation outstanding whose
condition nobody checks and holds. -/
theorem onlyCleared_iff :
    tick.OnlyCleared
      ↔ (raiseFrom tick.escalations tick.raisedAt tick.actions).error ≠ none
        ∨ ∀ id escalation runId watched,
          tick.escalations.find id = some escalation →
            escalation.isUnresolved → escalation.runId = some runId →
              tick.table.find runId = some watched →
                runId ∈ recovered tick.actions tick.sweep.judgedRunIds →
                  ¬ tick.Unchecked watched escalation.kind := by
  constructor
  · rintro ⟨hcleared, -⟩
    refine or_iff_not_imp_left.mpr fun herror => ?_
    rw [not_not] at herror
    intro id escalation runId watched hfind hunresolved hrun hrow hrecovered
      hunchecked
    have hstale : escalation.isCleared tick.actions
        tick.sweep.judgedRunIds := by
      rw [EscalationRow.isCleared, EscalationRow.isStale, hrun, hunresolved,
        Bool.and_true]
      exact List.contains_iff_mem.mpr hrecovered
    have hafter : tick.after.find id = some escalation.resolve :=
      (find_raiseEscalations hfind).trans (by rw [if_pos ⟨herror, hstale⟩])
    have hopen : escalation.status ≠ .resolved :=
      (EscalationRow.isUnresolved_iff.mp hunresolved).2
    refine hcleared id _ _ hfind hafter hopen rfl runId hrun
      ⟨watched, hrow, ?_⟩
    rcases hunchecked with ⟨hkind, hover⟩ | ⟨hkind, horder⟩
    · rw [hkind]
      exact hover
    · rw [hkind]
      exact Or.inr horder
  · intro hcondition
    refine ⟨?_, ?_⟩
    · intro id before after hfind hafter hopen hresolved runId hrun hholds
      obtain ⟨watched, hrow, hwatched⟩ := hholds
      have hnew : tick.after.find id = _ := find_raiseEscalations hfind
      rw [hafter] at hnew
      have hboth : (raiseFrom tick.escalations tick.raisedAt
            tick.actions).error = none
          ∧ before.isCleared tick.actions tick.sweep.judgedRunIds := by
        by_contra hneither
        rw [if_neg hneither] at hnew
        rw [Option.some.inj hnew] at hresolved
        exact hopen hresolved
      obtain ⟨herror, hstale⟩ := hboth
      rw [EscalationRow.isCleared, EscalationRow.isStale, hrun,
        Bool.and_eq_true] at hstale
      have hrecovered : runId ∈ recovered tick.actions
          tick.sweep.judgedRunIds := List.contains_iff_mem.mp hstale.1
      have hno := hcondition.resolve_left (not_not.mpr herror) id before runId
        watched hfind hstale.2 hrun hrow hrecovered
      -- a sweep that threw judged no run
      cases hthrown : tick.thrown with
      | some left =>
        have hsweep : tick.sweep = { table := left } := by
          rw [sweep, hthrown, sweepWatchdog.eq_def]
        rw [hsweep] at hrecovered
        exact absurd (mem_recovered.mp hrecovered).1 List.not_mem_nil
      | none =>
        have hsweep : tick.sweep
            = watchdogSweep tick.fidelityOf tick.now tick.random tick.table := by
          rw [sweep, hthrown, sweepWatchdog.eq_def]
        rw [actions, hsweep] at hrecovered
        exact hno (cleared_of_recovered hrow hrecovered hwatched)
    · intro id before hfind hdropped
      refine (find_raiseEscalations hfind).trans (congrArg some (if_neg ?_))
      rintro ⟨-, hstale⟩
      rw [EscalationRow.isCleared, EscalationRow.isStale,
        Bool.and_eq_true] at hstale
      cases hrun : before.runId with
      | none =>
        rw [hrun] at hstale
        exact Bool.false_ne_true hstale.1
      | some runId =>
        rw [hrun] at hstale
        exact hdropped runId hrun
          (mem_recovered.mp (List.contains_iff_mem.mp hstale.1)).1

end ResolutionTick

/-! ## An overrun that is resolved -/

/-- A run that works and is over its budget, with the overrun escalated. -/
def overBudget : ResolutionTick where
  table :=
    { rows := [Poller.funded.delivered [Poller.costly]]
      next := 2
      nodup := by simp
      bounded := by
        intro watched hwatched
        rw [List.mem_singleton.mp hwatched]
        decide }
  escalations :=
    { rows :=
        [{ id := 1
           runId := some 1
           kind := .budgetExceeded
           summary := "wo_app_7_a3f91c2_a1 hit its budget ceiling (acme/app#7)"
           detail := none
           progressStoppedAt := none
           detectionSource := none
           detectLatencyMs := none
           raisedAt := 3500 }]
      next := 2
      nodup := by simp
      bounded := by
        intro escalation hescalation
        rw [List.mem_singleton.mp hescalation]
        decide }
  fidelityOf := fun _ => some .full
  now := 4000
  random := fun _ => ⟨0, zero_isDraw⟩
  raisedAt := 4000

/-- **An overrun is resolved while the run is over its budget**: the watchdog
judged the run and found it healthy. -/
theorem overrun_resolved : ¬ ∀ tick : ResolutionTick, tick.OnlyCleared := by
  intro h
  have hafter : (overBudget.after.find 1).map (·.status) = some .resolved := by
    decide
  obtain ⟨after, hfind, hstatus⟩ := Option.map_eq_some_iff.mp hafter
  refine (h overBudget).cleared 1 _ after rfl hfind (by decide) hstatus 1 rfl
    ⟨_, rfl, ?_⟩
  show WatchedRun.overrun _ _ ≠ _
  decide +kernel

end Opifex
