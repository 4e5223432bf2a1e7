import Opifex.BlockedParking
import Opifex.WatchedRuns

/-!
# The sweep of the blocked runs

A sweep reads every blocked run with its newest block, decides about each, and
persists the plans it drew. What it does to a run, and what it reports about
it, depends on that run alone (`sweep_row`).
-/

namespace Opifex

open Preference (rank)

/-- The newest block event stored for a run; equal instants fall to the order
of the table. -/
def newestBlock (events : List RunEventRow) : Option RunEventRow :=
  (rank (fun a b => compare b.occurredAt a.occurredAt)
    (events.filter fun event => event.type == .blocked)).head?

namespace WatchedRun

/-- What the sweep knows of a blocked run: the block is the newest one, not
the run's own timestamps. -/
def blockedState (watched : WatchedRun) : BlockedRunState :=
  let event := newestBlock watched.record.events
  { runId := watched.record.run.id
    workOrderIdentity := watched.workOrderIdentity
    repository := watched.repository
    issueNumber := watched.issueNumber
    blockedSince :=
      (event.map (·.occurredAt)).getD watched.record.run.startedAt
    resetAt := event.bind (·.blockedUntil)
    reason := event.bind (·.blockedReason)
    resumesAt := watched.record.run.resumesAt }

end WatchedRun

/-- Since when a run makes no progress: what the sweep tells the ledger of dead time. -/
structure DeadObservation where
  runId : ℕ
  since : Instant
deriving DecidableEq

/-- What a sweep of the blocked runs leaves and reports: the rows with their plans, the
counts, and the actions for the runs that may be resumed. -/
structure BlockedSweep where
  table : Table WatchedRun
  parked : ℕ
  resumable : ℕ
  judgedRunIds : List ℕ
  actions : List ReconcileAction
  deadObservations : List DeadObservation

/-- Blocked runs, with the reason and reset time of their newest block. -/
def loadBlockedRuns (table : Table WatchedRun) : List BlockedRunState :=
  (table.rows.filter WatchedRun.isBlocked).map WatchedRun.blockedState

/-- `run.update({ where: { id }, data: { resumesAt } })`. -/
def writePlan (table : Table WatchedRun) (runId : ℕ) (plan : Instant) :
    Table WatchedRun :=
  table.modify (fun watched => watched.record.run.id == runId)
    (WatchedRun.planned plan) (WatchedRun.key_planned plan)

/-- What the sweep does about one run it read. -/
def sweepOne (now : Instant) (random : ℕ → Draw) (sweep : BlockedSweep)
    (run : BlockedRunState) : BlockedSweep :=
  let decision := run.decideParking now (random run.runId)
  let sweep :=
    { sweep with actions := sweep.actions ++ run.actionsForParking decision }
  match decision with
  -- persisted here, so that the next sweep finds it scheduled and waits
  | .park resumeAt _ =>
    { sweep with
      table := writePlan sweep.table run.runId resumeAt
      parked := sweep.parked + 1 }
  | .resume _ => { sweep with resumable := sweep.resumable + 1 }
  | .waiting _ | .escalate _ => sweep

/-- **Park blocked runs and wake the ones whose time has come.** Each run is
drawn for at most once, so the draws are a function of the run. -/
def sweepBlocked (now : Instant) (random : ℕ → Draw)
    (table : Table WatchedRun) : BlockedSweep :=
  let runs := loadBlockedRuns table
  runs.foldl (sweepOne now random)
    { table := table
      parked := 0
      resumable := 0
      judgedRunIds := runs.map (·.runId)
      actions := []
      deadObservations := runs.map fun run => ⟨run.runId, run.blockedSince⟩ }

/-! ## What a sweep does to one run -/

/-- What the decision writes on the run it is about. -/
def ParkingDecision.write (decision : ParkingDecision)
    (watched : WatchedRun) : WatchedRun :=
  match decision with
  | .park resumeAt _ => watched.planned resumeAt
  | _ => watched

namespace WatchedRun

/-- What a sweep decides about a run it reads. -/
def decision (watched : WatchedRun) (now : Instant) (random : Draw) :
    ParkingDecision :=
  watched.blockedState.decideParking now random

/-- The run after a sweep. -/
def swept (watched : WatchedRun) (now : Instant) (random : Draw) :
    WatchedRun :=
  if watched.isBlocked then (watched.decision now random).write watched
  else watched

/-- What a sweep reports about the run. -/
def sweptActions (watched : WatchedRun) (now : Instant) (random : Draw) :
    List ReconcileAction :=
  if watched.isBlocked then
    watched.blockedState.actionsForParking (watched.decision now random)
  else []

end WatchedRun

/-- The actions that concern one run. -/
def actionsAbout (runId : ℕ) (actions : List ReconcileAction) :
    List ReconcileAction :=
  actions.filter fun action => action.runId == some runId

section Sweep

variable {now : Instant} {random : ℕ → Draw} {sweep : BlockedSweep}
  {run : BlockedRunState} {runs : List BlockedRunState} {runId : ℕ}
  {table : Table WatchedRun} {watched : WatchedRun}

theorem find_sweepOne :
    (sweepOne now random sweep run).table.find runId
      = if run.runId = runId then
          (sweep.table.find runId).map
            (run.decideParking now (random run.runId)).write
        else sweep.table.find runId := by
  unfold sweepOne
  cases hdecision : run.decideParking now (random run.runId) with
  | park resumeAt reason =>
    show (writePlan sweep.table run.runId resumeAt).find runId = _
    rw [writePlan, Table.find_modify]
    cases hfind : sweep.table.find runId with
    | none => rw [Option.map_none, Option.map_none, ite_self]
    | some watched =>
      have hkey : watched.record.run.id = runId :=
        (Table.find_eq_some.mp hfind).2
      rw [Option.map_some, Option.map_some, hkey]
      by_cases h : run.runId = runId
      · rw [if_pos (by simpa using h.symm), if_pos h]
        rfl
      · rw [if_neg (by simpa using Ne.symm h), if_neg h]
  | resume reason =>
    show sweep.table.find runId = _
    rw [show (ParkingDecision.resume reason).write = id from rfl,
      Option.map_id, id, ite_self]
  | waiting reason =>
    show sweep.table.find runId = _
    rw [show (ParkingDecision.waiting reason).write = id from rfl,
      Option.map_id, id, ite_self]
  | escalate reason =>
    show sweep.table.find runId = _
    rw [show (ParkingDecision.escalate reason).write = id from rfl,
      Option.map_id, id, ite_self]

theorem actions_sweepOne :
    (sweepOne now random sweep run).actions
      = sweep.actions ++
          run.actionsForParking (run.decideParking now (random run.runId)) := by
  unfold sweepOne
  cases run.decideParking now (random run.runId) <;> rfl

theorem actionsAbout_self {decision : ParkingDecision}
    (h : run.runId = runId) :
    actionsAbout runId (run.actionsForParking decision)
      = run.actionsForParking decision := by
  refine List.filter_eq_self.mpr fun action haction => ?_
  rw [BlockedRunState.runId_actionsForParking haction, h]
  exact beq_self_eq_true _

theorem actionsAbout_other {decision : ParkingDecision}
    (h : run.runId ≠ runId) :
    actionsAbout runId (run.actionsForParking decision) = [] := by
  refine List.filter_eq_nil_iff.mpr fun action haction => ?_
  rw [BlockedRunState.runId_actionsForParking haction]
  simpa using h

theorem actionsAbout_append {actions more : List ReconcileAction} :
    actionsAbout runId (actions ++ more)
      = actionsAbout runId actions ++ actionsAbout runId more :=
  List.filter_append _ _

/-- Sweeping other runs leaves the run and says nothing about it. -/
theorem foldl_sweepOne_other (h : ∀ run ∈ runs, run.runId ≠ runId) :
    (runs.foldl (sweepOne now random) sweep).table.find runId
        = sweep.table.find runId ∧
      actionsAbout runId (runs.foldl (sweepOne now random) sweep).actions
        = actionsAbout runId sweep.actions := by
  induction runs generalizing sweep with
  | nil => exact ⟨rfl, rfl⟩
  | cons run runs ih =>
    have hrun : run.runId ≠ runId := h run List.mem_cons_self
    obtain ⟨hfind, hactions⟩ := @ih (sweepOne now random sweep run)
      fun other hother => h other (List.mem_cons_of_mem _ hother)
    rw [List.foldl_cons]
    refine ⟨?_, ?_⟩
    · rw [hfind, find_sweepOne, if_neg hrun]
    · rw [hactions, actions_sweepOne, actionsAbout_append,
        actionsAbout_other hrun, List.append_nil]

/-- **A sweep treats each run by itself**: what it does to a run and says
about it is decided from that run alone. -/
theorem sweep_row (h : table.find runId = some watched) :
    (sweepBlocked now random table).table.find runId
        = some (watched.swept now (random runId)) ∧
      actionsAbout runId (sweepBlocked now random table).actions
        = watched.sweptActions now (random runId) := by
  obtain ⟨hmem, hkey⟩ := Table.find_eq_some.mp h
  have hkey : watched.record.run.id = runId := hkey
  unfold sweepBlocked WatchedRun.swept WatchedRun.sweptActions
  by_cases hblocked : watched.isBlocked
  · rw [if_pos hblocked, if_pos hblocked]
    -- the run is read exactly once, as keys name one row
    obtain ⟨before, after, hsplit⟩ :=
      List.append_of_mem (List.mem_filter.mpr ⟨hmem, hblocked⟩)
    have hnodup : ((before ++ watched :: after).map Keyed.key).Nodup :=
      hsplit ▸ table.nodup.sublist (List.filter_sublist.map _)
    have hother : ∀ other, other ∈ before ∨ other ∈ after →
        other.blockedState.runId ≠ runId := by
      intro other hother heq
      rw [List.map_append, List.map_cons, List.nodup_middle,
        List.nodup_cons] at hnodup
      refine hnodup.1 ?_
      rw [← List.map_append]
      refine List.mem_map.mpr ⟨other, List.mem_append.mpr hother, ?_⟩
      exact heq.trans hkey.symm
    have hload : loadBlockedRuns table
        = before.map WatchedRun.blockedState ++
            watched.blockedState :: after.map WatchedRun.blockedState := by
      rw [loadBlockedRuns, hsplit, List.map_append, List.map_cons]
    have hbefore : ∀ run ∈ before.map WatchedRun.blockedState,
        run.runId ≠ runId := by
      intro run hrun
      obtain ⟨other, hmem, rfl⟩ := List.mem_map.mp hrun
      exact hother other (Or.inl hmem)
    have hafter : ∀ run ∈ after.map WatchedRun.blockedState,
        run.runId ≠ runId := by
      intro run hrun
      obtain ⟨other, hmem, rfl⟩ := List.mem_map.mp hrun
      exact hother other (Or.inr hmem)
    have hself : watched.blockedState.runId = runId := hkey
    simp only [hload, List.foldl_append, List.foldl_cons]
    refine ⟨?_, ?_⟩
    · rw [(foldl_sweepOne_other hafter).1, find_sweepOne, if_pos hself,
        (foldl_sweepOne_other hbefore).1, hself, h]
      rfl
    · rw [(foldl_sweepOne_other hafter).2, actions_sweepOne,
        actionsAbout_append, (foldl_sweepOne_other hbefore).2,
        actionsAbout_self hself, hself]
      rfl
  · rw [if_neg hblocked, if_neg hblocked]
    have hother : ∀ run ∈ loadBlockedRuns table, run.runId ≠ runId := by
      intro run hrun heq
      obtain ⟨other, hmem', rfl⟩ := List.mem_map.mp hrun
      have hrow := List.mem_filter.mp hmem'
      have hsame : other = watched :=
        Table.eq_of_key hrow.1 hmem (Eq.trans heq hkey.symm)
      rw [hsame] at hrow
      exact hblocked hrow.2
    obtain ⟨hfind, hactions⟩ := foldl_sweepOne_other hother
    exact ⟨hfind.trans h, hactions⟩

end Sweep

end Opifex
