import Opifex.IngestConfluence
import Opifex.Lib.Machine

/-!
# An ingestion, statement by statement

A delivery is eight database statements in a fixed order; one that has nothing
to do changes nothing. Between them it carries what it read: whether it moved
the newest event forward, what the stored events add up to, and whether it
concluded the run. All of them together are `persist` (`run_program`).

A call that fails at a statement leaves what the earlier ones wrote.
Delivering the batch again repairs that, except where the statement that
failed hangs off a guard its own delivery consumed: the move to blocked or to
running, which only the delivery that moved the newest event forward makes,
and the closing of the attempts, which only the delivery that concluded the
run makes (`repaired_iff`).
-/

namespace Opifex

open HighWater (below raise raise?)

/-- A batch that got past the door: it is not empty, and its newest event's time is at
hand with the proof. -/
structure Batch where
  events : List RunEventPayload
  newest : Instant
  newest_eq : newestOf events = some newest

/-- The database statements of a delivery, in the order in which it executes them. -/
inductive IngestStatement where
  | createMany
  | lastEventAt
  | aggregate
  | costUsd
  | tokensInput
  | tokensOutput
  /-- The update of `blockRun` or `resumeRun`, or the first of
  `concludeRun`. -/
  | status
  /-- The second update of `concludeRun`. -/
  | attempts
deriving DecidableEq, Repr

/-- The statements in the order a delivery executes them. -/
def program : List IngestStatement :=
  [.createMany, .lastEventAt, .aggregate, .costUsd, .tokensInput,
    .tokensOutput, .status, .attempts]

/-- What a delivery carries from one statement to the next: what its updates counted,
and the totals it read. -/
structure Progress where
  /-- `advanced.count > 0`. -/
  advanced : Bool := false
  totals : CostTotals := ⟨none, none, none⟩
  /-- `updated.count > 0` of `concludeRun`. -/
  concluded : Bool := false
deriving DecidableEq

/-- The first update of `concludeRun`. -/
def RunRow.concludeStatus (terminal : RunEventPayload) (run : RunRow) :
    RunRow :=
  if run.status.isLive then run.conclude terminal else run

/-- One statement of a delivery. -/
def execute (batch : Batch) (record : RunRecord) (progress : Progress) :
    IngestStatement → RunRecord × Progress
  | .createMany =>
    ({ record with
        events := createMany record.events (batch.events.map toRow) },
      progress)
  | .lastEventAt =>
    ({ record with run := record.run.moveLastEventAt batch.newest },
      { progress with advanced := below record.run.lastEventAt batch.newest })
  | .aggregate =>
    (record, { progress with totals := aggregate record.events })
  | .costUsd =>
    ({ record with run := record.run.raiseCostUsd progress.totals.costUsd },
      progress)
  | .tokensInput =>
    ({ record with
        run := record.run.raiseTokensInput progress.totals.tokensInput },
      progress)
  | .tokensOutput =>
    ({ record with
        run := record.run.raiseTokensOutput progress.totals.tokensOutput },
      progress)
  | .status =>
    match terminalEventIn batch.events with
    | some terminal =>
      ({ record with run := record.run.concludeStatus terminal },
        { progress with concluded := record.run.status.isLive })
    | none =>
      ({ record with
          run := transition batch.events progress.advanced record.run },
        progress)
  | .attempts =>
    match terminalEventIn batch.events with
    | some terminal =>
      if progress.concluded then
        ({ record with run := record.run.endOpenAttempts terminal }, progress)
      else (record, progress)
    | none => (record, progress)

/-- Some statements of a delivery, one after the other. -/
def executeAll (batch : Batch) (record : RunRecord)
    (statements : List IngestStatement) : RunRecord × Progress :=
  Machine.run (fun state statement => execute batch state.1 state.2 statement)
    (record, {}) statements

variable {batch : Batch} {record : RunRecord}

/-- The row once the columns that only move up are written. -/
def rolledUp (batch : Batch) (record : RunRecord) : RunRow :=
  (record.run.moveLastEventAt batch.newest).rollUpCost
    (aggregate (createMany record.events (batch.events.map toRow)))

theorem rolledUp_status : (rolledUp batch record).status = record.run.status := by
  rw [rolledUp, RunRow.rollUpCost_status, RunRow.moveLastEventAt_status]

theorem rolledUp_attempts : (rolledUp batch record).attempts = record.run.attempts := by
  rw [rolledUp, RunRow.rollUpCost_attempts, RunRow.moveLastEventAt_attempts]

theorem persist_eq :
    (record.persist batch.events).1 =
      { run := transition batch.events
          (below record.run.lastEventAt batch.newest) (rolledUp batch record)
        events := createMany record.events (batch.events.map toRow) } :=
  congrArg (fun run => RunRecord.mk run _) (run_persist batch.newest_eq)

/-- What the statements before the status statement leave. -/
theorem executeAll_rolledUp :
    executeAll batch record
        [.createMany, .lastEventAt, .aggregate, .costUsd, .tokensInput,
          .tokensOutput]
      = ({ run := rolledUp batch record
           events := createMany record.events (batch.events.map toRow) },
          { advanced := below record.run.lastEventAt batch.newest
            totals :=
              aggregate (createMany record.events (batch.events.map toRow))
            concluded := false }) := rfl

theorem executeAll_append (earlier later : List IngestStatement) :
    executeAll batch record (earlier ++ later)
      = later.foldl (fun state statement =>
          execute batch state.1 state.2 statement)
          (executeAll batch record earlier) :=
  List.foldl_append

/-- **The statements of a delivery are the delivery.** -/
theorem run_program :
    (executeAll batch record program).1 = (record.persist batch.events).1 := by
  rw [persist_eq, show program = [.createMany, .lastEventAt, .aggregate,
    .costUsd, .tokensInput, .tokensOutput] ++ [.status, .attempts] from rfl,
    executeAll_append, executeAll_rolledUp]
  simp only [List.foldl_cons, List.foldl_nil]
  cases hterminal : terminalEventIn batch.events with
  | none => simp only [execute, hterminal]
  | some terminal =>
    rw [transition_of_terminal hterminal]
    simp only [execute, hterminal]
    cases hlive : (rolledUp batch record).status.isLive with
    | true =>
      rw [if_pos rfl, RunRow.concludeRun_of_live hlive,
        RunRow.concludeStatus, if_pos hlive]
    | false =>
      rw [if_neg Bool.false_ne_true, RunRow.concludeRun_of_not_live hlive,
        RunRow.concludeStatus, hlive]
      rfl

/-! ## Delivering a batch a second time -/

theorem isStored_insertEvent (stored : List RunEventRow) {row other : RunEventRow}
    (h : isStored stored row = true) :
    isStored (insertEvent stored other) row = true := by
  rw [insertEvent]
  split_ifs
  · exact h
  · rw [isStored, Bool.and_eq_true] at h ⊢
    rw [List.any_append, h.2]
    exact ⟨h.1, rfl⟩

/-- Events that are stored are skipped. -/
theorem createMany_of_stored {stored data : List RunEventRow}
    (h : ∀ row ∈ data, isStored stored row = true) :
    createMany stored data = stored := by
  induction data with
  | nil => rfl
  | cons row data ih =>
    rw [createMany, List.foldl_cons, insertEvent,
      if_pos (h row List.mem_cons_self)]
    exact ih fun other hother => h other (List.mem_cons_of_mem _ hother)

theorem isStored_createMany_of_isStored {stored data : List RunEventRow}
    {row : RunEventRow} (h : isStored stored row = true) :
    isStored (createMany stored data) row = true := by
  induction data generalizing stored with
  | nil => exact h
  | cons other data ih => exact ih (isStored_insertEvent stored h)

/-- A delivered event with an identifier is stored. -/
theorem isStored_createMany {stored data : List RunEventRow}
    {row : RunEventRow} (hid : row.externalId.isSome) (h : row ∈ data) :
    isStored (createMany stored data) row = true := by
  induction data generalizing stored with
  | nil => cases h
  | cons other data ih =>
    obtain rfl | h := List.mem_cons.mp h
    · show isStored (createMany (insertEvent stored row) data) row = true
      refine isStored_createMany_of_isStored ?_
      rw [insertEvent]
      split_ifs with hstored
      · exact hstored
      · rw [isStored, hid, List.any_append]
        simp
    · exact ih h

/-- **Storing a batch again stores nothing.** -/
theorem createMany_createMany (stored : List RunEventRow)
    (events : List RunEventPayload) :
    createMany (createMany stored (events.map toRow)) (events.map toRow)
      = createMany stored (events.map toRow) := by
  refine createMany_of_stored fun row hrow => ?_
  obtain ⟨event, -, rfl⟩ := List.mem_map.mp hrow
  exact isStored_createMany rfl hrow

/-! ## A failure and the redelivery after it -/

/-- The statements before one of them. -/
def statementsBefore (failed : IngestStatement) : List IngestStatement :=
  program.takeWhile fun statement => statement != failed

/-- What a delivery leaves that throws at a statement. -/
def interrupted (failed : IngestStatement) (batch : Batch)
    (record : RunRecord) : RunRecord :=
  (executeAll batch record (statementsBefore failed)).1

/-- Delivering the batch again leaves what one uninterrupted delivery would
have left. -/
def Repaired (failed : IngestStatement) (batch : Batch) (record : RunRecord) :
    Prop :=
  ((interrupted failed batch record).persist batch.events).1
    = (record.persist batch.events).1

/-- The status statement of a batch without an ending would move the run. -/
def MovesStatus (batch : Batch) (run : RunRow) : Prop :=
  below run.lastEventAt batch.newest ∧
    if (blockingEventIn batch.events).isSome then
      run.status = .running ∨ run.status = .stalled
    else run.status = .stalled ∨ run.status = .blocked

/-- The statements after the newest event moved and up to the status. -/
def Between (failed : IngestStatement) : Prop :=
  failed ∈ [IngestStatement.aggregate, .costUsd, .tokensInput, .tokensOutput,
    .status]

instance : DecidablePred Between := fun _ =>
  inferInstanceAs (Decidable (_ ∈ _))

/-- **What a redelivery cannot make up for**: the batch has no ending, the
call failed after moving the newest event forward and before the status
statement that hangs off it; or the batch concludes the run and failed at the
attempts, one of which is open. -/
def Lost (failed : IngestStatement) (batch : Batch) (record : RunRecord) :
    Prop :=
  match terminalEventIn batch.events with
  | none => Between failed ∧ MovesStatus batch record.run
  | some _ =>
    failed = .attempts ∧ record.run.status.isLive ∧
      ∃ attempt ∈ record.run.attempts, attempt.outcome = .running

namespace RunRow

variable {run : RunRow}

/-- Parking changes a run that is running or stalled. -/
theorem blockRun_eq_self :
    run.blockRun = run ↔ ¬ (run.status = .running ∨ run.status = .stalled) := by
  cases hlive : run.status.isLive with
  | false =>
    refine iff_of_true (blockRun_of_not_live hlive) ?_
    rintro (h | h) <;> rw [h] at hlive <;> cases hlive
  | true =>
    constructor
    · intro h hstatus
      have hblocked := status_blockRun hlive
      rw [h] at hblocked
      rw [hblocked] at hstatus
      obtain h | h := hstatus <;> cases h
    · intro h
      have hblocked : run.status = .blocked := by
        cases hstatus : run.status <;> simp_all [RunStatus.isLive]
      rw [blockRun, if_pos hlive, ← hblocked]

/-- Un-parking changes a run that is stalled or blocked. -/
theorem resumeRun_eq_self :
    run.resumeRun = run ↔
      ¬ (run.status = .stalled ∨ run.status = .blocked) := by
  have hresumable : run.isResumable = true ↔
      run.status = .stalled ∨ run.status = .blocked := by
    rw [isResumable, Bool.or_eq_true, beq_iff_eq, beq_iff_eq]
  rw [← hresumable, resumeRun]
  split_ifs with h
  · refine iff_of_false (fun hsame => ?_) (not_not.mpr h)
    have hrunning : RunStatus.running = run.status :=
      congrArg RunRow.status hsame
    rw [isResumable, ← hrunning] at h
    cases h
  · exact iff_of_true rfl h

/-- Closing the open attempts changes a run that has one. -/
theorem endOpenAttempts_eq_self {terminal : RunEventPayload} :
    run.endOpenAttempts terminal = run ↔
      ¬ ∃ attempt ∈ run.attempts, attempt.outcome = .running := by
  constructor
  · rintro hsame ⟨attempt, hattempt, hopen⟩
    have hattempts := congrArg RunRow.attempts hsame
    rw [← hattempts] at hattempt
    -- no attempt is open after closing them
    obtain ⟨before, -, hbefore⟩ := List.mem_map.mp hattempt
    rw [← hbefore] at hopen
    split_ifs at hopen with h hsucceeded
    exact h (beq_iff_eq.mpr hopen)
  · intro hclosed
    have hattempts : (run.endOpenAttempts terminal).attempts = run.attempts := by
      show run.attempts.map _ = run.attempts
      refine (List.map_congr_left fun attempt hattempt => ?_).trans
        (List.map_id _)
      refine if_neg fun h => hclosed ⟨attempt, hattempt, eq_of_beq h⟩
    show { run with attempts := (run.endOpenAttempts terminal).attempts } = run
    rw [hattempts]

end RunRow

section Redelivery

variable {run : RunRow} {failed : IngestStatement}

/-- The record an interruption leaves once the events are stored. -/
def storedWith (batch : Batch) (record : RunRecord) (run : RunRow) :
    RunRecord where
  run := run
  events := createMany record.events (batch.events.map toRow)

/-- A redelivery to a row that has lost nothing but some of the columns that
only move up rolls it up to the same row. -/
theorem persist_storedWith
    (hrolled : rolledUp batch (storedWith batch record run)
      = rolledUp batch record) :
    ((storedWith batch record run).persist batch.events).1
      = storedWith batch record (transition batch.events
          (below run.lastEventAt batch.newest) (rolledUp batch record)) := by
  rw [persist_eq, hrolled, storedWith, createMany_createMany]
  rfl

/-- A row with the counters of the rolled-up one is rolled up already. -/
theorem rolledUp_eq_self
    (hcounters : run.counters = (rolledUp batch record).counters) :
    rolledUp batch (storedWith batch record run) = run := by
  have hstored : createMany (storedWith batch record run).events
      (batch.events.map toRow) = createMany record.events
        (batch.events.map toRow) := createMany_createMany _ _
  rw [rolledUp] at hcounters
  rw [rolledUp, hstored]
  generalize aggregate (createMany record.events (batch.events.map toRow)) = totals
    at hcounters ⊢
  obtain ⟨hlast, husd, hin, hout⟩ := Counters.mk.injEq .. ▸ hcounters
  have hraised : raise run.lastEventAt batch.newest = run.lastEventAt := by
    rw [hlast]
    exact HighWater.raise_raise_self
  have hraisedUsd : raise? run.costUsd totals.costUsd = run.costUsd := by
    rw [husd]
    exact HighWater.raise?_raise?_self
  have hraisedIn : raise? run.tokensInput totals.tokensInput = run.tokensInput := by
    rw [hin]
    exact HighWater.raise?_raise?_self
  have hraisedOut : raise? run.tokensOutput totals.tokensOutput = run.tokensOutput := by
    rw [hout]
    exact HighWater.raise?_raise?_self
  simp only [storedWith, RunRow.rollUpCost, RunRow.moveLastEventAt, RunRow.raiseCostUsd,
    RunRow.raiseTokensInput, RunRow.raiseTokensOutput, hraised, hraisedUsd, hraisedIn,
    hraisedOut]

/-- A redelivery after every counter was written moves the status only to
conclude. -/
theorem persist_of_counters
    (hcounters : run.counters = (rolledUp batch record).counters) :
    ((storedWith batch record run).persist batch.events).1
      = storedWith batch record (transition batch.events false run) := by
  have hbelow : below run.lastEventAt batch.newest = false := by
    rw [show run.lastEventAt = (rolledUp batch record).lastEventAt from
      congrArg Counters.lastEventAt hcounters]
    exact HighWater.below_raise_self
  rw [persist_eq, rolledUp_eq_self hcounters, storedWith,
    createMany_createMany]
  rw [show (RunRecord.mk run _).run.lastEventAt = run.lastEventAt from rfl,
    hbelow]
  rfl

/-- A failure between the two leaves the move to the redelivery, which does
not make it. -/
theorem persist_interrupted_between (h : Between failed) :
    ((interrupted failed batch record).persist batch.events).1
      = storedWith batch record
          (transition batch.events false (rolledUp batch record)) := by
  have hbelow : below (raise record.run.lastEventAt batch.newest) batch.newest
      = false := HighWater.below_raise_self
  obtain ⟨partial', hinterrupted, hlast, hrolled⟩ : ∃ partial' : RunRow,
      interrupted failed batch record = storedWith batch record partial' ∧
      partial'.lastEventAt = raise record.run.lastEventAt batch.newest ∧
      rolledUp batch (storedWith batch record partial')
        = rolledUp batch record := by
    rw [Between] at h
    simp only [List.mem_cons, List.not_mem_nil, or_false] at h
    obtain rfl | rfl | rfl | rfl | rfl := h
    all_goals
      refine ⟨_, rfl, rfl, ?_⟩
      simp only [rolledUp, storedWith, createMany_createMany]
      simp [RunRow.moveLastEventAt, RunRow.rollUpCost, RunRow.raiseCostUsd,
        RunRow.raiseTokensInput, RunRow.raiseTokensOutput, execute]
  rw [hinterrupted, persist_storedWith hrolled, hlast, hbelow]

/-- What the status statement leaves of a batch that concludes the run. -/
theorem interrupted_attempts {terminal : RunEventPayload}
    (h : terminalEventIn batch.events = some terminal) :
    interrupted .attempts batch record
      = storedWith batch record
          ((rolledUp batch record).concludeStatus terminal) := by
  show (execute batch _ _ .status).1 = _
  rw [execute, h]
  rfl

/-- What the status statement leaves of any other batch: all of it. -/
theorem interrupted_attempts_of_none
    (h : terminalEventIn batch.events = none) :
    interrupted .attempts batch record = (record.persist batch.events).1 := by
  rw [persist_eq]
  show (execute batch _ _ .status).1 = _
  rw [execute, h]
  rfl

theorem transition_false_eq_iff
    (h : terminalEventIn batch.events = none) :
    transition batch.events false (rolledUp batch record)
        = transition batch.events (below record.run.lastEventAt batch.newest)
            (rolledUp batch record) ↔
      ¬ MovesStatus batch record.run := by
  rw [transition_not_advanced h, MovesStatus]
  cases below record.run.lastEventAt batch.newest with
  | false => simp [transition_not_advanced h]
  | true =>
    rw [transition_advanced h, eq_comm, ← @rolledUp_status batch record]
    split_ifs
    · rw [RunRow.blockRun_eq_self, and_iff_right rfl]
    · rw [RunRow.resumeRun_eq_self, and_iff_right rfl]

theorem counters_concludeStatus (terminal : RunEventPayload) :
    (run.concludeStatus terminal).counters = run.counters := by
  rw [RunRow.concludeStatus]
  split <;> rfl

/-- Concluding a run a second time makes up for its attempts exactly when none
was open. -/
theorem concludeRun_concludeStatus (terminal : RunEventPayload) :
    (run.concludeStatus terminal).concludeRun terminal
        = run.concludeRun terminal ↔
      ¬ (run.status.isLive ∧
        ∃ attempt ∈ run.attempts, attempt.outcome = .running) := by
  cases hlive : run.status.isLive with
  | false =>
    refine iff_of_true ?_ fun h => Bool.false_ne_true h.1
    rw [RunRow.concludeStatus, hlive]
    rfl
  | true =>
    have hended : (run.conclude terminal).status.isLive = false := by
      show RunStatus.isLive (if terminal.type == .completed then .succeeded
        else .failed) = false
      split <;> rfl
    rw [RunRow.concludeStatus, if_pos hlive,
      RunRow.concludeRun_of_not_live hended, RunRow.concludeRun_of_live hlive,
      eq_comm, RunRow.endOpenAttempts_eq_self, and_iff_right rfl]
    rfl

/-- Two records with the same events are the same when their rows are. -/
theorem storedWith_inj {other : RunRow} :
    storedWith batch record run = storedWith batch record other ↔
      run = other :=
  ⟨congrArg RunRecord.run, congrArg _⟩

end Redelivery

/-- **When redelivery repairs an interrupted ingestion**: exactly when the
failing statement does not hang off a guard its own delivery consumed. -/
theorem repaired_iff (failed : IngestStatement) (batch : Batch)
    (record : RunRecord) :
    Repaired failed batch record ↔ ¬ Lost failed batch record := by
  have hwhole : (record.persist batch.events).1
      = storedWith batch record (transition batch.events
          (below record.run.lastEventAt batch.newest)
          (rolledUp batch record)) := persist_eq
  rw [Repaired, Lost]
  by_cases hbetween : Between failed
  · rw [persist_interrupted_between hbetween, hwhole, storedWith_inj]
    cases hterminal : terminalEventIn batch.events with
    | none =>
      rw [transition_false_eq_iff hterminal]
      exact not_congr (and_iff_right hbetween).symm
    | some terminal =>
      -- a conclusion does not depend on what moved forward
      rw [transition_of_terminal hterminal, transition_of_terminal hterminal]
      refine iff_of_true rfl fun ⟨hattempts, _⟩ => ?_
      rw [hattempts] at hbetween
      exact absurd hbetween (by decide)
  · cases failed with
    | createMany =>
      refine iff_of_true rfl ?_
      split
      · exact fun h => hbetween h.1
      · exact fun h => by cases h.1
    | lastEventAt =>
      refine iff_of_true ?_ ?_
      · rw [hwhole]
        refine persist_storedWith ?_
        rw [rolledUp, rolledUp, storedWith, createMany_createMany]
      · split
        · exact fun h => hbetween h.1
        · exact fun h => by cases h.1
    | attempts =>
      cases hterminal : terminalEventIn batch.events with
      | none =>
        refine iff_of_true ?_ fun h => hbetween h.1
        rw [interrupted_attempts_of_none hterminal, hwhole]
        rw [persist_of_counters counters_transition,
          transition_not_advanced hterminal]
      | some terminal =>
        rw [interrupted_attempts hterminal, hwhole,
          persist_of_counters (counters_concludeStatus _), storedWith_inj,
          transition_of_terminal hterminal, transition_of_terminal hterminal]
        rw [concludeRun_concludeStatus, rolledUp_status, rolledUp_attempts]
        exact not_congr (and_iff_right rfl).symm
    | _ => exact absurd (by decide) hbetween

instance (failed : IngestStatement) (batch : Batch) (record : RunRecord) :
    Decidable (Repaired failed batch record) :=
  inferInstanceAs (Decidable (_ = _))

/-- The block of a running run, its status statement failing: the redelivery
is too old to park the run. -/
theorem block_not_repaired :
    ¬ Repaired .status ⟨[blockEvent], 1000, by decide⟩ ⟨freshRun, []⟩ := by
  decide

end Opifex
