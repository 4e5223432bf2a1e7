import Opifex.Lib.Spans
import Opifex.StaleEscalations

/-!
# The dead-time ledger

A pass is handed what the sweep observed and makes the ledger agree with it.
The interval of a run that left the live statuses is closed at its conclusion,
one that makes progress again at its last event, and one that stopped anew at
the start of the new interval, which is opened in the same pass. What the
sweep did not look at is left open.

The pass writes row by row. What it does to the ledger as a whole is said once
(`intervals_record`): every interval is settled by itself, and the intervals
it opens come after.
-/

namespace Opifex

/-- Why an interval ended: the run went on, it came to its end, or its work order was
given up. -/
inductive DeadIntervalEnd where
  | resumed
  | concluded
  | quarantined
deriving DecidableEq, Repr

/-- What a row of the ledger says: that a run made no progress from one moment on, and
until when and why if that is over. -/
structure DeadInterval where
  runId : ℕ
  kind : DeadTimeKind
  /-- When progress stopped. -/
  startedAt : Instant
  /-- Null while it is open. -/
  endedAt : Option Instant := none
  endedBy : Option DeadIntervalEnd := none
deriving DecidableEq

/-- A row of the ledger, under its id. The id is how the closing update names the row.
-/
structure DeadIntervalRow where
  id : ℕ
  interval : DeadInterval
deriving DecidableEq

instance : Keyed DeadIntervalRow := ⟨DeadIntervalRow.id⟩

/-- What the pass reads of an interval's run, to see whether the interval is over and
since when. -/
structure DeadRun where
  status : RunStatus
  lastEventAt : Option Instant
  endedAt : Option Instant
deriving DecidableEq

/-- One call of `record`, with the runs as it finds them. The sweep observes a
run at most once. -/
structure DeadSweep where
  observations : List (DeadTimeKind × DeadObservation)
  judgedRunIds : List ℕ
  run : ℕ → DeadRun
  now : Instant
  once : (observations.map fun observation => observation.2.runId).Nodup

/-- The counts of a pass: what it opened, what it closed and why, and what is still open
after it. -/
structure DeadLedgerResult where
  opened : ℕ := 0
  resumed : ℕ := 0
  concluded : ℕ := 0
  quarantined : ℕ := 0
  /-- Intervals still open after the pass. -/
  «open» : ℕ := 0
deriving DecidableEq

/-- The later of two instants. -/
def latest (a b : Instant) : Instant := if b ≤ a then a else b

namespace DeadInterval

/-- Whether an interval still runs. -/
def isOpen (interval : DeadInterval) : Bool := interval.endedAt.isNone

/-- The interval a new observation opens. -/
def opened (observation : DeadTimeKind × DeadObservation) : DeadInterval where
  runId := observation.2.runId
  kind := observation.1
  startedAt := observation.2.since

/-- The interval, closed at an instant for a reason. -/
def closed (endedAt : Instant) (endedBy : DeadIntervalEnd)
    (interval : DeadInterval) : DeadInterval :=
  { interval with endedAt := some endedAt, endedBy := some endedBy }

end DeadInterval

/-- The ledger: its rows, by their ids. -/
abbrev DeadLedger := Table DeadIntervalRow

namespace DeadLedger

/-- `deadInterval.create`. -/
def opening (observation : DeadTimeKind × DeadObservation)
    (ledger : DeadLedger) : DeadLedger :=
  ledger.insert (fun id => ⟨id, .opened observation⟩) fun _ => rfl

/-- Close one interval, guarded on it still being open. -/
def close (id : ℕ) (endedAt : Instant) (endedBy : DeadIntervalEnd)
    (ledger : DeadLedger) : DeadLedger :=
  ledger.modify (fun row => row.id == id && row.interval.isOpen)
    (fun row => { row with interval := row.interval.closed endedAt endedBy })
    fun _ => rfl

/-- What the rows say, in their order. -/
def intervals (ledger : DeadLedger) : List DeadInterval :=
  ledger.rows.map (·.interval)

end DeadLedger

namespace DeadSweep

/-- `observed.get(runId)`. -/
def observed (sweep : DeadSweep) (runId : ℕ) :
    Option (DeadTimeKind × DeadObservation) :=
  sweep.observations.find? fun observation => observation.2.runId == runId

/-- The pass as it goes along. It carries the ledger as it has written it so far. -/
structure Pass where
  ledger : DeadLedger
  result : DeadLedgerResult := {}
  /-- Runs whose open interval the pass already decided about. -/
  handled : List ℕ := []

/-- What the pass does about one open interval. -/
def reconcile (sweep : DeadSweep) (pass : Pass) (row : DeadIntervalRow) :
    Pass :=
  let interval := row.interval
  let run := sweep.run interval.runId
  let pass := { pass with handled := interval.runId :: pass.handled }
  if !run.status.isLive then
    -- quarantine does not set `endedAt`
    let endedAt := latest (run.endedAt.getD sweep.now) interval.startedAt
    if run.status = .quarantined then
      { pass with
        ledger := pass.ledger.close row.id endedAt .quarantined
        result :=
          { pass.result with quarantined := pass.result.quarantined + 1 } }
    else
      { pass with
        ledger := pass.ledger.close row.id endedAt .concluded
        result := { pass.result with concluded := pass.result.concluded + 1 } }
  else
    match sweep.observed interval.runId with
    | some observation =>
      if observation.1 = interval.kind
          ∧ observation.2.since ≤ interval.startedAt then
        { pass with
          result := { pass.result with «open» := pass.result.open + 1 } }
      else
        -- closed at the new start as it is, without `latest`
        { pass with
          ledger := (pass.ledger.close row.id observation.2.since
            .resumed).opening observation
          result :=
            { pass.result with
              resumed := pass.result.resumed + 1
              opened := pass.result.opened + 1
              «open» := pass.result.open + 1 } }
    | none =>
      if sweep.judgedRunIds.contains interval.runId then
        { pass with
          ledger := pass.ledger.close row.id
            (latest (run.lastEventAt.getD sweep.now) interval.startedAt)
            .resumed
          result := { pass.result with resumed := pass.result.resumed + 1 } }
      else
        { pass with
          result := { pass.result with «open» := pass.result.open + 1 } }

/-- What the pass does about one observation. -/
def openUnhandled (pass : Pass)
    (observation : DeadTimeKind × DeadObservation) : Pass :=
  if pass.handled.contains observation.2.runId then pass
  else
    { pass with
      ledger := pass.ledger.opening observation
      result :=
        { pass.result with
          opened := pass.result.opened + 1
          «open» := pass.result.open + 1 } }

/-- The pass, over the open intervals as it finds them. -/
def pass (sweep : DeadSweep) (ledger : DeadLedger) : Pass :=
  let openIntervals := ledger.rows.filter (·.interval.isOpen)
  sweep.observations.foldl openUnhandled
    (openIntervals.foldl sweep.reconcile { ledger })

/-- **Make the ledger agree with one sweep.** -/
def record (sweep : DeadSweep) (ledger : DeadLedger) :
    DeadLedger × DeadLedgerResult :=
  ((sweep.pass ledger).ledger, (sweep.pass ledger).result)

end DeadSweep

/-- How much of an interval falls inside a window. An open one is treated as
running to the window's end. -/
def overlapMs (interval : DeadInterval) (lower upper : Instant) : ℤ :=
  let start := max interval.startedAt lower
  let stop := min (interval.endedAt.getD upper) upper
  max 0 (stop - start)

/-! ## What a pass does to the ledger -/

namespace DeadSweep

/-- What the pass makes of one interval of the ledger. -/
def settle (sweep : DeadSweep) (interval : DeadInterval) : DeadInterval :=
  let run := sweep.run interval.runId
  if !interval.isOpen then interval
  else if !run.status.isLive then
    interval.closed (latest (run.endedAt.getD sweep.now) interval.startedAt)
      (if run.status = .quarantined then .quarantined else .concluded)
  else
    match sweep.observed interval.runId with
    | some observation =>
      if observation.1 = interval.kind
          ∧ observation.2.since ≤ interval.startedAt then interval
      else interval.closed observation.2.since .resumed
    | none =>
      if sweep.judgedRunIds.contains interval.runId then
        interval.closed
          (latest (run.lastEventAt.getD sweep.now) interval.startedAt) .resumed
      else interval

/-- The observation that stopped an open interval's run anew. -/
def restarted (sweep : DeadSweep) (interval : DeadInterval) :
    Option (DeadTimeKind × DeadObservation) :=
  if (sweep.run interval.runId).status.isLive then
    (sweep.observed interval.runId).filter fun observation =>
      !decide (observation.1 = interval.kind
        ∧ observation.2.since ≤ interval.startedAt)
  else none

/-- The observations of runs that have no open interval. -/
def unhandled (sweep : DeadSweep) (intervals : List DeadInterval) :
    List (DeadTimeKind × DeadObservation) :=
  sweep.observations.filter fun observation =>
    !((intervals.filter (·.isOpen)).map (·.runId)).contains observation.2.runId

/-- The observations the pass opens an interval for. -/
def openings (sweep : DeadSweep) (intervals : List DeadInterval) :
    List (DeadTimeKind × DeadObservation) :=
  (intervals.filter (·.isOpen)).filterMap sweep.restarted ++
    sweep.unhandled intervals

end DeadSweep

namespace DeadLedger

variable {ledger : DeadLedger} {pre post : List DeadIntervalRow}
  {row : DeadIntervalRow}

/-- **Closing an open row changes that row.** -/
theorem rows_close (hrows : ledger.rows = pre ++ row :: post)
    (hopen : row.interval.isOpen) (endedAt : Instant)
    (endedBy : DeadIntervalEnd) :
    (ledger.close row.id endedAt endedBy).rows
      = pre ++ { row with
          interval := row.interval.closed endedAt endedBy } :: post := by
  have hnodup := ledger.nodup
  rw [hrows, List.map_append, List.map_cons] at hnodup
  have hother : ∀ other, other ∈ pre ∨ other ∈ post →
      (other.id == row.id && other.interval.isOpen) = false := by
    intro other hother
    have hne : other.id ≠ row.id := by
      rintro heq
      have hnot := (List.nodup_middle.mp hnodup).notMem
      refine hnot ?_
      rw [← List.map_append]
      refine List.mem_map.mpr ⟨other, ?_, heq⟩
      exact List.mem_append.mpr hother
    rw [beq_eq_false_iff_ne.mpr hne, Bool.false_and]
  show ledger.rows.map _ = _
  rw [hrows, List.map_append, List.map_cons]
  congr 1
  · conv_rhs => rw [← List.map_id pre]
    refine List.map_congr_left fun other hmem => ?_
    exact if_neg (Bool.not_eq_true _ ▸ hother other (Or.inl hmem))
  · congr 1
    · refine if_pos ?_
      show (row.id == row.id && row.interval.isOpen) = true
      rw [hopen, beq_self_eq_true, Bool.and_self]
    · conv_rhs => rw [← List.map_id post]
      refine List.map_congr_left fun other hmem => ?_
      exact if_neg (Bool.not_eq_true _ ▸ hother other (Or.inr hmem))

end DeadLedger

namespace DeadSweep

variable (sweep : DeadSweep) {pass : Pass} {pre post new : List DeadIntervalRow}
  {row : DeadIntervalRow}

/-- **What the pass does about one open interval**: it settles it in its place
and adds what it opens at the end. -/
theorem rows_reconcile (hrows : pass.ledger.rows = pre ++ row :: post ++ new)
    (hopen : row.interval.isOpen) :
    ∃ row' new', (sweep.reconcile pass row).ledger.rows
        = pre ++ row' :: post ++ (new ++ new')
      ∧ row'.interval = sweep.settle row.interval
      ∧ new'.map (·.interval)
        = (sweep.restarted row.interval).toList.map .opened
      ∧ (sweep.reconcile pass row).handled
        = row.interval.runId :: pass.handled := by
  have hrows' : pass.ledger.rows = pre ++ row :: (post ++ new) := by
    rw [hrows, List.append_assoc, List.cons_append]
  have hclose := fun endedAt endedBy =>
    DeadLedger.rows_close hrows' hopen endedAt endedBy
  unfold reconcile settle restarted
  by_cases hlive : (sweep.run row.interval.runId).status.isLive = true
  · simp only [hopen, hlive, Bool.not_true, Bool.false_eq_true, if_false,
      if_true]
    cases hobserved : sweep.observed row.interval.runId with
    | some observation =>
      dsimp only
      by_cases hsame : observation.1 = row.interval.kind
          ∧ observation.2.since ≤ row.interval.startedAt
      · rw [if_pos hsame, if_pos hsame, Option.filter_some,
          decide_eq_true hsame]
        refine ⟨row, [], ?_, rfl, rfl, rfl⟩
        rw [List.append_nil]
        exact hrows
      · rw [if_neg hsame, if_neg hsame, Option.filter_some,
          decide_eq_false hsame]
        refine ⟨⟨row.id, row.interval.closed observation.2.since .resumed⟩,
          [⟨pass.ledger.next, .opened observation⟩], ?_, rfl, rfl, rfl⟩
        show (pass.ledger.close row.id observation.2.since .resumed).rows
          ++ [⟨pass.ledger.next, .opened observation⟩] = _
        rw [hclose]
        simp
    | none =>
      dsimp only
      by_cases hjudged : sweep.judgedRunIds.contains row.interval.runId
      · rw [if_pos hjudged, if_pos hjudged]
        refine ⟨⟨row.id, row.interval.closed
          (latest ((sweep.run row.interval.runId).lastEventAt.getD sweep.now)
            row.interval.startedAt) .resumed⟩, [], ?_, rfl, rfl, rfl⟩
        rw [hclose, List.append_nil, List.append_assoc, List.cons_append]
      · rw [if_neg hjudged, if_neg hjudged]
        refine ⟨row, [], ?_, rfl, rfl, rfl⟩
        rw [List.append_nil]
        exact hrows
  · simp only [hopen, hlive, Bool.not_true, Bool.not_false, Bool.false_eq_true,
      if_false, if_true]
    let endedAt :=
      latest ((sweep.run row.interval.runId).endedAt.getD sweep.now)
        row.interval.startedAt
    by_cases hquarantined :
        (sweep.run row.interval.runId).status = .quarantined
    · rw [if_pos hquarantined, if_pos hquarantined]
      refine ⟨⟨row.id, row.interval.closed endedAt .quarantined⟩, [], ?_, rfl, rfl,
        rfl⟩
      rw [hclose, List.append_nil, List.append_assoc, List.cons_append]
    · rw [if_neg hquarantined, if_neg hquarantined]
      refine ⟨⟨row.id, row.interval.closed endedAt .concluded⟩, [], ?_, rfl, rfl,
        rfl⟩
      rw [hclose, List.append_nil, List.append_assoc, List.cons_append]

/-- What is closed already stays as it is. -/
theorem settle_of_closed {interval : DeadInterval}
    (h : interval.isOpen = false) : sweep.settle interval = interval := by
  unfold settle
  rw [h]
  rfl

/-- The first half of the pass settles every interval. -/
theorem rows_foldl_reconcile (post : List DeadIntervalRow) (pass : Pass)
    (pre new : List DeadIntervalRow)
    (hrows : pass.ledger.rows = pre ++ post ++ new) :
    let final := (post.filter (·.interval.isOpen)).foldl sweep.reconcile pass
    final.ledger.intervals = pre.map (·.interval)
        ++ post.map (fun row => sweep.settle row.interval)
        ++ (new.map (·.interval)
          ++ (((post.filter (·.interval.isOpen)).filterMap fun row =>
            sweep.restarted row.interval).map .opened))
      ∧ ∀ runId, runId ∈ final.handled ↔ runId ∈ pass.handled
        ∨ runId ∈ (post.filter (·.interval.isOpen)).map (·.interval.runId) := by
  induction post generalizing pass pre new with
  | nil =>
    refine ⟨?_, fun runId => by simp⟩
    show pass.ledger.rows.map _ = _
    rw [hrows]
    simp
  | cons row post ih =>
    cases hopen : row.interval.isOpen with
    | false =>
      have hskip : (row :: post).filter (·.interval.isOpen)
          = post.filter (·.interval.isOpen) := by
        rw [List.filter_cons, hopen, if_neg Bool.false_ne_true]
      rw [hskip]
      obtain ⟨hintervals, hhandled⟩ := ih pass (pre ++ [row]) new (by
        rw [hrows, List.append_cons])
      refine ⟨?_, hhandled⟩
      rw [hintervals, List.map_cons, sweep.settle_of_closed hopen]
      simp
    | true =>
      have htake : (row :: post).filter (·.interval.isOpen)
          = row :: post.filter (·.interval.isOpen) := by
        rw [List.filter_cons, hopen, if_pos rfl]
      rw [htake, List.foldl_cons]
      obtain ⟨row', new', hrows', hrow', hnew', hhandled'⟩ :=
        sweep.rows_reconcile hrows hopen
      obtain ⟨hintervals, hhandled⟩ :=
        ih (sweep.reconcile pass row) (pre ++ [row']) (new ++ new') (by
          rw [hrows', List.append_cons])
      refine ⟨?_, fun runId => ?_⟩
      · rw [hintervals, List.map_append, List.map_append, hnew',
          List.filterMap_cons]
        cases hrestarted : sweep.restarted row.interval with
        | none => simp [hrow']
        | some observation => simp [hrow']
      · rw [hhandled, hhandled']
        simp only [List.mem_cons, List.map_cons]
        tauto

/-- The second half opens what is not handled. -/
theorem intervals_foldl_openUnhandled
    (observations : List (DeadTimeKind × DeadObservation)) (pass : Pass) :
    (observations.foldl openUnhandled pass).ledger.intervals
      = pass.ledger.intervals ++ (observations.filter fun observation =>
          !pass.handled.contains observation.2.runId).map .opened := by
  induction observations generalizing pass with
  | nil => simp
  | cons observation observations ih =>
    rw [List.foldl_cons, ih]
    unfold openUnhandled
    cases hhandled : pass.handled.contains observation.2.runId with
    | true =>
      rw [if_pos rfl, List.filter_cons_of_neg (by rw [hhandled]; decide)]
    | false =>
      rw [if_neg (by decide),
        List.filter_cons_of_pos (by rw [hhandled]; decide), List.map_cons]
      show List.map _ (_ ++ [_]) ++ _ = _
      rw [List.map_append, List.append_assoc]
      rfl

/-- **What the pass does**: every interval is settled by itself, and what it
opens comes after. -/
theorem intervals_record (ledger : DeadLedger) :
    (sweep.record ledger).1.intervals
      = ledger.intervals.map sweep.settle
        ++ (sweep.openings ledger.intervals).map .opened := by
  obtain ⟨hintervals, hhandled⟩ := sweep.rows_foldl_reconcile ledger.rows
    { ledger } [] [] (List.append_nil _).symm
  show (sweep.observations.foldl openUnhandled _).ledger.intervals = _
  rw [intervals_foldl_openUnhandled, hintervals]
  have hopen : ledger.intervals.filter (·.isOpen)
      = (ledger.rows.filter (·.interval.isOpen)).map (·.interval) :=
    List.filter_map
  rw [openings, unhandled, hopen, List.filterMap_map, List.map_map]
  have hunhandled : (fun observation : DeadTimeKind × DeadObservation =>
      !((ledger.rows.filter (·.interval.isOpen)).foldl sweep.reconcile
        { ledger }).handled.contains observation.2.runId)
      = fun observation => !((ledger.rows.filter (·.interval.isOpen)).map
        ((·.runId) ∘ (·.interval))).contains observation.2.runId := by
    funext observation
    congr 1
    rw [Bool.eq_iff_iff, List.contains_iff_mem, List.contains_iff_mem,
      hhandled]
    simp
  rw [hunhandled]
  simp [DeadLedger.intervals, Function.comp_def]

end DeadSweep

end Opifex
