import Opifex.IngestStatements
import Opifex.Lib.Interleaving

/-!
# Two deliveries at once

Two batches of a run are ingested concurrently, each statement atomic, in any
order. The columns that only move up come out the same whatever the order: the
newest instant is a maximum, and of two sums over the stored rows the later
one is the larger.

The status is decided by two statements of each delivery, the one that moves
the newest event forward and the one that moves the status. Unless one
delivery executes both of its own **between** those of the other, the outcome
is that of a serial order. If it does, the older block or recovery is written
over the newer one (`serialisable_iff`).
-/

namespace Opifex

open HighWater (below raise raise?)
open Interleaving (tagged)

/-! ## The system of two deliveries -/

/-- The run, and what each delivery carries. Two deliveries share the record; what they
carry is their own. -/
structure Concurrent where
  record : RunRecord
  progress : Party → Progress

/-- One party executes its next statement. -/
def concurrentStep (batch : Party → Batch) (s : Concurrent)
    (turn : Party × IngestStatement) : Concurrent :=
  let executed :=
    execute (batch turn.1) s.record (s.progress turn.1) turn.2
  { record := executed.1
    progress := Function.update s.progress turn.1 executed.2 }

/-- What an interleaving of two deliveries leaves. -/
def interleave (batch : Party → Batch) (record : RunRecord)
    (turns : List (Party × IngestStatement)) : RunRecord :=
  (Machine.run (concurrentStep batch) ⟨record, fun _ => {}⟩ turns).record

/-- What delivering one batch after the other leaves. -/
def serially (batch : Party → Batch) (record : RunRecord) (p : Party) :
    RunRecord :=
  ((record.persist (batch p).events).1.persist (batch p.other).events).1

variable {batch : Party → Batch} {record : RunRecord} {p : Party}
  {turns : List (Party × IngestStatement)}

/-- A party that runs alone executes its own delivery. -/
theorem run_alone (s : Concurrent) (statements : List IngestStatement) :
    let s' := Machine.run (concurrentStep batch) s (statements.map (p, ·))
    let alone := Machine.run
      (fun state statement => execute (batch p) state.1 state.2 statement)
      (s.record, s.progress p) statements
    s'.record = alone.1 ∧ s'.progress p.other = s.progress p.other := by
  induction statements generalizing s with
  | nil => exact ⟨rfl, rfl⟩
  | cons statement statements ih =>
    obtain ⟨hrecord, hprogress⟩ := ih (concurrentStep batch s (p, statement))
    have hne : p.other ≠ p := by cases p <;> decide
    refine ⟨?_, ?_⟩
    · rw [List.map_cons, Machine.run_cons, hrecord, Machine.run_cons]
      show (Machine.run _ (_, Function.update s.progress p _ p) _).1 = _
      rw [Function.update_self]
      rfl
    · rw [List.map_cons, Machine.run_cons, hprogress]
      exact Function.update_of_ne hne _ _

/-- One delivery after the other is an interleaving. -/
theorem interleave_serially :
    interleave batch record
        (program.map (p, ·) ++ program.map (p.other, ·))
      = serially batch record p := by
  obtain ⟨hrecord, hprogress⟩ :=
    @run_alone batch p ⟨record, fun _ => {}⟩ program
  rw [interleave, Machine.run_append,
    (@run_alone batch p.other _ program).1, hrecord, hprogress]
  show (executeAll (batch p.other) (executeAll (batch p) record program).1
    program).1 = _
  rw [run_program, run_program]
  rfl

/-! ### Which statement touches what -/

section Execute

variable (b : Batch) (progress : Progress) (statement : IngestStatement)

theorem events_execute :
    (execute b record progress statement).1.events
      = if statement = .createMany then
          createMany record.events (b.events.map toRow)
        else record.events := by
  cases statement
  case status => rw [execute]; split <;> rfl
  case attempts =>
    rw [if_neg (by decide), execute]
    split
    · split <;> rfl
    · rfl
  all_goals rfl

theorem totals_execute :
    (execute b record progress statement).2.totals
      = if statement = .aggregate then aggregate record.events
        else progress.totals := by
  cases statement
  case status => rw [execute]; split <;> rfl
  case attempts =>
    rw [if_neg (by decide), execute]
    split
    · split <;> rfl
    · rfl
  all_goals rfl

theorem counters_execute
    (h : statement = .status ∨ statement = .attempts) :
    (execute b record progress statement).1.run.counters
      = record.run.counters := by
  obtain rfl | rfl := h
  · rw [execute]
    split
    · exact counters_concludeStatus _
    · exact counters_transition
  · rw [execute]
    split
    · split <;> rfl
    · rfl

end Execute

/-! ## The columns that only move up

Each of the three cost columns is written by one statement from what one other
statement read of the rows that a third one stored. -/

/-- **A cost column** of a run, with what the statements of a delivery do to
it. -/
structure CostColumn (α : Type*) [LinearOrder α] where
  statement : IngestStatement
  read : RunRow → Option α
  total : CostTotals → Option α
  raised : ∀ batch record progress,
    read (execute batch record progress statement).1.run
      = raise? (read record.run) (total progress.totals)
  kept : ∀ batch record progress other, other ≠ statement →
    read (execute batch record progress other).1.run = read record.run
  /-- More rows never add up to less. -/
  mono : ∀ rows more, ∀ current ∈ total (aggregate rows),
    ∃ value ∈ total (aggregate (rows ++ more)), current ≤ value
  statement_mem : statement ∈ [IngestStatement.costUsd, .tokensInput,
    .tokensOutput]

/-- What a delivery's statements are to one cost column: some store events, one reads
the total of them, and one writes it. -/
inductive ColumnStatement where
  | store
  | total
  | write

/-- A cost column on its own, with the events it is a total of and the totals the
deliveries have read. -/
structure ColumnState (α : Type*) where
  events : List RunEventRow
  totals : Party → CostTotals
  value : Option α

namespace CostColumn

variable {α : Type*} [LinearOrder α] (column : CostColumn α)

/-- What a statement is for one column: an insert, a sum, the write of this column, or
nothing. -/
def see (statement : IngestStatement) : Option ColumnStatement :=
  if statement = .createMany then some .store
  else if statement = .aggregate then some .total
  else if statement = column.statement then some .write
  else none

/-- A statement of one of the two batches, for one column alone. -/
def step (batch : Party → Batch) (s : ColumnState α)
    (turn : Party × ColumnStatement) : ColumnState α :=
  match turn.2 with
  | .store =>
    { s with
      events := createMany s.events ((batch turn.1).events.map toRow) }
  | .total =>
    { s with totals := Function.update s.totals turn.1 (aggregate s.events) }
  | .write =>
    { s with
      value := raise? s.value (column.total (s.totals turn.1)) }

/-- The column's part of the system. -/
def part (s : Concurrent) : ColumnState α where
  events := s.record.events
  totals q := (s.progress q).totals
  value := column.read s.record.run

theorem own :
    column.statement ≠ .createMany ∧ column.statement ≠ .aggregate := by
  have h := column.statement_mem
  constructor <;> (intro heq; rw [heq] at h; revert h; decide)

theorem see_program : program.filterMap column.see = [.store, .total, .write] := by
  have h := column.statement_mem
  simp only [List.mem_cons, List.not_mem_nil, or_false] at h
  obtain h | h | h := h <;>
    simp [program, see, h]

theorem part_concurrentStep (s : Concurrent)
    (turn : Party × IngestStatement) :
    column.part (concurrentStep batch s turn)
      = (tagged column.see turn).elim (column.part s)
          (column.step batch (column.part s)) := by
  obtain ⟨q, statement⟩ := turn
  have htotals : (column.part (concurrentStep batch s (q, statement))).totals
      = Function.update (column.part s).totals q
          (execute (batch q) s.record (s.progress q) statement).2.totals :=
    Function.comp_update Progress.totals s.progress q _
  have hother : ∀ statement, statement ≠ .aggregate →
      Function.update (column.part s).totals q
        (execute (batch q) s.record (s.progress q) statement).2.totals
        = (column.part s).totals := by
    intro statement hne
    rw [totals_execute, if_neg hne]
    exact Function.update_eq_self q _
  rw [show column.part (concurrentStep batch s (q, statement)) =
    { events := (execute (batch q) s.record (s.progress q) statement).1.events
      totals := (column.part (concurrentStep batch s (q, statement))).totals
      value := column.read
        (execute (batch q) s.record (s.progress q) statement).1.run } from rfl,
    htotals, events_execute, tagged, see]
  by_cases hstore : statement = .createMany
  · rw [hother _ (by rw [hstore]; decide), if_pos hstore, if_pos hstore,
      column.kept _ _ _ _ (by rw [hstore]; exact column.own.1.symm)]
    rfl
  by_cases htotal : statement = .aggregate
  · rw [totals_execute, if_neg hstore, if_neg hstore, if_pos htotal,
      if_pos htotal,
      column.kept _ _ _ _ (by rw [htotal]; exact column.own.2.symm)]
    rfl
  by_cases hwrite : statement = column.statement
  · rw [hother _ htotal, if_neg hstore, if_neg hstore, if_neg htotal,
      if_pos hwrite, hwrite, column.raised]
    rfl
  · rw [hother _ htotal, if_neg hstore, if_neg hstore, if_neg htotal,
      if_neg hwrite, column.kept _ _ _ _ hwrite]
    rfl

end CostColumn

/-! ### The rows two batches store -/

section Rows

variable {rows rows' more : List RunEventRow} {row other : RunEventRow}

theorem isStored_perm (h : rows.Perm rows') :
    isStored rows row = isStored rows' row := by
  rw [isStored, isStored, h.any_eq]

theorem insertEvent_perm (h : rows.Perm rows') :
    (insertEvent rows row).Perm (insertEvent rows' row) := by
  rw [insertEvent, insertEvent, isStored_perm h]
  split
  · exact h
  · exact h.append_right _

theorem createMany_perm_left (h : rows.Perm rows') :
    (createMany rows more).Perm (createMany rows' more) := by
  induction more generalizing rows rows' with
  | nil => exact h
  | cons row more ih => exact ih (insertEvent_perm h)

/-- Storing a row makes no row with another identifier a duplicate. -/
theorem isStored_insertEvent_of_ne (hid : row.externalId ≠ other.externalId) :
    isStored (insertEvent rows row) other = isStored rows other := by
  rw [insertEvent]
  split
  · rfl
  · rw [isStored, isStored, List.any_append, List.any_cons, List.any_nil,
      beq_eq_false_iff_ne.mpr hid, Bool.or_false, Bool.or_false]

/-- Two rows can be stored in either order, as long as an identifier names one
row. -/
theorem insertEvent_swap
    (hid : row.externalId = other.externalId → row = other) :
    (insertEvent (insertEvent rows row) other).Perm
      (insertEvent (insertEvent rows other) row) := by
  by_cases hsame : row = other
  · rw [hsame]
  have hne : row.externalId ≠ other.externalId := mt hid hsame
  rw [insertEvent, isStored_insertEvent_of_ne hne]
  conv_rhs => rw [insertEvent, isStored_insertEvent_of_ne hne.symm]
  rw [insertEvent, insertEvent]
  cases isStored rows row <;> cases isStored rows other
  · simpa using List.Perm.append_left rows (List.Perm.swap other row [])
  all_goals exact .refl _

theorem createMany_perm {data data' : List RunEventRow}
    (hids : ∀ a ∈ data, ∀ b ∈ data, a.externalId = b.externalId → a = b)
    (h : data.Perm data') :
    (createMany rows data).Perm (createMany rows data') := by
  induction h generalizing rows with
  | nil => exact .refl _
  | cons row _ ih =>
    exact ih fun a ha b hb =>
      hids a (List.mem_cons_of_mem _ ha) b (List.mem_cons_of_mem _ hb)
  | swap row other rest =>
    refine createMany_perm_left (insertEvent_swap ?_)
    exact hids _ (by simp) _ (by simp)
  | trans hfirst _ ih ih' =>
    refine (ih hids).trans (ih' fun a ha b hb => ?_)
    exact hids a (hfirst.mem_iff.mpr ha) b (hfirst.mem_iff.mpr hb)

theorem createMany_append (data data' : List RunEventRow) :
    createMany rows (data ++ data') = createMany (createMany rows data) data' :=
  List.foldl_append

/-- Rows are only ever added. -/
theorem exists_createMany_eq (rows data : List RunEventRow) :
    ∃ more, createMany rows data = rows ++ more := by
  induction data generalizing rows with
  | nil => exact ⟨[], (List.append_nil rows).symm⟩
  | cons row data ih =>
    obtain ⟨more, hmore⟩ := ih (insertEvent rows row)
    rw [createMany, List.foldl_cons]
    rw [createMany] at hmore
    rw [hmore, insertEvent]
    split
    · exact ⟨more, rfl⟩
    · exact ⟨[row] ++ more, List.append_assoc _ _ _⟩

theorem sumOf_def {column : RunEventRow → Option ℕ} :
    sumOf column rows = if rows.filterMap column = [] then none
      else some (rows.filterMap column).sum := by
  rw [sumOf]
  cases rows.filterMap column with
  | nil => rfl
  | cons amount amounts => rfl

theorem sumOf_perm {column : RunEventRow → Option ℕ} (h : rows.Perm rows') :
    sumOf column rows = sumOf column rows' := by
  have hamounts := h.filterMap column
  rw [sumOf_def, sumOf_def, hamounts.sum_eq]
  simp only [← List.length_eq_zero_iff, hamounts.length_eq]

theorem aggregate_perm (h : rows.Perm rows') :
    aggregate rows = aggregate rows' := by
  rw [aggregate, aggregate, sumOf_perm h, sumOf_perm h, sumOf_perm h]

/-- More rows never add up to less. -/
theorem sumOf_append_le {column : RunEventRow → Option ℕ} {current : ℕ}
    (h : current ∈ sumOf column rows) :
    ∃ value ∈ sumOf column (rows ++ more), current ≤ value := by
  rw [sumOf_def] at h
  split_ifs at h with hnil
  · cases h
  · cases h
    have hne : (rows ++ more).filterMap column ≠ [] := by
      rw [List.filterMap_append]
      exact List.append_ne_nil_of_left_ne_nil hnil _
    refine ⟨_, by rw [sumOf_def, if_neg hne]; rfl, ?_⟩
    rw [List.filterMap_append, List.sum_append]
    exact Nat.le_add_right _ _

end Rows

namespace CostColumn

variable {α : Type*} [LinearOrder α] (column : CostColumn α)

/-- **The last of two sums is the larger one**, whichever delivery wrote it:
the three statements of two deliveries leave the column the same in every
order. -/
theorem value_run {s : ColumnState α}
    {turns : List (Party × ColumnStatement)}
    (h : Interleaving [.store, .total, .write] [.store, .total, .write] turns)
    (hids : ∀ a ∈ (batch .first).events.map toRow ++
        (batch .second).events.map toRow,
      ∀ b ∈ (batch .first).events.map toRow ++
        (batch .second).events.map toRow, a.externalId = b.externalId → a = b) :
    (Machine.run (column.step batch) s turns).value
      = raise? s.value (column.total (aggregate (createMany s.events
          ((batch .first).events.map toRow ++
            (batch .second).events.map toRow)))) := by
  set first := (batch .first).events.map toRow with hfirst
  set second := (batch .second).events.map toRow with hsecond
  set whole := column.total (aggregate (createMany s.events (first ++ second)))
    with hwhole
  -- what the first and the second of the two sums can be
  have hlast : column.total
      (aggregate (createMany (createMany s.events first) second)) = whole := by
    rw [hwhole, createMany_append]
  have hlast' : column.total
      (aggregate (createMany (createMany s.events second) first)) = whole := by
    rw [hwhole, ← createMany_append,
      aggregate_perm (createMany_perm hids List.perm_append_comm)]
  have hpart : ∀ current ∈ column.total (aggregate (createMany s.events first)),
      ∃ value ∈ whole, current ≤ value := by
    obtain ⟨more, hmore⟩ :=
      exists_createMany_eq (createMany s.events first) second
    rw [← hlast, hmore]
    exact column.mono _ more
  have hpart' : ∀ current ∈ column.total (aggregate (createMany s.events second)),
      ∃ value ∈ whole, current ≤ value := by
    obtain ⟨more, hmore⟩ :=
      exists_createMany_eq (createMany s.events second) first
    rw [← hlast', hmore]
    exact column.mono _ more
  have hboth : raise? (raise? s.value whole) whole = raise? s.value whole :=
    HighWater.raise?_raise?_self
  have hwhole₁ : raise? (raise? s.value
      (column.total (aggregate (createMany s.events first)))) whole
        = raise? s.value whole := HighWater.raise?_raise?_whole hpart
  have hwhole₂ : raise? (raise? s.value
      (column.total (aggregate (createMany s.events second)))) whole
        = raise? s.value whole := HighWater.raise?_raise?_whole hpart'
  have hpart₁ : raise? (raise? s.value whole)
      (column.total (aggregate (createMany s.events first)))
        = raise? s.value whole := HighWater.raise?_raise?_part hpart
  have hpart₂ : raise? (raise? s.value whole)
      (column.total (aggregate (createMany s.events second)))
        = raise? s.value whole := HighWater.raise?_raise?_part hpart'
  rcases h with _ | h | h <;> rcases h with _ | h | h <;>
    rcases h with _ | h | h <;> rcases h with _ | h | h <;>
    rcases h with _ | h | h <;> rcases h with _ | h | h <;>
    rcases h with _ | h | h
  all_goals
    simp only [Machine.run_cons, Machine.run_nil, step, Function.update_self,
      ne_eq, reduceCtorEq, not_false_eq_true, Function.update_of_ne,
      ← hfirst, ← hsecond, hlast, hlast']
    first
      | exact hboth
      | exact hwhole₁
      | exact hwhole₂
      | exact hpart₁
      | exact hpart₂

end CostColumn

/-- The events of two batches of one run: an identifier names one event. -/
def SharedIds (batch : Party → Batch) : Prop :=
  ∀ a ∈ (batch .first).events ++ (batch .second).events,
    ∀ b ∈ (batch .first).events ++ (batch .second).events,
      a.eventId = b.eventId → a = b

namespace CostColumn

variable {α : Type*} [LinearOrder α] (column : CostColumn α)

/-- **A cost column ends the same in every interleaving.** -/
theorem read_interleave (hids : SharedIds batch)
    (h : Interleaving program program turns) :
    column.read (interleave batch record turns).run
      = raise? (column.read record.run)
          (column.total (aggregate (createMany record.events
            ((batch .first).events.map toRow ++
              (batch .second).events.map toRow)))) := by
  have hrows : ∀ a ∈ (batch .first).events.map toRow ++
        (batch .second).events.map toRow,
      ∀ b ∈ (batch .first).events.map toRow ++
        (batch .second).events.map toRow,
      a.externalId = b.externalId → a = b := by
    rw [← List.map_append]
    intro a ha b hb hab
    obtain ⟨e, he, rfl⟩ := List.mem_map.mp ha
    obtain ⟨f, hf, rfl⟩ := List.mem_map.mp hb
    rw [hids e he f hf (Option.some.inj hab)]
  have hturns := h.filterMap column.see
  rw [column.see_program] at hturns
  have hproject := Machine.run_project column.part (column.step batch)
    (tagged column.see) column.part_concurrentStep
    ⟨record, fun _ => {}⟩ turns
  have hvalue := column.value_run hturns hrows (s := column.part
    ⟨record, fun _ => {}⟩)
  rw [← hproject] at hvalue
  exact hvalue

end CostColumn

/-- The cost of a run, in dollars. -/
def usdColumn : CostColumn Usd where
  statement := .costUsd
  read run := run.costUsd
  total totals := totals.costUsd
  raised _ _ _ := rfl
  kept b record progress other hne := by
    cases other
    case costUsd => exact absurd rfl hne
    case status =>
      exact congrArg Counters.costUsd (counters_execute b progress _ (.inl rfl))
    case attempts =>
      exact congrArg Counters.costUsd (counters_execute b progress _ (.inr rfl))
    all_goals rfl
  mono rows more current hcurrent := by
    obtain ⟨total, htotal, rfl⟩ := Option.mem_map.mp hcurrent
    obtain ⟨value, hvalue, hle⟩ := sumOf_append_le htotal
    exact ⟨⟨value⟩, Option.mem_map.mpr ⟨value, hvalue, rfl⟩, hle⟩
  statement_mem := by decide

/-- The tokens a run read. -/
def tokensInputColumn : CostColumn ℕ where
  statement := .tokensInput
  read run := run.tokensInput
  total totals := totals.tokensInput
  raised _ _ _ := rfl
  kept b record progress other hne := by
    cases other
    case tokensInput => exact absurd rfl hne
    case status =>
      exact congrArg Counters.tokensInput
        (counters_execute b progress _ (.inl rfl))
    case attempts =>
      exact congrArg Counters.tokensInput
        (counters_execute b progress _ (.inr rfl))
    all_goals rfl
  mono _ _ _ hcurrent := sumOf_append_le hcurrent
  statement_mem := by decide

/-- The tokens a run wrote. -/
def tokensOutputColumn : CostColumn ℕ where
  statement := .tokensOutput
  read run := run.tokensOutput
  total totals := totals.tokensOutput
  raised _ _ _ := rfl
  kept b record progress other hne := by
    cases other
    case tokensOutput => exact absurd rfl hne
    case status =>
      exact congrArg Counters.tokensOutput
        (counters_execute b progress _ (.inl rfl))
    case attempts =>
      exact congrArg Counters.tokensOutput
        (counters_execute b progress _ (.inr rfl))
    all_goals rfl
  mono _ _ _ hcurrent := sumOf_append_le hcurrent
  statement_mem := by decide

/-! ## The status

Of each delivery two statements matter to the status: the one that moves the
newest event forward, and the one that moves the status. -/

/-- What ingestion decides about the life of a run: its status, and when it ended. -/
structure Standing where
  status : RunStatus
  endedAt : Option Instant
deriving DecidableEq

/-- The standing of a row: its status, and when it ended. -/
def RunRow.standing (run : RunRow) : Standing := ⟨run.status, run.endedAt⟩

namespace Standing

/-- A block reaches the status of a run that is live, and no other. -/
def block (standing : Standing) : Standing :=
  if standing.status.isLive then { standing with status := .blocked } else standing

/-- So does an event that ends a block. -/
def resume (standing : Standing) : Standing :=
  if standing.status.isLive then { standing with status := .running } else standing

/-- The first terminal event to reach a live run concludes it. -/
def conclude (terminal : RunEventPayload) (standing : Standing) : Standing :=
  if standing.status.isLive then
    ⟨conclusionOf terminal, some terminal.occurredAt⟩
  else standing

/-- What the status statement of a batch makes of it. -/
def settle (b : Batch) (advanced : Bool) (standing : Standing) : Standing :=
  match terminalEventIn b.events with
  | some terminal => standing.conclude terminal
  | none =>
    if advanced then
      if (blockingEventIn b.events).isSome then standing.block else standing.resume
    else standing

end Standing

/-- What a delivery's statements are to the status: one moves the time of the newest
event on, and one settles the status by it. -/
inductive KeyStatement where
  | advance
  | settle
deriving DecidableEq, Repr

/-- What a statement is for the status: it moves the clock of the run, or it settles the
status. -/
def keyOf : IngestStatement → Option KeyStatement
  | .lastEventAt => some .advance
  | .status => some .settle
  | _ => none

/-- The part of the system the status depends on. The rest of a delivery does not touch
it. -/
structure KeyState where
  lastEventAt : Option Instant
  standing : Standing
  advanced : Party → Bool

/-- A statement of one of the two batches, for the clock and the status alone. -/
def keyStep (batch : Party → Batch) (s : KeyState)
    (turn : Party × KeyStatement) : KeyState :=
  match turn.2 with
  | .advance =>
    { s with
      lastEventAt := raise s.lastEventAt (batch turn.1).newest
      advanced := Function.update s.advanced turn.1
        (below s.lastEventAt (batch turn.1).newest) }
  | .settle =>
    { s with
      standing := s.standing.settle (batch turn.1) (s.advanced turn.1) }

/-- The part of a state that the clock and the status depend on. -/
def keyPart (s : Concurrent) : KeyState where
  lastEventAt := s.record.run.lastEventAt
  standing := s.record.run.standing
  advanced q := (s.progress q).advanced

section KeyPart

variable {run : RunRow}

theorem stage_blockRun : run.blockRun.standing = run.standing.block := by
  rw [RunRow.blockRun, Standing.block]
  show _ = if run.status.isLive then _ else _
  split <;> rfl

theorem stage_resumeRun : run.resumeRun.standing = run.standing.resume := by
  rw [Standing.resume]
  show _ = if run.status.isLive then _ else _
  cases hlive : run.status.isLive with
  | false => rw [RunRow.resumeRun_of_not_live hlive]; rfl
  | true =>
    rw [if_pos rfl, RunRow.standing, RunRow.status_resumeRun hlive,
      RunRow.resumeRun]
    split <;> rfl

theorem stage_concludeStatus (terminal : RunEventPayload) :
    (run.concludeStatus terminal).standing = run.standing.conclude terminal := by
  rw [RunRow.concludeStatus, Standing.conclude]
  show _ = if run.status.isLive then _ else _
  split <;> rfl

theorem stage_status (b : Batch) (progress : Progress) :
    (execute b record progress .status).1.run.standing
      = record.run.standing.settle b progress.advanced := by
  rw [execute, Standing.settle]
  cases hterminal : terminalEventIn b.events with
  | some terminal => exact stage_concludeStatus terminal
  | none =>
    show (transition b.events progress.advanced record.run).standing = _
    cases progress.advanced with
    | false => rw [transition_not_advanced hterminal]; rfl
    | true =>
      rw [transition_advanced hterminal]
      show _ = if (blockingEventIn b.events).isSome then _ else _
      split
      · exact stage_blockRun
      · exact stage_resumeRun

variable (b : Batch) (progress : Progress) (statement : IngestStatement)

theorem advanced_execute :
    (execute b record progress statement).2.advanced
      = if statement = .lastEventAt then below record.run.lastEventAt b.newest
        else progress.advanced := by
  cases statement
  case status => rw [execute]; split <;> rfl
  case attempts =>
    rw [if_neg (by decide), execute]
    split
    · split <;> rfl
    · rfl
  all_goals rfl

theorem lastEventAt_execute :
    (execute b record progress statement).1.run.lastEventAt
      = if statement = .lastEventAt then raise record.run.lastEventAt b.newest
        else record.run.lastEventAt := by
  cases statement
  case status =>
    exact congrArg Counters.lastEventAt (counters_execute b progress _ (.inl rfl))
  case attempts =>
    exact congrArg Counters.lastEventAt (counters_execute b progress _ (.inr rfl))
  all_goals rfl

theorem stage_execute :
    (execute b record progress statement).1.run.standing
      = if statement = .status then record.run.standing.settle b progress.advanced
        else record.run.standing := by
  cases statement
  case status => exact stage_status b progress
  case attempts =>
    rw [if_neg (by decide), execute]
    split
    · split <;> rfl
    · rfl
  all_goals rfl

end KeyPart

theorem keyPart_concurrentStep (s : Concurrent)
    (turn : Party × IngestStatement) :
    keyPart (concurrentStep batch s turn)
      = (tagged keyOf turn).elim (keyPart s) (keyStep batch (keyPart s)) := by
  obtain ⟨q, statement⟩ := turn
  have hadvanced : (keyPart (concurrentStep batch s (q, statement))).advanced
      = Function.update (keyPart s).advanced q
          (execute (batch q) s.record (s.progress q) statement).2.advanced :=
    Function.comp_update Progress.advanced s.progress q _
  rw [show keyPart (concurrentStep batch s (q, statement)) =
    { lastEventAt :=
        (execute (batch q) s.record (s.progress q) statement).1.run.lastEventAt
      standing := (execute (batch q) s.record (s.progress q) statement).1.run.standing
      advanced := (keyPart (concurrentStep batch s (q, statement))).advanced }
    from rfl, hadvanced, advanced_execute, lastEventAt_execute, stage_execute]
  have hsame : Function.update (keyPart s).advanced q (s.progress q).advanced
      = (keyPart s).advanced := Function.update_eq_self q _
  cases statement
  case lastEventAt => rfl
  all_goals
    simp only [reduceCtorEq, if_false, if_true, hsame]
    rfl

/-- The status after an interleaving, from the order of four statements. -/
theorem stage_interleave :
    (interleave batch record turns).run.standing
      = (Machine.run (keyStep batch)
          ⟨record.run.lastEventAt, record.run.standing, fun _ => false⟩
          (turns.filterMap (tagged keyOf))).standing :=
  congrArg KeyState.standing (Machine.run_project keyPart (keyStep batch)
    (tagged keyOf) keyPart_concurrentStep ⟨record, fun _ => {}⟩ turns)

/-- The newest instant after an interleaving. -/
theorem lastEventAt_interleave (h : Interleaving program program turns) :
    (interleave batch record turns).run.lastEventAt
      = raise (raise record.run.lastEventAt (batch .first).newest)
          (batch .second).newest := by
  have hproject := congrArg KeyState.lastEventAt
    (Machine.run_project keyPart (keyStep batch) (tagged keyOf)
      keyPart_concurrentStep ⟨record, fun _ => {}⟩ turns)
  refine hproject.trans ?_
  obtain ⟨q, hq | hq | hq⟩ := (h.filterMap keyOf).pairs
  all_goals
    rw [hq]
    cases q
    · rfl
    · exact HighWater.raise_comm

/-- **The counters end the same in every interleaving.** -/
theorem counters_interleave (hids : SharedIds batch)
    {turns' : List (Party × IngestStatement)}
    (h : Interleaving program program turns)
    (h' : Interleaving program program turns') :
    (interleave batch record turns).run.counters
      = (interleave batch record turns').run.counters := by
  rw [RunRow.counters, RunRow.counters, lastEventAt_interleave h,
    lastEventAt_interleave h']
  rw [show (interleave batch record turns).run.costUsd = _ from
      usdColumn.read_interleave hids h,
    show (interleave batch record turns').run.costUsd = _ from
      usdColumn.read_interleave hids h',
    show (interleave batch record turns).run.tokensInput = _ from
      tokensInputColumn.read_interleave hids h,
    show (interleave batch record turns').run.tokensInput = _ from
      tokensInputColumn.read_interleave hids h',
    show (interleave batch record turns).run.tokensOutput = _ from
      tokensOutputColumn.read_interleave hids h,
    show (interleave batch record turns').run.tokensOutput = _ from
      tokensOutputColumn.read_interleave hids h']

/-! ## One delivery inside the other -/

/-- **The older delivery writes last.** Neither batch has an ending, both move
the newest event forward when the older one does so first, the run is live,
and one of the batches ends on a block and the other does not. -/
structure Overtaken (run : RunRow) (older newer : Batch) : Prop where
  olderOpen : terminalEventIn older.events = none
  newerOpen : terminalEventIn newer.events = none
  moves : below run.lastEventAt older.newest
  later : older.newest < newer.newest
  live : run.status.isLive
  differ : (blockingEventIn older.events).isSome
    ≠ (blockingEventIn newer.events).isSome

namespace Standing

variable {standing : Standing} {b older newer : Batch} {advanced advanced' : Bool}

theorem settle_of_not_live (h : standing.status.isLive = false) :
    standing.settle b advanced = standing := by
  rw [settle]
  split
  · rw [conclude, h]; rfl
  · split
    · split
      · rw [block, h]; rfl
      · rw [resume, h]; rfl
    · rfl

theorem settle_not_advanced (h : terminalEventIn b.events = none) :
    standing.settle b false = standing := by
  rw [settle, h]
  rfl

theorem settle_of_terminal {terminal : RunEventPayload}
    (h : terminalEventIn b.events = some terminal) :
    standing.settle b advanced = standing.conclude terminal := by
  rw [settle, h]

/-- A live run is parked or running after a batch that moved forward. -/
theorem settle_advanced (h : terminalEventIn b.events = none)
    (hlive : standing.status.isLive = true) :
    standing.settle b true
      = { standing with
          status := if (blockingEventIn b.events).isSome then .blocked
            else .running } := by
  rw [settle, h]
  show (if (blockingEventIn b.events).isSome then standing.block
    else standing.resume) = _
  split
  · rw [block, if_pos hlive]
  · rw [resume, if_pos hlive]

theorem isLive_settle (h : terminalEventIn b.events = none)
    (hlive : standing.status.isLive = true) :
    (standing.settle b advanced).status.isLive = true := by
  cases advanced with
  | false => rw [settle_not_advanced h]; exact hlive
  | true =>
    rw [settle_advanced h hlive]
    show RunStatus.isLive (if _ then _ else _) = true
    split <;> rfl

theorem conclude_of_live {terminal : RunEventPayload}
    (hlive : standing.status.isLive = true) :
    standing.conclude terminal
      = ⟨conclusionOf terminal, some terminal.occurredAt⟩ := by
  rw [conclude, if_pos hlive]

theorem not_live_conclude {terminal : RunEventPayload} :
    (standing.conclude terminal).status.isLive = false := by
  rw [conclude]
  cases hlive : standing.status.isLive with
  | false => exact hlive
  | true =>
    show (conclusionOf terminal).isLive = false
    rw [conclusionOf]
    split <;> rfl

/-- An ending absorbs whatever the other delivery did to the status. -/
theorem conclude_settle {terminal : RunEventPayload} :
    (standing.settle b advanced).conclude terminal
      = (standing.settle b advanced').conclude terminal := by
  cases hlive : standing.status.isLive with
  | false => rw [settle_of_not_live hlive, settle_of_not_live hlive]
  | true =>
    cases h : terminalEventIn b.events with
    | some other => rw [settle_of_terminal h, settle_of_terminal h]
    | none =>
      rw [conclude_of_live (isLive_settle h hlive),
        conclude_of_live (isLive_settle h hlive)]

end Standing

section Nested

variable {run : RunRow} {older newer : Batch}

/-- The last of two batches that moved forward decides the status. -/
theorem settle_settle (holder : terminalEventIn older.events = none)
    (hnewer : terminalEventIn newer.events = none)
    (hlive : run.standing.status.isLive = true) :
    (run.standing.settle older true).settle newer true
      = { run.standing with
          status := if (blockingEventIn newer.events).isSome then .blocked
            else .running } := by
  rw [Standing.settle_advanced hnewer (Standing.isLive_settle holder hlive),
    Standing.settle_advanced holder hlive]

/-- **One delivery inside the other**: the outcome is that of a serial order
unless the older delivery overwrites what the newer one said. -/
theorem nested_iff :
    ((run.standing.settle newer
        (below (raise run.lastEventAt older.newest) newer.newest)).settle older
          (below run.lastEventAt older.newest)
      = (run.standing.settle older (below run.lastEventAt older.newest)).settle
          newer (below (raise run.lastEventAt older.newest) newer.newest) ∨
    (run.standing.settle newer
        (below (raise run.lastEventAt older.newest) newer.newest)).settle older
          (below run.lastEventAt older.newest)
      = (run.standing.settle newer (below run.lastEventAt newer.newest)).settle
          older (below (raise run.lastEventAt newer.newest) older.newest)) ↔
    ¬ Overtaken run older newer := by
  cases holder : terminalEventIn older.events with
  | some terminal =>
    refine iff_of_true (Or.inr ?_) fun h => by
      rw [h.olderOpen] at holder; cases holder
    rw [Standing.settle_of_terminal holder, Standing.settle_of_terminal holder]
    exact Standing.conclude_settle
  | none =>
    cases hnewer : terminalEventIn newer.events with
    | some terminal =>
      refine iff_of_true (Or.inr ?_) fun h => by
        rw [h.newerOpen] at hnewer; cases hnewer
      rw [Standing.settle_of_terminal hnewer, Standing.settle_of_terminal hnewer,
        Standing.settle_of_not_live Standing.not_live_conclude,
        Standing.settle_of_not_live Standing.not_live_conclude]
    | none =>
      cases hlive : run.standing.status.isLive with
      | false =>
        refine iff_of_true (Or.inl ?_) fun h => by
          have := h.live
          rw [show run.status.isLive = false from hlive] at this
          cases this
        rw [Standing.settle_of_not_live hlive, Standing.settle_of_not_live hlive,
          Standing.settle_of_not_live hlive]
      | true =>
        rw [HighWater.below_raise, HighWater.below_raise]
        cases hmoves : below run.lastEventAt older.newest with
        | false =>
          -- the older batch moves nothing at all
          refine iff_of_true (Or.inl ?_) fun h => by
            have := h.moves
            rw [hmoves] at this
            cases this
          rw [Standing.settle_not_advanced holder, Standing.settle_not_advanced holder]
        | true =>
          by_cases hlt : older.newest < newer.newest
          · have hmoves' : below run.lastEventAt newer.newest = true :=
              HighWater.below_iff.mpr fun current hcurrent =>
                (HighWater.below_iff.mp hmoves current hcurrent).trans hlt
            rw [hmoves', decide_eq_true hlt, decide_eq_false hlt.not_gt,
              Bool.and_true, Bool.and_false, Standing.settle_not_advanced holder,
              settle_settle hnewer holder hlive,
              settle_settle holder hnewer hlive,
              Standing.settle_advanced hnewer hlive, or_self]
            -- both serial orders end on the newer batch
            have hsame : ∀ x y : Bool,
                Standing.mk (if x then .blocked else .running) run.standing.endedAt
                  = Standing.mk (if y then .blocked else .running)
                      run.standing.endedAt ↔ x = y := by
              intro x y
              cases x <;> cases y <;> simp
            rw [hsame]
            exact ⟨fun heq h => h.differ heq, fun h => by
              by_contra hne
              exact h ⟨holder, hnewer, hmoves, hlt, hlive, hne⟩⟩
          · -- the newer batch is not newer, and moves nothing after the other
            refine iff_of_true (Or.inl ?_) fun h => hlt h.later
            rw [decide_eq_false hlt, Bool.and_false,
              Standing.settle_not_advanced hnewer, Standing.settle_not_advanced hnewer]

end Nested

/-- The other delivery moves the newest event and the status between the two
statements of this one. -/
def Encloses (turns : List (Party × IngestStatement)) (p : Party) : Prop :=
  turns.filterMap (tagged keyOf)
    = [(p, .advance), (p.other, .advance), (p.other, .settle), (p, .settle)]

/-- The outcome is that of one of the two serial orders. -/
def Serialisable (batch : Party → Batch) (record : RunRecord)
    (turns : List (Party × IngestStatement)) : Prop :=
  ∃ p, (interleave batch record turns).run.outcome
    = (serially batch record p).run.outcome

/-- A serial order is an interleaving. -/
theorem interleaving_serially :
    Interleaving program program
      (program.map (p, ·) ++ program.map (p.other, ·)) := by
  cases p with
  | first => exact .first_second program program
  | second => exact .second_first program program

theorem keys_serially :
    (program.map (p, ·) ++ program.map (p.other, ·)).filterMap (tagged keyOf)
      = [(p, .advance), (p, .settle), (p.other, .advance),
          (p.other, .settle)] := rfl

theorem outcome_eq_iff {run run' : RunRow} (h : run.counters = run'.counters) :
    run.outcome = run'.outcome ↔ run.standing = run'.standing := by
  rw [RunRow.outcome, RunRow.outcome, h, RunRow.standing, RunRow.standing]
  simp

/-- An outcome is a serial one when the status is. -/
theorem serialisable_iff_stage (hids : SharedIds batch)
    (h : Interleaving program program turns) :
    Serialisable batch record turns ↔
      ∃ p, (interleave batch record turns).run.standing
        = (interleave batch record
            (program.map (p, ·) ++ program.map (p.other, ·))).run.standing := by
  refine exists_congr fun p => ?_
  rw [← interleave_serially]
  exact outcome_eq_iff (counters_interleave hids h interleaving_serially)

/-- **When two concurrent deliveries are serialisable**: exactly when neither
encloses a newer one that says the opposite of a live run. -/
theorem serialisable_iff (hids : SharedIds batch)
    (h : Interleaving program program turns) (record : RunRecord) :
    Serialisable batch record turns ↔
      ¬ ∃ p, Encloses turns p ∧
        Overtaken record.run (batch p) (batch p.other) := by
  rw [serialisable_iff_stage hids h]
  simp only [stage_interleave, keys_serially]
  obtain ⟨p, hp | hp | hp⟩ := (h.filterMap keyOf).pairs
  · -- one after the other
    refine iff_of_true ⟨p, by rw [hp]⟩ ?_
    rintro ⟨q, hq, -⟩
    rw [Encloses, hp] at hq
    simp at hq
  · -- staggered, which decides nothing differently
    refine iff_of_true ⟨p, by rw [hp]; cases p <;> rfl⟩ ?_
    rintro ⟨q, hq, -⟩
    rw [Encloses, hp] at hq
    cases p <;> cases q <;> simp [Party.other] at hq
  · -- one inside the other
    have hencloses : ∀ q, Encloses turns q → q = p := by
      intro q hq
      rw [Encloses, hp] at hq
      exact (congrArg Prod.fst (List.cons.inj hq).1).symm
    rw [Party.exists_iff p, hp]
    have hovertaken : (∃ q, Encloses turns q ∧
        Overtaken record.run (batch q) (batch q.other)) ↔
        Overtaken record.run (batch p) (batch p.other) :=
      ⟨fun ⟨q, hq, h⟩ => hencloses q hq ▸ h, fun h => ⟨p, hp, h⟩⟩
    rw [hovertaken, ← nested_iff]
    cases p <;> exact Iff.rfl

/-- A block, and the heartbeat after it, flushed separately. -/
def blockAndBeat : Party → Batch
  | .first => ⟨[blockEvent], 1000, by decide⟩
  | .second => ⟨[beatEvent], 2000, by decide⟩

/-- The heartbeat's delivery runs between the block's second statement and its
third. -/
def beatInside : List (Party × IngestStatement) :=
  (program.take 2).map (.first, ·) ++ program.map (.second, ·) ++
    (program.drop 2).map (.first, ·)

theorem interleaving_beatInside :
    Interleaving program program beatInside := by
  repeat first
    | exact .nil
    | refine .first ?_
    | refine .second ?_

theorem sharedIds_blockAndBeat : SharedIds blockAndBeat := by
  intro a ha b hb
  simp only [blockAndBeat, List.mem_append, List.mem_singleton] at ha hb
  obtain rfl | rfl := ha <;> obtain rfl | rfl := hb
  · exact fun _ => rfl
  · intro h
    exact absurd h (by decide)
  · intro h
    exact absurd h (by decide)
  · exact fun _ => rfl

theorem serialisable_iff_beatInside :
    Serialisable blockAndBeat ⟨freshRun, []⟩ beatInside ↔
      ¬ ∃ p, Encloses beatInside p ∧
        Overtaken freshRun (blockAndBeat p) (blockAndBeat p.other) :=
  serialisable_iff sharedIds_blockAndBeat interleaving_beatInside
    ⟨freshRun, []⟩

/-- The newer heartbeat ends up behind status blocked. -/
theorem beat_hidden :
    ¬ ∀ (batch : Party → Batch) (record : RunRecord)
      (turns : List (Party × IngestStatement)), SharedIds batch →
        Interleaving program program turns →
          Serialisable batch record turns := by
  intro h
  obtain ⟨p, hp⟩ := h blockAndBeat ⟨freshRun, []⟩ beatInside
    sharedIds_blockAndBeat interleaving_beatInside
  cases p with
  | first => exact absurd hp (by decide)
  | second => exact absurd hp (by decide)

example : (interleave blockAndBeat ⟨freshRun, []⟩ beatInside).run.status
    = .blocked := by
  decide

end Opifex
