import Mathlib.Algebra.BigOperators.Group.Finset.Basic
import Mathlib.Algebra.Order.BigOperators.Group.Finset
import Mathlib.Data.Finset.Max
import Opifex.RunEvents

/-!
# Ingestion forgets how the events were delivered

A runner may flush its events in any batches, resend some and send them in any
order. As long as no two of them share an identifier or an instant and at most
one is terminal, the run ends in a state that is a function of the **set** of
events alone, which `outcomeOf` writes down: concluded by the terminal event
if there is one, parked if the newest event is a block, running otherwise,
with the newest instant and the sums of what the events cost.

The argument is one invariant. After each delivery the stored events are the
set delivered so far and the run is in the state that set determines
(`Reflects`); a batch carries the invariant from a set to its union with the
batch.
-/

namespace Opifex

open Preference (rank)
open HighWater (below raise raise?)

/-! ## The state a set of events determines -/

/-- What a run shows of the events ingested for it: how it stands, when it ended, and
its counters. -/
structure RunOutcome where
  status : RunStatus
  endedAt : Option Instant
  counters : Counters
deriving DecidableEq

/-- What a run has come to. -/
def RunRow.outcome (run : RunRow) : RunOutcome :=
  ⟨run.status, run.endedAt, run.counters⟩

/-- No two events share an identifier or an instant, and at most one is
terminal. -/
structure WellSeparated (events : Finset RunEventPayload) : Prop where
  ids : ∀ a ∈ events, ∀ b ∈ events, a.eventId = b.eventId → a = b
  instants : ∀ a ∈ events, ∀ b ∈ events, a.occurredAt = b.occurredAt → a = b
  terminal : ∀ a ∈ events, ∀ b ∈ events,
    a.type.isTerminal → b.type.isTerminal → a = b

theorem WellSeparated.subset {events part : Finset RunEventPayload}
    (h : WellSeparated events) (hpart : part ⊆ events) : WellSeparated part where
  ids a ha b hb := h.ids a (hpart ha) b (hpart hb)
  instants a ha b hb := h.instants a (hpart ha) b (hpart hb)
  terminal a ha b hb := h.terminal a (hpart ha) b (hpart hb)

/-- The sum of what the events report in a column; null when none does. -/
def sumOver (column : RunEventRow → Option ℕ)
    (events : Finset RunEventPayload) : Option ℕ :=
  if ∃ event ∈ events, (column (toRow event)).isSome then
    some (∑ event ∈ events, (column (toRow event)).getD 0)
  else none

/-- The amount an event's row costs, in ten-thousandths. -/
def costColumn (row : RunEventRow) : Option ℕ :=
  row.costUsd.map (·.tenThousandths)

/-- The newest of a set of events is a block. -/
def EndsBlocked (events : Finset RunEventPayload) : Prop :=
  ∃ event ∈ events, event.type = .blocked ∧
    ∀ other ∈ events, other.occurredAt ≤ event.occurredAt

instance (events : Finset RunEventPayload) : Decidable (EndsBlocked events) :=
  inferInstanceAs (Decidable (∃ event ∈ events, event.type = .blocked ∧
    ∀ other ∈ events, other.occurredAt ≤ event.occurredAt))

/-- The status that a set of events makes, whatever the order they came in. Completion
is looked for first. -/
def statusOf (events : Finset RunEventPayload) : RunStatus :=
  if ∃ event ∈ events, event.type = .completed then .succeeded
  else if ∃ event ∈ events, event.type = .failed then .failed
  else if EndsBlocked events then .blocked
  else .running

/-- When the newest event of a set occurred. -/
def newestIn (events : Finset RunEventPayload) : Option Instant :=
  (events.image (·.occurredAt)).max

/-- The counters that a set of events makes. -/
def countersOf (events : Finset RunEventPayload) : Counters where
  lastEventAt := newestIn events
  costUsd := (sumOver costColumn events).map Usd.mk
  tokensInput := sumOver (·.tokensInput) events
  tokensOutput := sumOver (·.tokensOutput) events

/-- **What a set of events makes of a run**, however they are delivered. -/
def outcomeOf (events : Finset RunEventPayload) : RunOutcome where
  status := statusOf events
  endedAt := newestIn (events.filter (·.type.isTerminal))
  counters := countersOf events

section OutcomeOf

variable {events part : Finset RunEventPayload} {event : RunEventPayload}
  {newest : Instant}

theorem newestIn_eq_some :
    newestIn events = some newest ↔
      (∃ event ∈ events, event.occurredAt = newest) ∧
        ∀ event ∈ events, event.occurredAt ≤ newest := by
  constructor
  · intro h
    refine ⟨Finset.mem_image.mp (Finset.mem_of_max h), fun event hevent => ?_⟩
    exact Finset.le_max_of_eq (Finset.mem_image_of_mem _ hevent) h
  · rintro ⟨⟨event, hevent, rfl⟩, hle⟩
    obtain ⟨latest, hlatest⟩ := Finset.max_of_mem
      (Finset.mem_image_of_mem (·.occurredAt) hevent)
    obtain ⟨other, hother, rfl⟩ :=
      Finset.mem_image.mp (Finset.mem_of_max hlatest)
    have hsame : other.occurredAt = event.occurredAt :=
      le_antisymm (hle other hother) (Finset.le_max_of_eq
        (Finset.mem_image_of_mem _ hevent) hlatest)
    rw [newestIn, hlatest, hsame]
    rfl

theorem newestIn_eq_none : newestIn events = none ↔ events = ∅ := by
  rw [newestIn]
  exact Finset.max_eq_bot.trans Finset.image_eq_empty

/-- What a terminal event makes of a run's status. -/
def conclusionOf (event : RunEventPayload) : RunStatus :=
  if event.type == .completed then .succeeded else .failed

theorem statusOf_of_terminal (hsep : WellSeparated events)
    (hevent : event ∈ events) (hterminal : event.type.isTerminal) :
    statusOf events = conclusionOf event := by
  have honly : ∀ other ∈ events, other.type.isTerminal → other = event :=
    fun other hother h => hsep.terminal other hother event hevent h hterminal
  cases htype : event.type with
  | completed =>
    rw [statusOf, if_pos ⟨event, hevent, htype⟩, conclusionOf, htype]
    rfl
  | failed =>
    have hnone : ¬ ∃ other ∈ events, other.type = .completed := by
      rintro ⟨other, hother, hcompleted⟩
      have hsame := honly other hother (by rw [hcompleted]; rfl)
      rw [hsame, htype] at hcompleted
      cases hcompleted
    rw [statusOf, if_neg hnone, if_pos ⟨event, hevent, htype⟩, conclusionOf,
      htype]
    rfl
  | _ => rw [htype] at hterminal; cases hterminal

theorem statusOf_of_no_terminal
    (hnone : ∀ event ∈ events, event.type.isTerminal = false) :
    statusOf events = if EndsBlocked events then .blocked else .running := by
  have hcompleted : ¬ ∃ event ∈ events, event.type = .completed := by
    rintro ⟨event, hevent, htype⟩
    have := hnone event hevent
    rw [htype] at this
    cases this
  have hfailed : ¬ ∃ event ∈ events, event.type = .failed := by
    rintro ⟨event, hevent, htype⟩
    have := hnone event hevent
    rw [htype] at this
    cases this
  rw [statusOf, if_neg hcompleted, if_neg hfailed]

theorem endedAt_of_terminal (hsep : WellSeparated events)
    (hevent : event ∈ events) (hterminal : event.type.isTerminal) :
    newestIn (events.filter (·.type.isTerminal)) = some event.occurredAt := by
  refine newestIn_eq_some.mpr
    ⟨⟨event, Finset.mem_filter.mpr ⟨hevent, hterminal⟩, rfl⟩, ?_⟩
  intro other hother
  obtain ⟨hother, h⟩ := Finset.mem_filter.mp hother
  rw [hsep.terminal other hother event hevent h hterminal]

theorem endedAt_of_no_terminal
    (hnone : ∀ event ∈ events, event.type.isTerminal = false) :
    newestIn (events.filter (·.type.isTerminal)) = none := by
  refine newestIn_eq_none.mpr (Finset.filter_eq_empty_iff.mpr ?_)
  intro event hevent h
  rw [hnone event hevent] at h
  cases h

/-- Whether a set ends on a block is decided by its newest event. -/
theorem endsBlocked_iff (hsep : WellSeparated events)
    (hevent : event ∈ events)
    (hnewest : ∀ other ∈ events, other.occurredAt ≤ event.occurredAt) :
    EndsBlocked events ↔ event.type = .blocked := by
  constructor
  · rintro ⟨other, hother, htype, hle⟩
    have hsame := hsep.instants other hother event hevent
      (le_antisymm (hnewest other hother) (hle event hevent))
    rw [← hsame, htype]
  · exact fun htype => ⟨event, hevent, htype, hnewest⟩

/-- More events never add up to less. -/
theorem sumOver_le {column : RunEventRow → Option ℕ} (h : part ⊆ events)
    {total : ℕ} (htotal : total ∈ sumOver column part) :
    ∃ larger ∈ sumOver column events, total ≤ larger := by
  rw [sumOver] at htotal
  split_ifs at htotal with hsome
  · cases htotal
    obtain ⟨event, hevent, hcolumn⟩ := hsome
    refine ⟨_, by rw [sumOver, if_pos ⟨event, h hevent, hcolumn⟩]; rfl, ?_⟩
    exact Finset.sum_le_sum_of_subset h
  · cases htotal

end OutcomeOf

/-! ## The stored rows are the set delivered -/

section Stored

variable {column : RunEventRow → Option ℕ} {rows : List RunEventRow}
  {delivered : Finset RunEventPayload} {event : RunEventPayload}

theorem sum_filterMap :
    (rows.filterMap column).sum
      = (rows.map fun row => (column row).getD 0).sum := by
  induction rows with
  | nil => rfl
  | cons row rows ih =>
    rw [List.map_cons, List.sum_cons, ← ih]
    cases h : column row with
    | none => rw [List.filterMap_cons_none h]; simp
    | some amount => rw [List.filterMap_cons_some h]; simp

/-- `SUM` over the rows of a set is the sum over the set. -/
theorem sumOf_eq (h : (rows : Multiset RunEventRow) = delivered.val.map toRow) :
    sumOf column rows = sumOver column delivered := by
  have hmem : ∀ row, row ∈ rows ↔ ∃ event ∈ delivered, toRow event = row := by
    intro row
    rw [← Multiset.mem_coe, h]
    exact Multiset.mem_map
  have hsum : (rows.map fun row => (column row).getD 0).sum
      = ∑ event ∈ delivered, (column (toRow event)).getD 0 := by
    rw [← Multiset.sum_coe, ← Multiset.map_coe, h, Multiset.map_map]
    rfl
  by_cases hsome : ∃ event ∈ delivered, (column (toRow event)).isSome
  · obtain ⟨event, hevent, hcolumn⟩ := hsome
    obtain ⟨amount, hamount⟩ := Option.isSome_iff_exists.mp hcolumn
    have hin : amount ∈ rows.filterMap column :=
      List.mem_filterMap.mpr ⟨_, (hmem _).mpr ⟨event, hevent, rfl⟩, hamount⟩
    rw [sumOver, if_pos ⟨event, hevent, hcolumn⟩, ← hsum, ← sum_filterMap,
      sumOf]
    cases hamounts : rows.filterMap column with
    | nil => rw [hamounts] at hin; cases hin
    | cons first rest => rfl
  · have hnil : rows.filterMap column = [] := by
      refine List.filterMap_eq_nil_iff.mpr fun row hrow => ?_
      obtain ⟨event, hevent, rfl⟩ := (hmem row).mp hrow
      by_contra hne
      exact hsome ⟨event, hevent, Option.isSome_iff_ne_none.mpr hne⟩
    rw [sumOver, if_neg hsome, sumOf, hnil]

/-- A delivered event is a duplicate, and no other is. -/
theorem isStored_toRow {events : Finset RunEventPayload}
    (hsep : WellSeparated events) (hdelivered : delivered ⊆ events)
    (hevent : event ∈ events)
    (h : (rows : Multiset RunEventRow) = delivered.val.map toRow) :
    isStored rows (toRow event) = true ↔ event ∈ delivered := by
  have hmem : ∀ row, row ∈ rows ↔ ∃ event ∈ delivered, toRow event = row := by
    intro row
    rw [← Multiset.mem_coe, h]
    exact Multiset.mem_map
  rw [isStored, Bool.and_eq_true, List.any_eq_true]
  constructor
  · rintro ⟨-, row, hrow, hid⟩
    obtain ⟨other, hother, rfl⟩ := (hmem row).mp hrow
    have hsame := hsep.ids other (hdelivered hother) event hevent
      (Option.some.inj (eq_of_beq hid))
    exact hsame ▸ hother
  · intro hin
    exact ⟨rfl, toRow event, (hmem _).mpr ⟨event, hin, rfl⟩, beq_self_eq_true _⟩

/-- Storing one event adds it to the set. -/
theorem coe_insertEvent {events : Finset RunEventPayload}
    (hsep : WellSeparated events) (hdelivered : delivered ⊆ events)
    (hevent : event ∈ events)
    (h : (rows : Multiset RunEventRow) = delivered.val.map toRow) :
    (insertEvent rows (toRow event) : Multiset RunEventRow)
      = (insert event delivered).val.map toRow := by
  have hstored := isStored_toRow hsep hdelivered hevent h
  rw [insertEvent]
  by_cases hin : event ∈ delivered
  · rw [if_pos (hstored.mpr hin), Finset.insert_eq_of_mem hin, h]
  · rw [if_neg (mt hstored.mp hin), Finset.insert_val_of_notMem hin,
      Multiset.map_cons, ← h, ← Multiset.coe_add, Multiset.coe_singleton,
      add_comm, Multiset.singleton_add]

/-- Storing a batch adds it to the set. -/
theorem coe_createMany {events : Finset RunEventPayload}
    (hsep : WellSeparated events) {batch : List RunEventPayload}
    (hbatch : ∀ event ∈ batch, event ∈ events) (hdelivered : delivered ⊆ events)
    (h : (rows : Multiset RunEventRow) = delivered.val.map toRow) :
    (createMany rows (batch.map toRow) : Multiset RunEventRow)
      = (delivered ∪ batch.toFinset).val.map toRow := by
  induction batch generalizing rows delivered with
  | nil => simpa [createMany] using h
  | cons event batch ih =>
    have hevent : event ∈ events := hbatch event List.mem_cons_self
    have hinsert : insert event delivered ⊆ events :=
      Finset.insert_subset hevent hdelivered
    have hrest := ih (fun other hother =>
      hbatch other (List.mem_cons_of_mem _ hother)) hinsert
      (coe_insertEvent hsep hdelivered hevent h)
    rw [List.toFinset_cons, Finset.union_insert, ← Finset.insert_union]
    exact hrest

end Stored

/-! ## One delivery -/

/-- **The invariant**: the stored events are the set delivered so far, and the
run is in the state that set determines. -/
structure Reflects (delivered : Finset RunEventPayload) (record : RunRecord) :
    Prop where
  events : (record.events : Multiset RunEventRow) = delivered.val.map toRow
  outcome : record.run.outcome = outcomeOf delivered

section Delivery

variable {events delivered : Finset RunEventPayload}
  {batch : List RunEventPayload} {record : RunRecord} {newest : Instant}

/-- Moving the newest event forward reaches the newest of both sets. -/
theorem raise_newestIn (hnewest : newestOf batch = some newest) :
    raise (newestIn delivered) newest
      = newestIn (delivered ∪ batch.toFinset) := by
  obtain ⟨⟨event, hevent, hat⟩, hle⟩ := newestOf_eq_some.mp hnewest
  cases hold : newestIn delivered with
  | none =>
    rw [newestIn_eq_none.mp hold, HighWater.raise_none, Finset.empty_union]
    refine (newestIn_eq_some.mpr ⟨⟨event, List.mem_toFinset.mpr hevent, hat⟩,
      fun other hother => hle other (List.mem_toFinset.mp hother)⟩).symm
  | some old =>
    obtain ⟨⟨first, hfirst, hat'⟩, hle'⟩ := newestIn_eq_some.mp hold
    rw [HighWater.raise_some]
    refine (newestIn_eq_some.mpr ⟨?_, fun other hother => ?_⟩).symm
    · obtain hmax | hmax := max_choice old newest
      · exact ⟨first, Finset.mem_union_left _ hfirst, by rw [hat', hmax]⟩
      · exact ⟨event, Finset.mem_union_right _ (List.mem_toFinset.mpr hevent),
          by rw [hat, hmax]⟩
    · obtain hother | hother := Finset.mem_union.mp hother
      · exact le_max_of_le_left (hle' other hother)
      · exact le_max_of_le_right (hle other (List.mem_toFinset.mp hother))

/-- The totals over the stored rows are those of the set. -/
theorem aggregate_eq {rows : List RunEventRow}
    (hrows : (rows : Multiset RunEventRow) = delivered.val.map toRow) :
    aggregate rows =
      { costUsd := (countersOf delivered).costUsd
        tokensInput := (countersOf delivered).tokensInput
        tokensOutput := (countersOf delivered).tokensOutput } := by
  rw [aggregate, sumOf_eq hrows, sumOf_eq hrows, sumOf_eq hrows]
  rfl

/-- Rolling up the totals of a larger set reaches them. -/
theorem raise?_sumOver {column : RunEventRow → Option ℕ}
    (hpart : delivered ⊆ events) :
    raise? (sumOver column delivered) (sumOver column events)
      = sumOver column events :=
  HighWater.raise?_of_le fun _ hcurrent => sumOver_le hpart hcurrent

theorem raise?_costUsd (hpart : delivered ⊆ events) :
    raise? (countersOf delivered).costUsd (countersOf events).costUsd
      = (countersOf events).costUsd := by
  refine HighWater.raise?_of_le fun current hcurrent => ?_
  obtain ⟨total, htotal, rfl⟩ := Option.mem_map.mp hcurrent
  obtain ⟨larger, hlarger, hle⟩ := sumOver_le hpart htotal
  exact ⟨⟨larger⟩, Option.mem_map.mpr ⟨larger, hlarger, rfl⟩, hle⟩

/-- The counters after a delivery are those of the larger set. -/
theorem counters_delivered
    (hcounters : record.run.counters = countersOf delivered)
    {rows : List RunEventRow}
    (hrows : (rows : Multiset RunEventRow)
      = (delivered ∪ batch.toFinset).val.map toRow)
    (hnewest : newestOf batch = some newest) :
    ((record.run.moveLastEventAt newest).rollUpCost (aggregate rows)).counters
      = countersOf (delivered ∪ batch.toFinset) := by
  have hpart : delivered ⊆ delivered ∪ batch.toFinset :=
    Finset.subset_union_left
  rw [aggregate_eq hrows]
  show Counters.mk (raise record.run.counters.lastEventAt newest)
    (raise? record.run.counters.costUsd _)
    (raise? record.run.counters.tokensInput _)
    (raise? record.run.counters.tokensOutput _) = _
  rw [hcounters, raise?_costUsd hpart]
  show Counters.mk (raise (newestIn delivered) newest) _
    (raise? (sumOver _ _) (sumOver _ _)) (raise? (sumOver _ _) (sumOver _ _))
      = _
  rw [raise?_sumOver hpart, raise?_sumOver hpart, raise_newestIn hnewest]
  rfl

/-! ### The status after a delivery -/

/-- A set holds a terminal event or none of its events is one. -/
theorem terminal_or_none (events : Finset RunEventPayload) :
    (∃ event ∈ events, event.type.isTerminal) ∨
      ∀ event ∈ events, event.type.isTerminal = false := by
  by_cases h : ∃ event ∈ events, event.type.isTerminal
  · exact Or.inl h
  · refine Or.inr fun event hevent => ?_
    exact Bool.eq_false_iff.mpr fun hterminal => h ⟨event, hevent, hterminal⟩

theorem outcome_eq {run : RunRow} (hstatus : run.status = statusOf events)
    (hended : run.endedAt = newestIn (events.filter (·.type.isTerminal)))
    (hcounters : run.counters = countersOf events) :
    run.outcome = outcomeOf events := by
  rw [RunRow.outcome, hstatus, hended, hcounters]
  rfl

/-- Whether a batch ends on a block is decided by the event it ends on. -/
theorem blockingEventIn_isSome {last : RunEventPayload}
    (hlast : (rank byOccurredAt batch).getLast? = some last) :
    (blockingEventIn batch).isSome = true ↔ last.type = .blocked := by
  rw [blockingEventIn, hlast]
  simp

theorem exists_newestIn {event : RunEventPayload} (h : event ∈ delivered) :
    ∃ old, newestIn delivered = some old := by
  refine Option.ne_none_iff_exists'.mp fun hnone => ?_
  rw [newestIn_eq_none.mp hnone] at h
  exact Finset.notMem_empty _ h

/-- A batch that moves the newest event forward ends on the newest event
delivered. -/
theorem endsBlocked_of_below
    (hsep : WellSeparated (delivered ∪ batch.toFinset))
    (hnewest : newestOf batch = some newest)
    (hbelow : below (newestIn delivered) newest = true) :
    EndsBlocked (delivered ∪ batch.toFinset) ↔
      (blockingEventIn batch).isSome = true := by
  obtain ⟨⟨event, hevent, -⟩, hle⟩ := newestOf_eq_some.mp hnewest
  obtain ⟨last, hlast⟩ : ∃ last,
      (rank byOccurredAt batch).getLast? = some last := by
    refine Option.ne_none_iff_exists'.mp fun h => ?_
    rw [Preference.getLast?_rank_eq_none.mp h] at hevent
    exact List.not_mem_nil hevent
  obtain ⟨hmem, hlastAt⟩ := last_newest hlast
  have hlastNewest : last.occurredAt = newest :=
    Option.some.inj (hlastAt.symm.trans hnewest)
  have hlatest : ∀ other ∈ delivered ∪ batch.toFinset,
      other.occurredAt ≤ last.occurredAt := by
    intro other hother
    rw [hlastNewest]
    obtain hother | hother := Finset.mem_union.mp hother
    · obtain ⟨old, hold⟩ := exists_newestIn hother
      exact ((newestIn_eq_some.mp hold).2 other hother).trans
        (HighWater.below_iff.mp hbelow old hold).le
    · exact hle other (List.mem_toFinset.mp hother)
  rw [blockingEventIn_isSome hlast]
  exact endsBlocked_iff hsep
    (Finset.mem_union_right _ (List.mem_toFinset.mpr hmem)) hlatest

/-- A batch that does not leaves the newest event where it was. -/
theorem endsBlocked_of_not_below
    (hsep : WellSeparated (delivered ∪ batch.toFinset))
    (hnewest : newestOf batch = some newest)
    (hbelow : below (newestIn delivered) newest = false) :
    EndsBlocked (delivered ∪ batch.toFinset) ↔ EndsBlocked delivered := by
  obtain ⟨old, hold, hnew⟩ :
      ∃ old, newestIn delivered = some old ∧ newest ≤ old := by
    cases hold : newestIn delivered with
    | none => rw [hold] at hbelow; cases hbelow
    | some old =>
      rw [hold, HighWater.below_some, decide_eq_false_iff_not, not_lt]
        at hbelow
      exact ⟨old, rfl, hbelow⟩
  obtain ⟨⟨first, hfirst, hfirstAt⟩, hle⟩ := newestIn_eq_some.mp hold
  have hfirstNewest : ∀ other ∈ delivered,
      other.occurredAt ≤ first.occurredAt :=
    fun other hother => hfirstAt ▸ hle other hother
  have hlatest : ∀ other ∈ delivered ∪ batch.toFinset,
      other.occurredAt ≤ first.occurredAt := by
    intro other hother
    obtain hother | hother := Finset.mem_union.mp hother
    · exact hfirstNewest other hother
    · rw [hfirstAt]
      exact ((newestOf_eq_some.mp hnewest).2 other
        (List.mem_toFinset.mp hother)).trans hnew
  rw [endsBlocked_iff hsep (Finset.mem_union_left _ hfirst) hlatest,
    endsBlocked_iff (hsep.subset Finset.subset_union_left) hfirst
      hfirstNewest]

/-- A run that has not ended is parked when the newest event delivered is a
block and runs when it is not. -/
theorem status_transition {run : RunRow}
    (hsep : WellSeparated (delivered ∪ batch.toFinset))
    (hnewest : newestOf batch = some newest)
    (hnone : terminalEventIn batch = none)
    (hstatus : run.status
      = if EndsBlocked delivered then .blocked else .running) :
    (transition batch (below (newestIn delivered) newest) run).status
      = if EndsBlocked (delivered ∪ batch.toFinset) then .blocked
        else .running := by
  have hlive : run.status.isLive = true := by
    rw [hstatus]
    split <;> rfl
  cases hbelow : below (newestIn delivered) newest with
  | true =>
    rw [transition_advanced hnone]
    simp only [endsBlocked_of_below hsep hnewest hbelow]
    split
    · exact RunRow.status_blockRun hlive
    · exact RunRow.status_resumeRun hlive
  | false =>
    rw [transition_not_advanced hnone, hstatus]
    simp only [endsBlocked_of_not_below hsep hnewest hbelow]

/-- The status and the end of the run after a delivery are those of the larger
set. -/
theorem ended_transition {run : RunRow}
    (hsep : WellSeparated (delivered ∪ batch.toFinset))
    (hnewest : newestOf batch = some newest)
    (hstatus : run.status = statusOf delivered)
    (hended : run.endedAt
      = newestIn (delivered.filter (·.type.isTerminal))) :
    let after := transition batch (below (newestIn delivered) newest) run
    after.status = statusOf (delivered ∪ batch.toFinset) ∧
      after.endedAt = newestIn
        ((delivered ∪ batch.toFinset).filter (·.type.isTerminal)) := by
  have hpart : WellSeparated delivered := hsep.subset Finset.subset_union_left
  intro after
  obtain ⟨event, hevent, hterminal⟩ | hdelivered := terminal_or_none delivered
  · -- the run was concluded before
    have hin := Finset.mem_union_left batch.toFinset hevent
    rw [statusOf_of_terminal hpart hevent hterminal] at hstatus
    rw [endedAt_of_terminal hpart hevent hterminal] at hended
    have hlive : run.status.isLive = false := by
      rw [hstatus, conclusionOf]
      split <;> rfl
    rw [show after = run from transition_of_not_live hlive,
      statusOf_of_terminal hsep hin hterminal,
      endedAt_of_terminal hsep hin hterminal]
    exact ⟨hstatus, hended⟩
  rw [statusOf_of_no_terminal hdelivered] at hstatus
  rw [endedAt_of_no_terminal hdelivered] at hended
  cases hbatch : terminalEventIn batch with
  | some event =>
    -- this batch concludes it
    obtain ⟨hmem, hterminal⟩ := terminalEventIn_eq_some hbatch
    have hin := Finset.mem_union_right delivered (List.mem_toFinset.mpr hmem)
    have hlive : run.status.isLive = true := by
      rw [hstatus]
      split <;> rfl
    rw [show after = run.concludeRun event from transition_of_terminal hbatch,
      RunRow.concludeRun_of_live hlive,
      statusOf_of_terminal hsep hin hterminal,
      endedAt_of_terminal hsep hin hterminal]
    exact ⟨rfl, rfl⟩
  | none =>
    have hunion : ∀ event ∈ delivered ∪ batch.toFinset,
        event.type.isTerminal = false := by
      intro event hevent
      obtain hevent | hevent := Finset.mem_union.mp hevent
      · exact hdelivered event hevent
      · exact terminalEventIn_eq_none.mp hbatch event
          (List.mem_toFinset.mp hevent)
    rw [statusOf_of_no_terminal hunion, endedAt_of_no_terminal hunion,
      ← hended]
    exact ⟨status_transition hsep hnewest hbatch hstatus,
      endedAt_transition hbatch⟩

/-- **One delivery carries the invariant** from the set delivered before it to
that set with its batch. -/
theorem reflects_persist
    (hsep : WellSeparated (delivered ∪ batch.toFinset)) (hne : batch ≠ [])
    (h : Reflects delivered record) :
    Reflects (delivered ∪ batch.toFinset) (record.persist batch).1 := by
  obtain ⟨newest, hnewest⟩ := exists_newestOf hne
  have hstatus : record.run.status = statusOf delivered :=
    congrArg RunOutcome.status h.outcome
  have hended : record.run.endedAt
      = newestIn (delivered.filter (·.type.isTerminal)) :=
    congrArg RunOutcome.endedAt h.outcome
  have hcounters : record.run.counters = countersOf delivered :=
    congrArg RunOutcome.counters h.outcome
  have hlast : record.run.lastEventAt = newestIn delivered :=
    congrArg Counters.lastEventAt hcounters
  have hrows : (createMany record.events (batch.map toRow)
      : Multiset RunEventRow) = (delivered ∪ batch.toFinset).val.map toRow :=
    coe_createMany hsep (fun event hevent => Finset.mem_union_right _
      (List.mem_toFinset.mpr hevent)) Finset.subset_union_left h.events
  obtain ⟨hstatus', hended'⟩ := @ended_transition delivered batch newest
    ((record.run.moveLastEventAt newest).rollUpCost
      (aggregate (createMany record.events (batch.map toRow))))
    hsep hnewest
    (by rw [RunRow.rollUpCost_status, RunRow.moveLastEventAt_status, hstatus])
    (by rw [RunRow.rollUpCost_endedAt, RunRow.moveLastEventAt_endedAt, hended])
  rw [← hlast, ← run_persist hnewest] at hstatus' hended'
  refine ⟨hrows, outcome_eq hstatus' hended' ?_⟩
  rw [run_persist hnewest, counters_transition]
  exact counters_delivered hcounters hrows hnewest

end Delivery

/-! ## Every sequence of deliveries -/

/-- A running run nothing was ever ingested for. Two orders of delivery are compared
from here. -/
structure RunRecord.Fresh (record : RunRecord) : Prop where
  events : record.events = []
  status : record.run.status = .running
  endedAt : record.run.endedAt = none
  counters : record.run.counters = ⟨none, none, none, none⟩

/-- Deliver batches one after the other. -/
def deliverAll (validator : RunEventValidator RunEventPayload) (runId : ℕ) :
    RunRecord → List (List RunEventPayload) → Except IngestError RunRecord
  | record, [] => .ok record
  | record, batch :: batches =>
    match validator.ingest runId (some record) batch with
    | .ok (record, _) => deliverAll validator runId record batches
    | .error error => .error error

theorem reflects_fresh {start : RunRecord} (h : start.Fresh) :
    Reflects ∅ start where
  events := by rw [h.events]; rfl
  outcome := by
    rw [RunRow.outcome, h.status, h.endedAt, h.counters]
    rfl

/-- What deliveries preserve: the run reflects whatever was delivered. -/
theorem reflects_deliverAll {validator : RunEventValidator RunEventPayload}
    {runId : ℕ} {events part : Finset RunEventPayload}
    (hsep : WellSeparated events)
    (hvalid : ∀ event ∈ events, validator.Valid runId event)
    {batches : List (List RunEventPayload)}
    (hbatches : ∀ batch ∈ batches, batch ≠ [] ∧ ∀ event ∈ batch, event ∈ events)
    (hpart : part ⊆ events) {record : RunRecord} (h : Reflects part record) :
    ∃ final, deliverAll validator runId record batches = .ok final ∧
      Reflects (part ∪ batches.flatten.toFinset) final := by
  induction batches generalizing part record with
  | nil => exact ⟨record, rfl, by simpa using h⟩
  | cons batch batches ih =>
    obtain ⟨hne, hmem⟩ := hbatches batch List.mem_cons_self
    have hunion : part ∪ batch.toFinset ⊆ events :=
      Finset.union_subset hpart fun event hevent =>
        hmem event (List.mem_toFinset.mp hevent)
    obtain ⟨final, hfinal, hreflects⟩ :=
      ih (fun other hother => hbatches other (List.mem_cons_of_mem _ hother))
        hunion (reflects_persist (hsep.subset hunion) hne h)
    refine ⟨final, ?_, ?_⟩
    · rw [deliverAll, RunEventValidator.ingest_of_valid hne fun event hevent =>
        hvalid event (hmem event hevent)]
      exact hfinal
    · rw [List.flatten_cons, List.toFinset_append, ← Finset.union_assoc]
      exact hreflects

/-- **Ingestion is independent of batching, order and redelivery**: any
deliveries of a set of events leave the run in the state the set determines. -/
theorem ingest_confluent {validator : RunEventValidator RunEventPayload}
    {runId : ℕ} {events : Finset RunEventPayload}
    (hsep : WellSeparated events)
    (hvalid : ∀ event ∈ events, validator.Valid runId event)
    {start : RunRecord} (hstart : start.Fresh)
    {batches : List (List RunEventPayload)}
    (hne : ∀ batch ∈ batches, batch ≠ [])
    (hunion : ∀ event, event ∈ events ↔ ∃ batch ∈ batches, event ∈ batch) :
    ∃ final, deliverAll validator runId start batches = .ok final ∧
      final.run.outcome = outcomeOf events := by
  obtain ⟨final, hfinal, hreflects⟩ := reflects_deliverAll hsep hvalid
    (fun batch hbatch => ⟨hne batch hbatch, fun event hevent =>
      (hunion event).mpr ⟨batch, hbatch, hevent⟩⟩)
    (Finset.empty_subset events) (reflects_fresh hstart)
  have hall : ∅ ∪ batches.flatten.toFinset = events := by
    ext event
    rw [Finset.empty_union, List.mem_toFinset, List.mem_flatten, hunion]
  refine ⟨final, hfinal, ?_⟩
  rw [← hall]
  exact hreflects.outcome

/-- A run that was just dispatched. -/
def freshRun : RunRow where
  id := 1
  workOrderId := 1
  runnerKey := ⟨"claude-code-local", RunnerKey.keyShape_claudeCodeLocal⟩
  runnerVersion := "1.0.0"
  status := .running
  startedAt := 0
  endedAt := none
  resumesAt := none
  attentionReason := none
  attemptCount := 1
  costUsd := none
  attempts := [⟨1, .running, none, 0, none, none, none⟩]
  avoidedPark := none
  lastBlock := none

/-- One event of that run. -/
def eventOf (eventId : String) (type : RunEventType) (occurredAt : Instant) :
    RunEventPayload where
  eventId := eventId
  runId := 1
  workOrderId := "wo_app_7_a3f91c2_a1"
  type := type
  source := .runnerReported
  occurredAt := occurredAt

/-- A block without a reset, and the heartbeat after it. -/
def blockEvent : RunEventPayload :=
  { eventOf "e1" .blocked 1000 with
    blocked := some ⟨.rateLimit, none⟩
    cost := some ⟨some (1 / 2), some 10, none⟩ }

/-- A heartbeat after the block, with a cost. -/
def beatEvent : RunEventPayload :=
  { eventOf "e2" .heartbeat 2000 with
    cost := some ⟨some (1 / 4), none, some 3⟩ }

/-- A validator these events pass. -/
def passing : RunEventValidator RunEventPayload where
  check := .ok
  readEventId event := some event.eventId

theorem ingest_confluent_resent :
    ∃ final, deliverAll passing 1 ⟨freshRun, []⟩
        [[beatEvent], [blockEvent, beatEvent], [blockEvent]] = .ok final ∧
      final.run.outcome = outcomeOf {blockEvent, beatEvent} := by
  refine ingest_confluent ⟨?_, ?_, ?_⟩ ?_ ⟨rfl, rfl, rfl, rfl⟩ ?_ ?_
  · decide +kernel
  · decide +kernel
  · decide
  · intro event hevent
    obtain rfl | hevent := Finset.mem_insert.mp hevent
    · exact ⟨rfl, rfl, rfl⟩
    · rw [Finset.mem_singleton.mp hevent]
      exact ⟨rfl, rfl, rfl⟩
  · simp
  · intro event
    simp
    tauto

example : outcomeOf {blockEvent, beatEvent}
    = ⟨.running, none, ⟨some 2000, some ⟨7500⟩, some 10, some 3⟩⟩ := by
  decide +kernel

end Opifex
