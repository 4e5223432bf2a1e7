import Mathlib.Order.MinMax

/-!
# Columns that only move up

A nullable column guarded by `column is null or column < value` takes the
value exactly when that moves it forward. Writing through such a guard is the
join of the column with the value, null being the least: it can be repeated,
done in any order, or done after a part of it, and the outcome is the same.
-/

namespace HighWater

variable {α : Type*} [LinearOrder α]

/-- The guard: the column is null or less than the value. -/
def below (column : Option α) (value : α) : Bool :=
  column.all fun current => decide (current < value)

/-- The guarded write. -/
def raise (column : Option α) (value : α) : Option α :=
  if below column value then some value else column

/-- The guarded write of a value that may be missing; a missing one is not
written. -/
def raise? (column : Option α) : Option α → Option α
  | none => column
  | some value => raise column value

variable {column other : Option α} {value later : α}

@[simp] theorem below_none : below none value = true := rfl

@[simp] theorem below_some {current : α} :
    below (some current) value = decide (current < value) := rfl

theorem below_iff :
    below column value = true ↔ ∀ current ∈ column, current < value := by
  cases column with
  | none => simp
  | some current => simp

@[simp] theorem raise_none : raise none value = some value := rfl

/-- The guarded write is a join. -/
theorem raise_some {current : α} :
    raise (some current) value = some (max current value) := by
  rw [raise, below_some]
  by_cases h : current < value
  · rw [if_pos (decide_eq_true h), max_eq_right h.le]
  · rw [if_neg (by simpa using h), max_eq_left (not_lt.mp h)]

theorem raise_of_not_below (h : below column value = false) :
    raise column value = column := by
  rw [raise, h]
  rfl

/-- A column that took a value is not below it. -/
@[simp] theorem below_raise_self : below (raise column value) value = false := by
  cases column with
  | none => simp
  | some current => rw [raise_some, below_some]; simp

/-- Which values still move a column that took one. -/
theorem below_raise :
    below (raise column value) later
      = (below column later && decide (value < later)) := by
  cases column with
  | none => simp
  | some current =>
    rw [raise_some, below_some, below_some, ← Bool.decide_and]
    exact decide_eq_decide.mpr max_lt_iff

/-- Writing a second time changes nothing. -/
@[simp] theorem raise_raise_self :
    raise (raise column value) value = raise column value :=
  raise_of_not_below below_raise_self

/-- The order of two writes does not matter. -/
theorem raise_comm :
    raise (raise column value) later = raise (raise column later) value := by
  cases column with
  | none => rw [raise_none, raise_none, raise_some, raise_some, max_comm]
  | some current => rw [raise_some, raise_some, raise_some, raise_some, max_right_comm]

/-- A write on the way to a greater one leaves no trace. -/
theorem raise_raise_of_le (h : value ≤ later) :
    raise (raise column value) later = raise column later := by
  cases column with
  | none => rw [raise_none, raise_none, raise_some, max_eq_right h]
  | some current => rw [raise_some, raise_some, raise_some, max_assoc, max_eq_right h]

@[simp] theorem raise?_none : raise? column none = column := rfl

@[simp] theorem raise?_some : raise? column (some value) = raise column value := rfl

/-- A column takes any value it does not exceed. -/
theorem raise_of_le (h : ∀ current ∈ column, current ≤ value) :
    raise column value = some value := by
  cases column with
  | none => rfl
  | some current => rw [raise_some, max_eq_right (h current rfl)]

/-- A column that is null, or does not exceed a value that is there, takes
it. -/
theorem raise?_of_le (h : ∀ current ∈ column, ∃ value ∈ other, current ≤ value) :
    raise? column other = other := by
  cases other with
  | none =>
    refine Option.eq_none_iff_forall_not_mem.mpr fun current hcurrent => ?_
    obtain ⟨value, hvalue, -⟩ := h current hcurrent
    cases hvalue
  | some value =>
    refine raise_of_le fun current hcurrent => ?_
    obtain ⟨larger, hlarger, hle⟩ := h current hcurrent
    cases hlarger
    exact hle

@[simp] theorem raise?_raise?_self :
    raise? (raise? column other) other = raise? column other := by
  cases other with
  | none => rfl
  | some value => exact raise_raise_self

/-- A part of a value leaves no trace before the whole … -/
theorem raise?_raise?_whole {part whole : Option α}
    (h : ∀ current ∈ part, ∃ value ∈ whole, current ≤ value) :
    raise? (raise? column part) whole = raise? column whole := by
  cases part with
  | none => rfl
  | some current =>
    obtain ⟨value, hvalue, hle⟩ := h current rfl
    cases hvalue
    exact raise_raise_of_le hle

/-- … nor after it. -/
theorem raise?_raise?_part {part whole : Option α}
    (h : ∀ current ∈ part, ∃ value ∈ whole, current ≤ value) :
    raise? (raise? column whole) part = raise? column whole := by
  cases part with
  | none => rfl
  | some current =>
    obtain ⟨value, hvalue, hle⟩ := h current rfl
    cases hvalue
    exact raise_comm.trans (raise_raise_of_le hle)

end HighWater
