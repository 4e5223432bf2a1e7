import Mathlib.Order.Bounds.Basic

/-!
# Reducing a list by a choice

`reduce` without an initial value folds a list from its first element. When
each step keeps one of the two elements it is given, the outcome is an element
of the list (`mem_of_reduce`), and when it keeps one whose key is not the
smaller, **the outcome has the greatest key of all** (`isGreatest_reduce`),
whatever the order of the list.
-/

namespace Reduce

variable {α ι : Type*}

/-- `reduce` without an initial value, which a list that is not empty has. -/
def reduce (step : α → α → α) : List α → Option α
  | [] => none
  | a :: l => some (l.foldl step a)

/-- Of two elements the one with the greater key, and the second of equals. -/
def later [LinearOrder ι] (key : α → ι) (a b : α) : α :=
  if key b < key a then a else b

section Rules

variable {step : α → α → α} {a b : α} {l : List α}

theorem reduce_eq_none : reduce step l = none ↔ l = [] := by
  cases l with
  | nil => exact iff_of_true rfl rfl
  | cons a l => exact iff_of_false (Option.some_ne_none _) (List.cons_ne_nil a l)

theorem exists_reduce (step : α → α → α) (h : l ≠ []) :
    ∃ a, reduce step l = some a :=
  Option.ne_none_iff_exists'.mp (mt reduce_eq_none.mp h)

/-- One more element is weighed against the outcome so far. -/
theorem reduce_concat :
    reduce step (l ++ [b]) = some ((reduce step l).elim b (step · b)) := by
  cases l with
  | nil => rfl
  | cons a l =>
    show some ((l ++ [b]).foldl step a) = _
    rw [List.foldl_append]
    rfl

/-- A choice in every step is a choice from the list. -/
theorem mem_of_reduce (hstep : ∀ a b, step a b = a ∨ step a b = b)
    (h : reduce step l = some a) : a ∈ l := by
  cases l with
  | nil => cases h
  | cons first l =>
    have hfold : l.foldl step first = a := Option.some.inj h
    subst hfold
    clear h
    induction l generalizing first with
    | nil => exact List.mem_singleton_self first
    | cons b l ih =>
      have hmem := ih (step first b)
      rw [List.foldl_cons]
      obtain heq | hmem := List.mem_cons.mp hmem
      · obtain hfirst | hb := hstep first b
        · rw [heq, hfirst]
          exact List.mem_cons_self
        · rw [heq, hb]
          exact List.mem_cons_of_mem _ List.mem_cons_self
      · exact List.mem_cons_of_mem _ (List.mem_cons_of_mem _ hmem)

end Rules

section Greatest

variable [LinearOrder ι] {key : α → ι} {a b : α} {l : List α}

theorem later_eq_or : later key a b = a ∨ later key a b = b := by
  unfold later
  split
  · exact Or.inl rfl
  · exact Or.inr rfl

theorem key_later : key (later key a b) = max (key a) (key b) := by
  unfold later
  split
  · rw [max_eq_left (by assumption : key b < key a).le]
  · rw [max_eq_right (not_lt.mp (by assumption))]

theorem le_key_foldl_later :
    key a ≤ key (l.foldl (later key) a) ∧
      ∀ b ∈ l, key b ≤ key (l.foldl (later key) a) := by
  induction l generalizing a with
  | nil => exact ⟨le_rfl, fun b hb => absurd hb List.not_mem_nil⟩
  | cons first l ih =>
    obtain ⟨hle, hall⟩ := @ih (later key a first)
    have hmax : key (later key a first) = max (key a) (key first) := key_later
    rw [hmax] at hle
    rw [List.foldl_cons]
    refine ⟨le_trans (le_max_left _ _) hle, fun b hb => ?_⟩
    obtain rfl | hb := List.mem_cons.mp hb
    · exact le_trans (le_max_right _ _) hle
    · exact hall b hb

/-- **The reduction finds the greatest key.** -/
theorem isGreatest_reduce (h : reduce (later key) l = some a) :
    IsGreatest {i | ∃ b ∈ l, key b = i} (key a) := by
  refine ⟨⟨a, mem_of_reduce (fun _ _ => later_eq_or) h, rfl⟩, ?_⟩
  rintro i ⟨b, hb, rfl⟩
  cases l with
  | nil => cases hb
  | cons first l =>
    rw [← Option.some.inj h]
    obtain rfl | hb := List.mem_cons.mp hb
    · exact le_key_foldl_later.1
    · exact le_key_foldl_later.2 b hb

end Greatest

section Max

variable [LinearOrder ι] {l l' : List ι} {i : ι}

/-- The reduction by `max` is the greatest element. -/
theorem reduce_max_eq_some_iff :
    reduce max l = some i ↔ i ∈ l ∧ ∀ j ∈ l, j ≤ i := by
  have hlater : (max : ι → ι → ι) = later id := by
    funext a b
    exact (@key_later _ _ _ (id : ι → ι) a b).symm
  rw [hlater]
  constructor
  · intro h
    have hgreatest := isGreatest_reduce h
    refine ⟨mem_of_reduce (fun _ _ => later_eq_or) h, fun j hj => ?_⟩
    exact hgreatest.2 ⟨j, hj, rfl⟩
  · rintro ⟨hmem, hle⟩
    obtain ⟨j, hj⟩ := exists_reduce (later id) (List.ne_nil_of_mem hmem)
    have hgreatest := isGreatest_reduce hj
    rw [hj, le_antisymm (hle j (mem_of_reduce (fun _ _ => later_eq_or) hj))
      (hgreatest.2 ⟨i, hmem, rfl⟩)]

/-- Leaving elements out changes nothing exactly when none of all exceeds every
one that stays. -/
theorem reduce_max_eq_iff_of_subset (h : l' ⊆ l) :
    reduce max l = reduce max l' ↔ ∀ i ∈ l, ∃ j ∈ l', i ≤ j := by
  constructor
  · intro heq i hi
    obtain ⟨greatest, hgreatest⟩ := exists_reduce max (List.ne_nil_of_mem hi)
    have hgreatest' := heq.symm.trans hgreatest
    exact ⟨greatest, (reduce_max_eq_some_iff.mp hgreatest').1,
      (reduce_max_eq_some_iff.mp hgreatest).2 i hi⟩
  · intro hbelow
    by_cases hl' : l' = []
    · have hl : l = [] := by
        refine List.eq_nil_iff_forall_not_mem.mpr fun i hi => ?_
        obtain ⟨j, hj, -⟩ := hbelow i hi
        rw [hl'] at hj
        exact List.not_mem_nil hj
      rw [hl, hl']
    · obtain ⟨greatest, hgreatest⟩ := exists_reduce max hl'
      obtain ⟨hmem, hle⟩ := reduce_max_eq_some_iff.mp hgreatest
      rw [hgreatest]
      refine reduce_max_eq_some_iff.mpr ⟨h hmem, fun i hi => ?_⟩
      obtain ⟨j, hj, hij⟩ := hbelow i hi
      exact hij.trans (hle j hj)

end Max

end Reduce
