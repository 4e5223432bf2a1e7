import Mathlib.Data.List.Basic

/-!
# Two programs interleaved

Two parties execute a program each, one atomic statement at a time, in any
order that keeps each program's own. `Interleaving xs ys l` says that `l` is
such an order, every statement tagged with the party that executes it.

What a shared state becomes can depend on few of the statements. An
interleaving of the programs restricted to those is an interleaving of the
restrictions (`Interleaving.filterMap`), so a property of two long programs comes
down to the orders of the few statements it depends on.
-/

/-- One of two parties, whose steps an interleaving takes in turn. -/
inductive Party where
  | first
  | second
deriving DecidableEq, Repr

/-- The other party. -/
def Party.other : Party → Party
  | .first => .second
  | .second => .first

/-- A party is one or the other. -/
theorem Party.exists_iff {P : Party → Prop} (p : Party) :
    (∃ q, P q) ↔ P p ∨ P p.other := by
  constructor
  · rintro ⟨q, hq⟩
    cases p <;> cases q
    · exact Or.inl hq
    · exact Or.inr hq
    · exact Or.inr hq
    · exact Or.inl hq
  · rintro (h | h)
    · exact ⟨_, h⟩
    · exact ⟨_, h⟩

/-- **An interleaving of two programs**: a list of both their steps, in which the steps
of each come in its own order. -/
inductive Interleaving {α : Type*} :
    List α → List α → List (Party × α) → Prop where
  | nil : Interleaving [] [] []
  | first {x : α} {xs ys : List α} {l : List (Party × α)} :
      Interleaving xs ys l → Interleaving (x :: xs) ys ((.first, x) :: l)
  | second {y : α} {xs ys : List α} {l : List (Party × α)} :
      Interleaving xs ys l → Interleaving xs (y :: ys) ((.second, y) :: l)

namespace Interleaving

variable {α : Type*} {xs ys : List α} {l : List (Party × α)}

/-- What a party's statement is seen as, tagged with the party. -/
def tagged {β : Type*} (f : α → Option β) (turn : Party × α) :
    Option (Party × β) :=
  (f turn.2).map (turn.1, ·)

/-- A statement of the first party is one of the order. -/
theorem mem_of_first {x : α} (h : Interleaving xs ys l) (hx : x ∈ xs) :
    (.first, x) ∈ l := by
  induction h with
  | nil => contradiction
  | first _ ih =>
    obtain rfl | hx := List.mem_cons.mp hx
    · exact List.mem_cons_self
    · exact List.mem_cons_of_mem _ (ih hx)
  | second _ ih => exact List.mem_cons_of_mem _ (ih hx)

/-- Restricting the programs restricts their interleavings. -/
theorem filterMap {β : Type*} (f : α → Option β) (h : Interleaving xs ys l) :
    Interleaving (xs.filterMap f) (ys.filterMap f)
      (l.filterMap (tagged f)) := by
  induction h with
  | nil => exact .nil
  | @first x xs ys l _ ih =>
    cases hx : f x with
    | none =>
      rw [List.filterMap_cons_none hx,
        List.filterMap_cons_none (by rw [tagged, hx]; rfl)]
      exact ih
    | some b =>
      rw [List.filterMap_cons_some hx,
        List.filterMap_cons_some (by rw [tagged, hx]; rfl)]
      exact .first ih
  | @second y xs ys l _ ih =>
    cases hy : f y with
    | none =>
      rw [List.filterMap_cons_none hy,
        List.filterMap_cons_none (by rw [tagged, hy]; rfl)]
      exact ih
    | some b =>
      rw [List.filterMap_cons_some hy,
        List.filterMap_cons_some (by rw [tagged, hy]; rfl)]
      exact .second ih

theorem of_second (ys : List α) : Interleaving [] ys (ys.map (.second, ·)) := by
  induction ys with
  | nil => exact .nil
  | cons y ys ih => exact .second ih

theorem of_first (xs : List α) : Interleaving xs [] (xs.map (.first, ·)) := by
  induction xs with
  | nil => exact .nil
  | cons x xs ih => exact .first ih

/-- One program after the other is an interleaving. -/
theorem first_second (xs ys : List α) :
    Interleaving xs ys (xs.map (.first, ·) ++ ys.map (.second, ·)) := by
  induction xs with
  | nil => exact of_second ys
  | cons x xs ih => exact .first ih

theorem second_first (xs ys : List α) :
    Interleaving xs ys (ys.map (.second, ·) ++ xs.map (.first, ·)) := by
  induction ys with
  | nil => exact of_first xs
  | cons y ys ih => exact .second ih

/-- **Two programs of two statements** interleave in six ways: one after the
other, staggered, or one inside the other. -/
theorem pairs {a b : α} (h : Interleaving [a, b] [a, b] l) :
    ∃ p : Party,
      l = [(p, a), (p, b), (p.other, a), (p.other, b)] ∨
        l = [(p, a), (p.other, a), (p, b), (p.other, b)] ∨
          l = [(p, a), (p.other, a), (p.other, b), (p, b)] := by
  rcases h with _ | h | h
  · refine ⟨.first, ?_⟩
    rcases h with _ | h | h
    · cases h with
      | second h => cases h with
        | second h => cases h; exact Or.inl rfl
    · rcases h with _ | h | h
      · cases h with
        | second h => cases h; exact Or.inr (Or.inl rfl)
      · cases h with
        | first h => cases h; exact Or.inr (Or.inr rfl)
  · refine ⟨.second, ?_⟩
    rcases h with _ | h | h
    · rcases h with _ | h | h
      · cases h with
        | second h => cases h; exact Or.inr (Or.inr rfl)
      · cases h with
        | first h => cases h; exact Or.inr (Or.inl rfl)
    · cases h with
      | first h => cases h with
        | first h => cases h; exact Or.inl rfl

end Interleaving
