import Mathlib.Data.List.Forall2

/-!
# Texts that are read in one way

A printer *decodes* at a value if no other value's text, followed by what may follow it,
begins like the text of this one: from a text that goes on, the value and what follows it
are known. A printer of the parts of a list decodes the list, when the parts are kept apart
by a mark and another mark closes the list (`forall₂_of_intercalate`). So a printer for a
tree is decoded by induction on the tree.
-/

namespace Decoding

variable {α χ : Type*}

/-- What the text of a value is followed by is known from the text, and so is the value, up
to what values have in common. -/
def Decodes (Ends : List χ → Prop) (print : α → List χ) (Valid : α → Prop)
    (Alike : α → α → Prop) (a : α) : Prop :=
  ∀ b, Valid b → ∀ r s, Ends r → Ends s → print a ++ r = print b ++ s → Alike a b ∧ r = s

/-- What follows the first entry of a list that is printed. -/
def afterFirst (print : α → List χ) (mark close : χ) (r : List χ) : List α → List χ
  | [] => close :: r
  | x :: xs => mark :: ([mark].intercalate ((x :: xs).map print) ++ close :: r)

section Rules

variable {Ends : List χ → Prop} {print : α → List χ} {Valid : α → Prop}
variable {Alike : α → α → Prop} {mark close : χ} {x : α} {xs : List α} {r s : List χ}

theorem intercalate_cons :
    [mark].intercalate ((x :: xs).map print) ++ close :: r
      = print x ++ afterFirst print mark close r xs := by
  cases xs with
  | nil => rw [List.map_singleton, List.intercalate_singleton, afterFirst]
  | cons y ys =>
    rw [List.map_cons, List.map_cons, List.intercalate_cons_cons, afterFirst, List.append_assoc,
      List.append_assoc]
    rfl

theorem ends_afterFirst (hmark : ∀ r, Ends (mark :: r)) (hclose : ∀ r, Ends (close :: r)) :
    Ends (afterFirst print mark close r xs) := by
  cases xs with
  | nil => exact hclose r
  | cons x xs => exact hmark _

/-- **The entries of a list are known from its text**, and what follows the list. -/
theorem forall₂_of_intercalate (hmark : ∀ r, Ends (mark :: r)) (hclose : ∀ r, Ends (close :: r))
    (hne : mark ≠ close) (hstart : ∀ a, ∃ c cs, print a = c :: cs ∧ c ≠ close) :
    ∀ xs : List α, (∀ x ∈ xs, Decodes Ends print Valid Alike x) →
      ∀ ys : List α, (∀ y ∈ ys, Valid y) → ∀ r s,
        [mark].intercalate (xs.map print) ++ close :: r
          = [mark].intercalate (ys.map print) ++ close :: s →
        List.Forall₂ Alike xs ys ∧ r = s := by
  -- the text of a list that is not empty does not begin with the closing mark
  have hcons : ∀ x xs r s,
      [mark].intercalate ((x :: xs).map print) ++ close :: r ≠ close :: s := by
    intro x xs r s h
    obtain ⟨c, cs, hprint, hc⟩ := hstart x
    rw [intercalate_cons, hprint] at h
    exact hc (List.cons.inj h).1
  intro xs
  induction xs with
  | nil =>
    intro _ ys _ r s h
    cases ys with
    | nil => exact ⟨List.Forall₂.nil, (List.cons.inj h).2⟩
    | cons y ys => exact absurd h.symm (hcons y ys s r)
  | cons x xs ih =>
    intro hxs ys hys r s h
    cases ys with
    | nil => exact absurd h (hcons x xs r s)
    | cons y ys =>
      rw [intercalate_cons, intercalate_cons] at h
      obtain ⟨hxy, hrest⟩ := hxs x List.mem_cons_self y (hys y List.mem_cons_self) _ _
        (ends_afterFirst hmark hclose) (ends_afterFirst hmark hclose) h
      have hlater := ih (fun x hx => hxs x (List.mem_cons_of_mem _ hx)) ys
        (fun y hy => hys y (List.mem_cons_of_mem _ hy)) r s
      cases xs with
      | nil =>
        cases ys with
        | nil => exact ⟨List.Forall₂.cons hxy List.Forall₂.nil, (List.cons.inj hrest).2⟩
        | cons y' ys => exact absurd (List.cons.inj hrest).1.symm hne
      | cons x' xs =>
        cases ys with
        | nil => exact absurd (List.cons.inj hrest).1 hne
        | cons y' ys =>
          obtain ⟨hall, hrs⟩ := hlater (List.cons.inj hrest).2
          exact ⟨List.Forall₂.cons hxy hall, hrs⟩

/-- Two texts that end at the first mark they do not have. -/
theorem append_inj_of_stop {p : χ → Bool} {l k : List χ} (hl : ∀ c ∈ l, p c = true)
    (hk : ∀ c ∈ k, p c = true) (hr : ∀ c cs, r = c :: cs → p c = false)
    (hs : ∀ c cs, s = c :: cs → p c = false) (h : l ++ r = k ++ s) : l = k ∧ r = s := by
  have htake : ∀ {l r : List χ}, (∀ c ∈ l, p c = true) → (∀ c cs, r = c :: cs → p c = false) →
      (l ++ r).takeWhile p = l := by
    intro l r hl hr
    rw [List.takeWhile_append_of_pos hl]
    cases r with
    | nil => exact List.append_nil l
    | cons c cs =>
      rw [List.takeWhile_cons_of_neg (by rw [hr c cs rfl]; exact Bool.false_ne_true),
        List.append_nil]
  have heq : l = k := by rw [← htake hl hr, h, htake hk hs]
  subst heq
  exact ⟨rfl, List.append_cancel_left h⟩

/-- What is in one of two lists that are alike has its like in the other. -/
theorem exists_mem_of_forall₂ {β : Type*} {R : α → β → Prop} {ys : List β}
    (h : List.Forall₂ R xs ys) (hx : x ∈ xs) : ∃ y ∈ ys, R x y := by
  induction h with
  | nil => exact absurd hx List.not_mem_nil
  | cons hxy _ ih =>
    obtain rfl | hx := List.mem_cons.mp hx
    · exact ⟨_, List.mem_cons_self, hxy⟩
    · obtain ⟨y, hy, hxy⟩ := ih hx
      exact ⟨y, List.mem_cons_of_mem _ hy, hxy⟩

end Rules

end Decoding
