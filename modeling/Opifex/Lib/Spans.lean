import Mathlib.Algebra.BigOperators.Group.List.Basic
import Mathlib.Algebra.Order.BigOperators.Group.List
import Mathlib.Data.Int.Interval
import Mathlib.Order.WithBot

/-!
# Spans of time

A span begins at a point and stops at a later one, or goes on for ever. Two
spans are apart when they have no more than an endpoint in common, which is to
say that no point is held by both of them, a span holding the point it begins
at and not the one it stops at.

What is counted of spans that are pairwise apart is counted once: together they
hold no more points of a window than the window has.
-/

universe u

/-- **A span**: where it begins, and where it stops if it does. One that has not stopped
covers everything from its beginning on. -/
structure Span (α : Type u) where
  start : α
  stop : WithTop α

namespace Span

section Order

variable {α : Type u} [LinearOrder α] {a b c : Span α} {t : α}

/-- The point is in the span. -/
def Holds (a : Span α) (t : α) : Prop := a.start ≤ t ∧ (t : WithTop α) < a.stop

instance : DecidablePred a.Holds := fun t =>
  inferInstanceAs (Decidable (a.start ≤ t ∧ (t : WithTop α) < a.stop))

/-- No more than an endpoint is in both. -/
def Apart (a b : Span α) : Prop :=
  min a.stop b.stop ≤ ((max a.start b.start : α) : WithTop α)

theorem Apart.symm (h : a.Apart b) : b.Apart a := by
  unfold Apart at h ⊢
  rwa [min_comm, max_comm]

/-- A point is in one of them at most. -/
theorem Apart.not_holds (h : a.Apart b) (ha : a.Holds t) : ¬ b.Holds t := by
  intro hb
  have hlt : (t : WithTop α) < min a.stop b.stop := lt_min ha.2 hb.2
  have hle : ((max a.start b.start : α) : WithTop α) ≤ t :=
    WithTop.coe_le_coe.mpr (max_le ha.1 hb.1)
  exact absurd (lt_of_lt_of_le hlt h) (not_lt.mpr hle)

/-- A span that stops sooner stays apart. -/
theorem Apart.shorten (h : a.Apart b) (hstart : c.start = a.start)
    (hstop : c.stop ≤ a.stop) : c.Apart b := by
  unfold Apart at h ⊢
  rw [hstart]
  exact le_trans (min_le_min_right _ hstop) h

/-- Apart from a span that goes on for ever is what stops before that begins,
and what holds nothing. -/
theorem apart_forever {start : α} :
    a.Apart ⟨start, ⊤⟩ ↔ a.stop ≤ ((max a.start start : α) : WithTop α) := by
  unfold Apart
  rw [min_eq_left le_top]

/-- Two spans that go on for ever are never apart. -/
theorem not_apart_forever (ha : a.stop = ⊤) (hb : b.stop = ⊤) :
    ¬ a.Apart b := by
  unfold Apart
  rw [ha, hb, min_self, not_le]
  exact WithTop.coe_lt_top _

end Order

section Count

variable {α : Type u} [LinearOrder α] [LocallyFiniteOrder α] {lower upper : α}

/-- The points of a window that the span holds. -/
def within (a : Span α) (lower upper : α) : Finset α :=
  (Finset.Ico lower upper).filter a.Holds

/-- **A window that is cut in two** is held as its two parts are. -/
theorem card_within_add (a : Span α) {mid : α} (hlower : lower ≤ mid)
    (hupper : mid ≤ upper) :
    (a.within lower mid).card + (a.within mid upper).card
      = (a.within lower upper).card := by
  have hunion : a.within lower upper = a.within lower mid ∪ a.within mid upper := by
    rw [within, within, within, ← Finset.filter_union,
      Finset.Ico_union_Ico_eq_Ico hlower hupper]
  have hdisjoint : Disjoint (a.within lower mid) (a.within mid upper) :=
    (Finset.Ico_disjoint_Ico_consecutive lower mid upper).mono
      (Finset.filter_subset _ _) (Finset.filter_subset _ _)
  rw [hunion, Finset.card_union_of_disjoint hdisjoint]

/-- And so is one that is cut at any number of points. -/
theorem sum_card_within_consecutive (a : Span α) {cut : ℕ → α}
    (hcut : Monotone cut) (n : ℕ) :
    ((List.range n).map fun i => (a.within (cut i) (cut (i + 1))).card).sum
      = (a.within (cut 0) (cut n)).card := by
  induction n with
  | zero => simp [within]
  | succ n ih =>
    rw [List.range_succ, List.map_append, List.sum_append, ih, List.map_singleton,
      List.sum_singleton]
    exact card_within_add a (hcut n.zero_le) (hcut n.le_succ)

/-- The points of a window that one of the spans holds. -/
def together (spans : List (Span α)) (lower upper : α) : Finset α :=
  (Finset.Ico lower upper).filter fun t => ∃ a ∈ spans, a.Holds t

/-- **Spans that are apart hold no point twice.** -/
theorem sum_card_within {spans : List (Span α)}
    (h : spans.Pairwise Apart) :
    (spans.map fun a => (a.within lower upper).card).sum
      = (together spans lower upper).card := by
  induction spans with
  | nil => simp [together]
  | cons a spans ih =>
    obtain ⟨hapart, hrest⟩ := List.pairwise_cons.mp h
    have hsplit : together (a :: spans) lower upper
        = a.within lower upper ∪ together spans lower upper := by
      ext t
      simp only [together, within, Finset.mem_union, Finset.mem_filter,
        List.mem_cons, exists_eq_or_imp, and_or_left]
    have hdisjoint :
        Disjoint (a.within lower upper) (together spans lower upper) := by
      rw [Finset.disjoint_left]
      intro t ht ht'
      obtain ⟨b, hb, hholds⟩ := (Finset.mem_filter.mp ht').2
      exact (hapart b hb).not_holds (Finset.mem_filter.mp ht).2 hholds
    rw [List.map_cons, List.sum_cons, ih hrest, hsplit,
      Finset.card_union_of_disjoint hdisjoint]

/-- **And no more than the window has.** -/
theorem sum_card_within_le {spans : List (Span α)}
    (h : spans.Pairwise Apart) :
    (spans.map fun a => (a.within lower upper).card).sum
      ≤ (Finset.Ico lower upper).card := by
  rw [sum_card_within h]
  exact Finset.card_le_card (Finset.filter_subset _ _)

end Count

end Span
