import Mathlib.Data.Set.Basic
import Mathlib.Tactic.Tauto

/-!
# Bringing the owned part of a collection to what is wanted

A reconciler that shares a collection with others owns some of its elements.
It adds the wanted elements that are missing and removes the owned ones that
are no longer wanted, and leaves everything else alone. Edits are data here: a
list of additions and removals is computed first and carried out afterwards.

`Toward` says which edits such a reconciler computes, whatever the order it
lists them in. Carrying them out leaves **exactly the wanted elements and
those that are not owned** (`Toward.result`), and computing the edits again
afterwards finds **nothing left to do** (`Toward.settled`).
-/

/-- Adding or removing one element. A set that is changed by edits in any order ends as
the same set where no element is both added and removed. -/
inductive Edit (α : Type*) where
  | add (a : α)
  | remove (a : α)
deriving DecidableEq, Repr

namespace Edit

variable {α : Type*} [DecidableEq α] {owned wanted : Set α}
  {current : List α} {edits : List (Edit α)} {a : α}

/-- What one edit does to a collection. Adding what is there and removing what
is not changes nothing. -/
def apply (current : List α) : Edit α → List α
  | add a => if a ∈ current then current else current ++ [a]
  | remove a => current.filter (· ≠ a)

/-- What a list of edits does, one after the other. -/
def applyAll (current : List α) (edits : List (Edit α)) : List α :=
  edits.foldl apply current

theorem mem_apply_add {b : α} :
    a ∈ apply current (add b) ↔ a ∈ current ∨ a = b := by
  show a ∈ (if b ∈ current then current else current ++ [b]) ↔ _
  split_ifs with h
  · exact ⟨Or.inl, fun h' => h'.elim id fun hab => hab ▸ h⟩
  · rw [List.mem_append, List.mem_singleton]

theorem mem_apply_remove {b : α} :
    a ∈ apply current (remove b) ↔ a ∈ current ∧ a ≠ b := by
  show a ∈ current.filter (· ≠ b) ↔ _
  rw [List.mem_filter, decide_eq_true_iff]

/-- **What a list of edits leaves**, as long as no element is both added and
removed: what was there or is added, without what is removed. -/
theorem mem_applyAll (hedits : ∀ b, add b ∈ edits → remove b ∉ edits) :
    a ∈ applyAll current edits ↔
      (a ∈ current ∨ add a ∈ edits) ∧ remove a ∉ edits := by
  induction edits generalizing current with
  | nil => simp [applyAll]
  | cons edit edits ih =>
    have hrest : ∀ b, add b ∈ edits → remove b ∉ edits := fun b hb hb' =>
      hedits b (List.mem_cons_of_mem _ hb) (List.mem_cons_of_mem _ hb')
    rw [show applyAll current (edit :: edits)
        = applyAll (apply current edit) edits from rfl, ih hrest]
    cases edit with
    | add b =>
      rw [mem_apply_add]
      simp only [List.mem_cons, add.injEq, reduceCtorEq, false_or]
      tauto
    | remove b =>
      have hb : add b ∉ edits := fun h =>
        hedits b (List.mem_cons_of_mem _ h) List.mem_cons_self
      rw [mem_apply_remove]
      simp only [List.mem_cons, remove.injEq, reduceCtorEq, false_or, not_or]
      -- an element removed first is not added back later
      have hab : add a ∈ edits → a ≠ b := fun h hab => hb (hab ▸ h)
      tauto

/-- **The edits of a reconciler**: the wanted elements that are missing are
added, and the owned ones that are not wanted are removed. -/
structure Toward (owned wanted : Set α) (current : List α)
    (edits : List (Edit α)) : Prop where
  add_iff : ∀ a, add a ∈ edits ↔ a ∈ wanted ∧ a ∉ current
  remove_iff : ∀ a, remove a ∈ edits ↔ a ∈ current ∧ a ∉ wanted ∧ a ∈ owned

namespace Toward

/-- **One pass is enough**, and it touches only what is owned. -/
theorem result (h : Toward owned wanted current edits) :
    {a | a ∈ applyAll current edits} = wanted ∪ ({a | a ∈ current} \ owned) := by
  have hedits : ∀ b, add b ∈ edits → remove b ∉ edits := fun b hadd hremove =>
    ((h.remove_iff b).mp hremove).2.1 ((h.add_iff b).mp hadd).1
  ext a
  show a ∈ applyAll current edits ↔ a ∈ wanted ∨ a ∈ current ∧ a ∉ owned
  rw [mem_applyAll hedits, h.add_iff, h.remove_iff]
  tauto

/-- **Nothing is left to do afterwards.** -/
theorem settled {later : List (Edit α)}
    (h : Toward owned wanted current edits)
    (hlater : Toward owned wanted (applyAll current edits) later) :
    later = [] := by
  have hmem : ∀ a, a ∈ applyAll current edits ↔
      a ∈ wanted ∨ a ∈ current ∧ a ∉ owned := fun a =>
    Set.ext_iff.mp h.result a
  refine List.eq_nil_iff_forall_not_mem.mpr fun edit hedit => ?_
  cases edit with
  | add a =>
    rw [hlater.add_iff, hmem] at hedit
    tauto
  | remove a =>
    rw [hlater.remove_iff, hmem] at hedit
    tauto

end Toward

end Edit
