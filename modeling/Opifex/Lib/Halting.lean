import Mathlib.Data.List.Basic

/-!
# Loops that a failure ends

A step of such a loop returns the state it leaves and, if it failed, why. A
failure ends the loop and undoes nothing: what the steps before it did, and what
the failing one did before it failed, stays done.

Where it depends on the item alone whether a step fails, the items that are
reached are those up to and including the first that fails (`upTo`), the loop
fails exactly when one of them does (`run_isSome`), and a log is what the reached
items write (`run_log`). Reached in two levels or in one, the items are the same
(`upTo_flatMap`).
-/

namespace Halting

variable {σ ε α β ω : Type*}

/-- The loop: the state it ends in, and the failure that ended it. -/
def run (step : σ → α → σ × Option ε) : σ → List α → σ × Option ε
  | s, [] => (s, none)
  | s, a :: l =>
    match step s a with
    | (s', some failure) => (s', some failure)
    | (s', none) => run step s' l

/-- The items up to and including the first that stops. -/
def upTo (stops : α → Bool) : List α → List α
  | [] => []
  | a :: l => if stops a then [a] else a :: upTo stops l

section UpTo

variable {stops : α → Bool} {a : α} {l l' : List α}

theorem mem_of_mem_upTo (h : a ∈ upTo stops l) : a ∈ l := by
  induction l with
  | nil => exact h
  | cons b l ih =>
    unfold upTo at h
    by_cases hb : stops b = true
    · rw [if_pos hb, List.mem_singleton] at h
      rw [h]
      exact List.mem_cons_self
    · rw [if_neg hb] at h
      obtain rfl | hmem := List.mem_cons.mp h
      · exact List.mem_cons_self
      · exact List.mem_cons_of_mem _ (ih hmem)

theorem upTo_append :
    upTo stops (l ++ l')
      = upTo stops l ++ if l.any stops then [] else upTo stops l' := by
  induction l with
  | nil => rfl
  | cons b l ih =>
    rw [List.cons_append, upTo, upTo, List.any_cons]
    by_cases hb : stops b = true
    · rw [if_pos hb, if_pos hb, hb, Bool.true_or, if_pos rfl, List.append_nil]
    · rw [if_neg hb, if_neg hb, ih, Bool.eq_false_iff.mpr hb, Bool.false_or]
      rfl

/-- What is reached of items that are made up of others: of each up to the first
in which one stops, what is reached. -/
theorem upTo_flatMap {f : β → List α} {m : List β} :
    upTo stops (m.flatMap f)
      = (upTo (fun b => (f b).any stops) m).flatMap fun b => upTo stops (f b) := by
  induction m with
  | nil => rfl
  | cons b m ih =>
    rw [List.flatMap_cons, upTo_append, upTo]
    by_cases hb : (f b).any stops = true
    · rw [if_pos hb, if_pos hb, List.append_nil, List.flatMap_cons,
        List.flatMap_nil, List.append_nil]
    · rw [if_neg hb, if_neg hb, List.flatMap_cons, ih]

theorem upTo_map {g : β → α} {m : List β} :
    upTo stops (m.map g) = (upTo (fun b => stops (g b)) m).map g := by
  induction m with
  | nil => rfl
  | cons b m ih =>
    rw [List.map_cons, upTo, upTo]
    by_cases hb : stops (g b) = true
    · rw [if_pos hb, if_pos hb]
      rfl
    · rw [if_neg hb, if_neg hb, ih]
      rfl

end UpTo

section Run

variable {step : σ → α → σ × Option ε} {stops : α → Bool}

/-- The loop fails exactly when an item stops it. -/
theorem run_isSome (hstops : ∀ s a, (step s a).2.isSome = stops a) (s : σ)
    (l : List α) : (run step s l).2.isSome = l.any stops := by
  induction l generalizing s with
  | nil => rfl
  | cons a l ih =>
    have hfirst := hstops s a
    unfold run
    rw [List.any_cons, ← hfirst]
    obtain ⟨s', failure⟩ := step s a
    cases failure with
    | some failure => rfl
    | none => exact ih s'

/-- **A log holds what the reached items write.** -/
theorem run_log {log : σ → List ω} {writes : α → List ω}
    (hstops : ∀ s a, (step s a).2.isSome = stops a)
    (hlog : ∀ s a, log (step s a).1 = log s ++ writes a) (s : σ) (l : List α) :
    log (run step s l).1 = log s ++ (upTo stops l).flatMap writes := by
  induction l generalizing s with
  | nil => exact (List.append_nil _).symm
  | cons a l ih =>
    have hfirst := hstops s a
    have hwrites := hlog s a
    unfold run upTo
    rw [← hfirst]
    cases hstep : step s a with
    | mk s' failure =>
      rw [hstep] at hwrites
      cases failure with
      | some failure =>
        show log s' = _
        rw [if_pos (show (some failure).isSome = true from rfl),
          List.flatMap_cons, List.flatMap_nil, List.append_nil]
        exact hwrites
      | none =>
        show log (run step s' l).1 = _
        rw [if_neg (show ¬ (none : Option ε).isSome = true from Bool.false_ne_true),
          List.flatMap_cons, ih, ← List.append_assoc]
        exact congrArg (· ++ _) hwrites

/-- What a loop that came to its end collected. -/
theorem run_collect {collect : σ → List ω} {items : α → List ω}
    (hitems : ∀ s a s', step s a = (s', none) → collect s' = collect s ++ items a)
    {s s' : σ} {l : List α} (h : run step s l = (s', none)) :
    collect s' = collect s ++ l.flatMap items := by
  induction l generalizing s with
  | nil =>
    have hend : s = s' := (Prod.ext_iff.mp h).1
    rw [hend, List.flatMap_nil, List.append_nil]
  | cons a l ih =>
    unfold run at h
    cases hstep : step s a with
    | mk next failure =>
      rw [hstep] at h
      cases failure with
      | some failure => cases (Prod.ext_iff.mp h).2
      | none =>
        rw [ih h, hitems s a next hstep, List.flatMap_cons, List.append_assoc]

end Run

end Halting
