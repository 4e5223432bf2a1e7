import Mathlib.Data.List.Induction
import Mathlib.Data.List.Nodup

/-!
# Keeping the first of each key

A loop goes over a list and keeps an element unless it has kept one with the same
key. What is left shows each key of the list once (`mem_map_dedupe`,
`nodup_map_dedupe`), and for each key its first element
(`mem_dedupe_iff`).
-/

namespace Distinct

variable {α κ : Type*} [BEq κ]

/-- The loop: `kept` is what has been kept so far. -/
def dedupe (key : α → κ) (l : List α) : List α :=
  l.foldl
    (fun kept a => if kept.any fun b => key b == key a then kept else kept ++ [a])
    []

variable [LawfulBEq κ] {key : α → κ} {l : List α} {a : α}

/-- One element more. -/
theorem dedupe_concat (l : List α) (a : α) :
    dedupe key (l ++ [a])
      = if key a ∈ (dedupe key l).map key then dedupe key l
        else dedupe key l ++ [a] := by
  have hany : ((dedupe key l).any fun b => key b == key a) = true
      ↔ key a ∈ (dedupe key l).map key := by
    rw [List.any_eq_true, List.mem_map]
    simp
  unfold dedupe at hany ⊢
  rw [List.foldl_append]
  show (if _ then _ else _) = _
  simp only [hany]

/-- **No key is lost.** -/
theorem mem_map_dedupe {k : κ} :
    k ∈ (dedupe key l).map key ↔ k ∈ l.map key := by
  induction l using List.reverseRecOn with
  | nil => rfl
  | append_singleton l a ih =>
    rw [dedupe_concat, List.map_append, List.mem_append]
    by_cases ha : key a ∈ (dedupe key l).map key
    · rw [if_pos ha, ih]
      refine ⟨Or.inl, fun h => h.elim id fun hk => ?_⟩
      rw [List.map_singleton, List.mem_singleton] at hk
      rw [← hk] at ha
      exact ih.mp ha
    · rw [if_neg ha, List.map_append, List.mem_append, ih]

/-- **No key is kept twice.** -/
theorem nodup_map_dedupe : ((dedupe key l).map key).Nodup := by
  induction l using List.reverseRecOn with
  | nil => exact List.nodup_nil
  | append_singleton l a ih =>
    rw [dedupe_concat]
    by_cases ha : key a ∈ (dedupe key l).map key
    · rw [if_pos ha]
      exact ih
    · rw [if_neg ha, List.map_append, List.map_singleton]
      rw [← List.concat_eq_append]
      exact List.Nodup.concat ha ih

theorem dedupe_sublist : (dedupe key l).Sublist l := by
  induction l using List.reverseRecOn with
  | nil => exact List.Sublist.slnil
  | append_singleton l a ih =>
    rw [dedupe_concat]
    by_cases ha : key a ∈ (dedupe key l).map key
    · rw [if_pos ha]
      exact ih.trans (List.sublist_append_left l [a])
    · rw [if_neg ha]
      exact ih.append (List.Sublist.refl [a])

/-- **What is kept of a key is its first element.** -/
theorem mem_dedupe_iff :
    a ∈ dedupe key l ↔ l.find? (fun b => key b == key a) = some a := by
  induction l using List.reverseRecOn with
  | nil => exact iff_of_false List.not_mem_nil nofun
  | append_singleton l b ih =>
    rw [dedupe_concat, List.find?_append]
    cases hfirst : l.find? fun c => key c == key a with
    | some first =>
      -- the key was there before
      have hkey : key a ∈ (dedupe key l).map key := by
        rw [mem_map_dedupe, List.mem_map]
        exact ⟨first, List.mem_of_find?_eq_some hfirst,
          by simpa using List.find?_some hfirst⟩
      rw [hfirst] at ih
      rw [Option.some_or, ← ih]
      by_cases hb : key b ∈ (dedupe key l).map key
      · rw [if_pos hb]
      · rw [if_neg hb, List.mem_append, List.mem_singleton, or_iff_left]
        rintro rfl
        exact hb hkey
    | none =>
      have hkey : key a ∉ (dedupe key l).map key := by
        rw [mem_map_dedupe, List.mem_map]
        rintro ⟨c, hc, hca⟩
        exact List.find?_eq_none.mp hfirst c hc (beq_iff_eq.mpr hca)
      have hmem : a ∉ dedupe key l := fun h => hkey (List.mem_map_of_mem h)
      rw [Option.none_or, List.find?_singleton]
      by_cases hb : key b ∈ (dedupe key l).map key
      · have hba : ¬(key b == key a) = true := fun h => hkey (beq_iff_eq.mp h ▸ hb)
        rw [if_pos hb, if_neg hba]
        exact iff_of_false hmem nofun
      · rw [if_neg hb, List.mem_append, List.mem_singleton, or_iff_right hmem]
        constructor
        · rintro rfl
          simp
        · intro h
          obtain ⟨-, heq⟩ := Option.ite_none_right_eq_some.mp h
          exact (Option.some.inj heq).symm

end Distinct
