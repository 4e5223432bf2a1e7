import Mathlib.Data.Finset.Card
import Mathlib.Data.Finset.Lattice.Lemmas
import Opifex.Lib.Grouping

/-!
# A cache that forgets what was used longest ago

A map with a bound keeps its entries in the order of their last use. A key that is
read or written comes last; where there are more entries than the bound allows, the
first ones go.

What is found under a key is what was put there last (`found_of_run`), and it is
found for as long as fewer other keys were used since than the bound allows
(`get_run_of_few`).
-/

namespace Recency

variable {κ ν : Type*} [DecidableEq κ]

/-- What is done to a cache. Reading an entry makes it the one used last, as writing it
does. -/
inductive Op (κ ν : Type*) where
  | get (k : κ)
  | put (k : κ) (v : ν)
  | remove (p : κ → Bool)

/-- An entry as the one used last. -/
def touch (m : KeyMap κ ν) (k : κ) (v : ν) : KeyMap κ ν := (m.erase k).set k v

/-- The entries that the bound leaves. -/
def evict (limit : ℕ) (m : KeyMap κ ν) : KeyMap κ ν where
  entries := m.entries.drop (m.entries.length - limit)
  nodup := m.nodup.sublist ((List.drop_sublist _ _).map Prod.fst)

/-- The entry under a key, and the cache after it was read. -/
def read (m : KeyMap κ ν) (k : κ) : Option ν × KeyMap κ ν :=
  match m.get k with
  | none => (none, m)
  | some v => (some v, touch m k v)

/-- A write: the key becomes the one used last, and what exceeds the limit is evicted.
-/
def write (limit : ℕ) (m : KeyMap κ ν) (k : κ) (v : ν) : KeyMap κ ν :=
  evict limit (touch m k v)

/-- An operation on the map. -/
def step (limit : ℕ) (m : KeyMap κ ν) : Op κ ν → KeyMap κ ν
  | .get k => (read m k).2
  | .put k v => write limit m k v
  | .remove p => m.keep fun k => !p k

/-- Operations one after another. -/
def run (limit : ℕ) (m : KeyMap κ ν) (ops : List (Op κ ν)) : KeyMap κ ν :=
  ops.foldl (step limit) m

/-- The keys that are used. -/
def Op.uses : Op κ ν → Finset κ
  | .get k => {k}
  | .put k _ => {k}
  | .remove _ => ∅

/-- The keys that operations use, each counted once. -/
def used (ops : List (Op κ ν)) : Finset κ := ops.foldr (fun op keys => op.uses ∪ keys) ∅

/-- What is under the key stays, as far as this goes. -/
def Op.spares (k : κ) : Op κ ν → Prop
  | .get _ => True
  | .put j _ => j ≠ k
  | .remove p => p k = false

variable {limit : ℕ} {m : KeyMap κ ν} {k j : κ} {v w : ν} {ops : List (Op κ ν)}

theorem run_append (first later : List (Op κ ν)) :
    run limit m (first ++ later) = run limit (run limit m first) later :=
  List.foldl_append

/-! ## The entries -/

theorem alterEntries_of_notMem {f : Option ν → ν} {entries : List (κ × ν)}
    (h : k ∉ entries.map Prod.fst) :
    KeyMap.alterEntries k f entries = entries ++ [(k, f none)] := by
  induction entries with
  | nil => rfl
  | cons entry entries ih =>
    rw [List.map_cons, List.mem_cons, not_or] at h
    unfold KeyMap.alterEntries
    rw [if_neg (Ne.symm h.1), ih h.2, List.cons_append]

theorem entries_touch :
    (touch m k v).entries = m.entries.filter (fun entry => entry.1 != k) ++ [(k, v)] := by
  refine alterEntries_of_notMem fun hmem => ?_
  obtain ⟨entry, hentry, hkey⟩ := List.mem_map.mp hmem
  have hne := (List.mem_filter.mp hentry).2
  rw [hkey] at hne
  simp at hne

theorem get_touch : (touch m k v).get j = if k = j then some v else m.get j := by
  unfold touch
  rw [KeyMap.get_set, KeyMap.get_erase]
  by_cases hkey : k = j
  · rw [if_pos hkey, if_pos hkey]
  · rw [if_neg hkey, if_neg hkey, if_neg hkey]

theorem fst_read : (read m k).1 = m.get k := by
  unfold read
  cases m.get k with
  | none => rfl
  | some v => rfl

/-- A read leaves the cache, or makes the entry it finds the one used last. -/
theorem read_cases :
    (m.get k = none ∧ (read m k).2 = m)
      ∨ ∃ v, m.get k = some v ∧ (read m k).2 = touch m k v := by
  unfold read
  cases m.get k with
  | none => exact Or.inl ⟨rfl, rfl⟩
  | some v => exact Or.inr ⟨v, rfl, rfl⟩

theorem get_read : (read m k).2.get j = m.get j := by
  obtain ⟨-, hsame⟩ | ⟨v, hget, htouch⟩ := @read_cases _ _ _ m k
  · rw [hsame]
  · rw [htouch, get_touch]
    by_cases hkey : k = j
    · rw [if_pos hkey, ← hkey, hget]
    · rw [if_neg hkey]

omit [DecidableEq κ] in
theorem mem_evict {entry : κ × ν} (h : entry ∈ (evict limit m).entries) :
    entry ∈ m.entries :=
  List.mem_of_mem_drop h

/-- **The bound is kept.** -/
theorem length_run_le (h : m.entries.length ≤ limit) :
    (run limit m ops).entries.length ≤ limit := by
  induction ops using List.reverseRecOn with
  | nil => exact h
  | append_singleton ops op ih =>
    rw [run_append]
    show (step limit (run limit m ops) op).entries.length ≤ limit
    cases op with
    | get k =>
      show (read (run limit m ops) k).2.entries.length ≤ limit
      obtain ⟨-, hsame⟩ | ⟨v, hget, htouch⟩ := @read_cases _ _ _ (run limit m ops) k
      · rw [hsame]
        exact ih
      · -- the entry was there
        have hmem := KeyMap.get_eq_some_iff.mp hget
        have hlt : ((run limit m ops).entries.filter fun entry => entry.1 != k).length
            < (run limit m ops).entries.length := by
          rw [List.length_filter_lt_length_iff_exists]
          exact ⟨(k, v), hmem, by simp⟩
        rw [htouch, entries_touch, List.length_append, List.length_singleton]
        omega
    | put k v =>
      show ((touch _ k v).entries.drop _).length ≤ limit
      rw [List.length_drop]
      omega
    | remove p => exact (List.length_filter_le _ _).trans ih

/-! ## What is found -/

/-- **What is found was put there last**, and nothing took it away since. -/
theorem found_of_run (h : (run limit m ops).get k = some v) :
    (m.get k = some v ∧ ∀ op ∈ ops, op.spares k)
      ∨ ∃ first later, ops = first ++ .put k v :: later ∧ ∀ op ∈ later, op.spares k := by
  induction ops using List.reverseRecOn generalizing v with
  | nil => exact Or.inl ⟨h, by simp⟩
  | append_singleton ops op ih =>
    rw [run_append] at h
    -- what an operation that spares the key leaves was there before it
    have hbefore : ∀ v, (run limit m ops).get k = some v → op.spares k →
        (m.get k = some v ∧ ∀ op' ∈ ops ++ [op], op'.spares k)
          ∨ ∃ first later, ops ++ [op] = first ++ .put k v :: later
            ∧ ∀ op' ∈ later, op'.spares k := by
      intro v hfound hspares
      obtain ⟨hm, hops⟩ | ⟨first, later, rfl, hlater⟩ := ih hfound
      · refine Or.inl ⟨hm, fun op' hop' => ?_⟩
        obtain hop' | hop' := List.mem_append.mp hop'
        · exact hops op' hop'
        · rw [List.mem_singleton.mp hop']
          exact hspares
      · refine Or.inr ⟨first, later ++ [op], by simp, fun op' hop' => ?_⟩
        obtain hop' | hop' := List.mem_append.mp hop'
        · exact hlater op' hop'
        · rw [List.mem_singleton.mp hop']
          exact hspares
    cases op with
    | get j =>
      refine hbefore v ?_ trivial
      rw [← h]
      exact get_read.symm
    | put j w =>
      have hmem := KeyMap.get_eq_some_iff.mp
        (KeyMap.get_eq_some_iff.mpr (mem_evict (KeyMap.get_eq_some_iff.mp h)))
      have hfound : (touch (run limit m ops) j w).get k = some v :=
        KeyMap.get_eq_some_iff.mpr hmem
      rw [get_touch] at hfound
      by_cases hkey : j = k
      · rw [if_pos hkey] at hfound
        rw [← Option.some.inj hfound, hkey]
        exact Or.inr ⟨ops, [], rfl, by simp⟩
      · rw [if_neg hkey] at hfound
        exact hbefore v hfound hkey
    | remove p =>
      have hfound : ((run limit m ops).keep fun k => !p k).get k = some v := h
      rw [KeyMap.get_keep] at hfound
      by_cases hp : (!p k) = true
      · rw [if_pos hp] at hfound
        exact hbefore v hfound (by simpa [Op.spares] using hp)
      · rw [if_neg hp] at hfound
        contradiction

/-- The keys behind an entry are among those used since. -/
def Behind (m : KeyMap κ ν) (k : κ) (v : ν) (since : Finset κ) : Prop :=
  ∃ front back, m.entries = front ++ (k, v) :: back
    ∧ ∀ entry ∈ back, entry.1 ∈ since ∧ entry.1 ≠ k

theorem Behind.get {since : Finset κ} (h : Behind m k v since) : m.get k = some v := by
  obtain ⟨front, back, hentries, -⟩ := h
  exact KeyMap.get_eq_some_iff.mpr (hentries ▸ by simp)

/-- What was used last stands behind nothing. -/
theorem behind_touch : Behind (touch m k v) k v ∅ :=
  ⟨_, [], entries_touch, by simp⟩

theorem Behind.touch {since : Finset κ} (h : Behind m k v since) (hne : j ≠ k) :
    Behind (touch m j w) k v ({j} ∪ since) := by
  obtain ⟨front, back, hentries, hback⟩ := h
  refine ⟨front.filter (fun entry => entry.1 != j),
    back.filter (fun entry => entry.1 != j) ++ [(j, w)], ?_, fun entry hentry => ?_⟩
  · rw [entries_touch, hentries, List.filter_append,
      List.filter_cons_of_pos (by simpa using hne.symm)]
    simp
  · obtain hentry | hentry := List.mem_append.mp hentry
    · obtain ⟨hin, hkey⟩ := hback entry (List.mem_filter.mp hentry).1
      exact ⟨Finset.mem_union_right _ hin, hkey⟩
    · rw [List.mem_singleton.mp hentry]
      exact ⟨Finset.mem_union_left _ (Finset.mem_singleton_self j), hne⟩

/-- What stands behind few is not evicted. -/
theorem Behind.evict {since : Finset κ} (h : Behind m k v since)
    (hfew : (since.erase k).card < limit) : Behind (evict limit m) k v since := by
  obtain ⟨front, back, hentries, hback⟩ := h
  have hnodup : (back.map Prod.fst).Nodup := by
    have hall := m.nodup
    rw [hentries, List.map_append, List.map_cons] at hall
    exact (List.nodup_cons.mp (List.Nodup.of_append_right hall)).2
  have hcard : back.length ≤ (since.erase k).card := by
    rw [← List.length_map (f := Prod.fst), ← List.toFinset_card_of_nodup hnodup]
    refine Finset.card_le_card fun key hkey => ?_
    obtain ⟨entry, hentry, rfl⟩ := List.mem_map.mp (List.mem_toFinset.mp hkey)
    exact Finset.mem_erase.mpr ⟨(hback entry hentry).2, (hback entry hentry).1⟩
  have hdrop : m.entries.length - limit ≤ front.length := by
    rw [hentries, List.length_append, List.length_cons]
    omega
  refine ⟨front.drop (m.entries.length - limit), back, ?_, hback⟩
  show m.entries.drop _ = _
  rw [hentries] at hdrop ⊢
  rw [List.drop_append_of_le_length hdrop]

omit [DecidableEq κ] in
theorem Behind.mono {since since' : Finset κ} (h : Behind m k v since)
    (hle : since ⊆ since') : Behind m k v since' := by
  obtain ⟨front, back, hentries, hback⟩ := h
  exact ⟨front, back, hentries,
    fun entry hentry => ⟨hle (hback entry hentry).1, (hback entry hentry).2⟩⟩

theorem Behind.step {since : Finset κ} (h : Behind m k v since) {op : Op κ ν}
    (hspares : op.spares k) (hfew : ((op.uses ∪ since).erase k).card < limit) :
    Behind (step limit m op) k v (op.uses ∪ since) := by
  cases op with
  | get j =>
    show Behind (read m j).2 k v _
    obtain ⟨-, hsame⟩ | ⟨w, hget, htouch⟩ := @read_cases _ _ _ m j
    · rw [hsame]
      exact h.mono Finset.subset_union_right
    · rw [htouch]
      by_cases hne : j = k
      · rw [hne] at hget ⊢
        rw [Option.some.inj (hget.symm.trans h.get)]
        exact behind_touch.mono (Finset.empty_subset _)
      · exact h.touch hne
  | put j w => exact (h.touch hspares).evict hfew
  | remove p =>
    obtain ⟨front, back, hentries, hback⟩ := h
    have hkeep : (!p k) = true := by
      rw [show p k = false from hspares]
      rfl
    refine ⟨front.filter (fun entry => !p entry.1), back.filter (fun entry => !p entry.1),
      ?_, fun entry hentry => ?_⟩
    · show m.entries.filter (fun entry => !p entry.1) = _
      rw [hentries, List.filter_append]
      exact congrArg _ (List.filter_cons_of_pos hkeep)
    · obtain ⟨hin, hkey⟩ := hback entry (List.mem_filter.mp hentry).1
      exact ⟨Finset.mem_union_right _ hin, hkey⟩

theorem Behind.run {since : Finset κ} (h : Behind m k v since)
    (hspares : ∀ op ∈ ops, op.spares k) (hfew : ((used ops ∪ since).erase k).card < limit) :
    Behind (run limit m ops) k v (used ops ∪ since) := by
  induction ops using List.reverseRecOn with
  | nil => exact h.mono Finset.subset_union_right
  | append_singleton ops op ih =>
    have hused : used (ops ++ [op]) = op.uses ∪ used ops := by
      clear ih hspares hfew
      induction ops with
      | nil => exact (Finset.union_empty _).trans (Finset.union_empty _).symm
      | cons first ops ih =>
        show first.uses ∪ used (ops ++ [op]) = op.uses ∪ (first.uses ∪ used ops)
        rw [ih, Finset.union_left_comm]
    rw [hused, Finset.union_assoc] at hfew ⊢
    have hless : ((used ops ∪ since).erase k).card < limit :=
      (Finset.card_le_card (Finset.erase_subset_erase k Finset.subset_union_right)).trans_lt
        hfew
    have hbefore := ih (fun op' hop' => hspares op' (List.mem_append_left _ hop')) hless
    rw [run_append]
    exact hbefore.step (hspares op (by simp)) hfew

/-- **What was put is found** while fewer other keys were used than the bound allows. -/
theorem get_run_of_few (hspares : ∀ op ∈ ops, op.spares k)
    (hfew : ((used ops).erase k).card < limit) :
    (run limit (write limit m k v) ops).get k = some v := by
  have hput : Behind (write limit m k v) k v ∅ :=
    behind_touch.evict (lt_of_le_of_lt (Nat.zero_le _) hfew)
  refine (hput.run hspares ?_).get
  rw [Finset.union_empty]
  exact hfew

end Recency
