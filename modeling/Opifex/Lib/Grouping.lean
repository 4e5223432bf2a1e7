import Mathlib.Data.List.Find
import Mathlib.Data.List.Nodup

/-!
# A map filled in one pass

A map from keys to values that remembers the order its keys came in. A pass
over rows that puts each row to what its key has so far leaves under a key
**what the rows of that key alone make** (`get_group`): the rows of other keys
do not matter, nor how they are interleaved with those.
-/

/-- **A map**: entries in the order they were added, under distinct keys. Writing to a
key that is there leaves it in its place. -/
structure KeyMap (κ ν : Type*) where
  entries : List (κ × ν)
  nodup : (entries.map Prod.fst).Nodup

namespace KeyMap

variable {κ ν ω α : Type*} [DecidableEq κ]

/-- The map without keys. -/
def empty : KeyMap κ ν := ⟨[], List.nodup_nil⟩

/-- `get`. -/
def get (m : KeyMap κ ν) (k : κ) : Option ν :=
  (m.entries.find? fun entry => entry.1 == k).map Prod.snd

/-- The entries after the value of a key was made from what it was. -/
def alterEntries (k : κ) (f : Option ν → ν) : List (κ × ν) → List (κ × ν)
  | [] => [(k, f none)]
  | entry :: entries =>
    if entry.1 = k then (k, f (some entry.2)) :: entries
    else entry :: alterEntries k f entries

section Entries

variable {k j : κ} {f : Option ν → ν} {entries : List (κ × ν)}

theorem mem_keys_alterEntries :
    j ∈ (alterEntries k f entries).map Prod.fst ↔
      j = k ∨ j ∈ entries.map Prod.fst := by
  induction entries with
  | nil => simp [alterEntries]
  | cons entry entries ih =>
    unfold alterEntries
    split
    · rename_i h
      simp [h]
    · simp only [List.map_cons, List.mem_cons, ih]
      exact or_left_comm

theorem nodup_alterEntries (h : (entries.map Prod.fst).Nodup) :
    ((alterEntries k f entries).map Prod.fst).Nodup := by
  induction entries with
  | nil => exact List.nodup_singleton k
  | cons entry entries ih =>
    obtain ⟨hnot, hnodup⟩ := List.nodup_cons.mp h
    unfold alterEntries
    split
    · rename_i hkey
      exact List.nodup_cons.mpr ⟨hkey ▸ hnot, hnodup⟩
    · rename_i hkey
      refine List.nodup_cons.mpr ⟨fun hmem => ?_, ih hnodup⟩
      exact (mem_keys_alterEntries.mp hmem).elim hkey hnot

/-- An entry is one that was there, or that of the key. -/
theorem mem_alterEntries {entry : κ × ν} (h : entry ∈ alterEntries k f entries) :
    entry ∈ entries ∨ entry = (k, f none) ∨
      ∃ v, (k, v) ∈ entries ∧ entry = (k, f (some v)) := by
  induction entries with
  | nil => exact Or.inr (Or.inl (List.mem_singleton.mp h))
  | cons first entries ih =>
    unfold alterEntries at h
    split at h
    · rename_i hkey
      obtain rfl | h := List.mem_cons.mp h
      · exact Or.inr (Or.inr ⟨first.2, hkey ▸ List.mem_cons_self, rfl⟩)
      · exact Or.inl (List.mem_cons_of_mem _ h)
    · obtain rfl | h := List.mem_cons.mp h
      · exact Or.inl List.mem_cons_self
      · obtain h | h | ⟨v, hv, hentry⟩ := ih h
        · exact Or.inl (List.mem_cons_of_mem _ h)
        · exact Or.inr (Or.inl h)
        · exact Or.inr (Or.inr ⟨v, List.mem_cons_of_mem _ hv, hentry⟩)

theorem find_alterEntries :
    ((alterEntries k f entries).find? fun entry => entry.1 == j).map Prod.snd
      = if k = j then
          some (f ((entries.find? fun entry => entry.1 == j).map Prod.snd))
        else (entries.find? fun entry => entry.1 == j).map Prod.snd := by
  induction entries with
  | nil =>
    by_cases hkj : k = j
    · simp [alterEntries, hkj]
    · simp [alterEntries, hkj]
  | cons entry entries ih =>
    unfold alterEntries
    by_cases hkey : entry.1 = k
    · by_cases hkj : k = j
      · simp [hkey, hkj]
      · simp [hkey, hkj]
    · rw [if_neg hkey, List.find?_cons, List.find?_cons]
      by_cases hj : entry.1 = j
      · have hkj : k ≠ j := fun h => hkey (hj.trans h.symm)
        simp [hj, hkj]
      · rw [show (entry.1 == j) = false by simpa using hj]
        exact ih

end Entries

/-- Make the value of a key from what it was; a new key comes last. -/
def alter (m : KeyMap κ ν) (k : κ) (f : Option ν → ν) : KeyMap κ ν :=
  ⟨alterEntries k f m.entries, nodup_alterEntries m.nodup⟩

/-- `set`. -/
def set (m : KeyMap κ ν) (k : κ) (v : ν) : KeyMap κ ν :=
  m.alter k fun _ => v

/-- The map with each value replaced, or left out. -/
def filterMap (m : KeyMap κ ν) (f : ν → Option ω) : KeyMap κ ω where
  entries := m.entries.filterMap fun entry => (f entry.2).map (entry.1, ·)
  nodup := by
    refine (List.Nodup.sublist ?_ m.nodup)
    induction m.entries with
    | nil => exact List.Sublist.refl _
    | cons entry entries ih =>
      rw [List.filterMap_cons]
      cases f entry.2 with
      | none => exact ih.cons _
      | some value => exact ih.cons_cons _

/-- The entries under some of the keys. -/
def keep (m : KeyMap κ ν) (p : κ → Bool) : KeyMap κ ν where
  entries := m.entries.filter fun entry => p entry.1
  nodup := m.nodup.sublist (List.filter_sublist.map Prod.fst)

/-- `delete`. -/
def erase (m : KeyMap κ ν) (k : κ) : KeyMap κ ν :=
  m.keep fun key => key != k

section Lookup

variable {m : KeyMap κ ν} {k j : κ} {f : Option ν → ν}

@[simp] theorem get_empty : (empty : KeyMap κ ν).get k = none := rfl

theorem get_alter :
    (m.alter k f).get j = if k = j then some (f (m.get j)) else m.get j :=
  find_alterEntries

theorem get_set {v : ν} :
    (m.set k v).get j = if k = j then some v else m.get j :=
  get_alter

theorem get_keep {p : κ → Bool} :
    (m.keep p).get k = if p k then m.get k else none := by
  unfold get keep
  dsimp only
  rw [List.find?_filter]
  by_cases hp : p k = true
  · rw [if_pos hp]
    refine congrArg (Option.map Prod.snd) (List.find?_congr fun entry _ => ?_)
    by_cases hkey : entry.1 = k
    · simp [hkey, hp]
    · simp [hkey]
  · rw [if_neg hp, List.find?_eq_none.mpr, Option.map_none]
    intro entry _ hmeets
    simp only [beq_iff_eq, decide_eq_true_eq] at hmeets
    exact hp (hmeets.2 ▸ hmeets.1)

theorem get_erase :
    (m.erase k).get j = if k = j then none else m.get j := by
  unfold erase
  rw [get_keep]
  by_cases hkey : k = j
  · simp [hkey]
  · simp [hkey, Ne.symm hkey]

/-- What is under a key is the one entry with it. -/
theorem get_eq_some_iff {v : ν} : m.get k = some v ↔ (k, v) ∈ m.entries := by
  unfold get
  rw [Option.map_eq_some_iff]
  constructor
  · rintro ⟨⟨key, value⟩, hfind, rfl⟩
    obtain rfl : key = k := by simpa using List.find?_some hfind
    exact List.mem_of_find?_eq_some hfind
  · intro hmem
    have hsome : (m.entries.find? fun entry => entry.1 == k).isSome := by
      rw [List.find?_isSome]
      exact ⟨(k, v), hmem, beq_self_eq_true k⟩
    obtain ⟨entry, hentry⟩ := Option.isSome_iff_exists.mp hsome
    have hkey : entry.1 = k := by simpa using List.find?_some hentry
    have hsame : entry = (k, v) :=
      List.inj_on_of_nodup_map m.nodup (List.mem_of_find?_eq_some hentry) hmem hkey
    exact ⟨entry, hentry, by rw [hsame]⟩

/-- The order of the entries does not matter to `get`. -/
theorem get_of_perm {m n : KeyMap κ ν} (h : m.entries.Perm n.entries) (k : κ) :
    m.get k = n.get k := by
  ext v
  rw [get_eq_some_iff, get_eq_some_iff]
  exact h.mem_iff

/-- A key has the entry it has, since no other entry is under it. -/
theorem get_filterMap {g : ν → Option ω} :
    (m.filterMap g).get k = (m.get k).bind g := by
  obtain ⟨entries, hnodup⟩ := m
  unfold get filterMap
  dsimp only
  induction entries with
  | nil => rfl
  | cons entry entries ih =>
    obtain ⟨hnot, hnodup⟩ := List.nodup_cons.mp hnodup
    have ih := ih hnodup
    rw [List.filterMap_cons, List.find?_cons]
    by_cases hkey : entry.1 = k
    · have habsent : entries.find? (fun entry => entry.1 == k) = none := by
        rw [List.find?_eq_none]
        intro other hother hsame
        refine hnot (List.mem_map.mpr ⟨other, hother, ?_⟩)
        rw [hkey]
        exact beq_iff_eq.mp hsame
      rw [habsent] at ih
      rw [show (entry.1 == k) = true from beq_iff_eq.mpr hkey]
      cases hvalue : g entry.2 with
      | none =>
        show _ = g entry.2
        rw [hvalue]
        exact ih
      | some value =>
        show (List.find? _ ((entry.1, value) :: _)).map _ = g entry.2
        rw [List.find?_cons, show (entry.1 == k) = true from beq_iff_eq.mpr hkey,
          hvalue]
        rfl
    · have hkey' : (entry.1 == k) = false := by simpa using hkey
      rw [hkey']
      cases g entry.2 with
      | none => exact ih
      | some value =>
        show (List.find? _ ((entry.1, value) :: _)).map _ = _
        rw [List.find?_cons, hkey']
        exact ih

end Lookup

/-! ## Grouping -/

/-- One pass over rows that puts each to what its key has so far. -/
def group (key : α → κ) (add : Option ν → α → ν) (rows : List α) :
    KeyMap κ ν :=
  rows.foldl (fun m row => m.alter (key row) fun seen => add seen row) empty

/-- What a sequence of rows makes of one value. -/
def gather (add : Option ν → α → ν) (rows : List α) : Option ν :=
  rows.foldl (fun seen row => some (add seen row)) none

theorem gather_concat {add : Option ν → α → ν} {rows : List α} {row : α} :
    gather add (rows ++ [row]) = some (add (gather add rows) row) := by
  rw [gather, List.foldl_concat]
  rfl

/-- A pass that alters the key of each row that has one leaves under a key what
its own rows make of what was there. -/
theorem get_foldl_alter {key : α → Option κ} {add : α → Option ν → ν}
    {rows : List α} {k : κ} (m : KeyMap κ ν) :
    (rows.foldl (fun m row => (key row).elim m fun k => m.alter k (add row))
        m).get k
      = (rows.filter fun row => decide (key row = some k)).foldl
          (fun seen row => some (add row seen)) (m.get k) := by
  induction rows generalizing m with
  | nil => rfl
  | cons row rows ih =>
    rw [List.foldl_cons, ih, List.filter_cons]
    cases hkey : key row with
    | none => rfl
    | some j =>
      rw [Option.elim_some, get_alter]
      by_cases hjk : j = k
      · rw [if_pos hjk, if_pos (decide_eq_true (congrArg some hjk)),
          List.foldl_cons]
      · rw [if_neg hjk, if_neg]
        exact fun h => hjk (Option.some.inj (of_decide_eq_true h))

/-- **A key gathers its own rows.** -/
theorem get_group {key : α → κ} {add : Option ν → α → ν} {rows : List α}
    {k : κ} :
    (group key add rows).get k
      = gather add (rows.filter fun row => key row == k) := by
  have h := @get_foldl_alter _ _ _ _ (fun row => some (key row))
    (fun row seen => add seen row) rows k empty
  have hfilter : rows.filter (fun row => decide (some (key row) = some k))
      = rows.filter fun row => key row == k :=
    List.filter_congr fun row _ => by
      rw [Bool.eq_iff_iff, decide_eq_true_iff, Option.some_inj, beq_iff_eq]
  rw [hfilter] at h
  exact h

/-- What a pass over rows keeps true of its entries. -/
theorem entries_group {key : α → κ} {add : Option ν → α → ν} {rows : List α}
    {P : κ → ν → Prop} (hnew : ∀ row, P (key row) (add none row))
    (hold : ∀ row v, P (key row) v → P (key row) (add (some v) row)) :
    ∀ entry ∈ (group key add rows).entries, P entry.1 entry.2 := by
  have hfold : ∀ m : KeyMap κ ν, (∀ entry ∈ m.entries, P entry.1 entry.2) →
      ∀ entry ∈ (rows.foldl (fun m row =>
        m.alter (key row) fun seen => add seen row) m).entries,
        P entry.1 entry.2 := by
    induction rows with
    | nil => exact fun m hm => hm
    | cons row rows ih =>
      intro m hm
      refine ih _ fun entry hentry => ?_
      obtain h | rfl | ⟨v, hv, rfl⟩ := mem_alterEntries hentry
      · exact hm entry h
      · exact hnew row
      · exact hold row v (hm _ hv)
  exact hfold empty fun _ h => absurd h List.not_mem_nil

/-- The entries that only one key can have are at most the one it has. -/
theorem filter_entries {m : KeyMap κ ν} {p : ν → Bool} {k : κ}
    (h : ∀ entry ∈ m.entries, p entry.2 = true → entry.1 = k) :
    (m.entries.map Prod.snd).filter p = ((m.get k).filter p).toList := by
  obtain ⟨entries, hnodup⟩ := m
  unfold get
  dsimp only at h ⊢
  induction entries with
  | nil => rfl
  | cons entry entries ih =>
    obtain ⟨hnot, hnodup⟩ := List.nodup_cons.mp hnodup
    have hrest : ∀ other ∈ entries, p other.2 = true → other.1 = k :=
      fun other hother => h other (List.mem_cons_of_mem _ hother)
    rw [List.map_cons, List.filter_cons, List.find?_cons]
    by_cases hkey : entry.1 = k
    · -- no other entry is under the key
      have hnone : (entries.map Prod.snd).filter p = [] := by
        rw [List.filter_eq_nil_iff]
        intro value hvalue hp
        obtain ⟨other, hother, rfl⟩ := List.mem_map.mp hvalue
        refine hnot (List.mem_map.mpr ⟨other, hother, ?_⟩)
        rw [hkey]
        exact hrest other hother hp
      rw [hnone, show (entry.1 == k) = true from beq_iff_eq.mpr hkey]
      show _ = (Option.filter p (some entry.2)).toList
      rw [Option.filter_some]
      split <;> rfl
    · have hp : ¬ p entry.2 = true :=
        fun hp => hkey (h entry List.mem_cons_self hp)
      rw [if_neg hp, show (entry.1 == k) = false by simpa using hkey]
      exact ih hnodup hrest

end KeyMap
