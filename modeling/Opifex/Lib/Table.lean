import Mathlib.Data.List.Nodup

/-!
# Database tables

A table holds rows under distinct keys, and hands out keys it has never used.
Both facts are fields of the structure, so every operation carries its own
proof that it keeps them and no statement about rows has to assume that a key
names one row.

The operations are those of a statement: insert one row, update the rows that
match a condition, delete the row with a key. Each comes with the membership
and lookup lemmas the reader of a table needs.
-/

universe u

/-- Rows that carry their own primary key. -/
class Keyed (α : Type u) where
  key : α → ℕ

/-- **A table**: rows with distinct keys, all below the next one, so that a row that is
inserted gets a key that was never given. -/
structure Table (α : Type u) [Keyed α] where
  rows : List α
  next : ℕ
  nodup : (rows.map Keyed.key).Nodup
  bounded : ∀ r ∈ rows, Keyed.key r < next

namespace Table

open Keyed

variable {α : Type u} [Keyed α]

/-- The table without rows. -/
def empty : Table α := ⟨[], 0, List.nodup_nil, by simp⟩

/-- The row with a key. -/
def find (t : Table α) (id : ℕ) : Option α :=
  t.rows.find? fun r => key r == id

/-- Insert the row `mk` makes of a fresh key. -/
def insert (t : Table α) (mk : ℕ → α) (hmk : ∀ n, key (mk n) = n) :
    Table α where
  rows := t.rows ++ [mk t.next]
  next := t.next + 1
  nodup := by
    rw [List.map_append, List.map_singleton, hmk, List.nodup_append]
    refine ⟨t.nodup, List.nodup_singleton _, fun k hk l hl => ?_⟩
    obtain ⟨r, hr, rfl⟩ := List.mem_map.mp hk
    rw [List.mem_singleton.mp hl]
    exact Nat.ne_of_lt (t.bounded r hr)
  bounded r hr := by
    rcases List.mem_append.mp hr with hr | hr
    · exact Nat.lt_succ_of_lt (t.bounded r hr)
    · rw [List.mem_singleton.mp hr, hmk]
      exact Nat.lt_succ_self _

/-- Update the rows that match a condition. -/
def modify (t : Table α) (p : α → Bool) (f : α → α)
    (hf : ∀ r, key (f r) = key r) : Table α where
  rows := t.rows.map fun r => if p r then f r else r
  next := t.next
  nodup := by
    rw [List.map_map]
    convert t.nodup using 2
    funext r
    show key (if p r then f r else r) = key r
    split_ifs
    · exact hf r
    · rfl
  bounded r hr := by
    obtain ⟨s, hs, rfl⟩ := List.mem_map.mp hr
    split_ifs
    · rw [hf]
      exact t.bounded s hs
    · exact t.bounded s hs

/-- Delete the row with a key. -/
def delete (t : Table α) (id : ℕ) : Table α where
  rows := t.rows.filter fun r => key r != id
  next := t.next
  nodup := t.nodup.sublist (List.filter_sublist.map _)
  bounded r hr := t.bounded r (List.mem_of_mem_filter hr)

section Lookup

variable {t : Table α} {id : ℕ} {r s : α}

/-- A key names one row. -/
theorem eq_of_key (hr : r ∈ t.rows) (hs : s ∈ t.rows) (h : key r = key s) :
    r = s :=
  List.inj_on_of_nodup_map t.nodup hr hs h

theorem find_eq_some : t.find id = some r ↔ r ∈ t.rows ∧ key r = id := by
  unfold find
  constructor
  · intro h
    exact ⟨List.mem_of_find?_eq_some h, by simpa using List.find?_some h⟩
  · rintro ⟨hr, rfl⟩
    cases hf : t.rows.find? fun s => key s == key r with
    | none =>
      have := List.find?_eq_none.mp hf r hr
      simp at this
    | some s =>
      have hkey : key s = key r := by simpa using List.find?_some hf
      rw [eq_of_key (List.mem_of_find?_eq_some hf) hr hkey]

theorem find_eq_none : t.find id = none ↔ ∀ r ∈ t.rows, key r ≠ id := by
  unfold find
  rw [List.find?_eq_none]
  simp

theorem find_key (hr : r ∈ t.rows) : t.find (key r) = some r :=
  find_eq_some.mpr ⟨hr, rfl⟩

/-- The next key names no row yet. -/
theorem find_next : t.find t.next = none :=
  find_eq_none.mpr fun r hr => Nat.ne_of_lt (t.bounded r hr)

end Lookup

section Statements

variable {t : Table α} {id : ℕ} {r : α}

theorem mem_insert {mk : ℕ → α} (hmk : ∀ n, key (mk n) = n) :
    r ∈ (t.insert mk hmk).rows ↔ r ∈ t.rows ∨ r = mk t.next := by
  simp [insert]

@[simp] theorem find_insert {mk : ℕ → α} (hmk : ∀ n, key (mk n) = n) :
    (t.insert mk hmk).find t.next = some (mk t.next) :=
  find_eq_some.mpr ⟨(mem_insert hmk).mpr (Or.inr rfl), hmk _⟩

theorem find_insert_of_ne {mk : ℕ → α} (hmk : ∀ n, key (mk n) = n)
    (h : id ≠ t.next) : (t.insert mk hmk).find id = t.find id := by
  have hne : (key (mk t.next) == id) = false := by
    rw [hmk]
    simpa using Ne.symm h
  simp [find, insert, List.find?_append, hne]

theorem mem_modify {p : α → Bool} {f : α → α}
    (hf : ∀ r, key (f r) = key r) :
    r ∈ (t.modify p f hf).rows ↔
      ∃ s ∈ t.rows, r = if p s then f s else s := by
  show r ∈ t.rows.map _ ↔ _
  rw [List.mem_map]
  exact exists_congr fun s => and_congr_right fun _ => eq_comm

@[simp] theorem next_modify {p : α → Bool} {f : α → α}
    (hf : ∀ r, key (f r) = key r) : (t.modify p f hf).next = t.next := rfl

@[simp] theorem find_modify {p : α → Bool} {f : α → α}
    (hf : ∀ r, key (f r) = key r) :
    (t.modify p f hf).find id =
      (t.find id).map fun r => if p r then f r else r := by
  have hkey : ∀ s, key (if p s then f s else s) = key s := by
    intro s
    split_ifs
    · exact hf s
    · rfl
  simp only [find, modify, List.find?_map, Function.comp_def, hkey]

/-- An update that keeps what is counted keeps the count. -/
theorem countP_modify {p q : α → Bool} {f : α → α}
    (hf : ∀ r, key (f r) = key r) (hq : ∀ r, q (f r) = q r) :
    (t.modify p f hf).rows.countP q = t.rows.countP q := by
  show (t.rows.map fun r => if p r then f r else r).countP q = _
  rw [List.countP_map]
  refine List.countP_congr fun r _ => ?_
  by_cases hp : p r = true <;> simp [hp, hq]

theorem mem_delete : r ∈ (t.delete id).rows ↔ r ∈ t.rows ∧ key r ≠ id := by
  simp [delete]

@[simp] theorem find_delete : (t.delete id).find id = none :=
  find_eq_none.mpr fun _ hr => (mem_delete.mp hr).2

/-- Deleting the row just inserted restores the rows. -/
theorem rows_delete_insert {mk : ℕ → α} (hmk : ∀ n, key (mk n) = n) :
    ((t.insert mk hmk).delete t.next).rows = t.rows := by
  show (t.rows ++ [mk t.next]).filter (fun r => key r != t.next) = t.rows
  rw [List.filter_append, List.filter_eq_self.mpr, List.filter_cons_of_neg]
  · simp
  · simp [hmk]
  · exact fun r hr => by simpa using Nat.ne_of_lt (t.bounded r hr)

end Statements

end Table
