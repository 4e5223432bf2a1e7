import Mathlib.Data.List.Find

/-!
# Journals

What a store that numbers its writes has held over time. Each write to a key
moves the revision on by one, and what the keys held **as of** a revision is what
the last write up to it left there (`last`). A later write changes nothing about
it (`asOf_write`), so whoever has read the store at a revision can be told what it
read from the revision alone; and whoever has read it at a write's revision or
later has read that write, or one that came after it (`exists_last`).
-/

universe u v w

/-- A write to a key: the value it left there, or none where it removed it, with its
author and the revision that it made. -/
structure Written (α : Type u) (κ : Type v) (ν : Type w) where
  author : α
  key : κ
  value : Option ν
  revision : ℕ
deriving DecidableEq

/-- **A journal**: what the keys held at first, and the writes since, the newest
first, under increasing revisions. -/
structure Journal (α : Type u) (κ : Type v) (ν : Type w) where
  first : κ → Option ν
  revision : ℕ
  writes : List (Written α κ ν)
  sorted : writes.Pairwise fun later earlier => earlier.revision < later.revision
  bounded : ∀ write ∈ writes, write.revision ≤ revision

namespace Journal

variable {α : Type u} {κ : Type v} {ν : Type w}

/-- Nothing has been written yet. -/
def start (first : κ → Option ν) (revision : ℕ) : Journal α κ ν :=
  ⟨first, revision, [], List.Pairwise.nil, fun _ hwrite => nomatch hwrite⟩

/-- A key is written, and the revision moves on. -/
def write (j : Journal α κ ν) (author : α) (key : κ) (value : Option ν) :
    Journal α κ ν where
  first := j.first
  revision := j.revision + 1
  writes := ⟨author, key, value, j.revision + 1⟩ :: j.writes
  sorted := List.pairwise_cons.mpr
    ⟨fun write hwrite => Nat.lt_succ_of_le (j.bounded write hwrite), j.sorted⟩
  bounded := by
    intro write hwrite
    obtain rfl | hwrite := List.mem_cons.mp hwrite
    · exact Nat.le_refl _
    · exact Nat.le_succ_of_le (j.bounded write hwrite)

section Fields

variable {j : Journal α κ ν} {author : α} {key : κ} {value : Option ν}
variable {revision : ℕ} {first : κ → Option ν}

@[simp] theorem revision_start :
    (start first revision : Journal α κ ν).revision = revision := rfl

@[simp] theorem writes_start : (start first revision : Journal α κ ν).writes = [] := rfl

@[simp] theorem revision_write :
    (j.write author key value).revision = j.revision + 1 := rfl

@[simp] theorem writes_write :
    (j.write author key value).writes
      = ⟨author, key, value, j.revision + 1⟩ :: j.writes := rfl

end Fields

variable [DecidableEq κ]

/-- The last write to a key up to a revision. -/
def last (j : Journal α κ ν) (revision : ℕ) (key : κ) : Option (Written α κ ν) :=
  j.writes.find? fun write => write.key = key ∧ write.revision ≤ revision

/-- What a key held as of a revision. -/
def asOf (j : Journal α κ ν) (revision : ℕ) (key : κ) : Option ν :=
  match j.last revision key with
  | some write => write.value
  | none => j.first key

section Rules

variable {j : Journal α κ ν} {author : α} {key other : κ} {value : Option ν}
variable {revision : ℕ} {first : κ → Option ν}

@[simp] theorem asOf_start {later : ℕ} :
    (start first revision : Journal α κ ν).asOf later key = first key := rfl

theorem of_last {write : Written α κ ν} (h : j.last revision key = some write) :
    write ∈ j.writes ∧ write.key = key ∧ write.revision ≤ revision := by
  unfold last at h
  have hmeets := List.find?_some h
  rw [decide_eq_true_eq] at hmeets
  exact ⟨List.mem_of_find?_eq_some h, hmeets⟩

/-- **A later write changes nothing** about what was held as of a revision. -/
theorem last_write (h : revision ≤ j.revision) :
    (j.write author key value).last revision other = j.last revision other := by
  unfold last
  rw [writes_write, List.find?_cons_of_neg]
  simp only [decide_eq_true_eq, not_and, Nat.not_le]
  exact fun _ => Nat.lt_succ_of_le h

theorem asOf_write (h : revision ≤ j.revision) :
    (j.write author key value).asOf revision other = j.asOf revision other := by
  unfold asOf
  rw [last_write h]
  rfl

/-- As of its own revision a write is what its key holds, and every other key
holds what it held. -/
theorem asOf_write_self :
    (j.write author key value).asOf (j.revision + 1) other
      = if key = other then value else j.asOf j.revision other := by
  unfold asOf last
  rw [writes_write]
  by_cases hkey : key = other
  · rw [List.find?_cons_of_pos (by simp [hkey]), if_pos hkey]
  · rw [List.find?_cons_of_neg (by simp [hkey]), if_neg hkey]
    -- the writes before it are all within both revisions
    have hsame : j.writes.find?
          (fun write => write.key = other ∧ write.revision ≤ j.revision + 1)
        = j.writes.find? (fun write => write.key = other ∧ write.revision ≤ j.revision) := by
      refine List.find?_congr fun write hwrite => ?_
      have hle := j.bounded write hwrite
      simp [hle, Nat.le_succ_of_le hle]
    rw [hsame]
    rfl

theorem asOf_of_last {write : Written α κ ν} (h : j.last revision key = some write) :
    j.asOf revision key = write.value := by
  unfold asOf
  rw [h]

/-- **Whoever has read up to a write has read it, or a later one to its key.** -/
theorem exists_last {write : Written α κ ν} (hwrite : write ∈ j.writes)
    (h : write.revision ≤ revision) :
    ∃ last, j.last revision write.key = some last ∧ write.revision ≤ last.revision := by
  have hsome : (j.last revision write.key).isSome := by
    unfold last
    rw [List.find?_isSome]
    exact ⟨write, hwrite, by simp [h]⟩
  obtain ⟨last, hlast⟩ := Option.isSome_iff_exists.mp hsome
  refine ⟨last, hlast, ?_⟩
  unfold Journal.last at hlast
  obtain ⟨-, later, earlier, hsplit, hskipped⟩ := List.find?_eq_some_iff_append.mp hlast
  rw [hsplit] at hwrite
  obtain hlater | hrest := List.mem_append.mp hwrite
  · have hskip := hskipped write hlater
    simp [h] at hskip
  · have hsorted := j.sorted
    rw [hsplit] at hsorted
    obtain rfl | hearlier := List.mem_cons.mp hrest
    · exact Nat.le_refl _
    · have htail := (List.pairwise_append.mp hsorted).2.1
      exact Nat.le_of_lt ((List.pairwise_cons.mp htail).1 write hearlier)

end Rules

end Journal
