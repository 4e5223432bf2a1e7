import Mathlib.Data.List.MinMax
import Mathlib.Data.List.Sort
import Mathlib.Order.Compare

/-!
# Choosing the best of a list by sorting it

A ranking sorts its candidates by a comparator and then takes the first
acceptable one. This file says what that computes: **an acceptable element
preferred to every other acceptable element** (`find?_rank_eq_some`), and that
the answer does not depend on the order the candidates came in (`rank_perm`),
as long as the comparator separates the elements of the list – which it does
as soon as its last tiebreak is a key no two elements share
(`separates_of_key`).

Comparators are chained by `Ordering.then`; one that is written as a chain of
`if a ≠ b` tests is such a chain (`ite_bne_then`).
-/

namespace Preference

universe u v

variable {α : Type u} {β : Type v}

/-- The list in the order of the comparator, least first. The sort is
stable. -/
def rank (cmp : α → α → Ordering) (l : List α) : List α :=
  l.insertionSort fun a b => (cmp a b).isLE

/-- The comparator tells any two elements of the list apart. -/
def Separates (cmp : α → α → Ordering) (l : List α) : Prop :=
  ∀ a ∈ l, ∀ b ∈ l, cmp a b = .eq → a = b

section Rules

variable {cmp : α → α → Ordering} {l l' : List α}

@[simp] theorem mem_rank {a : α} : a ∈ rank cmp l ↔ a ∈ l :=
  List.mem_insertionSort _

@[simp] theorem length_rank : (rank cmp l).length = l.length :=
  List.length_insertionSort _ _

theorem rank_perm_self : (rank cmp l).Perm l :=
  List.perm_insertionSort _ l

/-- A ranked list is ordered by its comparator. -/
theorem pairwise_rank [Std.TransCmp cmp] :
    (rank cmp l).Pairwise fun a b => (cmp a b).isLE := by
  have : Std.Total fun a b : α => ((cmp a b).isLE : Prop) := by
    refine ⟨fun a b => ?_⟩
    by_cases h : (cmp a b).isLE
    · exact Or.inl h
    · have hlt : cmp b a = .lt := Std.OrientedCmp.lt_of_not_isLE h
      exact Or.inr (by simp [hlt])
  have : IsTrans α fun a b : α => ((cmp a b).isLE : Prop) :=
    ⟨fun _ _ _ => Std.TransCmp.isLE_trans⟩
  exact List.pairwise_insertionSort _ l

/-- A comparator that determines a key the list's elements do not share
separates the list. -/
theorem separates_of_key {key : α → β} (hkey : (l.map key).Nodup)
    (hcmp : ∀ a b, cmp a b = .eq → key a = key b) : Separates cmp l :=
  fun a ha b hb h => List.inj_on_of_nodup_map hkey ha hb (hcmp a b h)

/-- **Ranking forgets the order of its input.** -/
theorem rank_perm [Std.TransCmp cmp] (hs : Separates cmp l)
    (hp : l.Perm l') : rank cmp l = rank cmp l' := by
  refine List.Perm.eq_of_pairwise ?_ pairwise_rank pairwise_rank
    (rank_perm_self.trans (hp.trans rank_perm_self.symm))
  intro a b ha hb hab hba
  exact hs a (mem_rank.mp ha) b (hp.mem_iff.mpr (mem_rank.mp hb))
    (Std.OrientedCmp.isLE_antisymm hab hba)

/-- **The first acceptable element of a ranking is the best acceptable
one.** -/
theorem find?_rank_eq_some [Std.TransCmp cmp] {p : α → Bool} {a : α}
    (h : (rank cmp l).find? p = some a) :
    a ∈ l ∧ p a ∧ ∀ b ∈ l, p b → (cmp a b).isLE := by
  obtain ⟨hpa, as, bs, hl, has⟩ := List.find?_eq_some_iff_append.mp h
  have hmem : a ∈ rank cmp l := by rw [hl]; simp
  refine ⟨mem_rank.mp hmem, hpa, fun b hb hpb => ?_⟩
  have hord : (rank cmp l).Pairwise fun a b => (cmp a b).isLE := pairwise_rank
  rw [hl, List.pairwise_append, List.pairwise_cons] at hord
  have hb' : b ∈ as ++ a :: bs := by rw [← hl]; exact mem_rank.mpr hb
  rcases List.mem_append.mp hb' with hbas | hbbs
  · have := has b hbas
    rw [hpb] at this
    contradiction
  · rcases List.mem_cons.mp hbbs with rfl | hbbs
    · exact Std.ReflCmp.isLE_rfl
    · exact hord.2.1.1 b hbbs

/-- **The first of a ranking is a least element.** -/
theorem head?_rank_eq_some [Std.TransCmp cmp] {a : α}
    (h : (rank cmp l).head? = some a) :
    a ∈ l ∧ ∀ b ∈ l, (cmp a b).isLE := by
  obtain ⟨rest, hrest⟩ := List.head?_eq_some_iff.mp h
  refine ⟨mem_rank.mp (List.mem_of_head? h), fun b hb => ?_⟩
  have hord : (rank cmp l).Pairwise fun a b => (cmp a b).isLE := pairwise_rank
  have hmem : b ∈ a :: rest := hrest ▸ mem_rank.mpr hb
  rw [hrest, List.pairwise_cons] at hord
  obtain rfl | hb := List.mem_cons.mp hmem
  · exact Std.ReflCmp.isLE_rfl
  · exact hord.1 b hb

theorem head?_rank_eq_none : (rank cmp l).head? = none ↔ l = [] := by
  rw [List.head?_eq_none_iff, ← List.length_eq_zero_iff, length_rank,
    List.length_eq_zero_iff]

/-- A ranking by what a function shows of the elements is mapped as a
whole. -/
theorem map_rank {cmp' : β → β → Ordering} (f : α → β)
    (h : ∀ a b, cmp' (f a) (f b) = cmp a b) :
    rank cmp' (l.map f) = (rank cmp l).map f :=
  (List.map_insertionSort _ _ _ _ fun a _ b _ => by rw [h]).symm

/-- **The last of a ranking is a greatest element.** -/
theorem getLast?_rank_eq_some [Std.TransCmp cmp] {a : α}
    (h : (rank cmp l).getLast? = some a) :
    a ∈ l ∧ ∀ b ∈ l, (cmp b a).isLE := by
  obtain ⟨as, has⟩ := List.getLast?_eq_some_iff.mp h
  refine ⟨mem_rank.mp (List.mem_of_getLast? h), fun b hb => ?_⟩
  have hord : (rank cmp l).Pairwise fun a b => (cmp a b).isLE := pairwise_rank
  have hmem : b ∈ as ++ [a] := has ▸ mem_rank.mpr hb
  rw [has, List.pairwise_append] at hord
  obtain hbas | hba := List.mem_append.mp hmem
  · exact hord.2.2 b hbas a (List.mem_singleton_self a)
  · rw [List.mem_singleton.mp hba]
    exact Std.ReflCmp.isLE_rfl

theorem getLast?_rank_eq_none : (rank cmp l).getLast? = none ↔ l = [] := by
  rw [List.getLast?_eq_none_iff, ← List.length_eq_zero_iff, length_rank,
    List.length_eq_zero_iff]

/-- **The first of a descending ranking is the first maximum.** The sort being
stable, equal values keep their order, as they do in a fold that replaces its
candidate only by a greater one. -/
theorem head?_rank_descending [LinearOrder β] (f : α → β) (l : List α) :
    (rank (fun a b => compare (f b) (f a)) l).head? = l.argmax f := by
  induction l with
  | nil => rfl
  | cons a l ih =>
    rw [List.argmax_cons, ← ih]
    show (List.orderedInsert _ a (rank _ l)).head? = _
    cases rank (fun a b => compare (f b) (f a)) l with
    | nil => rfl
    | cons b rest =>
      show (List.orderedInsert _ a (b :: rest)).head? =
        if f a < f b then some b else some a
      have hle : (compare (f b) (f a)).isLE ↔ f b ≤ f a := by
        rw [← Ordering.ne_gt_iff_isLE]
        exact compare_le_iff_le
      rw [List.orderedInsert_cons]
      by_cases h : f a < f b
      · rw [if_pos h, if_neg (mt hle.mp h.not_ge)]
        rfl
      · rw [if_neg h, if_pos (hle.mpr (not_lt.mp h))]
        rfl

end Rules

/-- A list without duplicates is its own set. -/
theorem eraseDups_of_nodup [DecidableEq β] {l : List β} (h : l.Nodup) :
    l.eraseDups = l := by
  induction l with
  | nil => rfl
  | cons a l ih =>
    rw [List.nodup_cons] at h
    rw [List.eraseDups_cons, List.filter_eq_self.mpr, ih h.2]
    intro b hb
    have hne : b ≠ a := fun hba => h.1 (hba ▸ hb)
    simpa using hne

/-- A list has one element exactly when it has one and no other. -/
theorem eraseDups_eq_singleton [BEq β] [LawfulBEq β] {l : List β} {a : β} :
    l.eraseDups = [a] ↔ a ∈ l ∧ ∀ b ∈ l, b = a := by
  constructor
  · intro h
    have hmem : ∀ b, b ∈ l ↔ b = a := fun b => by
      rw [← List.mem_eraseDups, h, List.mem_singleton]
    exact ⟨(hmem a).mpr rfl, fun b hb => (hmem b).mp hb⟩
  · rintro ⟨hmem, hall⟩
    match l, hmem, hall with
    | b :: l, _, hall =>
      obtain rfl := hall b List.mem_cons_self
      rw [List.eraseDups_cons, List.filter_eq_nil_iff.mpr]
      · rfl
      · intro c hc
        rw [hall c (List.mem_cons_of_mem _ hc)]
        simp

/-- A list has more than one element exactly when it has two that differ. -/
theorem one_lt_length_eraseDups [BEq β] [LawfulBEq β] {l : List β} :
    1 < l.eraseDups.length ↔ ∃ a ∈ l, ∃ b ∈ l, a ≠ b := by
  constructor
  · intro h
    by_contra hsame
    push Not at hsame
    match l, hsame with
    | [], _ => simp at h
    | a :: l, hsame =>
      have hone : (a :: l).eraseDups = [a] :=
        eraseDups_eq_singleton.mpr ⟨List.mem_cons_self, fun b hb =>
          (hsame a List.mem_cons_self b hb).symm⟩
      simp [hone] at h
  · rintro ⟨a, ha, b, hb, hab⟩
    rw [← List.mem_eraseDups] at ha hb
    match hdups : l.eraseDups with
    | [] => simp [hdups] at ha
    | [c] =>
      rw [hdups, List.mem_singleton] at ha hb
      exact absurd (ha.trans hb.symm) hab
    | _ :: _ :: _ => simp

/-- A chain of `if a ≠ b` tests is a lexicographic comparison. -/
theorem ite_bne_then [DecidableEq β] (cmp : β → β → Ordering)
    [Std.LawfulEqCmp cmp] (a b : β) (rest : Ordering) :
    (if a != b then cmp a b else rest) = (cmp a b).then rest := by
  by_cases h : a = b
  · subst h
    simp [Std.ReflCmp.compare_self]
  · have hne : cmp a b ≠ .eq := fun h' => h (Std.LawfulEqCmp.eq_of_compare h')
    rw [if_pos (bne_iff_ne.mpr h)]
    cases hc : cmp a b with
    | eq => exact absurd hc hne
    | lt => rfl
    | gt => rfl

end Preference
