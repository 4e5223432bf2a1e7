import Mathlib.Data.List.Nodup
import Mathlib.Data.List.Perm.Basic
import Mathlib.Data.List.Induction

/-!
# Searching a graph level by level

Each node names others, and some nodes are *open*: what they name is followed. A
search goes over the nodes of one level after another. What it has not seen yet
it finds, with the level and the node that named it; what it has seen it skips.

After `levels` levels it has found **exactly the nodes other than the root that
open nodes lead to in so many steps**, each once and at its distance
(`Explored`, `explored_search`). The graph may be infinite and may have any
cycles. Nothing that is named is dropped: what the nodes that were gone over name
is what was found and what was skipped.
-/

namespace BreadthFirst

variable {ν : Type*}

/-- A node that the search found: how deep it stands, and which node named it first. -/
structure Found (ν : Type*) where
  node : ν
  depth : ℕ
  namedBy : ν

/-- What a search has found so far, in its order, and what it came across again. -/
structure Search (ν : Type*) where
  found : List (Found ν) := []
  /-- What was named once more, and by which node. -/
  skipped : List (ν × ν) := []

variable [DecidableEq ν] (names : ν → List ν) (isOpen : ν → Bool) (root : ν)

namespace Search

/-- The nodes that have been seen. -/
def seen (s : Search ν) : List ν := root :: s.found.map (·.node)

/-- One name. -/
def visit (depth : ℕ) (s : Search ν) (edge : ν × ν) : Search ν :=
  if edge.2 ∈ s.seen root then { s with skipped := s.skipped ++ [edge] }
  else { s with found := s.found ++ [⟨edge.2, depth, edge.1⟩] }

/-- All that the nodes of a level name. -/
def edges (frontier : List ν) : List (ν × ν) :=
  frontier.flatMap fun node => (names node).map (node, ·)

/-- One level. -/
def level (depth : ℕ) (s : Search ν) (frontier : List ν) : Search ν :=
  (edges names frontier).foldl (visit root depth) s

/-- The open nodes that were found at a depth. -/
def frontierAt (depth : ℕ) (s : Search ν) : List ν :=
  (s.found.filter fun f => f.depth = depth && isOpen f.node).map (·.node)

/-- The levels that are left, from a depth on. -/
def searchFrom : (levels depth : ℕ) → Search ν → (frontier : List ν) → Search ν
  | 0, _, s, _ => s
  | levels + 1, depth, s, frontier =>
    let s' := level names root depth s frontier
    searchFrom levels (depth + 1) s' (s'.frontierAt isOpen depth)

/-- The search from the root. -/
def search (levels : ℕ) : Search ν := searchFrom names isOpen root levels 1 {} [root]

end Search

/-- **Open nodes lead to it** in so many steps: each node on the way is named by the one
before, and all but the last are open. -/
inductive Reaches : ℕ → ν → Prop
  | direct {node : ν} : node ∈ names root → Reaches 1 node
  | step {steps : ℕ} {inner node : ν} :
    Reaches steps inner → isOpen inner → node ∈ names inner → Reaches (steps + 1) node

/-- The nodes whose names have been gone over after some levels. -/
def Search.goneOver (levels : ℕ) (s : Search ν) : List ν :=
  if levels = 0 then []
  else root :: (s.found.filter fun f => f.depth < levels && isOpen f.node).map (·.node)

/-- **What a search of some levels has found**: exactly the nodes that are reached in so
many steps, each once, at the least depth, with every naming accounted for. -/
structure Explored (levels : ℕ) (s : Search ν) : Prop where
  mem_iff : ∀ node, (∃ f ∈ s.found, f.node = node) ↔
    node ≠ root ∧ ∃ steps ≤ levels, Reaches names isOpen root steps node
  nodup : (s.found.map (·.node)).Nodup
  reaches : ∀ f ∈ s.found, Reaches names isOpen root f.depth f.node
  least : ∀ f ∈ s.found, ∀ steps, Reaches names isOpen root steps f.node → f.depth ≤ steps
  depth_le : ∀ f ∈ s.found, 0 < f.depth ∧ f.depth ≤ levels
  named : ∀ f ∈ s.found, f.node ∈ names f.namedBy
    ∧ ((f.namedBy = root ∧ f.depth = 1)
      ∨ ∃ g ∈ s.found, g.node = f.namedBy ∧ isOpen g.node ∧ g.depth + 1 = f.depth)
  ordered : s.found.Pairwise fun f g => f.depth ≤ g.depth
  all_named : (Search.edges names (s.goneOver isOpen root levels)).Perm
    (s.found.map (fun f => (f.namedBy, f.node)) ++ s.skipped)

variable {names isOpen root} {s : Search ν} {depth levels : ℕ}

/-- **What a run of names adds**: the nodes that were not seen, each once; the other
names are skipped. -/
theorem Search.exists_foldl_visit (s : Search ν) (depth : ℕ) (names : List (ν × ν)) :
    ∃ new skipped, names.foldl (visit root depth) s
        = ⟨s.found ++ new, s.skipped ++ skipped⟩
      ∧ (∀ node, (∃ f ∈ new, f.node = node) ↔
        (∃ edge ∈ names, edge.2 = node) ∧ node ∉ s.seen root)
      ∧ (new.map (·.node)).Nodup
      ∧ (∀ f ∈ new, f.depth = depth ∧ (f.namedBy, f.node) ∈ names)
      ∧ names.Perm (new.map (fun f => (f.namedBy, f.node)) ++ skipped) := by
  induction names using List.reverseRecOn with
  | nil => exact ⟨[], [], by simp, by simp, by simp, by simp, by simp⟩
  | append_singleton names edge ih =>
    obtain ⟨new, skipped, hfold, hmem, hnodup, hnamed, hperm⟩ := ih
    have hseen : edge.2 ∈ seen root ⟨s.found ++ new, s.skipped ++ skipped⟩
        ↔ edge.2 ∈ s.seen root ∨ ∃ f ∈ new, f.node = edge.2 := by
      simp only [seen, List.map_append, List.mem_cons, List.mem_append, List.mem_map,
        or_assoc]
    rw [List.foldl_append, hfold, List.foldl_cons, List.foldl_nil, visit]
    by_cases hold : edge.2 ∈ seen root ⟨s.found ++ new, s.skipped ++ skipped⟩
    · rw [if_pos hold]
      refine ⟨new, skipped ++ [edge], by rw [List.append_assoc], fun node => ?_, hnodup,
        fun f hf => ?_, ?_⟩
      · rw [hmem]
        refine ⟨fun h => ⟨?_, h.2⟩, fun h => ⟨?_, h.2⟩⟩
        · obtain ⟨⟨other, hother, heq⟩, -⟩ := h
          exact ⟨other, List.mem_append_left _ hother, heq⟩
        · obtain ⟨⟨other, hother, rfl⟩, hnot⟩ := h
          obtain hother | hother := List.mem_append.mp hother
          · exact ⟨other, hother, rfl⟩
          · rw [List.mem_singleton.mp hother] at hnot ⊢
            exact ((hmem _).mp ((hseen.mp hold).resolve_left hnot)).1
      · exact ⟨(hnamed f hf).1, List.mem_append_left _ (hnamed f hf).2⟩
      · rw [← List.append_assoc]
        exact hperm.append_right [edge]
    · rw [if_neg hold]
      have hnew := fun h => hold (hseen.mpr h)
      refine ⟨new ++ [⟨edge.2, depth, edge.1⟩], skipped, by rw [List.append_assoc],
        fun node => ?_, ?_, fun f hf => ?_, ?_⟩
      · constructor
        · rintro ⟨f, hf, rfl⟩
          obtain hf | hf := List.mem_append.mp hf
          · obtain ⟨⟨other, hother, heq⟩, hnot⟩ := (hmem f.node).mp ⟨f, hf, rfl⟩
            exact ⟨⟨other, List.mem_append_left _ hother, heq⟩, hnot⟩
          · rw [List.mem_singleton.mp hf]
            exact ⟨⟨edge, by simp, rfl⟩, fun h => hnew (Or.inl h)⟩
        · rintro ⟨⟨other, hother, rfl⟩, hnot⟩
          obtain hother | hother := List.mem_append.mp hother
          · obtain ⟨f, hf, heq⟩ := (hmem other.2).mpr ⟨⟨other, hother, rfl⟩, hnot⟩
            exact ⟨f, List.mem_append_left _ hf, heq⟩
          · rw [List.mem_singleton.mp hother]
            exact ⟨_, List.mem_append_right _ List.mem_cons_self, rfl⟩
      · rw [List.map_append, List.map_singleton, ← List.concat_eq_append]
        refine List.Nodup.concat (fun h => ?_) hnodup
        exact hnew (Or.inr (List.mem_map.mp h))
      · obtain hf | hf := List.mem_append.mp hf
        · exact ⟨(hnamed f hf).1, List.mem_append_left _ (hnamed f hf).2⟩
        · rw [List.mem_singleton.mp hf]
          exact ⟨rfl, List.mem_append_right _ List.mem_cons_self⟩
      · rw [List.map_append, List.append_assoc]
        refine (hperm.append_right [edge]).trans ?_
        rw [List.append_assoc]
        exact List.Perm.append_left _ List.perm_append_comm

omit [DecidableEq ν] in
theorem Reaches.pos {steps : ℕ} {node : ν} (h : Reaches names isOpen root steps node) :
    0 < steps := by
  cases h with
  | direct _ => exact Nat.one_pos
  | step _ _ _ => exact Nat.succ_pos _

omit [DecidableEq ν] in
theorem explored_start : Explored names isOpen root 0 {} where
  mem_iff node := by
    refine iff_of_false (by simp) ?_
    rintro ⟨-, steps, hle, hreaches⟩
    exact absurd hreaches.pos (by omega)
  nodup := List.nodup_nil
  reaches := by simp
  least := by simp
  depth_le := by simp
  named := by simp
  ordered := List.Pairwise.nil
  all_named := List.Perm.refl _

/-- The nodes a level goes over: the root first, and then the open nodes that the
level before has found. -/
def Search.frontier (isOpen : ν → Bool) (root : ν) (depth : ℕ) (s : Search ν) : List ν :=
  if depth = 0 then [root] else s.frontierAt isOpen depth

omit [DecidableEq ν] in
theorem Search.mem_edges {frontier : List ν} {edge : ν × ν} :
    edge ∈ edges names frontier ↔ edge.1 ∈ frontier ∧ edge.2 ∈ names edge.1 := by
  unfold edges
  rw [List.mem_flatMap]
  constructor
  · rintro ⟨node, hnode, hedge⟩
    obtain ⟨named, hnamed, rfl⟩ := List.mem_map.mp hedge
    exact ⟨hnode, hnamed⟩
  · rintro ⟨hnode, hnamed⟩
    exact ⟨edge.1, hnode, List.mem_map_of_mem hnamed⟩

omit [DecidableEq ν] in
theorem Search.mem_frontierAt {node : ν} :
    node ∈ s.frontierAt isOpen depth
      ↔ ∃ f ∈ s.found, f.node = node ∧ f.depth = depth ∧ isOpen node := by
  unfold frontierAt
  rw [List.mem_map]
  constructor
  · rintro ⟨f, hf, rfl⟩
    obtain ⟨hmem, hkeep⟩ := List.mem_filter.mp hf
    rw [Bool.and_eq_true, decide_eq_true_iff] at hkeep
    exact ⟨f, hmem, rfl, hkeep⟩
  · rintro ⟨f, hmem, rfl, hdepth, hopen⟩
    refine ⟨f, List.mem_filter.mpr ⟨hmem, ?_⟩, rfl⟩
    rw [Bool.and_eq_true, decide_eq_true_iff]
    exact ⟨hdepth, hopen⟩

section Step

variable (h : Explored names isOpen root depth s)

include h

omit [DecidableEq ν] in
/-- Nothing was found before the first level. -/
theorem Explored.found_eq_nil (hdepth : depth = 0) : s.found = [] := by
  refine List.eq_nil_iff_forall_not_mem.mpr fun f hf => ?_
  have hle := h.depth_le f hf
  omega

/-- **What is a step further** is what the nodes of the level name, but for what was
found on the way. -/
theorem Explored.reaches_succ {node : ν}
    (hreaches : Reaches names isOpen root (depth + 1) node) :
    (∃ steps ≤ depth, Reaches names isOpen root steps node)
      ∨ ∃ inner ∈ s.frontier isOpen root depth, node ∈ names inner := by
  unfold Search.frontier
  by_cases hzero : depth = 0
  · subst hzero
    cases hreaches with
    | direct hnamed => exact Or.inr ⟨root, by simp, hnamed⟩
    | step hinner _ _ => exact absurd hinner.pos (Nat.lt_irrefl 0)
  · rw [if_neg hzero]
    cases hreaches with
    | direct _ => exact absurd rfl hzero
    | @step _ inner _ hinner hopen hnamed =>
      by_cases hroot : inner = root
      · rw [hroot] at hnamed
        exact Or.inl ⟨1, Nat.one_le_iff_ne_zero.mpr hzero, .direct hnamed⟩
      obtain ⟨f, hf, rfl⟩ := (h.mem_iff inner).mpr ⟨hroot, depth, Nat.le_refl _, hinner⟩
      by_cases heq : f.depth = depth
      · exact Or.inr ⟨f.node, Search.mem_frontierAt.mpr ⟨f, hf, rfl, heq, hopen⟩, hnamed⟩
      · -- an inner node that is nearer brings the node nearer
        have hle := (h.depth_le f hf).2
        exact Or.inl ⟨f.depth + 1, by omega, .step (h.reaches f hf) hopen hnamed⟩

omit [DecidableEq ν] in
/-- The nodes of a level are open, and the level leads a step further. -/
theorem Explored.reaches_of_frontier {inner node : ν}
    (hinner : inner ∈ s.frontier isOpen root depth) (hnamed : node ∈ names inner) :
    Reaches names isOpen root (depth + 1) node
      ∧ ((inner = root ∧ depth = 0)
        ∨ ∃ g ∈ s.found, g.node = inner ∧ isOpen g.node ∧ g.depth = depth) := by
  unfold Search.frontier at hinner
  by_cases hzero : depth = 0
  · rw [if_pos hzero, List.mem_singleton] at hinner
    rw [hinner] at hnamed
    rw [hzero]
    exact ⟨.direct hnamed, Or.inl ⟨hinner, rfl⟩⟩
  · rw [if_neg hzero, Search.mem_frontierAt] at hinner
    obtain ⟨g, hg, rfl, rfl, hopen⟩ := hinner
    exact ⟨.step (h.reaches g hg) hopen hnamed, Or.inr ⟨g, hg, rfl, hopen, rfl⟩⟩

omit [DecidableEq ν] in
/-- The nodes gone over one level on are those of the level more. -/
theorem Explored.goneOver_succ {new : List (Found ν)} (skipped : List (ν × ν))
    (hnew : ∀ f ∈ new, f.depth = depth + 1) :
    (Search.goneOver isOpen root (depth + 1) ⟨s.found ++ new, skipped⟩).Perm
      (s.goneOver isOpen root depth ++ s.frontier isOpen root depth) := by
  have hlater : (new.filter fun f => f.depth < depth + 1 && isOpen f.node) = [] := by
    refine List.filter_eq_nil_iff.mpr fun f hf => ?_
    simp [hnew f hf]
  unfold Search.goneOver Search.frontier Search.frontierAt
  rw [if_neg (Nat.succ_ne_zero _), List.filter_append, hlater, List.append_nil]
  by_cases hzero : depth = 0
  · rw [if_pos hzero, if_pos hzero, h.found_eq_nil hzero]
    exact List.Perm.refl _
  rw [if_neg hzero, if_neg hzero, List.cons_append, ← List.map_append]
  refine (List.Perm.map _ ?_).cons root
  -- what is nearer, and what is at the level itself
  have hsplit := (List.filter_append_perm (fun f => decide (f.depth < depth))
    (s.found.filter fun f => f.depth < depth + 1 && isOpen f.node)).symm
  refine hsplit.trans (List.Perm.of_eq ?_)
  rw [List.filter_filter, List.filter_filter]
  congr 1
  · refine List.filter_congr fun f _ => ?_
    by_cases hlt : f.depth < depth
    · simp [hlt, Nat.lt_succ_of_lt hlt]
    · simp [hlt]
  · refine List.filter_congr fun f _ => ?_
    obtain hlt | heq | hgt := Nat.lt_trichotomy f.depth depth
    · simp [hlt, Nat.ne_of_lt hlt]
    · simp [heq]
    · have hlt : ¬f.depth < depth + 1 := by omega
      simp [hlt, Nat.ne_of_gt hgt]

/-- **One level more.** -/
theorem Explored.level :
    Explored names isOpen root (depth + 1)
      (s.level names root (depth + 1) (s.frontier isOpen root depth)) := by
  obtain ⟨new, skipped, hfold, hmem, hnodup, hnamed, hperm⟩ :=
    @Search.exists_foldl_visit _ _ root s (depth + 1)
      (Search.edges names (s.frontier isOpen root depth))
  have hreach : ∀ f ∈ new, Reaches names isOpen root (depth + 1) f.node
      ∧ f.node ≠ root ∧ f.node ∉ s.found.map (·.node) := by
    intro f hf
    obtain ⟨hinner, hnames⟩ := Search.mem_edges.mp (hnamed f hf).2
    have hunseen := ((hmem f.node).mp ⟨f, hf, rfl⟩).2
    rw [Search.seen, List.mem_cons, not_or] at hunseen
    exact ⟨(h.reaches_of_frontier hinner hnames).1, hunseen⟩
  unfold Search.level
  rw [hfold]
  exact
    { mem_iff := fun node => by
        constructor
        · rintro ⟨f, hf, rfl⟩
          obtain hf | hf := List.mem_append.mp hf
          · obtain ⟨hne, steps, hle, hreaches⟩ := (h.mem_iff f.node).mp ⟨f, hf, rfl⟩
            exact ⟨hne, steps, Nat.le_succ_of_le hle, hreaches⟩
          · exact ⟨(hreach f hf).2.1, depth + 1, Nat.le_refl _, (hreach f hf).1⟩
        · rintro ⟨hne, steps, hle, hreaches⟩
          have hearlier : (∃ steps ≤ depth, Reaches names isOpen root steps node) →
              ∃ f ∈ s.found ++ new, f.node = node := by
            intro hbefore
            obtain ⟨f, hf, heq⟩ := (h.mem_iff node).mpr ⟨hne, hbefore⟩
            exact ⟨f, List.mem_append_left _ hf, heq⟩
          obtain hle | rfl := Nat.le_or_eq_of_le_succ hle
          · exact hearlier ⟨steps, hle, hreaches⟩
          obtain hbefore | ⟨inner, hinner, hnames⟩ := h.reaches_succ hreaches
          · exact hearlier hbefore
          by_cases hseen : node ∈ s.seen root
          · rw [Search.seen, List.mem_cons, List.mem_map] at hseen
            obtain ⟨f, hf, heq⟩ := hseen.resolve_left hne
            exact ⟨f, List.mem_append_left _ hf, heq⟩
          · obtain ⟨f, hf, heq⟩ := (hmem node).mpr
              ⟨⟨(inner, node), Search.mem_edges.mpr ⟨hinner, hnames⟩, rfl⟩, hseen⟩
            exact ⟨f, List.mem_append_right _ hf, heq⟩
      nodup := by
        rw [List.map_append, List.nodup_append]
        refine ⟨h.nodup, hnodup, fun node hold node' hnew heq => ?_⟩
        obtain ⟨f, hf, rfl⟩ := List.mem_map.mp hnew
        exact (hreach f hf).2.2 (heq ▸ hold)
      reaches := fun f hf => by
        obtain hf | hf := List.mem_append.mp hf
        · exact h.reaches f hf
        · rw [(hnamed f hf).1]
          exact (hreach f hf).1
      least := fun f hf steps hreaches => by
        obtain hf | hf := List.mem_append.mp hf
        · exact h.least f hf steps hreaches
        · -- what can be reached earlier was found earlier
          rw [(hnamed f hf).1]
          by_contra hlt
          obtain ⟨g, hg, heq⟩ := (h.mem_iff f.node).mpr
            ⟨(hreach f hf).2.1, steps, by omega, hreaches⟩
          exact (hreach f hf).2.2 (heq ▸ List.mem_map_of_mem hg)
      depth_le := fun f hf => by
        obtain hf | hf := List.mem_append.mp hf
        · have hle := h.depth_le f hf
          omega
        · rw [(hnamed f hf).1]
          omega
      named := fun f hf => by
        obtain hf | hf := List.mem_append.mp hf
        · obtain ⟨hnames, hfirst | ⟨g, hg, hnearer⟩⟩ := h.named f hf
          · exact ⟨hnames, Or.inl hfirst⟩
          · exact ⟨hnames, Or.inr ⟨g, List.mem_append_left _ hg, hnearer⟩⟩
        · obtain ⟨hinner, hnames⟩ := Search.mem_edges.mp (hnamed f hf).2
          refine ⟨hnames, ?_⟩
          rw [(hnamed f hf).1]
          obtain ⟨hroot, hzero⟩ | ⟨g, hg, heq, hopen, hdepth⟩ :=
            (h.reaches_of_frontier hinner hnames).2
          · exact Or.inl ⟨hroot, by rw [hzero]⟩
          · exact Or.inr ⟨g, List.mem_append_left _ hg, heq, hopen, by rw [hdepth]⟩
      ordered := by
        rw [List.pairwise_append]
        refine ⟨h.ordered, ?_, fun f hf g hg => ?_⟩
        · refine List.pairwise_of_forall_mem_list fun f hf g hg => ?_
          exact Nat.le_of_eq ((hnamed f hf).1.trans (hnamed g hg).1.symm)
        · rw [(hnamed g hg).1]
          exact Nat.le_succ_of_le (h.depth_le f hf).2
      all_named := by
        have hover := h.goneOver_succ (s.skipped ++ skipped) fun f hf => (hnamed f hf).1
        refine (hover.flatMap_right _).trans ?_
        rw [List.flatMap_append, List.map_append]
        refine (h.all_named.append hperm).trans ?_
        -- what was found first, then what was skipped
        rw [List.append_assoc, List.append_assoc]
        refine List.Perm.append_left _ ?_
        rw [← List.append_assoc, ← List.append_assoc]
        exact List.perm_append_comm.append_right _ }

end Step

/-- The levels that are left, gone over. -/
theorem explored_searchFrom (h : Explored names isOpen root depth s) (levels : ℕ) :
    Explored names isOpen root (depth + levels)
      (s.searchFrom names isOpen root levels (depth + 1) (s.frontier isOpen root depth)) := by
  induction levels generalizing depth s with
  | zero => exact h
  | succ levels ih =>
    have hnext := ih h.level
    rw [Nat.add_right_comm] at hnext
    exact hnext

omit [DecidableEq ν] in
/-- Nothing is found beyond the levels. -/
theorem Explored.frontierAt_eq_nil (h : Explored names isOpen root levels s)
    (hlt : levels < depth) : s.frontierAt isOpen depth = [] := by
  refine List.eq_nil_iff_forall_not_mem.mpr fun node hnode => ?_
  obtain ⟨f, hf, -, heq, -⟩ := Search.mem_frontierAt.mp hnode
  have hle := (h.depth_le f hf).2
  omega

/-- Where a level is empty, the rest is. -/
theorem Explored.searchFrom_nil (h : Explored names isOpen root depth s)
    (hnil : s.frontier isOpen root depth = []) (levels : ℕ) :
    s.searchFrom names isOpen root levels (depth + 1) [] = s := by
  induction levels generalizing depth with
  | zero => rfl
  | succ levels ih =>
    have hsame : s.level names root (depth + 1) [] = s := rfl
    have hempty : s.frontierAt isOpen (depth + 1) = [] :=
      h.frontierAt_eq_nil (Nat.lt_succ_self depth)
    have hlevel := h.level
    rw [hnil, hsame] at hlevel
    unfold Search.searchFrom
    rw [hsame]
    dsimp only
    rw [hempty]
    exact ih hlevel (by rw [Search.frontier, if_neg (Nat.succ_ne_zero _), hempty])

/-- **A search finds what open nodes lead to**, at its distance, and skips the rest. -/
theorem explored_search (names : ν → List ν) (isOpen : ν → Bool) (root : ν) (levels : ℕ) :
    Explored names isOpen root levels (Search.search names isOpen root levels) := by
  have h := explored_searchFrom (@explored_start _ names isOpen root) levels
  rw [Nat.zero_add] at h
  exact h

/-! ## Nodes that stand for one thing -/

variable {μ : Type*} {names' : μ → List μ} {isOpen' : μ → Bool} {f : ν → μ}

/-- **A node names what the thing it stands for names**, and is as open. A search of the
one is then a search of the other. -/
structure StandsFor (names : ν → List ν) (isOpen : ν → Bool) (names' : μ → List μ)
    (isOpen' : μ → Bool) (f : ν → μ) : Prop where
  names_eq : ∀ node, names' (f node) = (names node).map f
  isOpen_eq : ∀ node, isOpen' (f node) = isOpen node

/-- A node that a search of some levels meets. -/
def Meets (names : ν → List ν) (isOpen : ν → Bool) (root : ν) (levels : ℕ)
    (node : ν) : Prop :=
  node = root ∨ ∃ steps ≤ levels, Reaches names isOpen root steps node

/-- **No two nodes that are met stand for one thing.** -/
def Apart (names : ν → List ν) (isOpen : ν → Bool) (root : ν) (levels : ℕ)
    (f : ν → μ) : Prop :=
  ∀ node other, Meets names isOpen root levels node →
    Meets names isOpen root levels other → f node = f other → node = other

/-- A found node under a renaming of the nodes. -/
def Found.map (f : ν → μ) (found : Found ν) : Found μ :=
  ⟨f found.node, found.depth, f found.namedBy⟩

/-- A search under a renaming of the nodes. -/
def Search.map (f : ν → μ) (s : Search ν) : Search μ :=
  ⟨s.found.map (Found.map f), s.skipped.map (Prod.map f f)⟩

section StandsFor

variable (hstands : StandsFor names isOpen names' isOpen' f)

include hstands

omit [DecidableEq ν] in
/-- The steps between things are the steps between nodes. -/
theorem StandsFor.reaches_thing_iff {steps : ℕ} {thing : μ} :
    Reaches names' isOpen' (f root) steps thing
      ↔ ∃ node, f node = thing ∧ Reaches names isOpen root steps node := by
  constructor
  · intro h
    induction h with
    | direct hnamed =>
      rw [hstands.names_eq] at hnamed
      obtain ⟨node, hnode, heq⟩ := List.mem_map.mp hnamed
      exact ⟨node, heq, .direct hnode⟩
    | step _ hopen hnamed ih =>
      obtain ⟨inner, rfl, hinner⟩ := ih
      rw [hstands.isOpen_eq] at hopen
      rw [hstands.names_eq] at hnamed
      obtain ⟨node, hnode, heq⟩ := List.mem_map.mp hnamed
      exact ⟨node, heq, .step hinner hopen hnode⟩
  · rintro ⟨node, rfl, h⟩
    induction h with
    | direct hnamed =>
      exact .direct (by rw [hstands.names_eq]; exact List.mem_map_of_mem hnamed)
    | step _ hopen hnamed ih =>
      refine .step ih (by rw [hstands.isOpen_eq]; exact hopen) ?_
      rw [hstands.names_eq]
      exact List.mem_map_of_mem hnamed

omit [DecidableEq ν] in
theorem StandsFor.edges_map (nodes : List ν) :
    Search.edges names' (nodes.map f)
      = (Search.edges names nodes).map (Prod.map f f) := by
  unfold Search.edges
  rw [List.flatMap_map, List.map_flatMap]
  congr 1
  funext node
  rw [hstands.names_eq, List.map_map, List.map_map]
  rfl

omit [DecidableEq ν] in
theorem StandsFor.goneOver_map (s : Search ν) :
    (s.map f).goneOver isOpen' (f root) levels
      = (s.goneOver isOpen root levels).map f := by
  unfold Search.goneOver Search.map
  by_cases hzero : levels = 0
  · rw [if_pos hzero, if_pos hzero, List.map_nil]
  rw [if_neg hzero, if_neg hzero, List.map_cons, List.filter_map, List.map_map,
    List.map_map]
  congr 2
  refine List.filter_congr fun found _ => ?_
  show (decide (found.depth < levels) && isOpen' (f found.node)) = _
  rw [hstands.isOpen_eq]

omit [DecidableEq ν] in
/-- **What is found of the nodes is found of the things**, where the nodes that are
met stand for different things. -/
theorem Explored.map (h : Explored names isOpen root levels s)
    (hapart : Apart names isOpen root levels f) :
    Explored names' isOpen' (f root) levels (s.map f) := by
  have hmet : ∀ found ∈ s.found, Meets names isOpen root levels found.node :=
    fun found hfound =>
      Or.inr ⟨found.depth, (h.depth_le found hfound).2, h.reaches found hfound⟩
  have hfound : ∀ found ∈ (s.map f).found,
      ∃ node ∈ s.found, Found.map f node = found :=
    fun found hfound => List.mem_map.mp hfound
  exact
    { mem_iff := fun thing => by
        constructor
        · rintro ⟨_, hthing, rfl⟩
          obtain ⟨found, hmem, rfl⟩ := hfound _ hthing
          obtain ⟨hne, steps, hle, hreaches⟩ :=
            (h.mem_iff found.node).mp ⟨found, hmem, rfl⟩
          refine ⟨fun heq => hne (hapart _ _ (hmet found hmem) (Or.inl rfl) heq),
            steps, hle, hstands.reaches_thing_iff.mpr ⟨found.node, rfl, hreaches⟩⟩
        · rintro ⟨hne, steps, hle, hreaches⟩
          obtain ⟨node, rfl, hnode⟩ := hstands.reaches_thing_iff.mp hreaches
          obtain ⟨found, hmem, rfl⟩ := (h.mem_iff node).mpr
            ⟨fun heq => hne (by rw [heq]), steps, hle, hnode⟩
          exact ⟨_, List.mem_map_of_mem hmem, rfl⟩
      nodup := by
        show ((s.found.map (Found.map f)).map (·.node)).Nodup
        have hnodes : (s.found.map (Found.map f)).map (·.node)
            = (s.found.map (·.node)).map f := by
          rw [List.map_map, List.map_map]
          rfl
        rw [hnodes]
        refine List.Nodup.map_on (fun node hnode other hother heq => ?_) h.nodup
        obtain ⟨found, hmem, rfl⟩ := List.mem_map.mp hnode
        obtain ⟨found', hmem', rfl⟩ := List.mem_map.mp hother
        exact hapart _ _ (hmet found hmem) (hmet found' hmem') heq
      reaches := fun _ hthing => by
        obtain ⟨found, hmem, rfl⟩ := hfound _ hthing
        exact hstands.reaches_thing_iff.mpr ⟨found.node, rfl, h.reaches found hmem⟩
      least := fun _ hthing steps hreaches => by
        obtain ⟨found, hmem, rfl⟩ := hfound _ hthing
        obtain ⟨node, heq, hnode⟩ := hstands.reaches_thing_iff.mp hreaches
        show found.depth ≤ steps
        -- what is further than the levels is further than what was found
        by_cases hle : steps ≤ levels
        · have hsame := hapart node found.node (Or.inr ⟨steps, hle, hnode⟩)
            (hmet found hmem) heq
          exact h.least found hmem steps (hsame ▸ hnode)
        · have hdepth := (h.depth_le found hmem).2
          omega
      depth_le := fun _ hthing => by
        obtain ⟨found, hmem, rfl⟩ := hfound _ hthing
        exact h.depth_le found hmem
      named := fun _ hthing => by
        obtain ⟨found, hmem, rfl⟩ := hfound _ hthing
        obtain ⟨hnames, hnearer⟩ := h.named found hmem
        refine ⟨?_, ?_⟩
        · show f found.node ∈ names' (f found.namedBy)
          rw [hstands.names_eq]
          exact List.mem_map_of_mem hnames
        · obtain ⟨hroot, hdepth⟩ | ⟨inner, hinner, heq, hopen, hdepth⟩ := hnearer
          · exact Or.inl ⟨congrArg f hroot, hdepth⟩
          · refine Or.inr ⟨inner.map f, List.mem_map_of_mem hinner, congrArg f heq, ?_,
              hdepth⟩
            show isOpen' (f inner.node) = true
            rw [hstands.isOpen_eq]
            exact hopen
      ordered := List.pairwise_map.mpr h.ordered
      all_named := by
        rw [hstands.goneOver_map, hstands.edges_map]
        refine (h.all_named.map _).trans (List.Perm.of_eq ?_)
        rw [List.map_append, List.map_map]
        show _ = (s.found.map (Found.map f)).map _ ++ _
        rw [List.map_map]
        rfl }

end StandsFor

omit [DecidableEq ν] in
/-- What is met is the root or was found. -/
theorem Explored.meets_cases (h : Explored names isOpen root levels s) {node : ν}
    (hmet : Meets names isOpen root levels node) :
    node = root ∨ ∃ found ∈ s.found, found.node = node := by
  by_cases hroot : node = root
  · exact Or.inl hroot
  · exact Or.inr ((h.mem_iff node).mpr ⟨hroot, hmet.resolve_left hroot⟩)

omit [DecidableEq ν] in
/-- **Where each thing was found once, and the root not at all**, what is met stands
for different things. -/
theorem Explored.apart (h : Explored names isOpen root levels s)
    (honce : (s.found.map fun found => f found.node).Nodup)
    (hroot : ∀ found ∈ s.found, f found.node ≠ f root) :
    Apart names isOpen root levels f := by
  intro node other hnode hother heq
  obtain rfl | ⟨found, hfound, rfl⟩ := h.meets_cases hnode
  · obtain rfl | ⟨found, hfound, rfl⟩ := h.meets_cases hother
    · rfl
    · exact absurd heq.symm (hroot found hfound)
  · obtain rfl | ⟨found', hfound', rfl⟩ := h.meets_cases hother
    · exact absurd heq (hroot found hfound)
    · exact congrArg (·.node) (List.inj_on_of_nodup_map honce hfound hfound' heq)

end BreadthFirst
