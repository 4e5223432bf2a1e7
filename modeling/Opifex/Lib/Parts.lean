import Opifex.Lib.Text

/-!
# Texts made of parts

A text is cut at a mark and its parts are joined by it again. Of the parts of a
joined text – none of which holds the mark – three things are read off the text:
whether it begins with other parts (`flatMap_prefix_iff`), which part is the
last (`rtakeWhile_intercalate`), and all of them (`intercalate_inj`).

What does not hold the mark is found in a text exactly where it is found on one
side of a mark (`infix_append_cons_iff`).

A text that comes in pieces is cut piece by piece: the part after the last mark is
carried on and cut with what comes next (`ended_append`, `carry_append`).
-/

namespace Parts

variable {α : Type*} {mark : α}

/-! ## Cutting -/

section Cut

variable [BEq α]

/-- The text after the last mark, which more text may go on with. -/
def carry (mark : α) (l : List α) : List α := (l.splitOn mark).getLast?.getD []

/-- The parts that a mark has ended. -/
def ended (mark : α) (l : List α) : List (List α) := (l.splitOn mark).dropLast

/-- **A text that comes in two pieces** is cut as its first piece is, the carry of
which is cut with the second. -/
theorem splitOn_append (x y : List α) :
    (x ++ y).splitOn mark = ended mark x ++ (carry mark x ++ y).splitOn mark := by
  induction x with
  | nil => rfl
  | cons a x ih =>
    obtain ⟨first, rest, hcut⟩ :=
      List.exists_cons_of_ne_nil (List.splitOn_ne_nil mark x)
    unfold ended carry at ih ⊢
    rw [List.cons_append, List.splitOn_cons_eq_if_modifyHead, ih,
      List.splitOn_cons_eq_if_modifyHead, hcut]
    by_cases ha : (a == mark) = true
    · rw [if_pos ha, if_pos ha, List.dropLast_cons_cons, List.getLast?_cons_cons,
        List.cons_append]
    · rw [if_neg ha, if_neg ha, List.modifyHead_cons]
      cases rest with
      | nil =>
        show List.modifyHead _ ((first ++ y).splitOn mark)
          = ((a :: first) ++ y).splitOn mark
        rw [List.cons_append, List.splitOn_cons_eq_if_modifyHead, if_neg ha]
      | cons second rest =>
        rw [List.dropLast_cons_cons, List.dropLast_cons_cons,
          List.getLast?_cons_cons, List.getLast?_cons_cons]
        rfl

theorem carry_append (x y : List α) :
    carry mark (x ++ y) = carry mark (carry mark x ++ y) := by
  have hne := List.splitOn_ne_nil mark (carry mark x ++ y)
  rw [carry, splitOn_append, List.getLast?_append_of_ne_nil _ hne]
  rfl

theorem ended_append (x y : List α) :
    ended mark (x ++ y) = ended mark x ++ ended mark (carry mark x ++ y) := by
  have hne := List.splitOn_ne_nil mark (carry mark x ++ y)
  rw [ended, splitOn_append, List.dropLast_append_of_ne_nil hne]
  rfl

variable [LawfulBEq α]

/-- No part holds the mark. -/
theorem mark_notMem {l part : List α} (h : part ∈ l.splitOn mark) : mark ∉ part := by
  induction l generalizing part with
  | nil =>
    rw [List.splitOn_nil, List.mem_singleton] at h
    rw [h]
    exact List.not_mem_nil
  | cons a l ih =>
    rw [List.splitOn_cons_eq_if_modifyHead] at h
    by_cases ha : (a == mark) = true
    · rw [if_pos ha] at h
      obtain rfl | h := List.mem_cons.mp h
      · exact List.not_mem_nil
      · exact ih h
    · rw [if_neg ha] at h
      obtain ⟨first, rest, hcut⟩ :=
        List.exists_cons_of_ne_nil (List.splitOn_ne_nil mark l)
      rw [hcut, List.modifyHead_cons] at h
      obtain rfl | h := List.mem_cons.mp h
      · have hfirst : mark ∉ first := ih (hcut ▸ List.mem_cons_self)
        rw [List.mem_cons, not_or]
        exact ⟨fun heq => ha (beq_iff_eq.mpr heq.symm), hfirst⟩
      · exact ih (hcut ▸ List.mem_cons_of_mem _ h)

theorem carry_of_notMem {l : List α} (h : mark ∉ l) : carry mark l = l := by
  rw [carry, List.splitOn_eq_singleton h]
  rfl

theorem ended_of_notMem {l : List α} (h : mark ∉ l) : ended mark l = [] := by
  rw [ended, List.splitOn_eq_singleton h]
  rfl

theorem carry_append_cons {x : List α} (y : List α) (h : mark ∉ x) :
    carry mark (x ++ mark :: y) = carry mark y := by
  have hne := List.splitOn_ne_nil mark y
  rw [carry, List.splitOn_append_cons_self_of_not_mem h,
    List.getLast?_cons_of_ne_nil hne]
  rfl

theorem ended_append_cons {x : List α} (y : List α) (h : mark ∉ x) :
    ended mark (x ++ mark :: y) = x :: ended mark y := by
  have hne := List.splitOn_ne_nil mark y
  rw [ended, List.splitOn_append_cons_self_of_not_mem h,
    List.dropLast_cons_of_ne_nil hne]
  rfl

/-- **A mark cuts a text in two.** -/
theorem splitOn_append_mark (x y : List α) :
    (x ++ mark :: y).splitOn mark = x.splitOn mark ++ y.splitOn mark := by
  have hne := List.splitOn_ne_nil mark x
  have hcarry : mark ∉ carry mark x := by
    refine mark_notMem (l := x) ?_
    unfold carry
    rw [List.getLast?_eq_some_getLast hne]
    exact List.getLast_mem hne
  have hparts : ended mark x ++ [carry mark x] = x.splitOn mark := by
    unfold ended carry
    rw [List.getLast?_eq_some_getLast hne]
    exact List.dropLast_concat_getLast hne
  rw [splitOn_append, List.splitOn_append_cons_self_of_not_mem hcarry, ← hparts,
    List.append_assoc, List.singleton_append]

/-- A joined text is cut into the parts of what it was joined from. -/
theorem splitOn_intercalate {texts : List (List α)} (h : texts ≠ []) :
    ([mark].intercalate texts).splitOn mark = texts.flatMap (·.splitOn mark) := by
  induction texts with
  | nil => contradiction
  | cons text texts ih =>
    by_cases hrest : texts = []
    · rw [hrest]
      simp
    · rw [List.intercalate_cons_of_ne_nil hrest, List.append_assoc, List.singleton_append,
        splitOn_append_mark, ih hrest, List.flatMap_cons]

omit [BEq α] [LawfulBEq α] in
/-- What is joined stands in the whole. -/
theorem exists_of_mem_intercalate {separator part : List α} {parts : List (List α)}
    (h : part ∈ parts) : ∃ x y, separator.intercalate parts = x ++ part ++ y := by
  induction parts with
  | nil => contradiction
  | cons first parts ih =>
    by_cases hrest : parts = []
    · rw [hrest] at h ⊢
      rw [List.mem_singleton.mp h]
      exact ⟨[], [], by simp⟩
    · rw [List.intercalate_cons_of_ne_nil hrest]
      obtain rfl | h := List.mem_cons.mp h
      · exact ⟨[], separator ++ separator.intercalate parts, by simp⟩
      · obtain ⟨x, y, hxy⟩ := ih h
        exact ⟨first ++ separator ++ x, y, by rw [hxy]; simp⟩

theorem exists_of_mem_splitOn {l part : List α} (h : part ∈ l.splitOn mark) :
    ∃ x y, l = x ++ part ++ y := by
  have hjoin : ∃ x y, [mark].intercalate (l.splitOn mark) = x ++ part ++ y :=
    exists_of_mem_intercalate h
  rw [List.intercalate_splitOn] at hjoin
  exact hjoin

end Cut

/-! ## Joining -/

section Join

variable {parts parts' : List (List α)}

/-- A joined text with a mark at its end. -/
theorem intercalate_concat (hne : parts ≠ []) :
    [mark].intercalate parts ++ [mark] = parts.flatMap (· ++ [mark]) := by
  induction parts with
  | nil => exact absurd rfl hne
  | cons first rest ih =>
    by_cases hrest : rest = []
    · subst hrest
      simp
    · rw [List.intercalate_cons_of_ne_nil hrest, List.flatMap_cons, ← ih hrest]
      simp

/-- **Beginning with parts** is seen from the marked text. -/
theorem flatMap_prefix_iff (h : ∀ part ∈ parts, mark ∉ part)
    (h' : ∀ part ∈ parts', mark ∉ part) :
    parts.flatMap (· ++ [mark]) <+: parts'.flatMap (· ++ [mark])
      ↔ parts <+: parts' := by
  induction parts generalizing parts' with
  | nil => simp
  | cons first rest ih =>
    cases parts' with
    | nil => simp
    | cons first' rest' =>
      have hfirst := h first List.mem_cons_self
      have hfirst' := h' first' List.mem_cons_self
      have hrest := @ih rest'
        (fun part hpart => h part (List.mem_cons_of_mem _ hpart))
        (fun part hpart => h' part (List.mem_cons_of_mem _ hpart))
      simp only [List.flatMap_cons, List.append_assoc, List.singleton_append]
      rw [List.cons_prefix_cons, ← hrest]
      constructor
      · rintro ⟨more, hmore⟩
        rw [List.append_assoc, List.cons_append] at hmore
        obtain ⟨heq, htail⟩ := Text.append_mark_inj hfirst hfirst' hmore
        exact ⟨heq, more, htail⟩
      · rintro ⟨rfl, more, hmore⟩
        refine ⟨more, ?_⟩
        rw [List.append_assoc, List.cons_append, hmore]

/-- The text after a mark, where the mark is not kept. -/
theorem rtakeWhile_append_cons {keep : α → Bool} {l last : List α}
    (hmark : ¬keep mark) (hlast : ∀ c ∈ last, keep c) :
    (l ++ mark :: last).rtakeWhile keep = last := by
  induction last using List.reverseRecOn with
  | nil => exact List.rtakeWhile_concat_neg keep l mark hmark
  | append_singleton last c ih =>
    have hc : keep c := hlast c (by simp)
    have hinit := ih fun d hd => hlast d (List.mem_append_left _ hd)
    rw [← List.cons_append, ← List.append_assoc,
      List.rtakeWhile_concat_pos keep _ c hc, hinit]

/-- The text after the last mark is the last part. -/
theorem rtakeWhile_intercalate {keep : α → Bool} (hmark : ¬keep mark)
    (hparts : ∀ part ∈ parts, ∀ c ∈ part, keep c) :
    ([mark].intercalate parts).rtakeWhile keep = parts.getLast?.getD [] := by
  obtain rfl | ⟨start, last, rfl⟩ := parts.eq_nil_or_concat
  · simp
  rw [List.concat_eq_append] at hparts ⊢
  have hlast : ∀ c ∈ last, keep c := hparts last (by simp)
  rw [List.getLast?_concat, Option.getD_some]
  by_cases hstart : start = []
  · rw [hstart, List.nil_append]
    simpa using hlast
  · have hjoin : [mark].intercalate (start ++ [last])
        = [mark].intercalate start ++ mark :: last := by
      refine @List.append_cancel_right _ _ [mark] _ ?_
      rw [intercalate_concat (by simp), List.flatMap_append,
        ← intercalate_concat hstart]
      simp
    rw [hjoin]
    exact rtakeWhile_append_cons hmark hlast

end Join

/-- Joined texts are equal when their parts are. -/
theorem intercalate_inj [BEq α] [LawfulBEq α] {parts parts' : List (List α)}
    (h : ∀ part ∈ parts, mark ∉ part) (h' : ∀ part ∈ parts', mark ∉ part)
    (hne : parts ≠ []) (hne' : parts' ≠ []) :
    [mark].intercalate parts = [mark].intercalate parts' ↔ parts = parts' := by
  refine ⟨fun heq => ?_, fun heq => heq ▸ rfl⟩
  rw [← List.splitOn_intercalate mark h hne, heq,
    List.splitOn_intercalate mark h' hne']

/-! ## Finding -/

/-- What does not hold a mark is not found across one. -/
theorem infix_append_cons_iff {pattern x y : List α} (hmark : mark ∉ pattern) :
    pattern <:+: x ++ mark :: y ↔ pattern <:+: x ∨ pattern <:+: y := by
  constructor
  · rintro ⟨before, after, h⟩
    rw [List.append_assoc] at h
    obtain ⟨more, hx, hrest⟩ | ⟨more, hbefore, hrest⟩ :=
      List.append_eq_append_iff.mp h
    · obtain ⟨tail, hmore, -⟩ | ⟨tail, hpattern, hcons⟩ :=
        List.append_eq_append_iff.mp hrest
      · left
        exact ⟨before, tail, by rw [hx, hmore, List.append_assoc]⟩
      · cases tail with
        | nil =>
          left
          exact ⟨before, [], by rw [hx, hpattern]; simp⟩
        | cons c tail =>
          obtain ⟨rfl, -⟩ := List.cons.inj hcons
          exact absurd (hpattern ▸ by simp) hmark
    · cases more with
      | nil =>
        cases pattern with
        | nil => exact Or.inl List.nil_infix
        | cons c pattern =>
          obtain ⟨rfl, -⟩ := List.cons.inj hrest
          exact absurd List.mem_cons_self hmark
      | cons c more =>
        obtain ⟨-, hy⟩ := List.cons.inj hrest
        exact Or.inr ⟨more, after, by rw [hy]; simp⟩
  · rintro (h | h)
    · exact h.trans (List.prefix_append _ _).isInfix
    · exact h.trans ((List.suffix_cons _ _).trans (List.suffix_append _ _)).isInfix

end Parts
