import Mathlib.Data.List.Forall2
import Opifex.Lib.Pattern

/-!
# Scanning a text with a pattern

A *local* pattern looks at nothing but what it matches: no edge of a line, of a word
or of the text. Its matches in a text are then those of a longer text that do not
reach into what is more (`forall₂_ends`), and what came before the match does not
matter.

So the matches before a point and those from it on are found apart, if the point is
one where a match starts (`scan_of_match`), or if a character stands there that no
match takes (`scan_append_cons`).
-/

namespace Pattern

variable {p : Pattern} {s s' e : Pos} {z : List Char}

/-! ## What a match takes -/

/-- Between two points there are only characters of a kind. -/
def Takes (ok : Char → Prop) (s e : Pos) : Prop :=
  ∃ taken, s.rest = taken ++ e.rest ∧ e.before = taken.reverse ++ s.before
    ∧ ∀ c ∈ taken, ok c

theorem Takes.refl {ok : Char → Prop} (s : Pos) : Takes ok s s :=
  ⟨[], rfl, rfl, by simp⟩

theorem Takes.trans {ok : Char → Prop} {m : Pos} (h : Takes ok s m) (h' : Takes ok m e) :
    Takes ok s e := by
  obtain ⟨taken, hrest, hbefore, hok⟩ := h
  obtain ⟨taken', hrest', hbefore', hok'⟩ := h'
  refine ⟨taken ++ taken', by rw [hrest, hrest', List.append_assoc],
    by rw [hbefore', hbefore, List.reverse_append, List.append_assoc], fun c hc => ?_⟩
  obtain hc | hc := List.mem_append.mp hc
  · exact hok c hc
  · exact hok' c hc

theorem Takes.length_le {ok : Char → Prop} (h : Takes ok s e) :
    e.rest.length ≤ s.rest.length := by
  obtain ⟨taken, hrest, -⟩ := h
  rw [hrest, List.length_append]
  exact Nat.le_add_left _ _

/-- Both are points of one text. -/
theorem Takes.text_eq {ok : Char → Prop} (h : Takes ok s e) :
    e.before.reverse ++ e.rest = s.before.reverse ++ s.rest := by
  obtain ⟨taken, hrest, hbefore, -⟩ := h
  rw [hrest, hbefore, List.reverse_append, List.reverse_reverse, List.append_assoc]

/-- The characters a pattern may take are all of a kind. -/
def TakesOnly (ok : Char → Prop) : Pattern → Prop
  | char holds => ∀ c, holds c = true → ok c
  | lazy _ holds => ∀ c, holds c = true → ok c
  | seq first second => TakesOnly ok first ∧ TakesOnly ok second
  | alt first second => TakesOnly ok first ∧ TakesOnly ok second
  | rep _ _ body => TakesOnly ok body
  | group _ body => TakesOnly ok body
  | _ => True

section Takes

variable {ok : Char → Prop}

theorem takes_repEnds {ends : Pos → List Pos} (h : ∀ s, ∀ e ∈ ends s, Takes ok s e)
    (fuel least : ℕ) (most : Option ℕ) :
    ∀ s, ∀ e ∈ repEnds ends fuel least most s, Takes ok s e := by
  induction fuel generalizing least most with
  | zero =>
    intro s e he
    rw [repEnds] at he
    split_ifs at he
    · rw [List.mem_singleton.mp he]
      exact .refl s
    · contradiction
  | succ fuel ih =>
    intro s e he
    rw [repEnds] at he
    obtain hmore | hstop := List.mem_append.mp he
    · split_ifs at hmore
      · contradiction
      · obtain ⟨m, hm, he⟩ := List.mem_flatMap.mp hmore
        exact (h s m (List.mem_filter.mp hm).1).trans (ih _ _ m e he)
    · split_ifs at hstop
      · rw [List.mem_singleton.mp hstop]
        exact .refl s
      · contradiction

theorem takes_classEnds {holds : Char → Bool} (hok : ∀ c, holds c = true → ok c)
    (he : e ∈ classEnds holds s) : Takes ok s e := by
  unfold classEnds at he
  cases hrest : s.rest with
  | nil => simp [hrest] at he
  | cons c cs =>
    rw [hrest] at he
    dsimp only at he
    split_ifs at he with hc
    · rw [List.mem_singleton.mp he]
      exact ⟨[c], hrest, rfl, by simpa using hok c hc⟩
    · contradiction

/-- **A match takes what stands from its start on**, and only what the pattern may. -/
theorem takes_ends (hp : p.TakesOnly ok) : ∀ s, ∀ e ∈ p.ends s, Takes ok s e := by
  have hself : ∀ {s e : Pos} {b : Bool}, e ∈ (if b then [s] else []) → Takes ok s e := by
    intro s e b he
    cases b with
    | true =>
      rw [List.mem_singleton.mp he]
      exact .refl s
    | false => contradiction
  induction p with
  | char holds => exact fun s e he => takes_classEnds hp he
  | lineStart => exact fun s e he => hself he
  | lineEnd => exact fun s e he => hself he
  | textStart => exact fun s e he => hself he
  | textEnd => exact fun s e he => hself he
  | wordEdge => exact fun s e he => hself he
  | notAfter holds =>
    intro s e he
    unfold ends at he
    split_ifs at he
    · contradiction
    · rw [List.mem_singleton.mp he]
      exact .refl s
  | empty =>
    intro s e he
    rw [List.mem_singleton.mp he]
    exact .refl s
  | seq first second ih₁ ih₂ =>
    intro s e he
    obtain ⟨m, hm, he⟩ := mem_ends_seq.mp he
    exact (ih₁ hp.1 s m hm).trans (ih₂ hp.2 m e he)
  | alt first second ih₁ ih₂ =>
    intro s e he
    obtain he | he := List.mem_append.mp he
    · exact ih₁ hp.1 s e he
    · exact ih₂ hp.2 s e he
  | rep least most body ih => exact fun s e he => takes_repEnds (ih hp) _ _ _ s e he
  | lazy least holds =>
    intro s e he
    exact takes_repEnds (fun _ _ h => takes_classEnds hp h) _ _ _ s e
      (List.mem_reverse.mp he)
  | group index body ih =>
    intro s e he
    obtain ⟨m, hm, rfl⟩ := mem_ends_group.mp he
    exact ih hp s m hm

end Takes

/-- Nothing is asked of the characters. -/
def Advances (s e : Pos) : Prop := Takes (fun _ => True) s e

theorem advances_ends (p : Pattern) : ∀ s, ∀ e ∈ p.ends s, Advances s e := by
  refine takes_ends ?_
  induction p with
  | seq first second ih₁ ih₂ => exact ⟨ih₁, ih₂⟩
  | alt first second ih₁ ih₂ => exact ⟨ih₁, ih₂⟩
  | rep least most body ih => exact ih
  | group index body ih => exact ih
  | char holds => exact fun _ _ => trivial
  | lazy least holds => exact fun _ _ => trivial
  | _ => trivial

theorem mem_ends_optional : e ∈ (optional p).ends s ↔
    (e ∈ p.ends s ∧ e.rest.length < s.rest.length) ∨ e = s := by
  have hstop : ∀ (fuel : ℕ) (m : Pos), repEnds p.ends fuel 0 (some 0) m = [m] := by
    intro fuel m
    cases fuel with
    | zero => rfl
    | succ fuel => rfl
  show e ∈ ((p.ends s).filter fun e => (0 : ℕ) < 0 || e.rest.length < s.rest.length).flatMap
    (fun m => repEnds p.ends (s.rest.length + 0) 0 (some 0) m) ++ [s] ↔ _
  simp only [hstop, List.flatMap_singleton']
  rw [List.mem_append, List.mem_filter, List.mem_singleton]
  simp

/-- A greedy repetition takes all it can. -/
theorem head?_repEnds_char {holds : Char → Bool} {taken rest : List Char}
    (htaken : ∀ c ∈ taken, holds c = true) (hrest : ∀ c, rest.head? = some c → holds c = false)
    {fuel : ℕ} {s : Pos} (hs : s.rest = taken ++ rest) (hfuel : taken.length < fuel) :
    (repEnds (char holds).ends fuel 0 none s).head? = some (s.advance taken rest) := by
  induction taken generalizing fuel s with
  | nil =>
    obtain _ | fuel := fuel
    · exact absurd hfuel (Nat.not_lt_zero _)
    have hnone : (char holds).ends s = [] := by
      refine List.eq_nil_iff_forall_not_mem.mpr fun e he => ?_
      obtain ⟨c, cs, hc, hholds, -⟩ := mem_ends_char.mp he
      rw [hrest c (by rw [show rest = c :: cs from hs.symm.trans hc]; rfl)] at hholds
      contradiction
    rw [repEnds, hnone]
    show some s = some ⟨s.before, rest, s.captures⟩
    rw [show rest = s.rest from hs.symm]
  | cons c taken ih =>
    obtain _ | fuel := fuel
    · exact absurd hfuel (Nat.not_lt_zero _)
    have hone : (char holds).ends s = [s.advance [c] (taken ++ rest)] := by
      unfold ends
      rw [hs]
      exact if_pos (htaken c List.mem_cons_self)
    have hgoes : (s.advance [c] (taken ++ rest)).rest.length < s.rest.length := by
      rw [hs]
      exact Nat.lt_succ_self _
    have hnext := ih (fun d hd => htaken d (List.mem_cons_of_mem c hd))
      (show (s.advance [c] (taken ++ rest)).rest = taken ++ rest from rfl)
      (show taken.length < fuel by rw [List.length_cons] at hfuel; omega)
    rw [repEnds, hone]
    simp only [reduceCtorEq, if_false, lt_self_iff_false, decide_false, Bool.false_or,
      List.filter_cons, hgoes, decide_true, if_true, List.filter_nil, List.flatMap_cons,
      List.flatMap_nil, List.append_nil, Option.map_none, List.head?_append, Nat.zero_sub]
    rw [hnext, Option.some_or]
    simp [Pos.advance]

/-- **So does a run of a class**: what stands after it is of another kind. -/
theorem head?_ends_many1 {holds : Char → Bool} {s e : Pos}
    (h : ((many1 (char holds)).ends s).head? = some e) :
    ∃ taken, taken ≠ [] ∧ (∀ c ∈ taken, holds c = true) ∧ s.rest = taken ++ e.rest
      ∧ (∀ c, e.rest.head? = some c → holds c = false) ∧ e = s.advance taken e.rest := by
  obtain ⟨taken, rest, hsplit, htaken, hpos, -, -⟩ :=
    mem_ends_rep_char.mp (List.mem_of_head? h)
  cases hrest : s.rest with
  | nil =>
    rw [List.append_eq_nil_iff.mp (hsplit.symm.trans hrest) |>.1] at hpos
    contradiction
  | cons c cs =>
    have hc : holds c = true := by
      obtain _ | ⟨d, taken⟩ := taken
      · contradiction
      have hhead : c = d := (List.cons.inj (hrest.symm.trans hsplit)).1
      rw [hhead]
      exact htaken d List.mem_cons_self
    have hall : ∀ d ∈ cs.takeWhile holds, holds d = true :=
      fun d hd => List.mem_takeWhile_imp hd
    have hstop : ∀ d, (cs.dropWhile holds).head? = some d → holds d = false := by
      intro d hd
      have hnot := List.head?_dropWhile_not holds cs
      rw [hd] at hnot
      simpa using hnot
    have hone : (char holds).ends s = [s.advance [c] cs] := by
      unfold ends
      rw [hrest]
      exact if_pos hc
    -- the first turn is required, the others take what they can
    have hhead : ((many1 (char holds)).ends s).head?
        = (repEnds (char holds).ends (s.rest.length + 1) 0 none (s.advance [c] cs)).head? := by
      unfold many1
      rw [ends, repEnds, hone]
      simp
    rw [hhead, head?_repEnds_char hall hstop
      (show (s.advance [c] cs).rest = _ from List.takeWhile_append_dropWhile.symm)
      (by
        have hle := (List.takeWhile_sublist holds (l := cs)).length_le
        rw [hrest, List.length_cons]
        omega)] at h
    rw [← Option.some.inj h]
    refine ⟨c :: cs.takeWhile holds, List.cons_ne_nil _ _, ?_, ?_, hstop, ?_⟩
    · exact List.forall_mem_cons.mpr ⟨hc, hall⟩
    · show c :: cs = c :: (cs.takeWhile holds ++ cs.dropWhile holds)
      rw [List.takeWhile_append_dropWhile]
    · simp [Pos.advance]

/-- Every match takes a character. -/
def Consumes (p : Pattern) : Prop :=
  ∀ s, ∀ e ∈ p.ends s, e.rest.length < s.rest.length

/-- No edge occurs in the pattern. -/
def IsLocal : Pattern → Prop
  | char _ => True
  | lazy _ _ => True
  | empty => True
  | seq first second => IsLocal first ∧ IsLocal second
  | alt first second => IsLocal first ∧ IsLocal second
  | rep _ _ body => IsLocal body
  | group _ body => IsLocal body
  | _ => False

/-! ## A longer text -/

/-- The same point, with more text after it. What came before may differ. -/
def Shifts (z : List Char) (s s' : Pos) : Prop :=
  s'.rest = s.rest ++ z ∧ s'.captures = s.captures

/-- The ends that do not reach into what is more. -/
def inside (z : List Char) (ends : List Pos) : List Pos :=
  ends.filter fun e => z.length ≤ e.rest.length

theorem inside_append (l l' : List Pos) : inside z (l ++ l') = inside z l ++ inside z l' :=
  List.filter_append ..

theorem inside_self (h : Shifts z s s') : inside z [s'] = [s'] := by
  unfold inside
  rw [List.filter_eq_self]
  intro e he
  rw [List.mem_singleton.mp he, h.1, List.length_append]
  simp

theorem inside_eq_nil {l : List Pos} (h : ∀ e ∈ l, e.rest.length < z.length) :
    inside z l = [] := by
  refine List.filter_eq_nil_iff.mpr fun e he => ?_
  simpa using h e he

/-- What starts beyond stays beyond. -/
theorem inside_flatMap {l : List Pos} {ends : Pos → List Pos}
    (h : ∀ s, ∀ e ∈ ends s, Advances s e) :
    inside z (l.flatMap ends) = (inside z l).flatMap fun m => inside z (ends m) := by
  induction l with
  | nil => rfl
  | cons m l ih =>
    rw [List.flatMap_cons, inside_append, ih]
    by_cases hm : z.length ≤ m.rest.length
    · have hkeep : inside z (m :: l) = m :: inside z l :=
        List.filter_cons_of_pos (by simpa using hm)
      rw [hkeep, List.flatMap_cons]
    · have hdrop : inside z (m :: l) = inside z l :=
        List.filter_cons_of_neg (by simpa using hm)
      rw [hdrop, inside_eq_nil fun e he => ?_, List.nil_append]
      have hle := (h m e he).length_le
      omega

theorem forall₂_flatMap {l l' : List Pos} {ends ends' : Pos → List Pos}
    (h : List.Forall₂ (Shifts z) l l')
    (hends : ∀ m m', m ∈ l → Shifts z m m' →
      List.Forall₂ (Shifts z) (ends m) (ends' m')) :
    List.Forall₂ (Shifts z) (l.flatMap ends) (l'.flatMap ends') := by
  induction h with
  | nil => exact List.Forall₂.nil
  | @cons m m' l l' hm _ ih =>
    rw [List.flatMap_cons, List.flatMap_cons]
    exact List.rel_append (hends m m' List.mem_cons_self hm)
      (ih fun m m' hmem => hends m m' (List.mem_cons_of_mem _ hmem))

theorem forall₂_classEnds {holds : Char → Bool} (h : Shifts z s s') :
    List.Forall₂ (Shifts z) (classEnds holds s) (inside z (classEnds holds s')) := by
  unfold classEnds
  rw [h.1]
  cases hrest : s.rest with
  | nil =>
    -- a further character would be one of what is more
    rw [inside_eq_nil fun e he => ?_]
    · exact List.Forall₂.nil
    cases hz : z with
    | nil => simp [hz] at he
    | cons c cs =>
      rw [hz] at he
      dsimp only [List.nil_append] at he
      split_ifs at he
      · rw [List.mem_singleton.mp he]
        exact Nat.lt_succ_self _
      · contradiction
  | cons c cs =>
    dsimp only [List.cons_append]
    by_cases hc : holds c = true
    · rw [if_pos hc, if_pos hc]
      have hshift : Shifts z ⟨c :: s.before, cs, s.captures⟩
          ⟨c :: s'.before, cs ++ z, s'.captures⟩ := ⟨rfl, h.2⟩
      rw [inside_self hshift]
      exact List.Forall₂.cons hshift List.Forall₂.nil
    · rw [if_neg hc, if_neg hc]
      exact List.Forall₂.nil

/-- **The ends of a repetition** stay where the ends of a turn do. -/
theorem forall₂_repEnds {ends ends' : Pos → List Pos}
    (hends : ∀ s, ∀ e ∈ ends s, Advances s e) (hends' : ∀ s, ∀ e ∈ ends' s, Advances s e)
    (hturn : ∀ s s', Shifts z s s' →
      List.Forall₂ (Shifts z) (ends s) (inside z (ends' s')))
    {fuel fuel' least : ℕ} {most : Option ℕ} (h : Shifts z s s')
    (hfuel : s.rest.length + least < fuel) (hfuel' : s'.rest.length + least < fuel') :
    List.Forall₂ (Shifts z) (repEnds ends fuel least most s)
      (inside z (repEnds ends' fuel' least most s')) := by
  induction fuel generalizing fuel' least most s s' with
  | zero => exact absurd hfuel (Nat.not_lt_zero _)
  | succ fuel ih =>
    obtain _ | fuel' := fuel'
    · exact absurd hfuel' (Nat.not_lt_zero _)
    have hlength : s'.rest.length = s.rest.length + z.length := by
      rw [h.1, List.length_append]
    rw [repEnds, repEnds, inside_append]
    refine List.rel_append ?_ ?_
    · by_cases hmost : most = some 0
      · rw [if_pos hmost, if_pos hmost]
        exact List.Forall₂.nil
      rw [if_neg hmost, if_neg hmost,
        inside_flatMap (takes_repEnds hends' fuel' _ _), inside, List.filter_comm]
      have hgo : List.Forall₂ (Shifts z)
          ((ends s).filter fun e => 0 < least || e.rest.length < s.rest.length)
          ((inside z (ends' s')).filter fun e =>
            0 < least || e.rest.length < s'.rest.length) := by
        refine List.rel_filter (fun m m' hm => ?_) (hturn s s' h)
        dsimp only
        rw [hm.1, hlength, List.length_append]
        simp
      refine forall₂_flatMap hgo fun m m' hmem hm => ?_
      obtain ⟨hend, hgoes⟩ := List.mem_filter.mp hmem
      have hle := (hends s m hend).length_le
      have hmore : m'.rest.length = m.rest.length + z.length := by
        rw [hm.1, List.length_append]
      have hturns : 0 < least ∨ m.rest.length < s.rest.length := by simpa using hgoes
      exact ih hm (by omega) (by omega)
    · by_cases hleast : least = 0
      · rw [if_pos hleast, if_pos hleast, inside_self h]
        exact List.Forall₂.cons h List.Forall₂.nil
      · rw [if_neg hleast, if_neg hleast]
        exact List.Forall₂.nil

theorem upTo_shift {m m' : Pos} (h : Shifts z s s') (hm : Shifts z m m') :
    s'.upTo m' = s.upTo m := by
  unfold Pos.upTo
  rw [h.1, hm.1, List.length_append, List.length_append, Nat.add_sub_add_right]
  exact List.take_append_of_le_length (Nat.sub_le _ _)

/-- **The matches in a text are those of a longer text that stay inside.** -/
theorem forall₂_ends (hp : p.IsLocal) (h : Shifts z s s') :
    List.Forall₂ (Shifts z) (p.ends s) (inside z (p.ends s')) := by
  induction p generalizing s s' with
  | char holds => exact forall₂_classEnds h
  | empty =>
    show List.Forall₂ _ [s] (inside z [s'])
    rw [inside_self h]
    exact List.Forall₂.cons h List.Forall₂.nil
  | seq first second ih₁ ih₂ =>
    show List.Forall₂ _ ((first.ends s).flatMap second.ends)
      (inside z ((first.ends s').flatMap second.ends))
    rw [inside_flatMap (advances_ends second)]
    exact forall₂_flatMap (ih₁ hp.1 h) fun m m' _ hm => ih₂ hp.2 hm
  | alt first second ih₁ ih₂ =>
    show List.Forall₂ _ (first.ends s ++ second.ends s)
      (inside z (first.ends s' ++ second.ends s'))
    rw [inside_append]
    exact List.rel_append (ih₁ hp.1 h) (ih₂ hp.2 h)
  | rep least most body ih =>
    exact forall₂_repEnds (advances_ends body) (advances_ends body)
      (fun s s' hs => ih hp hs) h (Nat.lt_succ_self _) (Nat.lt_succ_self _)
  | lazy least holds =>
    have hclass : ∀ s, ∀ e ∈ classEnds holds s, Advances s e :=
      fun s e he => takes_classEnds (fun _ _ => trivial) he
    have hends := @forall₂_repEnds s s' z _ _ hclass hclass
      (fun s s' hs => forall₂_classEnds hs) _ _ least none h (Nat.lt_succ_self _)
      (Nat.lt_succ_self _)
    show List.Forall₂ _ (List.reverse _) (inside z (List.reverse _))
    unfold inside at hends ⊢
    rw [List.filter_reverse]
    exact List.rel_reverse hends
  | group index body ih =>
    have hkeep : inside z ((group index body).ends s')
        = (inside z (body.ends s')).map fun e => e.capture index (s'.upTo e) := by
      show ((body.ends s').map fun e => e.capture index (s'.upTo e)).filter _ = _
      rw [List.filter_map]
      rfl
    rw [hkeep]
    show List.Forall₂ _ ((body.ends s).map fun e => e.capture index (s.upTo e)) _
    rw [List.forall₂_map_left_iff, List.forall₂_map_right_iff]
    refine (ih hp h).imp fun m m' hm => ⟨hm.1, ?_⟩
    show (index, s'.upTo m') :: m'.captures = (index, s.upTo m) :: m.captures
    rw [upTo_shift h hm, hm.2]
  | _ => exact hp.elim

/-! ## Scanning -/

section Scan

variable {fuel : ℕ} {before rest cs : List Char} {c : Char}

/-- What a match took, and what it captured. -/
def view (found : Pos × Pos) : List Char × List (ℕ × List Char) :=
  (found.1.upTo found.2, found.2.captures)

theorem matchesFrom_nil (hp : Consumes p) : p.matchesFrom fuel before [] = [] := by
  cases fuel with
  | zero => rfl
  | succ fuel =>
    have hnone : p.ends ⟨before, [], []⟩ = [] :=
      List.eq_nil_iff_forall_not_mem.mpr fun e he => absurd (hp _ e he) (Nat.not_lt_zero _)
    unfold matchesFrom search
    rw [hnone]
    rfl

theorem matchesFrom_of_nil (h : p.ends ⟨before, c :: cs, []⟩ = []) :
    p.matchesFrom (fuel + 1) before (c :: cs)
      = p.matchesFrom (fuel + 1) (c :: before) cs := by
  have hsearch : p.search before (c :: cs) = p.search (c :: before) cs := by
    conv_lhs => unfold search
    rw [h]
    rfl
  unfold matchesFrom
  rw [hsearch]

theorem matchesFrom_of_head (hp : Consumes p)
    (h : (p.ends ⟨before, rest, []⟩).head? = some e) :
    p.matchesFrom (fuel + 1) before rest
      = (⟨before, rest, []⟩, e) :: p.matchesFrom fuel e.before e.rest := by
  have hlt : e.rest.length < rest.length := hp _ e (List.mem_of_head? h)
  have hsearch : p.search before rest = some (⟨before, rest, []⟩, e) := by
    cases rest with
    | nil => rw [search, h, Option.map_some]
    | cons c cs => rw [search, h]
  conv_lhs => unfold matchesFrom
  rw [hsearch]
  dsimp only
  rw [if_pos hlt]

/-- **The rule for a scan**: what holds of the empty text, of a text one character
longer where no match starts, and of a text that starts with a match, holds of every
text and what is found in it. -/
theorem matchesFrom_rec (hp : Consumes p) {motive : List Char → List (Pos × Pos) → Prop}
    (nil : motive [] [])
    (skip : ∀ before c cs found, p.ends ⟨before, c :: cs, []⟩ = [] → motive cs found →
      motive (c :: cs) found)
    (take : ∀ before rest e found, (p.ends ⟨before, rest, []⟩).head? = some e →
      motive e.rest found → motive rest ((⟨before, rest, []⟩, e) :: found))
    (hfuel : rest.length < fuel) : motive rest (p.matchesFrom fuel before rest) := by
  induction hlength : rest.length using Nat.strong_induction_on generalizing rest fuel before with
  | _ n ih =>
    obtain _ | fuel := fuel
    · exact absurd hfuel (Nat.not_lt_zero _)
    cases hhead : (p.ends ⟨before, rest, []⟩).head? with
    | some e =>
      have hlt : e.rest.length < rest.length := hp _ e (List.mem_of_head? hhead)
      rw [matchesFrom_of_head hp hhead]
      exact take before rest e _ hhead (ih _ (hlength ▸ hlt) (by omega) rfl)
    | none =>
      have hnil := List.head?_eq_none_iff.mp hhead
      cases rest with
      | nil =>
        rw [matchesFrom_nil hp]
        exact nil
      | cons c cs =>
        rw [matchesFrom_of_nil hnil]
        rw [List.length_cons] at hlength hfuel
        exact skip before c cs _ hnil (ih cs.length (by omega) (by omega) rfl)

theorem mem_search {found : Pos × Pos} (h : p.search before rest = some found) :
    found.2 ∈ p.ends found.1 ∧ found.1.captures = []
      ∧ found.1.before.reverse ++ found.1.rest = before.reverse ++ rest
      ∧ found.1.rest.length ≤ rest.length := by
  induction rest generalizing before with
  | nil =>
    rw [search] at h
    obtain ⟨e, he, rfl⟩ := Option.map_eq_some_iff.mp h
    exact ⟨List.mem_of_head? he, rfl, rfl, le_rfl⟩
  | cons c cs ih =>
    rw [search] at h
    cases hhead : (p.ends ⟨before, c :: cs, []⟩).head? with
    | some e =>
      rw [hhead] at h
      rw [← Option.some.inj h]
      exact ⟨List.mem_of_head? hhead, rfl, rfl, le_rfl⟩
    | none =>
      rw [hhead] at h
      obtain ⟨hmem, hcaptures, htext, hle⟩ := ih h
      exact ⟨hmem, hcaptures, htext.trans (by simp), Nat.le_succ_of_le hle⟩

/-- A match starts with no captures. -/
theorem mem_matchesFrom {found : Pos × Pos} (h : found ∈ p.matchesFrom fuel before rest) :
    found.2 ∈ p.ends found.1 ∧ found.1.captures = [] := by
  induction fuel generalizing before rest with
  | zero => contradiction
  | succ fuel ih =>
    rw [matchesFrom] at h
    cases hsearch : p.search before rest with
    | none =>
      rw [hsearch] at h
      contradiction
    | some first =>
      rw [hsearch] at h
      obtain rfl | h := List.mem_cons.mp h
      · exact ⟨(mem_search hsearch).1, (mem_search hsearch).2.1⟩
      · split_ifs at h
        · exact ih h
        · split at h
          · contradiction
          · exact ih h

/-- The first of the ends, seen from a point with more text. -/
theorem head?_ends_shift (hp : p.IsLocal) (h : Shifts z s s')
    (he : (p.ends s').head? = some e) (hin : z.length ≤ e.rest.length) :
    ∃ m, (p.ends s).head? = some m ∧ Shifts z m e := by
  have hforall := forall₂_ends hp h
  obtain ⟨others, hends⟩ := List.head?_eq_some_iff.mp he
  have hinside : inside z (p.ends s') = e :: inside z others := by
    rw [hends]
    exact List.filter_cons_of_pos (by simpa using hin)
  rw [hinside] at hforall
  obtain ⟨m, rest, hm, -, heq⟩ := List.forall₂_cons_right_iff.mp hforall
  exact ⟨m, by rw [heq]; rfl, hm⟩

/-- No match reaches into what starts with a character that none takes. -/
theorem inside_ends (hc : p.TakesOnly (· ≠ c)) (cs x before : List Char) :
    inside (c :: cs) (p.ends ⟨before, x ++ c :: cs, []⟩)
      = p.ends ⟨before, x ++ c :: cs, []⟩ := by
  refine List.filter_eq_self.mpr fun e he => ?_
  obtain ⟨taken, hrest, -, hok⟩ := takes_ends hc _ e he
  rw [decide_eq_true_iff]
  by_contra hlt
  -- what is taken would pass the character
  have hlength := congrArg List.length (show x ++ c :: cs = taken ++ e.rest from hrest)
  rw [List.length_append, List.length_append] at hlength
  have hmem : c ∈ taken := by
    have hget : (taken ++ e.rest)[x.length]? = some c := by
      rw [← show x ++ c :: cs = taken ++ e.rest from hrest]
      simp
    rw [List.getElem?_append_left (by omega)] at hget
    exact List.mem_of_getElem? hget
  exact hok c hmem rfl

theorem head?_ends_inside (hp : p.IsLocal) (hc : p.TakesOnly (· ≠ c))
    (h : Shifts (c :: cs) s ⟨before, rest, []⟩) {m : Pos}
    (hm : (p.ends s).head? = some m) :
    ∃ e, (p.ends ⟨before, rest, []⟩).head? = some e ∧ Shifts (c :: cs) m e := by
  have hforall := forall₂_ends hp h
  rw [show rest = s.rest ++ c :: cs from h.1, inside_ends hc] at hforall
  obtain ⟨others, hends⟩ := List.head?_eq_some_iff.mp hm
  rw [hends] at hforall
  obtain ⟨e, rest', hshift, -, heq⟩ := List.forall₂_cons_left_iff.mp hforall
  refine ⟨e, ?_, hshift⟩
  rw [show rest = s.rest ++ c :: cs from h.1, heq]
  rfl

end Scan

section Whole

variable {before x y : List Char} {c : Char}

theorem view_shift {m m' : Pos} (h : Shifts z s s') (hm : Shifts z m m') :
    view (s', m') = view (s, m) :=
  Prod.ext (upTo_shift h hm) hm.2

/-- **What a scan finds depends on the text alone.** -/
theorem map_view_congr (hp : p.IsLocal) (hconsumes : Consumes p) (rest : List Char) :
    ∀ (fuel fuel' : ℕ) (before before' : List Char), rest.length < fuel →
      rest.length < fuel' → (p.matchesFrom fuel before rest).map view
        = (p.matchesFrom fuel' before' rest).map view := by
  induction hlength : rest.length using Nat.strong_induction_on generalizing rest with
  | _ n ih =>
    intro fuel fuel' before before' hfuel hfuel'
    obtain _ | fuel := fuel
    · exact absurd hfuel (Nat.not_lt_zero _)
    obtain _ | fuel' := fuel'
    · exact absurd hfuel' (Nat.not_lt_zero _)
    have hshift : Shifts [] ⟨before', rest, []⟩ ⟨before, rest, []⟩ := ⟨by simp, rfl⟩
    cases hhead : (p.ends ⟨before, rest, []⟩).head? with
    | some e =>
      obtain ⟨m, hm, hshift'⟩ := head?_ends_shift hp hshift hhead (Nat.zero_le _)
      have hrest : e.rest = m.rest := by rw [hshift'.1, List.append_nil]
      have hlt := hconsumes _ e (List.mem_of_head? hhead)
      rw [matchesFrom_of_head hconsumes hhead, matchesFrom_of_head hconsumes hm,
        List.map_cons, List.map_cons, view_shift hshift hshift', hrest]
      have hshorter : m.rest.length < rest.length := hrest ▸ hlt
      rw [ih m.rest.length (hlength ▸ hshorter) m.rest rfl fuel fuel' e.before m.before
        (by omega) (by omega)]
    | none =>
      have hnil := List.head?_eq_none_iff.mp hhead
      have hforall := forall₂_ends hp hshift
      rw [hnil] at hforall
      have hnil' := List.forall₂_nil_right_iff.mp hforall
      cases rest with
      | nil => rw [matchesFrom_nil hconsumes, matchesFrom_nil hconsumes]
      | cons c cs =>
        rw [matchesFrom_of_nil hnil, matchesFrom_of_nil hnil']
        rw [List.length_cons] at hlength
        exact ih cs.length (by omega) cs rfl _ _ _ _ (by omega) (by omega)

/-- What a scan of a text finds. -/
def scan (p : Pattern) (text : List Char) : List (List Char × List (ℕ × List Char)) :=
  (p.matchesFrom (text.length + 1) [] text).map view

theorem map_view_matchAll (text : String) : (p.matchAll text).map view = p.scan text.toList := by
  unfold matchAll scan
  rw [String.length_toList]

theorem scan_of_nil (hp : p.IsLocal) (hconsumes : Consumes p) {c : Char} {cs : List Char}
    (h : p.ends ⟨[], c :: cs, []⟩ = []) : p.scan (c :: cs) = p.scan cs := by
  unfold scan
  rw [matchesFrom_of_nil h]
  exact map_view_congr hp hconsumes cs _ _ _ _ (Nat.lt_succ_of_lt (Nat.lt_succ_self _))
    (Nat.lt_succ_self _)

theorem scan_of_head (hp : p.IsLocal) (hconsumes : Consumes p) {text : List Char} {e : Pos}
    (h : (p.ends ⟨[], text, []⟩).head? = some e) :
    p.scan text = view (⟨[], text, []⟩, e) :: p.scan e.rest := by
  have hlt := hconsumes _ e (List.mem_of_head? h)
  unfold scan
  rw [matchesFrom_of_head hconsumes h, List.map_cons,
    map_view_congr hp hconsumes e.rest _ _ _ [] hlt (Nat.lt_succ_self _)]

theorem scan_nil (hconsumes : Consumes p) : p.scan [] = [] := by
  unfold scan
  rw [matchesFrom_nil hconsumes]
  rfl

/-- **A character that no match takes separates** what is found before it from what is
found after it. -/
theorem scan_append_cons (hp : p.IsLocal) (hconsumes : Consumes p)
    (hc : p.TakesOnly (· ≠ c)) (x y : List Char) :
    p.scan (x ++ c :: y) = p.scan x ++ p.scan y := by
  induction hlength : x.length using Nat.strong_induction_on generalizing x with
  | _ n ih =>
    have hshift : Shifts (c :: y) ⟨[], x, []⟩ ⟨[], x ++ c :: y, []⟩ := ⟨rfl, rfl⟩
    cases hhead : (p.ends ⟨[], x, []⟩).head? with
    | some m =>
      obtain ⟨e, he, hshift'⟩ := head?_ends_inside hp hc hshift hhead
      have hlt : m.rest.length < x.length := hconsumes _ m (List.mem_of_head? hhead)
      rw [scan_of_head hp hconsumes he, scan_of_head hp hconsumes hhead,
        view_shift hshift hshift', hshift'.1, ih _ (hlength ▸ hlt) m.rest rfl,
        List.cons_append]
    | none =>
      have hnil := forall₂_ends hp hshift
      rw [List.head?_eq_none_iff.mp hhead, inside_ends hc] at hnil
      have hnone := List.forall₂_nil_left_iff.mp hnil
      cases x with
      | nil =>
        rw [List.nil_append] at hnone ⊢
        rw [scan_of_nil hp hconsumes hnone, scan_nil hconsumes, List.nil_append]
      | cons d x =>
        rw [List.cons_append] at hnone ⊢
        rw [scan_of_nil hp hconsumes hnone,
          scan_of_nil hp hconsumes (List.head?_eq_none_iff.mp hhead)]
        rw [List.length_cons] at hlength
        exact ih x.length (by omega) x rfl

/-- **A match separates** what is found before it from what is found from it on. -/
theorem scan_of_match (hp : p.IsLocal) (hconsumes : Consumes p)
    {later : List (Pos × Pos)} (rest : List Char) :
    ∀ (fuel : ℕ) (before : List Char) (first : List (Pos × Pos)), rest.length < fuel →
      p.matchesFrom fuel before rest = first ++ (s, e) :: later →
      ∃ x, rest = x ++ s.rest ∧ p.scan rest = p.scan x ++ p.scan s.rest := by
  induction hlength : rest.length using Nat.strong_induction_on generalizing rest with
  | _ n ih =>
    intro fuel before first hfuel hfound
    obtain _ | fuel := fuel
    · exact absurd hfuel (Nat.not_lt_zero _)
    have hshift : Shifts [] ⟨[], rest, []⟩ ⟨before, rest, []⟩ := ⟨by simp, rfl⟩
    cases hhead : (p.ends ⟨before, rest, []⟩).head? with
    | some m =>
      rw [matchesFrom_of_head hconsumes hhead] at hfound
      cases first with
      | nil =>
        rw [List.nil_append] at hfound
        have hs : s = ⟨before, rest, []⟩ := (Prod.mk.inj (List.cons.inj hfound).1).1.symm
        rw [hs]
        exact ⟨[], rfl, by rw [scan_nil hconsumes, List.nil_append]⟩
      | cons f first =>
        rw [List.cons_append] at hfound
        obtain ⟨-, hfound⟩ := List.cons.inj hfound
        have hlt : m.rest.length < rest.length := hconsumes _ m (List.mem_of_head? hhead)
        obtain ⟨x, hx, hscan⟩ := ih m.rest.length (hlength ▸ hlt) m.rest rfl fuel m.before
          first (by omega) hfound
        obtain ⟨taken, hrest, -⟩ := advances_ends p _ m (List.mem_of_head? hhead)
        have hrest : rest = taken ++ m.rest := hrest
        obtain ⟨m', hhead', hshift'⟩ := head?_ends_shift hp hshift hhead (Nat.zero_le _)
        have hmrest : m'.rest = m.rest := by rw [hshift'.1, List.append_nil]
        -- the same match in the text that ends where the later one starts
        have htext : Shifts s.rest ⟨[], taken ++ x, []⟩ ⟨[], rest, []⟩ :=
          ⟨by rw [hrest, hx, List.append_assoc], rfl⟩
        obtain ⟨m'', hhead'', hshift''⟩ := head?_ends_shift hp htext hhead'
          (by rw [hmrest, hx, List.length_append]; exact Nat.le_add_left _ _)
        have hend : m''.rest = x :=
          List.append_cancel_right (hshift''.1.symm.trans (hmrest.trans hx))
        refine ⟨taken ++ x, htext.1, ?_⟩
        rw [scan_of_head hp hconsumes hhead', scan_of_head hp hconsumes hhead'', hmrest,
          hend, hscan, view_shift htext hshift'', List.cons_append]
    | none =>
      have hnil := List.head?_eq_none_iff.mp hhead
      cases rest with
      | nil =>
        rw [matchesFrom_nil hconsumes] at hfound
        simp at hfound
      | cons c cs =>
        rw [matchesFrom_of_nil hnil] at hfound
        rw [List.length_cons] at hlength
        obtain ⟨x, hx, hscan⟩ :=
          ih cs.length (by omega) cs rfl (fuel + 1) (c :: before) first (by omega) hfound
        have hlong := forall₂_ends hp hshift
        rw [hnil] at hlong
        have hnone := List.forall₂_nil_right_iff.mp hlong
        have hshort := forall₂_ends hp (show Shifts s.rest ⟨[], c :: x, []⟩
          ⟨[], c :: cs, []⟩ from ⟨by rw [hx]; rfl, rfl⟩)
        rw [hnone] at hshort
        refine ⟨c :: x, by rw [hx]; rfl, ?_⟩
        rw [scan_of_nil hp hconsumes hnone,
          scan_of_nil hp hconsumes (List.forall₂_nil_right_iff.mp hshort), hscan]

end Whole

end Pattern
