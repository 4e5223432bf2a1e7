import Opifex.Lib.Text

/-!
# Regular expressions by backtracking

A pattern is matched the way the language defines it: a matcher lists, in
order of preference, the positions a match may end at, and the first one that
the rest of the pattern accepts wins. `ends` is that list; a greedy repetition
prefers one more turn over stopping, and a turn that consumes nothing ends it.

Over it stand the operations of a global pattern: `matchAll`, and `splitBy`,
which keeps what the separator captured.
-/

/-- A regular expression. It is matched by backtracking, so the order of the
alternatives and the greed of a repetition are part of what it means. -/
inductive Pattern where
  /-- One character of a class. -/
  | char (holds : Char → Bool)
  /-- `^` and `$` of a multiline pattern. -/
  | lineStart
  | lineEnd
  /-- `^` and `$` of the whole text. -/
  | textStart
  | textEnd
  /-- `\b`. -/
  | wordEdge
  /-- Not right after a character of a class. -/
  | notAfter (holds : Char → Bool)
  | empty
  | seq (first second : Pattern)
  | alt (first second : Pattern)
  /-- Between `least` and `most` turns, as many as possible. -/
  | rep (least : ℕ) (most : Option ℕ) (body : Pattern)
  /-- A class, as few times as possible but at least `least`. -/
  | lazy (least : ℕ) (holds : Char → Bool)
  /-- A capturing group. -/
  | group (index : ℕ) (body : Pattern)

namespace Pattern

/-- A point in the text, what came before it (nearest first), and what the
groups have captured. -/
structure Pos where
  before : List Char
  rest : List Char
  captures : List (ℕ × List Char)

/-- The start of a text. -/
def Pos.start (text : String) : Pos := ⟨[], text.toList, []⟩

/-- What lies between this point and a later one. -/
def Pos.upTo (s e : Pos) : List Char :=
  s.rest.take (s.rest.length - e.rest.length)

/-- The text a group captured, empty if it took no part. -/
def Pos.captured (s : Pos) (index : ℕ) : String :=
  String.ofList ((s.captures.lookup index).getD [])

/-- The ends of a repetition, most turns first. `fuel` bounds the turns; the
length of the rest and the required turns are always enough. -/
def repEnds (ends : Pos → List Pos) :
    (fuel least : ℕ) → (most : Option ℕ) → Pos → List Pos
  | 0, least, _, s => if least = 0 then [s] else []
  | fuel + 1, least, most, s =>
    (if most = some 0 then []
      else
        ((ends s).filter fun e =>
          0 < least || e.rest.length < s.rest.length).flatMap
          (repEnds ends fuel (least - 1) (most.map (· - 1)))) ++
      if least = 0 then [s] else []

/-- The ends of one character of a class. -/
def classEnds (holds : Char → Bool) (s : Pos) : List Pos :=
  match s.rest with
  | [] => []
  | c :: cs => if holds c then [⟨c :: s.before, cs, s.captures⟩] else []

/-- The positions a match from here may end at, in order of preference. -/
def ends : Pattern → Pos → List Pos
  | char holds, s =>
    match s.rest with
    | [] => []
    | c :: cs => if holds c then [⟨c :: s.before, cs, s.captures⟩] else []
  | lineStart, s =>
    if s.before.head?.all Text.isLineEnd then [s] else []
  | lineEnd, s => if s.rest.head?.all Text.isLineEnd then [s] else []
  | textStart, s => if s.before.isEmpty then [s] else []
  | textEnd, s => if s.rest.isEmpty then [s] else []
  | wordEdge, s =>
    if s.before.head?.any Text.isWord != s.rest.head?.any Text.isWord then [s]
    else []
  | notAfter holds, s => if s.before.head?.any holds then [] else [s]
  | empty, s => [s]
  | seq first second, s => (ends first s).flatMap (ends second)
  | alt first second, s => ends first s ++ ends second s
  | rep least most body, s =>
    repEnds (ends body) (s.rest.length + least + 1) least most s
  | lazy least holds, s =>
    -- the ends of the greedy repetition, the other way round
    (repEnds (classEnds holds) (s.rest.length + least + 1) least none s).reverse
  | group index body, s =>
    (ends body s).map fun e =>
      { e with captures := (index, s.upTo e) :: e.captures }

/-- The leftmost match from here on: where it starts and where it ends. -/
def search (p : Pattern) : (before rest : List Char) → Option (Pos × Pos)
  | before, [] =>
    (p.ends ⟨before, [], []⟩).head?.map fun e => (⟨before, [], []⟩, e)
  | before, c :: cs =>
    match (p.ends ⟨before, c :: cs, []⟩).head? with
    | some e => some (⟨before, c :: cs, []⟩, e)
    | none => search p (c :: before) cs

/-- Successive matches; one that is empty moves the search on by a
character. -/
def matchesFrom (p : Pattern) :
    (fuel : ℕ) → (before rest : List Char) → List (Pos × Pos)
  | 0, _, _ => []
  | fuel + 1, before, rest =>
    match p.search before rest with
    | none => []
    | some (s, e) =>
      (s, e) ::
        if e.rest.length < s.rest.length then
          matchesFrom p fuel e.before e.rest
        else
          match e.rest with
          | [] => []
          | c :: cs => matchesFrom p fuel (c :: e.before) cs

/-- `text.matchAll(pattern)`. -/
def matchAll (p : Pattern) (text : String) : List (Pos × Pos) :=
  p.matchesFrom (text.length + 1) [] text.toList

/-- `pattern.test(text)`. -/
def test (p : Pattern) (text : String) : Bool :=
  (p.search [] text.toList).isSome

/-- What follows each match, up to the next one, with what it captured. -/
def pieces : List (Pos × Pos) → List (String × String)
  | [] => []
  | [(_, e)] => [(e.captured 1, String.ofList e.rest)]
  | (_, e) :: (s', e') :: rest =>
    (e.captured 1, String.ofList (e.upTo s')) :: pieces ((s', e') :: rest)

/-- `text.split(pattern)` by a separator with one group that never matches the
empty text: the pairs of capture and text that follow the preamble. -/
def splitBy (p : Pattern) (text : String) : List (String × String) :=
  pieces (p.matchAll text)

/-! ## Writing patterns -/

/-- Patterns one after another. -/
def all : List Pattern → Pattern
  | [] => empty
  | [p] => p
  | p :: ps => seq p (all ps)

/-- A literal text. -/
def text (s : String) : Pattern :=
  all (s.toList.map fun c => char (· == c))

/-- `p*`. -/
def many (p : Pattern) : Pattern := rep 0 none p

/-- `p+`. -/
def many1 (p : Pattern) : Pattern := rep 1 none p

/-- `p?`. -/
def optional (p : Pattern) : Pattern := rep 0 (some 1) p

/-- `\s`. -/
def space : Pattern := char Text.isSpace

/-- `.`. -/
def dot : Pattern := char fun c => !Text.isLineEnd c

/-- One of the characters of a text. -/
def oneOf (s : String) : Pattern := char fun c => s.toList.contains c

/-- A character that is none of a text's. -/
def noneOf (s : String) : Pattern := char fun c => !s.toList.contains c

/-! ## What a pattern matches -/

section Membership

variable {s e : Pos} {holds : Char → Bool} {first second body : Pattern}

/-- The point after some characters, with the rest of the text. -/
def Pos.advance (s : Pos) (taken rest : List Char) : Pos :=
  ⟨taken.reverse ++ s.before, rest, s.captures⟩

/-- The point with one capture more. -/
def Pos.capture (s : Pos) (index : ℕ) (captured : List Char) : Pos :=
  { s with captures := (index, captured) :: s.captures }

@[simp] theorem rest_advance (taken rest : List Char) :
    (s.advance taken rest).rest = rest := rfl

@[simp] theorem rest_capture (index : ℕ) (captured : List Char) :
    (s.capture index captured).rest = s.rest := rfl

theorem mem_ends_seq :
    e ∈ (seq first second).ends s ↔
      ∃ m ∈ first.ends s, e ∈ second.ends m :=
  List.mem_flatMap

theorem mem_ends_group {index : ℕ} :
    e ∈ (group index body).ends s ↔
      ∃ m ∈ body.ends s, e = m.capture index (s.upTo m) :=
  List.mem_map.trans (exists_congr fun _ => and_congr_right fun _ => eq_comm)

theorem mem_ends_textStart :
    e ∈ textStart.ends s ↔ s.before = [] ∧ e = s := by
  show e ∈ (if s.before.isEmpty then [s] else []) ↔ _
  split_ifs with h
  · simp [List.isEmpty_iff.mp h]
  · have hne : s.before ≠ [] := fun hnil => h (List.isEmpty_iff.mpr hnil)
    simp [hne]

theorem mem_ends_textEnd :
    e ∈ textEnd.ends s ↔ s.rest = [] ∧ e = s := by
  show e ∈ (if s.rest.isEmpty then [s] else []) ↔ _
  split_ifs with h
  · simp [List.isEmpty_iff.mp h]
  · have hne : s.rest ≠ [] := fun hnil => h (List.isEmpty_iff.mpr hnil)
    simp [hne]

theorem mem_ends_char :
    e ∈ (char holds).ends s ↔
      ∃ c rest, s.rest = c :: rest ∧ holds c ∧ e = s.advance [c] rest := by
  show e ∈ classEnds holds s ↔ _
  unfold classEnds
  cases hrest : s.rest with
  | nil => simp
  | cons c rest =>
    by_cases h : holds c
    · simp [h, Pos.advance]
    · simp [h]

/-- What lies between a point and one some characters later. -/
theorem upTo_advance {taken rest : List Char} (h : s.rest = taken ++ rest) :
    s.upTo (s.advance taken rest) = taken := by
  rw [Pos.upTo, h]
  show (taken ++ rest).take ((taken ++ rest).length - rest.length) = taken
  rw [List.length_append, Nat.add_sub_cancel, List.take_left']
  rfl

/-- **A literal text is matched by itself.** -/
theorem mem_ends_text {literal : String} :
    e ∈ (text literal).ends s ↔
      ∃ rest, s.rest = literal.toList ++ rest ∧
        e = s.advance literal.toList rest := by
  unfold text
  generalize literal.toList = cs
  induction cs generalizing s with
  | nil =>
    show e ∈ [s] ↔ _
    simp [Pos.advance]
  | cons c cs ih =>
    have hcons : ∀ s : Pos, e ∈ (all ((c :: cs).map
        fun c => char (· == c))).ends s ↔
        ∃ m ∈ (char (· == c)).ends s,
          e ∈ (all (cs.map fun c => char (· == c))).ends m := by
      intro s
      cases cs with
      | nil =>
        show e ∈ (char (· == c)).ends s ↔
          ∃ m ∈ (char (· == c)).ends s, e ∈ [m]
        simp
      | cons d cs => exact mem_ends_seq
    rw [hcons]
    simp only [mem_ends_char, beq_iff_eq]
    constructor
    · rintro ⟨_, ⟨_, rest, hrest, rfl, rfl⟩, hm⟩
      obtain ⟨rest', hrest', rfl⟩ := ih.mp hm
      have hsame : rest = cs ++ rest' := hrest'
      exact ⟨rest', by rw [hrest, hsame]; rfl, by simp [Pos.advance]⟩
    · rintro ⟨rest, hrest, rfl⟩
      refine ⟨_, ⟨c, cs ++ rest, hrest, rfl, rfl⟩, ih.mpr ⟨rest, rfl, ?_⟩⟩
      simp [Pos.advance]

/-- **A repeated class matches the characters of the class**, as many as the
bounds allow. -/
theorem mem_repEnds_char {fuel least : ℕ} {most : Option ℕ}
    (hfuel : s.rest.length + least < fuel) :
    e ∈ repEnds (char holds).ends fuel least most s ↔
      ∃ taken rest, s.rest = taken ++ rest ∧ (∀ c ∈ taken, holds c) ∧
        least ≤ taken.length ∧ (∀ bound, most = some bound →
          taken.length ≤ bound) ∧ e = s.advance taken rest := by
  induction fuel generalizing s least most with
  | zero => exact absurd hfuel (Nat.not_lt_zero _)
  | succ fuel ih =>
    have hstop : e ∈ (if least = 0 then [s] else []) ↔ least = 0 ∧ e = s := by
      split_ifs with h <;> simp [h]
    have hturn : ∀ m : Pos, m ∈ (char holds).ends s →
        m.rest.length < s.rest.length := by
      intro m hm
      obtain ⟨c, rest, hrest, -, rfl⟩ := mem_ends_char.mp hm
      rw [hrest]
      exact Nat.lt_succ_self _
    have hmore : e ∈ (if most = some 0 then []
        else ((char holds).ends s).filter (fun e =>
            0 < least || e.rest.length < s.rest.length) |>.flatMap
          (repEnds (char holds).ends fuel (least - 1)
            (most.map (· - 1)))) ↔
        most ≠ some 0 ∧ ∃ m ∈ (char holds).ends s,
          e ∈ repEnds (char holds).ends fuel (least - 1)
            (most.map (· - 1)) m := by
      split_ifs with h
      · simp [h]
      · rw [List.mem_flatMap]
        simp only [List.mem_filter, h, ne_eq, not_false_eq_true, true_and]
        refine exists_congr fun m => and_congr_left fun _ => ?_
        refine ⟨fun hm => hm.1, fun hm => ⟨hm, ?_⟩⟩
        simp [hturn m hm]
    rw [repEnds, List.mem_append, hstop, hmore]
    constructor
    · rintro (⟨hmost, m, hm, he⟩ | ⟨hleast, rfl⟩)
      · obtain ⟨c, rest, hrest, hc, rfl⟩ := mem_ends_char.mp hm
        rw [hrest, List.length_cons] at hfuel
        obtain ⟨taken, rest', hrest', hall, hlow, hhigh, rfl⟩ :=
          (ih (show rest.length + (least - 1) < fuel by omega)).mp he
        have hsame : rest = taken ++ rest' := hrest'
        refine ⟨c :: taken, rest', by rw [hrest, hsame]; rfl, ?_, ?_, ?_, ?_⟩
        · exact List.forall_mem_cons.mpr ⟨hc, hall⟩
        · rw [List.length_cons]
          omega
        · rintro bound rfl
          have hpos : bound ≠ 0 := fun h => hmost (by rw [h])
          have hbound := hhigh (bound - 1) rfl
          rw [List.length_cons]
          omega
        · simp [Pos.advance]
      · exact ⟨[], e.rest, rfl, by simp, by simp [hleast], by simp, rfl⟩
    · rintro ⟨taken, rest, hrest, hall, hlow, hhigh, rfl⟩
      cases taken with
      | nil =>
        refine .inr ⟨Nat.le_zero.mp hlow, ?_⟩
        have hsame : s.rest = rest := hrest
        rw [← hsame]
        rfl
      | cons c taken =>
        have hcons : s.rest = c :: (taken ++ rest) := hrest
        rw [hcons, List.length_cons] at hfuel
        obtain ⟨hc, hall⟩ := List.forall_mem_cons.mp hall
        rw [List.length_cons] at hlow
        refine .inl ⟨?_, s.advance [c] (taken ++ rest),
          mem_ends_char.mpr ⟨c, _, hcons, hc, rfl⟩, ?_⟩
        · rintro rfl
          exact absurd (hhigh 0 rfl) (by simp)
        · refine (ih (show (taken ++ rest).length + (least - 1) < fuel by
            omega)).mpr ⟨taken, rest, rfl, hall, by omega, ?_, ?_⟩
          · intro bound hbound
            obtain ⟨most', rfl, rfl⟩ := Option.map_eq_some_iff.mp hbound
            have := hhigh most' rfl
            rw [List.length_cons] at this
            omega
          · simp [Pos.advance]

theorem mem_ends_rep_char {least : ℕ} {most : Option ℕ} :
    e ∈ (rep least most (char holds)).ends s ↔
      ∃ taken rest, s.rest = taken ++ rest ∧ (∀ c ∈ taken, holds c) ∧
        least ≤ taken.length ∧ (∀ bound, most = some bound →
          taken.length ≤ bound) ∧ e = s.advance taken rest :=
  mem_repEnds_char (by omega)

/-- A group that repeats a class captures the characters it matched. -/
theorem mem_ends_group_rep {index least : ℕ} {most : Option ℕ} :
    e ∈ (group index (rep least most (char holds))).ends s ↔
      ∃ taken rest, s.rest = taken ++ rest ∧ (∀ c ∈ taken, holds c) ∧
        least ≤ taken.length ∧ (∀ bound, most = some bound →
          taken.length ≤ bound) ∧
        e = (s.advance taken rest).capture index taken := by
  rw [mem_ends_group]
  constructor
  · rintro ⟨m, hm, rfl⟩
    obtain ⟨taken, rest, hrest, hall, hlow, hhigh, rfl⟩ :=
      mem_ends_rep_char.mp hm
    exact ⟨taken, rest, hrest, hall, hlow, hhigh, by
      rw [upTo_advance hrest]⟩
  · rintro ⟨taken, rest, hrest, hall, hlow, hhigh, rfl⟩
    exact ⟨_, mem_ends_rep_char.mpr ⟨taken, rest, hrest, hall, hlow, hhigh,
      rfl⟩, by rw [upTo_advance hrest]⟩

end Membership

/-- **Where a pattern can end in one way only, that is its match.** -/
theorem search_eq_of_unique {p : Pattern} {rest : List Char} {e : Pos}
    (hmem : e ∈ p.ends ⟨[], rest, []⟩)
    (hunique : ∀ e' ∈ p.ends ⟨[], rest, []⟩, e' = e) :
    p.search [] rest = some (⟨[], rest, []⟩, e) := by
  have hhead : (p.ends ⟨[], rest, []⟩).head? = some e := by
    cases hends : p.ends ⟨[], rest, []⟩ with
    | nil => simp [hends] at hmem
    | cons first others =>
      rw [hunique first (by simp [hends])]
      rfl
  cases rest with
  | nil => rw [search, hhead, Option.map_some]
  | cons c rest => rw [search, hhead]

end Pattern
