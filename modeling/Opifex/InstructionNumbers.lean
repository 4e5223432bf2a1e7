import Mathlib.Data.List.Find
import Opifex.Lib.Distinct
import Opifex.Lib.Interleaving
import Opifex.Lib.Scanning
import Opifex.SteeringInstruction

/-!
# The numbers of an instruction

A sentence is read in one pass over its tokens. Each number in it becomes a target
or is ignored: a `#12` is always a target, and a bare number is one exactly when no
prose word stands between it and the nearest word that introduces a list, or
reference. So the numbers are accounted for one by one (`accountsForNumbers`), and
of the targets the first of each is returned.

The tokens miss nothing: every run of digits of the text is taken whole by one of them,
and the numbers of the references are those that follow a `#` (`numbers_tokensOf`).

The pattern of a token is shared by all calls, with the point its next search starts
from. Each call resets that point first (`parseAll_eq_map`).
-/

namespace Opifex

open Pattern

/-! ## The shared pattern -/

/-- The module's token pattern, which remembers where its next search starts. It is one
object for all calls, so what one leaves behind the next would start from. -/
structure TokenRegex where
  lastIndex : ℕ

/-- `TOKEN.exec(text)`. What finds nothing starts over the next time. -/
def execToken (text : List Char) (regex : TokenRegex) :
    Option (Pos × Pos) × TokenRegex :=
  match tokenPattern.search (text.take regex.lastIndex).reverse
      (text.drop regex.lastIndex) with
  | none => (none, ⟨0⟩)
  | some found => (some found, ⟨text.length - found.2.rest.length⟩)

/-- The loop over the matches, with fuel for each character. -/
def execAll (text : List Char) : (fuel : ℕ) → TokenRegex →
    List (Pos × Pos) × TokenRegex
  | 0, regex => ([], regex)
  | fuel + 1, regex =>
    match execToken text regex with
    | (none, regex) => ([], regex)
    | (some found, regex) =>
      (found :: (execAll text fuel regex).1, (execAll text fuel regex).2)

/-- One call of the parser. -/
def parseCall (regex : TokenRegex) (instruction : String) :
    ParsedInstruction × TokenRegex :=
  let text := Text.toLowerCase instruction
  let regex := { regex with lastIndex := 0 }
  let (found, regex) := execAll text.toList (text.toList.length + 1) regex
  (conclude ((found.map fun found => tokenOf found.1 found.2).foldl readToken {})
    (elsePhrases.any fun pattern => pattern.test text), regex)

/-- Calls one after another. -/
def parseAll : TokenRegex → List String → List ParsedInstruction
  | _, [] => []
  | regex, instruction :: later =>
    (parseCall regex instruction).1 :: parseAll (parseCall regex instruction).2 later

/-! ## What a number is read as -/

/-- A number as a token spells it: with the repository it is qualified by, if there is
one, and with its text. -/
structure NumberToken where
  owner : Option String
  name : Option String
  number : ℕ
  raw : String
deriving DecidableEq

/-- `#12`, `owner/name#12` or a run of digits. -/
def SteeringToken.numberToken : SteeringToken → Option NumberToken
  | .reference raw owner name number => some ⟨owner, name, number, raw⟩
  | .bareNumber raw number => some ⟨none, none, number, raw⟩
  | _ => none

/-- The number that a target was read from. -/
def ParsedTarget.numberToken (target : ParsedTarget) : NumberToken :=
  ⟨target.owner, target.name, target.number, target.reference⟩

/-- Whether a token is a reference, which is a target wherever it stands. -/
def SteeringToken.isReference : SteeringToken → Bool
  | .reference .. => true
  | _ => false

/-- A reference, or a word that introduces a list. -/
def SteeringToken.arms : SteeringToken → Bool
  | .reference .. => true
  | .word w =>
    readyVerbs.contains w || holdVerbs.contains w || exclusiveWords.contains w ||
      scopeNouns.contains w
  | _ => false

/-- A word that ends a list. -/
def SteeringToken.isProse : SteeringToken → Bool
  | .word w => !(SteeringToken.word w).arms && !fillers.contains w
  | _ => false

/-- **No prose stands between here and the nearest word that introduces a list**, or
reference. -/
def Introduced (before : List SteeringToken) : Prop :=
  ∃ earlier token between, before = earlier ++ token :: between
    ∧ token.arms = true
    ∧ ∀ later ∈ between, later.arms = false ∧ later.isProse = false

/-- The same, from token to token. -/
def introduces (armed : Bool) (token : SteeringToken) : Bool :=
  if token.arms then true else if token.isProse then false else armed

theorem introduced_iff (before : List SteeringToken) :
    before.foldl introduces false = true ↔ Introduced before := by
  induction before using List.reverseRecOn with
  | nil =>
    refine iff_of_false (by decide) ?_
    rintro ⟨earlier, token, between, heq, -⟩
    simp at heq
  | append_singleton before token ih =>
    rw [List.foldl_append]
    show introduces (before.foldl introduces false) token = true ↔ _
    unfold introduces
    by_cases harms : token.arms = true
    · rw [if_pos harms]
      exact iff_of_true rfl ⟨before, token, [], rfl, harms, by simp⟩
    rw [if_neg harms]
    -- whatever introduces a list stands before
    have hearlier : Introduced (before ++ [token])
        ↔ Introduced before ∧ token.isProse = false := by
      constructor
      · rintro ⟨earlier, first, between, heq, hfirst, hbetween⟩
        obtain rfl | ⟨between, last, rfl⟩ := List.eq_nil_or_concat between
        · obtain ⟨-, hlast⟩ := List.append_inj' heq rfl
          rw [List.singleton_inj.mp hlast] at harms
          exact absurd hfirst harms
        · rw [List.concat_eq_append] at heq hbetween
          rw [← List.cons_append, ← List.append_assoc] at heq
          obtain ⟨hbefore, hlast⟩ := List.append_inj' heq rfl
          rw [List.singleton_inj.mp hlast]
          exact ⟨⟨earlier, first, between, hbefore, hfirst,
            fun later hlater => hbetween later (List.mem_append_left _ hlater)⟩,
            (hbetween last (by simp)).2⟩
      · rintro ⟨⟨earlier, first, between, rfl, hfirst, hbetween⟩, hprose⟩
        refine ⟨earlier, first, between ++ [token], by simp, hfirst, fun later hlater => ?_⟩
        obtain hlater | hlater := List.mem_append.mp hlater
        · exact hbetween later hlater
        · rw [List.mem_singleton.mp hlater]
          exact ⟨Bool.not_eq_true _ ▸ harms, hprose⟩
    rw [hearlier, ← ih]
    cases token.isProse with
    | true => simp
    | false => exact ⟨fun h => ⟨h, rfl⟩, fun h => h.1⟩

instance (before : List SteeringToken) : Decidable (Introduced before) :=
  decidable_of_iff _ (introduced_iff before)

/-- A number that becomes a target. -/
def IsTarget (before : List SteeringToken) (token : SteeringToken) : Prop :=
  token.isReference = true ∨ Introduced before

instance (before : List SteeringToken) (token : SteeringToken) :
    Decidable (IsTarget before token) := inferInstanceAs (Decidable (_ ∨ _))

/-- The numbers in order, each with what it becomes: the first for a target, the second
for an ignored number. -/
def numbersFrom : (before tokens : List SteeringToken) → List (Party × NumberToken)
  | _, [] => []
  | before, token :: tokens =>
    match token.numberToken with
    | none => numbersFrom (before ++ [token]) tokens
    | some number =>
      (if IsTarget before token then .first else .second, number)
        :: numbersFrom (before ++ [token]) tokens

/-- What makes two targets one. -/
def ParsedTarget.identity (target : ParsedTarget) :
    TargetKind × Option String × Option String × ℕ :=
  (target.kind, target.owner, target.name, target.number)

/-- **No number is lost or invented.** The numbers that the tokens spell are divided, in
their order, into targets and ignored numbers, and a target that is named twice is one
target. -/
structure AccountsForNumbers (instruction : String) (parsed : ParsedInstruction) :
    Prop where
  accounted : ∃ (found : List ParsedTarget) (ignored : List NumberToken),
    Interleaving (found.map (·.numberToken)) ignored
      (numbersFrom [] (tokensOf (Text.toLowerCase instruction)))
    ∧ parsed.ignoredNumbers = ignored.map (·.number)
    ∧ parsed.targets.Sublist found
    ∧ ∀ target, target ∈ parsed.targets ↔
      found.find? (fun other => other.identity = target.identity) = some target
  every_number : (numbersFrom [] (tokensOf (Text.toLowerCase instruction))).map (·.2)
    = (tokensOf (Text.toLowerCase instruction)).filterMap (·.numberToken)
  once : (parsed.targets.map (·.identity)).Nodup

/-! ## What a token is -/

theorem isLocal_tokenPattern : tokenPattern.IsLocal := by
  simp [tokenPattern, IsLocal, Pattern.optional, many, many1, oneOf, Pattern.all,
    Pattern.text]

theorem takesOnly_tokenPattern : tokenPattern.TakesOnly (· ≠ ' ') := by
  have hne : ∀ {holds : Char → Bool}, holds ' ' = false → ∀ c, holds c = true → c ≠ ' ' := by
    rintro holds hblank c hc rfl
    rw [hblank] at hc
    contradiction
  have hpart := hne (show isSlugPart ' ' = false by decide)
  have hdigit := hne (show Char.isDigit ' ' = false by decide)
  exact ⟨⟨⟨hpart, hne (by decide), hpart⟩, hne (by decide), hdigit⟩, hdigit,
    ⟨hne (by decide), hne (by decide)⟩, hne (by decide)⟩

/-- A part of a slug. -/
def IsSlug (cs : List Char) : Prop := cs ≠ [] ∧ ∀ c ∈ cs, isSlugPart c = true

/-- A run of digits. -/
def IsDigits (cs : List Char) : Prop := cs ≠ [] ∧ ∀ c ∈ cs, c.isDigit = true

/-- A later character of a word. -/
def isWordPart (c : Char) : Bool := isLetter c || c == '\'' || c == '’' || c == '-'

section Token

variable {s e : Pos}

theorem mem_ends_group_many1 {holds : Char → Bool} {index : ℕ} :
    e ∈ (group index (many1 (char holds))).ends s ↔
      ∃ taken rest, s.rest = taken ++ rest ∧ (∀ c ∈ taken, holds c = true)
        ∧ taken ≠ [] ∧ e = (s.advance taken rest).capture index taken := by
  unfold many1
  rw [mem_ends_group_rep]
  refine exists₂_congr fun taken rest => ?_
  have hpos : 1 ≤ taken.length ↔ taken ≠ [] := by
    rw [Nat.one_le_iff_ne_zero, ne_eq, List.length_eq_zero_iff]
  rw [hpos]
  simp

/-- **The five kinds of a token.** -/
theorem mem_ends_tokenPattern (he : e ∈ tokenPattern.ends s) :
    (∃ owner name digits, IsSlug owner ∧ IsSlug name ∧ IsDigits digits
      ∧ s.rest = owner ++ '/' :: (name ++ '#' :: (digits ++ e.rest))
      ∧ e.captures = (3, digits) :: (2, name) :: (1, owner) :: s.captures)
    ∨ (∃ digits, IsDigits digits ∧ s.rest = '#' :: (digits ++ e.rest)
      ∧ e.captures = (3, digits) :: s.captures)
    ∨ (∃ digits, IsDigits digits ∧ s.rest = digits ++ e.rest
      ∧ e.captures = (4, digits) :: s.captures)
    ∨ (∃ c cs, isLetter c = true ∧ (∀ d ∈ cs, isWordPart d = true)
      ∧ s.rest = c :: (cs ++ e.rest) ∧ e.captures = (5, c :: cs) :: s.captures)
    ∨ ∃ c, (c = ',' ∨ c = '&') ∧ s.rest = c :: e.rest
      ∧ e.captures = (6, [c]) :: s.captures := by
  have hnumber : ∀ {m : Pos}, e ∈ (seq (text "#") (group 3 (many1 (char Char.isDigit)))).ends m →
      ∃ digits, IsDigits digits ∧ m.rest = '#' :: (digits ++ e.rest)
        ∧ e.captures = (3, digits) :: m.captures := by
    intro m he
    obtain ⟨m', hm', he⟩ := mem_ends_seq.mp he
    obtain ⟨rest, hrest, rfl⟩ := mem_ends_text.mp hm'
    obtain ⟨digits, rest', hrest', hdigits, hne, rfl⟩ := mem_ends_group_many1.mp he
    have hsame : rest = digits ++ rest' := hrest'
    exact ⟨digits, ⟨hne, hdigits⟩, by rw [hrest, hsame]; rfl, rfl⟩
  obtain href | he := List.mem_append.mp he
  · obtain ⟨m, hm, he⟩ := mem_ends_seq.mp href
    obtain ⟨digits, hdigits, hrest, hcaptures⟩ := hnumber he
    obtain ⟨hslug, -⟩ | rfl := mem_ends_optional.mp hm
    · obtain ⟨m₁, hm₁, hslug⟩ := mem_ends_seq.mp hslug
      obtain ⟨m₂, hm₂, hslug⟩ := mem_ends_seq.mp hslug
      obtain ⟨owner, rest₁, hrest₁, howner, hne₁, rfl⟩ := mem_ends_group_many1.mp hm₁
      obtain ⟨rest₂, hrest₂, rfl⟩ := mem_ends_text.mp hm₂
      obtain ⟨name, rest₃, hrest₃, hname, hne₂, rfl⟩ := mem_ends_group_many1.mp hslug
      have h₂ : rest₁ = '/' :: rest₂ := hrest₂
      have h₃ : rest₂ = name ++ rest₃ := hrest₃
      have h₄ : rest₃ = '#' :: (digits ++ e.rest) := hrest
      exact Or.inl ⟨owner, name, digits, ⟨hne₁, howner⟩, ⟨hne₂, hname⟩, hdigits,
        by rw [hrest₁, h₂, h₃, h₄], hcaptures⟩
    · exact Or.inr (Or.inl ⟨digits, hdigits, hrest, hcaptures⟩)
  obtain hbare | he := List.mem_append.mp he
  · obtain ⟨digits, rest, hrest, hdigits, hne, rfl⟩ := mem_ends_group_many1.mp hbare
    exact Or.inr (Or.inr (Or.inl ⟨digits, ⟨hne, hdigits⟩, hrest, rfl⟩))
  obtain hword | hseparator := List.mem_append.mp he
  · obtain ⟨m, hm, rfl⟩ := mem_ends_group.mp hword
    obtain ⟨m₁, hm₁, hm⟩ := mem_ends_seq.mp hm
    obtain ⟨c, rest₁, hrest₁, hc, rfl⟩ := mem_ends_char.mp hm₁
    obtain ⟨cs, rest₂, hrest₂, hcs, -, -, rfl⟩ := mem_ends_rep_char.mp hm
    have h₂ : rest₁ = cs ++ rest₂ := hrest₂
    have htaken : s.rest = (c :: cs) ++ rest₂ := by rw [hrest₁, h₂]; rfl
    refine Or.inr (Or.inr (Or.inr (Or.inl ⟨c, cs, hc, hcs, htaken, ?_⟩)))
    exact congrArg (fun taken => (5, taken) :: s.captures) (upTo_advance htaken)
  · obtain ⟨m, hm, rfl⟩ := mem_ends_group.mp hseparator
    obtain ⟨c, rest, hrest, hc, rfl⟩ := mem_ends_char.mp hm
    refine Or.inr (Or.inr (Or.inr (Or.inr ⟨c, ?_, hrest, ?_⟩)))
    · simpa using hc
    · exact congrArg (fun taken => (6, taken) :: s.captures) (upTo_advance hrest)

theorem consumes_tokenPattern : Consumes tokenPattern := by
  intro s e he
  obtain ⟨owner, name, digits, -, -, -, hrest, -⟩ | ⟨digits, -, hrest, -⟩
    | ⟨digits, hdigits, hrest, -⟩ | ⟨c, cs, -, -, hrest, -⟩ | ⟨c, -, hrest, -⟩ :=
    mem_ends_tokenPattern he
  · rw [hrest]
    simp
    omega
  · rw [hrest, List.length_cons, List.length_append]
    omega
  · have hpos := List.length_pos_iff.mpr hdigits.1
    rw [hrest, List.length_append]
    omega
  · rw [hrest, List.length_cons, List.length_append]
    omega
  · rw [hrest]
    exact Nat.lt_succ_self _

/-- **A reference names a whole slug or none.** -/
theorem reference_of_tokenOf {raw : String} {owner name : Option String} {number : ℕ}
    (hs : s.captures = []) (he : e ∈ tokenPattern.ends s)
    (htoken : tokenOf s e = .reference raw owner name number) :
    (owner = none ∧ name = none)
      ∨ ∃ o n, IsSlug o ∧ IsSlug n ∧ owner = some (String.ofList o)
        ∧ name = some (String.ofList n) := by
  unfold tokenOf capture at htoken
  obtain ⟨o, n, digits, ho, hn, -, -, hcaptures⟩ | ⟨digits, -, -, hcaptures⟩
    | ⟨digits, -, -, hcaptures⟩ | ⟨c, cs, -, -, -, hcaptures⟩ | ⟨c, -, -, hcaptures⟩ :=
    mem_ends_tokenPattern he
  · rw [hcaptures, hs] at htoken
    injection htoken with _ howner hname
    exact Or.inr ⟨o, n, ho, hn, howner.symm, hname.symm⟩
  · rw [hcaptures, hs] at htoken
    injection htoken with _ howner hname
    exact Or.inl ⟨howner.symm, hname.symm⟩
  · rw [hcaptures, hs] at htoken
    simp [List.lookup_cons] at htoken
  · rw [hcaptures, hs] at htoken
    simp [List.lookup_cons] at htoken
  · rw [hcaptures, hs] at htoken
    simp [List.lookup_cons] at htoken

end Token

/-! ## No number of the text escapes the tokens -/

/-- The runs of digits of a text, each as long as it can be. -/
def digitRuns (text : List Char) : List (List Char) :=
  (text.splitOnP fun c => !c.isDigit).filter (· ≠ [])

/-- The numbers that follow a `#`, in the order of the text. -/
def hashNumbers : List Char → List ℕ
  | [] => []
  | c :: cs =>
    if c = '#' ∧ cs.takeWhile Char.isDigit ≠ [] then
      numberOf (String.ofList (cs.takeWhile Char.isDigit)) :: hashNumbers cs
    else hashNumbers cs

/-- The runs of digits a token takes: a slug may hold some of its own. -/
def SteeringToken.digitRuns : SteeringToken → List (List Char)
  | .reference raw .. => Opifex.digitRuns raw.toList
  | .bareNumber raw _ => [raw.toList]
  | _ => []

/-- The number of a reference; none for any other token. -/
def SteeringToken.referenceNumber : SteeringToken → Option ℕ
  | .reference _ _ _ number => some number
  | _ => none

theorem isWordPart_of_isLetter {c : Char} (hc : isLetter c = true) : isWordPart c = true := by
  unfold isWordPart
  rw [hc]
  rfl

theorem isWordPart_of_isDigit {c : Char} (hc : c.isDigit = true) : isWordPart c = false := by
  have hall : ∀ n < 58, (Char.ofNat n).isDigit = true → isWordPart (Char.ofNat n) = false := by
    decide
  have hle : c.toNat ≤ 57 := by
    simp only [Char.isDigit, Bool.and_eq_true, decide_eq_true_eq] at hc
    exact hc.2
  rw [← Char.ofNat_toNat c] at hc ⊢
  exact hall c.toNat (Nat.lt_succ_of_le hle) hc

section Runs

variable {s e : Pos} {taken rest : List Char}

/-- What starts with no digit. -/
def Undigited (rest : List Char) : Prop := ∀ c, rest.head? = some c → c.isDigit = false

theorem digitRuns_cons {c : Char} (hc : c.isDigit = false) (cs : List Char) :
    digitRuns (c :: cs) = digitRuns cs := by
  unfold digitRuns
  rw [List.splitOnP_cons_eq_if_modifyHead, if_pos (by rw [hc]; rfl)]
  rfl

/-- A text may be cut before what is no digit. -/
theorem digitRuns_append (h : Undigited rest) (taken : List Char) :
    digitRuns (taken ++ rest) = digitRuns taken ++ digitRuns rest := by
  cases rest with
  | nil =>
    rw [List.append_nil]
    exact (List.append_nil _).symm
  | cons c cs =>
    have hc : c.isDigit = false := h c rfl
    rw [digitRuns_cons hc]
    unfold digitRuns
    rw [List.splitOnP_append_cons _ _ (by rw [hc]; rfl), List.filter_append]

theorem digitRuns_append_of_forall (h : ∀ c ∈ taken, c.isDigit = false) (rest : List Char) :
    digitRuns (taken ++ rest) = digitRuns rest := by
  induction taken with
  | nil => rfl
  | cons c taken ih =>
    rw [List.cons_append, digitRuns_cons (h c List.mem_cons_self)]
    exact ih fun d hd => h d (List.mem_cons_of_mem c hd)

theorem digitRuns_digits (h : IsDigits taken) : digitRuns taken = [taken] := by
  unfold digitRuns
  rw [List.splitOnP_eq_singleton fun c hc => by rw [h.2 c hc]; rfl]
  exact List.filter_cons_of_pos (by simpa using h.1)

theorem hashNumbers_append_of_notMem (h : '#' ∉ taken) (rest : List Char) :
    hashNumbers (taken ++ rest) = hashNumbers rest := by
  induction taken with
  | nil => rfl
  | cons c taken ih =>
    have hc : ¬(c = '#' ∧ (taken ++ rest).takeWhile Char.isDigit ≠ []) :=
      fun hhash => h (hhash.1 ▸ List.mem_cons_self)
    rw [List.cons_append, hashNumbers, if_neg hc]
    exact ih fun hmem => h (List.mem_cons_of_mem c hmem)

/-- A `#` with its digits is one number. -/
theorem hashNumbers_hash (h : IsDigits taken) (hrest : Undigited rest) :
    hashNumbers ('#' :: (taken ++ rest))
      = numberOf (String.ofList taken) :: hashNumbers rest := by
  have htake : (taken ++ rest).takeWhile Char.isDigit = taken := by
    rw [List.takeWhile_append_of_pos h.2]
    cases rest with
    | nil => exact List.append_nil _
    | cons c cs => rw [List.takeWhile_cons_of_neg (by rw [hrest c rfl]; decide), List.append_nil]
  have hhash : '#' ∉ taken := fun hmem => absurd (h.2 '#' hmem) (by decide)
  rw [hashNumbers, htake, if_pos ⟨rfl, h.1⟩, hashNumbers_append_of_notMem hhash]

/-- **The digits of a token are all there are**: what follows it starts with no
digit. -/
theorem undigited_of_head? (h : (tokenPattern.ends s).head? = some e) :
    Undigited e.rest
      ∨ ∃ index captured earlier, (index = 5 ∨ index = 6)
        ∧ e.captures = (index, captured) :: earlier := by
  have hgroup : ∀ {index : ℕ} {m : Pos},
      ((group index (many1 (char Char.isDigit))).ends m).head? = some e →
        Undigited e.rest := by
    intro index m hm
    rw [ends, List.head?_map] at hm
    obtain ⟨m', hm', rfl⟩ := Option.map_eq_some_iff.mp hm
    obtain ⟨-, -, -, -, hrest, -⟩ := head?_ends_many1 hm'
    exact hrest
  have hseq : ∀ {first second : Pattern} {m : Pos},
      ((seq first second).ends m).head? = some e →
        ∃ m', (second.ends m').head? = some e := by
    intro first second m hm
    rw [ends, List.head?_flatMap] at hm
    obtain ⟨m', -, hm'⟩ := List.exists_of_findSome?_eq_some hm
    exact ⟨m', hm'⟩
  unfold tokenPattern at h
  rw [ends, List.head?_append, Option.or_eq_some_iff] at h
  obtain href | ⟨-, h⟩ := h
  · obtain ⟨m, hm⟩ := hseq href
    obtain ⟨m', hm'⟩ := hseq hm
    exact Or.inl (hgroup hm')
  rw [ends, List.head?_append, Option.or_eq_some_iff] at h
  obtain hbare | ⟨-, h⟩ := h
  · exact Or.inl (hgroup hbare)
  rw [ends, List.head?_append, Option.or_eq_some_iff] at h
  obtain hword | ⟨-, hseparator⟩ := h
  · obtain ⟨m, hm, rfl⟩ := mem_ends_group.mp (List.mem_of_head? hword)
    exact Or.inr ⟨5, s.upTo m, m.captures, Or.inl rfl, rfl⟩
  · obtain ⟨m, hm, rfl⟩ := mem_ends_group.mp (List.mem_of_head? hseparator)
    exact Or.inr ⟨6, s.upTo m, m.captures, Or.inr rfl, rfl⟩

/-- What the first token of a text takes of its digits and of its numbers. -/
theorem numbers_tokenOf (hs : s.captures = []) (h : (tokenPattern.ends s).head? = some e) :
    digitRuns s.rest = (tokenOf s e).digitRuns ++ digitRuns e.rest
      ∧ hashNumbers s.rest = (tokenOf s e).referenceNumber.toList ++ hashNumbers e.rest := by
  have hslug : ∀ {cs : List Char}, IsSlug cs → '#' ∉ cs :=
    fun hcs hmem => absurd (hcs.2 '#' hmem) (by decide)
  have hends : ∀ {index : ℕ} {digits : List Char}, index = 3 ∨ index = 4 →
      e.captures = (index, digits) :: (e.captures.drop 1) → Undigited e.rest := by
    intro index digits hindex hcaptures
    obtain hrest | ⟨later, captured, earlier, hlater, hword⟩ := undigited_of_head? h
    · exact hrest
    · have heq : index = later :=
        (Prod.mk.inj (List.cons.inj (hcaptures.symm.trans hword)).1).1
      omega
  obtain ⟨owner, name, digits, ho, hn, hdigits, hrest, hcaptures⟩
    | ⟨digits, hdigits, hrest, hcaptures⟩ | ⟨digits, hdigits, hrest, hcaptures⟩
    | ⟨c, cs, hc, hcs, hrest, hcaptures⟩ | ⟨c, hc, hrest, hcaptures⟩ :=
    mem_ends_tokenPattern (List.mem_of_head? h)
  · have hundigited := hends (Or.inl rfl) (by rw [hcaptures]; rfl)
    have htaken : s.rest = (owner ++ '/' :: (name ++ '#' :: digits)) ++ e.rest := by
      rw [hrest]
      simp
    have hraw : s.upTo e = owner ++ '/' :: (name ++ '#' :: digits) := upTo_advance htaken
    have htoken : tokenOf s e = .reference (String.ofList (s.upTo e))
        (some (String.ofList owner)) (some (String.ofList name))
        (numberOf (String.ofList digits)) := by
      unfold tokenOf capture
      rw [hcaptures]
      rfl
    rw [htoken, hraw]
    refine ⟨?_, ?_⟩
    · show _ = Opifex.digitRuns (String.ofList _).toList ++ _
      rw [String.toList_ofList, htaken, digitRuns_append hundigited]
    · rw [hrest, hashNumbers_append_of_notMem (hslug ho), hashNumbers,
        if_neg (fun hhash => absurd hhash.1 (by decide)),
        hashNumbers_append_of_notMem (hslug hn), hashNumbers_hash hdigits hundigited]
      rfl
  · have hundigited := hends (Or.inl rfl) (by rw [hcaptures]; rfl)
    have htaken : s.rest = ('#' :: digits) ++ e.rest := hrest
    have hraw : s.upTo e = '#' :: digits := upTo_advance htaken
    have htoken : tokenOf s e = .reference (String.ofList (s.upTo e)) none none
        (numberOf (String.ofList digits)) := by
      unfold tokenOf capture
      rw [hcaptures, hs]
      rfl
    rw [htoken, hraw]
    refine ⟨?_, ?_⟩
    · show _ = Opifex.digitRuns (String.ofList _).toList ++ _
      rw [String.toList_ofList, htaken, digitRuns_append hundigited]
    · rw [hrest, hashNumbers_hash hdigits hundigited]
      rfl
  · have hundigited := hends (Or.inr rfl) (by rw [hcaptures]; rfl)
    have htoken : tokenOf s e = .bareNumber (String.ofList digits)
        (numberOf (String.ofList digits)) := by
      unfold tokenOf capture
      rw [hcaptures, hs]
      rfl
    have hhash : '#' ∉ digits := fun hmem => absurd (hdigits.2 '#' hmem) (by decide)
    rw [htoken, hrest]
    refine ⟨?_, hashNumbers_append_of_notMem hhash _⟩
    show _ = [(String.ofList digits).toList] ++ _
    rw [String.toList_ofList, digitRuns_append hundigited, digitRuns_digits hdigits]
  · have htoken : tokenOf s e = .word (String.ofList (c :: cs)) := by
      unfold tokenOf capture
      rw [hcaptures, hs]
      rfl
    have hpart : ∀ d ∈ c :: cs, isWordPart d = true :=
      List.forall_mem_cons.mpr ⟨isWordPart_of_isLetter hc, hcs⟩
    have hnone : ∀ d ∈ c :: cs, d.isDigit = false := by
      intro d hd
      by_contra hdigit
      have hnot := isWordPart_of_isDigit (by simpa using hdigit)
      rw [hpart d hd] at hnot
      cases hnot
    rw [htoken, hrest, ← List.cons_append]
    exact ⟨digitRuns_append_of_forall hnone _,
      hashNumbers_append_of_notMem (fun hmem => absurd (hpart '#' hmem) (by decide)) _⟩
  · have htoken : tokenOf s e = .separator := by
      unfold tokenOf capture
      rw [hcaptures, hs]
      rfl
    have hmark : c.isDigit = false ∧ c ≠ '#' := by
      obtain rfl | rfl := hc
      · decide
      · decide
    rw [htoken, hrest]
    exact ⟨digitRuns_cons hmark.1 _,
      @hashNumbers_append_of_notMem [c] (by simpa using hmark.2.symm) _⟩

/-- Where no token starts there is neither a digit nor a numbered `#`. -/
theorem numbers_of_ends_nil {c : Char} {cs : List Char} (hrest : s.rest = c :: cs)
    (h : tokenPattern.ends s = []) :
    digitRuns (c :: cs) = digitRuns cs ∧ hashNumbers (c :: cs) = hashNumbers cs := by
  have hmem : ∀ {m : Pos}, m ∉ tokenPattern.ends s := by
    intro m hm
    rw [h] at hm
    exact List.not_mem_nil hm
  have hdigit : c.isDigit = false := by
    by_contra hc
    have hone : (s.advance [c] cs).capture 4 [c]
        ∈ (group 4 (many1 (char Char.isDigit))).ends s :=
      mem_ends_group_many1.mpr ⟨[c], cs, hrest,
        List.forall_mem_singleton.mpr (by simpa using hc), List.cons_ne_nil _ _, rfl⟩
    exact hmem (List.mem_append_right _ (List.mem_append_left _ hone))
  have hhash : ¬(c = '#' ∧ cs.takeWhile Char.isDigit ≠ []) := by
    rintro ⟨rfl, hrun⟩
    have hone : ((s.advance ['#'] cs).advance (cs.takeWhile Char.isDigit)
          (cs.dropWhile Char.isDigit)).capture 3 (cs.takeWhile Char.isDigit)
        ∈ (group 3 (many1 (char Char.isDigit))).ends (s.advance ['#'] cs) :=
      mem_ends_group_many1.mpr ⟨_, _, List.takeWhile_append_dropWhile.symm,
        fun d hd => List.mem_takeWhile_imp hd, hrun, rfl⟩
    have hnumber : _ ∈ (seq (text "#") (group 3 (many1 (char Char.isDigit)))).ends s :=
      mem_ends_seq.mpr ⟨_, mem_ends_text.mpr ⟨cs, hrest, rfl⟩, hone⟩
    exact hmem (List.mem_append_left _
      (mem_ends_seq.mpr ⟨s, mem_ends_optional.mpr (Or.inr rfl), hnumber⟩))
  exact ⟨digitRuns_cons hdigit cs, by rw [hashNumbers, if_neg hhash]⟩

/-- **No number of a text escapes its tokens**: each run of digits is taken whole and in
its place, and each number after a `#` is that of a reference. -/
theorem numbers_tokensOf (text : String) :
    digitRuns text.toList = (tokensOf text).flatMap (·.digitRuns)
      ∧ hashNumbers text.toList = (tokensOf text).filterMap (·.referenceNumber) := by
  refine matchesFrom_rec consumes_tokenPattern
    (motive := fun rest found =>
      digitRuns rest = (found.map fun found => tokenOf found.1 found.2).flatMap (·.digitRuns)
        ∧ hashNumbers rest = (found.map fun found => tokenOf found.1 found.2).filterMap
          (·.referenceNumber)) ⟨rfl, rfl⟩ ?_ ?_
    (show text.toList.length < text.length + 1 by
      rw [String.length_toList]
      exact Nat.lt_succ_self _)
  · intro before c cs found hnil ih
    obtain ⟨hruns, hhashes⟩ := numbers_of_ends_nil rfl hnil
    rw [hruns, hhashes]
    exact ih
  · intro before rest e found hhead ih
    obtain ⟨hruns, hhashes⟩ := numbers_tokenOf rfl hhead
    rw [List.map_cons, List.flatMap_cons, ← ih.1, List.filterMap_cons]
    refine ⟨hruns, ?_⟩
    rw [show hashNumbers rest = _ from hhashes, ih.2]
    cases (tokenOf ⟨before, rest, []⟩ e).referenceNumber with
    | none => rfl
    | some number => rfl

end Runs

/-! ## The shared pattern is reset -/

/-- The loop of the code is the list of the matches. -/
theorem execAll_eq (text : List Char) :
    ∀ (fuel : ℕ) (before rest : List Char), before.reverse ++ rest = text →
      rest.length < fuel →
      execAll text fuel ⟨before.length⟩ = (tokenPattern.matchesFrom fuel before rest, ⟨0⟩) := by
  intro fuel
  induction fuel with
  | zero => exact fun before rest _ hfuel => absurd hfuel (Nat.not_lt_zero _)
  | succ fuel ih =>
    intro before rest htext hfuel
    have hbefore : (text.take before.length).reverse = before := by
      rw [← htext, ← List.length_reverse, List.take_left', List.reverse_reverse]
      rfl
    have hrest : text.drop before.length = rest := by
      rw [← htext, ← List.length_reverse, List.drop_left']
      rfl
    unfold execAll execToken matchesFrom
    dsimp only
    rw [hbefore, hrest]
    cases hsearch : tokenPattern.search before rest with
    | none => rfl
    | some found =>
      obtain ⟨hmem, -, htext', hle⟩ := mem_search hsearch
      have hhere := (advances_ends tokenPattern _ _ hmem).text_eq.trans
        (htext'.trans htext)
      have hlt := consumes_tokenPattern _ _ hmem
      have hindex : text.length - found.2.rest.length = found.2.before.length := by
        rw [← hhere, List.length_append, List.length_reverse, Nat.add_sub_cancel]
      dsimp only
      rw [if_pos hlt, hindex, ih found.2.before found.2.rest hhere (by omega)]

/-- **A call does not depend on the calls before it.** -/
theorem parseCall_eq (regex : TokenRegex) (instruction : String) :
    parseCall regex instruction = (parseSteeringInstruction instruction, ⟨0⟩) := by
  have hall (text : List Char) : execAll text (text.length + 1) ⟨0⟩
      = (tokenPattern.matchesFrom (text.length + 1) [] text, ⟨0⟩) :=
    execAll_eq text _ [] text rfl (Nat.lt_succ_self _)
  unfold parseCall parseSteeringInstruction tokensOf matchAll
  dsimp only
  rw [hall, String.length_toList]

theorem parseAll_eq_map (regex : TokenRegex) (instructions : List String) :
    parseAll regex instructions = instructions.map parseSteeringInstruction := by
  induction instructions generalizing regex with
  | nil => rfl
  | cons instruction later ih => rw [parseAll, parseCall_eq, ih, List.map_cons]

/-! ## Reading the numbers -/

theorem readToken_bareNumber (reading : ReadingState) (raw : String) (number : ℕ) :
    readToken reading (.bareNumber raw number)
      = if reading.armed then
          { reading with
            targets := reading.targets ++
              [⟨reading.leadKind, none, none, number, raw⟩] }
        else
          { reading with ignoredNumbers := reading.ignoredNumbers ++ [number] } := rfl

/-- A word names no number. -/
theorem arm_numbers (w : String) (reading : ReadingState) :
    (arm w reading).targets = reading.targets
      ∧ (arm w reading).ignoredNumbers = reading.ignoredNumbers := by
  unfold arm
  split_ifs
  · exact ⟨rfl, rfl⟩
  · exact ⟨rfl, rfl⟩
  · exact ⟨rfl, rfl⟩
  · exact ⟨rfl, rfl⟩

/-- A word arms the reading as the words of its kind do. -/
theorem armed_readToken (reading : ReadingState) (token : SteeringToken) :
    (readToken reading token).armed = introduces reading.armed token := by
  cases token with
  | reference raw owner name number => rfl
  | separator => rfl
  | bareNumber raw number =>
    rw [readToken_bareNumber]
    by_cases harmed : reading.armed = true
    · rw [if_pos harmed]
      rfl
    · rw [if_neg harmed]
      rfl
  | word w =>
    unfold readToken arm introduces
    dsimp only
    by_cases hepic : w = "epic" ∨ w = "epics"
    · have harms : (SteeringToken.word w).arms = true := by
        obtain rfl | rfl := hepic
        · decide
        · decide
      rw [if_pos hepic, if_pos harms]
    rw [if_neg hepic]
    by_cases harms : (readyVerbs.contains w || holdVerbs.contains w ||
        exclusiveWords.contains w || scopeNouns.contains w) = true
    · have hword : (SteeringToken.word w).arms = true := harms
      rw [if_pos harms, if_pos hword]
    · have hword : ¬(SteeringToken.word w).arms = true := harms
      have hprose : (SteeringToken.word w).isProse = !fillers.contains w := by
        show (!(SteeringToken.word w).arms && !fillers.contains w) = _
        rw [Bool.eq_false_iff.mpr hword]
        rfl
      rw [if_neg harms, if_neg hword, hprose]
      cases hfiller : fillers.contains w with
      | true => rfl
      | false => rfl

/-- **What the rest of a sentence adds**: each of its numbers, to the targets or to the
ignored. -/
theorem exists_foldl_readToken (tokens : List SteeringToken) :
    ∀ (before : List SteeringToken) (reading : ReadingState),
      reading.armed = before.foldl introduces false →
      ∃ found ignored, (tokens.foldl readToken reading).targets = reading.targets ++ found
        ∧ (tokens.foldl readToken reading).ignoredNumbers
          = reading.ignoredNumbers ++ ignored.map NumberToken.number
        ∧ Interleaving (found.map (·.numberToken)) ignored (numbersFrom before tokens) := by
  induction tokens with
  | nil => exact fun before reading _ => ⟨[], [], by simp, by simp, .nil⟩
  | cons token tokens ih =>
    intro before reading harmed
    have harmed' : (readToken reading token).armed
        = (before ++ [token]).foldl introduces false := by
      rw [armed_readToken, harmed, List.foldl_append]
      rfl
    obtain ⟨found, ignored, hfound, hignored, hinterleaving⟩ :=
      ih (before ++ [token]) (readToken reading token) harmed'
    rw [List.foldl_cons, hfound, hignored]
    cases token with
    | reference raw owner name number =>
      refine ⟨⟨reading.leadKind, owner, name, number, raw⟩ :: found, ignored,
        by simp [readToken], rfl, ?_⟩
      unfold numbersFrom
      exact .first hinterleaving
    | bareNumber raw number =>
      rw [readToken_bareNumber]
      by_cases harms : reading.armed = true
      · have htarget : IsTarget before (.bareNumber raw number) :=
          Or.inr ((introduced_iff before).mp (harmed ▸ harms))
        rw [if_pos harms]
        refine ⟨⟨reading.leadKind, none, none, number, raw⟩ :: found, ignored, by simp,
          rfl, ?_⟩
        unfold numbersFrom
        show Interleaving _ _ ((if IsTarget before (.bareNumber raw number) then _ else _,
          _) :: _)
        rw [if_pos htarget]
        exact .first hinterleaving
      · have hnot : ¬IsTarget before (.bareNumber raw number) := by
          rintro (href | hintroduced)
          · contradiction
          · exact harms (harmed ▸ (introduced_iff before).mpr hintroduced)
        rw [if_neg harms]
        refine ⟨found, ⟨none, none, number, raw⟩ :: ignored, rfl, by simp, ?_⟩
        unfold numbersFrom
        show Interleaving _ _ ((if IsTarget before (.bareNumber raw number) then _ else _,
          _) :: _)
        rw [if_neg hnot]
        exact .second hinterleaving
    | separator => exact ⟨found, ignored, rfl, rfl, hinterleaving⟩
    | word w =>
      have hnumbers := arm_numbers w
        { reading with
          sawReady := reading.sawReady || readyVerbs.contains w
          sawHold := reading.sawHold || holdVerbs.contains w
          sawExclusiveWord := reading.sawExclusiveWord || exclusiveWords.contains w }
      refine ⟨found, ignored, ?_, ?_, hinterleaving⟩
      · exact congrArg (· ++ found) hnumbers.1
      · exact congrArg (· ++ ignored.map NumberToken.number) hnumbers.2

theorem map_snd_numbersFrom (before tokens : List SteeringToken) :
    (numbersFrom before tokens).map (·.2) = tokens.filterMap (·.numberToken) := by
  induction tokens generalizing before with
  | nil => rfl
  | cons token tokens ih =>
    unfold numbersFrom
    cases hnumber : token.numberToken with
    | none => rw [List.filterMap_cons_none hnumber, ← ih]
    | some number =>
      rw [List.filterMap_cons_some hnumber, ← ih (before ++ [token])]
      rfl

/-! ## The first of each -/

/-- A part of a slug, or null. -/
def IsNamed (part : Option String) : Prop :=
  part = none ∨ ∃ cs, IsSlug cs ∧ part = some (String.ofList cs)

theorem IsNamed.getD_inj {part part' : Option String} (h : IsNamed part)
    (h' : IsNamed part') (heq : part.getD "" = part'.getD "") : part = part' := by
  have hne : ∀ {cs : List Char}, IsSlug cs → (some (String.ofList cs)).getD "" ≠ "" := by
    rintro cs ⟨hne, -⟩ heq
    have hnil := congrArg String.toList heq
    rw [Option.getD_some, String.toList_ofList] at hnil
    exact hne hnil
  obtain rfl | ⟨cs, hcs, rfl⟩ := h
  · obtain rfl | ⟨cs', hcs', rfl⟩ := h'
    · rfl
    · exact absurd heq.symm (hne hcs')
  · obtain rfl | ⟨cs', hcs', rfl⟩ := h'
    · exact absurd heq (hne hcs)
    · exact congrArg some heq

theorem IsNamed.notMem {part : Option String} (h : IsNamed part) {c : Char}
    (hc : isSlugPart c = false) : c ∉ (part.getD "").toList := by
  obtain rfl | ⟨cs, hcs, rfl⟩ := h
  · exact List.not_mem_nil
  · rw [Option.getD_some, String.toList_ofList]
    intro hmem
    rw [hcs.2 c hmem] at hc
    contradiction

/-- **The key tells targets apart** as what they name does. -/
theorem key_eq_iff {target other : ParsedTarget}
    (h : IsNamed target.owner ∧ IsNamed target.name)
    (h' : IsNamed other.owner ∧ IsNamed other.name) :
    other.key = target.key ↔ other.identity = target.identity := by
  constructor
  · intro heq
    obtain ⟨hpath, hnumber⟩ := Text.append_hash_inj heq
    have hpath := congrArg String.toList hpath
    have hcolon : ":".toList = [':'] := by decide
    have hslash : "/".toList = ['/'] := by decide
    simp only [String.toList_append, List.append_assoc, hcolon, hslash,
      List.singleton_append] at hpath
    -- the marks occur in none of the parts before them
    have hkinds : ∀ kind : TargetKind, ':' ∉ kind.name.toList := by
      intro kind
      cases kind <;> decide
    obtain ⟨hkind, hpath⟩ := Text.append_mark_inj (hkinds _) (hkinds _) hpath
    obtain ⟨howner, hname⟩ := Text.append_mark_inj (h'.1.notMem (by decide))
      (h.1.notMem (by decide)) hpath
    have hkind : other.kind = target.kind := by
      revert hkind
      cases other.kind <;> cases target.kind <;> decide
    unfold ParsedTarget.identity
    rw [hkind, h'.1.getD_inj h.1 (String.toList_inj.mp howner),
      h'.2.getD_inj h.2 (String.toList_inj.mp hname), hnumber]
  · intro heq
    obtain ⟨hkind, howner, hname, hnumber⟩ : other.kind = target.kind
        ∧ other.owner = target.owner ∧ other.name = target.name
        ∧ other.number = target.number := by
      simpa [ParsedTarget.identity] using heq
    unfold ParsedTarget.key
    rw [hkind, howner, hname, hnumber]

/-- The numbers of a text name whole slugs. -/
theorem isNamed_of_mem {text : String} {number : NumberToken}
    (h : number ∈ (tokensOf text).filterMap (·.numberToken)) :
    IsNamed number.owner ∧ IsNamed number.name := by
  obtain ⟨token, htoken, hnumber⟩ := List.mem_filterMap.mp h
  obtain ⟨found, hfound, rfl⟩ := List.mem_map.mp htoken
  obtain ⟨hmem, hcaptures⟩ := mem_matchesFrom hfound
  cases hkind : tokenOf found.1 found.2 with
  | reference raw owner name n =>
    rw [hkind] at hnumber
    rw [← Option.some.inj hnumber]
    obtain ⟨rfl, rfl⟩ | ⟨o, m, ho, hm, rfl, rfl⟩ :=
      reference_of_tokenOf hcaptures hmem hkind
    · exact ⟨Or.inl rfl, Or.inl rfl⟩
    · exact ⟨Or.inr ⟨o, ho, rfl⟩, Or.inr ⟨m, hm, rfl⟩⟩
  | bareNumber raw n =>
    rw [hkind] at hnumber
    rw [← Option.some.inj hnumber]
    exact ⟨Or.inl rfl, Or.inl rfl⟩
  | separator =>
    rw [hkind] at hnumber
    exact nomatch hnumber
  | word w =>
    rw [hkind] at hnumber
    exact nomatch hnumber

theorem numbers_conclude (reading : ReadingState) (sawElsePhrase : Bool) :
    (conclude reading sawElsePhrase).targets
        = Distinct.dedupe ParsedTarget.key reading.targets
      ∧ (conclude reading sawElsePhrase).ignoredNumbers = reading.ignoredNumbers :=
  ⟨rfl, rfl⟩

/-- What is read names whole slugs. -/
theorem isNamed_foldl_readToken {text : String} {target : ParsedTarget}
    (h : target ∈ ((tokensOf text).foldl readToken {}).targets) :
    IsNamed target.owner ∧ IsNamed target.name := by
  obtain ⟨found, ignored, hfound, -, hinterleaving⟩ :=
    exists_foldl_readToken (tokensOf text) [] {} rfl
  rw [hfound] at h
  have hmem := hinterleaving.mem_of_first (List.mem_map_of_mem (f := (·.numberToken)) h)
  have hnumber := List.mem_map_of_mem (f := (·.2)) hmem
  rw [map_snd_numbersFrom] at hnumber
  exact isNamed_of_mem hnumber

/-- **The numbers of an instruction are accounted for**, each as a target or as ignored,
and no call depends on the calls before it. -/
theorem accountsForNumbers (instruction : String) :
    AccountsForNumbers instruction (parseSteeringInstruction instruction)
      ∧ ∀ (regex : TokenRegex) (earlier : List String),
        (parseAll regex (earlier ++ [instruction])).getLast?
          = some (parseSteeringInstruction instruction) := by
  obtain ⟨found, ignored, hfound, hignored, hinterleaving⟩ :=
    exists_foldl_readToken (tokensOf (Text.toLowerCase instruction)) [] {} rfl
  have hnamed : ∀ target ∈ found, IsNamed target.owner ∧ IsNamed target.name := by
    intro target htarget
    have hread := htarget
    rw [← List.nil_append found, ← hfound] at hread
    exact isNamed_foldl_readToken hread
  have hconclude := numbers_conclude
    ((tokensOf (Text.toLowerCase instruction)).foldl readToken {})
    (elsePhrases.any fun pattern => pattern.test (Text.toLowerCase instruction))
  rw [hfound, hignored, List.nil_append, List.nil_append] at hconclude
  obtain ⟨htargets, hnumbers⟩ :
    (parseSteeringInstruction instruction).targets
        = Distinct.dedupe ParsedTarget.key found
      ∧ (parseSteeringInstruction instruction).ignoredNumbers
        = ignored.map (·.number) := hconclude
  refine ⟨⟨⟨found, ignored, hinterleaving, ?_, ?_, fun target => ?_⟩,
    map_snd_numbersFrom [] _, ?_⟩, fun regex earlier => ?_⟩
  · exact hnumbers
  · rw [htargets]
    exact Distinct.dedupe_sublist
  · rw [htargets, Distinct.mem_dedupe_iff]
    -- among what was found the keys tell apart what the identities do
    have hfirst : ∀ target ∈ found,
        found.find? (fun other => other.key == target.key)
          = found.find? fun other => other.identity = target.identity := by
      intro target htarget
      refine List.find?_congr fun other hother => ?_
      rw [Bool.eq_iff_iff, beq_iff_eq, decide_eq_true_iff]
      exact key_eq_iff (hnamed target htarget) (hnamed other hother)
    constructor
    · intro h
      rw [← hfirst target (List.mem_of_find?_eq_some h)]
      exact h
    · intro h
      rw [hfirst target (List.mem_of_find?_eq_some h)]
      exact h
  · have hkeys : (Distinct.dedupe ParsedTarget.key found).map (·.key)
        = ((Distinct.dedupe ParsedTarget.key found).map (·.identity)).map
          fun identity => identity.1.name ++ ":" ++ identity.2.1.getD "" ++ "/" ++
            identity.2.2.1.getD "" ++ "#" ++ toString identity.2.2.2 := by
      rw [List.map_map]
      rfl
    have honce := @Distinct.nodup_map_dedupe _ _ _ _ ParsedTarget.key found
    rw [hkeys] at honce
    rw [htargets]
    exact honce.of_map _
  · rw [parseAll_eq_map, List.map_append, List.map_singleton, List.getLast?_concat]

end Opifex
