import Mathlib.Algebra.GroupWithZero.Nat
import Mathlib.Data.List.DropRight
import Mathlib.Data.List.Infix

/-!
# Text as JavaScript sees it

The string operations a JavaScript program leans on, over lists of characters
so that they compute. White space is the language's own set; lengths count
UTF-16 code units.

Lower case is exact on ASCII and on the two letters beyond it whose lower case
contains an ASCII letter. Any other letter is left as it is: its lower case
holds no ASCII character either, so a comparison with ASCII text comes out the
same.
-/

namespace Text

/-- A line terminator: the characters `.` does not match. -/
def isLineEnd (c : Char) : Bool :=
  c.toNat == 10 || c.toNat == 13 || c.toNat == 0x2028 || c.toNat == 0x2029

/-- White space and line terminators: what `trim` removes and `\s` matches. -/
def isSpace (c : Char) : Bool :=
  let n := c.toNat
  (9 ≤ n && n ≤ 13) || n == 32 || n == 0xA0 || n == 0x1680 ||
    (0x2000 ≤ n && n ≤ 0x200A) || n == 0x2028 || n == 0x2029 ||
    n == 0x202F || n == 0x205F || n == 0x3000 || n == 0xFEFF

/-- A word character, `\w`. -/
def isWord (c : Char) : Bool :=
  c.isAlphanum || c == '_'

/-- `trim()`. -/
def trimChars (cs : List Char) : List Char :=
  (cs.dropWhile isSpace).rdropWhile isSpace

/-- `trim()`. -/
def trim (s : String) : String :=
  String.ofList (trimChars s.toList)

/-- The lower case of one character. -/
def lowerChar (c : Char) : List Char :=
  if c.toNat = 0x212A then ['k']
  else if c.toNat = 0x130 then ['i', Char.ofNat 0x307]
  else [c.toLower]

/-- `toLowerCase()`. -/
def toLowerCase (s : String) : String :=
  String.ofList (s.toList.flatMap lowerChar)

/-- `length`: the number of UTF-16 code units. -/
def length (s : String) : ℕ :=
  (s.toList.map fun c => if c.toNat < 0x10000 then 1 else 2).sum

/-- The UTF-16 code units of a character: itself, or a surrogate pair. -/
def unitsOf (c : Char) : List ℕ :=
  if c.toNat < 0x10000 then [c.toNat]
  else [0xD800 + (c.toNat - 0x10000) / 0x400, 0xDC00 + (c.toNat - 0x10000) % 0x400]

/-- How `sort()` and `<` compare strings: code unit by code unit. -/
def compareUnits (s t : String) : Ordering :=
  compare (s.toList.flatMap unitsOf) (t.toList.flatMap unitsOf)

/-- `replace(/\s+/g, ' ')`: each run of white space as one blank. -/
def collapseSpaces : Bool → List Char → List Char
  | _, [] => []
  | inSpaces, c :: cs =>
    if isSpace c then
      if inSpaces then collapseSpaces true cs else ' ' :: collapseSpaces true cs
    else c :: collapseSpaces false cs

/-- The characters that fit into a number of code units. A character the cut
would split is left out. -/
def takeUnits (units : ℕ) : List Char → List Char
  | [] => []
  | c :: cs =>
    let width := (unitsOf c).length
    if width ≤ units then c :: takeUnits (units - width) cs else []

/-- A string used as a condition. -/
def truthy (s : String) : Bool := s != ""

/-- `includes`. -/
def includes (text part : String) : Bool := decide (part.toList <:+: text.toList)

/-- `startsWith`. -/
def startsWith (text start : String) : Bool :=
  start.toList.isPrefixOf text.toList

theorem startsWith_iff {text start : String} :
    startsWith text start = true ↔ start.toList <+: text.toList :=
  List.isPrefixOf_iff_prefix

/-- `endsWith`. -/
def endsWith (text ending : String) : Bool :=
  ending.toList.isSuffixOf text.toList

theorem endsWith_iff {text ending : String} :
    endsWith text ending = true ↔ ending.toList <:+ text.toList :=
  List.isSuffixOf_iff_suffix

/-- `slice(n)`. -/
def slice (n : ℕ) (s : String) : String := String.ofList (s.toList.drop n)

/-- `slice(0, -n)`. -/
def sliceEnd (n : ℕ) (s : String) : String := String.ofList (s.toList.rdrop n)

/-- `replaceAll` of one character by another. -/
def replaceChar (old new : Char) (s : String) : String :=
  String.ofList (s.toList.map fun c => if c = old then new else c)

/-- `split` at a character. -/
def split (mark : Char) (s : String) : List String :=
  (s.toList.splitOn mark).map String.ofList

theorem isLower_eq (c : Char) : c.isLower = (c.val ≥ 'a'.val && c.val ≤ 'z'.val) := rfl

theorem trimChars_trimChars (cs : List Char) : trimChars (trimChars cs) = trimChars cs := by
  have hfirst : (trimChars cs).dropWhile isSpace = trimChars cs := by
    rw [List.dropWhile_eq_self_iff]
    intro hpos hspace
    have hstart : trimChars cs <+: cs.dropWhile isSpace := List.rdropWhile_prefix _ _
    have hlong : 0 < (cs.dropWhile isSpace).length := hpos.trans_le hstart.length_le
    rw [hstart.getElem hpos] at hspace
    exact List.dropWhile_get_zero_not _ _ hlong hspace
  show ((trimChars cs).dropWhile isSpace).rdropWhile isSpace = _
  rw [hfirst]
  exact List.rdropWhile_idempotent _ _

theorem trim_trim (s : String) : trim (trim s) = trim s := by
  unfold trim
  rw [String.toList_ofList, trimChars_trimChars]

/-- A text starts with the first characters of one text only. -/
theorem head?_of_startsWith {text start : String}
    (h : startsWith text start = true) (hne : start.toList ≠ []) :
    start.toList.head? = text.toList.head? := by
  obtain ⟨rest, hrest⟩ := startsWith_iff.mp h
  rw [← hrest, List.head?_append_of_ne_nil _ hne]

section Includes

variable {a b c : String}

theorem includes_iff : includes a b = true ↔ b.toList <:+: a.toList :=
  decide_eq_true_iff

theorem includes_self : includes a a = true :=
  includes_iff.mpr (List.infix_refl _)

theorem includes_trans (hab : includes a b = true) (hbc : includes b c = true) :
    includes a c = true :=
  includes_iff.mpr ((includes_iff.mp hbc).trans (includes_iff.mp hab))

theorem includes_append_left (a b : String) : includes (a ++ b) b = true := by
  rw [includes_iff, String.toList_append]
  exact (List.suffix_append _ _).isInfix

theorem includes_append_right (a b : String) : includes (a ++ b) a = true := by
  rw [includes_iff, String.toList_append]
  exact (List.prefix_append _ _).isInfix

/-- Joined texts include each of them. -/
theorem includes_intercalate {separator : String} {parts : List String}
    (h : a ∈ parts) : includes (separator.intercalate parts) a = true := by
  induction parts with
  | nil => cases h
  | cons first rest ih =>
    by_cases hrest : rest = []
    · subst hrest
      rw [List.mem_singleton.mp h, String.intercalate_singleton]
      exact includes_self
    · rw [String.intercalate_cons_of_ne_nil hrest]
      obtain rfl | h := List.mem_cons.mp h
      · rw [String.append_assoc]
        exact includes_append_right _ _
      · exact includes_trans (includes_append_left _ _) (ih h)

theorem toList_intercalate (separator : String) (parts : List String) :
    (separator.intercalate parts).toList
      = separator.toList.intercalate (parts.map String.toList) := by
  induction parts with
  | nil => rfl
  | cons first rest ih =>
    cases rest with
    | nil =>
      rw [String.intercalate_singleton, List.map_singleton, List.intercalate_singleton]
    | cons second rest =>
      rw [String.intercalate_cons_of_ne_nil (List.cons_ne_nil _ _), String.toList_append,
        String.toList_append, ih]
      exact List.intercalate_cons_cons.symm

end Includes

/-- What comes before the first mark of a text, and what comes after it. -/
theorem append_mark_inj {α : Type*} {mark : α} {x y z w : List α} (hx : mark ∉ x)
    (hy : mark ∉ y) (h : x ++ mark :: z = y ++ mark :: w) : x = y ∧ z = w := by
  induction x generalizing y with
  | nil =>
    cases y with
    | nil => exact ⟨rfl, (List.cons.inj h).2⟩
    | cons c y =>
      exact absurd ((List.cons.inj h).1 ▸ List.mem_cons_self) hy
  | cons c x ih =>
    cases y with
    | nil =>
      exact absurd ((List.cons.inj h).1 ▸ List.mem_cons_self) hx
    | cons d y =>
      obtain ⟨rfl, hrest⟩ := List.cons.inj h
      obtain ⟨hxy, hzw⟩ := ih (fun hx' => hx (List.mem_cons_of_mem _ hx'))
        (fun hy' => hy (List.mem_cons_of_mem _ hy')) hrest
      exact ⟨congrArg _ hxy, hzw⟩

/-- What comes before the last mark of a text, and what comes after it. -/
theorem mark_append_inj {α : Type*} {mark : α} {x y z w : List α} (hz : mark ∉ z)
    (hw : mark ∉ w) (h : x ++ mark :: z = y ++ mark :: w) : x = y ∧ z = w := by
  have hreverse := congrArg List.reverse h
  simp only [List.reverse_append, List.reverse_cons, List.append_assoc,
    List.singleton_append] at hreverse
  obtain ⟨hzw, hxy⟩ := append_mark_inj (by simpa using hz) (by simpa using hw)
    hreverse
  exact ⟨List.reverse_injective hxy, List.reverse_injective hzw⟩

/-- The nearest number with 53 binary digits, the even one of two. -/
def toDouble (n : ℕ) : ℕ :=
  if n < 2 ^ 53 then n
  else
    let step := 2 ^ (Nat.log2 n - 52)
    let below := n / step
    let excess := n % step
    if 2 * excess < step || (2 * excess == step && below % 2 == 0) then
      below * step
    else (below + 1) * step

theorem toDouble_eq {n : ℕ} (h : n < 2 ^ 53) : toDouble n = n := by
  rw [toDouble, if_pos h]

/-- No number from `2 ^ 53` on is rounded below it. -/
theorem le_toDouble {n : ℕ} (h : 2 ^ 53 ≤ n) : 2 ^ 53 ≤ toDouble n := by
  have hlog : 53 ≤ Nat.log2 n := (Nat.le_log2 (by omega)).mpr h
  have hself : 2 ^ Nat.log2 n ≤ n := Nat.log2_self_le (by omega)
  have hstep : 2 ^ 52 * 2 ^ (Nat.log2 n - 52) = 2 ^ Nat.log2 n := by
    rw [← Nat.pow_add]
    congr 1
    omega
  have hbelow : 2 ^ 52 ≤ n / 2 ^ (Nat.log2 n - 52) := by
    rw [Nat.le_div_iff_mul_le (Nat.two_pow_pos _), hstep]
    exact hself
  have hmul : 2 ^ 53 ≤ n / 2 ^ (Nat.log2 n - 52) * 2 ^ (Nat.log2 n - 52) := calc
    2 ^ 53 ≤ 2 ^ Nat.log2 n := Nat.pow_le_pow_right (by decide) hlog
    _ = 2 ^ 52 * 2 ^ (Nat.log2 n - 52) := hstep.symm
    _ ≤ _ := Nat.mul_le_mul_right _ hbelow
  rw [toDouble, if_neg (by omega)]
  dsimp only
  by_cases hdown : (2 * (n % 2 ^ (Nat.log2 n - 52)) < 2 ^ (Nat.log2 n - 52)
    || (2 * (n % 2 ^ (Nat.log2 n - 52)) == 2 ^ (Nat.log2 n - 52)
      && n / 2 ^ (Nat.log2 n - 52) % 2 == 0)) = true
  · rw [if_pos hdown]
    exact hmul
  · rw [if_neg hdown, Nat.add_mul]
    omega

/-- `Number` of a text of digits. -/
def toNumber (digits : String) : ℕ :=
  toDouble (Nat.ofDigitChars 10 digits.toList 0)

/-- A number is written in digits. -/
theorem notMem_toString {c : Char} (h : c.isDigit = false) (n : ℕ) :
    c ∉ (toString n : String).toList := by
  intro hmem
  have hdigit := Nat.isDigit_of_mem_toDigits (by decide) (by decide)
    (show c ∈ Nat.toDigits 10 n by simpa using hmem)
  rw [h] at hdigit
  cases hdigit

/-- The digits of a number are its own. -/
theorem toString_inj {m n : ℕ} : (toString m : String) = toString n ↔ m = n := by
  refine ⟨fun h => ?_, fun h => h ▸ rfl⟩
  have hdigits : Nat.toDigits 10 m = Nat.toDigits 10 n := by
    simpa using congrArg String.toList h
  rw [← Nat.ofDigitChars_ten_toDigits (n := m), hdigits, Nat.ofDigitChars_ten_toDigits]

/-- Below `2 ^ 53` a number is read back from its digits. -/
theorem toNumber_toString {n : ℕ} (h : n < 2 ^ 53) :
    toNumber (toString n) = n := by
  have hread : Nat.ofDigitChars 10 (toString n : String).toList 0 = n := by
    simp
  rw [toNumber, hread, toDouble_eq h]

/-- The number is what follows the last hash. -/
theorem append_hash_inj {s t : String} {m n : ℕ}
    (h : s ++ "#" ++ toString m = t ++ "#" ++ toString n) : s = t ∧ m = n := by
  have hchars := congrArg (fun ref => (String.toList ref).reverse) h
  simp only [String.toList_append, List.reverse_append] at hchars
  have hhash : "#".toList.reverse = ['#'] := by decide
  rw [hhash, List.singleton_append, List.singleton_append] at hchars
  have hdigits : ∀ n : ℕ, '#' ∉ (toString n : String).toList.reverse :=
    fun n h => notMem_toString (by decide) n (List.mem_reverse.mp h)
  obtain ⟨hnumber, hstart⟩ := append_mark_inj (hdigits m) (hdigits n) hchars
  exact ⟨String.toList_inj.mp (List.reverse_injective hstart),
    toString_inj.mp (String.toList_inj.mp (List.reverse_injective hnumber))⟩

/-- A lower-cased character stays as it is. -/
theorem flatMap_lowerChar (c : Char) : (lowerChar c).flatMap lowerChar = lowerChar c := by
  by_cases hletter : c.toNat < 91
  · have hall : ∀ n < 91, (lowerChar (Char.ofNat n)).flatMap lowerChar
        = lowerChar (Char.ofNat n) := by decide
    rw [← Char.ofNat_toNat c]
    exact hall c.toNat hletter
  have hsame : c.toLower = c := by
    unfold Char.toLower
    exact dif_neg fun h => hletter (Nat.lt_succ_of_le h.2)
  unfold lowerChar
  by_cases hkelvin : c.toNat = 0x212A
  · rw [if_pos hkelvin]
    rfl
  by_cases hdotted : c.toNat = 0x130
  · rw [if_neg hkelvin, if_pos hdotted]
    rfl
  rw [if_neg hkelvin, if_neg hdotted, hsame, List.flatMap_singleton, if_neg hkelvin,
    if_neg hdotted, hsame]

theorem toLowerCase_toLowerCase (s : String) :
    toLowerCase (toLowerCase s) = toLowerCase s := by
  unfold toLowerCase
  rw [String.toList_ofList, List.flatMap_assoc]
  congr 2
  funext c
  exact flatMap_lowerChar c

end Text
