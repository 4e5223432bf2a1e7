import Opifex.Lib.Text

/-!
# Printing JSON

`stringify` is `JSON.stringify(value, null, 2)`: two spaces per level, one
entry a line, empty containers closed at once, and strings quoted with the
escapes of the standard. Numbers are carried as the text they print as.
-/

/-- A JSON value, as a writer has it. The text of a number is a parameter: it is written
as it stands. -/
inductive Json where
  | null
  | num (text : String)
  | str (text : String)
  | arr (items : List Json)
  | obj (fields : List (String × Json))

namespace Json

/-- A lower-case hexadecimal digit of a control character's escape. -/
def hexDigit (n : ℕ) : Char := Nat.digitChar (n % 16)

/-- One character of a quoted string. -/
def escapeChar (c : Char) : List Char :=
  if c = '"' then ['\\', '"']
  else if c = '\\' then ['\\', '\\']
  else if c.toNat = 8 then ['\\', 'b']
  else if c.toNat = 9 then ['\\', 't']
  else if c.toNat = 10 then ['\\', 'n']
  else if c.toNat = 12 then ['\\', 'f']
  else if c.toNat = 13 then ['\\', 'r']
  else if c.toNat < 32 then
    ['\\', 'u', '0', '0', hexDigit (c.toNat / 16), hexDigit c.toNat]
  else [c]

/-- `JSON.stringify` of a string. -/
def quote (s : String) : String :=
  "\"" ++ String.ofList (s.toList.flatMap escapeChar) ++ "\""

/-- The start of a line at a nesting level. -/
def margin (level : ℕ) : String :=
  String.ofList (List.replicate (2 * level) ' ')

/-- A container's entries, one a line, between its brackets. -/
def block (level : ℕ) (opening closing : String) (entries : List String) :
    String :=
  match entries with
  | [] => opening ++ closing
  | _ =>
    opening ++ "\n" ++
      ",\n".intercalate (entries.map fun e => margin (level + 1) ++ e) ++
      "\n" ++ margin level ++ closing

mutual

/-- A value, printed at a nesting level. -/
def render (level : ℕ) : Json → String
  | .null => "null"
  | .num text => text
  | .str text => quote text
  | .arr items => block level "[" "]" (renderItems (level + 1) items)
  | .obj fields =>
    block level "\x7b" "\x7d" (renderFields (level + 1) fields)

/-- The items of an array, each rendered a level deeper. -/
def renderItems (level : ℕ) : List Json → List String
  | [] => []
  | item :: items => render level item :: renderItems level items

/-- The fields of an object, each with its quoted key. -/
def renderFields (level : ℕ) : List (String × Json) → List String
  | [] => []
  | (key, value) :: fields =>
    (quote key ++ ": " ++ render level value) :: renderFields level fields

end

/-- `JSON.stringify(value, null, 2)`. -/
def stringify (value : Json) : String := render 0 value

example : stringify (.obj [("a", .arr [.num "1", .str "x\n"]), ("b", .arr [])])
    = "\x7b\n  \"a\": [\n    1,\n    \"x\\n\"\n  ],\n  \"b\": []\n\x7d" := by
  decide

/-! ## Reading a quoted string -/

/-- The value of a lower-case hexadecimal digit. -/
def unhex (c : Char) : ℕ :=
  if c.toNat < 97 then c.toNat - 48 else c.toNat - 87

/-- The string that is quoted from here to the next quotation mark, and what follows
it. -/
def readQuoted : List Char → Option (List Char × List Char)
  | [] => none
  | '"' :: rest => some ([], rest)
  | '\\' :: 'u' :: '0' :: '0' :: high :: low :: rest =>
    (readQuoted rest).map fun read =>
      (Char.ofNat (16 * unhex high + unhex low) :: read.1, read.2)
  | '\\' :: mark :: rest =>
    (readQuoted rest).map fun read =>
      ((match mark with
        | 'b' => Char.ofNat 8
        | 't' => '\t'
        | 'n' => '\n'
        | 'f' => Char.ofNat 12
        | 'r' => '\r'
        | mark => mark) :: read.1, read.2)
  | c :: rest => (readQuoted rest).map fun read => (c :: read.1, read.2)

/-- The string that a printed text quotes: none if it prints another kind of value. -/
def unquote (text : String) : Option String :=
  match text.toList with
  | '"' :: rest => (readQuoted rest).map fun read => String.ofList read.1
  | _ => none

theorem unhex_hexDigit {n : ℕ} (h : n < 32) :
    16 * unhex (hexDigit (n / 16)) + unhex (hexDigit n) = n := by
  have hall : ∀ n < 32, 16 * unhex (hexDigit (n / 16)) + unhex (hexDigit n) = n := by decide
  exact hall n h

/-- A character is read back from its escape. -/
theorem readQuoted_escapeChar (c : Char) (rest : List Char) :
    readQuoted (escapeChar c ++ rest)
      = (readQuoted rest).map fun read => (c :: read.1, read.2) := by
  have hof : ∀ {n : ℕ}, c.toNat = n → Char.ofNat n = c := fun h => by
    rw [← h, Char.ofNat_toNat]
  unfold escapeChar
  by_cases hquote : c = '"'
  · rw [if_pos hquote, hquote]
    rfl
  by_cases hback : c = '\\'
  · rw [if_neg hquote, if_pos hback, hback]
    rfl
  rw [if_neg hquote, if_neg hback]
  by_cases h8 : c.toNat = 8
  · rw [if_pos h8, ← hof h8]
    rfl
  by_cases h9 : c.toNat = 9
  · rw [if_neg h8, if_pos h9, ← hof h9]
    rfl
  by_cases h10 : c.toNat = 10
  · rw [if_neg h8, if_neg h9, if_pos h10, ← hof h10]
    rfl
  by_cases h12 : c.toNat = 12
  · rw [if_neg h8, if_neg h9, if_neg h10, if_pos h12, ← hof h12]
    rfl
  by_cases h13 : c.toNat = 13
  · rw [if_neg h8, if_neg h9, if_neg h10, if_neg h12, if_pos h13, ← hof h13]
    rfl
  rw [if_neg h8, if_neg h9, if_neg h10, if_neg h12, if_neg h13]
  by_cases h32 : c.toNat < 32
  · rw [if_pos h32]
    show (readQuoted rest).map _ = _
    rw [unhex_hexDigit h32, hof rfl]
  · rw [if_neg h32, List.singleton_append]
    conv_lhs => unfold readQuoted
    split
    · contradiction
    · exact absurd (List.cons.inj ‹_›).1 hquote
    · exact absurd (List.cons.inj ‹_›).1 hback
    · exact absurd (List.cons.inj ‹_›).1 hback
    · obtain ⟨rfl, rfl⟩ := List.cons.inj ‹c :: rest = _›
      rfl

/-- **What is quoted is read back**, whatever follows. -/
theorem readQuoted_append (cs rest : List Char) :
    readQuoted (cs.flatMap escapeChar ++ '"' :: rest) = some (cs, rest) := by
  induction cs with
  | nil => rfl
  | cons c cs ih =>
    rw [List.flatMap_cons, List.append_assoc, readQuoted_escapeChar, ih]
    rfl

theorem toList_quote (s : String) :
    (quote s).toList = '"' :: (s.toList.flatMap escapeChar ++ ['"']) := by
  unfold quote
  simp only [String.toList_append, String.toList_ofList, show "\"".toList = ['"'] by decide,
    List.cons_append, List.nil_append]

theorem unquote_quote (s : String) : unquote (quote s) = some s := by
  unfold unquote
  rw [toList_quote]
  show (readQuoted (s.toList.flatMap escapeChar ++ ['"'])).map _ = _
  rw [readQuoted_append, Option.map_some, String.ofList_toList]

/-! ## What a printed value shows -/

/-- A character that a quoted string shows as it is. -/
def IsPlain (c : Char) : Prop := escapeChar c = [c]

theorem isPlain_of_le {c : Char} (h : 45 ≤ c.toNat) (hback : c ≠ '\\') :
    IsPlain c := by
  unfold IsPlain escapeChar
  have hquote : c ≠ '"' := by
    rintro rfl
    revert h
    decide
  rw [if_neg hquote, if_neg hback, if_neg (by omega), if_neg (by omega),
    if_neg (by omega), if_neg (by omega), if_neg (by omega), if_neg (by omega)]

theorem quote_of_plain {s : String} (h : ∀ c ∈ s.toList, IsPlain c) :
    quote s = "\"" ++ s ++ "\"" := by
  unfold quote
  have hself : s.toList.flatMap escapeChar = s.toList := by
    rw [List.flatMap_congr (g := fun c => [c]) h]
    simp
  rw [hself, String.ofList_toList]

/-- A container shows each of its entries. -/
theorem includes_block {level : ℕ} {opening closing entry : String}
    {entries : List String} (h : entry ∈ entries) :
    Text.includes (block level opening closing entries) entry = true := by
  unfold block
  cases entries with
  | nil => cases h
  | cons first rest =>
    refine Text.includes_trans (Text.includes_append_right _ closing) ?_
    refine Text.includes_trans (Text.includes_append_right _ (margin level)) ?_
    refine Text.includes_trans (Text.includes_append_right _ "\n") ?_
    refine Text.includes_trans (Text.includes_append_left _ _) ?_
    refine Text.includes_trans (Text.includes_intercalate
      (List.mem_map_of_mem h)) ?_
    exact Text.includes_append_left _ _

theorem mem_renderFields {level : ℕ} {fields : List (String × Json)}
    {key : String} {value : Json} (h : (key, value) ∈ fields) :
    quote key ++ ": " ++ render level value ∈ renderFields level fields := by
  induction fields with
  | nil => cases h
  | cons field fields ih =>
    obtain ⟨name, first⟩ := field
    show _ ∈ (quote name ++ ": " ++ render level first) :: renderFields level fields
    obtain h | h := List.mem_cons.mp h
    · cases h
      exact List.mem_cons_self
    · exact List.mem_cons_of_mem _ (ih h)

/-- An object shows the values of its fields. -/
theorem includes_obj {level : ℕ} {fields : List (String × Json)} {key : String}
    {value : Json} (h : (key, value) ∈ fields) :
    Text.includes (render level (.obj fields)) (render (level + 1) value) = true :=
  Text.includes_trans (includes_block (mem_renderFields h))
    (Text.includes_append_left _ _)

end Json
