import Mathlib.Data.Rat.Defs

/-!
# Parsed JSON

What `JSON.parse` returns, and how a program reads it that trusts nothing:
every property may be missing and may have any type. Numbers are exact; a
literal too large for a double is parsed as infinity.
-/

/-- A value as `JSON.parse` makes it, with its fields in order. A number is a rational;
what is too large for a double is `infinite`. -/
inductive JsonValue where
  | null
  | bool (value : Bool)
  | num (value : ℚ)
  | infinite
  | str (text : String)
  | arr (items : List JsonValue)
  | obj (fields : List (String × JsonValue))

namespace JsonValue

/-- An object, and not an array. -/
def isRecord : JsonValue → Bool
  | .obj _ => true
  | _ => false

/-- `value.key`. Of properties of one name the last was kept. -/
def field (key : String) : JsonValue → Option JsonValue
  | .obj fields => (fields.reverse.find? fun entry => entry.1 == key).map (·.2)
  | _ => none

/-- `value.key`, when it is a string. -/
def text? (key : String) (value : JsonValue) : Option String :=
  match value.field key with
  | some (.str text) => some text
  | _ => none

/-- `value.key`, when it is a finite number. -/
def number? (key : String) (value : JsonValue) : Option ℚ :=
  match value.field key with
  | some (.num number) => some number
  | _ => none

/-- `value.key === true`. -/
def isTrue (key : String) (value : JsonValue) : Bool :=
  match value.field key with
  | some (.bool true) => true
  | _ => false

/-- `value.key`, when it is an object. -/
def record? (key : String) (value : JsonValue) : Option JsonValue :=
  (value.field key).filter isRecord

/-- `value.key`, when it is an array. -/
def items? (key : String) (value : JsonValue) : Option (List JsonValue) :=
  match value.field key with
  | some (.arr items) => some items
  | _ => none

end JsonValue
