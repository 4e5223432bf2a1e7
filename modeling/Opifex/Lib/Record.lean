import Mathlib.Data.List.Defs
import Mathlib.Tactic.SplitIfs

/-!
# An object literal as a lookup table

A JavaScript program that looks a key up in an object literal gets the entry
the literal holds, or what every object inherits under that key, or nothing.
The second answer is no entry of the table and has none of its values' types.

Only the inherited keys a lower-cased text can spell are listed: the others
have a capital letter in them.
-/

namespace Record

universe u v

variable {α : Type u} {β : Type v}

/-- What a lookup finds: an entry of the table, or what every object
inherits. -/
inductive Looked (α : Type u) where
  | own (value : α)
  | inherited (key : String)
deriving DecidableEq, Repr

/-- The value, where it is an entry of the table. -/
def Looked.own? : Looked α → Option α
  | .own value => some value
  | .inherited _ => none

/-- The lookup with its entries renamed. -/
def Looked.map (f : α → β) : Looked α → Looked β
  | .own value => .own (f value)
  | .inherited key => .inherited key

@[simp] theorem Looked.own?_map (f : α → β) (found : Looked α) :
    (found.map f).own? = found.own?.map f := by
  cases found <;> rfl

/-- What was found, written into a text: the object's constructor as its
source, an object as its tag. -/
def Looked.text : Looked String → String
  | .own value => value
  | .inherited key =>
    if key = "constructor" then "function Object() \x7b [native code] \x7d"
    else "[object Object]"

/-- The keys every object inherits and a lower-cased text can spell. -/
def inheritedKeys : List String := ["constructor", "__proto__"]

/-- `table[key]`, with none for `undefined`. -/
def lookUp (table : List (String × α)) (key : String) : Option (Looked α) :=
  match table.lookup key with
  | some value => some (.own value)
  | none => if inheritedKeys.contains key then some (.inherited key) else none

variable {table : List (String × α)} {key : String} {value : α}

theorem lookUp_eq_own :
    lookUp table key = some (.own value) ↔ table.lookup key = some value := by
  unfold lookUp
  cases table.lookup key with
  | some found => simp
  | none => split_ifs <;> simp

/-- A key that is not inherited is looked up in the table alone. -/
theorem lookUp_of_not_inherited (h : key ∉ inheritedKeys) :
    lookUp table key = (table.lookup key).map Looked.own := by
  unfold lookUp
  cases table.lookup key with
  | some found => rfl
  | none => exact if_neg (by simpa using h)

/-- An inherited key that the table does not hold is found all the same. -/
theorem lookUp_of_inherited (h : key ∈ inheritedKeys)
    (hnone : table.lookup key = none) :
    lookUp table key = some (.inherited key) := by
  unfold lookUp
  rw [hnone]
  exact if_pos (by simpa using h)

/-- A list of lookups that found entries only is a list of entries. -/
theorem exists_eq_map_own {found : List (Looked α)}
    (h : ∀ key, .inherited key ∉ found) :
    ∃ values : List α, found = values.map Looked.own := by
  induction found with
  | nil => exact ⟨[], rfl⟩
  | cons first found ih =>
    obtain ⟨values, rfl⟩ := ih fun key hkey =>
      h key (List.mem_cons_of_mem _ hkey)
    cases first with
    | own value => exact ⟨value :: values, rfl⟩
    | inherited key => exact absurd List.mem_cons_self (h key)

end Record
