import Mathlib.Data.List.DropRight
import Mathlib.Data.List.Forall2
import Opifex.Lib.DecimalText
import Opifex.Lib.Decoding
import Opifex.Lib.TextOrder
import Opifex.LivenessVerdicts
import Opifex.StreamJsonMapper

/-!
# Which tool calls have one signature

A signature digests the arguments of a call as JSON text with the keys of objects sorted.
Text that goes on is read in one way: a string ends at the first quotation mark that is not
escaped, a number at the first mark that no number is written with, and the parts of a list
or an object are kept apart by commas. So the text is that of one value only, up to the order
of keys (`canonicalJson_eq_iff`), but for one case: a number too large for a double is read
as infinite, and is printed like `null`.

The signature is the whole of what the loop check compares. Where the digest does not
collide, it takes two calls for one exactly when they are of one tool with one value of
arguments (`looping_detectLoop_iff`).
-/

/-! ## Values up to the order of keys -/

namespace JsonValue

/-- Values that are alike but for the order of the keys of their objects, at every depth;
`alike` is said of single values. -/
inductive UpToOrder (alike : JsonValue → JsonValue → Prop) : JsonValue → JsonValue → Prop
  | alike {value other : JsonValue} (h : alike value other) : UpToOrder alike value other
  | arr {items others : List JsonValue} (hlength : items.length = others.length)
      (hitems : ∀ (i : ℕ) (item other : JsonValue), items[i]? = some item →
        others[i]? = some other → UpToOrder alike item other) :
      UpToOrder alike (.arr items) (.arr others)
  | obj {fields others : List (String × JsonValue)}
      (hkeys : ∀ key, ((JsonValue.obj fields).field key).isSome
        = ((JsonValue.obj others).field key).isSome)
      (hfields : ∀ (key : String) (value other : JsonValue),
        (JsonValue.obj fields).field key = some value →
        (JsonValue.obj others).field key = some other → UpToOrder alike value other) :
      UpToOrder alike (.obj fields) (.obj others)

/-- `JSON.stringify` has no text for an infinite number. -/
def printsNull : JsonValue → Bool
  | .null | .infinite => true
  | _ => false

/-- One value, once an infinite number is read as `null`. -/
def PrintsAlike (value other : JsonValue) : Prop :=
  value = other ∨ value.printsNull = true ∧ other.printsNull = true

/-- A value that `JSON.parse` gives: its numbers are doubles, or infinite where a text
names a number beyond them. -/
inductive IsParsed : JsonValue → Prop
  | null : IsParsed .null
  | bool (value : Bool) : IsParsed (.bool value)
  | num {value : ℚ} (h : Double.IsDouble |value|) : IsParsed (.num value)
  | infinite : IsParsed .infinite
  | str (text : String) : IsParsed (.str text)
  | arr {items : List JsonValue} (h : ∀ item ∈ items, IsParsed item) : IsParsed (.arr items)
  | obj {fields : List (String × JsonValue)} (h : ∀ entry ∈ fields, IsParsed entry.2) :
      IsParsed (.obj fields)

end JsonValue

namespace Opifex

/-! ## The properties of an object -/

/-- Of properties of one name the last. -/
def lastEntries {α : Type*} (entries : List (String × α)) : List (String × α) :=
  entries.foldl (fun kept entry => kept.filter (fun other => other.1 != entry.1) ++ [entry]) []

section Entries

variable {α β : Type*} {entries : List (String × α)} {key : String} {value : α}

theorem keepLast_eq (entries : List (String × String)) :
    MapperEnv.keepLast entries = lastEntries entries := rfl

theorem lastEntries_concat (entry : String × α) :
    lastEntries (entries ++ [entry])
      = (lastEntries entries).filter (fun other => other.1 != entry.1) ++ [entry] :=
  List.foldl_concat ..

theorem mem_lastEntries : (key, value) ∈ lastEntries entries ↔
    (entries.reverse.find? fun entry => entry.1 == key).map (·.2) = some value := by
  induction entries using List.reverseRecOn with
  | nil => exact iff_of_false List.not_mem_nil (Option.some_ne_none value).symm
  | append_singleton entries entry ih =>
    rw [lastEntries_concat, List.mem_append, List.mem_filter, List.mem_singleton, ih,
      List.reverse_concat, List.find?_cons]
    by_cases hkey : entry.1 = key
    · simp [hkey, Prod.ext_iff, eq_comm]
    · rw [show (entry.1 == key) = false from beq_eq_false_iff_ne.mpr hkey]
      simp [Ne.symm hkey, Prod.ext_iff]

theorem nodup_lastEntries : ((lastEntries entries).map Prod.fst).Nodup := by
  induction entries using List.reverseRecOn with
  | nil => exact List.nodup_nil
  | append_singleton entries entry ih =>
    rw [lastEntries_concat, List.map_append, List.map_singleton]
    refine List.Nodup.append (ih.sublist (List.filter_sublist.map Prod.fst))
      (List.nodup_singleton _) ?_
    rw [List.disjoint_singleton]
    intro hmem
    obtain ⟨other, hother, hsame⟩ := List.mem_map.mp hmem
    simpa [hsame] using (List.mem_filter.mp hother).2

theorem lastEntries_map (f : α → β) :
    lastEntries (entries.map (Prod.map id f)) = (lastEntries entries).map (Prod.map id f) := by
  induction entries using List.reverseRecOn with
  | nil => rfl
  | append_singleton entries entry ih =>
    rw [List.map_append, List.map_singleton, lastEntries_concat, lastEntries_concat, ih,
      List.map_append, List.filter_map]
    rfl

/-- `Object.entries`, sorted. -/
def byKey (a b : String × α) : Ordering := Text.compareUnits a.1 b.1

instance : Std.TransCmp (@byKey α) where
  eq_swap := Text.compareUnits_swap
  isLE_trans {a _ c} hab hbc :=
    show (compare (Text.units a.1) (Text.units c.1)).isLE from Std.TransCmp.isLE_trans hab hbc

/-- The entries of an object, each key once with its last value, in the order of the
keys. -/
def sortedEntries (entries : List (String × α)) : List (String × α) :=
  Preference.rank byKey (lastEntries entries)

theorem mem_sortedEntries : (key, value) ∈ sortedEntries entries ↔
    (entries.reverse.find? fun entry => entry.1 == key).map (·.2) = some value :=
  Preference.mem_rank.trans mem_lastEntries

theorem sortedEntries_map (f : α → β) :
    sortedEntries (entries.map (Prod.map id f)) = (sortedEntries entries).map (Prod.map id f) := by
  unfold sortedEntries
  rw [lastEntries_map]
  exact Preference.map_rank _ fun _ _ => rfl

/-- Sorted, properties do not depend on the order they were in. -/
theorem sortedEntries_congr {others : List (String × α)}
    (h : ∀ key, (entries.reverse.find? fun entry => entry.1 == key).map (·.2)
      = (others.reverse.find? fun entry => entry.1 == key).map (·.2)) :
    sortedEntries entries = sortedEntries others := by
  refine Preference.rank_perm (Preference.separates_of_key nodup_lastEntries
    fun a b => Text.eq_of_compareUnits) ?_
  refine (List.perm_ext_iff_of_nodup nodup_lastEntries.of_map nodup_lastEntries.of_map).mpr ?_
  rintro ⟨key, value⟩
  rw [mem_lastEntries, mem_lastEntries, h]

theorem mem_of_mem_sortedEntries {entry : String × α} (h : entry ∈ sortedEntries entries) :
    entry ∈ entries := by
  obtain ⟨found, hfound, hvalue⟩ := Option.map_eq_some_iff.mp (mem_sortedEntries.mp h)
  have hkey : found.1 = entry.1 := by simpa using List.find?_some hfound
  rw [← Prod.ext hkey hvalue]
  exact List.mem_reverse.mp (List.mem_of_find?_eq_some hfound)

end Entries

/-! ## Texts -/

namespace MapperEnv

section Texts

variable {env : MapperEnv} {value other : JsonValue} {r s : List Char}

theorem canonicalItems_eq_map (env : MapperEnv) (items : List JsonValue) :
    env.canonicalItems items = items.map env.canonicalJson := by
  induction items with
  | nil => rfl
  | cons item items ih =>
    show env.canonicalJson item :: env.canonicalItems items = _
    rw [ih]
    rfl

theorem canonicalFields_eq_map (env : MapperEnv) (fields : List (String × JsonValue)) :
    env.canonicalFields fields = fields.map (Prod.map id env.canonicalJson) := by
  induction fields with
  | nil => rfl
  | cons entry fields ih =>
    obtain ⟨key, value⟩ := entry
    show (key, env.canonicalJson value) :: env.canonicalFields fields = _
    rw [ih]
    rfl

/-- The canonical text of a value, as characters. -/
def chars (env : MapperEnv) (value : JsonValue) : List Char := (env.canonicalJson value).toList

/-- A property, and its value. -/
def entryChars (env : MapperEnv) (entry : String × JsonValue) : List Char :=
  (Json.quote entry.1).toList ++ ':' :: env.chars entry.2

theorem chars_null : env.chars .null = ['n', 'u', 'l', 'l'] := by
  show "null".toList = _
  decide

theorem chars_infinite : env.chars .infinite = ['n', 'u', 'l', 'l'] := by
  show "null".toList = _
  decide

theorem chars_true : env.chars (.bool true) = ['t', 'r', 'u', 'e'] := by
  show "true".toList = _
  decide

theorem chars_false : env.chars (.bool false) = ['f', 'a', 'l', 's', 'e'] := by
  show "false".toList = _
  decide

theorem chars_arr (items : List JsonValue) :
    env.chars (.arr items) = '[' :: ([','].intercalate (items.map env.chars) ++ [']']) := by
  show ("[" ++ ",".intercalate (env.canonicalItems items) ++ "]").toList = _
  rw [canonicalItems_eq_map, String.toList_append, String.toList_append,
    Text.toList_intercalate, List.map_map]
  rfl

theorem chars_obj (fields : List (String × JsonValue)) :
    env.chars (.obj fields)
      = '\x7b' :: ([','].intercalate ((sortedEntries fields).map env.entryChars) ++ ['\x7d']) := by
  unfold chars
  have hsorted : Preference.rank (fun a b => Text.compareUnits a.1 b.1)
      (keepLast (env.canonicalFields fields))
      = (sortedEntries fields).map (Prod.map id env.canonicalJson) := by
    rw [canonicalFields_eq_map, keepLast_eq, ← sortedEntries_map]
    rfl
  have hentry : (String.toList ∘ fun entry : String × String =>
      Json.quote entry.1 ++ ":" ++ entry.2) ∘ Prod.map id env.canonicalJson = env.entryChars := by
    funext entry
    show (Json.quote entry.1 ++ ":" ++ env.canonicalJson entry.2).toList = _
    rw [String.toList_append, String.toList_append, List.append_assoc]
    rfl
  rw [canonicalJson]
  dsimp only
  rw [hsorted, String.toList_append, String.toList_append, Text.toList_intercalate,
    List.map_map, List.map_map, ← hentry]
  rfl

theorem field_map (f : JsonValue → String) (fields : List (String × JsonValue)) (key : String) :
    (((fields.map (Prod.map id f)).reverse.find? fun entry => entry.1 == key).map (·.2))
      = ((JsonValue.obj fields).field key).map f := by
  unfold JsonValue.field
  rw [← List.map_reverse, List.find?_map, Option.map_map, Option.map_map]
  rfl

/-- What may follow a value in a text. -/
def Ends (r : List Char) : Prop := ∀ c cs, r = c :: cs → c = ',' ∨ c = ']' ∨ c = '\x7d'

theorem ends_cons {c : Char} (h : c = ',' ∨ c = ']' ∨ c = '\x7d') (r : List Char) :
    Ends (c :: r) := by
  intro first rest hcons
  rwa [← (List.cons.inj hcons).1]

/-- The kinds of value that a text tells apart by its first character. -/
def kind : JsonValue → ℕ
  | .null | .infinite => 0
  | .bool _ => 1
  | .num _ => 2
  | .str _ => 3
  | .arr _ => 4
  | .obj _ => 5

/-- What the first character of a canonical text says of the value it is the text of. -/
def kindOfChar (c : Char) : ℕ :=
  if c = 'n' then 0
  else if c = 't' ∨ c = 'f' then 1
  else if c = '"' then 3
  else if c = '[' then 4
  else if c = '\x7b' then 5
  else if c = ']' then 6
  else 2

theorem kind_lt (value : JsonValue) : kind value < 6 := by
  unfold kind
  split <;> decide

theorem kindOfChar_of_isNumberChar {c : Char} (h : Double.isNumberChar c = true) :
    kindOfChar c = 2 := by
  have hne : ∀ mark, Double.isNumberChar mark = false → c ≠ mark := by
    rintro mark hmark rfl
    rw [h] at hmark
    contradiction
  unfold kindOfChar
  rw [if_neg (hne _ (by decide)), if_neg (not_or.mpr ⟨hne _ (by decide), hne _ (by decide)⟩),
    if_neg (hne _ (by decide)), if_neg (hne _ (by decide)), if_neg (hne _ (by decide)),
    if_neg (hne _ (by decide))]

theorem exists_chars_eq_cons (hnumber : env.numberText = Double.toText) (value : JsonValue) :
    ∃ c cs, env.chars value = c :: cs ∧ kindOfChar c = kind value := by
  cases value with
  | null => exact ⟨'n', _, chars_null, rfl⟩
  | infinite => exact ⟨'n', _, chars_infinite, rfl⟩
  | bool value =>
    cases value with
    | true => exact ⟨'t', _, chars_true, rfl⟩
    | false => exact ⟨'f', _, chars_false, rfl⟩
  | num value =>
    have htext : env.chars (.num value) = (Double.toText value).toList := by
      rw [← hnumber]
      rfl
    obtain ⟨hne, hall⟩ := Double.toText_chars value
    obtain ⟨c, cs, hcons⟩ := List.exists_cons_of_ne_nil hne
    exact ⟨c, cs, htext.trans hcons,
      kindOfChar_of_isNumberChar (hall c (hcons ▸ List.mem_cons_self))⟩
  | str text => exact ⟨'"', _, Json.toList_quote text, rfl⟩
  | arr items => exact ⟨'[', _, chars_arr items, rfl⟩
  | obj fields => exact ⟨'\x7b', _, chars_obj fields, rfl⟩

/-- Texts that begin alike are of values of one kind. -/
theorem kind_eq_of_chars (hnumber : env.numberText = Double.toText)
    (h : env.chars value ++ r = env.chars other ++ s) : kind value = kind other := by
  obtain ⟨c, cs, hcons, hkind⟩ := exists_chars_eq_cons hnumber value
  obtain ⟨d, ds, hcons', hkind'⟩ := exists_chars_eq_cons hnumber other
  rw [hcons, hcons'] at h
  rw [← hkind, ← hkind', (List.cons.inj h).1]

/-- A string is known from its text. -/
theorem quote_append_inj {text text' : String}
    (h : (Json.quote text).toList ++ r = (Json.quote text').toList ++ s) :
    text = text' ∧ r = s := by
  rw [Json.toList_quote, Json.toList_quote, List.cons_append, List.cons_append,
    List.append_assoc, List.append_assoc] at h
  have hread := congrArg Json.readQuoted (List.cons.inj h).2
  rw [List.singleton_append, List.singleton_append, Json.readQuoted_append,
    Json.readQuoted_append] at hread
  obtain ⟨htext, hrest⟩ := Prod.mk.inj (Option.some.inj hread)
  exact ⟨String.toList_inj.mp htext, hrest⟩

/-- Objects that have the same properties with values alike. -/
theorem upToOrder_obj {alike : JsonValue → JsonValue → Prop}
    {fields others : List (String × JsonValue)}
    (h : List.Forall₂ (fun entry other => entry.1 = other.1
        ∧ JsonValue.UpToOrder alike entry.2 other.2)
      (sortedEntries fields) (sortedEntries others)) :
    JsonValue.UpToOrder alike (.obj fields) (.obj others) := by
  have hleft : ∀ key value, (JsonValue.obj fields).field key = some value →
      ∃ other, (JsonValue.obj others).field key = some other
        ∧ JsonValue.UpToOrder alike value other := by
    intro key value hvalue
    obtain ⟨⟨name, other⟩, hmem, rfl, halike⟩ :=
      Decoding.exists_mem_of_forall₂ h (mem_sortedEntries.mpr hvalue)
    exact ⟨other, mem_sortedEntries.mp hmem, halike⟩
  have hright : ∀ key other, (JsonValue.obj others).field key = some other →
      ∃ value, (JsonValue.obj fields).field key = some value := by
    intro key other hother
    obtain ⟨⟨name, value⟩, hmem, hname, -⟩ :=
      Decoding.exists_mem_of_forall₂ h.flip (mem_sortedEntries.mpr hother)
    obtain rfl : name = key := hname
    exact ⟨value, mem_sortedEntries.mp hmem⟩
  refine .obj (fun key => ?_) fun key value other hvalue hother => ?_
  · rw [Bool.eq_iff_iff, Option.isSome_iff_exists, Option.isSome_iff_exists]
    constructor
    · rintro ⟨value, hvalue⟩
      obtain ⟨other, hother, -⟩ := hleft key value hvalue
      exact ⟨other, hother⟩
    · rintro ⟨other, hother⟩
      exact hright key other hother
  · obtain ⟨found, hfound, halike⟩ := hleft key value hvalue
    rw [hother] at hfound
    rwa [Option.some.inj hfound]

/-- **A value is known from its text**, up to the order of keys and with an infinite number
read as `null`. -/
theorem decodes_chars (hnumber : env.numberText = Double.toText) (h : value.IsParsed) :
    Decoding.Decodes Ends env.chars JsonValue.IsParsed
      (JsonValue.UpToOrder JsonValue.PrintsAlike) value := by
  have hcomma : ∀ r, Ends (',' :: r) := ends_cons (Or.inl rfl)
  have hbracket : ∀ r, Ends (']' :: r) := ends_cons (Or.inr (Or.inl rfl))
  have hbrace : ∀ r, Ends ('\x7d' :: r) := ends_cons (Or.inr (Or.inr rfl))
  induction h with
  | null =>
    intro other hother r s _ _ heq
    have hkind := kind_eq_of_chars hnumber heq
    cases hother with
    | null => exact ⟨.alike (Or.inl rfl), List.append_cancel_left heq⟩
    | infinite => exact ⟨.alike (Or.inr ⟨rfl, rfl⟩), List.append_cancel_left heq⟩
    | _ => simp [kind] at hkind
  | infinite =>
    intro other hother r s _ _ heq
    have hkind := kind_eq_of_chars hnumber heq
    cases hother with
    | null => exact ⟨.alike (Or.inr ⟨rfl, rfl⟩), List.append_cancel_left heq⟩
    | infinite => exact ⟨.alike (Or.inl rfl), List.append_cancel_left heq⟩
    | _ => simp [kind] at hkind
  | bool value =>
    intro other hother r s _ _ heq
    have hkind := kind_eq_of_chars hnumber heq
    cases hother with
    | bool other =>
      by_cases hsame : value = other
      · subst hsame
        exact ⟨.alike (Or.inl rfl), List.append_cancel_left heq⟩
      · cases value with
        | true =>
          cases other with
          | true => exact absurd rfl hsame
          | false =>
            rw [chars_true, chars_false] at heq
            exact absurd (List.cons.inj heq).1 (by decide)
        | false =>
          cases other with
          | true =>
            rw [chars_true, chars_false] at heq
            exact absurd (List.cons.inj heq).1 (by decide)
          | false => exact absurd rfl hsame
    | _ => simp [kind] at hkind
  | @num value hdouble =>
    intro other hother r s hr hs heq
    have hkind := kind_eq_of_chars hnumber heq
    cases hother with
    | @num other hdouble' =>
      have htext : ∀ value, env.chars (.num value) = (Double.toText value).toList := by
        intro value
        rw [← hnumber]
        rfl
      have hstop : ∀ {r}, Ends r → ∀ c cs, r = c :: cs → Double.isNumberChar c = false := by
        intro r hr c cs hcons
        obtain rfl | rfl | rfl := hr c cs hcons
        · decide
        · decide
        · decide
      rw [htext, htext] at heq
      obtain ⟨hsame, hrest⟩ := Decoding.append_inj_of_stop (Double.toText_chars value).2
        (Double.toText_chars other).2 (hstop hr) (hstop hs) heq
      rw [Double.toText_inj hdouble hdouble' (String.toList_inj.mp hsame)]
      exact ⟨.alike (Or.inl rfl), hrest⟩
    | _ => simp [kind] at hkind
  | str text =>
    intro other hother r s _ _ heq
    have hkind := kind_eq_of_chars hnumber heq
    cases hother with
    | str other =>
      obtain ⟨rfl, hrest⟩ := quote_append_inj heq
      exact ⟨.alike (Or.inl rfl), hrest⟩
    | _ => simp [kind] at hkind
  | @arr items _ ih =>
    intro other hother r s _ _ heq
    have hkind := kind_eq_of_chars hnumber heq
    cases hother with
    | @arr others hothers =>
      rw [chars_arr, chars_arr, List.cons_append, List.cons_append, List.append_assoc,
        List.append_assoc] at heq
      have hstart : ∀ value : JsonValue, ∃ c cs, env.chars value = c :: cs ∧ c ≠ ']' := by
        intro value
        obtain ⟨c, cs, hcons, hkind⟩ := exists_chars_eq_cons hnumber value
        refine ⟨c, cs, hcons, ?_⟩
        rintro rfl
        exact (kind_lt value).ne hkind.symm
      obtain ⟨hall, hrest⟩ := Decoding.forall₂_of_intercalate hcomma hbracket (by decide) hstart
        items ih others hothers r s (List.cons.inj heq).2
      refine ⟨.arr hall.length_eq fun i item other hitem hother => ?_, hrest⟩
      obtain ⟨hi, rfl⟩ := List.getElem?_eq_some_iff.mp hitem
      obtain ⟨hi', rfl⟩ := List.getElem?_eq_some_iff.mp hother
      exact (List.forall₂_iff_get.mp hall).2 i hi hi'
    | _ => simp [kind] at hkind
  | @obj fields _ ih =>
    intro other hother r s _ _ heq
    have hkind := kind_eq_of_chars hnumber heq
    cases hother with
    | @obj others hothers =>
      rw [chars_obj, chars_obj, List.cons_append, List.cons_append, List.append_assoc,
        List.append_assoc] at heq
      have hstart : ∀ entry : String × JsonValue,
          ∃ c cs, env.entryChars entry = c :: cs ∧ c ≠ '\x7d' := by
        intro entry
        unfold entryChars
        rw [Json.toList_quote]
        exact ⟨'"', _, rfl, by decide⟩
      have hentries : ∀ entry ∈ sortedEntries fields, Decoding.Decodes Ends env.entryChars
          (fun entry => entry.2.IsParsed) (fun entry other => entry.1 = other.1
            ∧ JsonValue.UpToOrder JsonValue.PrintsAlike entry.2 other.2) entry := by
        intro entry hentry other hother r s hr hs hsame
        unfold entryChars at hsame
        rw [List.append_assoc, List.append_assoc] at hsame
        obtain ⟨hkey, hvalue⟩ := quote_append_inj hsame
        obtain ⟨halike, hrest⟩ := ih entry (mem_of_mem_sortedEntries hentry) other.2 hother r s
          hr hs (List.cons.inj hvalue).2
        exact ⟨⟨hkey, halike⟩, hrest⟩
      obtain ⟨hall, hrest⟩ := Decoding.forall₂_of_intercalate hcomma hbrace (by decide) hstart
        (sortedEntries fields) hentries (sortedEntries others)
        (fun entry hentry => hothers entry (mem_of_mem_sortedEntries hentry)) r s
        (List.cons.inj heq).2
      exact ⟨upToOrder_obj hall, hrest⟩
    | _ => simp [kind] at hkind

/-- Values that are alike have one text. -/
theorem canonicalJson_congr
    (h : JsonValue.UpToOrder JsonValue.PrintsAlike value other) :
    env.canonicalJson value = env.canonicalJson other := by
  induction h with
  | @alike value other h =>
    obtain rfl | ⟨hvalue, hother⟩ := h
    · rfl
    have hnull : ∀ value : JsonValue, value.printsNull = true →
        env.canonicalJson value = "null" := by
      intro value hvalue
      cases value with
      | null => rw [canonicalJson]
      | infinite => rw [canonicalJson]
      | _ => exact absurd hvalue Bool.false_ne_true
    rw [hnull value hvalue, hnull other hother]
  | @arr items others hlength _ ih =>
    have hitems : items.map env.canonicalJson = others.map env.canonicalJson := by
      refine List.ext_getElem? fun i => ?_
      rw [List.getElem?_map, List.getElem?_map]
      cases hitem : items[i]? with
      | none =>
        rw [List.getElem?_eq_none (hlength ▸ List.getElem?_eq_none_iff.mp hitem)]
      | some item =>
        obtain ⟨hi, -⟩ := List.getElem?_eq_some_iff.mp hitem
        have hother := List.getElem?_eq_getElem (hlength ▸ hi)
        rw [hother, Option.map_some, Option.map_some, ih i item _ hitem hother]
    rw [canonicalJson, canonicalJson, canonicalItems_eq_map, canonicalItems_eq_map, hitems]
  | @obj fields others hkeys _ ih =>
    have hsorted : sortedEntries (fields.map (Prod.map id env.canonicalJson))
        = sortedEntries (others.map (Prod.map id env.canonicalJson)) := by
      refine sortedEntries_congr fun key => ?_
      rw [field_map, field_map]
      cases hvalue : (JsonValue.obj fields).field key with
      | none =>
        have hnone := hkeys key
        rw [hvalue] at hnone
        rw [Option.isNone_iff_eq_none.mp (Option.isSome_eq_false_iff.mp hnone.symm)]
      | some value =>
        have hsome := hkeys key
        rw [hvalue] at hsome
        obtain ⟨other, hother⟩ := Option.isSome_iff_exists.mp hsome.symm
        rw [hother, Option.map_some, Option.map_some, ih key value other hvalue hother]
    rw [canonicalJson, canonicalJson, canonicalFields_eq_map, canonicalFields_eq_map]
    exact congrArg (fun entries : List (String × String) =>
      "\x7b" ++ ",".intercalate (entries.map fun entry => Json.quote entry.1 ++ ":" ++ entry.2)
        ++ "\x7d") hsorted

end Texts

/-- The platform: numbers are printed as doubles. -/
def platform (readDate : String → Option Instant) (sha256Hex : String → String) : MapperEnv where
  readDate := readDate
  numberText := Double.toText
  sha256Hex := sha256Hex

/-- **Two values have one text exactly when they are alike** up to the order of keys. -/
theorem canonicalJson_eq_iff (readDate : String → Option Instant) (sha256Hex : String → String)
    {value other : JsonValue} (hvalue : value.IsParsed) (hother : other.IsParsed) :
    (platform readDate sha256Hex).canonicalJson value
        = (platform readDate sha256Hex).canonicalJson other
      ↔ value.UpToOrder JsonValue.PrintsAlike other := by
  refine ⟨fun h => ?_, canonicalJson_congr⟩
  have hnil : Ends [] := fun c cs hcons => absurd hcons (List.cons_ne_nil c cs).symm
  exact (decodes_chars rfl hvalue other hother [] [] hnil hnil
    (congrArg (fun text => String.toList text ++ []) h)).1

end MapperEnv

/-! ## The loop check -/

theorem le_length_takeWhile {α : Type*} (p : α → Bool) (k : ℕ) (l : List α) :
    k ≤ (l.takeWhile p).length ↔ k ≤ l.length ∧ ∀ x ∈ l.take k, p x = true := by
  induction k generalizing l with
  | zero => simp
  | succ k ih =>
    cases l with
    | nil => simp
    | cons first rest =>
      by_cases hfirst : p first = true
      · simp [hfirst, ih]
      · simp [hfirst]

/-- It loops when the signature of the newest observation is repeated often enough. -/
theorem looping_iff_streak {observations : List ToolObservation} :
    (detectLoop (some .full) observations).looping = true ↔
      defaultLoopRepeats ≤ (streak (observations.reverse.take defaultLoopWindow)).length := by
  have hrecent : (observations.drop (observations.length - defaultLoopWindow)).reverse
      = observations.reverse.take defaultLoopWindow := by
    have hrtake := @List.rtake_eq_reverse_take_reverse _ observations defaultLoopWindow
    rw [← List.reverse_reverse (observations.reverse.take defaultLoopWindow), ← hrtake]
    rfl
  have hle : ∀ l : List ToolObservation, (streak l).length ≤ l.length := by
    intro l
    cases l with
    | nil => exact le_rfl
    | cons newest older => exact Nat.succ_le_succ (List.takeWhile_prefix _).length_le
  have hlength := congrArg List.length hrecent
  rw [List.length_reverse] at hlength
  unfold detectLoop
  rw [if_neg (not_not.mpr rfl)]
  dsimp only
  rw [hrecent, hlength]
  by_cases hfew : (observations.reverse.take defaultLoopWindow).length < defaultLoopRepeats
  · rw [if_pos hfew]
    exact iff_of_false Bool.false_ne_true fun h =>
      absurd (h.trans (hle _)) (not_le.mpr hfew)
  rw [if_neg hfew]
  by_cases hshort :
      (streak (observations.reverse.take defaultLoopWindow)).length < defaultLoopRepeats
  · rw [if_pos hshort]
    exact iff_of_false Bool.false_ne_true (not_le.mpr hshort)
  · rw [if_neg hshort]
    exact iff_of_true rfl (not_lt.mp hshort)

/-- The newest observations are one signature, one after the other. -/
theorem looping_detectLoop {observations : List ToolObservation} :
    (detectLoop (some .full) observations).looping = true ↔
      defaultLoopRepeats ≤ observations.length
        ∧ ∀ newer ∈ observations.rtake defaultLoopRepeats,
          ∀ older ∈ observations.rtake defaultLoopRepeats,
            newer.signature = older.signature := by
  rw [looping_iff_streak, List.rtake_eq_reverse_take_reverse,
    ← @List.length_reverse _ observations]
  simp only [List.mem_reverse]
  cases observations.reverse with
  | nil => exact iff_of_false (by decide) fun h => absurd h.1 (by decide)
  | cons newest older =>
    show 5 + 1 ≤ ((older.take 39).takeWhile _).length + 1 ↔ 5 + 1 ≤ older.length + 1 ∧ _
    rw [Nat.add_le_add_iff_right, Nat.add_le_add_iff_right, le_length_takeWhile, List.take_take,
      List.length_take, le_min_iff]
    show (5 ≤ 39 ∧ 5 ≤ older.length) ∧ (∀ other ∈ older.take 5,
      (other.signature == newest.signature) = true) ↔ 5 ≤ older.length ∧
        ∀ newer ∈ newest :: older.take 5, ∀ other ∈ newest :: older.take 5,
          newer.signature = other.signature
    constructor
    · rintro ⟨⟨-, hlong⟩, hall⟩
      have hsame : ∀ other ∈ newest :: older.take 5, other.signature = newest.signature := by
        intro other hother
        obtain rfl | hother := List.mem_cons.mp hother
        · rfl
        · exact beq_iff_eq.mp (hall other hother)
      exact ⟨hlong, fun newer hnewer other hother =>
        (hsame newer hnewer).trans (hsame other hother).symm⟩
    · rintro ⟨hlong, hall⟩
      exact ⟨⟨by decide, hlong⟩, fun other hother => beq_iff_eq.mpr
        (hall other (List.mem_cons_of_mem _ hother) newest List.mem_cons_self)⟩

/-- A call of a tool that a run has reported, with its arguments if it has any. -/
structure ToolCall where
  name : String
  input : Option JsonValue
  occurredAt : Instant

namespace ToolCall

/-- `undefined` is printed as `null`. -/
def arguments (call : ToolCall) : JsonValue := call.input.getD .null

/-- What the loop check is given of a call. -/
def observation (env : MapperEnv) (call : ToolCall) : ToolObservation where
  signature := call.name ++ ":" ++ env.toolSignature call.input
  occurredAt := call.occurredAt

section Signatures

variable {readDate : String → Option Instant} {sha256Hex : String → String}
variable {call other : ToolCall}

/-- Where the digest does not collide, a signature is of one tool and one value. -/
theorem signature_eq_iff (hhex : ∀ text, (sha256Hex text).toList.length = 64)
    (hcall : call.arguments.IsParsed) (hother : other.arguments.IsParsed)
    (hdigest : (MapperEnv.platform readDate sha256Hex).toolSignature call.input
        = (MapperEnv.platform readDate sha256Hex).toolSignature other.input →
      (MapperEnv.platform readDate sha256Hex).canonicalJson call.arguments
        = (MapperEnv.platform readDate sha256Hex).canonicalJson other.arguments) :
    (call.observation (MapperEnv.platform readDate sha256Hex)).signature
        = (other.observation (MapperEnv.platform readDate sha256Hex)).signature
      ↔ call.name = other.name
        ∧ call.arguments.UpToOrder JsonValue.PrintsAlike other.arguments := by
  have hlength : ∀ input, ((MapperEnv.platform readDate sha256Hex).toolSignature
      input).toList.length = 32 := by
    intro input
    unfold MapperEnv.toolSignature
    rw [String.toList_ofList, List.length_take]
    exact min_eq_left (le_of_le_of_eq (by decide) (hhex _).symm)
  rw [← MapperEnv.canonicalJson_eq_iff readDate sha256Hex hcall hother]
  constructor
  · intro h
    have hchars := congrArg String.toList h
    unfold observation at hchars
    dsimp only at hchars
    rw [String.toList_append, String.toList_append, String.toList_append, String.toList_append]
      at hchars
    -- both digests are of one length, so the marks before them are at one place
    obtain ⟨hstart, hend⟩ := List.append_inj' hchars
      ((hlength call.input).trans (hlength other.input).symm)
    exact ⟨String.toList_inj.mp (List.append_cancel_right hstart),
      hdigest (String.toList_inj.mp hend)⟩
  · rintro ⟨hname, htext⟩
    unfold observation MapperEnv.toolSignature
    dsimp only
    rw [hname]
    exact congrArg (fun text => other.name ++ ":" ++ String.ofList
      ((sha256Hex text).toList.take 32)) htext

end Signatures

/-- **Two calls are one to the loop check exactly when tool and arguments are the same**, up
to the order of keys and but for infinite numbers, where the digest does not collide on
them. -/
theorem signatures_exact (readDate : String → Option Instant) (sha256Hex : String → String)
    (calls : List ToolCall) (hparsed : ∀ call ∈ calls, call.arguments.IsParsed)
    (hhex : ∀ text, (sha256Hex text).toList.length = 64)
    (hdigest : ∀ call ∈ calls, ∀ other ∈ calls,
      (MapperEnv.platform readDate sha256Hex).toolSignature call.input
        = (MapperEnv.platform readDate sha256Hex).toolSignature other.input →
      (MapperEnv.platform readDate sha256Hex).canonicalJson call.arguments
        = (MapperEnv.platform readDate sha256Hex).canonicalJson other.arguments) :
    (∀ value other : JsonValue, value.IsParsed → other.IsParsed →
      ((MapperEnv.platform readDate sha256Hex).canonicalJson value
          = (MapperEnv.platform readDate sha256Hex).canonicalJson other
        ↔ value.UpToOrder JsonValue.PrintsAlike other))
      ∧ (∀ call ∈ calls, ∀ other ∈ calls,
        ((call.observation (MapperEnv.platform readDate sha256Hex)).signature
            = (other.observation (MapperEnv.platform readDate sha256Hex)).signature
          ↔ call.name = other.name
            ∧ call.arguments.UpToOrder JsonValue.PrintsAlike other.arguments))
      ∧ ((detectLoop (some .full)
            (calls.map (observation (MapperEnv.platform readDate sha256Hex)))).looping = true
        ↔ defaultLoopRepeats ≤ calls.length
          ∧ ∀ newer ∈ calls.rtake defaultLoopRepeats, ∀ older ∈ calls.rtake defaultLoopRepeats,
            newer.name = older.name
              ∧ newer.arguments.UpToOrder JsonValue.PrintsAlike older.arguments) := by
  have hsignature : ∀ call ∈ calls, ∀ other ∈ calls,
      ((call.observation (MapperEnv.platform readDate sha256Hex)).signature
          = (other.observation (MapperEnv.platform readDate sha256Hex)).signature
        ↔ call.name = other.name
          ∧ call.arguments.UpToOrder JsonValue.PrintsAlike other.arguments) :=
    fun call hcall other hother => signature_eq_iff hhex (hparsed call hcall)
      (hparsed other hother) (hdigest call hcall other hother)
  refine ⟨fun _ _ => MapperEnv.canonicalJson_eq_iff readDate sha256Hex, hsignature, ?_⟩
  have hrtake : (calls.map (observation (MapperEnv.platform readDate sha256Hex))).rtake
      defaultLoopRepeats
      = (calls.rtake defaultLoopRepeats).map
        (observation (MapperEnv.platform readDate sha256Hex)) := by
    unfold List.rtake
    rw [List.length_map, List.map_drop]
  have hmem : ∀ call ∈ calls.rtake defaultLoopRepeats, call ∈ calls := fun _ hcall =>
    List.mem_of_mem_drop hcall
  rw [looping_detectLoop, hrtake, List.length_map]
  refine and_congr_right fun _ => ?_
  simp only [List.forall_mem_map]
  exact forall₂_congr fun newer hnewer => forall₂_congr fun older holder =>
    hsignature newer (hmem newer hnewer) older (hmem older holder)

/-- The digests of two texts. -/
def sampleDigest (text : String) : String :=
  if text = "\x7b\x7d" then "44136fa355b3678a1146ad16f7e8649e94fb4fc21fe77e8310c060f61caaff8a"
  else "74234e98afe7498fb5daf1f36ac2d78acc339464f950703b8c019892f982b90b"

/-- A call without arguments, and then six with empty ones. -/
def sampleCalls : List ToolCall :=
  ⟨"Bash", none, 0⟩ :: List.replicate 6 ⟨"Bash", some (.obj []), 0⟩

theorem signatures_exact_sample :
    (detectLoop (some .full) (sampleCalls.map
      (observation (MapperEnv.platform (fun _ => none) sampleDigest)))).looping = true := by
  have hcases : ∀ call ∈ sampleCalls, call.arguments = .null ∧ call.input = none
      ∨ call.arguments = .obj [] ∧ call.input = some (.obj []) := by
    intro call hcall
    obtain rfl | hcall := List.mem_cons.mp hcall
    · exact Or.inl ⟨rfl, rfl⟩
    · rw [(List.mem_replicate.mp hcall).2]
      exact Or.inr ⟨rfl, rfl⟩
  refine (signatures_exact (fun _ => none) sampleDigest sampleCalls (fun call hcall => ?_)
    (fun text => ?_) (fun call hcall other hother h => ?_)).2.2.mpr ⟨by decide, ?_⟩
  · obtain ⟨hnull, -⟩ | ⟨hobj, -⟩ := hcases call hcall
    · rw [hnull]
      exact .null
    · rw [hobj]
      exact .obj fun entry hentry => absurd hentry List.not_mem_nil
  · unfold sampleDigest
    split_ifs
    · decide
    · decide
  · obtain ⟨hargs, hinput⟩ | ⟨hargs, hinput⟩ := hcases call hcall
    · obtain ⟨hargs', hinput'⟩ | ⟨hargs', hinput'⟩ := hcases other hother
      · rw [hargs, hargs']
      · rw [hinput, hinput'] at h
        exact absurd h (by decide)
    · obtain ⟨hargs', hinput'⟩ | ⟨hargs', hinput'⟩ := hcases other hother
      · rw [hinput, hinput'] at h
        exact absurd h (by decide)
      · rw [hargs, hargs']
  · intro newer hnewer older holder
    have hsame : ∀ call ∈ sampleCalls.rtake defaultLoopRepeats,
        call = ⟨"Bash", some (.obj []), 0⟩ := by
      intro call hcall
      exact (List.mem_replicate.mp (show call ∈ List.replicate 6 _ from hcall)).2
    rw [hsame newer hnewer, hsame older holder]
    exact ⟨rfl, .alike (Or.inl rfl)⟩

/-- An infinite number is printed as `null`, and is not alike. -/
theorem infinite_printed_as_null :
    (MapperEnv.platform (fun _ => none) sampleDigest).canonicalJson .infinite
        = (MapperEnv.platform (fun _ => none) sampleDigest).canonicalJson .null
      ∧ JsonValue.IsParsed .infinite ∧ JsonValue.IsParsed .null
      ∧ ¬ JsonValue.UpToOrder (· = ·) .infinite .null := by
  refine ⟨?_, .infinite, .null, fun h => ?_⟩
  · rw [MapperEnv.canonicalJson, MapperEnv.canonicalJson]
  · cases h with
    | alike hsame => cases hsame

end ToolCall

end Opifex
