import Opifex.Lib.Text

/-!
# What an audit row shows of a document

Before a document is written to the audit log, each field with a secret name is
masked, whatever it holds, and what is nested more than ten levels deep is cut off.
A name is secret by a fragment of it or by a registered key, and it is compared with
the keys **by itself**: of the registered `github.appId` the field `github.appId` is
masked, but not the field `appId` of `github`.

Two documents that differ in secrets are told apart by their rows exactly when a
difference is not under a field whose own name is secret, and not cut off
(`redacts_iff_hidden`).
-/

namespace Opifex

/-- The UTF-16 code units of a text. -/
def codeUnits (text : String) : List UInt16 :=
  (text.toList.flatMap Text.unitsOf).map Nat.toUInt16

/-- What a document is made of. A string is its code units; what is neither a string
nor an array nor a plain record is a leaf. -/
inductive MetaValue (Leaf : Type) where
  | leaf (value : Leaf)
  | str (units : List UInt16)
  | arr (items : List (MetaValue Leaf))
  | obj (fields : List (String × MetaValue Leaf))

variable {Leaf : Type}

/-! ## Masking -/

/-- How many of the last characters of a secret are shown. -/
def revealedSuffixLength : ℕ := 4

/-- How long a secret must be for any of it to be shown. -/
def minLengthForSuffix : ℕ := 16

/-- The fixed-width mask. -/
def mask : List UInt16 := codeUnits "********"

/-- `maskSecret` of a string. -/
def maskSecret (value : List UInt16) : List UInt16 :=
  if value.length < minLengthForSuffix then mask
  else mask ++ value.drop (value.length - revealedSuffixLength)

/-- A secret that is no string is masked rather than dropped. -/
def maskSecretValue : MetaValue Leaf → List UInt16
  | .str value => maskSecret value
  | _ => mask

/-! ## Secret names -/

/-- What a field name may contain to count as secret, after it has been normalised. -/
def secretNameFragments : List String :=
  ["secret", "token", "password", "passwd", "passphrase", "credential", "apikey",
    "privatekey", "signingkey", "encryptionkey", "accesskey", "authorization",
    "ciphertext", "encrypted"]

/-- A field name in lower case, without the marks that spellings differ in. -/
def normaliseFieldName (name : String) : String :=
  String.ofList ((Text.toLowerCase name).toList.filter fun c =>
    !(c == '-' || c == '_' || c == '.' || Text.isSpace c))

/-- A secret fragment occurs in the name. -/
def hasSecretFragment (name : String) : Bool :=
  secretNameFragments.any fun part => Text.includes (normaliseFieldName name) part

/-- The extra set is of normalised keys. -/
def isSecretFieldName (extraSecretKeys : List String) (name : String) : Bool :=
  extraSecretKeys.contains (normaliseFieldName name) || hasSecretFragment name

/-! ## Redaction -/

/-- How deep the walk goes before it masks wholesale. -/
def maxRedactDepth : ℕ := 10

/-- What stands for a value that is nested too deep. Nothing of the value is shown. -/
def depthExceeded : List UInt16 := codeUnits "[redacted: nesting too deep]"

section Redact

variable (secret : String → Bool)

mutual

/-- **The redaction of a value.** Items and fields are gone into, each a level deeper;
what is neither is shown as it is. -/
def redactValue (depth : ℕ) (value : MetaValue Leaf) : MetaValue Leaf :=
  if maxRedactDepth < depth then .str depthExceeded
  else
    match value with
    | .arr items => .arr (redactItems (depth + 1) items)
    | .obj fields => .obj (redactObject depth fields)
    | value => value

/-- The redaction of the items of an array. -/
def redactItems (depth : ℕ) : List (MetaValue Leaf) → List (MetaValue Leaf)
  | [] => []
  | item :: items => redactValue depth item :: redactItems depth items

/-- Assigning to `__proto__` makes no field. -/
def redactObject (depth : ℕ) :
    List (String × MetaValue Leaf) → List (String × MetaValue Leaf)
  | [] => []
  | (key, child) :: fields =>
    if key = "__proto__" then redactObject depth fields
    else
      (key, if secret key then .str (maskSecretValue child)
        else redactValue (depth + 1) child) :: redactObject depth fields

end

end Redact

/-- **`redactSettingsMeta`**. -/
def redactSettingsMeta (fields : List (String × MetaValue Leaf))
    (secretKeys : List String) : List (String × MetaValue Leaf) :=
  redactObject (isSecretFieldName (secretKeys.map normaliseFieldName)) 0 fields

/-! ## Positions of a document -/

namespace MetaValue

/-- The parts of a value, with the name where it is a field. -/
def parts : MetaValue Leaf → List (Option String × MetaValue Leaf)
  | .arr items => items.map (none, ·)
  | .obj fields => fields.map fun field => (some field.1, field.2)
  | _ => []

/-- The value at a position, which says the part to go to on each level. -/
def find : MetaValue Leaf → (position : List ℕ) → Option (MetaValue Leaf)
  | value, [] => some value
  | value, i :: position => value.parts[i]?.bind fun part => part.2.find position

/-- The fields that a position lies under. The items of an array lie where it does. -/
def path : MetaValue Leaf → (position : List ℕ) → List String
  | _, [] => []
  | value, i :: position =>
    match value.parts[i]? with
    | some part => part.1.toList ++ part.2.path position
    | none => []

/-- A value without what is in its parts. Redaction keeps the shape of what it goes
into, so two values that differ in hidden parts only look alike. -/
inductive Shape (Leaf : Type) where
  | leaf (value : Leaf)
  | str (units : List UInt16)
  | arr (length : ℕ)
  | obj (names : List String)

/-- The shape of a value: its names and lengths, without what is below them. -/
def shape : MetaValue Leaf → Shape Leaf
  | .leaf value => .leaf value
  | .str units => .str units
  | .arr items => .arr items.length
  | .obj fields => .obj (fields.map (·.1))

/-- No field has the name of the prototype. -/
def NoProto (value : MetaValue Leaf) : Prop :=
  ∀ position, "__proto__" ∉ value.path position

end MetaValue

open MetaValue

/-- **A path lies at or below a secret**: a name in it has a secret fragment, or its
dotted names, up to some field, spell a registered key. -/
def IsSecretPath (secretKeys : List String) (path : List String) : Prop :=
  (∃ name ∈ path, hasSecretFragment name = true)
    ∨ ∃ start, start <+: path ∧ start ≠ [] ∧ normaliseFieldName (".".intercalate start)
        ∈ secretKeys.map normaliseFieldName

/-- **Two documents differ only in secrets** that are masked alike. -/
def Alike (secretKeys : List String) (doc doc' : MetaValue Leaf) : Prop :=
  ∀ position,
    (doc.find position).map shape = (doc'.find position).map shape
      ∨ ∃ value value', doc.find position = some (.str value)
        ∧ doc'.find position = some (.str value')
        ∧ maskSecret value = maskSecret value'
        ∧ IsSecretPath secretKeys (doc.path position)

/-- **Each string in which two documents differ** lies under a field whose own name
is secret, or too deep. -/
def Hidden (secret : String → Bool) (depth : ℕ) (doc doc' : MetaValue Leaf) : Prop :=
  ∀ position value value', doc.find position = some (.str value) →
    doc'.find position = some (.str value') → value ≠ value' →
    (∃ name ∈ doc.path position, secret name = true)
      ∨ maxRedactDepth < depth + position.length

/-! ## What redaction does part by part -/

namespace MetaValue

theorem sizeOf_lt_of_mem_parts {value : MetaValue Leaf}
    {part : Option String × MetaValue Leaf} (h : part ∈ value.parts) :
    sizeOf part.2 < sizeOf value := by
  cases value with
  | leaf value => contradiction
  | str units => contradiction
  | arr items =>
    obtain ⟨item, hitem, rfl⟩ := List.mem_map.mp h
    have hlt := List.sizeOf_lt_of_mem hitem
    rw [arr.sizeOf_spec]
    show sizeOf item < _
    omega
  | obj fields =>
    obtain ⟨⟨name, child⟩, hfield, rfl⟩ := List.mem_map.mp h
    have hlt := List.sizeOf_lt_of_mem hfield
    rw [obj.sizeOf_spec]
    rw [Prod.mk.sizeOf_spec] at hlt
    show sizeOf child < _
    omega

/-- What holds of a value whenever it holds of its parts holds of every value. -/
theorem induct {P : MetaValue Leaf → Prop}
    (h : ∀ value : MetaValue Leaf, (∀ part ∈ value.parts, P part.2) → P value)
    (value : MetaValue Leaf) : P value :=
  h value fun part _ => induct h part.2
termination_by sizeOf value
decreasing_by exact sizeOf_lt_of_mem_parts ‹_›

/-- A value is its shape and its parts. -/
theorem eq_of_shape_parts {value value' : MetaValue Leaf}
    (hshape : value.shape = value'.shape) (hparts : value.parts = value'.parts) :
    value = value' := by
  cases value with
  | leaf value => cases value' <;> first | contradiction | rw [Shape.leaf.inj hshape]
  | str units => cases value' <;> first | contradiction | rw [Shape.str.inj hshape]
  | arr items =>
    cases value' with
    | arr items' =>
      have hinj : Function.Injective fun item : MetaValue Leaf =>
          ((none : Option String), item) :=
        fun _ _ h => (Prod.mk.inj h).2
      rw [List.map_injective_iff.mpr hinj hparts]
    | _ => contradiction
  | obj fields =>
    cases value' with
    | obj fields' =>
      have hinj : Function.Injective fun field : String × MetaValue Leaf =>
          (some field.1, field.2) :=
        fun _ _ h => Prod.ext (Option.some.inj (Prod.mk.inj h).1) (Prod.mk.inj h).2
      rw [List.map_injective_iff.mpr hinj hparts]
    | _ => contradiction

theorem names_parts_of_shape {value value' : MetaValue Leaf}
    (hshape : value.shape = value'.shape) :
    value.parts.map (·.1) = value'.parts.map (·.1) := by
  cases value <;> cases value' <;> try contradiction
  · rfl
  · rfl
  · have hlength := Shape.arr.inj hshape
    unfold parts
    rw [List.map_map, List.map_map]
    simpa [Function.comp_def] using hlength
  · have hnames := congrArg (List.map some) (Shape.obj.inj hshape)
    unfold parts
    rw [List.map_map] at hnames ⊢
    rw [List.map_map] at hnames ⊢
    exact hnames

end MetaValue

section Redact

variable {secret : String → Bool} {depth : ℕ}

theorem redactItems_eq (items : List (MetaValue Leaf)) :
    redactItems secret depth items = items.map (redactValue secret depth) := by
  induction items with
  | nil => rfl
  | cons item items ih => rw [redactItems, ih, List.map_cons]

/-- What a part becomes. -/
def redactPart (secret : String → Bool) (depth : ℕ)
    (part : Option String × MetaValue Leaf) : MetaValue Leaf :=
  if part.1.any secret then .str (maskSecretValue part.2)
  else redactValue secret (depth + 1) part.2

theorem redactObject_eq {fields : List (String × MetaValue Leaf)}
    (h : ∀ field ∈ fields, field.1 ≠ "__proto__") :
    redactObject secret depth fields
      = fields.map fun field =>
          (field.1, redactPart secret depth (some field.1, field.2)) := by
  induction fields with
  | nil => rfl
  | cons field fields ih =>
    have hne := h field List.mem_cons_self
    rw [redactObject, if_neg hne,
      ih fun field hfield => h field (List.mem_cons_of_mem _ hfield)]
    rfl

theorem MetaValue.NoProto.ne {fields : List (String × MetaValue Leaf)}
    (h : NoProto (.obj fields)) : ∀ field ∈ fields, field.1 ≠ "__proto__" := by
  intro field hfield heq
  obtain ⟨i, hi⟩ := List.mem_iff_getElem?.mp hfield
  refine h [i] ?_
  simp [path, parts, hi, heq]

theorem MetaValue.NoProto.part {value : MetaValue Leaf} (h : NoProto value) {i : ℕ}
    {part : Option String × MetaValue Leaf} (hpart : value.parts[i]? = some part) :
    NoProto part.2 := by
  intro position hmem
  refine h (i :: position) ?_
  rw [path, hpart]
  exact List.mem_append_right _ hmem

/-- **A value that is not too deep keeps its shape**, and its parts are redacted. -/
theorem shape_redactValue {value : MetaValue Leaf} (hdepth : depth ≤ maxRedactDepth)
    (h : NoProto value) : (redactValue secret depth value).shape = value.shape := by
  unfold redactValue
  rw [if_neg hdepth.not_gt]
  cases value with
  | leaf value => rfl
  | str units => rfl
  | arr items =>
    dsimp only
    rw [redactItems_eq]
    simp [shape]
  | obj fields =>
    dsimp only
    rw [redactObject_eq h.ne]
    simp [shape, Function.comp_def]

theorem parts_redactValue {value : MetaValue Leaf} (hdepth : depth ≤ maxRedactDepth)
    (h : NoProto value) :
    (redactValue secret depth value).parts
      = value.parts.map fun part => (part.1, redactPart secret depth part) := by
  unfold redactValue
  rw [if_neg hdepth.not_gt]
  cases value with
  | leaf value => rfl
  | str units => rfl
  | arr items =>
    dsimp only
    rw [redactItems_eq]
    simp [parts, redactPart, Function.comp_def]
  | obj fields =>
    dsimp only
    rw [redactObject_eq h.ne]
    simp [parts, Function.comp_def]

end Redact

/-! ## What two rows tell -/

/-- The documents differ only in strings that are masked alike. -/
def Matching (value value' : MetaValue Leaf) : Prop :=
  ∀ position,
    (value.find position).map shape = (value'.find position).map shape
      ∨ ∃ text text', value.find position = some (.str text)
        ∧ value'.find position = some (.str text') ∧ maskSecret text = maskSecret text'

namespace Matching

variable {value value' : MetaValue Leaf} (h : Matching value value')

include h

theorem shape_or :
    value.shape = value'.shape
      ∨ ∃ text text', value = .str text ∧ value' = .str text'
        ∧ maskSecret text = maskSecret text' := by
  obtain hshape | ⟨text, text', htext, htext', hmask⟩ := h []
  · exact Or.inl (Option.some.inj hshape)
  · exact Or.inr ⟨text, text', Option.some.inj htext, Option.some.inj htext', hmask⟩

theorem names_parts : value.parts.map (·.1) = value'.parts.map (·.1) := by
  obtain hshape | ⟨text, text', rfl, rfl, -⟩ := h.shape_or
  · exact names_parts_of_shape hshape
  · rfl

/-- Parts match parts of the same name. -/
theorem exists_part {i : ℕ} {part : Option String × MetaValue Leaf}
    (hpart : value.parts[i]? = some part) :
    ∃ part', value'.parts[i]? = some part' ∧ part'.1 = part.1
      ∧ Matching part.2 part'.2 := by
  have hnames := congrArg (·[i]?) h.names_parts
  rw [List.getElem?_map, List.getElem?_map, hpart] at hnames
  cases hpart' : value'.parts[i]? with
  | none =>
    rw [hpart'] at hnames
    contradiction
  | some part' =>
    rw [hpart'] at hnames
    refine ⟨part', rfl, (Option.some.inj hnames).symm, fun position => ?_⟩
    have hposition := h (i :: position)
    rw [find, find, hpart, hpart'] at hposition
    exact hposition

theorem part {i : ℕ} {part part' : Option String × MetaValue Leaf}
    (hpart : value.parts[i]? = some part) (hpart' : value'.parts[i]? = some part') :
    part'.1 = part.1 ∧ Matching part.2 part'.2 := by
  obtain ⟨other, hother, hmatch⟩ := h.exists_part hpart
  rw [Option.some.inj (hpart'.symm.trans hother)]
  exact hmatch

theorem parts_eq_none {i : ℕ} (hpart : value.parts[i]? = none) :
    value'.parts[i]? = none := by
  have hnames := congrArg (·[i]?) h.names_parts
  rw [List.getElem?_map, List.getElem?_map, hpart] at hnames
  exact Option.map_eq_none_iff.mp hnames.symm

theorem maskSecretValue_eq : maskSecretValue value = maskSecretValue value' := by
  obtain hshape | ⟨text, text', rfl, rfl, hmask⟩ := h.shape_or
  · cases value <;> cases value' <;>
      first | contradiction | rfl | rw [Shape.str.inj hshape]
  · exact hmask

theorem path_eq (position : List ℕ) : value.path position = value'.path position := by
  induction position generalizing value value' with
  | nil => rfl
  | cons i position ih =>
    rw [path, path]
    cases hpart : value.parts[i]? with
    | none => rw [h.parts_eq_none hpart]
    | some part =>
      obtain ⟨part', hpart', hname, hmatching⟩ := h.exists_part hpart
      rw [hpart']
      dsimp only
      rw [hname, ih hmatching]

theorem noProto (hproto : NoProto value) : NoProto value' := by
  intro position
  rw [← h.path_eq position]
  exact hproto position

end Matching

section Rows

variable {secret : String → Bool} {depth : ℕ}

/-- A difference of a part is a difference of the value. -/
theorem Hidden.part {value value' : MetaValue Leaf} (h : Hidden secret depth value value')
    {i : ℕ} {part part' : Option String × MetaValue Leaf}
    (hpart : value.parts[i]? = some part) (hpart' : value'.parts[i]? = some part')
    (hname : part.1.any secret = false) : Hidden secret (depth + 1) part.2 part'.2 := by
  intro position text text' htext htext' hne
  have hfind : value.find (i :: position) = some (.str text) := by
    rw [find, hpart]
    exact htext
  have hfind' : value'.find (i :: position) = some (.str text') := by
    rw [find, hpart']
    exact htext'
  obtain ⟨name, hmem, hsecret⟩ | hdeep := h (i :: position) text text' hfind hfind' hne
  · rw [path, hpart] at hmem
    obtain hmem | hmem := List.mem_append.mp hmem
    · -- the name of the part is no secret one
      rw [Option.mem_toList] at hmem
      rw [Option.mem_def.mp hmem, Option.any_some, hsecret] at hname
      contradiction
    · exact Or.inl ⟨name, hmem, hsecret⟩
  · rw [List.length_cons] at hdeep
    exact Or.inr (by omega)

theorem redactPart_of_secret {part : Option String × MetaValue Leaf}
    (h : part.1.any secret = true) :
    redactPart secret depth part = .str (maskSecretValue part.2) := if_pos h

theorem redactPart_of_not {part : Option String × MetaValue Leaf}
    (h : part.1.any secret = false) :
    redactPart secret depth part = redactValue secret (depth + 1) part.2 :=
  if_neg (by rw [h]; decide)

section Parts

variable {value value' : MetaValue Leaf} (hshape : value.shape = value'.shape)

include hshape

/-- **What is hidden is hidden part by part.** -/
theorem hidden_iff_parts :
    Hidden secret depth value value' ↔
      ∀ (i : ℕ) (part part' : Option String × MetaValue Leaf),
        value.parts[i]? = some part → value'.parts[i]? = some part' →
        part.1.any secret = false → Hidden secret (depth + 1) part.2 part'.2 := by
  constructor
  · intro h i part part' hpart hpart' hname
    exact h.part hpart hpart' hname
  · intro h position text text' htext htext' hne
    cases position with
    | nil =>
      rw [find, Option.some.injEq] at htext htext'
      rw [htext, htext'] at hshape
      exact absurd (Shape.str.inj hshape) hne
    | cons i position =>
      rw [find] at htext htext'
      obtain ⟨part, hpart, htext⟩ := Option.bind_eq_some_iff.mp htext
      obtain ⟨part', hpart', htext'⟩ := Option.bind_eq_some_iff.mp htext'
      rw [path, hpart]
      cases hname : part.1.any secret with
      | true =>
        obtain ⟨name, hmem, hsecret⟩ := (Option.any_eq_true _ _).mp hname
        exact Or.inl ⟨name, List.mem_append_left _ (Option.mem_toList.mpr hmem), hsecret⟩
      | false =>
        obtain ⟨name, hmem, hsecret⟩ | hdeep :=
          h i part part' hpart hpart' hname position text text' htext htext' hne
        · exact Or.inl ⟨name, List.mem_append_right _ hmem, hsecret⟩
        · rw [List.length_cons]
          exact Or.inr (by omega)

/-- **Rows are equal part by part.** -/
theorem redactValue_eq_iff_parts (hmatching : Matching value value') (hproto : NoProto value)
    (hdepth : depth ≤ maxRedactDepth) :
    redactValue secret depth value = redactValue secret depth value'
      ↔ ∀ (i : ℕ) (part part' : Option String × MetaValue Leaf),
        value.parts[i]? = some part → value'.parts[i]? = some part' →
        part.1.any secret = false →
        redactValue secret (depth + 1) part.2
          = redactValue secret (depth + 1) part'.2 := by
  have hparts : (redactValue secret depth value).parts = _ := parts_redactValue hdepth hproto
  have hparts' : (redactValue secret depth value').parts = _ :=
    parts_redactValue hdepth (hmatching.noProto hproto)
  constructor
  · intro heq i part part' hpart hpart' hname
    have hnames := (hmatching.part hpart hpart').1
    have hrows := congrArg (fun row : MetaValue Leaf => row.parts[i]?) heq
    rw [hparts, hparts', List.getElem?_map, List.getElem?_map, hpart, hpart'] at hrows
    have hrow := (Prod.mk.inj (Option.some.inj hrows)).2
    rw [redactPart_of_not hname, redactPart_of_not (by rw [hnames, hname])] at hrow
    exact hrow
  · intro h
    refine eq_of_shape_parts ?_ ?_
    · rw [shape_redactValue hdepth hproto,
        shape_redactValue hdepth (hmatching.noProto hproto), hshape]
    rw [hparts, hparts']
    refine List.ext_getElem? fun i => ?_
    rw [List.getElem?_map, List.getElem?_map]
    cases hpart : value.parts[i]? with
    | none => rw [hmatching.parts_eq_none hpart]
    | some part =>
      obtain ⟨part', hpart', hname, hmatch⟩ := hmatching.exists_part hpart
      rw [hpart']
      refine congrArg some (Prod.ext hname.symm ?_)
      show redactPart secret depth part = redactPart secret depth part'
      cases hsecret : part.1.any secret with
      | true =>
        rw [redactPart_of_secret hsecret, redactPart_of_secret (by rw [hname, hsecret]),
          hmatch.maskSecretValue_eq]
      | false =>
        rw [redactPart_of_not hsecret, redactPart_of_not (by rw [hname, hsecret])]
        exact h i part part' hpart hpart' hsecret

end Parts

/-- **A value is told apart by a string** that is not hidden. -/
theorem redactValue_eq_iff (value : MetaValue Leaf) :
    ∀ (value' : MetaValue Leaf) (depth : ℕ), Matching value value' → NoProto value →
      (redactValue secret depth value = redactValue secret depth value'
        ↔ Hidden secret depth value value') := by
  induction value using MetaValue.induct with
  | h value ih =>
    intro value' depth hmatching hproto
    by_cases hdeep : maxRedactDepth < depth
    · unfold redactValue
      rw [if_pos hdeep, if_pos hdeep]
      exact iff_of_true rfl fun position _ _ _ _ _ => Or.inr (by omega)
    have hdepth : depth ≤ maxRedactDepth := not_lt.mp hdeep
    obtain hshape | ⟨text, text', rfl, rfl, hmask⟩ := hmatching.shape_or
    · rw [redactValue_eq_iff_parts hshape hmatching hproto hdepth,
        hidden_iff_parts hshape]
      refine forall₃_congr fun i part part' => forall₃_congr fun hpart hpart' _ => ?_
      exact ih part (List.mem_of_getElem? hpart) part'.2 (depth + 1)
        (hmatching.part hpart hpart').2 (hproto.part hpart)
    · -- a string that is not under a field
      unfold redactValue
      rw [if_neg hdeep, if_neg hdeep]
      refine ⟨fun heq position value value' hvalue hvalue' hne => ?_, fun hhidden => ?_⟩
      · rw [MetaValue.str.inj heq] at hvalue
        exact absurd (MetaValue.str.inj (Option.some.inj (hvalue.symm.trans hvalue'))) hne
      · by_contra hne
        obtain ⟨name, hmem, -⟩ | hdeeper := hhidden [] text text' rfl rfl
          fun heq => hne (by rw [heq])
        · contradiction
        · exact hdeep hdeeper

/-- **A leaf under no secret field** that is not too deep is unchanged. -/
theorem find_redactValue {leaf : MetaValue Leaf} (hleaf : leaf.parts = [])
    {position : List ℕ} {value : MetaValue Leaf} (hproto : NoProto value)
    (hfind : value.find position = some leaf)
    (hopen : ∀ name ∈ value.path position, secret name = false)
    (hdepth : depth + position.length ≤ maxRedactDepth) :
    (redactValue secret depth value).find position = some leaf := by
  induction position generalizing value depth with
  | nil =>
    rw [find, Option.some.injEq] at hfind ⊢
    subst hfind
    have hle : depth ≤ maxRedactDepth := hdepth
    refine eq_of_shape_parts (shape_redactValue hle hproto) ?_
    rw [parts_redactValue hle hproto, hleaf]
    rfl
  | cons i position ih =>
    rw [List.length_cons] at hdepth
    obtain ⟨part, hpart, hrest⟩ := Option.bind_eq_some_iff.mp (show
      (value.parts[i]?.bind fun part => part.2.find position) = some leaf from hfind)
    rw [path, hpart] at hopen
    have hname : part.1.any secret = false := by
      cases hcase : part.1 with
      | none => rfl
      | some name => exact hopen name (List.mem_append_left _ (by simp [hcase]))
    rw [find, parts_redactValue (by omega) hproto, List.getElem?_map, hpart,
      Option.map_some, Option.bind_some, redactPart_of_not hname]
    exact ih (hproto.part hpart) hrest
      (fun name hmem => hopen name (List.mem_append_right _ hmem)) (by omega)

end Rows

theorem obj_redactSettingsMeta (fields : List (String × MetaValue Leaf))
    (secretKeys : List String) :
    MetaValue.obj (redactSettingsMeta fields secretKeys)
      = redactValue (isSecretFieldName (secretKeys.map normaliseFieldName)) 0
        (.obj fields) := by
  rw [redactValue, if_neg (by decide)]
  rfl

/-- **Two documents that differ in secrets have one row** exactly when each difference
lies under a field whose own name is secret, or too deep; and a leaf under no such
field that is not too deep is unchanged. -/
theorem redacts_iff_hidden {secretKeys : List String}
    {fields fields' : List (String × MetaValue Leaf)}
    (hproto : NoProto (.obj fields))
    (halike : Alike secretKeys (.obj fields) (.obj fields')) :
    (redactSettingsMeta fields secretKeys = redactSettingsMeta fields' secretKeys
        ↔ Hidden (isSecretFieldName (secretKeys.map normaliseFieldName)) 0
          (.obj fields) (.obj fields'))
      ∧ ∀ position leaf, leaf.parts = [] → position.length ≤ maxRedactDepth →
        (MetaValue.obj fields).find position = some leaf →
        (∀ name ∈ (MetaValue.obj fields).path position,
          isSecretFieldName (secretKeys.map normaliseFieldName) name = false) →
        (MetaValue.obj (redactSettingsMeta fields secretKeys)).find position
          = some leaf := by
  have hmatching : Matching (.obj fields) (.obj fields') := fun position =>
    (halike position).imp_right fun ⟨text, text', h, h', hmask, _⟩ =>
      ⟨text, text', h, h', hmask⟩
  refine ⟨?_, fun position leaf hleaf hle hfind hopen => ?_⟩
  · rw [← redactValue_eq_iff _ _ 0 hmatching hproto, ← obj_redactSettingsMeta,
      ← obj_redactSettingsMeta, MetaValue.obj.injEq]
  · rw [obj_redactSettingsMeta]
    exact find_redactValue hleaf hproto hfind hopen (by omega)

/-! ## A registered key, flat and nested -/

/-- The document of one text field. -/
def oneField (name text : String) : List (String × MetaValue Bool) :=
  [(name, .str (codeUnits text))]

/-- The same under another field. -/
def nestedField (outer name text : String) : List (String × MetaValue Bool) :=
  [(outer, .obj (oneField name text))]

theorem alike_oneField :
    Alike ["github.appId"] (.obj (oneField "github.appId" "1"))
      (.obj (oneField "github.appId" "2")) := by
  intro position
  match position with
  | [] => exact Or.inl rfl
  | [0] =>
    exact Or.inr ⟨_, _, rfl, rfl, by decide,
      Or.inr ⟨["github.appId"], List.prefix_rfl, by decide, by decide⟩⟩
  | 0 :: _ :: _ => exact Or.inl rfl
  | (_ + 1) :: _ => exact Or.inl rfl

theorem alike_nestedField :
    Alike ["github.appId"] (.obj (nestedField "github" "appId" "1"))
      (.obj (nestedField "github" "appId" "2")) := by
  intro position
  match position with
  | [] => exact Or.inl rfl
  | [0] => exact Or.inl rfl
  | [0, 0] =>
    exact Or.inr ⟨_, _, rfl, rfl, by decide,
      Or.inr ⟨["github", "appId"], List.prefix_rfl, by decide, by decide⟩⟩
  | 0 :: 0 :: _ :: _ => exact Or.inl rfl
  | 0 :: (_ + 1) :: _ => exact Or.inl rfl
  | (_ + 1) :: _ => exact Or.inl rfl

theorem noProto_oneField : NoProto (.obj (oneField "github.appId" "1")) := by
  intro position
  match position with
  | [] => exact List.not_mem_nil
  | [0] => decide
  | 0 :: _ :: _ => simp [path, parts, oneField]
  | (_ + 1) :: _ => exact List.not_mem_nil

theorem noProto_nestedField (text : String) :
    NoProto (.obj (nestedField "github" "appId" text)) := by
  intro position
  match position with
  | [] => exact List.not_mem_nil
  | [0] => simp [path, parts, nestedField]
  | [0, 0] => simp [path, parts, nestedField, oneField]
  | 0 :: 0 :: _ :: _ => simp [path, parts, nestedField, oneField]
  | 0 :: (_ + 1) :: _ => simp [path, parts, nestedField, oneField]
  | (_ + 1) :: _ => exact List.not_mem_nil

/-- A flat registered key is masked. -/
theorem redacts_flat_key :
    redactSettingsMeta (oneField "github.appId" "1") ["github.appId"]
      = redactSettingsMeta (oneField "github.appId" "2") ["github.appId"] := by
  refine (redacts_iff_hidden noProto_oneField alike_oneField).1.mpr ?_
  intro position text text' htext _ _
  obtain _ | ⟨i, position⟩ := position
  · simp [find] at htext
  obtain _ | i := i
  · refine Or.inl ⟨"github.appId", ?_, by decide +kernel⟩
    simp [path, parts, oneField]
  · simp [find, parts, oneField] at htext

/-- The field of a nested key is shown as it is. -/
theorem find_redact_nestedField (text : String) :
    (MetaValue.obj (redactSettingsMeta (nestedField "github" "appId" text)
      ["github.appId"])).find [0, 0] = some (.str (codeUnits text)) := by
  rw [obj_redactSettingsMeta]
  have hopen : ∀ name ∈ ["github", "appId"],
      isSecretFieldName (["github.appId"].map normaliseFieldName) name = false := by
    decide +kernel
  exact find_redactValue rfl (noProto_nestedField text) rfl hopen (by decide)

/-- **A registered key whose fields are nested is not masked.** -/
theorem nested_key_in_clear :
    ¬∀ (secretKeys : List String) (fields fields' : List (String × MetaValue Bool)),
      NoProto (.obj fields) → Alike secretKeys (.obj fields) (.obj fields') →
      redactSettingsMeta fields secretKeys = redactSettingsMeta fields' secretKeys := by
  intro h
  have heq := h ["github.appId"] _ _ (noProto_nestedField "1") alike_nestedField
  have hfind := find_redact_nestedField "1"
  rw [heq, find_redact_nestedField "2"] at hfind
  exact absurd (MetaValue.str.inj (Option.some.inj hfind)) (by decide)

end Opifex
