import Opifex.Lib.Distinct
import Opifex.Lib.Parts
import Opifex.Lib.Pattern

/-!
# The children an epic's body names

An epic lists its children as task-list items under a heading of its own. The
section is cut by a pass that knows code fences: a line in one is no heading. The
items are read by a second pass over the lines of the section, and **that one does
not know fences**, so an item of an example block is read like any other.

`namesFromSection_iff` says when this makes no difference: where
what a fenced item names is named outside the fences too, and no item is blank.
-/

namespace Opifex

open Pattern

/-- One reference as written, with the text of its item. An owner that is missing is the
epic's own repository. -/
structure ParsedChildRef where
  /-- Null for a bare `#123`, the epic's own repository. -/
  owner : Option String
  name : Option String
  number : ℕ
  /-- The item's text. -/
  raw : String
deriving DecidableEq

/-- What the body of an epic says about children. A body without a child section and a
section without references are different answers. -/
structure ParsedEpicBody where
  /-- A child section exists at all. -/
  sectionFound : Bool
  /-- The heading as authored. -/
  heading : Option String
  /-- In the order of the body, each reference once. -/
  refs : List ParsedChildRef
  /-- Items of the section that carry no reference. -/
  unparsed : List String
deriving DecidableEq

/-! ## Reading a line -/

/-- The headings that introduce children: `child`, `children`, `child work` or `child
issues`, and nothing else. -/
def childHeadingPattern : Pattern :=
  all [textStart, text "child",
    optional (alt (text "ren") (alt (text " work") (text " issues"))), textEnd]

/-- A heading of any level, with the marks and the text captured. -/
def epicHeadingPattern : Pattern :=
  all [textStart, group 1 (rep 1 (some 6) (char (· == '#'))), many1 space,
    group 2 (lazy 1 fun c => !Text.isLineEnd c), many space, textEnd]

/-- The line that opens or closes a code block. -/
def fencePattern : Pattern :=
  all [textStart, many space, alt (text "```") (text "~~~")]

/-- An item of a task list, with what stands after its box captured. It is indented by
three characters at most. -/
def taskItemPattern : Pattern :=
  all [textStart, rep 0 (some 3) space, oneOf "-*+", many1 space, text "[",
    oneOf " xX", text "]", many space, group 1 (many dot), textEnd]

/-- `[\w.-]`. -/
def isReferencePart (c : Char) : Bool := Text.isWord c || c == '.' || c == '-'

/-- A URL, `owner/name#12` or a bare `#12`. -/
def referencePattern : Pattern :=
  let part := many1 (char isReferencePart)
  let digits := many1 (char Char.isDigit)
  alt
    (all [text "http", optional (text "s"), text "://github.com/", group 1 part,
      text "/", group 2 part, text "/issues/", group 3 digits])
    (alt
      (all [group 4 part, text "/", group 5 part, text "#", group 6 digits])
      (all [notAfter fun c => Text.isWord c || c == '/', text "#",
        group 7 digits, wordEdge]))

/-- Whether a line opens or closes a code block. -/
def isFence (line : String) : Bool := fencePattern.test line

/-- `**Child work**` and `Child Work:` are the same heading as `Child work`. -/
def isChildHeading (heading : String) : Bool :=
  let plain := heading.toList.filter fun c => !"*_`".toList.contains c
  let normalized := (Text.trimChars plain).rdropWhile fun c =>
    c == ':' || c == '.' || Text.isSpace c
  childHeadingPattern.test (Text.toLowerCase (String.ofList normalized))

/-- The level and the text of a heading. -/
def headingOf (line : String) : Option (ℕ × String) :=
  (epicHeadingPattern.search [] line.toList).map fun found =>
    ((found.2.captured 1).length, found.2.captured 2)

/-- The text of a task-list item. -/
def taskItem (line : String) : Option String :=
  (taskItemPattern.search [] line.toList).map fun found =>
    Text.trim (found.2.captured 1)

/-- The capture of the first of some groups that took part in the match. -/
def firstCapture (found : Pos) (groups : List ℕ) : Option String :=
  groups.findSome? fun index => (found.captures.lookup index).map String.ofList

/-- `Number.parseInt` of a run of digits, where that is an integer: a number too
large for a double is parsed as infinity. -/
def integerOf (digits : String) : Option ℕ :=
  let number := digits.toList.foldl (fun n c => 10 * n + (c.toNat - '0'.toNat)) 0
  if number < 2 ^ 1024 - 2 ^ 970 then some (Text.toDouble number) else none

/-- The reference an item leads with. -/
def firstReference (item : String) : Option ParsedChildRef :=
  (referencePattern.search [] item.toList).bind fun found =>
    ((firstCapture found.2 [3, 6, 7]).bind integerOf).bind fun number =>
      if 0 < number then
        some
          { owner := firstCapture found.2 [1, 4]
            name := firstCapture found.2 [2, 5]
            number := number
            raw := item }
      else none

/-! ## The section -/

/-- `body.split(/\r?\n/)`. -/
def bodyLines (body : String) : List String :=
  let dropReturn (line : List Char) :=
    if line.getLast? = some '\r' then line.dropLast else line
  ((Parts.ended '\n' body.toList).map dropReturn
    ++ [Parts.carry '\n' body.toList]).map String.ofList

/-- The section that lists the children: its lines, and the heading as authored. -/
structure ChildSection where
  lines : List String
  heading : String
deriving DecidableEq

/-- The lines up to a heading of the same or a shallower level. -/
def sectionLines (level : ℕ) : (fenced : Bool) → List String → List String
  | _, [] => []
  | fenced, line :: rest =>
    if isFence line then line :: sectionLines level (!fenced) rest
    else if fenced then line :: sectionLines level fenced rest
    else
      match headingOf line with
      | none => line :: sectionLines level fenced rest
      | some (depth, _) =>
        if depth ≤ level then [] else line :: sectionLines level fenced rest

/-- The loop of `extractChildSection` on the lines that are left. -/
def findSection : (fenced : Bool) → List String → Option ChildSection
  | _, [] => none
  | fenced, line :: rest =>
    if isFence line then findSection (!fenced) rest
    else if fenced then findSection fenced rest
    else
      match headingOf line with
      | none => findSection fenced rest
      | some (level, heading) =>
        if isChildHeading heading then
          some ⟨sectionLines level false rest, Text.trim heading⟩
        else findSection fenced rest

/-- **`extractChildSection`**. -/
def extractChildSection (body : String) : Option ChildSection :=
  findSection false (bodyLines body)

/-! ## The items -/

/-- The key a reference is repeated under. -/
def ParsedChildRef.key (ref : ParsedChildRef) : String :=
  ref.owner.getD "" ++ "/" ++ ref.name.getD "" ++ "#" ++ toString ref.number

/-- The items of a section that have a text. -/
def itemsOf (lines : List String) : List String :=
  (lines.filterMap taskItem).filter fun item => item != ""

/-- **`parseEpicBodyChildren`**. -/
def parseEpicBodyChildren (body : Option String) : ParsedEpicBody :=
  match body.bind extractChildSection with
  | none => { sectionFound := false, heading := none, refs := [], unparsed := [] }
  | some found =>
    { sectionFound := true
      heading := some found.heading
      refs := Distinct.dedupe (·.key) ((itemsOf found.lines).filterMap firstReference)
      unparsed := (itemsOf found.lines).filter fun item =>
        (firstReference item).isNone }

/-! ## What stands in the section -/

/-- The lines, each with whether it stands outside the fences. -/
def markFences : (fenced : Bool) → List String → List (String × Bool)
  | _, [] => []
  | fenced, line :: rest =>
    if isFence line then (line, false) :: markFences (!fenced) rest
    else (line, !fenced) :: markFences fenced rest

/-- A recognised child heading. -/
def opensSection (line : String × Bool) : Bool :=
  line.2 && (headingOf line.1).any fun heading => isChildHeading heading.2

/-- A heading of this level or a shallower one. -/
def closesSection (level : ℕ) (line : String × Bool) : Bool :=
  line.2 && (headingOf line.1).any fun heading => heading.1 ≤ level

/-- **What follows the first recognised child heading**, up to the next heading of
the same or a shallower level. -/
def childLines (body : String) : List (String × Bool) :=
  match (markFences false (bodyLines body)).dropWhile fun line =>
    !opensSection line with
  | [] => []
  | heading :: rest =>
    rest.takeWhile fun line =>
      !closesSection (((headingOf heading.1).map (·.1)).getD 0) line

/-- An item of the section, its fencing, and the reference it leads with. -/
def Lists (body : String) (outside : Bool) (item : String)
    (reference : Option ParsedChildRef) : Prop :=
  ∃ line, (line, outside) ∈ childLines body ∧ taskItem line = some item
    ∧ firstReference item = reference

/-- **The body names children only from its child section**: what is returned is
what the items outside the fences name, each once, and the items without a
reference are reported. -/
structure NamesFromSection (body : String) : Prop where
  named : ∀ ref ∈ (parseEpicBodyChildren (some body)).refs,
    ∃ item first, Lists body true item (some first) ∧ first.key = ref.key
  complete : ∀ item first, Lists body true item (some first) →
    ∃ ref ∈ (parseEpicBodyChildren (some body)).refs, ref.key = first.key
  once : ((parseEpicBodyChildren (some body)).refs.map (·.key)).Nodup
  reported : ∀ item, Lists body true item none →
    item ∈ (parseEpicBodyChildren (some body)).unparsed

/-- **What a fenced item names is named outside the fences too**, and no item there
is blank. -/
def FencesNameNothing (body : String) : Prop :=
  (∀ item first, Lists body false item (some first) →
    ∃ item' first', Lists body true item' (some first') ∧ first'.key = first.key)
    ∧ ∀ reference, ¬Lists body true "" reference

section Reading

variable {body : String}

theorem map_fst_markFences_takeWhile (level : ℕ) (fenced : Bool)
    (lines : List String) :
    sectionLines level fenced lines
      = ((markFences fenced lines).takeWhile fun line =>
          !closesSection level line).map (·.1) := by
  induction lines generalizing fenced with
  | nil => rfl
  | cons line rest ih =>
    unfold sectionLines markFences
    by_cases hfence : isFence line = true
    · rw [if_pos hfence, if_pos hfence, List.takeWhile_cons_of_pos rfl, ih]
      rfl
    rw [if_neg hfence, if_neg hfence]
    cases fenced with
    | true =>
      rw [if_pos rfl, List.takeWhile_cons_of_pos rfl, ih]
      rfl
    | false =>
      rw [if_neg (by decide), ih]
      cases hheading : headingOf line with
      | none =>
        rw [List.takeWhile_cons_of_pos (by simp [closesSection, hheading])]
        rfl
      | some heading =>
        by_cases hlevel : heading.1 ≤ level
        · rw [List.takeWhile_cons_of_neg (by simp [closesSection, hheading, hlevel])]
          exact if_pos hlevel
        · rw [List.takeWhile_cons_of_pos (by simp [closesSection, hheading, hlevel])]
          exact if_neg hlevel

/-- **The section of the code** is what stands in the section. -/
theorem lines_extractChildSection (body : String) :
    ((extractChildSection body).map (·.lines)).getD [] = (childLines body).map (·.1) := by
  unfold extractChildSection childLines
  -- along the lines, with the state the fences are in
  suffices h : ∀ fenced lines, ((findSection fenced lines).map (·.lines)).getD []
      = List.map (·.1) (match (markFences fenced lines).dropWhile fun line =>
          !opensSection line with
        | [] => []
        | heading :: rest =>
          rest.takeWhile fun line =>
            !closesSection (((headingOf heading.1).map (·.1)).getD 0) line) from
    h false (bodyLines body)
  intro fenced lines
  induction lines generalizing fenced with
  | nil => rfl
  | cons line rest ih =>
    unfold findSection markFences
    by_cases hfence : isFence line = true
    · rw [if_pos hfence, if_pos hfence, List.dropWhile_cons_of_pos rfl, ih]
    rw [if_neg hfence, if_neg hfence]
    cases fenced with
    | true => rw [if_pos rfl, List.dropWhile_cons_of_pos rfl, ih]
    | false =>
      rw [if_neg (by decide)]
      cases hheading : headingOf line with
      | none =>
        rw [List.dropWhile_cons_of_pos (by simp [opensSection, hheading])]
        exact ih false
      | some heading =>
        by_cases hchild : isChildHeading heading.2 = true
        · rw [List.dropWhile_cons_of_neg (by simp [opensSection, hheading, hchild])]
          dsimp only
          rw [if_pos hchild, Option.map_some, Option.getD_some,
            map_fst_markFences_takeWhile, hheading]
          rfl
        · rw [List.dropWhile_cons_of_pos (by simp [opensSection, hheading, hchild])]
          dsimp only
          rw [if_neg hchild]
          exact ih false

theorem firstReference_empty : firstReference "" = none := by decide

theorem refs_parseEpicBodyChildren (body : String) :
    (parseEpicBodyChildren (some body)).refs
      = Distinct.dedupe (·.key)
          ((itemsOf ((childLines body).map (·.1))).filterMap firstReference) := by
  rw [← lines_extractChildSection]
  unfold parseEpicBodyChildren
  rw [Option.bind_some]
  cases extractChildSection body with
  | none => rfl
  | some found => rfl

theorem unparsed_parseEpicBodyChildren (body : String) :
    (parseEpicBodyChildren (some body)).unparsed
      = (itemsOf ((childLines body).map (·.1))).filter fun item =>
          (firstReference item).isNone := by
  rw [← lines_extractChildSection]
  unfold parseEpicBodyChildren
  rw [Option.bind_some]
  cases extractChildSection body with
  | none => rfl
  | some found => rfl

/-- The items are those of the section, fenced or not, but for the blank ones. -/
theorem mem_items {item : String} :
    item ∈ itemsOf ((childLines body).map (·.1))
      ↔ item ≠ "" ∧ ∃ outside, Lists body outside item (firstReference item) := by
  unfold itemsOf Lists
  rw [List.mem_filter, List.mem_filterMap, and_comm, bne_iff_ne]
  refine and_congr_right fun _ => ⟨?_, ?_⟩
  · rintro ⟨line, hline, hitem⟩
    obtain ⟨⟨_, outside⟩, hmem, rfl⟩ := List.mem_map.mp hline
    exact ⟨outside, _, hmem, hitem, rfl⟩
  · rintro ⟨outside, line, hmem, hitem, -⟩
    exact ⟨line, List.mem_map_of_mem hmem, hitem⟩

/-- **What is read is what any item of the section leads with**, fenced or not. -/
theorem mem_keys_refs {key : String} :
    key ∈ (parseEpicBodyChildren (some body)).refs.map (·.key)
      ↔ ∃ outside item first, Lists body outside item (some first)
        ∧ first.key = key := by
  rw [refs_parseEpicBodyChildren, Distinct.mem_map_dedupe, List.mem_map]
  constructor
  · rintro ⟨first, hfirst, hkey⟩
    obtain ⟨item, hitem, hread⟩ := List.mem_filterMap.mp hfirst
    obtain ⟨-, outside, hlists⟩ := mem_items.mp hitem
    exact ⟨outside, item, first, hread ▸ hlists, hkey⟩
  · rintro ⟨outside, item, first, hlists, hkey⟩
    have hread : firstReference item = some first := by
      obtain ⟨-, -, -, hread⟩ := hlists
      exact hread
    have hne : item ≠ "" := by
      rintro rfl
      rw [firstReference_empty] at hread
      contradiction
    exact ⟨first, List.mem_filterMap.mpr
      ⟨item, mem_items.mpr ⟨hne, outside, hread ▸ hlists⟩, hread⟩, hkey⟩

theorem mem_unparsed {item : String} :
    item ∈ (parseEpicBodyChildren (some body)).unparsed
      ↔ item ≠ "" ∧ ∃ outside, Lists body outside item none := by
  rw [unparsed_parseEpicBodyChildren, List.mem_filter, mem_items,
    Option.isNone_iff_eq_none, and_assoc]
  refine and_congr_right fun _ => ⟨?_, ?_⟩
  · rintro ⟨⟨outside, hlists⟩, hnone⟩
    exact ⟨outside, hnone ▸ hlists⟩
  · rintro ⟨outside, line, hmem, hitem, hnone⟩
    exact ⟨⟨outside, line, hmem, hitem, rfl⟩, hnone⟩

end Reading

/-- **A body names children from its child section exactly when its fences name
nothing** that is not named outside them, and no item is blank. -/
theorem namesFromSection_iff (body : String) :
    NamesFromSection body ↔ FencesNameNothing body := by
  constructor
  · intro h
    refine ⟨fun item first hlists => ?_, fun reference hblank => ?_⟩
    · obtain ⟨ref, href, hkey⟩ := List.mem_map.mp
        (mem_keys_refs.mpr ⟨false, item, first, hlists, rfl⟩)
      obtain ⟨item', first', hlists', hkey'⟩ := h.named ref href
      exact ⟨item', first', hlists', hkey'.trans hkey⟩
    · obtain ⟨line, hmem, hitem, -⟩ := hblank
      have hlists : Lists body true "" none := ⟨line, hmem, hitem, firstReference_empty⟩
      exact (mem_unparsed.mp (h.reported "" hlists)).1 rfl
  · rintro ⟨hfenced, hblank⟩
    refine ⟨fun ref href => ?_, fun item first hlists => ?_, ?_, fun item hlists => ?_⟩
    · obtain ⟨outside, item, first, hlists, hkey⟩ :=
        mem_keys_refs.mp (List.mem_map_of_mem href)
      cases outside with
      | true => exact ⟨item, first, hlists, hkey⟩
      | false =>
        obtain ⟨item', first', hlists', hkey'⟩ := hfenced item first hlists
        exact ⟨item', first', hlists', hkey'.trans hkey⟩
    · exact List.mem_map.mp (mem_keys_refs.mpr ⟨true, item, first, hlists, rfl⟩)
    · rw [refs_parseEpicBodyChildren]
      exact Distinct.nodup_map_dedupe
    · refine mem_unparsed.mpr ⟨?_, true, hlists⟩
      rintro rfl
      exact hblank none hlists

/-- **An item of an example block becomes a child.** -/
theorem names_fenced_item :
    ¬∀ body, NamesFromSection body := by
  intro h
  have hnamed := (h "## Child work\n- [ ] #1\n```\n- [ ] #2\n```").named
    ⟨none, none, 2, "#2"⟩ (by decide +kernel)
  obtain ⟨item, first, ⟨line, hmem, hitem, hread⟩, hkey⟩ := hnamed
  have hlines : childLines "## Child work\n- [ ] #1\n```\n- [ ] #2\n```"
      = [("- [ ] #1", true), ("```", false), ("- [ ] #2", false), ("```", false)] := by
    decide
  rw [hlines] at hmem
  have hline : line = "- [ ] #1" := by simpa using hmem
  have hone : (taskItem "- [ ] #1").bind firstReference
      = some ⟨none, none, 1, "#1"⟩ := by decide +kernel
  rw [hline] at hitem
  rw [hitem, Option.bind_some, hread] at hone
  rw [Option.some.inj hone] at hkey
  exact absurd hkey (by decide)

end Opifex
