import Mathlib.Data.List.Flatten
import Opifex.NeverTrustable

/-!
# The path guard cannot be spelled around

A path is read as two things: whether there are two dots in a row in it, and the
list of the segments that name something. Both are put together at a separator –
**what is read of `x/y` is what is read of `x` and of `y`** – so a separator, or a
dot and a separator, put where a segment ends or begins changes neither, and the
verdict is a function of the two.

What the rules refuse is then a matter of the segments: a protected directory is
a beginning of them, a protected file is all of them, and an environment file is
the last of them. Of names that begin with `.env.` the one that goes no further
is not refused; and a separator put inside a name makes two names of it, which
are other files.
-/

namespace Opifex

/-! ## What is read of a path -/

/-- `/`, and what is treated as one. -/
def IsSeparator (c : Char) : Prop := c = '/' ∨ c = '\\'

/-- Both slashes are one. -/
def unifiedSlash (c : Char) : Char := if c = '\\' then '/' else c

theorem unifiedSlash_of_isSeparator {c : Char} (h : IsSeparator c) :
    unifiedSlash c = '/' := by
  obtain rfl | rfl := h <;> rfl

theorem unifiedSlash_eq_dot {c : Char} : unifiedSlash c = '.' ↔ c = '.' := by
  unfold unifiedSlash
  by_cases h : c = '\\'
  · rw [if_pos h, h]
    decide
  · rw [if_neg h]

/-- Two dots in a row. -/
def HasParentReference (chars : List Char) : Prop := ['.', '.'] <:+: chars

/-- The segments that name something. -/
def segmentsOf (chars : List Char) : List (List Char) :=
  ((chars.map unifiedSlash).splitOn '/').filter fun segment =>
    segment != [] && segment != ['.']

section Reading

variable {x y : List Char} {c : Char}

theorem segmentsOf_append_cons (hc : IsSeparator c) :
    segmentsOf (x ++ c :: y) = segmentsOf x ++ segmentsOf y := by
  unfold segmentsOf
  rw [List.map_append, List.map_cons, unifiedSlash_of_isSeparator hc,
    List.splitOn_append_cons_self, List.filter_append]

theorem hasParentReference_append_cons (hc : IsSeparator c) :
    HasParentReference (x ++ c :: y)
      ↔ HasParentReference x ∨ HasParentReference y := by
  refine Parts.infix_append_cons_iff ?_
  obtain rfl | rfl := hc <;> decide

@[simp] theorem segmentsOf_nil : segmentsOf [] = [] := by decide

@[simp] theorem segmentsOf_dot : segmentsOf ['.'] = [] := by decide

theorem not_hasParentReference_nil : ¬HasParentReference [] := by
  unfold HasParentReference
  decide

theorem not_hasParentReference_dot : ¬HasParentReference ['.'] := by
  unfold HasParentReference
  decide

/-- No segment is empty or holds a slash. -/
theorem of_mem_segmentsOf {segment : List Char} (h : segment ∈ segmentsOf x) :
    segment ≠ [] ∧ '/' ∉ segment := by
  obtain ⟨hmem, hkeep⟩ := List.mem_filter.mp h
  refine ⟨?_, Parts.mark_notMem hmem⟩
  rintro rfl
  simp at hkeep

/-- Two paths are read alike. -/
def ReadAlike (x y : List Char) : Prop :=
  (HasParentReference x ↔ HasParentReference y) ∧ segmentsOf x = segmentsOf y

theorem ReadAlike.append_cons {x' y' : List Char} {c' : Char} (hc : IsSeparator c)
    (hc' : IsSeparator c') (hx : ReadAlike x x') (hy : ReadAlike y y') :
    ReadAlike (x ++ c :: y) (x' ++ c' :: y') := by
  refine ⟨?_, ?_⟩
  · rw [hasParentReference_append_cons hc, hasParentReference_append_cons hc', hx.1,
      hy.1]
  · rw [segmentsOf_append_cons hc, segmentsOf_append_cons hc', hx.2, hy.2]

theorem ReadAlike.refl (x : List Char) : ReadAlike x x := ⟨Iff.rfl, rfl⟩

/-- A separator before a path is not read. -/
theorem readAlike_cons (hc : IsSeparator c) : ReadAlike (c :: y) y := by
  refine ⟨?_, ?_⟩
  · have h := @hasParentReference_append_cons [] y c hc
    rw [List.nil_append] at h
    rw [h, or_iff_right not_hasParentReference_nil]
  · have h := @segmentsOf_append_cons [] y c hc
    rwa [List.nil_append, segmentsOf_nil, List.nil_append] at h

/-- Nor is one after it. -/
theorem readAlike_concat (hc : IsSeparator c) : ReadAlike (x ++ [c]) x := by
  refine ⟨?_, ?_⟩
  · rw [hasParentReference_append_cons hc, or_iff_left not_hasParentReference_nil]
  · rw [segmentsOf_append_cons hc, segmentsOf_nil, List.append_nil]

/-- Nor a dot and a separator before it. -/
theorem readAlike_dot_cons (hc : IsSeparator c) : ReadAlike ('.' :: c :: y) y := by
  refine ⟨?_, ?_⟩
  · have h := @hasParentReference_append_cons ['.'] y c hc
    rw [List.singleton_append] at h
    rw [h, or_iff_right not_hasParentReference_dot]
  · have h := @segmentsOf_append_cons ['.'] y c hc
    rwa [List.singleton_append, segmentsOf_dot, List.nil_append] at h

end Reading

/-! ## Where a segment begins or ends -/

/-- Before anything else, or after a separator. -/
def AtSegmentStart (before : List Char) : Prop :=
  before = [] ∨ ∃ start c, IsSeparator c ∧ before = start ++ [c]

/-- After everything else, or before a separator. -/
def AtSegmentEnd (after : List Char) : Prop :=
  after = [] ∨ ∃ c rest, IsSeparator c ∧ after = c :: rest

section Spelling

variable {before after : List Char} {separator : Char}

/-- What is read alike before a separator is read alike behind one. -/
theorem readAlike_of_atSegmentStart {x y : List Char}
    (hbefore : AtSegmentStart before) (h : ReadAlike x y) :
    ReadAlike (before ++ x) (before ++ y) := by
  obtain rfl | ⟨start, c, hc, rfl⟩ := hbefore
  · exact h
  · rw [List.append_assoc, List.append_assoc]
    exact ReadAlike.append_cons hc hc (ReadAlike.refl start) h

/-- **A separator between segments is not read.** -/
theorem readAlike_separator (hseparator : IsSeparator separator)
    (h : AtSegmentStart before ∨ AtSegmentEnd after) :
    ReadAlike (before ++ separator :: after) (before ++ after) := by
  obtain hbefore | rfl | ⟨c, rest, hc, rfl⟩ := h
  · exact readAlike_of_atSegmentStart hbefore (readAlike_cons hseparator)
  · rw [List.append_nil]
    exact readAlike_concat hseparator
  · exact ReadAlike.append_cons hseparator hc (ReadAlike.refl before)
      (readAlike_cons hc)

/-- **Nor is a dot and a separator where a segment begins.** -/
theorem readAlike_dot_separator (hseparator : IsSeparator separator)
    (hbefore : AtSegmentStart before) :
    ReadAlike (before ++ '.' :: separator :: after) (before ++ after) :=
  readAlike_of_atSegmentStart hbefore (readAlike_dot_cons hseparator)

end Spelling

/-! ## The verdict -/

/-- The segments as texts. -/
def pathSegments (rawPath : String) : List String :=
  (segmentsOf rawPath.toList).map String.ofList

/-- The first rule that the segments, joined, match. -/
def segmentsReason (segments : List String) : Option String :=
  (forbiddenWritePaths.find? fun rule =>
    matchesPattern rule.pattern ("/".intercalate segments)).map (·.why)

section Verdict

variable {rawPath rawPath' : String}

theorem toList_unified :
    (Text.replaceChar '\\' '/' rawPath).toList = rawPath.toList.map unifiedSlash := by
  simp [Text.replaceChar, unifiedSlash]

/-- Treating backslashes as slashes moves no dot. -/
theorem includes_unified :
    Text.includes (Text.replaceChar '\\' '/' rawPath) ".." = true
      ↔ HasParentReference rawPath.toList := by
  rw [Text.includes_iff, toList_unified]
  show ['.', '.'] <:+: _ ↔ ['.', '.'] <:+: _
  constructor
  · rintro ⟨before, after, h⟩
    obtain ⟨l, after', hraw, hl, -⟩ := List.map_eq_append_iff.mp h.symm
    obtain ⟨before', dots, hbefore, -, hdots⟩ := List.map_eq_append_iff.mp hl
    obtain ⟨a, rest, rfl, ha, hrest⟩ := List.map_eq_cons_iff.mp hdots
    obtain ⟨b, rest', rfl, hb, hnil⟩ := List.map_eq_cons_iff.mp hrest
    rw [unifiedSlash_eq_dot] at ha hb
    rw [ha, hb, List.map_eq_nil_iff.mp hnil] at hbefore
    exact ⟨before', after', by rw [hraw, hbefore]⟩
  · rintro ⟨before, after, h⟩
    refine ⟨before.map unifiedSlash, after.map unifiedSlash, ?_⟩
    rw [← h, List.map_append, List.map_append]
    rfl

theorem segments_unified :
    ((Text.split '/' (Text.replaceChar '\\' '/' rawPath)).filter fun segment =>
        segment != "" && segment != ".") = pathSegments rawPath := by
  have hkeep : ((fun segment : String => segment != "" && segment != ".")
        ∘ String.ofList)
      = fun segment => segment != [] && segment != ['.'] := by
    funext segment
    have hempty : (String.ofList segment != "") = (segment != []) := by
      rw [Bool.eq_iff_iff, bne_iff_ne, bne_iff_ne, ne_eq, ne_eq, String.ofList_eq]
      rfl
    have hdot : (String.ofList segment != ".") = (segment != ['.']) := by
      rw [Bool.eq_iff_iff, bne_iff_ne, bne_iff_ne, ne_eq, ne_eq, String.ofList_eq]
      rfl
    show (_ && _) = _
    rw [hempty, hdot]
  unfold Text.split pathSegments segmentsOf
  rw [toList_unified, List.filter_map, hkeep]

theorem normaliseWritePath_eq :
    normaliseWritePath rawPath
      = if Text.includes (Text.replaceChar '\\' '/' rawPath) ".." then none
        else some ("/".intercalate (pathSegments rawPath)) := by
  unfold normaliseWritePath
  dsimp only
  rw [segments_unified]

theorem forbiddenPathReason_of_parent
    (h : HasParentReference rawPath.toList) :
    forbiddenPathReason rawPath
      = some "a path containing \"..\" is a traversal attempt, not a file name" := by
  rw [forbiddenPathReason, normaliseWritePath_eq, if_pos (includes_unified.mpr h)]

theorem forbiddenPathReason_of_not_parent
    (h : ¬HasParentReference rawPath.toList) :
    forbiddenPathReason rawPath = segmentsReason (pathSegments rawPath) := by
  rw [forbiddenPathReason, normaliseWritePath_eq,
    if_neg fun hdots => h (includes_unified.mp hdots)]
  rfl

/-- **The verdict is a function of what is read.** -/
theorem forbiddenPathReason_congr
    (h : ReadAlike rawPath.toList rawPath'.toList) :
    forbiddenPathReason rawPath = forbiddenPathReason rawPath' := by
  by_cases hparent : HasParentReference rawPath.toList
  · rw [forbiddenPathReason_of_parent hparent,
      forbiddenPathReason_of_parent (h.1.mp hparent)]
  · rw [forbiddenPathReason_of_not_parent hparent,
      forbiddenPathReason_of_not_parent fun h' => hparent (h.1.mpr h'), pathSegments,
      h.2, ← pathSegments]

end Verdict

/-! ## The patterns -/

/-- Segments as they are read of a path. -/
def AreNames (segments : List String) : Prop :=
  ∀ segment ∈ segments, segment ≠ "" ∧ '/' ∉ segment.toList

theorem areNames_pathSegments (rawPath : String) :
    AreNames (pathSegments rawPath) := by
  intro segment hsegment
  obtain ⟨chars, hmem, rfl⟩ := List.mem_map.mp hsegment
  obtain ⟨hne, hslash⟩ := of_mem_segmentsOf hmem
  rw [String.toList_ofList]
  refine ⟨fun h => hne ?_, hslash⟩
  simpa using congrArg String.toList h

theorem AreNames.mark_notMem {segments : List String} (h : AreNames segments) :
    ∀ part ∈ segments.map String.toList, '/' ∉ part := by
  intro part hpart
  obtain ⟨segment, hmem, rfl⟩ := List.mem_map.mp hpart
  exact (h segment hmem).2

/-- Joined names are no empty text. -/
theorem AreNames.intercalate_ne_nil {segments : List String}
    (h : AreNames segments) (hne : segments ≠ []) :
    ['/'].intercalate (segments.map String.toList) ≠ [] := by
  intro hnil
  have hsplit := List.splitOn_intercalate '/' h.mark_notMem (by simpa using hne)
  rw [hnil, List.splitOn_nil] at hsplit
  obtain ⟨first, hfirst, hempty⟩ : ∃ first ∈ segments, first.toList = [] :=
    List.mem_map.mp (hsplit ▸ List.mem_singleton_self _)
  exact (h first hfirst).1 (String.toList_eq_nil_iff.mp hempty)

section Patterns

variable {segments protectedSegments : List String}

section Joined

variable (h : AreNames segments) (hprotected : AreNames protectedSegments)
  (hne : protectedSegments ≠ [])
include h hprotected hne

/-- A file is protected by all its segments. -/
theorem intercalate_eq_iff :
    "/".intercalate segments = "/".intercalate protectedSegments
      ↔ segments = protectedSegments := by
  refine ⟨fun heq => ?_, fun heq => heq ▸ rfl⟩
  have hlist := congrArg String.toList heq
  rw [String.toList_intercalate, String.toList_intercalate] at hlist
  by_cases hsegments : segments = []
  · rw [hsegments] at hlist
    exact absurd hlist.symm (hprotected.intercalate_ne_nil hne)
  · have hmap := (Parts.intercalate_inj h.mark_notMem hprotected.mark_notMem
      (by simpa using hsegments) (by simpa using hne)).mp hlist
    exact List.map_injective_iff.mpr (fun _ _ => String.toList_inj.mp) hmap

/-- A directory is protected by the segments it begins with. -/
theorem directory_iff :
    ("/".intercalate segments = "/".intercalate protectedSegments
        ∨ Text.startsWith ("/".intercalate segments)
          ("/".intercalate protectedSegments ++ "/") = true)
      ↔ protectedSegments <+: segments := by
  have hmap : protectedSegments <+: segments ↔
      protectedSegments.map String.toList <+: segments.map String.toList := by
    refine ⟨fun hprefix => hprefix.map _, fun hprefix => ?_⟩
    have hback := hprefix.map String.ofList
    simpa [Function.comp_def] using hback
  have hmarked : protectedSegments <+: segments ↔
      ['/'].intercalate (protectedSegments.map String.toList) ++ ['/']
        <+: ['/'].intercalate (segments.map String.toList) ++ ['/'] := by
    by_cases hsegments : segments = []
    · rw [hsegments]
      refine ⟨fun hprefix => absurd (List.prefix_nil.mp hprefix) hne,
        fun hprefix => ?_⟩
      have hlength := hprefix.length_le
      have hempty : ['/'].intercalate (protectedSegments.map String.toList) = [] :=
        List.length_eq_zero_iff.mp (by simpa using hlength)
      exact absurd hempty (hprotected.intercalate_ne_nil hne)
    · rw [hmap, ← Parts.flatMap_prefix_iff hprotected.mark_notMem h.mark_notMem,
        Parts.intercalate_concat (by simpa using hne),
        Parts.intercalate_concat (by simpa using hsegments)]
  rw [hmarked, List.prefix_concat_iff, Text.startsWith_iff, String.toList_append,
    String.toList_intercalate, String.toList_intercalate, ← String.toList_inj,
    String.toList_intercalate, String.toList_intercalate,
    List.append_cancel_right_eq]
  exact ⟨fun hor => hor.imp Eq.symm fun hstart => hstart,
    fun hor => hor.imp Eq.symm fun hstart => hstart⟩

end Joined

/-- A name is the last of the segments. -/
theorem basenameOf_intercalate (h : AreNames segments) :
    basenameOf ("/".intercalate segments) = segments.getLast?.getD "" := by
  have hkeep : ∀ part ∈ segments.map String.toList, ∀ c ∈ part,
      (c != '/') = true := by
    intro part hpart c hc
    refine bne_iff_ne.mpr fun heq => h.mark_notMem part hpart ?_
    rwa [← heq]
  unfold basenameOf
  rw [String.toList_intercalate]
  show String.ofList (([('/' : Char)].intercalate (segments.map String.toList)).rtakeWhile
    (· != '/')) = _
  rw [Parts.rtakeWhile_intercalate (by decide) hkeep, List.getLast?_map]
  cases segments.getLast? with
  | none => rfl
  | some name => exact String.ofList_toList

end Patterns

/-! ## Environment files -/

/-- The name of an environment file. -/
def IsEnvName (name : String) : Prop :=
  name = ".env" ∨ (Text.startsWith name ".env." ∧ name ≠ ".env.")
    ∨ Text.endsWith name ".env"

theorem length_append (start rest : List Char) :
    Text.length (String.ofList (start ++ rest))
      = Text.length (String.ofList start) + Text.length (String.ofList rest) := by
  simp [Text.length]

theorem length_pos {rest : List Char} (hne : rest ≠ []) :
    0 < Text.length (String.ofList rest) := by
  obtain ⟨c, rest, rfl⟩ := List.exists_cons_of_ne_nil hne
  simp only [Text.length, String.toList_ofList, List.map_cons, List.sum_cons]
  by_cases hc : c.toNat < 0x10000
  · rw [if_pos hc]
    omega
  · rw [if_neg hc]
    omega

/-- A text that starts with another is longer unless it is the other. -/
theorem length_lt_iff_of_startsWith {name start : String}
    (h : Text.startsWith name start) :
    Text.length start < Text.length name ↔ name ≠ start := by
  refine ⟨fun hlt heq => absurd (heq ▸ hlt) (lt_irrefl _), fun hne => ?_⟩
  obtain ⟨rest, hrest⟩ := Text.startsWith_iff.mp h
  have hsplit := length_append start.toList rest
  rw [hrest, String.ofList_toList, String.ofList_toList] at hsplit
  have hpos := @length_pos rest fun hnil => hne <| String.toList_inj.mp <| by
    rw [← hrest, hnil, List.append_nil]
  omega

/-- And so is one that ends with another. -/
theorem length_lt_iff_of_endsWith {name ending : String}
    (h : Text.endsWith name ending) :
    Text.length ending < Text.length name ↔ name ≠ ending := by
  refine ⟨fun hlt heq => absurd (heq ▸ hlt) (lt_irrefl _), fun hne => ?_⟩
  obtain ⟨start, hstart⟩ := Text.endsWith_iff.mp h
  have hsplit := length_append start ending.toList
  rw [hstart, String.ofList_toList, String.ofList_toList] at hsplit
  have hpos := @length_pos start fun hnil => hne <| String.toList_inj.mp <| by
    rw [← hstart, hnil, List.nil_append]
  omega

/-- The three environment rules together. -/
theorem matchesBasename_env {name : String} :
    (matchesBasename ".env" name = true ∨ matchesBasename ".env.*" name = true
        ∨ matchesBasename "*.env" name = true)
      ↔ IsEnvName name := by
  have hexact : matchesBasename ".env" name = (name == ".env") := by
    rw [matchesBasename, if_neg (by decide), if_neg (by decide)]
  have hstart : matchesBasename ".env.*" name
      = (Text.startsWith name ".env."
        && decide (Text.length ".env." < Text.length name)) := by
    rw [matchesBasename, if_neg (by decide), if_pos (by decide),
      show Text.sliceEnd 1 ".env.*" = ".env." by decide]
  have hend : matchesBasename "*.env" name
      = (Text.endsWith name ".env"
        && decide (Text.length ".env" < Text.length name)) := by
    rw [matchesBasename, if_pos (by decide),
      show Text.slice 1 "*.env" = ".env" by decide]
  rw [hexact, hstart, hend, beq_iff_eq, Bool.and_eq_true, Bool.and_eq_true,
    decide_eq_true_iff, decide_eq_true_iff]
  unfold IsEnvName
  constructor
  · rintro (h | ⟨h, hlt⟩ | ⟨h, hlt⟩)
    · exact Or.inl h
    · exact Or.inr (Or.inl ⟨h, (length_lt_iff_of_startsWith h).mp hlt⟩)
    · exact Or.inr (Or.inr h)
  · rintro (h | ⟨h, hne⟩ | h)
    · exact Or.inl h
    · exact Or.inr (Or.inl ⟨h, (length_lt_iff_of_startsWith h).mpr hne⟩)
    · by_cases hname : name = ".env"
      · exact Or.inl hname
      · exact Or.inr (Or.inr ⟨h, (length_lt_iff_of_endsWith h).mpr hname⟩)

/-! ## What is protected -/

/-- The directories that are protected with all they contain. -/
def protectedDirectories : List (List String) :=
  [[".github", "workflows"], [".github", "actions"], ["scripts"],
    ["apps", "api", "src", "autonomy"]]

/-- The single files that are protected. -/
def protectedFiles : List (List String) :=
  [["apps", "api", "src", "supervisor", "action-classes.ts"]]

/-- **What is protected**: everything in a protected directory and the directory
itself, the protected files, and environment files anywhere. -/
def IsProtected (segments : List String) : Prop :=
  (∃ directory ∈ protectedDirectories, directory <+: segments)
    ∨ segments ∈ protectedFiles
    ∨ ∃ name, segments.getLast? = some name ∧ IsEnvName name

section Protected

variable {segments : List String}

/-- A pattern of the first form. -/
theorem matchesPattern_directory {pattern : String} {directory : List String}
    (hpattern : Text.endsWith pattern "/**")
    (hslice : Text.sliceEnd 3 pattern = "/".intercalate directory)
    (h : AreNames segments) (hdirectory : AreNames directory)
    (hne : directory ≠ []) :
    matchesPattern pattern ("/".intercalate segments) = true
      ↔ directory <+: segments := by
  rw [matchesPattern, if_pos hpattern, hslice, Bool.or_eq_true, beq_iff_eq]
  exact directory_iff h hdirectory hne

/-- A pattern of the second form. -/
theorem matchesPattern_basename {pattern glob : String}
    (hpattern : ¬Text.endsWith pattern "/**")
    (hstart : Text.startsWith pattern "**/") (hslice : Text.slice 3 pattern = glob)
    (h : AreNames segments) :
    matchesPattern pattern ("/".intercalate segments)
      = matchesBasename glob (segments.getLast?.getD "") := by
  rw [matchesPattern, if_neg hpattern, if_pos hstart, hslice,
    basenameOf_intercalate h]

/-- A pattern of the third form. -/
theorem matchesPattern_file {pattern : String} {file : List String}
    (hpattern : ¬Text.endsWith pattern "/**")
    (hstart : ¬Text.startsWith pattern "**/")
    (hfile : pattern = "/".intercalate file) (h : AreNames segments)
    (hnames : AreNames file) (hne : file ≠ []) :
    matchesPattern pattern ("/".intercalate segments) = true
      ↔ segments = file := by
  rw [matchesPattern, if_neg hpattern, if_neg hstart, beq_iff_eq, hfile]
  exact intercalate_eq_iff h hnames hne

instance (segments : List String) : Decidable (AreNames segments) :=
  inferInstanceAs (Decidable (∀ _ ∈ segments, _))

theorem isEnvName_getD :
    IsEnvName (segments.getLast?.getD "")
      ↔ ∃ name, segments.getLast? = some name ∧ IsEnvName name := by
  cases segments.getLast? with
  | none =>
    have hempty : ¬IsEnvName "" := by
      unfold IsEnvName
      decide
    simpa using hempty
  | some name => simp

/-- **The rules refuse what is protected.** -/
theorem segmentsReason_isSome (h : AreNames segments) :
    (segmentsReason segments).isSome ↔ IsProtected segments := by
  rw [segmentsReason, Option.isSome_map, List.find?_isSome]
  simp only [forbiddenWritePaths, List.mem_cons, List.not_mem_nil, or_false,
    exists_eq_or_imp, exists_eq_left]
  rw [@matchesPattern_directory _ _ [".github", "workflows"] (by decide)
      (by decide) h (by decide) (by decide),
    @matchesPattern_directory _ _ [".github", "actions"] (by decide)
      (by decide) h (by decide) (by decide),
    @matchesPattern_directory _ _ ["scripts"] (by decide)
      (by decide) h (by decide) (by decide),
    @matchesPattern_directory _ _ ["apps", "api", "src", "autonomy"] (by decide)
      (by decide) h (by decide) (by decide),
    @matchesPattern_file _ _
      ["apps", "api", "src", "supervisor", "action-classes.ts"] (by decide)
      (by decide) (by decide) h (by decide) (by decide),
    @matchesPattern_basename _ _ ".env" (by decide) (by decide) (by decide) h,
    @matchesPattern_basename _ _ ".env.*" (by decide) (by decide) (by decide) h,
    @matchesPattern_basename _ _ "*.env" (by decide) (by decide) (by decide) h,
    matchesBasename_env, isEnvName_getD]
  unfold IsProtected protectedDirectories protectedFiles
  simp only [List.mem_cons, List.not_mem_nil, or_false, exists_eq_or_imp,
    exists_eq_left, or_assoc]

end Protected

/-! ## The check as a whole -/

section Check

variable {numberText : ℚ → String} {ceiling : HardCeiling}

/-- A round puts the refusals of its effect after those before. -/
theorem checkEffect_append (refusals : List NeverTrustableRefusal)
    (effect : AutonomyEffect) :
    checkEffect numberText ceiling refusals effect
      = refusals ++ checkEffect numberText ceiling [] effect := by
  cases effect with
  | gitPush repository branch force protectedBranch =>
    cases force <;> cases protectedBranch <;> simp [checkEffect]
  | delete subject ref => cases subject <;> simp [checkEffect]
  | spend usd =>
    unfold checkEffect
    dsimp only
    cases spendRefusalReason numberText usd ceiling <;> simp
  | fileWrite repository path =>
    unfold checkEffect
    dsimp only
    cases forbiddenPathReason path <;> simp
  | trustGrantWrite operation => cases operation <;> simp [checkEffect]
  | _ => simp [checkEffect]

/-- **The refusals are those of each effect**, one after the other. -/
theorem checkNeverTrustable_eq (effects : List AutonomyEffect) :
    checkNeverTrustable numberText effects ceiling
      = effects.flatMap (checkEffect numberText ceiling []) := by
  have hfold : ∀ refusals, effects.foldl (checkEffect numberText ceiling) refusals
      = refusals ++ effects.flatMap (checkEffect numberText ceiling []) := by
    induction effects with
    | nil => simp
    | cons effect effects ih =>
      intro refusals
      rw [List.foldl_cons, ih, checkEffect_append, List.flatMap_cons,
        List.append_assoc]
  exact hfold []

end Check

/-- **The guard cannot be spelled around.** A path with two dots in a row is
refused; of every other path the verdict is that of its segments, and refuses
just what is protected. A separator between two segments, before the first or
after the last, or a dot and a separator before one, changes no verdict. The
refusals of a list of effects are those of each of them in turn, so that no
effect takes another's refusal away. -/
theorem forbiddenPathReason_exact (numberText : ℚ → String)
    (ceiling : HardCeiling) (rawPath : String) :
    (HasParentReference rawPath.toList → (forbiddenPathReason rawPath).isSome)
      ∧ (¬HasParentReference rawPath.toList →
        forbiddenPathReason rawPath = segmentsReason (pathSegments rawPath)
          ∧ ((forbiddenPathReason rawPath).isSome
            ↔ IsProtected (pathSegments rawPath)))
      ∧ (∀ before after : String, ∀ separator,
        rawPath = before ++ after → IsSeparator separator →
          (AtSegmentStart before.toList ∨ AtSegmentEnd after.toList →
            forbiddenPathReason (before ++ String.singleton separator ++ after)
              = forbiddenPathReason rawPath)
            ∧ (AtSegmentStart before.toList →
              forbiddenPathReason
                  (before ++ "." ++ String.singleton separator ++ after)
                = forbiddenPathReason rawPath))
      ∧ (∀ effects, checkNeverTrustable numberText effects ceiling
        = effects.flatMap fun effect =>
          checkNeverTrustable numberText [effect] ceiling)
      ∧ ∀ fewer effects : List AutonomyEffect, fewer.Sublist effects →
        (checkNeverTrustable numberText fewer ceiling).Sublist
          (checkNeverTrustable numberText effects ceiling) := by
  refine ⟨fun h => ?_, fun h => ?_, ?_, fun effects => ?_, fun fewer effects h => ?_⟩
  · rw [forbiddenPathReason_of_parent h]
    rfl
  · rw [forbiddenPathReason_of_not_parent h]
    exact ⟨rfl, segmentsReason_isSome (areNames_pathSegments rawPath)⟩
  · rintro before after separator rfl hseparator
    refine ⟨fun h => forbiddenPathReason_congr ?_, fun h =>
      forbiddenPathReason_congr ?_⟩
    · simp only [String.toList_append, String.toList_singleton, List.append_assoc,
        List.singleton_append]
      exact readAlike_separator hseparator h
    · simp only [String.toList_append, String.toList_singleton, List.append_assoc,
        List.singleton_append]
      exact readAlike_dot_separator hseparator h
  · simp only [checkNeverTrustable_eq, List.flatMap_cons, List.flatMap_nil,
      List.append_nil]
  · rw [checkNeverTrustable_eq, checkNeverTrustable_eq]
    exact h.flatMap _

/-- **Two spellings that are permitted**: the name that goes no further than
`.env.`, and a protected directory with a separator inside its name. -/
theorem permits_env_dot :
    (¬∀ rawPath : String, ¬HasParentReference rawPath.toList →
        (∃ name, (pathSegments rawPath).getLast? = some name
          ∧ Text.startsWith name ".env.") →
            (forbiddenPathReason rawPath).isSome)
      ∧ ¬∀ before after : String, (forbiddenPathReason (before ++ after)).isSome →
        (forbiddenPathReason (before ++ "/" ++ after)).isSome := by
  refine ⟨fun h => ?_, fun h => ?_⟩
  · have henv := h ".env." (by unfold HasParentReference; decide)
      ⟨".env.", by decide, by decide⟩
    exact absurd henv (by decide)
  · have hsplit := h "scri" "pts/gate.mjs" (by decide)
    exact absurd hsplit (by decide)

end Opifex
