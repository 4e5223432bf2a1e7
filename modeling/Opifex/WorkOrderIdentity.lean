import Opifex.Lib.Json
import Opifex.Lib.Text

/-!
# Work-order identity, as arithmetic on strings

`wo_{repo}_{issue}_{commit7}_a{attempt}` and `factory/{issue}-{commit7}-a{n}`:
two dispatches of the same work at the same commit compute the same names, and
that is the whole of the idempotency. Coordinates that cannot be named
correctly are refused rather than coerced.

The owner is not part of the identity, and the repository is not part of the
branch.
-/

namespace Opifex

/-- What a work order is named by. Its identity, its branch and its directory are made
of these four. -/
structure WorkOrderCoordinates where
  /-- Repository name only, without the owner. -/
  repository : String
  issueNumber : ℕ
  baseCommit : String
  attempt : ℕ
deriving DecidableEq

/-- `[a-z0-9-]`. -/
def isSlugChar (c : Char) : Bool :=
  c.isLower || c.isDigit || c == '-'

/-- Every run of other characters becomes one dash; `inRun` says whether the
run has its dash already. -/
def dashRuns : (inRun : Bool) → List Char → List Char
  | _, [] => []
  | inRun, c :: cs =>
    if isSlugChar c then c :: dashRuns false cs
    else if inRun then dashRuns true cs
    else '-' :: dashRuns true cs

/-- Lower case, anything outside `[a-z0-9-]` a dash, none at either end. -/
def slug (repository : String) : String :=
  String.ofList
    (((dashRuns false (Text.toLowerCase repository).toList).dropWhile
      (· == '-')).rdropWhile (· == '-'))

/-- `[0-9a-f]`, in either case. -/
def isHexChar (c : Char) : Bool :=
  c.isDigit || ('a' ≤ c && c ≤ 'f') || ('A' ≤ c && c ≤ 'F')

/-- A full 40-character SHA. -/
def isFullSha (baseCommit : String) : Bool :=
  baseCommit.toList.length == 40 && baseCommit.toList.all isHexChar

/-- The first seven characters, in lower case. -/
def shortCommit (baseCommit : String) : String :=
  Text.toLowerCase (String.ofList (baseCommit.toList.take 7))

/-- **Refuse to name something that cannot be named correctly.** The message
names the coordinate at fault. -/
def validate (coordinates : WorkOrderCoordinates) : Except String Unit :=
  if slug coordinates.repository = "" then
    .error ("Repository name " ++ Json.quote coordinates.repository ++
      " has no usable characters")
  else if coordinates.issueNumber < 1 then
    .error ("Issue number must be a positive integer, got " ++
      toString coordinates.issueNumber)
  else if !isFullSha coordinates.baseCommit then
    .error ("Base commit must be a full 40-character SHA, got " ++
      Json.quote coordinates.baseCommit)
  else if coordinates.attempt < 1 then
    .error ("Attempt must be a positive integer, got " ++
      toString coordinates.attempt)
  else .ok ()

/-- The identity of coordinates that can be named. -/
def identityOf (coordinates : WorkOrderCoordinates) : String :=
  "wo_" ++ slug coordinates.repository ++ "_" ++
    toString coordinates.issueNumber ++ "_" ++
    shortCommit coordinates.baseCommit ++ "_a" ++ toString coordinates.attempt

/-- The branch of coordinates that can be named. -/
def branchOf (coordinates : WorkOrderCoordinates) : String :=
  "factory/" ++ toString coordinates.issueNumber ++ "-" ++
    shortCommit coordinates.baseCommit ++ "-a" ++ toString coordinates.attempt

/-- `wo_{repo}_{issue}_{commit7}_a{attempt}`. -/
def workOrderIdentity (coordinates : WorkOrderCoordinates) :
    Except String String := do
  validate coordinates
  return identityOf coordinates

/-- `factory/{issue}-{commit7}-a{attempt}`. -/
def workOrderBranch (coordinates : WorkOrderCoordinates) :
    Except String String := do
  validate coordinates
  return branchOf coordinates

/-- Coordinates are named exactly when they are valid, and then by their
pieces. -/
theorem workOrderIdentity_eq_ok {coordinates : WorkOrderCoordinates}
    {identity : String} :
    workOrderIdentity coordinates = .ok identity ↔
      validate coordinates = .ok () ∧ identity = identityOf coordinates := by
  unfold workOrderIdentity
  cases validate coordinates with
  | error message => simp [bind, Except.bind]
  | ok _ => simp [bind, Except.bind, pure, Except.pure, eq_comm]

theorem workOrderBranch_eq_ok {coordinates : WorkOrderCoordinates}
    {branch : String} :
    workOrderBranch coordinates = .ok branch ↔
      validate coordinates = .ok () ∧ branch = branchOf coordinates := by
  unfold workOrderBranch
  cases validate coordinates with
  | error message => simp [bind, Except.bind]
  | ok _ => simp [bind, Except.bind, pure, Except.pure, eq_comm]

/-! ## What an identity is made of -/

theorem isSlugChar_of_mem_dashRuns {inRun : Bool} {cs : List Char} {c : Char}
    (h : c ∈ dashRuns inRun cs) : isSlugChar c = true := by
  induction cs generalizing inRun with
  | nil => cases h
  | cons first cs ih =>
    unfold dashRuns at h
    by_cases hfirst : isSlugChar first = true
    · rw [if_pos hfirst] at h
      obtain rfl | h := List.mem_cons.mp h
      · exact hfirst
      · exact ih h
    · rw [if_neg hfirst] at h
      cases inRun with
      | true => exact ih h
      | false =>
        obtain rfl | h := List.mem_cons.mp h
        · decide
        · exact ih h

theorem isSlugChar_of_mem_slug {repository : String} {c : Char}
    (h : c ∈ (slug repository).toList) : isSlugChar c = true := by
  unfold slug at h
  rw [String.toList_ofList] at h
  refine @isSlugChar_of_mem_dashRuns false (Text.toLowerCase repository).toList _ ?_
  exact (List.dropWhile_suffix _).subset ((List.rdropWhile_prefix _ _).subset h)

theorem toNat_lt_of_isHexChar {c : Char} (hc : isHexChar c = true) :
    c.toNat < 128 := by
  simp only [isHexChar, Char.isDigit, Bool.or_eq_true, Bool.and_eq_true,
    decide_eq_true_eq, UInt32.le_iff_toNat_le, Char.le_def] at hc
  obtain (hc | hc) | hc := hc
  · exact lt_of_le_of_lt hc.2 (by decide)
  · exact lt_of_le_of_lt hc.2 (by decide)
  · exact lt_of_le_of_lt hc.2 (by decide)

/-- A digit of a commit's name is a slug's character in lower case. -/
theorem isSlugChar_of_mem_lowerChar {c d : Char} (hc : isHexChar c = true)
    (hd : d ∈ Text.lowerChar c) : isSlugChar d = true := by
  have hsmall : c.toNat < 128 := toNat_lt_of_isHexChar hc
  have hall : ∀ n < 128, isHexChar (Char.ofNat n) = true →
      (Text.lowerChar (Char.ofNat n)).all isSlugChar = true := by decide
  have hlower := hall c.toNat hsmall (by rwa [Char.ofNat_toNat])
  rw [Char.ofNat_toNat] at hlower
  exact List.all_eq_true.mp hlower d hd

theorem isSlugChar_of_mem_shortCommit {baseCommit : String} {c : Char}
    (hfull : isFullSha baseCommit = true)
    (h : c ∈ (shortCommit baseCommit).toList) : isSlugChar c = true := by
  unfold shortCommit Text.toLowerCase at h
  rw [String.toList_ofList, String.toList_ofList] at h
  obtain ⟨digit, hdigit, hlower⟩ := List.mem_flatMap.mp h
  have hhex := (Bool.and_eq_true_iff.mp hfull).2
  exact isSlugChar_of_mem_lowerChar
    (List.all_eq_true.mp hhex digit (List.mem_of_mem_take hdigit)) hlower

theorem isSlugChar_of_isDigit {c : Char} (h : c.isDigit = true) :
    isSlugChar c = true := by
  unfold isSlugChar
  rw [h, Bool.or_true, Bool.true_or]

theorem isPlain_of_isSlugChar {c : Char} (h : isSlugChar c = true) :
    Json.IsPlain c := by
  refine Json.isPlain_of_le ?_ ?_
  · simp only [isSlugChar, Text.isLower_eq, Char.isDigit, Bool.or_eq_true,
      Bool.and_eq_true, decide_eq_true_eq, beq_iff_eq, ge_iff_le,
      UInt32.le_iff_toNat_le] at h
    obtain (h | h) | rfl := h
    · exact le_trans (by decide) h.1
    · exact le_trans (by decide) h.1
    · decide
  · rintro rfl
    revert h
    decide

/-- **An identity needs no escape**: it is quoted as it is. -/
theorem isPlain_of_mem_identityOf {coordinates : WorkOrderCoordinates}
    (hfull : isFullSha coordinates.baseCommit = true) {c : Char}
    (h : c ∈ (identityOf coordinates).toList) : Json.IsPlain c := by
  have hnumber : ∀ n : ℕ, ∀ c ∈ (toString n : String).toList,
      Json.IsPlain c := fun n c hc =>
    isPlain_of_isSlugChar <| isSlugChar_of_isDigit <|
      Nat.isDigit_of_mem_toDigits (by decide) (by decide)
        (show c ∈ Nat.toDigits 10 n by simpa using hc)
  have hletter : ∀ c ∈ ['w', 'o', '_', 'a'], Json.IsPlain c := by
    intro c hc
    simp only [List.mem_cons, List.not_mem_nil, or_false] at hc
    obtain rfl | rfl | rfl | rfl := hc <;>
      exact Json.isPlain_of_le (by decide) (by decide)
  have hplain : ∀ s ∈ ["wo_", "_", "_a"], ∀ c ∈ s.toList, Json.IsPlain c := by
    intro s hs c hc
    refine hletter c ?_
    simp only [List.mem_cons, List.not_mem_nil, or_false] at hs
    obtain rfl | rfl | rfl := hs
    · exact List.mem_of_mem_take (show c ∈ ['w', 'o', '_', 'a'].take 3 from hc)
    · have hc : c ∈ ['_'] := hc
      rw [List.mem_singleton.mp hc]
      simp
    · exact List.mem_of_mem_drop (show c ∈ ['w', 'o', '_', 'a'].drop 2 from hc)
  unfold identityOf at h
  simp only [String.toList_append, List.mem_append] at h
  obtain ((((((h | h) | h) | h) | h) | h) | h) | h := h
  · exact hplain _ (by simp) c h
  · exact isPlain_of_isSlugChar (isSlugChar_of_mem_slug h)
  · exact hplain _ (by simp) c h
  · exact hnumber _ c h
  · exact hplain _ (by simp) c h
  · exact isPlain_of_isSlugChar (isSlugChar_of_mem_shortCommit hfull h)
  · exact hplain _ (by simp) c h
  · exact hnumber _ c h

/-- Coordinates that are named have a full commit. -/
theorem isFullSha_of_validate {coordinates : WorkOrderCoordinates}
    (h : validate coordinates = .ok ()) :
    isFullSha coordinates.baseCommit = true := by
  unfold validate at h
  split_ifs at h with hslug hissue hfull
  simpa using hfull

example : workOrderIdentity ⟨"My.Repo_2", 312,
    "A3F91C2000000000000000000000000000000000", 1⟩ =
      .ok "wo_my-repo-2_312_a3f91c2_a1" := by decide

end Opifex
