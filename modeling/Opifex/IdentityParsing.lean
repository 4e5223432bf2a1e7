import Mathlib.Tactic.NormNum
import Opifex.Lib.Pattern
import Opifex.WorkOrderIdentity

/-!
# Reading an identity back apart

`parseWorkOrderIdentity` matches `wo_(.+)_(\d+)_([0-9a-f]{7})_a(\d+)` against
the whole text. The first group is greedy and may hold the separator, so where
the text splits is a question about what the other three may hold: none of
them holds it, and so **a text splits in one way at most**, from the right
(`split_unique`). An identity splits at its own pieces, whatever its
repository is called.

What is read back is the slug, not the repository, and the short commit. It
follows that accepted coordinates with one identity agree in all four, and
share their branch.
-/

namespace Opifex

/-! ## The parser -/

/-- `[0-9a-f]`. -/
def isCommitChar (c : Char) : Bool :=
  c.isDigit || ('a' ≤ c && c ≤ 'f')

open Pattern in
/-- `^wo_(.+)_(\d+)_([0-9a-f]{7})_a(\d+)$`. -/
def identityPattern : Pattern :=
  all [textStart, text "wo_", group 1 (many1 dot), text "_",
    group 2 (many1 (char Char.isDigit)), text "_",
    group 3 (rep 7 (some 7) (char isCommitChar)), text "_a",
    group 4 (many1 (char Char.isDigit)), textEnd]

/-- **Read an identity back apart.** Only the short form of the commit
survives in it. -/
def parseWorkOrderIdentity (identity : String) : Option WorkOrderCoordinates :=
  (identityPattern.search [] identity.toList).map fun found =>
    { repository := found.2.captured 1
      issueNumber := Text.toNumber (found.2.captured 2)
      baseCommit := found.2.captured 3
      attempt := Text.toNumber (found.2.captured 4) }

example : parseWorkOrderIdentity "wo_a1_7_a3f91c2_a1_7_a3f91c2_a12" =
    some ⟨"a1_7_a3f91c2_a1", 7, "a3f91c2", 12⟩ := by decide +kernel

/-! ## One way to split -/

/-- The pieces of a name, put together. -/
def joined (repo issue commit attempt : List Char) : List Char :=
  "wo_".toList ++
    (repo ++ ("_".toList ++ (issue ++ ("_".toList ++ (commit ++
      ("_a".toList ++ attempt))))))

/-- What the groups of a match hold: a name, an issue number, seven characters of a
commit, and an attempt, each not empty. -/
structure Pieces (repo issue commit attempt : List Char) : Prop where
  repo : 1 ≤ repo.length ∧ ∀ c ∈ repo, !Text.isLineEnd c
  issue : 1 ≤ issue.length ∧ ∀ c ∈ issue, c.isDigit
  commit : commit.length = 7 ∧ ∀ c ∈ commit, isCommitChar c
  attempt : 1 ≤ attempt.length ∧ ∀ c ∈ attempt, c.isDigit

section Split

variable {repo repo' issue issue' commit commit' attempt attempt' : List Char}

/-- **Where the last three pieces hold no separator, the pieces are
determined.** -/
theorem split_unique (hissue : '_' ∉ issue) (hissue' : '_' ∉ issue')
    (hcommit : '_' ∉ commit) (hcommit' : '_' ∉ commit')
    (hattempt : '_' ∉ attempt) (hattempt' : '_' ∉ attempt')
    (h : joined repo issue commit attempt =
      joined repo' issue' commit' attempt') :
    repo = repo' ∧ issue = issue' ∧ commit = commit' ∧ attempt = attempt' := by
  have hpieces : ((repo ++ '_' :: issue) ++ '_' :: commit) ++
        '_' :: 'a' :: attempt =
      ((repo' ++ '_' :: issue') ++ '_' :: commit') ++
        '_' :: 'a' :: attempt' := by
    simpa [joined] using h
  obtain ⟨hthree, htail⟩ := Text.mark_append_inj (by simpa using hattempt)
    (by simpa using hattempt') hpieces
  obtain ⟨htwo, hcommits⟩ := Text.mark_append_inj hcommit hcommit' hthree
  obtain ⟨hrepos, hissues⟩ := Text.mark_append_inj hissue hissue' htwo
  exact ⟨hrepos, hissues, hcommits, (List.cons.inj htail).2⟩

/-- Digits and the digits of a commit hold no separator. -/
theorem Pieces.no_mark (h : Pieces repo issue commit attempt) :
    '_' ∉ issue ∧ '_' ∉ commit ∧ '_' ∉ attempt := by
  refine ⟨fun hmem => ?_, fun hmem => ?_, fun hmem => ?_⟩
  · exact absurd (h.issue.2 '_' hmem) (by decide)
  · exact absurd (h.commit.2 '_' hmem) (by decide)
  · exact absurd (h.attempt.2 '_' hmem) (by decide)

end Split

/-- The end of a match over these pieces. -/
def matchEnd (repo issue commit attempt : List Char) : Pattern.Pos where
  before := (joined repo issue commit attempt).reverse
  rest := []
  captures := [(4, attempt), (3, commit), (2, issue), (1, repo)]

open Pattern in
/-- **A match of the pattern is a split of the text into its pieces.** -/
theorem mem_ends_identityPattern {cs : List Char} {e : Pos} :
    e ∈ identityPattern.ends ⟨[], cs, []⟩ ↔
      ∃ repo issue commit attempt, cs = joined repo issue commit attempt ∧
        Pieces repo issue commit attempt ∧
        e = matchEnd repo issue commit attempt := by
  unfold identityPattern
  simp only [all, mem_ends_seq, mem_ends_textStart, mem_ends_textEnd,
    mem_ends_text, many1, dot, mem_ends_group_rep]
  constructor
  · rintro ⟨_, ⟨-, rfl⟩, _, ⟨_, h₁, rfl⟩, _,
      ⟨repo, _, h₂, hrepo, hrepoLow, -, rfl⟩, _, ⟨_, h₃, rfl⟩, _,
      ⟨issue, _, h₄, hissue, hissueLow, -, rfl⟩, _, ⟨_, h₅, rfl⟩, _,
      ⟨commit, _, h₆, hcommit, hcommitLow, hcommitHigh, rfl⟩, _,
      ⟨_, h₇, rfl⟩, _,
      ⟨attempt, _, h₈, hattempt, hattemptLow, -, rfl⟩, hend, rfl⟩
    simp only [rest_advance, rest_capture] at h₁ h₂ h₃ h₄ h₅ h₆ h₇ h₈ hend
    subst h₁ h₂ h₃ h₄ h₅ h₆ h₇ h₈ hend
    refine ⟨repo, issue, commit, attempt, by simp [joined],
      ⟨⟨hrepoLow, hrepo⟩, ⟨hissueLow, hissue⟩,
        ⟨le_antisymm (hcommitHigh 7 rfl) hcommitLow, hcommit⟩,
        ⟨hattemptLow, hattempt⟩⟩, ?_⟩
    simp [matchEnd, joined, Pos.advance, Pos.capture]
  · rintro ⟨repo, issue, commit, attempt, rfl,
      ⟨⟨hrepoLow, hrepo⟩, ⟨hissueLow, hissue⟩, ⟨hlength, hcommit⟩,
        hattemptLow, hattempt⟩, rfl⟩
    refine ⟨_, ⟨trivial, rfl⟩, _, ⟨_, rfl, rfl⟩, _,
      ⟨repo, _, rfl, hrepo, hrepoLow, (fun _ h => by cases h), rfl⟩, _, ⟨_, rfl, rfl⟩, _,
      ⟨issue, _, rfl, hissue, hissueLow, (fun _ h => by cases h), rfl⟩, _, ⟨_, rfl, rfl⟩, _,
      ⟨commit, _, rfl, hcommit, hlength.ge, ?_, rfl⟩, _, ⟨_, rfl, rfl⟩, _,
      ⟨attempt, [], ?_, hattempt, hattemptLow, (fun _ h => by cases h), rfl⟩, rfl, ?_⟩
    · rintro _ ⟨rfl⟩
      exact hlength.le
    · exact (List.append_nil _).symm
    · simp [matchEnd, joined, Pos.advance, Pos.capture]

/-! ## The pieces of an identity -/

/-- Coordinates that are named, with numbers that are exact: below `2 ^ 53` a number and
its digits determine each other. -/
structure Accepted (coordinates : WorkOrderCoordinates) : Prop where
  valid : validate coordinates = .ok ()
  issueNumber : coordinates.issueNumber < 2 ^ 53
  attempt : coordinates.attempt < 2 ^ 53

variable {coordinates : WorkOrderCoordinates}

theorem toList_identityOf :
    (identityOf coordinates).toList =
      joined (slug coordinates.repository).toList
        (toString coordinates.issueNumber : String).toList
        (shortCommit coordinates.baseCommit).toList
        (toString coordinates.attempt : String).toList := by
  unfold identityOf joined
  simp only [String.toList_append, List.append_assoc]

/-- A slug's characters lie between the dash and the last letter. -/
theorem toNat_of_isSlugChar {c : Char} (h : isSlugChar c) :
    45 ≤ c.toNat ∧ c.toNat ≤ 122 := by
  simp only [isSlugChar, Text.isLower_eq, Char.isDigit, Bool.or_eq_true,
    Bool.and_eq_true, decide_eq_true_eq, beq_iff_eq, ge_iff_le,
    UInt32.le_iff_toNat_le] at h
  obtain (h | h) | rfl := h
  · exact ⟨le_trans (by decide) h.1, le_trans h.2 (by decide)⟩
  · exact ⟨le_trans (by decide) h.1, le_trans h.2 (by decide)⟩
  · decide

theorem not_isLineEnd_of_isSlugChar {c : Char} (h : isSlugChar c) :
    !Text.isLineEnd c := by
  obtain ⟨hlow, hhigh⟩ := toNat_of_isSlugChar h
  have h₁ : c.toNat ≠ 10 := by omega
  have h₂ : c.toNat ≠ 13 := by omega
  have h₃ : c.toNat ≠ 0x2028 := by omega
  have h₄ : c.toNat ≠ 0x2029 := by omega
  simp [Text.isLineEnd, h₁, h₂, h₃, h₄]

theorem isDigit_of_mem_toString {n : ℕ} {c : Char}
    (h : c ∈ (toString n : String).toList) : c.isDigit :=
  Nat.isDigit_of_mem_toDigits (by decide) (by decide)
    (show c ∈ Nat.toDigits 10 n by simpa using h)

theorem one_le_length_toString (n : ℕ) :
    1 ≤ (toString n : String).toList.length := by
  simp [Nat.one_le_iff_ne_zero]

/-- A hexadecimal digit in lower case is one digit of a short commit. -/
theorem lowerChar_of_isHexChar {c : Char} (h : isHexChar c) :
    (Text.lowerChar c).length = 1 ∧
      ∀ d ∈ Text.lowerChar c, isCommitChar d := by
  have hall : ∀ n < 128, isHexChar (Char.ofNat n) →
      (Text.lowerChar (Char.ofNat n)).length = 1 ∧
        (Text.lowerChar (Char.ofNat n)).all isCommitChar := by decide
  have hsmall : c.toNat < 128 := toNat_lt_of_isHexChar h
  have hlower := hall c.toNat hsmall (by rwa [Char.ofNat_toNat])
  rw [Char.ofNat_toNat] at hlower
  exact ⟨hlower.1, List.all_eq_true.mp hlower.2⟩

/-- A short commit has seven digits. -/
theorem shortCommit_digits {baseCommit : String}
    (h : isFullSha baseCommit) :
    (shortCommit baseCommit).toList.length = 7 ∧
      ∀ c ∈ (shortCommit baseCommit).toList, isCommitChar c := by
  obtain ⟨hlength, hhex⟩ := Bool.and_eq_true_iff.mp h
  have hdigits : ∀ c ∈ baseCommit.toList.take 7, isHexChar c := fun c hc =>
    List.all_eq_true.mp hhex c (List.mem_of_mem_take hc)
  unfold shortCommit Text.toLowerCase
  simp only [String.toList_ofList]
  constructor
  · have hone : (baseCommit.toList.take 7).map
        (fun c => (Text.lowerChar c).length) =
        (baseCommit.toList.take 7).map fun _ => 1 :=
      List.map_congr_left fun c hc =>
        (lowerChar_of_isHexChar (hdigits c hc)).1
    rw [List.length_flatMap, hone]
    simp [eq_of_beq hlength]
  · intro d hd
    obtain ⟨c, hc, hmem⟩ := List.mem_flatMap.mp hd
    exact (lowerChar_of_isHexChar (hdigits c hc)).2 d hmem

/-- **The pieces of an identity are what the groups may hold.** -/
theorem pieces_of_validate (h : validate coordinates = .ok ()) :
    Pieces (slug coordinates.repository).toList
      (toString coordinates.issueNumber : String).toList
      (shortCommit coordinates.baseCommit).toList
      (toString coordinates.attempt : String).toList := by
  have hslug : (slug coordinates.repository).toList ≠ [] := by
    intro hnil
    unfold validate at h
    rw [if_pos (String.toList_eq_nil_iff.mp hnil)] at h
    exact nomatch h
  exact
    { repo := ⟨List.length_pos_of_ne_nil hslug, fun c hc =>
        not_isLineEnd_of_isSlugChar (isSlugChar_of_mem_slug hc)⟩
      issue := ⟨one_le_length_toString _, fun c => isDigit_of_mem_toString⟩
      commit := shortCommit_digits (isFullSha_of_validate h)
      attempt := ⟨one_le_length_toString _, fun c => isDigit_of_mem_toString⟩ }

/-- An identity is read back as its slug, its numbers and its short commit. -/
theorem parse_identityOf (h : Accepted coordinates) :
    parseWorkOrderIdentity (identityOf coordinates) =
      some ⟨slug coordinates.repository, coordinates.issueNumber,
        shortCommit coordinates.baseCommit, coordinates.attempt⟩ := by
  have hpieces := pieces_of_validate h.valid
  have hsearch := Pattern.search_eq_of_unique
    (mem_ends_identityPattern.mpr ⟨_, _, _, _, rfl, hpieces, rfl⟩)
    (by
      intro e he
      obtain ⟨repo, issue, commit, attempt, hsame, hother, rfl⟩ :=
        mem_ends_identityPattern.mp he
      obtain ⟨hissue, hcommit, hattempt⟩ := hpieces.no_mark
      obtain ⟨hissue', hcommit', hattempt'⟩ := hother.no_mark
      obtain ⟨rfl, rfl, rfl, rfl⟩ := split_unique hissue hissue' hcommit
        hcommit' hattempt hattempt' hsame
      rfl)
  rw [parseWorkOrderIdentity, toList_identityOf, hsearch, Option.map_some]
  show some (WorkOrderCoordinates.mk
    (String.ofList (slug coordinates.repository).toList)
    (Text.toNumber (String.ofList
      (toString coordinates.issueNumber : String).toList))
    (String.ofList (shortCommit coordinates.baseCommit).toList)
    (Text.toNumber (String.ofList
      (toString coordinates.attempt : String).toList))) = _
  simp only [String.ofList_toList, Text.toNumber_toString h.issueNumber,
    Text.toNumber_toString h.attempt]

/-- **Identities parse back, and name their branch uniquely.** -/
theorem identity_parses_back {c d : WorkOrderCoordinates} (hc : Accepted c)
    (hd : Accepted d) :
    (∃ identity, workOrderIdentity c = .ok identity ∧
      parseWorkOrderIdentity identity =
        some ⟨slug c.repository, c.issueNumber, shortCommit c.baseCommit,
          c.attempt⟩) ∧
    (workOrderIdentity c = workOrderIdentity d →
      slug c.repository = slug d.repository ∧
        c.issueNumber = d.issueNumber ∧
        shortCommit c.baseCommit = shortCommit d.baseCommit ∧
        c.attempt = d.attempt ∧ workOrderBranch c = workOrderBranch d) := by
  have hidentity := workOrderIdentity_eq_ok.mpr ⟨hc.valid, rfl⟩
  refine ⟨⟨_, hidentity, parse_identityOf hc⟩, fun hsame => ?_⟩
  obtain ⟨-, hnames⟩ := workOrderIdentity_eq_ok.mp (hsame.symm.trans hidentity)
  have hparsed := parse_identityOf hd
  rw [← hnames, parse_identityOf hc, Option.some.injEq,
    WorkOrderCoordinates.mk.injEq] at hparsed
  obtain ⟨hslug, hissue, hcommit, hattempt⟩ := hparsed
  refine ⟨hslug, hissue, hcommit, hattempt, ?_⟩
  rw [workOrderBranch_eq_ok.mpr ⟨hc.valid, rfl⟩,
    workOrderBranch_eq_ok.mpr ⟨hd.valid, rfl⟩, branchOf, branchOf, hissue,
    hcommit, hattempt]

/-- Two spellings of one repository, at commits that begin alike. -/
theorem identity_parses_back_spelled :
    workOrderBranch ⟨"My.Repo", 7,
        "A3F91C2000000000000000000000000000000000", 1⟩ =
      workOrderBranch ⟨"my_repo", 7,
        "a3f91c2fffffffffffffffffffffffffffffffff", 1⟩ :=
  ((identity_parses_back ⟨by decide +kernel, by norm_num, by norm_num⟩
    ⟨by decide +kernel, by norm_num, by norm_num⟩).2
      (by decide +kernel)).2.2.2.2

end Opifex
