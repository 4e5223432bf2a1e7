import Opifex.Lib.Pattern

/-!
# Whether an issue is specified well enough

A set of dumb, checkable rules: a criterion is refused when it is a
placeholder, too short to state an outcome, or turns on a phrase that describes
a feeling. Each refusal names the criterion it is about.
-/

namespace Opifex

/-- What is wrong with the criteria of an issue, or with one of them. The check collects
the problems of all criteria; a problem with the whole set names none of them. -/
structure CriteriaProblem where
  /-- The offending criterion, or null for a problem with the whole set. -/
  criterion : Option String
  reason : String
deriving DecidableEq

/-- Shortest criterion worth calling a criterion. -/
def minCriterionLength : ℕ := 12

/-- Placeholders that mean the section was never filled in. -/
def placeholders : List String :=
  ["tbd", "todo", "n/a", "na", "none", "tba", "-", "...", "see above",
    "as described", "as discussed"]

/-- Phrases that describe a feeling rather than an observation. -/
def subjectivePhrases : List String :=
  ["looks good", "looks right", "works well", "works properly",
    "works correctly", "is clean", "is nice", "is elegant", "is intuitive",
    "is user-friendly", "is performant", "is fast", "is robust",
    "is maintainable", "is readable", "makes sense", "as appropriate",
    "as needed", "etc"]

/-- `(^|[^a-z])phrase([^a-z]|$)`. -/
def phrasePattern (phrase : String) : Pattern :=
  let notLetter := Pattern.char fun c => !('a' ≤ c && c ≤ 'z')
  Pattern.all
    [.group 1 (.alt .textStart notLetter), Pattern.text phrase,
      .group 2 (.alt notLetter .textEnd)]

/-- Whole-phrase containment. -/
def containsPhrase (haystack phrase : String) : Bool :=
  (phrasePattern phrase).test haystack

/-- Lower case, closing dots and exclamation marks off. -/
def normalizeCriterion (criterion : String) : String :=
  Text.trim (String.ofList
    ((Text.toLowerCase criterion).toList.rdropWhile fun c =>
      c == '.' || c == '!'))

/-- What is wrong with one criterion, if anything: the first rule that
refuses it. -/
def assessCriterion (criterion : String) : Option CriteriaProblem :=
  let normalized := normalizeCriterion criterion
  if placeholders.contains normalized then
    some
      { criterion := some criterion
        reason :=
          "\"" ++ criterion ++ "\" is a placeholder, not a criterion. The " ++
            "section was never filled in." }
  else if Text.length criterion < minCriterionLength then
    some
      { criterion := some criterion
        reason :=
          "\"" ++ criterion ++ "\" is too short to state a testable outcome " ++
            "(under " ++ toString minCriterionLength ++ " characters)." }
  else
    (subjectivePhrases.find? (containsPhrase normalized)).map fun subjective =>
      { criterion := some criterion
        reason :=
          "\"" ++ criterion ++ "\" turns on \"" ++ subjective ++
            "\", which describes a feeling rather than an observation. " ++
            "Nobody but you can check it, and a run will report success " ++
            "against it whatever it produces." }

/-- Trimmed and de-blanked, so what is stored is what is assessed. -/
def cleanCriteria (criteria : List String) : List String :=
  (criteria.map Text.trim).filter Text.truthy

/-- **Every problem with a set of criteria.** It is testable when there is
none. -/
def assessCriteria (criteria : List String) : List CriteriaProblem :=
  match cleanCriteria criteria with
  | [] =>
    [{ criterion := none
       reason :=
        "No acceptance criteria. A work order without them has no " ++
          "definition of done, so a run against it cannot fail — it can " ++
          "only produce something nobody can check." }]
  | cleaned => cleaned.filterMap assessCriterion

/-- One sentence a human can act on. -/
def describeProblems (problems : List CriteriaProblem) : String :=
  " ".intercalate (problems.map (·.reason))

/-- A problem with one criterion names that criterion. -/
theorem assessCriterion_criterion {criterion : String}
    {problem : CriteriaProblem}
    (h : assessCriterion criterion = some problem) :
    problem.criterion = some criterion := by
  unfold assessCriterion at h
  dsimp only at h
  split_ifs at h
  · cases h
    rfl
  · cases h
    rfl
  · obtain ⟨subjective, -, rfl⟩ := Option.map_eq_some_iff.mp h
    rfl

example : containsPhrase "the parser is clean" "is clean" = true := by decide

example : containsPhrase "it is cleanly separated" "is clean" = false := by
  decide

end Opifex
