import Opifex.Lib.Record
import Opifex.Lib.Text
import Opifex.Runner

/-!
# Issues and their labels

The `factory:` input labels express human intent and are obeyed; the
`factory/` mirror labels are written by Opifex and never read as truth. The
separator is what tells them apart. An issue reaches the control plane with its
mirror labels already removed and with every declaration that was not
understood classified as an ignored label.
-/

namespace Opifex

open Record (Looked)

/-- The input labels Opifex understands: a closed set of three. Any other label is no
input, whatever it is called. -/
inductive InputLabel where
  | hold
  | ready
  | clearQuarantine
deriving DecidableEq, Repr

/-- The label as GitHub has it. An operator sets it, and the factory reads it. -/
def InputLabel.name : InputLabel → String
  | .hold => "factory:hold"
  | .ready => "factory:ready"
  | .clearQuarantine => "factory:clear-quarantine"

/-- The mirror labels Opifex writes. `labelIgnored` is about the input and
accompanies any of the others. -/
inductive MirrorLabel where
  | dispatched
  | blocked
  | review
  | quarantine
  | labelIgnored
deriving DecidableEq, Repr

/-- The label as GitHub has it. The factory sets it, and never reads it. -/
def MirrorLabel.name : MirrorLabel → String
  | .dispatched => "factory/dispatched"
  | .blocked => "factory/blocked"
  | .review => "factory/review"
  | .quarantine => "factory/quarantine"
  | .labelIgnored => "factory/label-ignored"

/-- The mirror labels Opifex owns. -/
def allMirrorLabels : List MirrorLabel :=
  [.dispatched, .blocked, .review, .quarantine, .labelIgnored]

/-- `name.startsWith('factory/')`. -/
def isMirrorLabel (name : String) : Bool :=
  "factory/".toList.isPrefixOf name.toList

/-- The recognised `needs:` labels, lower-cased. -/
def needsByLabel : List (String × RunnerNeed) :=
  [("needs:full-streaming", .fullStreaming),
    ("needs:cost-reporting", .costReporting),
    ("needs:structured-rate-limits", .structuredRateLimits),
    ("needs:own-infrastructure", .ownInfrastructure)]

/-- The recognised `tier:` labels, lower-cased. -/
def modelTierByLabel : List (String × ModelTier) :=
  [("tier:small", .small), ("tier:standard", .standard),
    ("tier:large", .large)]

/-- Why a label was not followed: it is not understood, or another one contradicts it.
-/
inductive IgnoredLabelKind where
  | unrecognised
  | contradiction
deriving DecidableEq, Repr

/-- One declaration the factory could not act on: its family (`factory:`,
`needs:` or `tier:`), what is wrong with it, and the offending labels. -/
structure IgnoredLabel where
  family : String
  kind : IgnoredLabelKind
  labels : List String
deriving DecidableEq, Repr

/-- One finding as a clause. -/
def ignoredLabelClause (finding : IgnoredLabel) : String :=
  match finding.kind with
  | .contradiction =>
    " and ".intercalate finding.labels ++ " contradict each other"
  | .unrecognised =>
    ", ".intercalate finding.labels ++
      (if 1 < finding.labels.length then " are" else " is") ++
      " not a recognised " ++ finding.family ++ " label"

/-- The findings as one clause of a projection's reason. -/
def describeIgnoredLabels (ignored : List IgnoredLabel) : String :=
  "ignored labels: " ++ "; ".intercalate (ignored.map ignoredLabelClause) ++
    " — the default applies"

/-- The two states of an issue. -/
inductive IssueState where
  | isOpen
  | isClosed
deriving DecidableEq, Repr

/-- An issue as the read adapter hands it on. -/
structure NormalizedIssue where
  number : ℕ
  state : IssueState
  title : String
  /-- Markdown, as authored; null when the issue has an empty body. -/
  body : Option String
  /-- Label names, every mirror label already removed. -/
  labels : List String
  inputLabels : List InputLabel
  ignoredLabels : List IgnoredLabel
  /-- The mirror labels as GitHub shows them: the current state of Opifex's own
  output, and no input of the projection. -/
  observedMirrorLabels : List String := []
deriving DecidableEq

/-- `inputLabels.includes(label)`. -/
def NormalizedIssue.carries (issue : NormalizedIssue) (label : InputLabel) :
    Bool :=
  issue.inputLabels.contains label

/-- What the work needs from a runner, from labels: each need the table
answers once, in the order of the labels. -/
def NormalizedIssue.readNeeds (issue : NormalizedIssue) :
    List (Looked RunnerNeed) :=
  (issue.labels.filterMap fun label =>
    Record.lookUp needsByLabel (Text.toLowerCase label)).eraseDups

/-- Which class of model the work wants. Two that conflict mean none. -/
def NormalizedIssue.readModelTier (issue : NormalizedIssue) :
    Option (Looked ModelTier) :=
  match (issue.labels.filterMap fun label =>
    Record.lookUp modelTierByLabel (Text.toLowerCase label)).eraseDups with
  | [tier] => some tier
  | _ => none

/-- **The message of the guard against reading mirror labels**: null when no
issue leaks one. The first issue that does is named with all it leaks. -/
def assertNoMirrorLabelsObserved (issues : List NormalizedIssue) :
    Option String :=
  (issues.find? fun issue => issue.labels.any isMirrorLabel).map fun issue =>
    "Mirror labels reached the projection for issue #" ++
      toString issue.number ++ ": " ++
      ", ".intercalate (issue.labels.filter isMirrorLabel) ++
      ". VISION §3.3 forbids reading them as truth."

/-! ## What the tables answer -/

/-- No label of the issue is, in lower case, a key every object inherits. -/
def NormalizedIssue.NoInheritedLabel (issue : NormalizedIssue) : Prop :=
  ∀ label ∈ issue.labels, Text.toLowerCase label ∉ Record.inheritedKeys

/-- Labels that are no inherited key find entries of the tables only. -/
theorem not_mem_lookUps {α : Type} [DecidableEq α]
    {table : List (String × α)}
    {labels : List String}
    (h : ∀ label ∈ labels, Text.toLowerCase label ∉ Record.inheritedKeys)
    (key : String) :
    .inherited key ∉ (labels.filterMap fun label =>
      Record.lookUp table (Text.toLowerCase label)).eraseDups := by
  rw [List.mem_eraseDups, List.mem_filterMap]
  rintro ⟨label, hlabel, hfound⟩
  rw [Record.lookUp_of_not_inherited (h label hlabel)] at hfound
  cases hvalue : table.lookup (Text.toLowerCase label) with
  | none => simp [hvalue] at hfound
  | some value => simp [hvalue] at hfound

section Vocabulary

variable {issue : NormalizedIssue} (h : issue.NoInheritedLabel)
include h

theorem readNeeds_eq_map_own :
    ∃ needs : List RunnerNeed, issue.readNeeds = needs.map Looked.own :=
  Record.exists_eq_map_own (not_mem_lookUps h)

theorem readModelTier_eq_map_own :
    ∃ tier : Option ModelTier,
      issue.readModelTier = tier.map Looked.own := by
  obtain ⟨tiers, htiers⟩ := Record.exists_eq_map_own
    (fun key => @not_mem_lookUps _ _ modelTierByLabel _ h key)
  unfold NormalizedIssue.readModelTier
  rw [htiers]
  match tiers with
  | [] => exact ⟨none, rfl⟩
  | [tier] => exact ⟨some tier, rfl⟩
  | _ :: _ :: _ => exact ⟨none, rfl⟩

end Vocabulary

/-- A label that is an inherited key leaves a need that is none. -/
theorem inherited_mem_readNeeds {issue : NormalizedIssue} {label : String}
    (hlabel : label ∈ issue.labels)
    (hkey : Text.toLowerCase label ∈ Record.inheritedKeys) :
    .inherited (Text.toLowerCase label) ∈ issue.readNeeds := by
  have hnone : needsByLabel.lookup (Text.toLowerCase label) = none := by
    obtain hkey | hkey := List.mem_cons.mp hkey
    · rw [hkey]
      decide
    · rw [List.mem_singleton.mp hkey]
      decide
  exact List.mem_eraseDups.mpr (List.mem_filterMap.mpr
    ⟨label, hlabel, Record.lookUp_of_inherited hkey hnone⟩)

end Opifex
