import Opifex.Issue
import Opifex.Lib.Preference

/-!
# Which routing labels are lost

Three families of labels carry what an operator declares: `factory:` is a
closed set of intents, `needs:` a set of requirements, `tier:` at most one
class of model. A label that is not understood is ignored and must be reported,
and the two are decided in different files: the projection looks a label up and
drops what it does not find, the read boundary classifies what was dropped.

They agree on every label of the two tables' families, whatever its case,
repeated or contradicted. They part in two places. The classification of
`factory:` labels compares the name as it stands, so `Factory:Hold` is no input
label and no unknown one either. And a table is an object literal: a label that
is a key every object inherits is found in both, which puts a value into the
needs that is none and takes the tier away that another label declares.

`nothingLost_iff` says that **these are the only two ways a declaration is
lost**.
-/

namespace Opifex

open Preference (rank)
open Record (Looked)

/-! ## Classifying -/

/-- Where an input label's name starts. -/
def inputLabelStart : String := "factory:"

/-- What a label that declares a need starts with. -/
def needsLabelStart : String := "needs:"

/-- What a label that declares a tier starts with. -/
def tierLabelStart : String := "tier:"

/-- The input labels Opifex understands. -/
def allInputLabels : List InputLabel := [.hold, .ready, .clearQuarantine]

/-- The name is one of the three. -/
def isInputLabel (name : String) : Bool :=
  (allInputLabels.map InputLabel.name).contains name

/-- A `factory:` label that is not one of the three. -/
def isUnknownInputLabel (name : String) : Bool :=
  Text.startsWith name inputLabelStart && !isInputLabel name

/-- What the table of needs answers for a label. -/
def needOfLabel (name : String) : Option (Looked RunnerNeed) :=
  Record.lookUp needsByLabel (Text.toLowerCase name)

/-- What the table of tiers answers for a label. -/
def tierOfLabel (name : String) : Option (Looked ModelTier) :=
  Record.lookUp modelTierByLabel (Text.toLowerCase name)

/-- Labels of a family that are not understood, reported together. -/
def unrecognised (family : String) (labels : List String) : IgnoredLabel where
  family := family
  kind := .unrecognised
  labels := rank Text.compareUnits labels

/-- Labels of the `needs:` family that name no need. -/
def unknownNeeds (labelNames : List String) : List String :=
  labelNames.filter fun name =>
    Text.startsWith (Text.toLowerCase name) needsLabelStart &&
      (needOfLabel name).isNone

/-- Labels of the `tier:` family. -/
def tierLabels (labelNames : List String) : List String :=
  labelNames.filter fun name =>
    Text.startsWith (Text.toLowerCase name) tierLabelStart

/-- Those that name a tier. -/
def declaredTiers (labelNames : List String) : List String :=
  (tierLabels labelNames).filter fun name => (tierOfLabel name).isSome

/-- **Every routing label the factory will not act on**, by family and by what
is wrong with it. Tiers contradict each other by value, not by label. -/
def classifyIgnoredLabels (labelNames : List String) : List IgnoredLabel :=
  let unknownFactory := labelNames.filter isUnknownInputLabel
  let unknownNeeds := unknownNeeds labelNames
  let unknownTiers := (tierLabels labelNames).filter fun name =>
    (tierOfLabel name).isNone
  let declaredTiers := declaredTiers labelNames
  let distinctTiers := (declaredTiers.map tierOfLabel).eraseDups
  (if 0 < unknownFactory.length then
    [unrecognised inputLabelStart unknownFactory] else []) ++
  (if 0 < unknownNeeds.length then
    [unrecognised needsLabelStart unknownNeeds] else []) ++
  (if 0 < unknownTiers.length then
    [unrecognised tierLabelStart unknownTiers] else []) ++
  (if 1 < distinctTiers.length then
    [{ family := tierLabelStart
       kind := .contradiction
       labels := rank Text.compareUnits declaredTiers }]
  else [])

/-! ## What a label declares -/

/-- The label names the need, whatever its case. -/
def NamesNeed (label : String) (need : RunnerNeed) : Prop :=
  Text.toLowerCase label = needsLabelStart ++ need.name

/-- The label names the tier, whatever its case. -/
def NamesTier (label : String) (tier : ModelTier) : Prop :=
  Text.toLowerCase label = tierLabelStart ++ tier.name

/-- The label's name begins with a family's start, ignoring case. -/
def InFamily (label : String) : Prop :=
  ∃ start ∈ [inputLabelStart, needsLabelStart, tierLabelStart],
    Text.startsWith (Text.toLowerCase label) start

/-- The label is an input label, contributes a need, or contributes to the
chosen tier. -/
def ActedOn (issue : NormalizedIssue) (label : String) : Prop :=
  isInputLabel label ∨
  (∃ need, NamesNeed label need ∧ .own need ∈ issue.readNeeds) ∨
  ∃ tier, NamesTier label tier ∧ issue.readModelTier = some (.own tier)

/-- The classification of the issue's labels names the label. -/
def Reported (issue : NormalizedIssue) (label : String) : Prop :=
  ∃ finding ∈ classifyIgnoredLabels issue.labels, label ∈ finding.labels

/-- **No routing label is silently lost**: the needs and the tier are the ones that the
labels name, and a label of a routing family that is not acted on is reported. -/
structure NothingLost (issue : NormalizedIssue) : Prop where
  /-- The needs are those the labels name, and nothing else. -/
  needs : ∀ found, found ∈ issue.readNeeds ↔
    ∃ need, found = .own need ∧ ∃ label ∈ issue.labels, NamesNeed label need
  /-- The tier is the one the labels name, when they name one. -/
  tier : ∀ found, issue.readModelTier = some found ↔
    ∃ tier, found = .own tier ∧ (∃ label ∈ issue.labels, NamesTier label tier) ∧
      ∀ label ∈ issue.labels, ∀ other, NamesTier label other → other = tier
  /-- A label of a family is acted on or reported, and not both. -/
  divided : ∀ label ∈ issue.labels, InFamily label →
    (ActedOn issue label ↔ ¬ Reported issue label)

/-- No label is an inherited key, and a label that starts with `factory:` in
lower case starts with it as it stands. -/
def PlainlySpelled (issue : NormalizedIssue) : Prop :=
  issue.NoInheritedLabel ∧ ∀ label ∈ issue.labels,
    Text.startsWith (Text.toLowerCase label) inputLabelStart →
      Text.startsWith label inputLabelStart

variable {issue : NormalizedIssue} {label : String}

/-! ## The tables -/

/-- The table of needs holds each need under its label. -/
theorem needsByLabel_lookup {text : String} {need : RunnerNeed} :
    needsByLabel.lookup text = some need ↔
      text = needsLabelStart ++ need.name := by
  constructor
  · intro h
    obtain ⟨before, after, htable, -⟩ := List.lookup_eq_some_iff.mp h
    have hmem : (text, need) ∈ needsByLabel := by
      rw [htable]
      simp
    have hall : ∀ entry ∈ needsByLabel,
        entry.1 = needsLabelStart ++ entry.2.name := by decide
    exact hall _ hmem
  · rintro rfl
    cases need <;> decide

/-- The table of tiers holds each tier under its label. -/
theorem modelTierByLabel_lookup {text : String} {tier : ModelTier} :
    modelTierByLabel.lookup text = some tier ↔
      text = tierLabelStart ++ tier.name := by
  constructor
  · intro h
    obtain ⟨before, after, htable, -⟩ := List.lookup_eq_some_iff.mp h
    have hmem : (text, tier) ∈ modelTierByLabel := by
      rw [htable]
      simp
    have hall : ∀ entry ∈ modelTierByLabel,
        entry.1 = tierLabelStart ++ entry.2.name := by decide
    exact hall _ hmem
  · rintro rfl
    cases tier <;> decide

theorem needOfLabel_own {need : RunnerNeed} :
    needOfLabel label = some (.own need) ↔ NamesNeed label need := by
  rw [needOfLabel, Record.lookUp_eq_own, needsByLabel_lookup, NamesNeed]

theorem tierOfLabel_own {tier : ModelTier} :
    tierOfLabel label = some (.own tier) ↔ NamesTier label tier := by
  rw [tierOfLabel, Record.lookUp_eq_own, modelTierByLabel_lookup, NamesTier]

/-! ## The families exclude each other -/

/-- Two starts of one text have the same first character. -/
theorem start_unique {text start other : String}
    (h : Text.startsWith text start) (h' : Text.startsWith text other)
    (hne : start.toList ≠ []) (hne' : other.toList ≠ []) :
    start.toList.head? = other.toList.head? :=
  (Text.head?_of_startsWith h hne).trans
    (Text.head?_of_startsWith h' hne').symm

theorem NamesNeed.starts {need : RunnerNeed} (h : NamesNeed label need) :
    Text.startsWith (Text.toLowerCase label) needsLabelStart := by
  rw [Text.startsWith_iff, h, String.toList_append]
  exact List.prefix_append _ _

theorem NamesTier.starts {tier : ModelTier} (h : NamesTier label tier) :
    Text.startsWith (Text.toLowerCase label) tierLabelStart := by
  rw [Text.startsWith_iff, h, String.toList_append]
  exact List.prefix_append _ _

/-- An input label starts with `factory:`, as it stands and in lower case. -/
theorem isInputLabel_starts (h : isInputLabel label) :
    Text.startsWith label inputLabelStart ∧
      Text.startsWith (Text.toLowerCase label) inputLabelStart := by
  have hall : ∀ name ∈ allInputLabels.map InputLabel.name,
      Text.startsWith name inputLabelStart ∧
        Text.startsWith (Text.toLowerCase name) inputLabelStart := by decide
  exact hall label (List.contains_iff_mem.mp h)

/-! ## What is reported -/

/-- A finding that is made on a condition names its labels on it. -/
theorem mem_finding {made : Prop} [Decidable made] {finding : IgnoredLabel} :
    (∃ found ∈ if made then [finding] else [], label ∈ found.labels) ↔
      made ∧ label ∈ finding.labels := by
  by_cases h : made
  · simp [h]
  · simp [h]

/-- The labels found unrecognised are named. -/
theorem mem_unrecognised {family : String} {labels : List String} :
    (∃ found ∈ if 0 < labels.length then [unrecognised family labels] else [],
        label ∈ found.labels) ↔ label ∈ labels := by
  rw [mem_finding]
  show 0 < labels.length ∧ label ∈ rank Text.compareUnits labels ↔ _
  rw [Preference.mem_rank]
  exact ⟨fun h => h.2, fun h => ⟨List.length_pos_of_mem h, h⟩⟩

/-- The issue's labels name more than one tier. -/
def Contradicted (issue : NormalizedIssue) : Prop :=
  1 < ((declaredTiers issue.labels).map tierOfLabel).eraseDups.length

/-- **What the classification reports.** -/
theorem reported_iff (hlabel : label ∈ issue.labels) :
    Reported issue label ↔
      isUnknownInputLabel label ∨
      (Text.startsWith (Text.toLowerCase label) needsLabelStart ∧
        needOfLabel label = none) ∨
      (Text.startsWith (Text.toLowerCase label) tierLabelStart ∧
        tierOfLabel label = none) ∨
      Contradicted issue ∧
        Text.startsWith (Text.toLowerCase label) tierLabelStart ∧
          (tierOfLabel label).isSome := by
  unfold Reported classifyIgnoredLabels
  simp only [List.mem_append, or_and_right, exists_or]
  rw [mem_unrecognised, mem_unrecognised, mem_unrecognised, mem_finding]
  simp only [unknownNeeds, tierLabels, declaredTiers, Contradicted,
    Preference.mem_rank, List.mem_filter, hlabel, true_and, Bool.and_eq_true,
    Option.isNone_iff_eq_none, or_assoc]

/-! ## The needs and the tier -/

/-- A lookup that misses the inherited keys finds an entry or nothing. -/
theorem lookUp_cases {α : Type} {table : List (String × α)}
    (hkey : Text.toLowerCase label ∉ Record.inheritedKeys) :
    (∃ value, Record.lookUp table (Text.toLowerCase label) =
        some (.own value)) ∨
      Record.lookUp table (Text.toLowerCase label) = none := by
  rw [Record.lookUp_of_not_inherited hkey]
  cases table.lookup (Text.toLowerCase label) with
  | none => exact .inr rfl
  | some value => exact .inl ⟨value, rfl⟩

section Plain

variable (h : issue.NoInheritedLabel)
include h

theorem mem_readNeeds {found : Looked RunnerNeed} :
    found ∈ issue.readNeeds ↔
      ∃ need, found = .own need ∧
        ∃ label ∈ issue.labels, NamesNeed label need := by
  rw [NormalizedIssue.readNeeds, List.mem_eraseDups, List.mem_filterMap]
  constructor
  · rintro ⟨label, hlabel, hfound⟩
    obtain ⟨need, hneed⟩ | hnone :=
      @lookUp_cases label _ needsByLabel (h label hlabel)
    · obtain rfl := Option.some.inj (hfound.symm.trans hneed)
      exact ⟨need, rfl, label, hlabel, needOfLabel_own.mp hneed⟩
    · exact nomatch hnone.symm.trans hfound
  · rintro ⟨need, rfl, label, hlabel, hneed⟩
    exact ⟨label, hlabel, needOfLabel_own.mpr hneed⟩

/-- What the labels find in the table of tiers. -/
theorem mem_foundTiers {found : Looked ModelTier} :
    found ∈ issue.labels.filterMap tierOfLabel ↔
      ∃ tier, found = .own tier ∧
        ∃ label ∈ issue.labels, NamesTier label tier := by
  rw [List.mem_filterMap]
  constructor
  · rintro ⟨label, hlabel, hfound⟩
    obtain ⟨tier, htier⟩ | hnone :=
      @lookUp_cases label _ modelTierByLabel (h label hlabel)
    · obtain rfl := Option.some.inj (hfound.symm.trans htier)
      exact ⟨tier, rfl, label, hlabel, tierOfLabel_own.mp htier⟩
    · exact nomatch hnone.symm.trans hfound
  · rintro ⟨tier, rfl, label, hlabel, htier⟩
    exact ⟨label, hlabel, tierOfLabel_own.mpr htier⟩

/-- A tier is chosen exactly when it is the only one named. -/
theorem readModelTier_eq_some {found : Looked ModelTier} :
    issue.readModelTier = some found ↔
      ∃ tier, found = .own tier ∧
        (∃ label ∈ issue.labels, NamesTier label tier) ∧
        ∀ label ∈ issue.labels, ∀ other, NamesTier label other →
          other = tier := by
  have hread : issue.readModelTier = some found ↔
      (issue.labels.filterMap tierOfLabel).eraseDups = [found] := by
    have htiers : (issue.labels.filterMap fun label =>
        Record.lookUp modelTierByLabel (Text.toLowerCase label))
          = issue.labels.filterMap tierOfLabel := rfl
    unfold NormalizedIssue.readModelTier
    rw [htiers]
    cases (issue.labels.filterMap tierOfLabel).eraseDups with
    | nil => simp
    | cons tier rest =>
      cases rest with
      | nil => simp
      | cons other rest => simp
  rw [hread, Preference.eraseDups_eq_singleton]
  constructor
  · rintro ⟨hmem, honly⟩
    obtain ⟨tier, rfl, hnamed⟩ := (mem_foundTiers h).mp hmem
    refine ⟨tier, rfl, hnamed, fun label hlabel other hother => ?_⟩
    exact Looked.own.inj (honly _ ((mem_foundTiers h).mpr
      ⟨other, rfl, label, hlabel, hother⟩))
  · rintro ⟨tier, rfl, hnamed, honly⟩
    refine ⟨(mem_foundTiers h).mpr ⟨tier, rfl, hnamed⟩, fun other hother => ?_⟩
    obtain ⟨named, rfl, label, hlabel, hname⟩ := (mem_foundTiers h).mp hother
    rw [honly label hlabel named hname]

/-- The labels contradict each other exactly when two tiers are named. -/
theorem contradicted_iff :
    Contradicted issue ↔
      ∃ label ∈ issue.labels, ∃ tier, NamesTier label tier ∧
        ∃ label' ∈ issue.labels, ∃ tier', NamesTier label' tier' ∧
          tier ≠ tier' := by
  have hmem : ∀ found, found ∈ (declaredTiers issue.labels).map tierOfLabel ↔
      ∃ tier, found = some (.own tier) ∧
        ∃ label ∈ issue.labels, NamesTier label tier := by
    intro found
    simp only [declaredTiers, tierLabels, List.mem_map, List.mem_filter]
    constructor
    · rintro ⟨label, ⟨⟨hlabel, -⟩, hsome⟩, rfl⟩
      obtain ⟨tier, htier⟩ | hnone :=
        @lookUp_cases label _ modelTierByLabel (h label hlabel)
      · exact ⟨tier, htier, label, hlabel, tierOfLabel_own.mp htier⟩
      · rw [tierOfLabel, hnone] at hsome
        exact Bool.noConfusion hsome
    · rintro ⟨tier, rfl, label, hlabel, hname⟩
      have htier := tierOfLabel_own.mpr hname
      exact ⟨label, ⟨⟨hlabel, hname.starts⟩, by rw [htier]; rfl⟩, htier⟩
  rw [Contradicted, Preference.one_lt_length_eraseDups]
  simp only [hmem]
  constructor
  · rintro ⟨_, ⟨tier, rfl, label, hlabel, hname⟩, _,
      ⟨tier', rfl, label', hlabel', hname'⟩, hne⟩
    exact ⟨label, hlabel, tier, hname, label', hlabel', tier', hname',
      fun hsame => hne (by rw [hsame])⟩
  · rintro ⟨label, hlabel, tier, hname, label', hlabel', tier', hname', hne⟩
    exact ⟨_, ⟨tier, rfl, label, hlabel, hname⟩, _,
      ⟨tier', rfl, label', hlabel', hname'⟩,
      fun hsame => hne (Looked.own.inj (Option.some.inj hsame))⟩

end Plain

/-! ## Acted on or reported -/

/-- A label that starts with `factory:` does so in lower case. -/
theorem startsWith_toLowerCase (h : Text.startsWith label inputLabelStart) :
    Text.startsWith (Text.toLowerCase label) inputLabelStart := by
  obtain ⟨rest, hrest⟩ := Text.startsWith_iff.mp h
  have hlower : inputLabelStart.toList.flatMap Text.lowerChar =
      inputLabelStart.toList := by decide
  rw [Text.startsWith_iff, Text.toLowerCase, String.toList_ofList, ← hrest,
    List.flatMap_append, hlower]
  exact List.prefix_append _ _

/-- The label begins with `factory:`, `needs:` or `tier:`, each of them alone. -/
theorem family_exclusive :
    ¬ (Text.startsWith (Text.toLowerCase label) inputLabelStart ∧
      Text.startsWith (Text.toLowerCase label) needsLabelStart) ∧
    ¬ (Text.startsWith (Text.toLowerCase label) inputLabelStart ∧
      Text.startsWith (Text.toLowerCase label) tierLabelStart) ∧
    ¬ (Text.startsWith (Text.toLowerCase label) needsLabelStart ∧
      Text.startsWith (Text.toLowerCase label) tierLabelStart) := by
  refine ⟨fun ⟨h, h'⟩ => ?_, fun ⟨h, h'⟩ => ?_, fun ⟨h, h'⟩ => ?_⟩
  · exact absurd (start_unique h h' (by decide) (by decide)) (by decide)
  · exact absurd (start_unique h h' (by decide) (by decide)) (by decide)
  · exact absurd (start_unique h h' (by decide) (by decide)) (by decide)

theorem isUnknownInputLabel_iff :
    isUnknownInputLabel label ↔
      Text.startsWith label inputLabelStart ∧ ¬ isInputLabel label := by
  simp [isUnknownInputLabel]

section Divided

variable (hlabel : label ∈ issue.labels)
include hlabel

/-- A label of the `factory:` family as it stands is acted on or reported. -/
theorem divided_factory (hstart : Text.startsWith label inputLabelStart) :
    ActedOn issue label ↔ ¬ Reported issue label := by
  have hlower := startsWith_toLowerCase hstart
  have hneeds : ¬ Text.startsWith (Text.toLowerCase label) needsLabelStart :=
    fun h => family_exclusive.1 ⟨hlower, h⟩
  have htier : ¬ Text.startsWith (Text.toLowerCase label) tierLabelStart :=
    fun h => family_exclusive.2.1 ⟨hlower, h⟩
  have hacted : ActedOn issue label ↔ isInputLabel label := by
    refine ⟨?_, Or.inl⟩
    rintro (h | ⟨need, h, -⟩ | ⟨tier, h, -⟩)
    · exact h
    · exact absurd h.starts hneeds
    · exact absurd h.starts htier
  rw [hacted, reported_iff hlabel, isUnknownInputLabel_iff]
  simp [hstart, hneeds, htier]

/-- A label of the `needs:` family is acted on or reported. -/
theorem divided_needs (h : issue.NoInheritedLabel)
    (hstart : Text.startsWith (Text.toLowerCase label) needsLabelStart) :
    ActedOn issue label ↔ ¬ Reported issue label := by
  have hfactory : ¬ Text.startsWith (Text.toLowerCase label) inputLabelStart :=
    fun h => family_exclusive.1 ⟨h, hstart⟩
  have htier : ¬ Text.startsWith (Text.toLowerCase label) tierLabelStart :=
    fun h => family_exclusive.2.2 ⟨hstart, h⟩
  have hunknown : ¬ isUnknownInputLabel label := fun hunknown =>
    hfactory (startsWith_toLowerCase (isUnknownInputLabel_iff.mp hunknown).1)
  have hreported : Reported issue label ↔ needOfLabel label = none := by
    rw [reported_iff hlabel]
    simp [hunknown, hstart, htier]
  have hacted : ActedOn issue label ↔ ∃ need, NamesNeed label need := by
    constructor
    · rintro (hinput | ⟨need, hneed, -⟩ | ⟨tier, hname, -⟩)
      · exact absurd (isInputLabel_starts hinput).2 hfactory
      · exact ⟨need, hneed⟩
      · exact absurd hname.starts htier
    · rintro ⟨need, hneed⟩
      exact .inr (.inl ⟨need, hneed,
        (mem_readNeeds h).mpr ⟨need, rfl, label, hlabel, hneed⟩⟩)
  rw [hacted, hreported]
  obtain ⟨need, hneed⟩ | hnone :=
    @lookUp_cases label _ needsByLabel (h label hlabel)
  · refine iff_of_true ⟨need, needOfLabel_own.mp hneed⟩ fun hnone => ?_
    exact nomatch hneed.symm.trans hnone
  · refine iff_of_false ?_ (not_not.mpr hnone)
    rintro ⟨need, hneed⟩
    exact nomatch hnone.symm.trans (needOfLabel_own.mpr hneed)

/-- A label of the `tier:` family is acted on or reported: it names the tier
that is chosen, or another label names another. -/
theorem divided_tier (h : issue.NoInheritedLabel)
    (hstart : Text.startsWith (Text.toLowerCase label) tierLabelStart) :
    ActedOn issue label ↔ ¬ Reported issue label := by
  have hfactory : ¬ Text.startsWith (Text.toLowerCase label) inputLabelStart :=
    fun h => family_exclusive.2.1 ⟨h, hstart⟩
  have hneeds : ¬ Text.startsWith (Text.toLowerCase label) needsLabelStart :=
    fun h => family_exclusive.2.2 ⟨h, hstart⟩
  have hunknown : ¬ isUnknownInputLabel label := fun hunknown =>
    hfactory (startsWith_toLowerCase (isUnknownInputLabel_iff.mp hunknown).1)
  have hacted : ActedOn issue label ↔
      ∃ tier, NamesTier label tier ∧
        issue.readModelTier = some (.own tier) := by
    refine ⟨?_, fun hnamed => .inr (.inr hnamed)⟩
    rintro (hinput | ⟨need, hneed, -⟩ | hnamed)
    · exact absurd (isInputLabel_starts hinput).2 hfactory
    · exact absurd hneed.starts hneeds
    · exact hnamed
  rw [hacted, reported_iff hlabel]
  obtain ⟨tier, htier⟩ | hnone :=
    @lookUp_cases label _ modelTierByLabel (h label hlabel)
  · have hname : NamesTier label tier := tierOfLabel_own.mp htier
    have hsome : tierOfLabel label = some (.own tier) := htier
    simp only [hunknown, hneeds, hsome, hstart, reduceCtorEq,
      Option.isSome_some, Bool.false_eq_true, false_and, and_false, and_true,
      false_or, and_self]
    rw [contradicted_iff h]
    constructor
    · rintro ⟨chosen, -, hchosen⟩ ⟨l, hl, t, ht, l', hl', t', ht', hne⟩
      obtain ⟨only, -, -, honly⟩ := (readModelTier_eq_some h).mp hchosen
      exact hne ((honly l hl t ht).trans (honly l' hl' t' ht').symm)
    · intro hno
      refine ⟨tier, hname, (readModelTier_eq_some h).mpr
        ⟨tier, rfl, ⟨label, hlabel, hname⟩, fun l hl other hother => ?_⟩⟩
      by_contra hne
      exact hno ⟨l, hl, other, hother, label, hlabel, tier, hname, hne⟩
  · have hnone' : tierOfLabel label = none := hnone
    refine iff_of_false ?_ (not_not.mpr (.inr (.inr (.inl
      ⟨hstart, hnone'⟩))))
    rintro ⟨tier, hname, -⟩
    exact nomatch hnone'.symm.trans (tierOfLabel_own.mpr hname)

/-- A label that starts with `factory:` in lower case only is neither acted on
nor reported. -/
theorem lost_of_case (hlower : Text.startsWith (Text.toLowerCase label)
      inputLabelStart)
    (hstart : ¬ Text.startsWith label inputLabelStart) :
    ¬ ActedOn issue label ∧ ¬ Reported issue label := by
  have hneeds : ¬ Text.startsWith (Text.toLowerCase label) needsLabelStart :=
    fun h => family_exclusive.1 ⟨hlower, h⟩
  have htier : ¬ Text.startsWith (Text.toLowerCase label) tierLabelStart :=
    fun h => family_exclusive.2.1 ⟨hlower, h⟩
  constructor
  · rintro (hinput | ⟨need, hneed, -⟩ | ⟨tier, hname, -⟩)
    · exact hstart (isInputLabel_starts hinput).1
    · exact hneeds hneed.starts
    · exact htier hname.starts
  · rw [reported_iff hlabel, isUnknownInputLabel_iff]
    simp [hstart, hneeds, htier]

end Divided

/-- **No routing label is lost exactly where the labels are plainly
spelled.** -/
theorem nothingLost_iff (issue : NormalizedIssue) :
    NothingLost issue ↔ PlainlySpelled issue := by
  constructor
  · intro h
    refine ⟨fun label hlabel hkey => ?_, fun label hlabel hlower => ?_⟩
    · obtain ⟨need, hneed, -⟩ :=
        (h.needs _).mp (inherited_mem_readNeeds hlabel hkey)
      exact nomatch hneed
    · by_contra hstart
      obtain ⟨hacted, hreported⟩ := lost_of_case hlabel hlower hstart
      exact hacted ((h.divided label hlabel
        ⟨inputLabelStart, List.mem_cons_self, hlower⟩).mpr hreported)
  · rintro ⟨hinherited, hspelled⟩
    refine ⟨fun found => mem_readNeeds hinherited,
      fun found => readModelTier_eq_some hinherited,
      fun label hlabel hfamily => ?_⟩
    obtain ⟨start, hstart, hlower⟩ := hfamily
    simp only [List.mem_cons, List.not_mem_nil, or_false] at hstart
    obtain rfl | rfl | rfl := hstart
    · exact divided_factory hlabel (hspelled label hlabel hlower)
    · exact divided_needs hlabel hinherited hlower
    · exact divided_tier hlabel hinherited hlower

section Instance

/-- An issue with one label. -/
def labelled (label : String) : NormalizedIssue where
  number := 7
  state := .isOpen
  title := "Export"
  body := none
  labels := [label]
  inputLabels := []
  ignoredLabels := []

/-- **A capital letter silences a hold**, and a label every object inherits a
value under is read as a need. -/
theorem loses_a_capital_letter :
    (InFamily "Factory:Hold" ∧
      ¬ ActedOn (labelled "Factory:Hold") "Factory:Hold" ∧
      ¬ Reported (labelled "Factory:Hold") "Factory:Hold") ∧
    (labelled "constructor").readNeeds = [.inherited "constructor"] := by
  refine ⟨⟨⟨inputLabelStart, List.mem_cons_self, by decide⟩, ?_⟩, by decide⟩
  exact lost_of_case (List.mem_singleton_self _) (by decide) (by decide)

end Instance

end Opifex
