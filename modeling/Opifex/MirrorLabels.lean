import Opifex.DiffEngine
import Opifex.Lib.Edits

/-!
# Mirror labels settle in one tick

The projection says which mirror labels an issue should carry and never looks
at those it carries; the diff engine compares the two. Together they are a
reconciler of the owned part of an issue's labels: one tick's label actions
leave **the desired labels and every label that is not Opifex's own**, the
next tick projects the same state and writes no label, and the order in which
the issues were observed shows nowhere.

Distinct issue numbers are needed because the engine finds an issue by its
number.
-/

namespace Opifex

open Preference (rank)

/-! ## Carrying label actions out -/

/-- What an action does to the labels of its issue, if anything. -/
def ReconcileAction.labelEdit (action : ReconcileAction) :
    Option (Edit String) :=
  match action.type, action.label with
  | .addMirrorLabel, some label => some (.add label)
  | .removeMirrorLabel, some label => some (.remove label)
  | _, _ => none

/-- An issue once the label actions that name it have been carried out. -/
def NormalizedIssue.afterActions (issue : NormalizedIssue)
    (actions : List ReconcileAction) : NormalizedIssue :=
  { issue with
    observedMirrorLabels :=
      Edit.applyAll issue.observedMirrorLabels
        ((actions.filter fun action =>
          action.issueNumber == issue.number).filterMap
            ReconcileAction.labelEdit) }

/-- An observation once its label actions have been carried out. -/
def ObservedState.afterActions (observed : ObservedState)
    (actions : List ReconcileAction) : ObservedState :=
  { observed with
    issues := observed.issues.map (·.afterActions actions) }

/-- An action that writes no label edits none. -/
theorem labelEdit_eq_none {action : ReconcileAction}
    (h : action.isLabelAction = false) : action.labelEdit = none := by
  rw [ReconcileAction.isLabelAction, Bool.or_eq_false_iff] at h
  unfold ReconcileAction.labelEdit
  split
  case h_1 htype _ => exact absurd htype (beq_eq_false_iff_ne.mp h.1)
  case h_2 htype _ => exact absurd htype (beq_eq_false_iff_ne.mp h.2)
  case h_3 => rfl

variable {observed : ObservedState} {issue : NormalizedIssue}
  {action : ReconcileAction}

/-! ## The actions of an issue are the edits of a reconciler -/

/-- Among the actions of a tick, those that name an issue are its own. -/
theorem mem_computeActions
    (hdistinct : (observed.issues.map NormalizedIssue.number).Nodup)
    (h : issue ∈ observed.issues) :
    action ∈ computeActions observed (projectDesiredState observed) ∧
        action.issueNumber = issue.number ↔
      action ∈ actionsFor observed issue := by
  rw [computeActions_eq hdistinct, List.mem_flatMap]
  constructor
  · rintro ⟨⟨other, hother, haction⟩, hnumber⟩
    have hsame : other = issue := by
      refine List.inj_on_of_nodup_map hdistinct
        (Preference.mem_rank.mp hother) h ?_
      rw [← hnumber, issueNumber_actionsForIssue haction]
    exact hsame ▸ haction
  · intro haction
    exact ⟨⟨issue, Preference.mem_rank.mpr h, haction⟩,
      issueNumber_actionsForIssue haction⟩

/-- The edits an issue's own actions make. -/
theorem exists_actionsFor_labelEdit {edit : Edit String} :
    (∃ action ∈ actionsFor observed issue, action.labelEdit = some edit) ↔
      (∃ label, label ∈ (projectIssueState observed issue).labelNames ∧
        label ∉ issue.observedMirrorLabels ∧ edit = .add label) ∨
      ∃ label, label ∈ issue.observedMirrorLabels ∧
        isStaleLabel (projectIssueState observed issue) label ∧
          edit = .remove label := by
  simp only [actionsFor, actionsForIssue, List.mem_append,
    mem_mirrorLabelActions]
  constructor
  · rintro ⟨action, hintent | ⟨label, hwanted, hcurrent, rfl⟩ |
      ⟨label, hcurrent, hstale, rfl⟩, hedit⟩
    · rw [labelEdit_eq_none (mem_intentAction hintent).1] at hedit
      cases hedit
    · exact Or.inl ⟨label, hwanted, hcurrent, (Option.some.inj hedit).symm⟩
    · exact Or.inr ⟨label, hcurrent, hstale, (Option.some.inj hedit).symm⟩
  · rintro (⟨label, hwanted, hcurrent, rfl⟩ | ⟨label, hcurrent, hstale, rfl⟩)
    · exact ⟨_, Or.inr (Or.inl ⟨label, hwanted, hcurrent, rfl⟩), rfl⟩
    · exact ⟨_, Or.inr (Or.inr ⟨label, hcurrent, hstale, rfl⟩), rfl⟩

/-- The labels of Opifex's own vocabulary. -/
def ownedLabels : Set String :=
  {label | label ∈ allMirrorLabels.map MirrorLabel.name}

/-- The labels an issue should carry. -/
def desiredLabels (observed : ObservedState) (issue : NormalizedIssue) :
    Set String :=
  {label | label ∈ (projectIssueState observed issue).labelNames}

/-- **A tick's actions on an issue are those of a reconciler** that owns the
mirror vocabulary and wants the projected labels. -/
theorem toward_computeActions
    (hdistinct : (observed.issues.map NormalizedIssue.number).Nodup)
    (h : issue ∈ observed.issues) :
    Edit.Toward ownedLabels (desiredLabels observed issue)
      issue.observedMirrorLabels
      (((computeActions observed (projectDesiredState observed)).filter
        fun action => action.issueNumber == issue.number).filterMap
          ReconcileAction.labelEdit) := by
  have hmem : ∀ edit, edit ∈
      (((computeActions observed (projectDesiredState observed)).filter
        fun action => action.issueNumber == issue.number).filterMap
          ReconcileAction.labelEdit) ↔
      ∃ action ∈ actionsFor observed issue, action.labelEdit = some edit := by
    intro edit
    simp only [List.mem_filterMap, List.mem_filter, beq_iff_eq,
      mem_computeActions hdistinct h]
  refine ⟨fun label => ?_, fun label => ?_⟩
  · rw [hmem, exists_actionsFor_labelEdit]
    simp [desiredLabels]
  · rw [hmem, exists_actionsFor_labelEdit]
    simp [desiredLabels, ownedLabels, isStaleLabel]

/-! ## The next tick -/

/-- The next tick projects the same state. -/
theorem projectDesiredState_afterActions (actions : List ReconcileAction) :
    projectDesiredState (observed.afterActions actions)
      = projectDesiredState observed := by
  rw [projectDesiredState, projectDesiredState]
  show DesiredState.mk _ ((observed.issues.map (·.afterActions actions)).map
      (projectIssueState (observed.afterActions actions))) = _
  rw [List.map_map]
  rfl

theorem number_afterActions (actions : List ReconcileAction) :
    (observed.afterActions actions).issues.map NormalizedIssue.number
      = observed.issues.map NormalizedIssue.number := by
  show (observed.issues.map (·.afterActions actions)).map _ = _
  rw [List.map_map]
  rfl

/-- Actions that edit no label are no label actions. -/
theorem isLabelAction_of_labelEdit
    (hdistinct : (observed.issues.map NormalizedIssue.number).Nodup)
    (hnone : ∀ issue ∈ observed.issues, ∀ action ∈ actionsFor observed issue,
      action.labelEdit = none)
    (h : action ∈ computeActions observed (projectDesiredState observed)) :
    action.isLabelAction = false := by
  rw [computeActions_eq hdistinct, List.mem_flatMap] at h
  obtain ⟨issue, hissue, haction⟩ := h
  have hedit := hnone issue (Preference.mem_rank.mp hissue) action haction
  rw [actionsFor, actionsForIssue, List.mem_append,
    mem_mirrorLabelActions] at haction
  obtain hintent | ⟨label, -, -, rfl⟩ | ⟨label, -, -, rfl⟩ := haction
  · exact (mem_intentAction hintent).1
  · cases hedit
  · cases hedit

/-- **The order of the issues does not show.** -/
theorem computeActions_perm {issues : List NormalizedIssue}
    (hdistinct : (observed.issues.map NormalizedIssue.number).Nodup)
    (hperm : issues.Perm observed.issues) :
    computeActions { observed with issues }
        (projectDesiredState { observed with issues })
      = computeActions observed (projectDesiredState observed) := by
  have hdistinct' : (issues.map NormalizedIssue.number).Nodup :=
    (hperm.map _).nodup_iff.mpr hdistinct
  have hrank : rank byNumber issues = rank byNumber observed.issues := by
    refine Preference.rank_perm ?_ hperm
    exact Preference.separates_of_key hdistinct' fun a b hab =>
      Std.LawfulEqCmp.eq_of_compare hab
  rw [@computeActions_eq { observed with issues } hdistinct',
    computeActions_eq hdistinct, ← hrank]
  rfl

/-! ## Convergence -/

/-- **Mirror labels converge in one tick and only owned labels move**: the
actions of a tick leave each issue with the desired labels and those Opifex
does not own; the tick after it projects the same state and writes no label;
and any order of the issues gives the same actions. -/
theorem mirrorLabels_converge
    (hdistinct : (observed.issues.map NormalizedIssue.number).Nodup) :
    let actions := computeActions observed (projectDesiredState observed)
    let settled := observed.afterActions actions
    (∀ issue ∈ observed.issues,
      {label | label ∈ (issue.afterActions actions).observedMirrorLabels}
        = desiredLabels observed issue ∪
          ({label | label ∈ issue.observedMirrorLabels} \ ownedLabels)) ∧
    projectDesiredState settled = projectDesiredState observed ∧
    (∀ action ∈ computeActions settled (projectDesiredState settled),
      action.isLabelAction = false) ∧
    ∀ issues : List NormalizedIssue, issues.Perm observed.issues →
      computeActions { observed with issues }
        (projectDesiredState { observed with issues }) = actions := by
  intro actions settled
  have hdistinct' : (settled.issues.map NormalizedIssue.number).Nodup := by
    rw [number_afterActions]
    exact hdistinct
  refine ⟨fun issue h => (toward_computeActions hdistinct h).result,
    projectDesiredState_afterActions actions, fun action haction => ?_,
    fun issues hperm => computeActions_perm hdistinct hperm⟩
  refine isLabelAction_of_labelEdit hdistinct' ?_ haction
  intro after hafter action haction
  obtain ⟨issue, hissue, rfl⟩ := List.mem_map.mp hafter
  -- the edits of the second tick are those of a settled reconciler
  have hlater := toward_computeActions hdistinct' hafter
  rw [show desiredLabels settled (issue.afterActions actions)
      = desiredLabels observed issue from rfl] at hlater
  have hnil := (toward_computeActions hdistinct hissue).settled hlater
  rw [List.filterMap_eq_nil_iff] at hnil
  refine hnil action (List.mem_filter.mpr ?_)
  rw [beq_iff_eq]
  exact (mem_computeActions hdistinct' hafter).mpr haction

/-- An issue ready for dispatch that still carries the label of an earlier
block and one a human made up. -/
def staleIssue : NormalizedIssue where
  number := 312
  state := .isOpen
  title := "Add CSV export"
  body := none
  labels := ["factory:ready"]
  inputLabels := [.ready]
  ignoredLabels := []
  observedMirrorLabels := ["factory/blocked", "factory/pinned"]

/-- A repository with one issue, whose labels are out of date. -/
def staleState : ObservedState where
  repository := ⟨"acme", "app", true, none⟩
  issues := [staleIssue]
  workOrders := []
  humanClearedQuarantine := []
  retryCeiling := 3

theorem staleState_settles :
    {label | label ∈ (staleIssue.afterActions (computeActions staleState
        (projectDesiredState staleState))).observedMirrorLabels}
      = desiredLabels staleState staleIssue ∪
        ({label | label ∈ staleIssue.observedMirrorLabels} \ ownedLabels) :=
  (@mirrorLabels_converge staleState (by decide)).1 staleIssue
    List.mem_cons_self

example :
    (staleIssue.afterActions (computeActions staleState
      (projectDesiredState staleState))).observedMirrorLabels
        = ["factory/pinned", "factory/dispatched"] := by
  decide

end Opifex
