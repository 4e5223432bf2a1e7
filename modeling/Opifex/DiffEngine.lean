import Opifex.DesiredState
import Opifex.Lib.Preference

/-!
# The actions that would reconcile

`computeActions` compares the observation with the projection made from it and
returns plain data. Issues come out in ascending order; within an issue the
action its intent calls for comes first, then the mirror labels to add, then
the stale ones to remove. Only labels of the owned vocabulary are ever
removed.
-/

namespace Opifex

open Preference (rank)

/-- What an action does: a dispatch, a label, an escalation, or a change of a run or of
its work order. -/
inductive ReconcileActionType where
  | dispatch
  | addMirrorLabel
  | removeMirrorLabel
  | escalate
  | killAndReRun
  | killAndRePlan
  | park
  | resume
  | quarantine
  | releaseQuarantine
  | hold
deriving DecidableEq, Repr

/-- Which kind of escalation an `escalate` action is. One is suppressed where another of
its run and kind is outstanding. -/
inductive EscalationKind where
  | runStalled
  | runLooping
  | runFailed
  | quarantined
  | budgetExceeded
  | system
deriving DecidableEq, Repr

/-- The observed facts that produced an action. The text of an escalation is made up
from them. -/
structure ActionEvidence where
  intent : IssueIntent
  inputLabels : List InputLabel
  workOrderIdentity : Option String
  runStatus : Option RunStatus
  currentMirrorLabels : List String
  desiredMirrorLabels : List String
deriving DecidableEq

/-- An action of a sweep: what is to be done to which issue, and the evidence that it
rests on. -/
structure ReconcileAction where
  type : ReconcileActionType
  /-- `owner/name`. -/
  repository : String
  issueNumber : ℕ
  reason : String
  evidence : ActionEvidence
  /-- The mirror label, for the two label actions. -/
  label : Option String := none
  /-- The run the action concerns, for the watchdog's actions. -/
  runId : Option ℕ := none
  escalationKind : Option EscalationKind := none
  /-- When a parked run should be woken, jitter applied. -/
  resumeAt : Option String := none
deriving DecidableEq

/-- The two action types that write a mirror label. -/
def ReconcileAction.isLabelAction (action : ReconcileAction) : Bool :=
  action.type == .addMirrorLabel || action.type == .removeMirrorLabel

/-- What every action of one issue shares: where it is, and the facts that asked for it.
-/
structure ActionBase where
  repository : String
  issueNumber : ℕ
  evidence : ActionEvidence

/-- `[...labels].sort()`. -/
def sortLabels (labels : List String) : List String :=
  rank Text.compareUnits labels

/-- The names of the mirror labels that should be present. -/
def DesiredIssueState.labelNames (desired : DesiredIssueState) : List String :=
  desired.desiredMirrorLabels.map MirrorLabel.name

/-- `{ ...base, type: 'add-mirror-label', label, … }`. -/
def addLabelAction (base : ActionBase) (intent : IssueIntent)
    (label : String) : ReconcileAction where
  type := .addMirrorLabel
  repository := base.repository
  issueNumber := base.issueNumber
  reason :=
    "add " ++ label ++ ": the issue is " ++ intent.name ++
      " and the label is not present"
  evidence := base.evidence
  label := some label

/-- `{ ...base, type: 'remove-mirror-label', label, … }`. -/
def removeLabelAction (base : ActionBase) (intent : IssueIntent)
    (label : String) : ReconcileAction where
  type := .removeMirrorLabel
  repository := base.repository
  issueNumber := base.issueNumber
  reason :=
    "remove " ++ label ++ ": stale, the issue is now " ++ intent.name
  evidence := base.evidence
  label := some label

/-- A label that is on the issue, should not be, and is Opifex's own. -/
def isStaleLabel (desired : DesiredIssueState) (label : String) : Bool :=
  !desired.labelNames.contains label &&
    (allMirrorLabels.map MirrorLabel.name).contains label

/-- Add what is missing, remove what is stale. -/
def mirrorLabelActions (base : ActionBase) (issue : NormalizedIssue)
    (desired : DesiredIssueState) : List ReconcileAction :=
  let current := issue.observedMirrorLabels.eraseDups
  let wanted := desired.labelNames.eraseDups
  ((sortLabels wanted).filter fun label => !current.contains label).map
      (addLabelAction base desired.intent) ++
    ((sortLabels current).filter (isStaleLabel desired)).map
      (removeLabelAction base desired.intent)

/-- The newest work order of an issue that still counts. -/
def workOrderOfIssue (observed : ObservedState) (issueNumber : ℕ) :
    Option ObservedWorkOrder :=
  (rank (fun a b => compare b.attempt a.attempt)
    (observed.workOrders.filter fun w =>
      w.issueNumber == issueNumber && w.counts)).head?

/-- The type of action an intent calls for, if it calls for one. -/
def intentActionType (intent : IssueIntent)
    (workOrder : Option ObservedWorkOrder) : Option ReconcileActionType :=
  let quarantined := workOrder.any fun w => w.status == .quarantined
  match intent with
  | .dispatch => some (if quarantined then .releaseQuarantine else .dispatch)
  -- quarantining again every tick would log a decision that was made once
  | .quarantined => if quarantined then none else some .quarantine
  | .hold => some .hold
  | .running | .blocked | .review | .awaitingChecks | .ignore => none

/-- The action an intent calls for. -/
def intentAction (base : ActionBase) (desired : DesiredIssueState)
    (workOrder : Option ObservedWorkOrder) : List ReconcileAction :=
  (intentActionType desired.intent workOrder).toList.map fun type =>
    { type := type
      repository := base.repository
      issueNumber := base.issueNumber
      reason := desired.reason
      evidence := base.evidence }

/-- Every action of one issue. -/
def actionsForIssue (repository : String) (issue : NormalizedIssue)
    (desired : DesiredIssueState) (observed : ObservedState) :
    List ReconcileAction :=
  let workOrder := workOrderOfIssue observed issue.number
  let base : ActionBase :=
    { repository := repository
      issueNumber := issue.number
      evidence :=
        { intent := desired.intent
          inputLabels := desired.inputLabels
          workOrderIdentity := workOrder.map (·.identity)
          runStatus := workOrder.bind fun w => w.run.map (·.status)
          currentMirrorLabels := sortLabels issue.observedMirrorLabels
          desiredMirrorLabels := sortLabels desired.labelNames } }
  intentAction base desired workOrder ++ mirrorLabelActions base issue desired

/-- `issuesByNumber.get(number)`: of issues that share a number, the last. -/
def issueByNumber (observed : ObservedState) (number : ℕ) :
    Option NormalizedIssue :=
  (observed.issues.filter fun issue => issue.number == number).getLast?

/-- **The actions that would reconcile observed state to desired state.** -/
def computeActions (observed : ObservedState) (desired : DesiredState) :
    List ReconcileAction :=
  (rank (fun a b => compare a.issueNumber b.issueNumber)
    desired.issues).flatMap fun state =>
      match issueByNumber observed state.issueNumber with
      | some issue => actionsForIssue desired.repository issue state observed
      | none => []

/-! ## Which actions an issue gets -/

variable {base : ActionBase} {issue : NormalizedIssue}
  {desired : DesiredIssueState} {observed : ObservedState}
  {workOrder : Option ObservedWorkOrder} {repository : String}
  {action : ReconcileAction}

theorem mem_sortLabels {label : String} {labels : List String} :
    label ∈ sortLabels labels.eraseDups ↔ label ∈ labels := by
  rw [sortLabels, Preference.mem_rank, List.mem_eraseDups]

/-- The two kinds of action that reconcile the mirror labels. -/
theorem mem_mirrorLabelActions :
    action ∈ mirrorLabelActions base issue desired ↔
      (∃ label, label ∈ desired.labelNames ∧
        label ∉ issue.observedMirrorLabels ∧
          action = addLabelAction base desired.intent label) ∨
        ∃ label, label ∈ issue.observedMirrorLabels ∧
          isStaleLabel desired label ∧
            action = removeLabelAction base desired.intent label := by
  rw [mirrorLabelActions, List.mem_append, List.mem_map, List.mem_map]
  simp only [List.mem_filter, mem_sortLabels, List.contains_iff_mem,
    List.mem_eraseDups, Bool.not_eq_true',
    ← Bool.not_eq_true, and_assoc, @eq_comm _ _ action]

/-- An intent never calls for a label action. -/
theorem intentActionType_ne {intent : IssueIntent}
    {type : ReconcileActionType}
    (h : intentActionType intent workOrder = some type) :
    type ≠ .addMirrorLabel ∧ type ≠ .removeMirrorLabel := by
  unfold intentActionType at h
  cases hq : workOrder.any fun w => w.status == .quarantined
  all_goals
    rw [hq] at h
    cases intent <;> cases h <;> decide

/-- The action of an intent writes no label and names the issue. -/
theorem mem_intentAction (h : action ∈ intentAction base desired workOrder) :
    action.isLabelAction = false ∧ action.issueNumber = base.issueNumber := by
  obtain ⟨type, htype, rfl⟩ := List.mem_map.mp h
  obtain ⟨hadd, hremove⟩ := intentActionType_ne (Option.mem_toList.mp htype)
  refine ⟨?_, rfl⟩
  rw [ReconcileAction.isLabelAction, Bool.or_eq_false_iff]
  exact ⟨beq_eq_false_iff_ne.mpr hadd, beq_eq_false_iff_ne.mpr hremove⟩

/-- Every action of an issue names it. -/
theorem issueNumber_actionsForIssue
    (h : action ∈ actionsForIssue repository issue desired observed) :
    action.issueNumber = issue.number := by
  rw [actionsForIssue, List.mem_append, mem_mirrorLabelActions] at h
  obtain h | ⟨label, -, -, rfl⟩ | ⟨label, -, -, rfl⟩ := h
  · exact (mem_intentAction h).2
  · rfl
  · rfl

/-! ## The issues of an observation, one by one -/

/-- The actions of one observed issue, against its own projection. -/
def actionsFor (observed : ObservedState) (issue : NormalizedIssue) :
    List ReconcileAction :=
  actionsForIssue
    (observed.repository.owner ++ "/" ++ observed.repository.name) issue
    (projectIssueState observed issue) observed

/-- Ascending issue numbers. -/
def byNumber (a b : NormalizedIssue) : Ordering := compare a.number b.number

instance : Std.TransCmp byNumber where
  eq_swap {a b} :=
    show compare a.number b.number = (compare b.number a.number).swap from
      Std.OrientedCmp.eq_swap
  isLE_trans {a _ c} hab hbc :=
    show (compare a.number c.number).isLE from
      Std.TransCmp.isLE_trans hab hbc

/-- An issue is found under its own number. -/
theorem issueByNumber_of_mem
    (hdistinct : (observed.issues.map NormalizedIssue.number).Nodup)
    (h : issue ∈ observed.issues) :
    issueByNumber observed issue.number = some issue := by
  have hall : ∀ other ∈ observed.issues.filter (·.number == issue.number),
      other = issue := by
    intro other hother
    obtain ⟨hmem, hnumber⟩ := List.mem_filter.mp hother
    exact List.inj_on_of_nodup_map hdistinct hmem h (eq_of_beq hnumber)
  have hne : observed.issues.filter (·.number == issue.number) ≠ [] :=
    List.ne_nil_of_mem (List.mem_filter.mpr ⟨h, beq_self_eq_true _⟩)
  rw [issueByNumber, List.getLast?_eq_some_getLast hne]
  exact congrArg some (hall _ (List.getLast_mem hne))

/-- **The action list is the list of each issue's own actions**, in ascending
order of the issues. -/
theorem computeActions_eq
    (hdistinct : (observed.issues.map NormalizedIssue.number).Nodup) :
    computeActions observed (projectDesiredState observed)
      = (rank byNumber observed.issues).flatMap (actionsFor observed) := by
  have hsort : rank (fun a b => compare a.issueNumber b.issueNumber)
      (projectDesiredState observed).issues
        = (rank byNumber observed.issues).map (projectIssueState observed) := by
    rw [rank, rank, projectDesiredState]
    refine (List.map_insertionSort _ _ _ _ fun a _ b _ => ?_).symm
    rw [issueNumber_projectIssueState, issueNumber_projectIssueState]
    rfl
  rw [computeActions, hsort, List.flatMap_map]
  refine List.flatMap_congr fun issue hissue => ?_
  rw [issueNumber_projectIssueState,
    issueByNumber_of_mem hdistinct (Preference.mem_rank.mp hissue)]
  rfl

end Opifex
