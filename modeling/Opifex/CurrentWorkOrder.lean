import Opifex.DesiredStateGates
import Opifex.DiffEngine

/-!
# One current work order, selected twice

The projection and the diff engine each ask for the newest work order of an
issue. The first folds the rows into a map, keeping an entry until a strictly
greater attempt comes; the second filters the rows, sorts them by descending
attempt and takes the first. Rows come in any order and attempts may tie.

Both take **the first row of the highest attempt** (`workOrderOfIssue_eq`):
the fold because its comparison is strict, the sort because it is stable. So
the diff engine names an intent by the work order the intent was decided on: a
release is emitted exactly where the projection released a quarantine, and no
quarantine is emitted for a work order already in it.
-/

namespace Opifex

variable {observed : ObservedState} {issue : NormalizedIssue} {n : ℕ}

/-- The sort of the diff engine selects the newest work order. -/
theorem workOrderOfIssue_eq (observed : ObservedState) (n : ℕ) :
    workOrderOfIssue observed n = newestWorkOrder observed.workOrders n := by
  have hcounts : (fun w : ObservedWorkOrder =>
      w.issueNumber == n && w.counts) = countsFor n := by
    funext w
    exact Bool.and_comm _ _
  rw [workOrderOfIssue, newestWorkOrder, hcounts]
  exact Preference.head?_rank_descending ObservedWorkOrder.attempt _

/-- The projection's branch that releases a quarantine: the issue is not held,
its work order is quarantined, and a human cleared it. -/
def ReleasedByProjection (observed : ObservedState)
    (issue : NormalizedIssue) : Prop :=
  issue.carries .hold = false ∧
    ∃ workOrder, (groupWorkOrdersByIssue observed.workOrders).lookup
        issue.number = some workOrder ∧
      workOrder.status = .quarantined ∧
      issue.number ∈ observed.humanClearedQuarantine

/-- The work order selected for an issue is quarantined. -/
def SelectedQuarantined (observed : ObservedState) (n : ℕ) : Prop :=
  ∃ workOrder, (groupWorkOrdersByIssue observed.workOrders).lookup n =
    some workOrder ∧ workOrder.status = .quarantined

theorem any_quarantined_iff :
    (workOrderOfIssue observed n).any (fun w => w.status == .quarantined) ↔
      SelectedQuarantined observed n := by
  rw [SelectedQuarantined, workOrderOfIssue_eq, lookup_groupWorkOrdersByIssue,
    Option.any_eq_true]
  simp only [beq_iff_eq]

/-- On a quarantined work order the projection dispatches exactly what it
releases. -/
theorem releasedByProjection_iff :
    ReleasedByProjection observed issue ↔
      (projectIssueState observed issue).intent = .dispatch ∧
        SelectedQuarantined observed issue.number := by
  rw [projectIssueState_dispatch_iff, projectIntent_dispatch_iff]
  unfold ReleasedByProjection SelectedQuarantined
  rw [lookup_groupWorkOrdersByIssue]
  constructor
  · rintro ⟨hhold, w, hw, hq, hcleared⟩
    exact ⟨⟨hhold, .inl ⟨w, hw, hq, hcleared⟩⟩, w, hw, hq⟩
  · rintro ⟨⟨hhold, ⟨w, hw, hq, hcleared⟩ | ⟨hother, -⟩⟩, w', hw', hq'⟩
    · exact ⟨hhold, w, hw, hq, hcleared⟩
    · exact absurd hq' (hother w' hw').1

/-! ## The actions of a tick -/

/-- The tick emits an action of this type for the issue number. -/
def Emits (observed : ObservedState) (type : ReconcileActionType) (n : ℕ) :
    Prop :=
  ∃ action ∈ computeActions observed (projectDesiredState observed),
    action.type = type ∧ action.issueNumber = n

/-- The one action of an issue that writes no label is its intent's. -/
theorem exists_mem_actionsForIssue {repository : String}
    {desired : DesiredIssueState} {type : ReconcileActionType}
    (hadd : type ≠ .addMirrorLabel) (hremove : type ≠ .removeMirrorLabel) :
    (∃ action ∈ actionsForIssue repository issue desired observed,
        action.type = type) ↔
      intentActionType desired.intent (workOrderOfIssue observed issue.number)
        = some type := by
  unfold actionsForIssue
  constructor
  · rintro ⟨action, hmem, rfl⟩
    rw [List.mem_append, mem_mirrorLabelActions] at hmem
    obtain hmem | ⟨label, -, -, rfl⟩ | ⟨label, -, -, rfl⟩ := hmem
    · obtain ⟨type, htype, rfl⟩ := List.mem_map.mp hmem
      exact Option.mem_toList.mp htype
    · exact absurd rfl hadd
    · exact absurd rfl hremove
  · intro htype
    refine ⟨_, List.mem_append_left _ (List.mem_map.mpr
      ⟨type, Option.mem_toList.mpr htype, rfl⟩), rfl⟩

/-- An issue number that was observed finds an issue of that number. -/
theorem issueByNumber_eq_some (h : issue ∈ observed.issues) :
    ∃ found, issueByNumber observed issue.number = some found ∧
      found.number = issue.number := by
  have hne : observed.issues.filter (·.number == issue.number) ≠ [] :=
    List.ne_nil_of_mem (List.mem_filter.mpr ⟨h, beq_self_eq_true _⟩)
  refine ⟨_, List.getLast?_eq_some_getLast hne, ?_⟩
  exact eq_of_beq (List.mem_filter.mp (List.getLast_mem hne)).2

/-- **What a tick emits for an issue** is what the projection's intent calls
for, against the work order the diff engine selects. -/
theorem emits_iff {type : ReconcileActionType}
    (hadd : type ≠ .addMirrorLabel) (hremove : type ≠ .removeMirrorLabel) :
    Emits observed type n ↔
      ∃ issue ∈ observed.issues, issue.number = n ∧
        intentActionType (projectIssueState observed issue).intent
          (workOrderOfIssue observed n) = some type := by
  unfold Emits computeActions
  constructor
  · rintro ⟨action, hmem, htype, rfl⟩
    obtain ⟨state, hstate, hmem⟩ := List.mem_flatMap.mp hmem
    obtain ⟨issue, hissue, rfl⟩ :=
      List.mem_map.mp (Preference.mem_rank.mp hstate)
    obtain ⟨found, hfound, hnumber⟩ := issueByNumber_eq_some hissue
    rw [issueNumber_projectIssueState, hfound] at hmem
    have hsame : action.issueNumber = issue.number :=
      (issueNumber_actionsForIssue hmem).trans hnumber
    refine ⟨issue, hissue, hsame.symm, ?_⟩
    rw [hsame, ← hnumber]
    exact (exists_mem_actionsForIssue hadd hremove).mp ⟨action, hmem, htype⟩
  · rintro ⟨issue, hissue, rfl, htype⟩
    obtain ⟨found, hfound, hnumber⟩ := issueByNumber_eq_some hissue
    rw [← hnumber] at htype
    obtain ⟨action, hmem, htype⟩ :=
      (exists_mem_actionsForIssue hadd hremove).mpr htype
    refine ⟨action, List.mem_flatMap.mpr ⟨_, Preference.mem_rank.mpr
      (List.mem_map.mpr ⟨issue, hissue, rfl⟩), ?_⟩, htype,
      (issueNumber_actionsForIssue hmem).trans hnumber⟩
    rw [issueNumber_projectIssueState, hfound]
    exact hmem

/-- Only a dispatch of a quarantined work order is a release. -/
theorem intentActionType_release {intent : IssueIntent}
    {workOrder : Option ObservedWorkOrder} :
    intentActionType intent workOrder = some .releaseQuarantine ↔
      intent = .dispatch ∧
        workOrder.any fun w => w.status == .quarantined := by
  unfold intentActionType
  cases workOrder.any fun w => w.status == .quarantined <;>
    cases intent <;> simp

/-- A quarantine is never called for against a quarantined work order. -/
theorem intentActionType_quarantine {intent : IssueIntent}
    {workOrder : Option ObservedWorkOrder}
    (h : intentActionType intent workOrder = some .quarantine) :
    ¬ workOrder.any fun w => w.status == .quarantined := by
  unfold intentActionType at h
  intro hq
  rw [hq] at h
  cases intent <;> simp at h

/-- **The projection and the diff engine agree on the current work order of
every issue.** A release is emitted exactly where the projection released a
quarantine, and a quarantine only where the work order selected is not already
quarantined. -/
theorem selections_agree (observed : ObservedState) :
    (∀ n, (groupWorkOrdersByIssue observed.workOrders).lookup n =
      workOrderOfIssue observed n) ∧
    (∀ n, Emits observed .releaseQuarantine n ↔
      ∃ issue ∈ observed.issues, issue.number = n ∧
        ReleasedByProjection observed issue) ∧
    ∀ n, Emits observed .quarantine n → ¬ SelectedQuarantined observed n := by
  refine ⟨fun n => ?_, fun n => ?_, fun n h => ?_⟩
  · rw [lookup_groupWorkOrdersByIssue, workOrderOfIssue_eq]
  · rw [emits_iff (by decide) (by decide)]
    refine exists_congr fun issue => and_congr_right fun _ =>
      and_congr_right fun hnumber => ?_
    rw [intentActionType_release, any_quarantined_iff,
      releasedByProjection_iff, hnumber]
  · obtain ⟨issue, -, -, htype⟩ :=
      (emits_iff (by decide) (by decide)).mp h
    rw [← any_quarantined_iff]
    exact intentActionType_quarantine htype

end Opifex
