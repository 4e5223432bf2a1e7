import Mathlib.Data.List.MinMax
import Opifex.DesiredState

/-!
# What a dispatch intent guarantees

The projection's comment calls the ready branch the only path to a dispatch.
There are two: the ready branch, which applies every gate, and the branch that
answers a quarantine a human cleared, which returns before any later gate is
consulted. `projectIntent_dispatch_iff` states both, and
`gatesRespected_iff` says exactly which observed states the second one makes
unsafe: those with a cleared quarantine on an issue whose repository is not
released for dispatch, or whose newest work order still has a live run.
-/

namespace Opifex

variable {issue : NormalizedIssue} {observed : ObservedState}
  {workOrder : Option ObservedWorkOrder}

/-! ## The newest work order -/

/-- The work order counts and belongs to the issue. -/
def countsFor (issueNumber : ℕ) (workOrder : ObservedWorkOrder) : Bool :=
  workOrder.counts && workOrder.issueNumber == issueNumber

/-- **The newest work order of an issue**: of those that count, the first with
the highest attempt. -/
def newestWorkOrder (workOrders : List ObservedWorkOrder) (issueNumber : ℕ) :
    Option ObservedWorkOrder :=
  (workOrders.filter (countsFor issueNumber)).argmax (·.attempt)

/-- Dropping another issue's entries does not change the entry found. -/
theorem lookup_filter_ne {n k : ℕ} (h : n ≠ k)
    (byIssue : List (ℕ × ObservedWorkOrder)) :
    (byIssue.filter fun entry => entry.1 != k).lookup n =
      byIssue.lookup n := by
  induction byIssue with
  | nil => rfl
  | cons entry byIssue ih =>
    by_cases hentry : entry.1 = k
    · have hne : (n == entry.1) = false := by simpa [hentry] using h
      rw [List.filter_cons_of_neg (by simp [hentry]), ih, List.lookup_cons,
        hne]
    · rw [List.filter_cons_of_pos (by simpa using hentry), List.lookup_cons,
        List.lookup_cons, ih]

theorem lookup_setIssue (byIssue : List (ℕ × ObservedWorkOrder))
    (w : ObservedWorkOrder) (n : ℕ) :
    (setIssue byIssue w).lookup n =
      if w.issueNumber = n then some w else byIssue.lookup n := by
  rw [setIssue, List.lookup_cons]
  split_ifs with h
  · simp [h]
  · have hn : (n == w.issueNumber) = false := by simpa using Ne.symm h
    rw [hn]
    exact lookup_filter_ne (Ne.symm h) byIssue

/-- One turn of the grouping loop, seen from one issue. -/
theorem lookup_groupStep (byIssue : List (ℕ × ObservedWorkOrder))
    (w : ObservedWorkOrder) (n : ℕ) :
    (groupStep byIssue w).lookup n =
      if countsFor n w then
        match byIssue.lookup n with
        | none => some w
        | some existing =>
          if existing.attempt < w.attempt then some w else some existing
      else byIssue.lookup n := by
  unfold groupStep countsFor
  by_cases hcounts : w.counts
  · by_cases hissue : w.issueNumber = n
    · subst hissue
      cases hl : byIssue.lookup w.issueNumber with
      | none => simp [hcounts, lookup_setIssue]
      | some existing =>
        by_cases ha : existing.attempt < w.attempt <;>
          simp [hcounts, ha, hl, lookup_setIssue]
    · cases byIssue.lookup w.issueNumber with
      | none => simp [hcounts, hissue, lookup_setIssue]
      | some existing =>
        by_cases ha : existing.attempt < w.attempt <;>
          simp [hcounts, hissue, ha, lookup_setIssue]
  · simp [hcounts]

/-- Grouping by issue selects each issue's newest work order. -/
theorem lookup_groupWorkOrdersByIssue (workOrders : List ObservedWorkOrder)
    (n : ℕ) :
    (groupWorkOrdersByIssue workOrders).lookup n =
      newestWorkOrder workOrders n := by
  unfold groupWorkOrdersByIssue newestWorkOrder
  induction workOrders using List.reverseRecOn with
  | nil => rfl
  | append_singleton workOrders w ih =>
    rw [List.foldl_append, List.filter_append, List.foldl_cons,
      List.foldl_nil, lookup_groupStep, ih]
    split_ifs with hw
    · rw [List.filter_cons_of_pos hw, List.filter_nil, List.argmax_concat]
      cases (workOrders.filter (countsFor n)).argmax (·.attempt) <;> rfl
    · rw [List.filter_cons_of_neg hw, List.filter_nil, List.append_nil]

/-! ## The two paths to a dispatch -/

theorem quarantineIntent_dispatch (w : ObservedWorkOrder) :
    (quarantineIntent issue w observed).intent = .dispatch ↔
      issue.number ∈ observed.humanClearedQuarantine := by
  unfold quarantineIntent
  split_ifs with h <;> simp_all

/-- A run never asks for a dispatch. -/
theorem runIntent_ne_dispatch {w : ObservedWorkOrder}
    {state : DesiredIssueState} (h : runIntent issue w = some state) :
    state.intent ≠ .dispatch := by
  unfold runIntent at h
  split at h
  · contradiction
  · split at h <;> first | contradiction | (cases h; simp) | skip
    split at h <;> first | contradiction | (cases h; simp)

/-- Where the run decides nothing, it is not live. -/
theorem not_isLive_of_runIntent {w : ObservedWorkOrder}
    (h : runIntent issue w = none) :
    ∀ run, w.run = some run → run.status.isLive = false := by
  intro run hrun
  unfold runIntent at h
  rw [hrun] at h
  cases hs : run.status <;> simp_all [RunStatus.isLive]

/-- Spend known to be below a known ceiling. -/
def WithinBudget (observed : ObservedState)
    (workOrder : Option ObservedWorkOrder) : Prop :=
  ∀ ceiling spent, observed.repository.budgetCeilingUsd = some ceiling →
    totalSpend workOrder = some spent →
    spent.tenThousandths < ceiling.tenThousandths

theorem spendReached_eq_none :
    spendReached observed workOrder = none ↔
      WithinBudget observed workOrder := by
  unfold spendReached WithinBudget
  cases observed.repository.budgetCeilingUsd <;> cases totalSpend workOrder <;>
    simp

theorem readyIntent_dispatch :
    (readyIntent issue workOrder observed).intent = .dispatch ↔
      observed.repository.dispatchEnabled ∧
        WithinBudget observed workOrder ∧
        ∀ w, workOrder = some w → w.attempt < observed.retryCeiling := by
  rw [← spendReached_eq_none]
  unfold readyIntent
  split_ifs with hen
  · simp_all
  · have hen' : observed.repository.dispatchEnabled := by simpa using hen
    cases hs : spendReached observed workOrder with
    | some pair => simp
    | none =>
      cases workOrder with
      | none => simp_all
      | some w =>
        by_cases ha : observed.retryCeiling ≤ w.attempt
        · simp [Option.filter, ha]
        · simp [Option.filter, ha, hen', lt_of_not_ge ha]

/-- **The two paths to a dispatch.** The first is a quarantine cleared by a
human and consults no other gate; the second is the ready branch. -/
theorem projectIntent_dispatch_iff :
    (projectIntent issue workOrder observed).intent = .dispatch ↔
      issue.carries .hold = false ∧
      ((∃ w, workOrder = some w ∧ w.status = .quarantined ∧
          issue.number ∈ observed.humanClearedQuarantine) ∨
        (∀ w, workOrder = some w →
          w.status ≠ .quarantined ∧ runIntent issue w = none) ∧
        issue.carries .ready ∧
        (readyIntent issue workOrder observed).intent = .dispatch) := by
  unfold projectIntent
  split_ifs with hhold hready
  · simp [hhold]
  · cases workOrder with
    | none => simp_all
    | some w =>
      by_cases hq : w.status = .quarantined
      · simp [Option.filter, hq, hhold, quarantineIntent_dispatch]
      · cases hr : runIntent issue w with
        | some state =>
          simp [Option.filter, hq, hr, runIntent_ne_dispatch hr]
        | none => simp_all [Option.filter]
  · cases workOrder with
    | none => simp_all
    | some w =>
      by_cases hq : w.status = .quarantined
      · simp [Option.filter, hq, hhold, quarantineIntent_dispatch]
      · cases hr : runIntent issue w with
        | some state =>
          simp [Option.filter, hq, hr, runIntent_ne_dispatch hr]
        | none => simp_all [Option.filter]

/-! ## The gates -/

/-- **What a dispatch of an issue has to respect**: no hold, a repository
released for dispatch, no live run, and an authority – either the ready label
within attempts and budget, or a quarantine a human cleared. -/
structure Authorised (observed : ObservedState) (issue : NormalizedIssue) :
    Prop where
  notHeld : issue.carries .hold = false
  dispatchEnabled : observed.repository.dispatchEnabled
  noLiveRun : ∀ w run, newestWorkOrder observed.workOrders issue.number =
    some w → w.run = some run → run.status.isLive = false
  authority :
    (issue.carries .ready ∧
      (∀ w, newestWorkOrder observed.workOrders issue.number = some w →
        w.attempt < observed.retryCeiling) ∧
      WithinBudget observed
        (newestWorkOrder observed.workOrders issue.number)) ∨
    ∃ w, newestWorkOrder observed.workOrders issue.number = some w ∧
      w.status = .quarantined ∧
      issue.number ∈ observed.humanClearedQuarantine

/-- Every issue the projection gives the intent `dispatch` is authorised. -/
def GatesRespected (observed : ObservedState) : Prop :=
  ∀ (i : ℕ) (issue : NormalizedIssue) (state : DesiredIssueState),
    observed.issues[i]? = some issue →
    (projectDesiredState observed).issues[i]? = some state →
    state.intent = .dispatch → Authorised observed issue

/-- No human cleared a quarantine the projection may not act on: where an
issue without a hold has a cleared quarantine, its repository is released for
dispatch and its newest work order has no live run. -/
def ClearedOnlyWhereDispatchable (observed : ObservedState) : Prop :=
  ∀ issue ∈ observed.issues, issue.carries .hold = false →
    ∀ w, newestWorkOrder observed.workOrders issue.number = some w →
      w.status = .quarantined →
      issue.number ∈ observed.humanClearedQuarantine →
      observed.repository.dispatchEnabled ∧
        ∀ run, w.run = some run → run.status.isLive = false

theorem reportIgnoredLabels_intent (state : DesiredIssueState) :
    (reportIgnoredLabels issue state).intent = state.intent := by
  unfold reportIgnoredLabels
  split_ifs <;> rfl

/-- The two paths to a dispatch, for an issue of an observed state. -/
theorem projectIssueState_dispatch_iff :
    (projectIssueState observed issue).intent = .dispatch ↔
      (projectIntent issue
        (newestWorkOrder observed.workOrders issue.number)
        observed).intent = .dispatch := by
  rw [projectIssueState, reportIgnoredLabels_intent,
    lookup_groupWorkOrdersByIssue]

/-- The ready branch applies every gate. -/
theorem authorised_of_ready (hhold : issue.carries .hold = false)
    (hrun : ∀ w, newestWorkOrder observed.workOrders issue.number = some w →
      w.status ≠ .quarantined ∧ runIntent issue w = none)
    (hready : issue.carries .ready)
    (hd : (readyIntent issue
      (newestWorkOrder observed.workOrders issue.number)
      observed).intent = .dispatch) :
    Authorised observed issue := by
  obtain ⟨hen, hbudget, hattempt⟩ := readyIntent_dispatch.mp hd
  exact
    { notHeld := hhold
      dispatchEnabled := hen
      noLiveRun := fun w run hw =>
        not_isLive_of_runIntent (hrun w hw).2 run
      authority := Or.inl ⟨hready, hattempt, hbudget⟩ }

/-- **The projection respects its gates exactly where no cleared quarantine
bypasses them.** -/
theorem gatesRespected_iff (observed : ObservedState) :
    GatesRespected observed ↔ ClearedOnlyWhereDispatchable observed := by
  have hissue : GatesRespected observed ↔ ∀ issue ∈ observed.issues,
      (projectIntent issue (newestWorkOrder observed.workOrders issue.number)
        observed).intent = .dispatch → Authorised observed issue := by
    constructor
    · intro h issue hmem hd
      obtain ⟨i, hi⟩ := List.mem_iff_getElem?.mp hmem
      refine h i issue (projectIssueState observed issue) hi ?_
        (projectIssueState_dispatch_iff.mpr hd)
      rw [projectDesiredState, List.getElem?_map, hi, Option.map_some]
    · intro h i issue state hi hs hd
      rw [projectDesiredState, List.getElem?_map, hi, Option.map_some] at hs
      cases hs
      exact h issue (List.mem_of_getElem? hi)
        (projectIssueState_dispatch_iff.mp hd)
  rw [hissue]
  constructor
  · intro h issue hmem hhold w hw hq hcleared
    have hauth := h issue hmem
      (projectIntent_dispatch_iff.mpr
        ⟨hhold, Or.inl ⟨w, hw, hq, hcleared⟩⟩)
    exact ⟨hauth.dispatchEnabled, fun run => hauth.noLiveRun w run hw⟩
  · intro h issue hmem hd
    obtain ⟨hhold, ⟨w, hw, hq, hcleared⟩ | ⟨hrun, hready, hd⟩⟩ :=
      projectIntent_dispatch_iff.mp hd
    · obtain ⟨hen, hlive⟩ := h issue hmem hhold w hw hq hcleared
      exact
        { notHeld := hhold
          dispatchEnabled := hen
          noLiveRun := fun w' run hw' hr => by
            rw [hw, Option.some.injEq] at hw'
            exact hlive run (hw' ▸ hr)
          authority := Or.inr ⟨w, hw, hq, hcleared⟩ }
    · exact authorised_of_ready hhold hrun hready hd

/-- A quarantine cleared by a human while the work order's run is still live,
in a repository that is only being observed. -/
def clearedWhileRunning : ObservedState where
  repository := ⟨"acme", "app", false, none⟩
  issues := [⟨312, .isOpen, "Add CSV export", none, ["factory:clear-quarantine"],
    [.clearQuarantine], [], []⟩]
  workOrders := [⟨"wo_app_312_a3f91c2_a1", 312, 1, .quarantined,
    some ⟨.running, none, none, none⟩⟩]
  humanClearedQuarantine := [312]
  retryCeiling := 3

/-- The projection asks for a second run of it. -/
theorem clearedWhileRunning_dispatched :
    ¬ GatesRespected clearedWhileRunning := by
  intro h
  have hauth := h 0 _ _ rfl rfl (by decide)
  exact absurd hauth.dispatchEnabled (by decide)

end Opifex
