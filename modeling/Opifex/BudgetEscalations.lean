import Opifex.PollerParks
import Opifex.RunPoller

/-!
# Escalating an overrun

When a batch takes a run past its budget the poller writes the overrun on the
row and hands `raiseFrom` an action it made up. The action has no evidence,
and the summary of an escalation is worked out from the evidence: unless an
escalation of the overrun is outstanding already the call throws, and the
poller counts a failure. So no poll ever creates one
(`escalations_step`).

The overrun stays on the row until the tick ends, unless the poll lost the run
or dropped its handle while the row is live: then the reason for a lost handle
is written over it.
-/

namespace Opifex

namespace Poller

/-! ## Raising it -/

/-- The poller's action has no evidence to summarise. -/
theorem row_budgetAction (runId : ℕ) (outcome : String) (raisedAt : Instant) :
    (budgetAction runId outcome).row raisedAt
      = .error (.typeError
          "Cannot read properties of undefined (reading 'workOrderIdentity')") :=
  rfl

/-- **Raising an overrun creates nothing**: one that is outstanding suppresses
it, and otherwise it throws. -/
theorem raiseFrom_budgetAction (escalations : Table EscalationRow)
    (raisedAt : Instant) (runId : ℕ) (outcome : String) :
    (raiseFrom escalations raisedAt [budgetAction runId outcome]).escalations
      = escalations := by
  have hfilter : [budgetAction runId outcome].filter (·.type == .escalate)
      = [budgetAction runId outcome] := rfl
  have hnone : ¬ (Raising.mk escalations 0 0 none).error.isSome :=
    Bool.false_ne_true
  rw [raiseFrom, hfilter, List.foldl_cons, List.foldl_nil, raiseOne,
    if_neg hnone, row_budgetAction]
  split <;> rfl

section Table

variable {Candidate : Type*} {validator : RunEventValidator Candidate}
  {answers : PollAnswers Candidate} {poller : Poller} {runId other : ℕ}

theorem escalations_raiseOverrun {outcome : String} :
    (raiseOverrun answers runId outcome poller).escalations
      = poller.escalations := by
  unfold raiseOverrun
  dsimp only
  split <;> exact raiseFrom_budgetAction _ _ _ _

theorem escalations_enforceBudget {runIsLive : Bool} :
    (enforceBudget answers runId runIsLive poller).escalations
      = poller.escalations := by
  unfold enforceBudget
  split
  · rfl
  · split
    · rfl
    · split
      · rfl
      · exact escalations_raiseOverrun

theorem escalations_heed {status : RunnerRunStatus} :
    (heed runId status poller).escalations = poller.escalations := by
  cases status <;> rfl

theorem escalations_pollOne :
    (pollOne validator answers runId poller).escalations
      = poller.escalations := by
  unfold pollOne
  split
  · rfl
  · dsimp only
    split
    · exact escalations_heed
    · unfold ingestPolled
      split
      · rfl
      · split
        · rfl
        · rw [escalations_heed, escalations_enforceBudget]
          rfl

/-- **No step of the poller touches an escalation.** -/
theorem escalations_step (poller : Poller) (step : Step Candidate) :
    (Poller.step validator poller step).escalations = poller.escalations := by
  cases step with
  | deadlines answers =>
    exact view_enforceDeadlines (fun _ _ _ => rfl) fun _ _ _ => rfl
  | poll answers runId => exact escalations_pollOne
  | reconcile answers =>
    exact view_reconcileUntracked (fun _ _ => rfl) fun _ _ => rfl

theorem escalations_run (steps : List (Step Candidate)) :
    (Machine.run (step validator) poller steps).escalations
      = poller.escalations :=
  @Machine.run_preserves _ _ (step validator)
    (fun after => after.escalations = poller.escalations)
    (fun after step h => (escalations_step after step).trans h) poller steps rfl

end Table

/-! ## What a tick knows of one run -/

/-- The row of a run, whether the poller holds its handle, and whether it acted
on its budget. -/
structure View where
  row : Option WatchedRun
  tracked : Bool
  enforced : Bool

/-- What the poller knows of one run. -/
def view (runId : ℕ) (poller : Poller) : View where
  row := poller.table.find runId
  tracked := poller.isTracked runId
  enforced := poller.budgetEnforced.contains runId

section Other

variable {Candidate : Type*} {validator : RunEventValidator Candidate}
  {answers : PollAnswers Candidate} {poller : Poller} {runId other : ℕ}

theorem view_forget_other (h : other ≠ runId) :
    (forget other poller).view runId = poller.view runId := by
  have htracked : (forget other poller).isTracked runId
      = poller.isTracked runId := by
    show (poller.tracked.filter _).any _ = poller.tracked.any _
    rw [List.any_filter]
    refine List.any_congr rfl fun entry => ?_
    by_cases hentry : entry.1 = runId
    · rw [hentry, beq_self_eq_true, Bool.and_true, bne_iff_ne]
      exact h.symm
    · rw [beq_false_of_ne hentry, Bool.and_false]
  have henforced : (forget other poller).budgetEnforced.contains runId
      = poller.budgetEnforced.contains runId := by
    show (poller.budgetEnforced.filter _).contains runId = _
    rw [Bool.eq_iff_iff, List.contains_iff_mem, List.contains_iff_mem,
      List.mem_filter, bne_iff_ne]
    exact and_iff_left h.symm
  rw [view, htracked, henforced]
  rfl

theorem view_of_find {after : Poller}
    (hfind : after.table.find runId = poller.table.find runId)
    (htracked : after.tracked = poller.tracked)
    (henforced : after.budgetEnforced = poller.budgetEnforced) :
    after.view runId = poller.view runId := by
  rw [view, hfind, isTracked, htracked, henforced]
  rfl

theorem view_heed_other {status : RunnerRunStatus} (h : other ≠ runId) :
    (heed other status poller).view runId = poller.view runId := by
  cases status with
  | unknown =>
    show (markLost other (forget other (poller.count _))).view runId = _
    rw [view_of_find (find_markLost_other h) rfl rfl, view_forget_other h]
    rfl
  | running | blocked => rfl
  | succeeded | failed => exact view_forget_other h

theorem tracked_raiseOverrun {outcome : String} :
    (raiseOverrun answers other outcome poller).tracked = poller.tracked
      ∧ (raiseOverrun answers other outcome poller).budgetEnforced
          = poller.budgetEnforced := by
  unfold raiseOverrun
  dsimp only
  split <;> exact ⟨rfl, rfl⟩

theorem view_enforceBudget_other {runIsLive : Bool} (h : other ≠ runId) :
    (enforceBudget answers other runIsLive poller).view runId
      = poller.view runId := by
  have hfind : (enforceBudget answers other runIsLive poller).table.find runId
      = poller.table.find runId := find_enforceBudget_other h
  have hmarks : (enforceBudget answers other runIsLive poller).tracked
        = poller.tracked
      ∧ (enforceBudget answers other runIsLive poller).budgetEnforced.contains
            runId
          = poller.budgetEnforced.contains runId := by
    unfold enforceBudget
    split
    · exact ⟨rfl, rfl⟩
    · split
      · exact ⟨rfl, rfl⟩
      · split
        · exact ⟨rfl, rfl⟩
        · refine ⟨tracked_raiseOverrun.1, ?_⟩
          rw [tracked_raiseOverrun.2]
          show (poller.budgetEnforced ++ [other]).contains runId = _
          rw [Bool.eq_iff_iff, List.contains_iff_mem, List.contains_iff_mem,
            List.mem_append, List.mem_singleton]
          exact or_iff_left h.symm
  rw [view, hfind, hmarks.2, isTracked, hmarks.1]
  rfl

theorem view_storeRecord_other {stored : RunRecord} (h : other ≠ runId) :
    (storeRecord other stored poller).view runId = poller.view runId :=
  view_of_find (find_storeRecord_other h) rfl rfl

/-- **Polling another run changes nothing of it.** -/
theorem view_pollOne_other (h : other ≠ runId) :
    (pollOne validator answers other poller).view runId
      = poller.view runId := by
  unfold pollOne
  split
  · rfl
  · dsimp only
    split
    · exact view_heed_other h
    · unfold ingestPolled
      split
      · rfl
      · split
        · exact view_storeRecord_other h
        · rw [view_heed_other h, view_enforceBudget_other h]
          exact view_storeRecord_other h

theorem view_polls_other {ids : List ℕ} (h : runId ∉ ids) :
    (ids.foldl (fun poller id => pollOne validator answers id poller)
      poller).view runId = poller.view runId := by
  induction ids generalizing poller with
  | nil => rfl
  | cons id ids ih =>
    obtain ⟨hid, hids⟩ := not_or.mp (mt List.mem_cons.mpr h)
    rw [List.foldl_cons, ih hids, view_pollOne_other (Ne.symm hid)]

end Other

/-! ## The poll that finds the overrun -/

end Poller

/-- What the poller decides about a run's spending. -/
def WatchedRun.overrun (watched : WatchedRun) (runIsLive : Bool) :
    OverrunVerdict :=
  decideBudgetOverrun
    { costUsd := watched.record.run.costUsd.map Usd.toRat
      ceilingUsd := watched.budgetCeilingUsd.map Usd.toRat
      runIsLive := runIsLive }

/-- The row states the overrun: its attention reason begins with it. -/
def WatchedRun.States (reason : String) (watched : WatchedRun) : Prop :=
  ∃ rest, watched.record.run.attentionReason = some (reason ++ rest)

namespace Poller

section Own

variable {Candidate : Type*} (validator : RunEventValidator Candidate)
  (answers : PollAnswers Candidate) {poller : Poller} {runId : ℕ}
  {watched : WatchedRun}

/-- What a poll with events drains, and the row its ingestion leaves. -/
def drained (runId : ℕ) (watched : WatchedRun) :
    Option (RunPollResult Candidate × WatchedRun) :=
  match answers.poll runId with
  | .error _ => none
  | .ok poll =>
    if poll.events.isEmpty then none
    else
      match ingestAttempt validator runId watched.record poll.events
          (answers.ingestFailure runId) with
      | (record, some _) => some (poll, watched.ingested record)
      | (_, none) => none

variable {validator answers}

theorem find_record_self {reason : String}
    (h : poller.table.find runId = some watched) :
    (record runId reason poller).table.find runId
      = some (if watched.isLive then watched.attention reason else watched) := by
  show (poller.table.modify _ (WatchedRun.attention reason)
    (WatchedRun.key_attention reason)).find runId = _
  rw [Table.find_modify, h]
  have hid : watched.record.run.id = runId := (Table.find_eq_some.mp h).2
  rw [Option.map_some, hid, beq_self_eq_true, Bool.true_and]

theorem find_markLost_self (h : poller.table.find runId = some watched) :
    (markLost runId poller).table.find runId
      = some (if watched.isLive then watched.lose else watched) := by
  show (poller.table.modify _ WatchedRun.lose WatchedRun.key_lose).find runId
    = _
  rw [Table.find_modify, h]
  have hid : watched.record.run.id = runId := (Table.find_eq_some.mp h).2
  rw [Option.map_some, hid, beq_self_eq_true, Bool.true_and]

/-- A cancel that was tried or not, the outcome begins with the reason. -/
theorem stopForBudget_eq {reason : String} :
    ∃ rest, stopForBudget answers runId reason poller = reason ++ rest := by
  unfold stopForBudget
  split
  · cases answers.cancelForBudget runId with
    | ok _ => exact ⟨_, rfl⟩
    | error message =>
      refine ⟨" The control plane tried to cancel it and the runner " ++
        ("refused, so it may STILL BE RUNNING and still spending: " ++
          message), ?_⟩
      dsimp only
      rw [String.append_assoc, String.append_assoc]
  · exact ⟨_, rfl⟩

/-- **What the budget check makes of a live row that is over**: it states the
overrun, unless this process acted on the run's budget before. -/
theorem find_enforceBudget_self {runIsLive : Bool} {cost ceiling overspend : ℚ}
    {stoppable : Bool} {reason : String}
    (hfind : poller.table.find runId = some watched)
    (hlive : watched.isLive)
    (hover : watched.overrun runIsLive
      = .over cost ceiling overspend stoppable reason) :
    ∃ after, (enforceBudget answers runId runIsLive poller).table.find runId
        = some after
      ∧ after.isLive
      ∧ (after.States reason
        ↔ ¬ poller.budgetEnforced.contains runId ∨ watched.States reason) := by
  unfold enforceBudget
  by_cases henforced : poller.budgetEnforced.contains runId
  · rw [if_pos henforced]
    exact ⟨watched, hfind, hlive, (or_iff_right (not_not.mpr henforced)).symm⟩
  · rw [if_neg henforced, hfind]
    dsimp only
    rw [show decideBudgetOverrun
        { costUsd := watched.record.run.costUsd.map Usd.toRat
          ceilingUsd := watched.budgetCeilingUsd.map Usd.toRat
          runIsLive := runIsLive }
      = .over cost ceiling overspend stoppable reason from hover]
    dsimp only
    rw [table_raiseOverrun]
    generalize hmarked : ({ poller with
      budgetEnforced := poller.budgetEnforced ++ [runId] } : Poller).count
        (fun result => { result with overBudget := result.overBudget + 1 })
      = marked
    have hmarkedFind : marked.table.find runId = some watched := by
      rw [← hmarked]
      exact hfind
    -- the outcome that is written last begins with the reason
    have houtcome : ∃ rest,
        (if stoppable then
            stopForBudget answers runId reason (record runId reason marked)
          else reason ++
            " The run had already finished, so nothing could be stopped.")
          = reason ++ rest := by
      split
      · exact stopForBudget_eq
      · exact ⟨_, rfl⟩
    obtain ⟨rest, hrest⟩ := houtcome
    rw [hrest]
    have hfirst : (record runId reason marked).table.find runId
        = some (watched.attention reason) :=
      (find_record_self hmarkedFind).trans (by rw [if_pos hlive])
    have hsecond : (record runId (reason ++ rest)
          (record runId reason marked)).table.find runId
        = some ((watched.attention reason).attention (reason ++ rest)) := by
      have hattention : (watched.attention reason).isLive := hlive
      exact (find_record_self hfirst).trans (by rw [if_pos hattention])
    exact ⟨_, hsecond, hlive, iff_of_true ⟨rest, rfl⟩ (Or.inl henforced)⟩

/-- A poll with events that are ingested: the row is stored, the budget is
checked, and then the status is heeded. -/
theorem pollOne_of_drained {row : WatchedRun} {poll : RunPollResult Candidate}
    (hfind : poller.table.find runId = some row)
    (hdrained : drained validator answers runId row = some (poll, watched)) :
    ∃ stored : Poller,
      pollOne validator answers runId poller
          = heed runId poll.status
              (enforceBudget answers runId (poll.status == .running) stored)
        ∧ stored.view runId
          = { row := some watched
              tracked := poller.isTracked runId
              enforced := poller.budgetEnforced.contains runId } := by
  unfold drained at hdrained
  split at hdrained
  · cases hdrained
  · rename_i polled hpoll
    split_ifs at hdrained with hempty
    split at hdrained
    · rename_i record ingested hattempt
      obtain ⟨rfl, rfl⟩ := Prod.ext_iff.mp (Option.some.inj hdrained)
      unfold pollOne
      rw [hpoll]
      dsimp only
      rw [if_neg hempty, ingestPolled]
      generalize hcounted : poller.count _ = counted
      have hrow : counted.table.find runId = some row := by
        rw [← hcounted]
        exact hfind
      rw [hrow]
      dsimp only
      rw [hattempt]
      refine ⟨_, rfl, ?_⟩
      have hstored : (storeRecord runId record counted).table.find runId
          = some (row.ingested record) := by
        show (counted.table.modify _ (WatchedRun.ingested record)
          (WatchedRun.key_ingested record)).find runId = _
        rw [Table.find_modify, hrow]
        have hid : row.record.run.id = runId := (Table.find_eq_some.mp hrow).2
        rw [Option.map_some, hid, beq_self_eq_true, if_pos rfl]
      show View.mk ((storeRecord runId record counted).table.find runId)
        (counted.isTracked runId) (counted.budgetEnforced.contains runId) = _
      rw [hstored, ← hcounted]
      rfl
    · cases hdrained

/-- The handle is kept by a run that is still going. -/
theorem isTracked_heed_self {status : RunnerRunStatus} :
    (heed runId status poller).isTracked runId
      = ((status == .running || status == .blocked)
        && poller.isTracked runId) := by
  have hforget : ∀ poller : Poller,
      (forget runId poller).isTracked runId = false := by
    intro poller
    show (poller.tracked.filter fun entry => entry.1 != runId).any
      (fun entry => entry.1 == runId) = false
    rw [List.any_filter, List.any_eq_false]
    rintro entry -
    by_cases hentry : entry.1 = runId
    · rw [bne_eq_false_iff_eq.mpr hentry, Bool.false_and]
      exact Bool.false_ne_true
    · rw [beq_false_of_ne hentry, Bool.and_false]
      exact Bool.false_ne_true
  cases status with
  | running | blocked => rfl
  | succeeded | failed => exact hforget poller
  | unknown => exact hforget _

theorem isTracked_enforceBudget {runIsLive : Bool} :
    (enforceBudget answers other runIsLive poller).isTracked runId
      = poller.isTracked runId := by
  unfold enforceBudget
  split
  · rfl
  · split
    · rfl
    · split
      · rfl
      · rw [isTracked, tracked_raiseOverrun.1]
        rfl

/-- A row that is not live is left alone by the budget check. -/
theorem find_enforceBudget_ended {runIsLive : Bool}
    (hfind : poller.table.find runId = some watched)
    (hended : ¬ watched.isLive) :
    (enforceBudget answers runId runIsLive poller).table.find runId
      = some watched := by
  have hrecord : ∀ (reason : String) (poller : Poller),
      poller.table.find runId = some watched →
        (record runId reason poller).table.find runId = some watched :=
    fun reason poller h => (find_record_self h).trans (by rw [if_neg hended])
  unfold enforceBudget
  split
  · exact hfind
  · split
    · exact hfind
    · split
      · exact hfind
      · rw [table_raiseOverrun]
        exact hrecord _ _ (hrecord _ _ hfind)

end Own

/-! ## The pass over the runs without a handle -/

section Reconcile

variable {Candidate : Type*} {answers : PollAnswers Candidate}
  {poller : Poller} {runId other : ℕ} {watched : WatchedRun}

/-- What a row becomes when it is marked lost. -/
def lost (watched : WatchedRun) : WatchedRun :=
  if watched.isLive then watched.lose else watched

theorem lost_lost : lost (lost watched) = lost watched := by
  by_cases hlive : watched.isLive
  · have hstalled : watched.lose.isLive := rfl
    rw [lost, lost, if_pos hlive, if_pos hstalled]
    rfl
  · rw [lost, lost, if_neg hlive, if_neg hlive]

theorem find_markLost :
    (markLost other poller).table.find runId
      = if other = runId then (poller.table.find runId).map lost
        else poller.table.find runId := by
  by_cases hother : other = runId
  · rw [if_pos hother, hother]
    cases hfind : poller.table.find runId with
    | none =>
      show (poller.table.modify _ WatchedRun.lose WatchedRun.key_lose).find
        runId = _
      rw [Table.find_modify, hfind]
      rfl
    | some watched => exact find_markLost_self hfind
  · rw [if_neg hother, find_markLost_other hother]

/-- The pass marks the rows it reports. -/
theorem find_foldl_reconcileOne {rows : List WatchedRun} :
    (rows.foldl reconcileOne poller).table.find runId
      = if ∃ reported ∈ rows, reported.record.run.id = runId ∧
          poller.isUnreported reported = true
        then (poller.table.find runId).map lost
        else poller.table.find runId := by
  have hone : ∀ (poller : Poller) (reported : WatchedRun),
      (poller.reconcileOne reported).table.find runId
        = if reported.record.run.id = runId ∧
            poller.isUnreported reported = true
          then (poller.table.find runId).map lost
          else poller.table.find runId := by
    intro poller reported
    unfold reconcileOne
    by_cases hunreported : poller.isUnreported reported = true
    · rw [if_pos hunreported, find_markLost]
      simp only [hunreported, and_true]
      rfl
    · rw [if_neg hunreported, if_neg fun h => hunreported h.2]
  have hunreported : ∀ (poller : Poller) (first reported : WatchedRun),
      (poller.reconcileOne first).isUnreported reported
        = poller.isUnreported reported := by
    intro poller first reported
    unfold reconcileOne
    split <;> rfl
  induction rows generalizing poller with
  | nil => simp
  | cons reported rows ih =>
    rw [List.foldl_cons, ih]
    simp only [hunreported, hone, List.exists_mem_cons_iff]
    by_cases hrest : ∃ reported ∈ rows, reported.record.run.id = runId ∧
        poller.isUnreported reported = true
    · rw [if_pos hrest, if_pos (Or.inr hrest)]
      split
      · -- marked twice is marked once
        rw [Option.map_map]
        exact congrArg (fun f => (poller.table.find runId).map f)
          (funext fun _ => lost_lost)
      · rfl
    · rw [if_neg hrest]
      by_cases hfirst : reported.record.run.id = runId ∧
          poller.isUnreported reported = true
      · rw [if_pos hfirst, if_pos (Or.inl hfirst)]
      · rw [if_neg hfirst, if_neg (not_or.mpr ⟨hfirst, hrest⟩)]

/-- **A live row after the pass** states what it stated, unless its run has no
handle and the pass got to it. -/
theorem states_reconcileUntracked {reason : String}
    (hreason : ∀ rest, lostHandleReason ≠ reason ++ rest)
    (hfind : poller.table.find runId = some watched) (hlive : watched.isLive) :
    ∃ after, (reconcileUntracked answers poller).table.find runId = some after
      ∧ after.isLive
      ∧ (after.States reason ↔ watched.States reason
        ∧ (poller.isTracked runId
          ∨ ∀ row ∈ poller.liveBatch answers, row.record.run.id ≠ runId)) := by
  obtain ⟨hmem, hkey⟩ := Table.find_eq_some.mp hfind
  have hid : watched.record.run.id = runId := hkey
  -- the only row of the batch that can be the run's
  have hsame : ∀ row ∈ poller.liveBatch answers, row.record.run.id = runId →
      row = watched := by
    intro row hrow hrowId
    have hrowMem : row ∈ poller.table.rows :=
      List.mem_of_mem_filter (Preference.mem_rank.mp (List.mem_of_mem_take hrow))
    exact Table.eq_of_key hrowMem hmem (Eq.trans hrowId hkey.symm)
  have hsilent : ∀ row : WatchedRun,
      row.record.run.attentionReason = some lostHandleReason →
        ¬ row.States reason := by
    rintro row hattention ⟨rest, hrest⟩
    exact hreason rest (Option.some.inj (hattention.symm.trans hrest))
  rw [reconcileUntracked, find_foldl_reconcileOne, hfind]
  by_cases hreported : ∃ reported ∈ poller.liveBatch answers,
      reported.record.run.id = runId ∧ poller.isUnreported reported = true
  · rw [if_pos hreported]
    obtain ⟨reported, hbatch, hreportedId, hunreported⟩ := hreported
    obtain ⟨huntracked, -⟩ := Bool.and_eq_true_iff.mp hunreported
    rw [hreportedId, Bool.not_eq_true'] at huntracked
    refine ⟨watched.lose, ?_, rfl, ?_⟩
    · rw [Option.map_some, lost, if_pos hlive]
    · refine iff_of_false (hsilent _ rfl) ?_
      rintro ⟨-, htracked | hskipped⟩
      · rw [huntracked] at htracked
        exact Bool.false_ne_true htracked
      · exact hskipped reported hbatch hreportedId
  · rw [if_neg hreported]
    refine ⟨watched, rfl, hlive, ?_⟩
    rw [iff_self_and]
    rintro hstates
    by_contra hnot
    obtain ⟨huntracked, hskipped⟩ := not_or.mp hnot
    push Not at hskipped
    obtain ⟨row, hrow, hrowId⟩ := hskipped
    have hrowSame : row = watched := hsame row hrow hrowId
    -- it was reported by an earlier tick, and so it says that
    refine hreported ⟨row, hrow, hrowId, ?_⟩
    have hnotSaying : ¬ row.record.run.saysLost = true := by
      intro hlost
      rw [hrowSame] at hlost
      exact hsilent watched (beq_iff_eq.mp (Bool.and_eq_true_iff.mp hlost).2)
        hstates
    rw [isUnreported, hrowId, Bool.eq_false_of_not_eq_true huntracked,
      Bool.eq_false_of_not_eq_true hnotSaying]
    rfl
end Reconcile

/-! ## The tick -/

section Tick

variable {Candidate : Type*} (validator : RunEventValidator Candidate)
  (answers : PollAnswers Candidate) (poller : Poller) (runId : ℕ)

/-- How many escalations of a run's overrun are outstanding. -/
def outstanding : ℕ :=
  poller.escalations.rows.countP fun escalation =>
    escalation.isAbout (some runId) .budgetExceeded && escalation.isUnresolved

/-- The poller when a tick has cancelled what was overdue. -/
def swept : Poller := enforceDeadlines answers { poller with result := {} }

/-- The poller when a tick has drained its batch. -/
def polled : Poller :=
  (swept answers poller).pollBatch.foldl
    (fun poller runId => pollOne validator answers runId poller)
    (swept answers poller)

/-- A tick ingests events of the run, and what the run has then spent is over
its ceiling. -/
structure Crosses (poll : RunPollResult Candidate) (watched : WatchedRun)
    (reason : String) : Prop where
  /-- The handles are the entries of a `Map`. -/
  distinct : (poller.tracked.map Prod.fst).Nodup
  polls : runId ∈ (swept answers poller).pollBatch
  ingests : ∃ row, (swept answers poller).table.find runId = some row
    ∧ drained validator answers runId row = some (poll, watched)
  exceeds : ∃ cost ceiling overspend stoppable,
    watched.overrun (poll.status == .running)
      = .over cost ceiling overspend stoppable reason

/-- **The overrun reaches a human exactly once**: one escalation of it is
outstanding when the tick has ended and after any further steps, and the row,
if it is live, states it. -/
structure Reaches (reason : String) : Prop where
  escalated : ∀ later : List (Step Candidate),
    (Machine.run (step validator) (tick validator answers poller)
      later).outstanding runId = 1
  stated : ∀ after,
    (tick validator answers poller).table.find runId = some after →
      after.isLive → after.States reason

/-- What keeps the overrun on a live row: this process had not acted on the
run's budget, or the row states it as it is; the poll knows the run; and the
poll does not end with a row that is live still and that the same tick then
finds to have no handle. -/
structure Kept (poll : RunPollResult Candidate) (watched : WatchedRun)
    (reason : String) : Prop where
  fresh : ¬ poller.budgetEnforced.contains runId ∨ watched.States reason
  known : poll.status ≠ .unknown
  held : poll.status = .succeeded ∨ poll.status = .failed →
    ∀ row ∈ (polled validator answers poller).liveBatch answers,
      row.record.run.id ≠ runId

variable {validator answers poller runId} {poll : RunPollResult Candidate}
  {watched : WatchedRun} {reason : String}

theorem budgetEnforced_swept :
    (swept answers poller).budgetEnforced = poller.budgetEnforced :=
  view_enforceDeadlines (fun _ _ _ => rfl) fun _ _ _ => rfl

theorem tracked_swept : (swept answers poller).tracked = poller.tracked :=
  view_enforceDeadlines (fun _ _ _ => rfl) fun _ _ _ => rfl

/-- What the polls of a tick make of the run is what its own poll makes of
it. -/
theorem view_polled (h : Crosses validator answers poller runId poll watched
    reason) :
    ∃ stored : Poller,
      (polled validator answers poller).view runId
          = (heed runId poll.status (enforceBudget answers runId
              (poll.status == .running) stored)).view runId
        ∧ stored.view runId
          = { row := some watched
              tracked := true
              enforced := poller.budgetEnforced.contains runId } := by
  obtain ⟨row, hfind, hdrained⟩ := h.ingests
  have hdistinct : (swept answers poller).pollBatch.Nodup := by
    rw [pollBatch, tracked_swept, List.map_take]
    exact h.distinct.sublist (List.take_sublist _ _)
  have htracked : (swept answers poller).isTracked runId = true := by
    obtain ⟨entry, hentry, hid⟩ := List.mem_map.mp h.polls
    exact List.any_eq_true.mpr
      ⟨entry, List.mem_of_mem_take hentry, beq_iff_eq.mpr hid⟩
  obtain ⟨before, behind, hbatch⟩ := List.append_of_mem h.polls
  rw [hbatch] at hdistinct
  obtain ⟨-, hbehind, hapart⟩ := List.nodup_append'.mp hdistinct
  have hbefore : runId ∉ before :=
    fun hmem => hapart hmem List.mem_cons_self
  have hnot : runId ∉ behind := (List.nodup_cons.mp hbehind).1
  generalize hmiddle : before.foldl
      (fun poller id => pollOne validator answers id poller)
      (swept answers poller) = middle
  have hview : middle.view runId = (swept answers poller).view runId := by
    rw [← hmiddle]
    exact view_polls_other hbefore
  have hmiddleFind : middle.table.find runId = some row :=
    (congrArg View.row hview).trans hfind
  obtain ⟨stored, hpoll, hstored⟩ := pollOne_of_drained hmiddleFind hdrained
  refine ⟨stored, ?_, ?_⟩
  · rw [polled, hbatch, List.foldl_append, List.foldl_cons, hmiddle,
      view_polls_other hnot, hpoll]
  · rw [hstored, show middle.isTracked runId = true from
        (congrArg View.tracked hview).trans htracked,
      show middle.budgetEnforced.contains runId
          = poller.budgetEnforced.contains runId from
        (congrArg View.enforced hview).trans
          (congrArg (·.contains runId) budgetEnforced_swept)]

/-- What heeding a status makes of the row. -/
theorem find_heed_self {status : RunnerRunStatus}
    (hfind : poller.table.find runId = some watched) :
    (heed runId status poller).table.find runId
      = some (if status = .unknown then lost watched else watched) := by
  cases status with
  | unknown => exact find_markLost_self hfind
  | running | blocked | succeeded | failed => exact hfind

/-- The sentence of a lost handle is not one of an overrun. -/
theorem lostHandleReason_ne {runIsLive : Bool} {cost ceiling overspend : ℚ}
    {stoppable : Bool} (hover : watched.overrun runIsLive
      = .over cost ceiling overspend stoppable reason) (rest : String) :
    lostHandleReason ≠ reason ++ rest := by
  intro hsame
  unfold WatchedRun.overrun decideBudgetOverrun at hover
  dsimp only at hover
  split at hover
  · split at hover
    · cases hover
    · injection hover with _ _ _ _ hreason
      -- one begins with a T and the other with an R
      have hreported : ∀ text : String,
          ("Reported " ++ text).toList.head? = some 'R' := by
        intro text
        rw [String.toList_append]
        rfl
      have hhandle : lostHandleReason.toList.head? = some 'T' := by
        decide +kernel
      rw [hsame, ← hreason] at hhandle
      simp only [String.append_assoc] at hhandle
      rw [hreported] at hhandle
      exact absurd hhandle (by decide)
  · cases hover

/-- A row that has ended is not live when the tick has ended. -/
theorem find_tick_ended (h : Crosses validator answers poller runId poll watched
    reason) (hended : ¬ watched.isLive) :
    (tick validator answers poller).table.find runId = some watched := by
  obtain ⟨stored, hview, hstored⟩ := view_polled h
  have hlost : lost watched = watched := if_neg hended
  have hbudget : (enforceBudget answers runId (poll.status == .running)
      stored).table.find runId = some watched :=
    find_enforceBudget_ended (congrArg View.row hstored) hended
  have hpolled : (polled validator answers poller).table.find runId
      = some watched := by
    refine (congrArg View.row hview).trans ((find_heed_self hbudget).trans ?_)
    rw [hlost, ite_self]
  show (reconcileUntracked answers (polled validator answers poller)).table.find
    runId = _
  rw [reconcileUntracked, find_foldl_reconcileOne, hpolled, Option.map_some,
    hlost, ite_self]

/-- **A live row when the tick has ended** states the overrun exactly if it
is kept. -/
theorem states_tick (h : Crosses validator answers poller runId poll watched
    reason) (hlive : watched.isLive) :
    ∃ after, (tick validator answers poller).table.find runId = some after
      ∧ after.isLive
      ∧ (after.States reason
        ↔ Kept validator answers poller runId poll watched reason) := by
  obtain ⟨stored, hview, hstored⟩ := view_polled h
  obtain ⟨cost, ceiling, overspend, stoppable, hover⟩ := h.exceeds
  have hreason := lostHandleReason_ne hover
  have hrowStored : stored.table.find runId = some watched :=
    congrArg View.row hstored
  obtain ⟨checked, hchecked, hcheckedLive, hstates⟩ :=
    @find_enforceBudget_self _ answers _ _ _ _ _ _ _ _ _ hrowStored hlive hover
  rw [show stored.budgetEnforced.contains runId
      = poller.budgetEnforced.contains runId from
    congrArg View.enforced hstored] at hstates
  have hfind := (congrArg View.row hview).trans (find_heed_self hchecked)
  have hheld : (polled validator answers poller).isTracked runId
      = (poll.status == .running || poll.status == .blocked) := by
    refine (congrArg View.tracked hview).trans ?_
    show (heed runId poll.status _).isTracked runId = _
    rw [isTracked_heed_self, isTracked_enforceBudget,
      show stored.isTracked runId = true from congrArg View.tracked hstored,
      Bool.and_true]
  generalize hrow : (if poll.status = .unknown then lost checked else checked)
    = row at hfind
  have hrowLive : row.isLive := by
    rw [← hrow]
    split
    · rw [lost, if_pos hcheckedLive]
      rfl
    · exact hcheckedLive
  have hrowStates : row.States reason
      ↔ poll.status ≠ .unknown ∧ checked.States reason := by
    rw [← hrow]
    by_cases hunknown : poll.status = .unknown
    · rw [if_pos hunknown, lost, if_pos hcheckedLive]
      refine iff_of_false ?_ fun h => h.1 hunknown
      rintro ⟨rest, hrest⟩
      exact hreason rest (Option.some.inj hrest)
    · rw [if_neg hunknown]
      exact (and_iff_right hunknown).symm
  obtain ⟨after, hafter, hafterLive, hafterStates⟩ :=
    @states_reconcileUntracked _ answers _ _ _ _ hreason hfind hrowLive
  refine ⟨after, hafter, hafterLive, ?_⟩
  rw [hafterStates, hrowStates, hstates, hheld]
  constructor
  · rintro ⟨⟨hknown, hfresh⟩, hhandle⟩
    refine ⟨hfresh, hknown, fun hended => hhandle.resolve_left ?_⟩
    rcases hended with hended | hended <;> rw [hended] <;> decide
  · rintro ⟨hfresh, hknown, hskipped⟩
    refine ⟨⟨hknown, hfresh⟩, ?_⟩
    cases hstatus : poll.status with
    | running | blocked => exact Or.inl rfl
    | succeeded => exact Or.inr (hskipped (Or.inl hstatus))
    | failed => exact Or.inr (hskipped (Or.inr hstatus))
    | unknown => exact absurd hstatus hknown

/-- **An overrun reaches a human exactly once** if and only if one escalation
of it was outstanding before the tick, which no poll has raised, and the
overrun is kept on the row, unless that has ended. -/
theorem reaches_iff (h : Crosses validator answers poller runId poll watched
    reason) :
    Reaches validator answers poller runId reason
      ↔ poller.outstanding runId = 1 ∧ (watched.isLive →
        Kept validator answers poller runId poll watched reason) := by
  have hescalations : ∀ later : List (Step Candidate),
      (Machine.run (step validator) (tick validator answers poller)
          later).escalations = poller.escalations := by
    intro later
    rw [escalations_run, tick_eq_run, escalations_run]
  have houtstanding : ∀ later : List (Step Candidate),
      (Machine.run (step validator) (tick validator answers poller)
          later).outstanding runId = poller.outstanding runId := by
    intro later
    rw [outstanding, hescalations, outstanding]
  constructor
  · rintro ⟨hescalated, hstated⟩
    refine ⟨(houtstanding []).symm.trans (hescalated []), fun hlive => ?_⟩
    obtain ⟨after, hafter, hafterLive, hstates⟩ := states_tick h hlive
    exact hstates.mp (hstated after hafter hafterLive)
  · rintro ⟨hone, hkept⟩
    refine ⟨fun later => (houtstanding later).trans hone, ?_⟩
    intro after hafter hafterLive
    by_cases hlive : watched.isLive
    · obtain ⟨found, hfound, -, hstates⟩ := states_tick h hlive
      rw [hfound] at hafter
      obtain rfl := Option.some.inj hafter
      exact hstates.mpr (hkept hlive)
    · rw [find_tick_ended h hlive] at hafter
      obtain rfl := Option.some.inj hafter
      exact absurd hafterLive hlive

end Tick

/-! ## An overrun nobody is told of -/

/-- A run with half a dollar to spend. -/
def funded : WatchedRun where
  record := ⟨freshRun, []⟩
  workOrderIdentity := "wo_app_7_a3f91c2_a1"
  repository := "acme/app"
  issueNumber := 7
  budgetCeilingUsd := some ⟨5000⟩

/-- It reports three quarters of a dollar. -/
def costly : RunEventPayload :=
  { eventOf "e3" .heartbeat 3000 with
    cost := some ⟨some (3 / 4), none, none⟩ }

/-- What a poll of it says. -/
def costlyPoll : RunPollResult RunEventPayload where
  status := .running
  events := [costly]

/-- A process that holds its handle. -/
def watching : Poller where
  table :=
    { rows := [funded]
      next := 2
      nodup := by simp
      bounded := by
        intro watched hwatched
        rw [List.mem_singleton.mp hwatched]
        decide }
  tracked :=
    [(1, ⟨⟨"claude-code-local", RunnerKey.keyShape_claudeCodeLocal⟩, "e", "wo_app_7_a3f91c2_a1"⟩)]
  deadlineEnforced := []
  budgetEnforced := []

/-- A tick in which a poll reports a cost beyond the ceiling. -/
def reportsCost : PollAnswers RunEventPayload :=
  { quiet with poll := fun _ => .ok costlyPoll }

theorem crosses_watching :
    Crosses passing reportsCost watching 1 costlyPoll
      (funded.delivered [costly])
      "Reported $0.75 against a budget ceiling of $0.50 — $0.25 over." where
  distinct := by decide
  polls := by decide
  ingests := ⟨funded, by decide, rfl⟩
  exceeds := ⟨3 / 4, 1 / 2, 1 / 4, true, by decide +kernel⟩

/-- An ordinary overrun, found by the process that submitted the run. -/
theorem not_reaches_watching :
    ¬ Reaches passing reportsCost watching 1
      "Reported $0.75 against a budget ceiling of $0.50 — $0.25 over." := by
  intro h
  obtain ⟨hone, -⟩ := (reaches_iff crosses_watching).mp h
  exact absurd hone (by decide)

/-- **An overrun that nobody is told of**: the row states it, and there is no
escalation. -/
theorem overrun_not_escalated :
    ¬ ∀ (validator : RunEventValidator RunEventPayload)
      (answers : PollAnswers RunEventPayload) (poller : Poller) (runId : ℕ)
      (poll : RunPollResult RunEventPayload) (watched : WatchedRun)
      (reason : String),
        Crosses validator answers poller runId poll watched reason →
          Reaches validator answers poller runId reason := by
  intro h
  have hone := (h _ _ _ _ _ _ _ crosses_watching).escalated []
  exact absurd hone (by decide +kernel)

end Poller

end Opifex
