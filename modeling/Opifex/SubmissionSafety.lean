import Opifex.DispatchSelection
import Opifex.RunExecutor
import Opifex.WorkOrderRoundTrip

/-!
# What a throw leaves behind

A dispatch and a resume both submit in the middle: some phases that can throw
come before the submission is accepted and some after it, and one recovery
serves both. It is right for the first kind and wrong for the second. A
process that is running behind a run marked failed is not polled for, and the
work order of a dispatch stays in the queue.

Both operations are executed symbolically from the phase that follows
admission, once per phase that can throw.
-/

namespace Opifex

/-- **A handed-over process is looked after**: its run is not marked failed,
the poller tracks it, and its work order is not left for the next drain. -/
structure LookedAfter (world : World) (runId workOrderId : ℕ) : Prop where
  notFailed :
    ∀ run, world.db.runs.find runId = some run → run.status ≠ .failed
  tracked : runId ∈ world.tracked
  notQueued :
    ∀ row, world.db.workOrders.find workOrderId = some row →
      row.status ≠ .queued

/-- A guarded update of a run that has the status it asks for. -/
theorem find_updateRun {world : World} {runId : ℕ} {run : RunRow}
    {status : RunStatus} (hfind : world.db.runs.find runId = some run)
    (hstatus : run.status = status) (f : RunRow → RunRow)
    (hf : ∀ r, (f r).id = r.id) :
    (world.updateRun runId status f hf).db.runs.find runId =
      some (f run) := by
  have hid : run.id = runId := (Table.find_eq_some.mp hfind).2
  rw [World.find_updateRun, hfind]
  simp [hid, hstatus]

/-- A run that is running and is failed is failed. -/
theorem find_failRun {world : World} {runId : ℕ} {run : RunRow}
    (hfind : world.db.runs.find runId = some run)
    (hrunning : run.status = .running) (now : Instant) (message : String) :
    (world.failRun runId now message).db.runs.find runId =
      some (run.fail now message) :=
  find_updateRun hfind hrunning _ _

/-! ## Dispatching -/

section Dispatch

variable {env : ExecutorEnv} {answers : Answers}
  {input : DispatchWorkOrderInput} {world : World}

/-- A dispatch that is done stays done. -/
theorem dispatchNext_done (result : ExecutionResult) (world : World) (n : ℕ) :
    (dispatchNext env answers input)^[n] (.done result, world) =
      (.done result, world) :=
  Function.iterate_fixed rfl n

/-- **Admission**: two phases that read, and either end the call or go on to
create the run. -/
theorem dispatchNext_admission (env : ExecutorEnv) (answers : Answers)
    (input : DispatchWorkOrderInput) (world : World) :
    if env.admits world.db input.workOrder then
      ∃ decision runnerKey,
        (dispatchNext env answers input)^[2] (.decide, world) =
          (.create decision runnerKey, world)
    else
      ∃ result,
        (dispatchNext env answers input)^[2] (.decide, world) =
          (.done result, world) := by
  simp only [Function.iterate_succ_apply, Function.iterate_zero, id_eq,
    dispatchNext, dispatchStep, ExecutorEnv.admits]
  cases houtcome : (env.decide world.db input.workOrder).outcome with
  | queued => simp
  | dispatch =>
    cases hkey : (env.decide world.db input.workOrder).runnerKey with
    | none => simp
    | some runnerKey =>
      by_cases hrunner : env.runnerFor runnerKey = true
      · cases hspend : env.admitSpend world.db input.workOrder with
        | refuse refusal reason =>
          simp [hrunner, hspend, SpendVerdict.admits]
        | admitted headroom reason =>
          cases env.dispatchEnabled <;>
            simp [hrunner, hspend, SpendVerdict.admits]
      · simp [hrunner]

/-- **Execution**, written as the program it is: create, write, submit, track,
update, and the recovery of whichever threw. -/
theorem dispatchNext_execution (decision : DispatchDecision)
    (runnerKey : RunnerKey) :
    (dispatchNext env answers input)^[6] (.create decision runnerKey, world) =
      let runId := world.db.runs.next
      let created := world.createRun env input.workOrderId runnerKey decision
      let accepted :=
        created.accept input.workOrderId (toSpec input.workOrder runId)
      let failed (world : World) (message : String) :
          DispatchPhase × World :=
        (.done (.failed runId message), world.failRun runId env.now message)
      match answers.write with
      | .error message => failed created message
      | .ok _ =>
        match answers.submit with
        | .error (.atCapacity message) =>
          (.done (.queued (some .capableRunnersAreAtCapacity) message),
            created.deleteRun runId)
        | .error (.error message) => failed created message
        | .ok _ =>
          match answers.track with
          | .error message => failed accepted message
          | .ok _ =>
            match answers.update with
            | .error message => failed (accepted.track runId) message
            | .ok _ =>
              (.done (.dispatched runId runnerKey
                ("Dispatched " ++ input.workOrder.identity ++ " to " ++
                  runnerKey.val ++ " as run " ++ toString runId)),
                (accepted.track runId).setStatus input.workOrderId
                  .dispatched) := by
  simp only [Function.iterate_succ_apply, Function.iterate_zero, id_eq,
    dispatchNext, dispatchStep]
  cases answers.write with
  | error message => rfl
  | ok _ =>
    cases answers.submit with
    | error failure => cases failure <;> rfl
    | ok handle =>
      cases answers.track with
      | error message => rfl
      | ok _ => cases answers.update <;> rfl

/-- A dispatch that is not admitted changes nothing. -/
theorem dispatchWorkOrder_refused
    (h : env.admits world.db input.workOrder = false) :
    ∃ result, dispatchWorkOrder env answers input world =
      (.done result, world) := by
  have hadmission := dispatchNext_admission env answers input world
  rw [h, if_neg Bool.false_ne_true] at hadmission
  obtain ⟨result, hdone⟩ := hadmission
  refine ⟨result, ?_⟩
  unfold dispatchWorkOrder
  rw [Function.iterate_add_apply _ 6 2, hdone, dispatchNext_done]

/-- A dispatch that is admitted is executed. -/
theorem dispatchWorkOrder_admitted
    (h : env.admits world.db input.workOrder = true) :
    ∃ decision runnerKey, dispatchWorkOrder env answers input world =
      (dispatchNext env answers input)^[6]
        (.create decision runnerKey, world) := by
  have hadmission := dispatchNext_admission env answers input world
  rw [h, if_pos rfl] at hadmission
  obtain ⟨decision, runnerKey, hcreate⟩ := hadmission
  refine ⟨decision, runnerKey, ?_⟩
  unfold dispatchWorkOrder
  rw [Function.iterate_add_apply _ 6 2, hcreate]

/-- **What is asked of a dispatch**, comparing the world before it with
what it returned and left. -/
structure DispatchSafe (before : World) (workOrderId : ℕ)
    (after : DispatchPhase × World) : Prop where
  done : ∃ result, after.1 = .done result
  submitted :
    after.2.submissions ≠ before.submissions →
      LookedAfter after.2 before.db.runs.next workOrderId
  unsubmitted :
    after.2.submissions = before.submissions →
      ∀ run, after.2.db.runs.find before.db.runs.next = some run →
        run.status.isLive = false
  requeued :
    after.2.submissions = before.submissions →
      ∀ queueReason reason, after.1 = .done (.queued queueReason reason) →
        Db.SameRows before.db after.2.db

/-- A dispatch that never submitted leaves no live run when it fails. -/
theorem dispatchSafe_failed (decision : DispatchDecision)
    (runnerKey : RunnerKey) (workOrderId : ℕ) (message : String) :
    DispatchSafe world workOrderId
      (.done (.failed world.db.runs.next message),
        (world.createRun env workOrderId runnerKey decision).failRun
          world.db.runs.next env.now message) where
  done := ⟨_, rfl⟩
  submitted h := absurd rfl h
  unsubmitted _ run hrun := by
    rw [find_failRun (World.find_createRun ..) rfl] at hrun
    cases hrun
    rfl
  requeued _ queueReason reason h := by cases h

/-- A dispatch its runner had no room for leaves the tables as they were. -/
theorem dispatchSafe_atCapacity (decision : DispatchDecision)
    (runnerKey : RunnerKey) (workOrderId : ℕ) (message : String) :
    DispatchSafe world workOrderId
      (.done (.queued (some .capableRunnersAreAtCapacity) message),
        (world.createRun env workOrderId runnerKey decision).deleteRun
          world.db.runs.next) where
  done := ⟨_, rfl⟩
  submitted h := absurd rfl h
  unsubmitted _ run hrun := by
    rw [World.find_deleteRun] at hrun
    cases hrun
  requeued _ queueReason reason _ :=
    ⟨rfl, rfl, (Table.rows_delete_insert
      (runData_key env workOrderId runnerKey decision)).symm⟩

/-- A dispatch that ends as one is looked after. -/
theorem dispatchSafe_dispatched (decision : DispatchDecision)
    (runnerKey : RunnerKey) (workOrderId : ℕ) (spec : WorkOrderSpec)
    (reason : String) :
    DispatchSafe world workOrderId
      (.done (.dispatched world.db.runs.next runnerKey reason),
        (((world.createRun env workOrderId runnerKey decision).accept
          workOrderId spec).track world.db.runs.next).setStatus workOrderId
            .dispatched) where
  done := ⟨_, rfl⟩
  submitted _ :=
    { notFailed := fun run hrun => by
        have hcreated := World.find_createRun world env workOrderId runnerKey
          decision
        rw [show run = _ from Option.some.inj (hrun.symm.trans hcreated)]
        exact (by decide : RunStatus.running ≠ .failed)
      tracked := List.mem_append_right _ (List.mem_singleton_self _)
      notQueued := fun row hrow => by
        rw [World.find_setStatus, Option.map_eq_some_iff] at hrow
        obtain ⟨old, hold, rfl⟩ := hrow
        have hid : old.id = workOrderId := (Table.find_eq_some.mp hold).2
        simp [hid] }
  unsubmitted h := absurd h (by simp [World.setStatus, World.track,
    World.accept, World.createRun])
  requeued _ queueReason reason h := by cases h

/-- **The recovery of a dispatch fails a run that was handed over.** -/
theorem not_dispatchSafe_failed (decision : DispatchDecision)
    (runnerKey : RunnerKey) {workOrderId : ℕ} (after : World)
    (hruns : after.db.runs =
      (world.createRun env workOrderId runnerKey decision).db.runs)
    (hsubmitted : after.submissions ≠ world.submissions)
    (phase : DispatchPhase) (message : String) :
    ¬ DispatchSafe world workOrderId
      (phase, after.failRun world.db.runs.next env.now message) := by
  intro h
  have hfind : after.db.runs.find world.db.runs.next =
      some (runData env workOrderId runnerKey decision
        world.db.runs.next) := by
    rw [hruns]
    exact World.find_createRun world env workOrderId runnerKey decision
  exact (h.submitted hsubmitted).notFailed _
    (find_failRun hfind rfl env.now message) rfl

/-- **Exactly when a dispatch is safe**: the order is not admitted, or not
submitted, or no phase after the submission throws. -/
theorem dispatchSafe_iff :
    DispatchSafe world input.workOrderId
        (dispatchWorkOrder env answers input world) ↔
      (env.admits world.db input.workOrder → answers.write.isOk →
        answers.submit.isOk → answers.track.isOk ∧ answers.update.isOk) := by
  cases hadmits : env.admits world.db input.workOrder with
  | false =>
    obtain ⟨result, hdone⟩ := dispatchWorkOrder_refused hadmits
    rw [hdone]
    refine ⟨fun _ h => absurd h Bool.false_ne_true, fun _ => ?_⟩
    exact
      { done := ⟨result, rfl⟩
        submitted := fun h => absurd rfl h
        unsubmitted := fun _ run hrun => by
          rw [Table.find_next] at hrun
          cases hrun
        requeued := fun _ _ _ _ => ⟨rfl, rfl, rfl⟩ }
  | true =>
    obtain ⟨decision, runnerKey, hcreate⟩ :=
      dispatchWorkOrder_admitted hadmits
    rw [hcreate, dispatchNext_execution]
    have hgrown : ∀ spec : WorkOrderSpec,
        world.submissions ++ [⟨input.workOrderId, spec⟩] ≠
          world.submissions := by simp
    cases answers.write with
    | error message =>
      simpa [Except.isOk, Except.toBool] using
        dispatchSafe_failed decision runnerKey input.workOrderId message
    | ok _ =>
      cases answers.submit with
      | error failure =>
        cases failure with
        | atCapacity message =>
          simpa [Except.isOk, Except.toBool] using
            dispatchSafe_atCapacity decision runnerKey input.workOrderId
              message
        | error message =>
          simpa [Except.isOk, Except.toBool] using
            dispatchSafe_failed decision runnerKey input.workOrderId message
      | ok handle =>
        cases answers.track with
        | error message =>
          simpa [Except.isOk, Except.toBool] using
            not_dispatchSafe_failed decision runnerKey
              ((world.createRun env input.workOrderId runnerKey
                decision).accept input.workOrderId
                  (toSpec input.workOrder world.db.runs.next))
              rfl (hgrown _) _ message
        | ok _ =>
          cases answers.update with
          | error message =>
            simpa [Except.isOk, Except.toBool] using
              not_dispatchSafe_failed decision runnerKey
                (((world.createRun env input.workOrderId runnerKey
                  decision).accept input.workOrderId
                    (toSpec input.workOrder world.db.runs.next)).track
                      world.db.runs.next)
                rfl (hgrown _) _ message
          | ok _ =>
            simpa [Except.isOk, Except.toBool] using
              dispatchSafe_dispatched decision runnerKey input.workOrderId
                _ _

end Dispatch

/-! ## Resuming -/

section Resume

variable {env : ExecutorEnv} {answers : Answers} {runId : ℕ} {world : World}
  {parked : ParkedRun}

/-- A resume that is done stays done. -/
theorem resumeNext_done (result : ResumeResult) (world : World) (n : ℕ) :
    (resumeNext env answers runId)^[n] (.done result, world) =
      (.done result, world) :=
  Function.iterate_fixed rfl n

/-- Rows that no gate refuses: a parked run of a dispatched work order. -/
theorem parkedRefusal_eq_none {run : RunRow} {row : WorkOrderRow}
    {repository : RepositoryRow}
    (h : parkedRefusal run row repository = none) :
    run.status = .blocked ∧ row.status = .dispatched := by
  unfold parkedRefusal at h
  split_ifs at h with hrun hrow
  exact ⟨not_not.mp hrun, not_not.mp hrow⟩

/-- No gate on the rows refuses for the runner's capacity. -/
theorem parkedRefusal_ne_atCapacity {run : RunRow} {row : WorkOrderRow}
    {repository : RepositoryRow} {refusal : ResumeRefusal} {reason : String}
    (h : parkedRefusal run row repository = some (refusal, reason)) :
    refusal ≠ .runnerAtCapacity := by
  unfold parkedRefusal at h
  rintro rfl
  split_ifs at h <;> simp at h

/-- **What the gates have checked** of a run they let through: it is parked,
and its work order is dispatched. -/
theorem resumeGate_eq_ok {db : Db} (h : resumeGate env db runId = .ok parked) :
    db.runs.find runId = some parked.run ∧ parked.run.status = .blocked ∧
      db.workOrders.find parked.run.workOrderId = some parked.row ∧
      parked.row.status = .dispatched := by
  unfold resumeGate at h
  split at h
  · cases h
  split at h
  · cases h
  next run row repository hfind =>
    simp only [Db.findParked, Option.bind_eq_bind, Option.bind_eq_some_iff,
      Option.pure_def, Option.some.injEq, Prod.mk.injEq] at hfind
    obtain ⟨run', hrun, row', hrow, repository', -, rfl, rfl, rfl⟩ := hfind
    split at h
    · cases h
    next hnone =>
      obtain ⟨hblocked, hdispatched⟩ := parkedRefusal_eq_none hnone
      unfold rebuildParked at h
      split at h
      · cases h
      · cases h
      · split at h
        · cases h
          exact ⟨hrun, hblocked, hrow, hdispatched⟩
        · cases h

/-- The answers that only the recovery of a resume gives. -/
def ResumeResult.recovered : ResumeResult → Bool
  | .failed _ _ => true
  | .refused .runnerAtCapacity _ => true
  | _ => false

/-- A gate ends a resume with an answer the recovery never gives. -/
theorem resumeGate_eq_error {db : Db} {result : ResumeResult}
    (h : resumeGate env db runId = .error result) :
    result.recovered = false := by
  unfold resumeGate at h
  split at h
  · cases h
    rfl
  split at h
  · cases h
    rfl
  next run row repository hfind =>
    split at h
    next refusal reason hrefusal =>
      cases h
      have hne := parkedRefusal_ne_atCapacity hrefusal
      cases refusal <;> first | rfl | exact absurd rfl hne
    · unfold rebuildParked at h
      split at h
      · cases h
        rfl
      · cases h
        rfl
      · split at h
        · cases h
        · cases h
          rfl

/-- **Admission of a resume**: two phases that read, and either end the call or
go on to claim the run. -/
theorem resumeNext_admission (env : ExecutorEnv) (answers : Answers)
    (runId : ℕ) (world : World) :
    if env.admitsResume world.db runId then
      ∃ parked, resumeGate env world.db runId = .ok parked ∧
        (resumeNext env answers runId)^[2] (.gate, world) =
          (.claim parked, world)
    else
      ∃ result, result.recovered = false ∧
        (resumeNext env answers runId)^[2] (.gate, world) =
          (.done result, world) := by
  rw [Function.iterate_succ_apply, Function.iterate_one]
  cases hgate : resumeGate env world.db runId with
  | error result =>
    have hfirst : resumeNext env answers runId (.gate, world) =
        (.done result, world) := by
      simp [resumeNext, resumeStep, hgate]
    simp only [ExecutorEnv.admitsResume, hgate]
    rw [hfirst]
    exact ⟨result, resumeGate_eq_error hgate, rfl⟩
  | ok parked =>
    have hfirst : resumeNext env answers runId (.gate, world) =
        (.admission parked, world) := by
      simp [resumeNext, resumeStep, hgate]
    simp only [ExecutorEnv.admitsResume, hgate]
    rw [hfirst]
    cases hspend : env.admitSpend world.db parked.workOrder with
    | refuse refusal reason =>
      simp [resumeNext, resumeStep, hspend, SpendVerdict.admits,
        ResumeResult.recovered]
    | admitted headroom reason =>
      cases henabled : env.dispatchEnabled <;>
        simp [resumeNext, resumeStep, hspend, henabled, SpendVerdict.admits,
          ResumeResult.recovered]

/-- **Execution of a resume**, written as the program it is: claim, submit,
close the parked attempt, open the next, track, and the recovery of whichever
threw. -/
theorem resumeNext_execution (h : world.parked runId) :
    (resumeNext env answers runId)^[6] (.claim parked, world) =
      let claimed :=
        world.updateRun runId .blocked (RunRow.claim parked.attempt)
          fun _ => rfl
      let accepted :=
        claimed.accept parked.row.id (toSpec parked.workOrder runId)
      let closed :=
        accepted.modifyRun runId
          (RunRow.closeAttempts env.now parked.run.lastBlock) fun _ => rfl
      let failed (world : World) (message : String) : ResumePhase × World :=
        (.done (.failed runId message), world.failRun runId env.now message)
      match answers.submit with
      | .error (.atCapacity message) =>
        (.done (.refused .runnerAtCapacity message),
          claimed.updateRun runId .running
            (RunRow.park parked.run.attemptCount) fun _ => rfl)
      | .error (.error message) => failed claimed message
      | .ok handle =>
        match answers.closeAttempts with
        | .error message => failed accepted message
        | .ok _ =>
          match answers.openAttempt with
          | .error message => failed closed message
          | .ok _ =>
            let opened :=
              closed.modifyRun runId
                (RunRow.openAttempt env.now parked.attempt handle.externalId)
                fun _ => rfl
            match answers.track with
            | .error message => failed opened message
            | .ok _ =>
              (.done (.resumed runId parked.run.runnerKey parked.attempt
                ("Resumed " ++ parked.row.identity ++ " on " ++
                  parked.run.runnerKey.val ++ " as attempt " ++
                  toString parked.attempt ++ "; it was parked on '" ++
                  blockedOn parked.run.lastBlock ++ "' since " ++
                  (parked.run.lastBlock.map (·.occurredAt.toISOString)).getD
                    "an unrecorded time")),
                opened.track runId) := by
  simp only [Function.iterate_succ_apply, Function.iterate_zero, id_eq,
    resumeNext, resumeStep, h, if_true]
  cases answers.submit with
  | error failure => cases failure <;> rfl
  | ok handle =>
    cases answers.closeAttempts with
    | error message => rfl
    | ok _ =>
      cases answers.openAttempt with
      | error message => rfl
      | ok _ => cases answers.track <;> rfl

/-- The tables are as they were, up to the planned resume of one run. -/
def SameButResume (before after : Db) (runId : ℕ) : Prop :=
  after.repositories.rows = before.repositories.rows ∧
    after.workOrders.rows = before.workOrders.rows ∧
    after.runs.rows = before.runs.rows.map fun run =>
      if run.id = runId then { run with resumesAt := none } else run

/-- **What is asked of a resume.** A call that ends in the recovery leaves no
running run behind when nothing was submitted, and one that fails no live run. -/
structure ResumeSafe (before : World) (runId : ℕ)
    (after : ResumePhase × World) : Prop where
  done : ∃ result, after.1 = .done result
  submitted :
    after.2.submissions ≠ before.submissions →
      ∀ run, before.db.runs.find runId = some run →
        LookedAfter after.2 runId run.workOrderId
  unsubmitted :
    after.2.submissions = before.submissions →
      ∀ result, after.1 = .done result → result.recovered →
        ∀ run, after.2.db.runs.find runId = some run →
          run.status ≠ .running
  failed :
    after.2.submissions = before.submissions →
      ∀ message, after.1 = .done (.failed runId message) →
        ∀ run, after.2.db.runs.find runId = some run →
          run.status.isLive = false
  atCapacity :
    after.2.submissions = before.submissions →
      ∀ reason, after.1 = .done (.refused .runnerAtCapacity reason) →
        SameButResume before.db after.2.db runId

/-- The claim of a parked run is seen in its row. -/
theorem find_claimed {run : RunRow}
    (hfind : world.db.runs.find runId = some run)
    (hblocked : run.status = .blocked) (attempt : ℕ) :
    (world.updateRun runId .blocked (RunRow.claim attempt)
      fun _ => rfl).db.runs.find runId = some (run.claim attempt) :=
  find_updateRun hfind hblocked _ _

/-- A resume that never submitted leaves no running run when it fails. -/
theorem resumeSafe_failed {run : RunRow}
    (hfind : world.db.runs.find runId = some run)
    (hblocked : run.status = .blocked) (attempt : ℕ) (message : String) :
    ResumeSafe world runId
      (.done (.failed runId message),
        (world.updateRun runId .blocked (RunRow.claim attempt)
          fun _ => rfl).failRun runId env.now message) where
  done := ⟨_, rfl⟩
  submitted h := absurd rfl h
  unsubmitted _ result _ _ row hrow := by
    rw [find_failRun (find_claimed hfind hblocked attempt) rfl] at hrow
    cases hrow
    exact (by decide : RunStatus.failed ≠ .running)
  failed _ message' _ row hrow := by
    rw [find_failRun (find_claimed hfind hblocked attempt) rfl] at hrow
    cases hrow
    rfl
  atCapacity _ reason h := by cases h

/-- A resume its runner had no room for is parked again, with nothing changed
but its planned resume. -/
theorem resumeSafe_atCapacity {run : RunRow}
    (hfind : world.db.runs.find runId = some run)
    (hblocked : run.status = .blocked) (attempt : ℕ) (message : String) :
    ResumeSafe world runId
      (.done (.refused .runnerAtCapacity message),
        (world.updateRun runId .blocked (RunRow.claim attempt)
          fun _ => rfl).updateRun runId .running
            (RunRow.park run.attemptCount) fun _ => rfl) where
  done := ⟨_, rfl⟩
  submitted h := absurd rfl h
  unsubmitted _ result _ _ row hrow := by
    have hparked := find_updateRun (find_claimed hfind hblocked attempt)
      (rfl : (run.claim attempt).status = .running)
      (RunRow.park run.attemptCount) fun _ => rfl
    rw [show row = _ from Option.some.inj (hrow.symm.trans hparked)]
    exact (by decide : RunStatus.blocked ≠ .running)
  failed _ message' h := by cases h
  atCapacity _ reason _ := by
    refine ⟨rfl, rfl, ?_⟩
    show (world.db.runs.rows.map _).map _ = world.db.runs.rows.map _
    rw [List.map_map]
    refine List.map_congr_left fun row hrow => ?_
    by_cases hid : row.id = runId
    · have hsame : row = run := Table.eq_of_key hrow
        (Table.find_eq_some.mp hfind).1
        (hid.trans (Table.find_eq_some.mp hfind).2.symm)
      subst hsame
      simp [hid, hblocked, RunRow.claim, RunRow.park]
    · simp [hid]

/-- **The recovery of a resume fails a run that was handed over.** -/
theorem not_resumeSafe_failed {run claimed : RunRow} (after : World)
    (hfind : world.db.runs.find runId = some run)
    (hclaimed : after.db.runs.find runId = some claimed)
    (hrunning : claimed.status = .running)
    (hsubmitted : after.submissions ≠ world.submissions)
    (phase : ResumePhase) (message : String) :
    ¬ ResumeSafe world runId (phase, after.failRun runId env.now message) := by
  intro h
  exact (h.submitted hsubmitted run hfind).notFailed _
    (find_failRun hclaimed hrunning env.now message) rfl

/-- An update of a run, whatever its status, is seen in its row. -/
theorem find_modifyRun {run : RunRow}
    (hfind : world.db.runs.find runId = some run) (f : RunRow → RunRow)
    (hf : ∀ r, (f r).id = r.id) :
    (world.modifyRun runId f hf).db.runs.find runId = some (f run) := by
  have hid : run.id = runId := (Table.find_eq_some.mp hfind).2
  rw [World.find_modifyRun, hfind]
  simp [hid]

/-- **Exactly when a resume is safe**: the run is not admitted, or not
submitted, or no phase after the submission throws. -/
theorem resumeSafe_iff :
    ResumeSafe world runId (resumeParkedRun env answers runId world) ↔
      (env.admitsResume world.db runId → answers.submit.isOk →
        answers.closeAttempts.isOk ∧ answers.openAttempt.isOk ∧
          answers.track.isOk) := by
  have hphases : resumeParkedRun env answers runId world =
      (resumeNext env answers runId)^[6]
        ((resumeNext env answers runId)^[2] (.gate, world)) :=
    Function.iterate_add_apply _ 6 2 _
  have hadmission := resumeNext_admission env answers runId world
  rw [hphases]
  cases hadmits : env.admitsResume world.db runId with
  | false =>
    rw [hadmits, if_neg Bool.false_ne_true] at hadmission
    obtain ⟨result, hgate, hdone⟩ := hadmission
    rw [hdone, resumeNext_done]
    refine ⟨fun _ h => absurd h Bool.false_ne_true, fun _ => ?_⟩
    exact
      { done := ⟨result, rfl⟩
        submitted := fun h => absurd rfl h
        unsubmitted := fun _ other hother hrecovered => by
          cases hother
          rw [hgate] at hrecovered
          exact absurd hrecovered Bool.false_ne_true
        failed := fun _ message hother => by
          cases hother
          cases hgate
        atCapacity := fun _ reason hother => by
          cases hother
          cases hgate }
  | true =>
    rw [hadmits, if_pos rfl] at hadmission
    obtain ⟨parked, hgate, hclaim⟩ := hadmission
    obtain ⟨hfind, hblocked, hrow, hdispatched⟩ := resumeGate_eq_ok hgate
    have hparked : world.parked runId := by
      obtain ⟨hmem, hid⟩ := Table.find_eq_some.mp hfind
      exact List.any_eq_true.mpr ⟨parked.run, hmem,
        by simp [show parked.run.id = runId from hid, hblocked]⟩
    rw [hclaim, resumeNext_execution hparked]
    have hclaimed := find_claimed hfind hblocked parked.attempt
    have hgrown : ∀ spec : WorkOrderSpec,
        world.submissions ++ [⟨parked.row.id, spec⟩] ≠
          world.submissions := by simp
    cases answers.submit with
    | error failure =>
      cases failure with
      | atCapacity message =>
        simpa [Except.isOk, Except.toBool] using
          resumeSafe_atCapacity hfind hblocked parked.attempt message
      | error message =>
        simpa [Except.isOk, Except.toBool] using
          resumeSafe_failed hfind hblocked parked.attempt message
    | ok handle =>
      have haccepted : ((world.updateRun runId .blocked
          (RunRow.claim parked.attempt) fun _ => rfl).accept parked.row.id
            (toSpec parked.workOrder runId)).db.runs.find runId =
              some (parked.run.claim parked.attempt) := hclaimed
      have hclosed := find_modifyRun haccepted
        (RunRow.closeAttempts env.now parked.run.lastBlock) fun _ => rfl
      have hopened := find_modifyRun hclosed
        (RunRow.openAttempt env.now parked.attempt handle.externalId)
        fun _ => rfl
      cases answers.closeAttempts with
      | error message =>
        simpa [Except.isOk, Except.toBool] using
          not_resumeSafe_failed _ hfind haccepted rfl (hgrown _) _ message
      | ok _ =>
        cases answers.openAttempt with
        | error message =>
          simpa [Except.isOk, Except.toBool] using
            not_resumeSafe_failed _ hfind hclosed rfl (hgrown _) _ message
        | ok _ =>
          cases answers.track with
          | error message =>
            simpa [Except.isOk, Except.toBool] using
              not_resumeSafe_failed _ hfind hopened rfl (hgrown _) _ message
          | ok _ =>
            simp only [Except.isOk, Except.toBool, forall_const, and_self,
              iff_true]
            exact
              { done := ⟨_, rfl⟩
                submitted := fun _ run hrun => by
                  rw [hfind] at hrun
                  cases hrun
                  exact
                    { notFailed := fun row hfound => by
                        rw [show row = _ from
                          Option.some.inj (hfound.symm.trans hopened)]
                        exact (by decide : RunStatus.running ≠ .failed)
                      tracked :=
                        List.mem_append_right _ (List.mem_singleton_self _)
                      notQueued := fun row hfound => by
                        rw [show row = _ from
                          Option.some.inj (hfound.symm.trans hrow),
                          hdispatched]
                        decide }
                unsubmitted := fun h => absurd h (hgrown _)
                failed := fun h => absurd h (hgrown _)
                atCapacity := fun h => absurd h (hgrown _) }

end Resume

/-! ## Both operations -/

/-- **Exactly when a throw leaves no orphan.** For every state, every answer
of every phase that can throw: a dispatch is safe if and only if, once its
submission is accepted, neither tracking nor the status update throws; a
resume if and only if, once its submission is accepted, neither closing the
parked attempt, opening the next nor tracking throws. -/
theorem submissionSafe_iff (env : ExecutorEnv) (answers : Answers)
    (input : DispatchWorkOrderInput) (runId : ℕ) (world : World) :
    (DispatchSafe world input.workOrderId
        (dispatchWorkOrder env answers input world) ↔
      (env.admits world.db input.workOrder → answers.write.isOk →
        answers.submit.isOk → answers.track.isOk ∧ answers.update.isOk)) ∧
      (ResumeSafe world runId (resumeParkedRun env answers runId world) ↔
        (env.admitsResume world.db runId → answers.submit.isOk →
          answers.closeAttempts.isOk ∧ answers.openAttempt.isOk ∧
            answers.track.isOk)) :=
  ⟨dispatchSafe_iff, resumeSafe_iff⟩

/-- A deployment with one idle runner, dispatch on and fifty dollars to
spend. -/
def localEnv : ExecutorEnv where
  now := 0
  dispatchEnabled := true
  autoResumeParked := true
  maxConcurrent := none
  allowPreviewRunner := false
  ceiling := ⟨some 50, 30, none⟩
  fleet := [⟨stableRunner.capabilities, true⟩]
  quota := fun _ => none
  claudeCodeLocal := stableRunner.capabilities

/-- Nothing throws. -/
def allOk : Answers where
  write := .ok ()
  submit := .ok ⟨stableRunner.capabilities.key, "pid-1", "wo_app_7_a3f91c2_a1"⟩
  closeAttempts := .ok ()
  openAttempt := .ok ()
  track := .ok ()
  update := .ok ()

/-- One work order, queued. -/
def queuedDb : Db :=
  insertWorkOrder ⟨⟨[acmeApp], 2, by decide, by decide⟩, .empty, .empty⟩
    acmeApp.id exportOrder false 0

/-- A world with one queued work order, and nothing submitted. -/
def queuedWorld : World := ⟨queuedDb, [], []⟩

/-- **A dispatch whose last statement throws orphans its process**: the
submission was accepted, and the run is marked failed. -/
theorem lostUpdate_orphans :
    ¬ ∀ (env : ExecutorEnv) (answers : Answers)
      (input : DispatchWorkOrderInput) (runId : ℕ) (world : World),
      DispatchSafe world input.workOrderId
          (dispatchWorkOrder env answers input world) ∧
        ResumeSafe world runId
          (resumeParkedRun env answers runId world) := by
  intro h
  have hsafe := (h localEnv { allOk with update := .error "connection lost" }
    ⟨exportOrder, 0⟩ 0 queuedWorld).1
  have hadmits : localEnv.admits queuedWorld.db exportOrder := by
    decide +kernel
  exact absurd (dispatchSafe_iff.mp hsafe hadmits rfl rfl).2 (by decide)

end Opifex
