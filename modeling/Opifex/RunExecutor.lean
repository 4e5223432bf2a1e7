import Mathlib.Logic.Function.Iterate
import Opifex.SpendAdmission
import Opifex.WorkOrderDocument

/-!
# Dispatching and resuming

Decide, record, submit, track; and the same for a run that was parked. Each
operation is a machine of phases, one for every statement, external call or
recovery it makes, so that the same definition serves a call that runs alone
and calls whose phases interleave. A phase that can throw is told by `Answers`
what it is answered.

A throw after the row exists goes to the operation's recovery, which does not
know which phase threw: on a capacity refusal the row is deleted or parked
again, on anything else the run is marked failed.
-/

namespace Opifex

/-! ## The world an executor acts on -/

/-- The work order as the seam receives it. It names no runner: which one gets it is
decided by routing. -/
structure WorkOrderSpec where
  identity : String
  runId : ℕ
  repositoryOwner : String
  repositoryName : String
  baseCommit : String
  branch : String
  taskSpec : String
  acceptanceCriteria : List String
  pathConstraints : List String
  budgetCeilingUsd : Option Usd
  wallClockTimeoutMinutes : Option ℕ
  needs : List RunnerNeed
  modelTier : Option ModelTier
deriving DecidableEq

/-- What a runner is handed of a work order. -/
def toSpec (workOrder : GeneratedWorkOrder) (runId : ℕ) : WorkOrderSpec where
  identity := workOrder.identity
  runId := runId
  repositoryOwner := workOrder.repositoryOwner
  repositoryName := workOrder.repositoryName
  baseCommit := workOrder.baseCommit
  branch := workOrder.branch
  taskSpec := workOrder.taskSpec
  acceptanceCriteria := workOrder.acceptanceCriteria
  pathConstraints := workOrder.pathConstraints
  budgetCeilingUsd := workOrder.budgetCeilingUsd
  wallClockTimeoutMinutes := workOrder.wallClockTimeoutMinutes
  needs := workOrder.routingNeeds
  modelTier := workOrder.routingTier

/-- A submission a runner accepted, and the work order row it was made for. A run
submits again when it is resumed. -/
structure Submission where
  workOrderId : ℕ
  spec : WorkOrderSpec
deriving DecidableEq

/-- The database, the runs the poller holds a handle of, and the submissions
runners have accepted. -/
structure World where
  db : Db
  tracked : List ℕ
  submissions : List Submission

/-- A runner as it registered itself, with the switch that an operator has on it. -/
structure RegisteredRunner where
  capabilities : RunnerCapabilities
  enabled : Bool
deriving DecidableEq

/-- The settings, the fleet and the clock a call reads. They may differ from one call to
the next, and do not change within one. -/
structure ExecutorEnv where
  now : Instant
  dispatchEnabled : Bool
  autoResumeParked : Bool
  maxConcurrent : Option ℕ
  allowPreviewRunner : Bool
  ceiling : HardCeiling
  fleet : List RegisteredRunner
  /-- The quota position already resolved for each runner. -/
  quota : RunnerKey → Option RunnerQuotaPosition
  /-- The manifest of the one runner this build can submit to. -/
  claudeCodeLocal : RunnerCapabilities

/-- Why a phase threw. Only a submission is refused for capacity, and that leaves the
order for a later tick. -/
inductive Failure where
  | atCapacity (message : String)
  | error (message : String)
deriving DecidableEq

/-- What the phases that can throw are answered, one field for each. The theorems are
about all of them. -/
structure Answers where
  write : Except String Unit
  submit : Except Failure RunHandle
  closeAttempts : Except String Unit
  openAttempt : Except String Unit
  track : Except String Unit
  update : Except String Unit
deriving DecidableEq

/-! ## Routing and admission -/

/-- The fleet with its current load. -/
def ExecutorEnv.loadPool (env : ExecutorEnv) (db : Db) :
    List RunnerPoolEntry :=
  env.fleet.map fun runner =>
    { capabilities := runner.capabilities
      enabled := runner.enabled
      liveRuns := db.liveRunsOf runner.capabilities.key
      quota := env.quota runner.capabilities.key }

/-- Which runner should take this work order, or why none can. -/
def ExecutorEnv.decide (env : ExecutorEnv) (db : Db)
    (workOrder : GeneratedWorkOrder) : DispatchDecision :=
  decideDispatch ⟨workOrder.routingNeeds, workOrder.routingTier⟩
    (env.loadPool db)
    { globalMaxConcurrent := env.maxConcurrent
      globalLiveRuns := db.countLiveRuns
      allowPreviewWithoutGaFallback := env.allowPreviewRunner }

/-- A run with its work order's ceiling, as the ledger reads it. -/
def Db.toLedgerRun (db : Db) (run : RunRow) : LedgerRun where
  startedAt := run.startedAt
  costUsd := run.costUsd
  budgetCeilingUsd :=
    (db.workOrders.find run.workOrderId).bind fun workOrder =>
      workOrder.budgetCeilingUsd

/-- The spend gate, for one work order on one runner. -/
def ExecutorEnv.admitSpend (env : ExecutorEnv) (db : Db)
    (workOrder : GeneratedWorkOrder) : SpendVerdict :=
  decideSpendAdmission env.ceiling
    (tally env.ceiling.windowDays env.now (db.runs.rows.map db.toLedgerRun))
    ⟨workOrder.budgetCeilingUsd.map Usd.toNumber,
      env.claudeCodeLocal.reportsCost⟩

/-- The build has an implementation of the runner. -/
def ExecutorEnv.runnerFor (env : ExecutorEnv) (key : RunnerKey) : Bool :=
  key == env.claudeCodeLocal.key

/-- Routing chose a runner this build has, spend admission lets the work order
through, and dispatch is enabled. -/
def ExecutorEnv.admits (env : ExecutorEnv) (db : Db)
    (workOrder : GeneratedWorkOrder) : Bool :=
  let decision := env.decide db workOrder
  decision.outcome == .dispatch && decision.runnerKey.any env.runnerFor &&
    (env.admitSpend db workOrder).admits && env.dispatchEnabled

/-! ## Dispatching -/

/-- What a dispatch is asked for: the work order, and the row it was rebuilt from. -/
structure DispatchWorkOrderInput where
  workOrder : GeneratedWorkOrder
  workOrderId : ℕ
deriving DecidableEq

/-- How a dispatch returns. What failed is told together with the run it left behind. -/
inductive ExecutionResult where
  | dispatched (runId : ℕ) (runnerKey : RunnerKey) (reason : String)
  | queued (queueReason : Option QueueReason) (reason : String)
  | observed (wouldDispatchTo : RunnerKey) (reason : String)
  | failed (runId : ℕ) (reason : String)
deriving DecidableEq

/-- What the next phase of a dispatch is, with what the phases before it found out. A
phase has one statement that others can see. -/
inductive DispatchPhase where
  | decide
  | admission (decision : DispatchDecision) (runnerKey : RunnerKey)
  | create (decision : DispatchDecision) (runnerKey : RunnerKey)
  | write (runId : ℕ) (runnerKey : RunnerKey)
  | submit (runId : ℕ) (runnerKey : RunnerKey)
  | track (runId : ℕ) (runnerKey : RunnerKey)
  | update (runId : ℕ) (runnerKey : RunnerKey)
  | recover (runId : ℕ) (failure : Failure)
  | done (result : ExecutionResult)
deriving DecidableEq

/-- The avoided park, as a row nested in the run that carries it. Its reset is
the soonest dated one. -/
def avoidedParkRow (decision : DispatchDecision) (occurredAt : Instant) :
    Option AvoidedParkRow :=
  decision.avoidedPark.map fun park =>
    let resets :=
      (park.exhausted.filterMap (·.resumesAt)).filterMap Instant.parse
    { occurredAt := occurredAt
      chosenRunnerKey := park.chosenRunnerKey
      exhaustedRunnerKeys := park.exhausted.map (·.runnerKey)
      resumesAt := (Preference.rank compare resets).head?
      basis := park.exhausted.map fun runner =>
        runner.runnerKey.val ++ " " ++ runner.basis }

/-- The run a dispatch creates, with its first invocation as a row. -/
def runData (env : ExecutorEnv) (workOrderId : ℕ) (runnerKey : RunnerKey)
    (decision : DispatchDecision) (id : ℕ) : RunRow where
  id := id
  workOrderId := workOrderId
  runnerKey := runnerKey
  runnerVersion := env.claudeCodeLocal.version
  status := .running
  startedAt := env.now
  endedAt := none
  resumesAt := none
  attentionReason := none
  attemptCount := 1
  costUsd := none
  attempts := [⟨1, .running, none, env.now, none, none, none⟩]
  avoidedPark := avoidedParkRow decision env.now
  lastBlock := none

theorem runData_key (env : ExecutorEnv) (workOrderId : ℕ)
    (runnerKey : RunnerKey) (decision : DispatchDecision) (id : ℕ) :
    Keyed.key (runData env workOrderId runnerKey decision id) = id := rfl

/-- Mark a run failed. -/
def RunRow.fail (now : Instant) (message : String) (run : RunRow) : RunRow :=
  { run with
    status := .failed
    endedAt := some now
    attentionReason := some message }

theorem RunRow.id_fail (now : Instant) (message : String) (run : RunRow) :
    (run.fail now message).id = run.id := rfl

namespace World

/-- `run.create`. -/
def createRun (world : World) (env : ExecutorEnv) (workOrderId : ℕ)
    (runnerKey : RunnerKey) (decision : DispatchDecision) : World :=
  { world with
    db :=
      { world.db with
        runs :=
          world.db.runs.insert (runData env workOrderId runnerKey decision)
            (runData_key env workOrderId runnerKey decision) } }

/-- A runner accepted a submission. -/
def accept (world : World) (workOrderId : ℕ) (spec : WorkOrderSpec) : World :=
  { world with submissions := world.submissions ++ [⟨workOrderId, spec⟩] }

/-- `poller.track`. -/
def track (world : World) (runId : ℕ) : World :=
  { world with tracked := world.tracked ++ [runId] }

/-- `run.delete`. -/
def deleteRun (world : World) (runId : ℕ) : World :=
  { world with
    db := { world.db with runs := world.db.runs.delete runId } }

/-- `run.updateMany` of a run that still has a status. -/
def updateRun (world : World) (runId : ℕ) (status : RunStatus)
    (f : RunRow → RunRow) (hf : ∀ r, (f r).id = r.id) : World :=
  { world with db := world.db.updateRun runId status f hf }

/-- Set the status of one work order. -/
def setStatus (world : World) (workOrderId : ℕ) (status : WorkOrderStatus) :
    World :=
  { world with
    db :=
      world.db.updateWorkOrder workOrderId (fun row =>
        { row with status := status }) fun _ => rfl }

/-- Fail a run that is still running. -/
def failRun (world : World) (runId : ℕ) (now : Instant) (message : String) :
    World :=
  world.updateRun runId .running (RunRow.fail now message) (RunRow.id_fail now message)

end World

section WorldLemmas

variable (world : World) (env : ExecutorEnv) (workOrderId runId : ℕ)
  (runnerKey : RunnerKey) (decision : DispatchDecision)

@[simp] theorem World.find_createRun :
    (world.createRun env workOrderId runnerKey decision).db.runs.find
        world.db.runs.next =
      some (runData env workOrderId runnerKey decision world.db.runs.next) :=
  Table.find_insert (runData_key env workOrderId runnerKey decision)

@[simp] theorem World.find_updateRun (status : RunStatus)
    (f : RunRow → RunRow) (hf : ∀ r, (f r).id = r.id) :
    (world.updateRun runId status f hf).db.runs.find runId =
      (world.db.runs.find runId).map fun run =>
        if run.id == runId && run.status == status then f run else run :=
  Table.find_modify hf

@[simp] theorem World.find_setStatus (status : WorkOrderStatus) :
    (world.setStatus workOrderId status).db.workOrders.find workOrderId =
      (world.db.workOrders.find workOrderId).map fun row =>
        if row.id == workOrderId then { row with status := status } else row :=
  Db.find_updateWorkOrder ..

@[simp] theorem World.find_deleteRun :
    (world.deleteRun runId).db.runs.find runId = none :=
  Table.find_delete

end WorldLemmas

/-- **One phase of `dispatchWorkOrder`.** -/
def dispatchStep (env : ExecutorEnv) (answers : Answers)
    (input : DispatchWorkOrderInput) :
    DispatchPhase → World → DispatchPhase × World
  | .decide, world =>
    let decision := env.decide world.db input.workOrder
    match decision.outcome, decision.runnerKey with
    | .dispatch, some runnerKey =>
      if env.runnerFor runnerKey then (.admission decision runnerKey, world)
      else
        (.done (.queued none
          ("Routing chose " ++ runnerKey.val ++
            ", which this build has no implementation for")), world)
    | _, _ =>
      (.done (.queued decision.queueReason decision.reason), world)
  | .admission decision runnerKey, world =>
    match env.admitSpend world.db input.workOrder with
    | .refuse refusal reason =>
      (.done (.queued (some refusal) reason), world)
    | .admitted _ _ =>
      if env.dispatchEnabled then (.create decision runnerKey, world)
      else
        (.done (.observed runnerKey
          ("DISPATCH DISABLED — would have dispatched " ++
            input.workOrder.identity ++ " to " ++ runnerKey.val ++ "@" ++
            env.claudeCodeLocal.version ++
            ". Dispatch ships enabled (ADR-0019), so this was turned off " ++
            "deliberately; turn it back on to act.")), world)
  | .create decision runnerKey, world =>
    (.write world.db.runs.next runnerKey,
      world.createRun env input.workOrderId runnerKey decision)
  | .write runId runnerKey, world =>
    match answers.write with
    | .ok _ => (.submit runId runnerKey, world)
    | .error message => (.recover runId (.error message), world)
  | .submit runId runnerKey, world =>
    match answers.submit with
    | .ok _ =>
      (.track runId runnerKey,
        world.accept input.workOrderId (toSpec input.workOrder runId))
    | .error failure => (.recover runId failure, world)
  | .track runId runnerKey, world =>
    match answers.track with
    | .ok _ => (.update runId runnerKey, world.track runId)
    | .error message => (.recover runId (.error message), world)
  | .update runId runnerKey, world =>
    match answers.update with
    | .ok _ =>
      (.done (.dispatched runId runnerKey
        ("Dispatched " ++ input.workOrder.identity ++ " to " ++
          runnerKey.val ++ " as run " ++ toString runId)),
        world.setStatus input.workOrderId .dispatched)
    | .error message => (.recover runId (.error message), world)
  | .recover runId (.atCapacity message), world =>
    (.done (.queued (some .capableRunnersAreAtCapacity) message),
      world.deleteRun runId)
  | .recover runId (.error message), world =>
    (.done (.failed runId message), world.failRun runId env.now message)
  | .done result, world => (.done result, world)

/-- The machine of one dispatch. -/
def dispatchNext (env : ExecutorEnv) (answers : Answers)
    (input : DispatchWorkOrderInput) (s : DispatchPhase × World) :
    DispatchPhase × World :=
  dispatchStep env answers input s.1 s.2

/-- **Decide, record, submit, track**: the phases of one dispatch, of which
there are at most eight, run to the end. -/
def dispatchWorkOrder (env : ExecutorEnv) (answers : Answers)
    (input : DispatchWorkOrderInput) (world : World) :
    DispatchPhase × World :=
  (dispatchNext env answers input)^[8] (.decide, world)

/-! ## Resuming -/

/-- Why a resume did not happen, one member per gate, in the order of the gates. -/
inductive ResumeRefusal where
  | autoResumeDisabled
  | notParked
  | heldOrNotDispatched
  | repositoryDispatchDisabled
  | repositoryBudgetReached
  | workOrderUnrebuildable
  | runnerUnavailable
  | spendRefused
  | runnerAtCapacity
deriving DecidableEq, Repr

/-- How a resume returns. A refusal leaves the run parked, for a later tick to try
again. -/
inductive ResumeResult where
  | resumed (runId : ℕ) (runnerKey : RunnerKey) (attempt : ℕ)
      (reason : String)
  | refused (refusal : ResumeRefusal) (reason : String)
  | observed (reason : String)
  | failed (runId : ℕ) (reason : String)
  /-- An error that is no rehydration error leaves the method. -/
  | threw (message : String)
deriving DecidableEq

/-- Everything a resume reads about a parked run, in one query, and the work
order rebuilt from it. -/
structure ParkedRun where
  run : RunRow
  row : WorkOrderRow
  repository : RepositoryRow
  workOrder : GeneratedWorkOrder
deriving DecidableEq

/-- What the next phase of a resume is, with the parked run as the gate read it. -/
inductive ResumePhase where
  | gate
  | admission (parked : ParkedRun)
  | claim (parked : ParkedRun)
  | submit (parked : ParkedRun)
  | closeAttempts (parked : ParkedRun) (handle : RunHandle)
  | openAttempt (parked : ParkedRun) (handle : RunHandle)
  | track (parked : ParkedRun)
  | recover (parked : ParkedRun) (failure : Failure)
  | done (result : ResumeResult)
deriving DecidableEq

/-- The run's row with its work order's and its repository's. -/
def Db.findParked (db : Db) (runId : ℕ) :
    Option (RunRow × WorkOrderRow × RepositoryRow) := do
  let run ← db.runs.find runId
  let row ← db.workOrders.find run.workOrderId
  let repository ← db.repositories.find row.repositoryId
  return (run, row, repository)

/-- The run has spent what its repository allows a run. An unmeasured run
cannot be shown to have. -/
def budgetReached (run : RunRow) (repository : RepositoryRow) : Bool :=
  match repository.budgetCeilingUsd, run.costUsd with
  | some ceiling, some spent => ceiling.toRat ≤ spent.toRat
  | _, _ => false

/-- The gates the stored rows decide, in order: the run, its work order, its
repository's switch and its repository's per-run ceiling. -/
def parkedRefusal (run : RunRow) (row : WorkOrderRow)
    (repository : RepositoryRow) : Option (ResumeRefusal × String) :=
  if run.status ≠ .blocked then
    some (.notParked,
      "Run " ++ toString run.id ++ " is " ++ run.status.name ++
        " and no longer parked")
  else if row.status ≠ .dispatched then
    some (.heldOrNotDispatched,
      row.identity ++ " is " ++ row.status.name ++
        ", not dispatched, so its run is not resumed")
  else if !repository.dispatchEnabled then
    some (.repositoryDispatchDisabled,
      row.identity ++ " is not resumed: dispatch is disabled for " ++
        repository.fullName)
  else if budgetReached run repository then
    some (.repositoryBudgetReached,
      row.identity ++ " is not resumed: it has spent " ++
        ((run.costUsd.map Usd.text).getD "") ++ ", which has reached the " ++
        repository.fullName ++ " ceiling of " ++
        ((repository.budgetCeilingUsd.map Usd.text).getD ""))
  else none

/-- The gates left once the rows are fine: the document rebuilds, and this
build has the runner. -/
def rebuildParked (env : ExecutorEnv) (run : RunRow) (row : WorkOrderRow)
    (repository : RepositoryRow) : Except ResumeResult ParkedRun :=
  match rehydrateWorkOrder row repository with
  | .error (.rehydration message) =>
    .error (.refused .workOrderUnrebuildable message)
  | .error (.other message) => .error (.threw message)
  | .ok workOrder =>
    if env.runnerFor run.runnerKey then .ok ⟨run, row, repository, workOrder⟩
    else
      .error (.refused .runnerUnavailable
        ("Run " ++ toString run.id ++ " was dispatched to " ++
          run.runnerKey.val ++ ", which this build has no implementation " ++
          "for, so it cannot be resumed"))

/-- Every gate of a resume that the switch and a single read decide. -/
def resumeGate (env : ExecutorEnv) (db : Db) (runId : ℕ) :
    Except ResumeResult ParkedRun :=
  if !env.autoResumeParked then
    .error (.refused .autoResumeDisabled
      ("Auto-resume is disabled, so run " ++ toString runId ++
        " stays parked until a human acts. Its runner slot stays occupied " ++
        "while it waits (#477)."))
  else
    match db.findParked runId with
    | none =>
      .error (.refused .notParked
        ("Run " ++ toString runId ++ " is gone and no longer parked"))
    | some (run, row, repository) =>
      match parkedRefusal run row repository with
      | some (refusal, reason) => .error (.refused refusal reason)
      | none => rebuildParked env run row repository

/-- The attempt a resume opens. -/
def ParkedRun.attempt (parked : ParkedRun) : ℕ :=
  max parked.run.attemptCount 1 + 1

/-- The update that claims a parked run: it is the lock. -/
def RunRow.claim (attempt : ℕ) (run : RunRow) : RunRow :=
  { run with status := .running, resumesAt := none, attemptCount := attempt }

/-- Back to parked, with `resumesAt` left null. -/
def RunRow.park (attemptCount : ℕ) (run : RunRow) : RunRow :=
  { run with status := .blocked, attemptCount := attemptCount }

/-- What the parked run was parked on. -/
def blockedOn (block : Option BlockEvent) : String :=
  (block.bind (·.blockedReason)).getD "an unreported reason"

/-- Close an attempt that is open, at the resume that shows it ended. -/
def closeAttempt (now : Instant) (block : Option BlockEvent)
    (attempt : RunAttemptRow) : RunAttemptRow :=
  if attempt.outcome = .running then
    { attempt with
      outcome := .blocked
      endedAt := some now
      stopReason := some
        ("parked on '" ++ blockedOn block ++ "'" ++
          match block.bind (·.blockedUntil) with
          | some blockedUntil => " until " ++ blockedUntil.toISOString
          | none => " with no reset time")
      blockedUntil := block.bind (·.blockedUntil) }
  else attempt

/-- `runAttempt.updateMany` over the open attempts of a run. -/
def RunRow.closeAttempts (now : Instant) (block : Option BlockEvent)
    (run : RunRow) : RunRow :=
  { run with attempts := run.attempts.map (closeAttempt now block) }

/-- `runAttempt.create`. -/
def RunRow.openAttempt (now : Instant) (number : ℕ) (runnerRunId : String)
    (run : RunRow) : RunRow :=
  { run with
    attempts := run.attempts ++
      [⟨number, .running, some runnerRunId, now, none, none, none⟩] }

namespace World

/-- Update one run, whatever its status. -/
def modifyRun (world : World) (runId : ℕ) (f : RunRow → RunRow)
    (hf : ∀ r, (f r).id = r.id) : World :=
  { world with
    db :=
      { world.db with
        runs := world.db.runs.modify (fun r => r.id == runId) f hf } }

@[simp] theorem find_modifyRun (world : World) (runId : ℕ)
    (f : RunRow → RunRow) (hf : ∀ r, (f r).id = r.id) :
    (world.modifyRun runId f hf).db.runs.find runId =
      (world.db.runs.find runId).map fun run =>
        if run.id == runId then f run else run :=
  Table.find_modify hf

/-- The run is parked: the guard of the claim. -/
def parked (world : World) (runId : ℕ) : Bool :=
  world.db.runs.rows.any fun run =>
    run.id == runId && run.status == .blocked

end World

/-- The resume of a run passes its gates, and spend admission, with dispatch
enabled. -/
def ExecutorEnv.admitsResume (env : ExecutorEnv) (db : Db) (runId : ℕ) :
    Bool :=
  match resumeGate env db runId with
  | .ok parked =>
    (env.admitSpend db parked.workOrder).admits && env.dispatchEnabled
  | .error _ => false

/-- **One phase of `resumeParkedRun`.** -/
def resumeStep (env : ExecutorEnv) (answers : Answers) (runId : ℕ) :
    ResumePhase → World → ResumePhase × World
  | .gate, world =>
    match resumeGate env world.db runId with
    | .error result => (.done result, world)
    | .ok parked => (.admission parked, world)
  | .admission parked, world =>
    match env.admitSpend world.db parked.workOrder with
    | .refuse _ reason => (.done (.refused .spendRefused reason), world)
    | .admitted _ _ =>
      if env.dispatchEnabled then (.claim parked, world)
      else
        (.done (.observed
          ("DISPATCH DISABLED — would have resumed " ++ parked.row.identity ++
            " on " ++ parked.run.runnerKey.val ++ "@" ++
            env.claudeCodeLocal.version ++ ", whose park expired at " ++
            (parked.run.resumesAt.map Instant.toISOString).getD
              "an unrecorded time" ++ ".")), world)
  | .claim parked, world =>
    if world.parked runId then
      (.submit parked,
        world.updateRun runId .blocked (RunRow.claim parked.attempt)
          fun _ => rfl)
    else
      (.done (.refused .notParked
        ("Run " ++ toString runId ++
          " stopped being parked while its resume was being admitted")), world)
  | .submit parked, world =>
    match answers.submit with
    | .ok handle =>
      (.closeAttempts parked handle,
        world.accept parked.row.id (toSpec parked.workOrder runId))
    | .error failure => (.recover parked failure, world)
  | .closeAttempts parked handle, world =>
    match answers.closeAttempts with
    | .ok _ =>
      (.openAttempt parked handle,
        world.modifyRun runId
          (RunRow.closeAttempts env.now parked.run.lastBlock) fun _ => rfl)
    | .error message => (.recover parked (.error message), world)
  | .openAttempt parked handle, world =>
    match answers.openAttempt with
    | .ok _ =>
      (.track parked,
        world.modifyRun runId
          (RunRow.openAttempt env.now parked.attempt handle.externalId)
          fun _ => rfl)
    | .error message => (.recover parked (.error message), world)
  | .track parked, world =>
    match answers.track with
    | .ok _ =>
      (.done (.resumed runId parked.run.runnerKey parked.attempt
        ("Resumed " ++ parked.row.identity ++ " on " ++
          parked.run.runnerKey.val ++ " as attempt " ++
          toString parked.attempt ++ "; it was parked on '" ++
          blockedOn parked.run.lastBlock ++ "' since " ++
          (parked.run.lastBlock.map (·.occurredAt.toISOString)).getD
            "an unrecorded time")),
        world.track runId)
    | .error message => (.recover parked (.error message), world)
  | .recover parked (.atCapacity message), world =>
    (.done (.refused .runnerAtCapacity message),
      world.updateRun runId .running (RunRow.park parked.run.attemptCount)
        fun _ => rfl)
  | .recover _ (.error message), world =>
    (.done (.failed runId message), world.failRun runId env.now message)
  | .done result, world => (.done result, world)

/-- The machine of one resume. -/
def resumeNext (env : ExecutorEnv) (answers : Answers) (runId : ℕ)
    (s : ResumePhase × World) : ResumePhase × World :=
  resumeStep env answers runId s.1 s.2

/-- **Re-invoke the runner for a run that was parked**: the phases of one
resume, of which there are at most eight, run to the end. -/
def resumeParkedRun (env : ExecutorEnv) (answers : Answers) (runId : ℕ)
    (world : World) : ResumePhase × World :=
  (resumeNext env answers runId)^[8] (.gate, world)

end Opifex
