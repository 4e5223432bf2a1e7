import Opifex.Escalations
import Opifex.IngestStatements
import Opifex.RunLimits
import Opifex.Runner
import Opifex.WatchedRuns

/-!
# The poller

Every tick the poller cancels what is past its deadline, drains each run it
holds a handle for and ingests what it drained, and then accounts for the live
runs it holds no handle for. The handles are in memory, so a process that was
restarted holds none.

What runners and operators answer, and which database call throws, is an input
of the tick; every other step is computed. A tick is a sequence of smaller
steps (`tick_eq_run`), and what it does to one run is said of those.
-/

namespace Opifex

open Preference (rank)

/-- The exact sentence written for a lost handle. -/
def lostHandleReason : String :=
  "The runner handle was lost (most likely an API restart). Nothing is polling this run; " ++
    "re-run it from its pinned base commit."

/-- How many runs one tick will poll. -/
def pollBatchSize : ℕ := 50

/-- What a runner says of a run it is asked about. `unknown` is of a run the runner has
never heard of, or has lost. -/
inductive RunnerRunStatus where
  | running
  | blocked
  | succeeded
  | failed
  | unknown
deriving DecidableEq, Repr

/-- How hard a quota window presses, as a runner reports it, from the least to the most.
-/
inductive QuotaPressure where
  | unknown
  | allowed
  | warning
  | exhausted
deriving DecidableEq, Repr

/-- One vendor quota window, as a runner saw it, at the moment it did. -/
structure RunnerQuotaObservation where
  runnerKey : String
  kind : String
  resetsAt : Instant
  pressure : QuotaPressure
  observedAt : Instant
deriving DecidableEq

/-- What `poll` returns: the status, and what has piled up since the last poll. The
events are candidates: nothing has validated them yet. -/
structure RunPollResult (Candidate : Type*) where
  status : RunnerRunStatus
  events : List Candidate
  quota : List RunnerQuotaObservation := []

/-- Where an ingestion throws, if the database does: at the lookup of the run, or at one
of the statements. -/
inductive IngestFailure where
  /-- At the lookup of the run. -/
  | lookup
  | statement (failed : IngestStatement)
deriving DecidableEq, Repr

/-- The counts of a tick. A run may be counted under several of them. -/
structure PollTickResult where
  polled : ℕ := 0
  eventsIngested : ℕ := 0
  duplicates : ℕ := 0
  /-- Runs whose handle this process no longer holds. -/
  lost : ℕ := 0
  failed : ℕ := 0
  timedOut : ℕ := 0
  overBudget : ℕ := 0
  quotaWindows : ℕ := 0
deriving DecidableEq

/-- **The poller**, the rows it writes, and what its ticks counted. The map of handles
is the process's, and is lost with it. -/
structure Poller where
  table : Table WatchedRun
  /-- Run and handle, in the order they were first tracked. -/
  tracked : List (ℕ × RunHandle)
  deadlineEnforced : List ℕ
  budgetEnforced : List ℕ
  result : PollTickResult := {}
  escalations : Table EscalationRow := Table.empty

/-- What happens around a tick: the clock and the settings, what each runner answers,
and where the database fails. -/
structure PollAnswers (Candidate : Type*) where
  now : Instant
  defaultTimeoutMinutes : Option ℤ
  graceMinutes : ℤ
  poll : ℕ → Except String (RunPollResult Candidate)
  cancel : ℕ → Except String Unit
  cancelForBudget : ℕ → Except String Unit
  ingestFailure : ℕ → Option IngestFailure
  /-- How many quota windows were recorded from what a run's poll
  reported. -/
  quotaRecorded : ℕ → ℕ
  /-- The order in which the database returns rows nothing sorts. -/
  order : ℕ → ℕ

/-- The batch of a list of events, unless it is empty. -/
def Batch.of? (events : List RunEventPayload) : Option Batch :=
  match h : newestOf events with
  | none => none
  | some newest => some ⟨events, newest, h⟩

theorem Batch.of?_eq {events : List RunEventPayload} {newest : Instant}
    (h : newestOf events = some newest) :
    Batch.of? events = some ⟨events, newest, h⟩ := by
  unfold Batch.of?
  split
  · rename_i hnone
    rw [h] at hnone
    cases hnone
  · rename_i latest hlatest
    have hsame : latest = newest := Option.some.inj (hlatest.symm.trans h)
    subst hsame
    rfl

/-- An ingestion that may throw, with what it leaves. A refused batch leaves
the record as it was, and so does a lookup that throws; a statement that
throws leaves what the statements before it wrote. -/
def ingestAttempt {Candidate : Type*} (validator : RunEventValidator Candidate)
    (runId : ℕ) (record : RunRecord) (candidates : List Candidate) :
    Option IngestFailure → RunRecord × Option IngestResult
  | none =>
    match validator.ingest runId (some record) candidates with
    | .ok (record, result) => (record, some result)
    | .error _ => (record, none)
  | some .lookup => (record, none)
  | some (.statement failed) =>
    match validator.acceptAll runId candidates with
    | ([], events) =>
      match Batch.of? events with
      | some batch => (interrupted failed batch record, none)
      | none => (record, none)
    | _ => (record, none)

/-- The ingestion throws before it stores an event: at the lookup, at the
insert, or because a candidate is refused. -/
def StoresNothing {Candidate : Type*} (validator : RunEventValidator Candidate)
    (runId : ℕ) (candidates : List Candidate) : Option IngestFailure → Prop
  | some .lookup => True
  | some (.statement .createMany) => True
  | _ => (validator.acceptAll runId candidates).1 ≠ []

theorem ingestAttempt_of_storesNothing {Candidate : Type*}
    {validator : RunEventValidator Candidate} {runId : ℕ}
    {candidates : List Candidate} {failure : Option IngestFailure}
    (h : StoresNothing validator runId candidates failure)
    (record : RunRecord) :
    ingestAttempt validator runId record candidates failure
      = (record, none) := by
  unfold ingestAttempt
  split
  · -- a refused candidate refuses the batch
    have hrejected :
        (validator.acceptAll runId candidates).1.isEmpty = false := by
      rw [List.isEmpty_eq_false_iff]
      exact h
    rw [RunEventValidator.ingest]
    split_ifs
    · rfl
    · simp only [hrejected, Bool.false_eq_true, if_false]
  · rfl
  · rename_i failed
    split
    · rename_i events haccepted
      split
      · cases failed with
        | createMany => rfl
        | _ => exact absurd (congrArg Prod.fst haccepted) h
      · rfl
    · rfl

theorem events_interrupted {failed : IngestStatement} {batch : Batch}
    {record : RunRecord} (h : failed ≠ .createMany) :
    (interrupted failed batch record).events
      = createMany record.events (batch.events.map toRow) := by
  cases failed with
  | createMany => exact absurd rfl h
  | attempts =>
    cases hterminal : terminalEventIn batch.events with
    | some terminal => rw [interrupted_attempts hterminal]; rfl
    | none => rw [interrupted_attempts_of_none hterminal]; rfl
  | _ => rfl

/-- Any other ingestion stores the batch, even where it throws later. -/
theorem events_ingestAttempt {Candidate : Type*}
    {validator : RunEventValidator Candidate} {runId : ℕ}
    {candidates : List Candidate} {failure : Option IngestFailure}
    (hne : candidates ≠ [])
    (h : ¬ StoresNothing validator runId candidates failure)
    (record : RunRecord) :
    (ingestAttempt validator runId record candidates failure).1.events
      = createMany record.events
          ((validator.acceptAll runId candidates).2.map toRow) := by
  have haccepted : (validator.acceptAll runId candidates).1 = [] := by
    by_contra hrejected
    refine h ?_
    unfold StoresNothing
    split
    · trivial
    · trivial
    · exact hrejected
  unfold ingestAttempt
  split
  · rw [RunEventValidator.ingest, if_neg (by simpa using hne)]
    simp only [haccepted]
    rfl
  · exact absurd trivial h
  · rename_i failed
    rw [show validator.acceptAll runId candidates
        = ([], (validator.acceptAll runId candidates).2) from
      Prod.ext haccepted rfl]
    simp only
    -- what was accepted is as long as what was sent
    have hevents : (validator.acceptAll runId candidates).2 ≠ [] := by
      intro hnil
      have hlength := (RunEventValidator.acceptAll_of_none_rejected
        haccepted).length_eq
      rw [hnil] at hlength
      exact hne (List.length_eq_zero_iff.mp hlength)
    obtain ⟨newest, hnewest⟩ := exists_newestOf hevents
    rw [Batch.of?_eq hnewest]
    exact events_interrupted fun hfailed => h (by rw [hfailed]; trivial)

/-! ## What no ingestion writes -/

/-- The columns a run is created with: no delivery and no poll writes them. -/
def RunRow.origin (run : RunRow) : ℕ × ℕ × RunnerKey × Instant :=
  (run.id, run.workOrderId, run.runnerKey, run.startedAt)

theorem origin_transition (events : List RunEventPayload) (advanced : Bool)
    (run : RunRow) : (transition events advanced run).origin = run.origin := by
  rw [transition]
  split
  · rw [RunRow.concludeRun]
    split <;> rfl
  · split_ifs
    · split
      · rw [RunRow.blockRun]
        split <;> rfl
      · rw [RunRow.resumeRun]
        split <;> rfl
    · rfl

theorem origin_execute (batch : Batch) (record : RunRecord)
    (progress : Progress) (statement : IngestStatement) :
    (execute batch record progress statement).1.run.origin
      = record.run.origin := by
  cases statement with
  | lastEventAt =>
    show (record.run.moveLastEventAt _).origin = _
    rw [RunRow.moveLastEventAt]
    rfl
  | status =>
    rw [execute]
    split
    · show (record.run.concludeStatus _).origin = _
      rw [RunRow.concludeStatus]
      split <;> rfl
    · exact origin_transition _ _ _
  | attempts =>
    rw [execute]
    split
    · split <;> rfl
    · rfl
  | _ => rfl

theorem origin_executeAll (batch : Batch) (record : RunRecord)
    (statements : List IngestStatement) :
    (executeAll batch record statements).1.run.origin = record.run.origin := by
  have hstep : ∀ (state : RunRecord × Progress) statement,
      state.1.run.origin = record.run.origin →
        (execute batch state.1 state.2 statement).1.run.origin
          = record.run.origin :=
    fun state statement h =>
      (origin_execute batch state.1 state.2 statement).trans h
  exact Machine.run_preserves hstep statements rfl

theorem origin_persist (record : RunRecord) (events : List RunEventPayload) :
    (record.persist events).1.run.origin = record.run.origin := by
  cases hnewest : newestOf events with
  | none => rw [run_persist_of_none hnewest]
  | some newest =>
    have hprogram : (executeAll ⟨events, newest, hnewest⟩ record program).1
        = (record.persist events).1 := run_program
    rw [← hprogram]
    exact origin_executeAll ⟨events, newest, hnewest⟩ record program

/-- **An ingestion, whole or interrupted, leaves the origin of its run.** -/
theorem origin_ingestAttempt {Candidate : Type*}
    (validator : RunEventValidator Candidate) (runId : ℕ) (record : RunRecord)
    (candidates : List Candidate) (failure : Option IngestFailure) :
    (ingestAttempt validator runId record candidates failure).1.run.origin
      = record.run.origin := by
  unfold ingestAttempt
  split
  · rw [RunEventValidator.ingest]
    split_ifs
    · rfl
    · simp only
      split_ifs
      · exact origin_persist _ _
      · rfl
  · rfl
  · split
    · split
      · exact origin_executeAll _ _ _
      · rfl
    · rfl

/-! ## What the poller writes of a run -/

namespace RunRow

/-- `data: { attentionReason }`. -/
def attention (reason : String) (run : RunRow) : RunRow :=
  { run with attentionReason := some reason }

/-- `data: { status: 'stalled', attentionReason: LOST_HANDLE_REASON }`. -/
def lose (run : RunRow) : RunRow :=
  { run with status := .stalled, attentionReason := some lostHandleReason }

theorem key_attention (reason : String) (run : RunRow) :
    (run.attention reason).id = run.id := rfl

theorem key_lose (run : RunRow) : run.lose.id = run.id := rfl

/-- The row says that the handle was lost. -/
def saysLost (run : RunRow) : Bool :=
  run.status == .stalled && run.attentionReason == some lostHandleReason

end RunRow

namespace WatchedRun

/-- A run that needs a human, for a reason that its row records. -/
def attention (reason : String) (watched : WatchedRun) : WatchedRun :=
  { watched with
    record := { watched.record with run := watched.record.run.attention reason } }

/-- A run that is given up, as its row records it. -/
def lose (watched : WatchedRun) : WatchedRun :=
  { watched with
    record := { watched.record with run := watched.record.run.lose } }

theorem key_attention (reason : String) (watched : WatchedRun) :
    Keyed.key (watched.attention reason) = Keyed.key watched := rfl

theorem key_lose (watched : WatchedRun) :
    Keyed.key watched.lose = Keyed.key watched := rfl

/-- Write what an ingestion left. The key is never among it. -/
def ingested (record : RunRecord) (watched : WatchedRun) : WatchedRun :=
  { watched with
    record :=
      { record with run := { record.run with id := watched.record.run.id } } }

theorem key_ingested (record : RunRecord) (watched : WatchedRun) :
    Keyed.key (watched.ingested record) = Keyed.key watched := rfl

end WatchedRun

namespace Poller

/-- `Map.set`: a key that is there keeps its place. -/
def setTracked (runId : ℕ) (handle : RunHandle) :
    List (ℕ × RunHandle) → List (ℕ × RunHandle)
  | [] => [(runId, handle)]
  | entry :: entries =>
    if entry.1 = runId then (runId, handle) :: entries
    else entry :: setTracked runId handle entries

/-- Start polling a run. -/
def track (runId : ℕ) (handle : RunHandle) (poller : Poller) : Poller :=
  { poller with tracked := setTracked runId handle poller.tracked }

/-- Stop polling. -/
def forget (runId : ℕ) (poller : Poller) : Poller :=
  { poller with
    tracked := poller.tracked.filter fun entry => entry.1 != runId
    deadlineEnforced := poller.deadlineEnforced.filter (· != runId)
    budgetEnforced := poller.budgetEnforced.filter (· != runId) }

/-- Whether this process holds a handle of the run. -/
def isTracked (poller : Poller) (runId : ℕ) : Bool :=
  poller.tracked.any fun entry => entry.1 == runId

/-- The process is restarted: the handles and markers are gone. -/
def restart (poller : Poller) : Poller :=
  { poller with tracked := [], deadlineEnforced := [], budgetEnforced := [] }

/-- Write an attention reason, unless the run has ended. -/
def record (runId : ℕ) (reason : String) (poller : Poller) : Poller :=
  { poller with
    table :=
      poller.table.modify
        (fun watched => watched.record.run.id == runId && watched.isLive)
        (WatchedRun.attention reason) (WatchedRun.key_attention reason) }

/-- Mark a run nothing is watching, unless it has ended. -/
def markLost (runId : ℕ) (poller : Poller) : Poller :=
  { poller with
    table :=
      poller.table.modify
        (fun watched => watched.record.run.id == runId && watched.isLive)
        WatchedRun.lose WatchedRun.key_lose }

/-- What an ingestion left of a run's record. -/
def storeRecord (runId : ℕ) (record : RunRecord) (poller : Poller) : Poller :=
  { poller with
    table :=
      poller.table.modify (fun watched => watched.record.run.id == runId)
        (WatchedRun.ingested record) (WatchedRun.key_ingested record) }

/-- The counts of the tick, moved on. -/
def count (f : PollTickResult → PollTickResult) (poller : Poller) : Poller :=
  { poller with result := f poller.result }

/-- A call that threw is counted, and nothing after it happens. -/
def threw (poller : Poller) : Poller :=
  poller.count fun result => { result with failed := result.failed + 1 }

section Tick

variable {Candidate : Type*} (validator : RunEventValidator Candidate)
  (answers : PollAnswers Candidate)

/-! ## Deadlines -/

/-- What the ceiling of a run is decided from: its own timeout if the work order names
one, the fleet's otherwise. -/
def deadlineInputs (watched : WatchedRun) : DeadlineInputs where
  startedAt := watched.record.run.startedAt
  timeoutMinutes := watched.wallClockTimeoutMinutes.map fun (n : ℕ) => (n : ℤ)
  defaultTimeoutMinutes := answers.defaultTimeoutMinutes
  graceMinutes := answers.graceMinutes

/-- Cancel through the seam, record what is true, and never try twice. -/
def cancelForDeadline (runId : ℕ) (reason : String) (poller : Poller) :
    Poller :=
  let poller :=
    record runId reason
      { poller with deadlineEnforced := poller.deadlineEnforced ++ [runId] }
  if poller.isTracked runId then
    match answers.cancel runId with
    | .ok _ =>
      record runId (reason ++ " The control plane cancelled it.") poller
    | .error message =>
      record runId
        (reason ++ " The control plane tried to cancel it and the runner " ++
          "refused, so it may STILL BE RUNNING: " ++ message) poller
  else poller

/-- Cancel one run that is past its ceiling. -/
def enforceDeadline (poller : Poller) (watched : WatchedRun) : Poller :=
  match decideDeadline (deadlineInputs answers watched) answers.now with
  | .within _ _ => poller
  | .overdue _ _ _ reason =>
    cancelForDeadline answers watched.record.run.id reason
      (poller.count fun result =>
        { result with timedOut := result.timedOut + 1 })

/-- The live runs among the tracked ones that were not cancelled yet. -/
def deadlineCandidates (poller : Poller) : List WatchedRun :=
  poller.table.rows.filter fun watched =>
    watched.isLive && poller.isTracked watched.record.run.id &&
      !poller.deadlineEnforced.contains watched.record.run.id

/-- Cancel every tracked run that has passed its wall-clock ceiling. -/
def enforceDeadlines (poller : Poller) : Poller :=
  poller.deadlineCandidates.foldl (enforceDeadline answers) poller

/-! ## Draining one run -/

/-- Cancel through the seam, and say honestly whether it worked. -/
def stopForBudget (runId : ℕ) (reason : String) (poller : Poller) : String :=
  if poller.isTracked runId then
    match answers.cancelForBudget runId with
    | .ok _ => reason ++ " The control plane cancelled it."
    | .error message =>
      reason ++ " The control plane tried to cancel it and the runner " ++
        "refused, so it may STILL BE RUNNING and still spending: " ++ message
  else reason ++ " No runner handle in this process, so nothing could stop it."

/-- What the poller hands to `raiseFrom`: an object with these fields only,
under a cast. -/
def budgetAction (runId : ℕ) (outcome : String) : HandedAction where
  type := .escalate
  repository := none
  issueNumber := none
  reason := outcome
  evidence := none
  runId := some runId
  escalationKind := some .budgetExceeded
  detectionSource := some "control-plane"

/-- Escalate an overrun; `pollOne` catches what the call throws. -/
def raiseOverrun (runId : ℕ) (outcome : String) (poller : Poller) : Poller :=
  let raising :=
    raiseFrom poller.escalations answers.now [budgetAction runId outcome]
  let poller := { poller with escalations := raising.escalations }
  match raising.error with
  | none => poller
  | some _ => poller.threw

/-- Act on a work order's budget once its run has passed it. -/
def enforceBudget (runId : ℕ) (runIsLive : Bool) (poller : Poller) : Poller :=
  if poller.budgetEnforced.contains runId then poller
  else
    match poller.table.find runId with
    | none => poller
    | some watched =>
      match decideBudgetOverrun
        { costUsd := watched.record.run.costUsd.map Usd.toRat
          ceilingUsd := watched.budgetCeilingUsd.map Usd.toRat
          runIsLive := runIsLive } with
      | .within => poller
      | .over _ _ _ stoppable reason =>
        let poller :=
          record runId reason
            ({ poller with
              budgetEnforced := poller.budgetEnforced ++ [runId] }.count
              fun result => { result with overBudget := result.overBudget + 1 })
        let outcome :=
          if stoppable then stopForBudget answers runId reason poller
          else reason ++
            " The run had already finished, so nothing could be stopped."
        raiseOverrun answers runId outcome (record runId outcome poller)

/-- What the status of a poll makes of the handle. A terminal status leaves
the run to ingestion. -/
def heed (runId : ℕ) (status : RunnerRunStatus) (poller : Poller) : Poller :=
  match status with
  | .unknown =>
    markLost runId
      (forget runId
        (poller.count fun result => { result with lost := result.lost + 1 }))
  | .succeeded | .failed => forget runId poller
  | .running | .blocked => poller

/-- Ingest what a poll drained, before acting on its status. -/
def ingestPolled (runId : ℕ) (poll : RunPollResult Candidate)
    (poller : Poller) : Poller :=
  match poller.table.find runId with
  | none => poller.threw
  | some watched =>
    match ingestAttempt validator runId watched.record poll.events
        (answers.ingestFailure runId) with
    | (record, none) => (poller.storeRecord runId record).threw
    | (record, some ingested) =>
      heed runId poll.status
        (enforceBudget answers runId (poll.status == .running)
          ((poller.storeRecord runId record).count fun result =>
            { result with
              eventsIngested := result.eventsIngested + ingested.accepted
              duplicates := result.duplicates + ingested.duplicates }))

/-- Drain one run. -/
def pollOne (runId : ℕ) (poller : Poller) : Poller :=
  match answers.poll runId with
  | .error _ => poller.threw
  | .ok poll =>
    let poller := poller.count fun result =>
      { result with
        polled := result.polled + 1
        quotaWindows := result.quotaWindows +
          if poll.quota.isEmpty then 0 else answers.quotaRecorded runId }
    if poll.events.isEmpty then heed runId poll.status poller
    else ingestPolled validator answers runId poll poller

/-! ## Runs without a handle -/

/-- Live runs, as many as one tick looks at. -/
def liveBatch (poller : Poller) : List WatchedRun :=
  (rank (fun a b => compare (answers.order a.record.run.id)
    (answers.order b.record.run.id))
    (poller.table.rows.filter WatchedRun.isLive)).take pollBatchSize

/-- Whether the pass reports a run: it has no handle, and was not reported
yet. -/
def isUnreported (poller : Poller) (watched : WatchedRun) : Bool :=
  !poller.isTracked watched.record.run.id && !watched.record.run.saysLost

/-- A run the database thinks is live and this process cannot poll. -/
def reconcileOne (poller : Poller) (watched : WatchedRun) : Poller :=
  if poller.isUnreported watched then
    markLost watched.record.run.id
      (poller.count fun result => { result with lost := result.lost + 1 })
  else poller

/-- **The runs nobody holds a handle of**, gone through after the polls. -/
def reconcileUntracked (poller : Poller) : Poller :=
  (poller.liveBatch answers).foldl reconcileOne poller

/-! ## A tick -/

/-- The runs one tick polls. -/
def pollBatch (poller : Poller) : List ℕ :=
  (poller.tracked.take pollBatchSize).map (·.1)

/-- **One pass**: drain every tracked run, then account for the ones we
cannot. -/
def tick (poller : Poller) : Poller :=
  let poller := enforceDeadlines answers { poller with result := {} }
  let poller := poller.pollBatch.foldl
    (fun poller runId => pollOne validator answers runId poller) poller
  reconcileUntracked answers poller

end Tick

/-! ## The steps of a tick -/

/-- One step of a tick: the deadlines of all live runs, the poll of one tracked run, or
the pass over runs nobody tracks. -/
inductive Step (Candidate : Type*) where
  | deadlines (answers : PollAnswers Candidate)
  | poll (answers : PollAnswers Candidate) (runId : ℕ)
  | reconcile (answers : PollAnswers Candidate)

section Steps

variable {Candidate : Type*} (validator : RunEventValidator Candidate)

/-- What a step does. -/
def step (poller : Poller) : Step Candidate → Poller
  | .deadlines answers =>
    enforceDeadlines answers { poller with result := {} }
  | .poll answers runId => pollOne validator answers runId poller
  | .reconcile answers => reconcileUntracked answers poller

/-- The steps a tick makes. -/
def tickSteps (poller : Poller) (answers : PollAnswers Candidate) :
    List (Step Candidate) :=
  .deadlines answers ::
    (step validator poller (.deadlines answers)).pollBatch.map
      (.poll answers) ++ [.reconcile answers]

/-- **A tick is the run of its steps.** -/
theorem tick_eq_run (poller : Poller) (answers : PollAnswers Candidate) :
    tick validator answers poller
      = Machine.run (step validator) poller
          (tickSteps validator poller answers) := by
  rw [tickSteps, List.cons_append, Machine.run_cons, Machine.run_append]
  rw [Machine.run_cons, Machine.run_nil, Machine.run, List.foldl_map]
  rfl

/-- The answers around a step. -/
def Step.answers : Step Candidate → PollAnswers Candidate
  | .deadlines answers | .poll answers _ | .reconcile answers => answers

variable {validator} {poller : Poller}

theorem answers_of_mem_tickSteps {answers : PollAnswers Candidate}
    {i : Step Candidate} (h : i ∈ tickSteps validator poller answers) :
    i.answers = answers := by
  obtain h | h := List.mem_append.mp h
  · obtain rfl | h := List.mem_cons.mp h
    · rfl
    · obtain ⟨other, -, rfl⟩ := List.mem_map.mp h
      rfl
  · rw [List.mem_singleton.mp h]
    rfl

end Steps

/-! ## Other runs -/

section Frame

variable {poller : Poller} {runId other : ℕ} {reason : String}

/-- An update of rows with one key leaves the row with another. -/
theorem find_modify_other {p : WatchedRun → Bool}
    {f : WatchedRun → WatchedRun}
    (hkey : ∀ watched, Keyed.key (f watched) = Keyed.key watched)
    (hp : ∀ watched, p watched = true → watched.record.run.id = other)
    (h : other ≠ runId) :
    (poller.table.modify p f hkey).find runId = poller.table.find runId := by
  rw [Table.find_modify]
  cases hfind : poller.table.find runId with
  | none => rfl
  | some watched =>
    have hid : watched.record.run.id = runId := (Table.find_eq_some.mp hfind).2
    rw [Option.map_some, if_neg]
    exact fun hwatched => h ((hp watched hwatched).symm.trans hid)

theorem find_record_other (h : other ≠ runId) :
    (record other reason poller).table.find runId
      = poller.table.find runId :=
  find_modify_other (WatchedRun.key_attention reason)
    (fun _ hp => beq_iff_eq.mp (Bool.and_eq_true_iff.mp hp).1) h

theorem find_markLost_other (h : other ≠ runId) :
    (markLost other poller).table.find runId = poller.table.find runId :=
  find_modify_other WatchedRun.key_lose
    (fun _ hp => beq_iff_eq.mp (Bool.and_eq_true_iff.mp hp).1) h

theorem find_storeRecord_other {stored : RunRecord} (h : other ≠ runId) :
    (storeRecord other stored poller).table.find runId
      = poller.table.find runId :=
  find_modify_other (WatchedRun.key_ingested stored)
    (fun _ hp => beq_iff_eq.mp hp) h

variable {Candidate : Type*} {validator : RunEventValidator Candidate}
  {answers : PollAnswers Candidate}

theorem table_raiseOverrun {outcome : String} :
    (raiseOverrun answers other outcome poller).table = poller.table := by
  unfold raiseOverrun
  dsimp only
  split <;> rfl

theorem find_enforceBudget_other {runIsLive : Bool} (h : other ≠ runId) :
    (enforceBudget answers other runIsLive poller).table.find runId
      = poller.table.find runId := by
  unfold enforceBudget
  split
  · rfl
  · split
    · rfl
    · split
      · rfl
      · rw [table_raiseOverrun, find_record_other h, find_record_other h]
        rfl

theorem find_heed_other {status : RunnerRunStatus} (h : other ≠ runId) :
    (heed other status poller).table.find runId = poller.table.find runId := by
  cases status with
  | unknown => exact find_markLost_other h
  | _ => rfl

/-- **Polling one run leaves the row of another.** -/
theorem find_pollOne_other (h : other ≠ runId) :
    (pollOne validator answers other poller).table.find runId
      = poller.table.find runId := by
  unfold pollOne
  split
  · rfl
  · simp only
    split
    · rw [find_heed_other h]
      rfl
    · unfold ingestPolled
      split
      · rfl
      · split
        · show (storeRecord _ _ _).table.find runId = _
          rw [find_storeRecord_other h]
          rfl
        · rw [find_heed_other h, find_enforceBudget_other h]
          show (storeRecord _ _ _).table.find runId = _
          rw [find_storeRecord_other h]
          rfl

/-! ## What a part of a tick does not touch -/

variable {β : Type*} {view : Poller → β}

/-- A deadline writes a reason and the marker that it was enforced. -/
theorem view_enforceDeadline
    (hrecord : ∀ runId reason poller,
      view (record runId reason poller) = view poller)
    (hmarker : ∀ (poller : Poller) (ids : List ℕ) (result : PollTickResult),
      view { poller with deadlineEnforced := ids, result := result }
        = view poller) {watched : WatchedRun} :
    view (enforceDeadline answers poller watched) = view poller := by
  unfold enforceDeadline cancelForDeadline
  split
  · rfl
  · simp only
    split
    · split
      · rw [hrecord, hrecord]
        exact hmarker poller _ _
      · rw [hrecord, hrecord]
        exact hmarker poller _ _
    · rw [hrecord]
      exact hmarker poller _ _

theorem view_enforceDeadlines
    (hrecord : ∀ runId reason poller,
      view (record runId reason poller) = view poller)
    (hmarker : ∀ (poller : Poller) (ids : List ℕ) (result : PollTickResult),
      view { poller with deadlineEnforced := ids, result := result }
        = view poller) :
    view (enforceDeadlines answers poller) = view poller := by
  unfold enforceDeadlines
  generalize poller.deadlineCandidates = candidates
  induction candidates generalizing poller with
  | nil => rfl
  | cons watched candidates ih =>
    rw [List.foldl_cons, ih, view_enforceDeadline hrecord hmarker]

/-- A pass over the live runs marks the ones it reports. -/
theorem view_reconcileUntracked
    (hmark : ∀ runId poller, view (markLost runId poller) = view poller)
    (hcount : ∀ (poller : Poller) (result : PollTickResult),
      view { poller with result := result } = view poller) :
    view (reconcileUntracked answers poller) = view poller := by
  unfold reconcileUntracked
  generalize poller.liveBatch answers = rows
  induction rows generalizing poller with
  | nil => rfl
  | cons watched rows ih =>
    rw [List.foldl_cons, ih]
    unfold reconcileOne
    split
    · rw [hmark]
      exact hcount poller _
    · rfl

/-- A budget writes reasons, the marker that it was enforced and an
escalation. -/
theorem view_enforceBudget
    (hrecord : ∀ runId reason poller,
      view (record runId reason poller) = view poller)
    (hmarker : ∀ (poller : Poller) (ids : List ℕ) (result : PollTickResult)
      (escalations : Table EscalationRow),
      view { poller with
        budgetEnforced := ids, result := result, escalations := escalations }
        = view poller) {runIsLive : Bool} :
    view (enforceBudget answers other runIsLive poller) = view poller := by
  have hraise : ∀ (runId : ℕ) (outcome : String) (poller : Poller),
      view (raiseOverrun answers runId outcome poller) = view poller := by
    intro runId outcome poller
    unfold raiseOverrun
    dsimp only
    split
    · exact hmarker poller poller.budgetEnforced poller.result _
    · exact hmarker poller poller.budgetEnforced _ _
  unfold enforceBudget
  split
  · rfl
  · split
    · rfl
    · split
      · rfl
      · rw [hraise, hrecord, hrecord]
        exact hmarker poller _ _ poller.escalations

/-- What the row of a run says, if it is there. -/
def column (g : WatchedRun → β) (runId : ℕ) (poller : Poller) : Option β :=
  (poller.table.find runId).map g

/-- A write that leaves the column of the rows it finds leaves it. -/
theorem column_modify {g : WatchedRun → β} {p : WatchedRun → Bool}
    {f : WatchedRun → WatchedRun}
    (hkey : ∀ watched, Keyed.key (f watched) = Keyed.key watched)
    (hf : ∀ watched ∈ poller.table.rows, p watched = true →
      g (f watched) = g watched) :
    column g runId { poller with table := poller.table.modify p f hkey }
      = column g runId poller := by
  show ((poller.table.modify p f hkey).find runId).map g = _
  rw [Table.find_modify, column]
  cases hfind : poller.table.find runId with
  | none => rfl
  | some watched =>
    rw [Option.map_some, Option.map_some, Option.map_some]
    split_ifs with hp
    · rw [hf watched (Table.find_eq_some.mp hfind).1 hp]
    · rfl

end Frame

end Poller

end Opifex
