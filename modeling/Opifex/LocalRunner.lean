import Opifex.StreamJsonMapper

/-!
# One run of the local runner

The runner supervises a process. Its lines become events as they arrive, its
exit becomes the one terminal event, and `poll` hands out whatever has been
queued since the last poll and keeps no copy. The exit decides how the run
ended; what the CLI said about itself only supplies the cost.
-/

namespace Opifex

/-- How a process ended: by itself with a code, by a signal, or it was never started. -/
inductive ProcessOutcome where
  | exited (exitCode : ℤ)
  | signalled (signal : String)
  | spawnFailed (message : String)
deriving DecidableEq

/-- What the runner takes from around it when something happens: the clock, and the
identifier that an event is given. -/
structure Moment where
  now : Instant
  /-- The next random identifier. -/
  randomId : String
  /-- `key@version`, or the key before the version was observed. -/
  runnerTag : String

/-- What happens to a run the runner supervises: output, the end of the process, an
order to cancel, or the timer. -/
inductive RunnerInput where
  /-- A line of output; null when it was not JSON. -/
  | line (parsed : Option JsonValue) (moment : Moment)
  | exit (outcome : ProcessOutcome) (stderr : String) (moment : Moment)
  | cancel
  /-- The wall clock of the runner itself. -/
  | deadline

/-- A run of the local runner: its handle and its process, what has been observed and
not yet polled, and how far the stream has been read. -/
structure LocalRun where
  handle : RunHandle
  runId : ℕ
  /-- Of the work order. -/
  identity : String
  branch : String
  /-- The command that was spawned. -/
  binary : String
  pending : List RunnerEvent
  pendingQuota : List RunnerQuotaObservation
  linesObserved : ℕ
  settled : Bool
  parseFailures : ℕ
  cliResult : Option StreamResult
  /-- The supervised process's, once it has ended. -/
  outcome : Option ProcessOutcome
  cancelRequested : Bool
  timedOut : Bool
  deadlineMinutes : Option ℤ
  finishedAt : Option Instant

namespace LocalRun

/-- An event the runner itself observed. -/
def event (run : LocalRun) (moment : Moment) (type : RunEventType) :
    RunnerEvent where
  eventId := moment.randomId
  runId := run.runId
  workOrderId := run.identity
  type := type
  occurredAt := moment.now
  runner := moment.runnerTag

/-- An event to be polled. -/
def push (event : RunnerEvent) (run : LocalRun) : LocalRun :=
  { run with pending := run.pending ++ [event] }

/-! ## A line -/

/-- The mapper's context for a line. -/
def context (run : LocalRun) (moment : Moment) : MapperContext where
  runId := run.runId
  workOrderId := run.identity
  runnerKey := moment.runnerTag
  receivedAt := moment.now
  randomId := moment.randomId

/-- What a mapping does to the run. -/
def apply (mapping : StreamMapping) (run : LocalRun) : LocalRun :=
  match mapping with
  | .event event quota =>
    { run.push event with
      pendingQuota := run.pendingQuota ++ quota.toList }
  | .quota quota => { run with pendingQuota := run.pendingQuota ++ [quota] }
  -- recorded, not emitted: the exit code decides how the run ended
  | .result result => { run with cliResult := some result }
  | .drop _ => run

/-- One line, parsed and mapped. Nothing here may end the run. -/
def consumeLine (env : MapperEnv) (parsed : Option JsonValue) (moment : Moment)
    (run : LocalRun) : LocalRun :=
  let run := { run with linesObserved := run.linesObserved + 1 }
  match parsed with
  | none => { run with parseFailures := run.parseFailures + 1 }
  | some line =>
    match env.mapStreamLine line (run.context moment) with
    | .ok mapping => run.apply mapping
    -- the supervisor reports what its listener throws
    | .error _ => run

/-! ## The exit -/

/-- What the run cost, when the CLI said. -/
def costOf (run : LocalRun) : Option ReportedCost :=
  run.cliResult.bind fun result =>
    let cost : ReportedCost :=
      ⟨result.costUsd, result.tokensInput, result.tokensOutput⟩
    if cost = ⟨none, none, none⟩ then none else some cost

/-- What a run that ended without a result says of its output. -/
def observed (run : LocalRun) : String :=
  toString run.linesObserved ++ " output line(s)"

/-- A completion line worth reading in a timeline. -/
def completionSummary (run : LocalRun) : String :=
  let denials := (run.cliResult.map (·.permissionDenials)).getD 0
  ", ".intercalate
    ([run.identity ++ " exited cleanly after " ++ run.observed] ++
      (if 0 < denials then [toString denials ++ " permission denial(s)"]
        else []) ++
      (if 0 < run.parseFailures then
        [toString run.parseFailures ++ " unparseable line(s)"] else []))

/-- The last line of the error output, if it has one. -/
def stderrDetail (stderr : String) : String :=
  let lines := ((Text.trim stderr).toList.splitOn '\n').map String.ofList
  ((lines.filter Text.truthy).getLast?.map (": " ++ ·)).getD ""

/-- Why the process ended, in a sentence: it did not start, it was signalled, or it
exited. A signal is told apart by what was asked of it. -/
def failureReason (run : LocalRun) (outcome : ProcessOutcome)
    (stderr : String) : String :=
  match outcome with
  | .spawnFailed message =>
    "could not start " ++ run.binary ++ ": " ++ message
  | .signalled signal =>
    -- a timeout and a cancel both arrive as a signal we sent
    if run.timedOut then
      "exceeded its wall-clock ceiling of " ++
        (run.deadlineMinutes.map toString).getD "undefined" ++ " minute(s)"
    else if run.cancelRequested then
      "cancelled (" ++ signal ++ ")" ++ stderrDetail stderr
    else "killed by " ++ signal ++ stderrDetail stderr
  | .exited exitCode => "exit " ++ toString exitCode ++ stderrDetail stderr

/-- Worth repeating as it is: not what something decided to stop, and not
what never started. -/
def isRetryable (run : LocalRun) (outcome : ProcessOutcome) : Bool :=
  run.timedOut || (!run.cancelRequested &&
    match outcome with
    | .spawnFailed _ => false
    | _ => true)

/-- The run's terminal event. -/
def terminalEvent (run : LocalRun) (outcome : ProcessOutcome)
    (stderr : String) (moment : Moment) : RunnerEvent :=
  if outcome = .exited 0 then
    { run.event moment .completed with
      summary := some run.completionSummary
      branch := some run.branch
      cost := run.costOf }
  else
    { run.event moment .failed with
      summary := some (run.identity ++ " ended after " ++ run.observed)
      cost := run.costOf
      failure :=
        some ⟨run.failureReason outcome stderr,
          some (run.isRetryable outcome)⟩ }

/-- Turn the process's ending into the run's terminal event, once. -/
def settle (outcome : ProcessOutcome) (stderr : String) (moment : Moment)
    (run : LocalRun) : LocalRun :=
  if run.settled then run
  else
    ({ run with settled := true, finishedAt := some moment.now }).push
      (run.terminalEvent outcome stderr moment)

/-- The process ends. Its first outcome is the outcome. -/
def exit (outcome : ProcessOutcome) (stderr : String) (moment : Moment)
    (run : LocalRun) : LocalRun :=
  if run.outcome.isSome then run
  else { run with outcome := some outcome }.settle outcome stderr moment

/-- Something happens to the run. -/
def observe (env : MapperEnv) (run : LocalRun) : RunnerInput → LocalRun
  | .line parsed moment => run.consumeLine env parsed moment
  | .exit outcome stderr moment => run.exit outcome stderr moment
  | .cancel => { run with cancelRequested := true }
  | .deadline =>
    if run.outcome.isSome then run else { run with timedOut := true }

/-! ## Polling -/

/-- Status comes from the child's exit, not from what it says of itself. -/
def statusOf (run : LocalRun) : RunnerRunStatus :=
  match run.outcome with
  | none => .running
  | some outcome => if outcome = .exited 0 then .succeeded else .failed

/-- What a poll returns. -/
def pollResult (run : LocalRun) : RunPollResult RunnerEvent where
  status := run.statusOf
  events := run.pending
  quota := run.pendingQuota

/-- What a poll leaves: `pending.splice(0)`. -/
def drained (run : LocalRun) : LocalRun :=
  { run with pending := [], pendingQuota := [] }

/-! ## What queues an event -/

variable {env : MapperEnv} {run : LocalRun} {input : RunnerInput}

/-- Whatever happens only adds to the queue. -/
theorem pending_observe :
    ∃ queued, (run.observe env input).pending = run.pending ++ queued := by
  cases input with
  | line parsed moment =>
    show ∃ queued, (run.consumeLine env parsed moment).pending = _
    unfold consumeLine
    cases parsed with
    | none => exact ⟨[], (List.append_nil _).symm⟩
    | some line =>
      simp only
      split
      · rename_i mapping hmapping
        cases mapping with
        | event event quota => exact ⟨[event], rfl⟩
        | result result => exact ⟨[], (List.append_nil _).symm⟩
        | quota quota => exact ⟨[], (List.append_nil _).symm⟩
        | drop reason => exact ⟨[], (List.append_nil _).symm⟩
      · exact ⟨[], (List.append_nil _).symm⟩
  | exit outcome stderr moment =>
    show ∃ queued, (run.exit outcome stderr moment).pending = _
    unfold exit settle
    split
    · exact ⟨[], (List.append_nil _).symm⟩
    · split
      · exact ⟨[], (List.append_nil _).symm⟩
      · exact ⟨[_], rfl⟩
  | cancel => exact ⟨[], (List.append_nil _).symm⟩
  | deadline =>
    by_cases hended : run.outcome.isSome = true
    · rw [observe, if_pos hended]
      exact ⟨[], (List.append_nil _).symm⟩
    · rw [observe, if_neg hended]
      exact ⟨[], (List.append_nil _).symm⟩

theorem runId_observe : (run.observe env input).runId = run.runId := by
  cases input with
  | line parsed moment =>
    show (run.consumeLine env parsed moment).runId = _
    unfold consumeLine
    cases parsed with
    | none => rfl
    | some line =>
      simp only
      split
      · rename_i mapping hmapping
        cases mapping <;> rfl
      · rfl
  | exit outcome stderr moment =>
    show (run.exit outcome stderr moment).runId = _
    unfold exit settle
    split
    · rfl
    · split <;> rfl
  | cancel => rfl
  | deadline =>
    by_cases hended : run.outcome.isSome = true
    · rw [observe, if_pos hended]
    · rw [observe, if_neg hended]

/-- A process that ended was settled with a terminal event. -/
theorem settled_exit {outcome : ProcessOutcome} {stderr : String}
    {moment : Moment} (houtcome : run.outcome = none)
    (hsettled : run.settled = false) :
    ∃ terminal : RunnerEvent, terminal.type.isTerminal = true ∧
      (run.exit outcome stderr moment).pending = run.pending ++ [terminal] := by
  refine ⟨({ run with outcome := some outcome }).terminalEvent outcome stderr
    moment, ?_, ?_⟩
  · unfold terminalEvent
    split
    · rfl
    · rfl
  · unfold exit settle
    rw [houtcome, Option.isSome_none, if_neg Bool.false_ne_true, hsettled,
      if_neg Bool.false_ne_true]
    rfl

theorem outcome_exit {outcome : ProcessOutcome} {stderr : String}
    {moment : Moment} (h : run.outcome = none) :
    (run.exit outcome stderr moment).outcome = some outcome := by
  unfold exit settle
  rw [h, Option.isSome_none, if_neg Bool.false_ne_true]
  split <;> rfl

/-- A line neither ends nor settles a run. -/
theorem outcome_consumeLine {parsed : Option JsonValue} {moment : Moment} :
    (run.consumeLine env parsed moment).outcome = run.outcome ∧
      (run.consumeLine env parsed moment).settled = run.settled := by
  unfold consumeLine
  cases parsed with
  | none => exact ⟨rfl, rfl⟩
  | some line =>
    simp only
    split
    · rename_i mapping hmapping
      cases mapping <;> exact ⟨rfl, rfl⟩
    · exact ⟨rfl, rfl⟩

/-- An outcome is never taken back. -/
theorem outcome_of_observe (h : (run.observe env input).outcome = none) :
    run.outcome = none := by
  cases input with
  | line parsed moment => exact outcome_consumeLine.1.symm.trans h
  | exit outcome stderr moment =>
    by_contra hended
    have hsome : run.outcome.isSome = true :=
      Option.isSome_iff_ne_none.mpr hended
    rw [observe, exit, if_pos hsome] at h
    exact hended h
  | cancel => exact h
  | deadline =>
    by_contra hended
    have hsome : run.outcome.isSome = true :=
      Option.isSome_iff_ne_none.mpr hended
    rw [observe, if_pos hsome] at h
    exact hended h

/-- **A run whose process is up either goes on or is settled**: what does not
end it leaves it open, and what ends it queues its ending. -/
theorem observe_open (houtcome : run.outcome = none)
    (hsettled : run.settled = false) :
    ((run.observe env input).outcome = none ∧
        (run.observe env input).settled = false) ∨
      ((run.observe env input).outcome ≠ none ∧
        ∃ event ∈ (run.observe env input).pending,
          event.type.isTerminal = true) := by
  cases input with
  | line parsed moment =>
    obtain ⟨houtcome', hsettled'⟩ :=
      @outcome_consumeLine env run parsed moment
    exact Or.inl ⟨houtcome'.trans houtcome, hsettled'.trans hsettled⟩
  | exit outcome stderr moment =>
    obtain ⟨terminal, hterminal, hpending⟩ :=
      @settled_exit run outcome stderr moment houtcome hsettled
    refine Or.inr ⟨?_, terminal, ?_, hterminal⟩
    · rw [observe, outcome_exit houtcome]
      exact Option.some_ne_none outcome
    · rw [observe, hpending]
      exact List.mem_append_right _ List.mem_cons_self
  | cancel => exact Or.inl ⟨houtcome, hsettled⟩
  | deadline =>
    have hup : ¬ run.outcome.isSome = true := by
      rw [houtcome]
      exact Bool.false_ne_true
    rw [observe, if_neg hup]
    exact Or.inl ⟨houtcome, hsettled⟩

end LocalRun

/-! ## A run to look at -/

/-- A run that was just submitted. -/
def submittedRun : LocalRun where
  handle := ⟨⟨"claude-code-local", RunnerKey.keyShape_claudeCodeLocal⟩, "wo_app_7_a3f91c2_a1:1",
    "wo_app_7_a3f91c2_a1"⟩
  runId := 1
  identity := "wo_app_7_a3f91c2_a1"
  branch := "factory/7-a1"
  binary := "claude"
  pending :=
    [{ eventId := "s1"
       runId := 1
       workOrderId := "wo_app_7_a3f91c2_a1"
       type := .started
       occurredAt := 1785660000000
       runner := "claude-code-local" }]
  pendingQuota := []
  linesObserved := 0
  settled := false
  parseFailures := 0
  cliResult := none
  outcome := none
  cancelRequested := false
  timedOut := false
  deadlineMinutes := none
  finishedAt := none

/-- Lines without timestamps and numbers leave the library nothing to do. -/
def plainEnv : MapperEnv where
  readDate := fun _ => none
  numberText := fun _ => "0"
  sha256Hex := id

/-- A validator that lets every event through. -/
def anyFits : RunnerEvent → Except (List ValidationFailure) Unit :=
  fun _ => .ok ()

end Opifex
