import Opifex.Lib.Grouping
import Opifex.Lib.InstantOrder
import Opifex.LocalRunner
import Opifex.RunExecutor

/-!
# The local runner

The runner keeps its runs in memory, each under the identity of its work
order, and a run that ended stays until its ending was collected and its
retention is over. A submit drops the runs that need not stay, looks for a run
of its identity, counts the live ones, and then waits for a workspace; only
after that it starts a process and puts the run into the map.

What happens to a process happens to the run its closures hold. That run is
the one in the map unless another submit has put its own in the place.
-/

namespace Opifex

/-! ## What a line makes -/

namespace StreamMapping

/-- The event a mapping queues, if it queues one. -/
def event? : StreamMapping → Option RunnerEvent
  | .event queued _ => some queued
  | _ => none

/-- The sighting of a quota window in a mapping. -/
def quota? : StreamMapping → Option RunnerQuotaObservation
  | .event _ sighting => sighting
  | .quota sighting => some sighting
  | _ => none

end StreamMapping

namespace MapperEnv

variable {env : MapperEnv} {line : JsonValue} {context : MapperContext}
  {mapping : StreamMapping} {event : RunnerEvent}

theorem runId_mapAssistant
    (h : (env.mapAssistant line context).event? = some event) :
    event.runId = context.runId := by
  unfold mapAssistant at h
  dsimp only at h
  split at h
  · exact (Option.some.inj h) ▸ rfl
  · split at h
    · exact (Option.some.inj h) ▸ rfl
    · split_ifs at h
      · exact (Option.some.inj h) ▸ rfl
      · exact absurd h.symm (Option.some_ne_none event)

theorem quota?_mapAssistant :
    (env.mapAssistant line context).quota? = none := by
  unfold mapAssistant
  dsimp only
  split
  · rfl
  · split
    · rfl
    · split <;> rfl

theorem runId_mapUser (h : (env.mapUser line context).event? = some event) :
    event.runId = context.runId := by
  unfold mapUser at h
  split at h
  · exact absurd h.symm (Option.some_ne_none event)
  · exact (Option.some.inj h) ▸ rfl

theorem quota?_mapUser : (env.mapUser line context).quota? = none := by
  unfold mapUser
  split <;> rfl

theorem runId_mapSystem
    (h : (env.mapSystem line context).event? = some event) :
    event.runId = context.runId := by
  unfold mapSystem at h
  split at h
  · exact (Option.some.inj h) ▸ rfl
  · exact (Option.some.inj h) ▸ rfl
  · exact absurd h.symm (Option.some_ne_none event)

theorem quota?_mapSystem : (env.mapSystem line context).quota? = none := by
  unfold mapSystem
  split <;> rfl

/-- A reset that is read is one a `Date` can hold. -/
theorem isDate_resetAt {info : JsonValue} {date : Instant}
    (h : resetAt info = .ok (some date)) : Instant.IsDate date := by
  unfold resetAt at h
  split at h
  · cases h
  · rename_i seconds hseconds
    split_ifs at h with hpast hfar
    · cases h
    · have hms : ⌊seconds * 1000⌋ = date := Option.some.inj (Except.ok.inj h)
      have hpos : (0 : ℤ) ≤ ⌊seconds * 1000⌋ :=
        Int.floor_nonneg.mpr (mul_nonneg (not_le.mp hpast).le (by norm_num))
      have hmax : ⌊seconds * 1000⌋ ≤ (8640000000000000 : ℤ) := by
        rw [← Int.cast_le (R := ℚ)]
        exact (Int.floor_le _).trans (not_lt.mp hfar)
      rw [← hms]
      exact ⟨le_trans (by norm_num) hpos, hmax⟩

/-- The sighting a runner reports of a window: it is the runner's, and its
reset is a date. -/
def Sighted (tag : String) (quota : RunnerQuotaObservation) : Prop :=
  quota.runnerKey = tag ∧ Instant.IsDate quota.resetsAt

theorem mapRateLimit_eq_ok (hok : env.mapRateLimit line context = .ok mapping) :
    (∀ event, mapping.event? = some event → event.runId = context.runId) ∧
      ∀ quota, mapping.quota? = some quota →
        Sighted context.runnerKey quota := by
  unfold mapRateLimit at hok
  split at hok
  · cases hok
    exact ⟨fun _ h => absurd h.symm (Option.some_ne_none _),
      fun _ h => absurd h.symm (Option.some_ne_none _)⟩
  · rename_i info hinfo
    cases hresets : resetAt info with
    | error message =>
      rw [hresets] at hok
      cases hok
    | ok resets =>
      rw [hresets] at hok
      have hkey : ∀ {status : String} {quota : RunnerQuotaObservation},
          quotaObservation info status resets context = some quota →
            Sighted context.runnerKey quota := by
        intro status quota hquota
        obtain ⟨date, rfl, rfl⟩ := Option.map_eq_some_iff.mp hquota
        exact ⟨rfl, isDate_resetAt hresets⟩
      simp only [bind, Except.bind] at hok
      split at hok
      · split at hok
        · rename_i quota hquota
          cases hok
          refine ⟨fun _ h => absurd h.symm (Option.some_ne_none _), ?_⟩
          intro other hother
          rw [← Option.some.inj hother]
          exact hkey hquota
        · cases hok
          exact ⟨fun _ h => absurd h.symm (Option.some_ne_none _),
            fun _ h => absurd h.symm (Option.some_ne_none _)⟩
      · cases hok
        exact ⟨fun _ h => (Option.some.inj h) ▸ rfl, fun _ h => hkey h⟩

/-- A line's event is of the run it was mapped for, and its sighting of the
runner. -/
theorem mapStreamLine_eq_ok
    (hok : env.mapStreamLine line context = .ok mapping) :
    (∀ event, mapping.event? = some event → event.runId = context.runId) ∧
      ∀ quota, mapping.quota? = some quota →
        Sighted context.runnerKey quota := by
  have hnone : ∀ {mapping : StreamMapping}, mapping.event? = none →
      mapping.quota? = none → (∀ event, mapping.event? = some event →
          event.runId = context.runId) ∧
        ∀ quota, mapping.quota? = some quota →
          Sighted context.runnerKey quota := by
    intro mapping hevent hquota
    rw [hevent, hquota]
    exact ⟨fun _ h => absurd h.symm (Option.some_ne_none _),
      fun _ h => absurd h.symm (Option.some_ne_none _)⟩
  unfold mapStreamLine at hok
  split at hok
  · cases hok
    exact hnone rfl rfl
  · cases hok
    refine ⟨fun _ h => runId_mapAssistant h, fun _ h => ?_⟩
    rw [quota?_mapAssistant] at h
    exact absurd h.symm (Option.some_ne_none _)
  · cases hok
    refine ⟨fun _ h => runId_mapUser h, fun _ h => ?_⟩
    rw [quota?_mapUser] at h
    exact absurd h.symm (Option.some_ne_none _)
  · exact mapRateLimit_eq_ok hok
  · cases hok
    exact hnone rfl rfl
  · cases hok
    refine ⟨fun _ h => runId_mapSystem h, fun _ h => ?_⟩
    rw [quota?_mapSystem] at h
    exact absurd h.symm (Option.some_ne_none _)
  · cases hok
    exact hnone rfl rfl

end MapperEnv

/-! ## One run -/

namespace LocalRun

variable {env : MapperEnv} {run : LocalRun} {input : RunnerInput}

/-- Every event that is queued is of the run. -/
def Own (run : LocalRun) : Prop :=
  ∀ event ∈ run.pending, event.runId = run.runId

/-- A run that is finished has ended. -/
def EndsFinished (run : LocalRun) : Prop :=
  run.finishedAt ≠ none → run.outcome ≠ none

/-- What a line queues. -/
theorem consumeLine_cases (parsed : Option JsonValue) (moment : Moment) :
    (run.consumeLine env parsed moment).pending = run.pending ∧
        (run.consumeLine env parsed moment).pendingQuota = run.pendingQuota ∨
      ∃ line mapping, parsed = some line ∧
        env.mapStreamLine line (run.context moment) = .ok mapping ∧
        (run.consumeLine env parsed moment).pending
          = run.pending ++ mapping.event?.toList ∧
        (run.consumeLine env parsed moment).pendingQuota
          = run.pendingQuota ++ mapping.quota?.toList := by
  unfold consumeLine
  cases parsed with
  | none => exact Or.inl ⟨rfl, rfl⟩
  | some line =>
    dsimp only
    split
    · rename_i mapping hmapping
      refine Or.inr ⟨line, mapping, rfl, hmapping, ?_⟩
      cases mapping with
      | event event quota => exact ⟨rfl, rfl⟩
      | result result =>
        exact ⟨(List.append_nil _).symm, (List.append_nil _).symm⟩
      | quota quota => exact ⟨(List.append_nil _).symm, rfl⟩
      | drop reason =>
        exact ⟨(List.append_nil _).symm, (List.append_nil _).symm⟩
    · exact Or.inl ⟨rfl, rfl⟩

/-- A line leaves what it does not queue. -/
theorem consumeLine_static (parsed : Option JsonValue) (moment : Moment) :
    (run.consumeLine env parsed moment).handle = run.handle ∧
      (run.consumeLine env parsed moment).identity = run.identity ∧
      (run.consumeLine env parsed moment).finishedAt = run.finishedAt := by
  unfold consumeLine
  cases parsed with
  | none => exact ⟨rfl, rfl, rfl⟩
  | some line =>
    dsimp only
    split
    · rename_i mapping hmapping
      cases mapping <;> exact ⟨rfl, rfl, rfl⟩
    · exact ⟨rfl, rfl, rfl⟩

/-- What a run was started with does not change. -/
theorem observe_static :
    (run.observe env input).handle = run.handle ∧
      (run.observe env input).identity = run.identity := by
  cases input with
  | line parsed moment =>
    obtain ⟨hhandle, hidentity, -⟩ :=
      @consumeLine_static env run parsed moment
    exact ⟨hhandle, hidentity⟩
  | exit outcome stderr moment =>
    show (run.exit outcome stderr moment).handle = _ ∧
      (run.exit outcome stderr moment).identity = _
    unfold exit settle
    split
    · exact ⟨rfl, rfl⟩
    · split <;> exact ⟨rfl, rfl⟩
  | cancel => exact ⟨rfl, rfl⟩
  | deadline =>
    rw [observe]
    split <;> exact ⟨rfl, rfl⟩

theorem own_append {event : RunnerEvent} (h : run.Own)
    (hevent : event.runId = run.runId) :
    ∀ other ∈ run.pending ++ [event], other.runId = run.runId := by
  intro other hother
  obtain hother | hother := List.mem_append.mp hother
  · exact h other hother
  · rw [List.mem_singleton.mp hother]
    exact hevent

theorem Own.observe (h : run.Own) : (run.observe env input).Own := by
  show ∀ event ∈ (run.observe env input).pending, _
  rw [runId_observe]
  cases input with
  | line parsed moment =>
    show ∀ event ∈ (run.consumeLine env parsed moment).pending, _
    obtain ⟨hpending, -⟩ | ⟨line, mapping, -, hmapping, hpending, -⟩ :=
      @consumeLine_cases env run parsed moment
    · rw [hpending]
      exact h
    · rw [hpending]
      cases hevent : mapping.event? with
      | none =>
        rw [Option.toList_none, List.append_nil]
        exact h
      | some event =>
        exact own_append h
          ((MapperEnv.mapStreamLine_eq_ok hmapping).1 event hevent)
  | exit outcome stderr moment =>
    show ∀ event ∈ (run.exit outcome stderr moment).pending, _
    unfold exit settle
    split
    · exact h
    · split
      · exact h
      · refine own_append h ?_
        unfold terminalEvent
        split <;> rfl
  | cancel => exact h
  | deadline =>
    rw [LocalRun.observe]
    split <;> exact h

theorem EndsFinished.observe (h : run.EndsFinished) :
    (run.observe env input).EndsFinished := by
  cases input with
  | line parsed moment =>
    show (run.consumeLine env parsed moment).finishedAt ≠ none →
      (run.consumeLine env parsed moment).outcome ≠ none
    rw [(consumeLine_static parsed moment).2.2, outcome_consumeLine.1]
    exact h
  | exit outcome stderr moment =>
    intro _
    show (run.exit outcome stderr moment).outcome ≠ none
    by_cases hended : run.outcome = none
    · rw [outcome_exit hended]
      exact Option.some_ne_none outcome
    · rw [exit, if_pos (Option.isSome_iff_ne_none.mpr hended)]
      exact hended
  | cancel => exact h
  | deadline =>
    rw [LocalRun.observe]
    split <;> exact h

end LocalRun

/-! ## The runs a runner keeps -/

/-- A finished run is kept this long, for its ending to be collected. -/
def finishedRunRetentionMs : ℤ := 15 * 60000

/-- **A run, and the process that was started for it.** The fields that are proofs say
that the handle is of the run's own identity, that the events it has queued are its own,
and that a run that is finished has an outcome. -/
structure StartedRun where
  id : ℕ
  run : LocalRun
  named : run.handle.workOrderIdentity = run.identity
  own : run.Own
  finished : run.EndsFinished

instance : Keyed StartedRun := ⟨StartedRun.id⟩

namespace StartedRun

/-- The process has not ended. -/
def isAlive (started : StartedRun) : Bool :=
  started.run.outcome.isNone

/-- Something happens to the run. -/
def observe (env : MapperEnv) (input : RunnerInput) (started : StartedRun) :
    StartedRun where
  id := started.id
  run := started.run.observe env input
  named := by
    obtain ⟨hhandle, hidentity⟩ :=
      @LocalRun.observe_static env started.run input
    rw [hhandle, hidentity]
    exact started.named
  own := started.own.observe
  finished := started.finished.observe

/-- What a poll leaves. -/
def drained (started : StartedRun) : StartedRun where
  id := started.id
  run := started.run.drained
  named := started.named
  own := fun _ hevent => absurd hevent List.not_mem_nil
  finished := started.finished

/-- The run ended long enough ago, and nothing it queued is left to
collect. -/
def isReapable (now : Instant) (started : StartedRun) : Bool :=
  match started.run.finishedAt with
  | none => false
  | some finishedAt =>
    started.run.pending.isEmpty && started.run.pendingQuota.isEmpty &&
      decide (finishedAt ≤ now - finishedRunRetentionMs)

/-- Only what has ended is dropped. -/
theorem not_isAlive_of_isReapable {now : Instant} {started : StartedRun}
    (h : started.isReapable now = true) : started.isAlive = false := by
  unfold isReapable at h
  split at h
  · exact absurd h Bool.false_ne_true
  · rename_i finishedAt hfinished
    have hended : started.run.outcome ≠ none :=
      started.finished (hfinished ▸ Option.some_ne_none finishedAt)
    rw [isAlive, Option.isNone_eq_false_iff]
    exact Option.isSome_iff_ne_none.mpr hended

end StartedRun

/-- The settings a submit reads: the program to start, how many of its processes may be
alive, the timeout of work orders without one, and the model for each tier. -/
structure LocalRunnerSettings where
  binary : String
  maxConcurrency : ℕ
  /-- The ceiling applied to a work order that names none. -/
  defaultTimeoutMinutes : Option ℤ
  model : ModelTier → String

/-- What a run's record says of the model it was started on. -/
def resolveModel (tier : Option ModelTier) (configured : ModelTier → String) :
    String :=
  match tier with
  | none => "the runner's own default model (no tier declared)"
  | some tier =>
    let model := Text.trim (configured tier)
    if model = "" then
      "the runner's own default model (tier '" ++ tier.name ++
        "' is configured with no model)"
    else "model " ++ model ++ " (tier '" ++ tier.name ++ "')"

/-- The minutes after which a run's own timer kills it. A ceiling that is
null, or none at all, is no ceiling. -/
def armDeadline (settings : LocalRunnerSettings) (spec : WorkOrderSpec) :
    Option ℤ :=
  match spec.wallClockTimeoutMinutes with
  | some minutes => if (minutes : ℤ) ≤ 0 then none else some minutes
  | none => settings.defaultTimeoutMinutes.filter fun minutes => 0 < minutes

/-- A submit that has passed its checks and waits for its workspace. Nothing of it is in
the map of the runs yet, so another submit's checks do not see it. -/
structure SubmitCall where
  id : ℕ
  spec : WorkOrderSpec
  /-- What it will say of its model. -/
  model : String

instance : Keyed SubmitCall := ⟨SubmitCall.id⟩

/-- **The runner's memory.** Every run that was ever started is there, for the
closures of its process, and `runs` says which of them `get` finds. -/
structure ClaudeCodeLocalRunner where
  observedVersion : Option String
  started : Table StartedRun
  runs : KeyMap String ℕ
  submitting : Table SubmitCall
  mapped : ∀ identity id, runs.get identity = some id →
    ∃ run, started.find id = some run ∧ run.run.identity = identity

/-- What a launch takes from around it: the clock, and the identifiers that the code
draws at random. -/
structure Launch where
  now : Instant
  /-- The identifier in the handle. -/
  handleId : String
  /-- The identifier of the event that says so. -/
  eventId : String

namespace ClaudeCodeLocalRunner

/-- The key of the local runner in the registry. -/
def key : RunnerKey := ⟨"claude-code-local", RunnerKey.keyShape_claudeCodeLocal⟩

/-- The process has started. -/
def boot : ClaudeCodeLocalRunner where
  observedVersion := none
  started := Table.empty
  runs := KeyMap.empty
  submitting := Table.empty
  mapped := fun _ id h => absurd h.symm (Option.some_ne_none id)

/-- `key@version`, and the bare key before the version has been observed. -/
def runnerTag (runner : ClaudeCodeLocalRunner) : String :=
  match runner.observedVersion.filter Text.truthy with
  | some version => key.val ++ "@" ++ version
  | none => key.val

/-- `runs.get`. -/
def find (identity : String) (runner : ClaudeCodeLocalRunner) :
    Option StartedRun :=
  (runner.runs.get identity).bind runner.started.find

/-- The run a handle is a handle of. -/
def held (handle : RunHandle) (runner : ClaudeCodeLocalRunner) :
    Option StartedRun :=
  (runner.find handle.workOrderIdentity).filter fun started =>
    started.run.handle.externalId == handle.externalId

/-- How many of the runs in the map are live. -/
def liveRunCount (runner : ClaudeCodeLocalRunner) : ℕ :=
  runner.runs.entries.countP fun entry =>
    (runner.started.find entry.2).any StartedRun.isAlive

/-- Something changes in one of the runs. -/
def modify (id : ℕ) (f : StartedRun → StartedRun)
    (hid : ∀ run, (f run).id = run.id)
    (hidentity : ∀ run, (f run).run.identity = run.run.identity)
    (runner : ClaudeCodeLocalRunner) : ClaudeCodeLocalRunner :=
  { runner with
    started := runner.started.modify (fun run => run.id == id) f hid
    mapped := by
      intro identity id' hget
      obtain ⟨run, hfind, hrun⟩ := runner.mapped identity id' hget
      rw [Table.find_modify, hfind]
      refine ⟨_, rfl, ?_⟩
      show (if run.id == id then f run else run).run.identity = identity
      split
      · exact (hidentity run).trans hrun
      · exact hrun }

/-! ### Submitting -/

/-- Drop runs that ended long enough ago that nothing will poll them
again. -/
def reapFinishedRuns (now : Instant) (runner : ClaudeCodeLocalRunner) :
    ClaudeCodeLocalRunner :=
  { runner with
    runs := runner.runs.filterMap fun id =>
      if (runner.started.find id).any (StartedRun.isReapable now) then none
      else some id
    mapped := by
      intro identity id hget
      rw [KeyMap.get_filterMap] at hget
      obtain ⟨id', hget, hkept⟩ := Option.bind_eq_some_iff.mp hget
      split_ifs at hkept
      exact Option.some.inj hkept ▸ runner.mapped identity id' hget }

/-- A submit, with the model it resolves to. -/
def submitCall (settings : LocalRunnerSettings) (spec : WorkOrderSpec)
    (id : ℕ) : SubmitCall :=
  ⟨id, spec, resolveModel spec.modelTier settings.model⟩

theorem key_submitCall (settings : LocalRunnerSettings) (spec : WorkOrderSpec)
    (id : ℕ) : Keyed.key (submitCall settings spec id) = id := rfl

/-- **A submit, as far as its workspace.** It returns at once where it finds a
run of its identity, and where the runner is full. -/
def submit (settings : LocalRunnerSettings) (spec : WorkOrderSpec)
    (now : Instant) (runner : ClaudeCodeLocalRunner) :
    ClaudeCodeLocalRunner × Option (Except Failure RunHandle) :=
  let runner := runner.reapFinishedRuns now
  match runner.find spec.identity with
  | some existing => (runner, some (.ok existing.run.handle))
  | none =>
    -- the backstop behind the ceiling that dispatch enforces
    if settings.maxConcurrency ≤ runner.liveRunCount then
      (runner, some (.error (.atCapacity
        (key.val ++ " is at its concurrency ceiling of " ++
          toString settings.maxConcurrency))))
    else
      ({ runner with
          submitting := runner.submitting.insert (submitCall settings spec)
            (key_submitCall settings spec) }, none)

/-- What the runner says of a run it has started. -/
def startedSummary (call : SubmitCall) (reused : Bool) : String :=
  "Started " ++ call.spec.identity ++ " from " ++
    String.ofList (call.spec.baseCommit.toList.take 7) ++ " on " ++
    call.spec.branch ++ ", running on " ++ call.model ++
    (if reused then " (reusing an existing workspace)" else "")

/-- The run as it is when its process has just been started. -/
def launchedRun (settings : LocalRunnerSettings) (call : SubmitCall)
    (reused : Bool) (launch : Launch) (runnerTag : String) : LocalRun :=
  let run : LocalRun :=
    { handle :=
        ⟨key, call.spec.identity ++ ":" ++ launch.handleId,
          call.spec.identity⟩
      runId := call.spec.runId
      identity := call.spec.identity
      branch := call.spec.branch
      binary := settings.binary
      pending := []
      pendingQuota := []
      linesObserved := 0
      settled := false
      parseFailures := 0
      cliResult := none
      outcome := none
      cancelRequested := false
      timedOut := false
      deadlineMinutes := armDeadline settings call.spec
      finishedAt := none }
  run.push
    { run.event ⟨launch.now, launch.eventId, runnerTag⟩ .started with
      summary := some (startedSummary call reused) }

/-- The run of a process that has been started. Its first event is already pending. -/
def launched (settings : LocalRunnerSettings) (call : SubmitCall)
    (reused : Bool) (launch : Launch) (runnerTag : String) (id : ℕ) :
    StartedRun where
  id := id
  run := launchedRun settings call reused launch runnerTag
  named := rfl
  own := by
    intro event hevent
    rw [List.mem_singleton.mp hevent]
    rfl
  finished := fun h => absurd rfl h

theorem key_launched (settings : LocalRunnerSettings) (call : SubmitCall)
    (reused : Bool) (launch : Launch) (runnerTag : String) (id : ℕ) :
    Keyed.key (launched settings call reused launch runnerTag id) = id := rfl

/-- Start the process and put its run into the map. -/
def start (settings : LocalRunnerSettings) (call : SubmitCall) (reused : Bool)
    (launch : Launch) (runner : ClaudeCodeLocalRunner) :
    ClaudeCodeLocalRunner :=
  { runner with
    started := runner.started.insert
      (launched settings call reused launch runner.runnerTag)
      (key_launched settings call reused launch runner.runnerTag)
    runs := runner.runs.set call.spec.identity runner.started.next
    mapped := by
      intro identity id hget
      rw [KeyMap.get_set] at hget
      split_ifs at hget with hsame
      · rw [← Option.some.inj hget, Table.find_insert]
        exact ⟨_, rfl, hsame⟩
      · obtain ⟨run, hfind, hrun⟩ := runner.mapped identity id hget
        rw [Table.find_insert_of_ne]
        · exact ⟨run, hfind, hrun⟩
        · rintro rfl
          rw [Table.find_next] at hfind
          exact Option.some_ne_none run hfind.symm }

/-- A submit no longer waits. -/
def release (call : SubmitCall) (runner : ClaudeCodeLocalRunner) :
    ClaudeCodeLocalRunner :=
  { runner with submitting := runner.submitting.delete call.id }

/-- **The rest of a submit**, once its workspace is there or could not be
made. -/
def provisioned (settings : LocalRunnerSettings) (call : SubmitCall)
    (workspace : Except String Bool) (launch : Launch)
    (runner : ClaudeCodeLocalRunner) :
    ClaudeCodeLocalRunner × Except Failure RunHandle :=
  let runner := runner.release call
  match workspace with
  | .error message => (runner, .error (.error message))
  | .ok reused =>
    (runner.start settings call reused launch,
      .ok (launchedRun settings call reused launch runner.runnerTag).handle)

/-! ### Polling and cancelling -/

/-- A handle that is not known yields `unknown`. -/
def poll (handle : RunHandle) (runner : ClaudeCodeLocalRunner) :
    RunPollResult RunnerEvent :=
  match runner.held handle with
  | none => { status := .unknown, events := [] }
  | some started => started.run.pollResult

/-- What a poll leaves: it keeps no copy. -/
def drain (handle : RunHandle) (runner : ClaudeCodeLocalRunner) :
    ClaudeCodeLocalRunner :=
  match runner.held handle with
  | none => runner
  | some started =>
    runner.modify started.id StartedRun.drained (fun _ => rfl) fun _ => rfl

/-- Something happens to the process of a run. -/
def observe (env : MapperEnv) (id : ℕ) (input : RunnerInput)
    (runner : ClaudeCodeLocalRunner) : ClaudeCodeLocalRunner :=
  runner.modify id (StartedRun.observe env input) (fun _ => rfl)
    fun _ => LocalRun.observe_static.2

/-- Kill the process group of a run. -/
def cancel (env : MapperEnv) (handle : RunHandle)
    (runner : ClaudeCodeLocalRunner) : ClaudeCodeLocalRunner :=
  match runner.held handle with
  | none => runner
  | some started => runner.observe env started.id .cancel

/-- What the runner takes from around it when something happens. -/
def moment (now : Instant) (randomId : String)
    (runner : ClaudeCodeLocalRunner) : Moment :=
  ⟨now, randomId, runner.runnerTag⟩

/-! ### A run of the runner -/

/-- One atomic step of the runner: what it is asked, and what its processes
do. -/
inductive Step where
  | submit (settings : LocalRunnerSettings) (spec : WorkOrderSpec)
      (now : Instant)
  /-- The workspace a submit waits for is there, or could not be made. -/
  | provisioned (settings : LocalRunnerSettings) (call : ℕ)
      (workspace : Except String Bool) (launch : Launch)
  | line (id : ℕ) (parsed : Option JsonValue) (now : Instant)
      (randomId : String)
  | exit (id : ℕ) (outcome : ProcessOutcome) (stderr : String)
      (now : Instant) (randomId : String)
  /-- The timer of a run goes off. -/
  | deadline (id : ℕ)
  | poll (handle : RunHandle)
  | cancel (handle : RunHandle)
  /-- The CLI was asked for its version, and answered. -/
  | probed (version : String)

variable (env : MapperEnv)

/-- What a step does. -/
def step (runner : ClaudeCodeLocalRunner) : Step → ClaudeCodeLocalRunner
  | .submit settings spec now => (runner.submit settings spec now).1
  | .provisioned settings call workspace launch =>
    match runner.submitting.find call with
    | none => runner
    | some call => (runner.provisioned settings call workspace launch).1
  | .line id parsed now randomId =>
    runner.observe env id (.line parsed (runner.moment now randomId))
  | .exit id outcome stderr now randomId =>
    runner.observe env id (.exit outcome stderr (runner.moment now randomId))
  | .deadline id => runner.observe env id .deadline
  | .poll handle => runner.drain handle
  | .cancel handle => runner.cancel env handle
  | .probed version => { runner with observedVersion := some version }

/-- The submit that returns in a step, with what it returns. -/
def returned (runner : ClaudeCodeLocalRunner) :
    Step → Option (WorkOrderSpec × Except Failure RunHandle)
  | .submit settings spec now =>
    (runner.submit settings spec now).2.map (spec, ·)
  | .provisioned settings call workspace launch =>
    (runner.submitting.find call).map fun call =>
      (call.spec, (runner.provisioned settings call workspace launch).2)
  | _ => none

/-- A process is started where a workspace is there for a submit that
waits. -/
theorem step_provisioned_ok {runner : ClaudeCodeLocalRunner}
    {settings : LocalRunnerSettings} {id : ℕ} {call : SubmitCall}
    {reused : Bool} {launch : Launch}
    (h : runner.submitting.find id = some call) :
    step env runner (.provisioned settings id (.ok reused) launch)
      = (runner.release call).start settings call reused launch := by
  rw [step, h]
  rfl

/-! ## What the map finds -/

section Find

variable {env : MapperEnv} {runner : ClaudeCodeLocalRunner}
  {identity : String} {id : ℕ} {started : StartedRun} {handle : RunHandle}

/-- A run is under the identity of its own work order. -/
theorem identity_of_find (h : runner.find identity = some started) :
    started.run.identity = identity := by
  obtain ⟨id, hget, hfind⟩ := Option.bind_eq_some_iff.mp h
  obtain ⟨run, hrun, hidentity⟩ := runner.mapped identity id hget
  rw [hfind] at hrun
  rw [Option.some.inj hrun]
  exact hidentity

theorem find_modify {f : StartedRun → StartedRun}
    {hid : ∀ run, (f run).id = run.id}
    {hidentity : ∀ run, (f run).run.identity = run.run.identity} :
    (runner.modify id f hid hidentity).find identity
      = (runner.find identity).map fun run =>
          if run.id == id then f run else run := by
  show (runner.runs.get identity).bind
      (runner.started.modify (fun run => run.id == id) f hid).find = _
  rw [find]
  cases runner.runs.get identity with
  | none => rfl
  | some id' =>
    rw [Option.bind_some, Option.bind_some]
    exact Table.find_modify hid

theorem find_reapFinishedRuns {now : Instant} :
    (runner.reapFinishedRuns now).find identity
      = (runner.find identity).filter fun run => !run.isReapable now := by
  show ((runner.runs.filterMap _).get identity).bind runner.started.find = _
  rw [KeyMap.get_filterMap, find]
  cases hget : runner.runs.get identity with
  | none => rfl
  | some id =>
    rw [Option.bind_some, Option.bind_some]
    obtain ⟨run, hfind, -⟩ := runner.mapped identity id hget
    rw [hfind, Option.any_some, Option.filter_some]
    cases run.isReapable now with
    | true => rfl
    | false => exact hfind

theorem find_submit {settings : LocalRunnerSettings} {spec : WorkOrderSpec}
    {now : Instant} :
    (runner.submit settings spec now).1.find identity
      = (runner.reapFinishedRuns now).find identity := by
  unfold submit
  dsimp only
  split
  · rfl
  · split <;> rfl

theorem find_start {settings : LocalRunnerSettings} {call : SubmitCall}
    {reused : Bool} {launch : Launch} :
    (runner.start settings call reused launch).find identity
      = if call.spec.identity = identity then
          some (launched settings call reused launch runner.runnerTag
            runner.started.next)
        else runner.find identity := by
  show ((runner.runs.set call.spec.identity runner.started.next).get
      identity).bind (runner.started.insert _ (key_launched settings call
        reused launch runner.runnerTag)).find = _
  rw [KeyMap.get_set]
  split_ifs
  · rw [Option.bind_some, Table.find_insert]
  · cases hget : runner.runs.get identity with
    | none => rw [find, hget]; rfl
    | some id =>
      obtain ⟨run, hfind, -⟩ := runner.mapped identity id hget
      rw [find, hget, Option.bind_some, Option.bind_some,
        Table.find_insert_of_ne]
      rintro rfl
      rw [Table.find_next] at hfind
      exact Option.some_ne_none run hfind.symm

theorem held_eq_some :
    runner.held handle = some started ↔
      runner.find handle.workOrderIdentity = some started ∧
        started.run.handle.externalId = handle.externalId := by
  rw [held, Option.filter_eq_some_iff, beq_iff_eq]

/-- The handle of a run in the map is held. -/
theorem held_of_find (h : runner.find identity = some started) :
    runner.held started.run.handle = some started := by
  refine held_eq_some.mpr ⟨?_, rfl⟩
  rw [started.named, identity_of_find h]
  exact h

end Find

end ClaudeCodeLocalRunner

end Opifex
