import Opifex.Escalations
import Opifex.Lib.Rounding
import Opifex.Runner
import Opifex.WatchedRuns

/-!
# Silent runs and looping runs

Two checks of a live run. Silence is the age of its last event against a
threshold that its runner's declared fidelity sets. A loop is the newest tool
signature repeating with nothing else between the repeats, which only a runner
that reports every tool call can show.

A verdict is turned into two actions: what should happen to the run, which
nothing executes, and an escalation.
-/

namespace Opifex

open Preference (rank)

/-- The fidelity as a manifest spells it. -/
def StreamingFidelity.name : StreamingFidelity → String
  | .full => "full"
  | .partialStream => "partial"
  | .none => "none"

/-- One live run, as the watchdog needs to judge it: what it is, when it was last heard
of, and what its runner promised of its stream. -/
structure WatchedRunState where
  runId : ℕ
  workOrderIdentity : String
  /-- `owner/name`. -/
  repository : String
  issueNumber : ℕ
  status : RunStatus
  startedAt : Instant
  /-- The newest event of any source, or null if nothing has ever arrived. -/
  lastEventAt : Option Instant
  lastEventSource : Option RunEventSource
  runnerKey : RunnerKey
  /-- What its runner declared; null with no capability manifest. -/
  fidelity : Option StreamingFidelity

/-! ## Silence -/

/-- How long a run may go quiet, by declared fidelity. -/
def silenceThresholdMs : StreamingFidelity → ℤ
  | .full => 90000
  | .partialStream => 10 * 60000
  | .none => 90 * 60000

/-- The threshold for a runner that has declared nothing. -/
def undeclaredThresholdMs : ℤ := silenceThresholdMs .none

/-- How long a run may be quiet. It depends on how much its runner reports; a runner
that declares nothing has a threshold of its own. -/
def thresholdFor (fidelity : Option StreamingFidelity) : ℤ :=
  fidelity.elim undeclaredThresholdMs silenceThresholdMs

/-- A duration a human can check the verdict against. -/
def formatDuration (ms : ℤ) : String :=
  let totalSeconds := Rounding.round (ms / 1000)
  if totalSeconds < 60 then toString totalSeconds ++ "s"
  else
    let mins := totalSeconds / 60
    let secs := totalSeconds % 60
    if mins < 60 then
      if secs = 0 then toString mins ++ "m"
      else toString mins ++ "m " ++ toString secs ++ "s"
    else toString (mins / 60) ++ "h " ++ toString (mins % 60) ++ "m"

/-- That a run is silent: since when, by which threshold, and who saw it last. It is
what the action carries and the message tells. -/
structure SilenceVerdict where
  runId : ℕ
  workOrderIdentity : String
  repository : String
  issueNumber : ℕ
  silentForMs : ℤ
  thresholdMs : ℤ
  fidelity : Option StreamingFidelity
  /-- When the run stopped making progress. -/
  progressStoppedAt : Instant
  /-- Which source last saw the run alive; null if none ever did. -/
  detectionSource : Option RunEventSource
  reason : String
deriving DecidableEq

namespace WatchedRunState

/-- A silence verdict can apply to it: a blocked run is supposed to be
quiet. -/
def isJudgeable (run : WatchedRunState) : Bool :=
  run.status == .running || run.status == .stalled

/-- Since when it is quiet. One that has never reported is measured from its
start. -/
def quietSince (run : WatchedRunState) : Instant :=
  run.lastEventAt.getD run.startedAt

/-- The sentence a human reads. -/
def describe (run : WatchedRunState) (silentForMs thresholdMs : ℤ) : String :=
  let observed :=
    match run.lastEventAt with
    | some lastEventAt =>
      "last event of any source at " ++ Instant.toISOString lastEventAt
    | none =>
      "no event of any source since the run started at " ++
        Instant.toISOString run.startedAt
  let basis :=
    match run.fidelity with
    | none =>
      run.runnerKey.val ++ " has declared no capability manifest, so the " ++
        "most permissive threshold applies"
    | some fidelity =>
      run.runnerKey.val ++ " declares " ++ fidelity.name ++
        " streaming fidelity"
  "silent for " ++ formatDuration silentForMs ++ " (" ++ observed ++
    "), exceeding the " ++ formatDuration thresholdMs ++ " threshold: " ++ basis

/-- Has it gone silent? -/
def silence (now : Instant) (run : WatchedRunState) : Option SilenceVerdict :=
  if !run.isJudgeable then none
  else
    let thresholdMs := thresholdFor run.fidelity
    let silentForMs := now - run.quietSince
    if silentForMs ≤ thresholdMs then none
    else
      some
        { runId := run.runId
          workOrderIdentity := run.workOrderIdentity
          repository := run.repository
          issueNumber := run.issueNumber
          silentForMs := silentForMs
          thresholdMs := thresholdMs
          fidelity := run.fidelity
          progressStoppedAt := run.quietSince
          detectionSource :=
            if run.lastEventAt.isSome then run.lastEventSource else none
          reason := run.describe silentForMs thresholdMs }

end WatchedRunState

/-- Find the runs that have gone silent. -/
def detectSilentRuns (runs : List WatchedRunState) (now : Instant) :
    List SilenceVerdict :=
  runs.filterMap (WatchedRunState.silence now)

/-! ## Loops -/

/-- One event's tool detail: the signature of the call, which is the same for the same
tool with the same arguments. -/
structure ToolObservation where
  signature : String
  occurredAt : Instant
deriving DecidableEq

/-- Whether a run repeats one tool call, or why that cannot be told. A check that could
not run does not say that the run is fine. -/
structure LoopVerdict where
  /-- Whether the check could run at all. -/
  available : Bool
  looping : Bool
  signature : Option String
  repeats : ℕ
  /-- When the signature first appeared in the streak. -/
  startedRepeatingAt : Option Instant
  reason : String
deriving DecidableEq

/-- How many identical signatures in a row count as a loop. -/
def defaultLoopRepeats : ℕ := 6

/-- The window the check examines. -/
def defaultLoopWindow : ℕ := 40

/-- The observations that repeat the newest signature with nothing else
between them, newest first. -/
def streak : List ToolObservation → List ToolObservation
  | [] => []
  | newest :: older =>
    newest :: older.takeWhile fun observation =>
      observation.signature == newest.signature

/-- **Detect a repeating tool signature** among observations, oldest first. -/
def detectLoop (fidelity : Option StreamingFidelity)
    (observations : List ToolObservation) : LoopVerdict :=
  if fidelity ≠ some .full then
    { available := false
      looping := false
      signature := none
      repeats := 0
      startedRepeatingAt := none
      reason :=
        "loop detection unavailable: it needs per-tool progress events, " ++
          "which a runner with " ++ fidelity.elim "undeclared" (·.name) ++
          " streaming fidelity does not report" }
  else
    let recent :=
      observations.drop (observations.length - defaultLoopWindow)
    if recent.length < defaultLoopRepeats then
      { available := true
        looping := false
        signature := none
        repeats := recent.length
        startedRepeatingAt := none
        reason :=
          "no loop: only " ++ toString recent.length ++
            " tool event(s), fewer than the " ++ toString defaultLoopRepeats ++
            " needed to conclude one" }
    else
      let repeating := streak recent.reverse
      if repeating.length < defaultLoopRepeats then
        { available := true
          looping := false
          signature := none
          repeats := repeating.length
          startedRepeatingAt := none
          reason :=
            "no loop: the most recent signature repeats " ++
              toString repeating.length ++ " time(s) consecutively, " ++
              "below the threshold of " ++ toString defaultLoopRepeats }
      else
        let newest := repeating.head?.map (·.signature)
        { available := true
          looping := true
          signature := newest
          repeats := repeating.length
          startedRepeatingAt := repeating.getLast?.map (·.occurredAt)
          reason :=
            "looping: " ++ newest.getD "" ++ " repeated " ++
              toString repeating.length ++ " times consecutively with no " ++
              "other tool call between them, at or past the threshold of " ++
              toString defaultLoopRepeats }

/-! ## The actions a verdict implies -/

/-- What the actions about a live run share. -/
def watchdogEvidence (workOrderIdentity : String) (runStatus : RunStatus) :
    ActionEvidence where
  intent := .running
  inputLabels := []
  workOrderIdentity := some workOrderIdentity
  runStatus := some runStatus
  currentMirrorLabels := []
  desiredMirrorLabels := []

/-- What should happen to a silent run, and to the human. -/
def actionsForSilence (verdict : SilenceVerdict) : List HandedAction :=
  let place := verdict.repository ++ "#" ++ toString verdict.issueNumber
  let kill : HandedAction :=
    { type := .killAndReRun
      repository := some verdict.repository
      issueNumber := some verdict.issueNumber
      runId := some verdict.runId
      evidence := some (watchdogEvidence verdict.workOrderIdentity .stalled)
      escalationKind := none
      reason :=
        "kill and re-run " ++ verdict.workOrderIdentity ++
          " from its base commit: " ++ verdict.reason }
  [kill,
    { kill with
      type := .escalate
      escalationKind := some .runStalled
      progressStoppedAt := some verdict.progressStoppedAt
      detectionSource := verdict.detectionSource.map RunEventSource.column
      reason :=
        verdict.workOrderIdentity ++ " (" ++ place ++ ") has stalled — " ++
          verdict.reason ++ ". Opifex would kill it and re-run from the " ++
          "pinned base commit; no executor exists yet, so it is waiting " ++
          "for you." }]

/-- What should happen to a looping run, and to the human: running the same
work order again would only loop again. -/
def actionsForLoop (verdict : LoopVerdict) (run : WatchedRunState) :
    List HandedAction :=
  let place := run.repository ++ "#" ++ toString run.issueNumber
  let kill : HandedAction :=
    { type := .killAndRePlan
      repository := some run.repository
      issueNumber := some run.issueNumber
      runId := some run.runId
      evidence := some (watchdogEvidence run.workOrderIdentity .running)
      escalationKind := none
      reason :=
        "kill and re-plan " ++ run.workOrderIdentity ++ ": " ++
          verdict.reason }
  [kill,
    { kill with
      type := .escalate
      escalationKind := some .runLooping
      progressStoppedAt := verdict.startedRepeatingAt
      detectionSource := some "runner"
      reason :=
        run.workOrderIdentity ++ " (" ++ place ++ ") is looping — " ++
          verdict.reason ++ ". Re-running it unchanged would loop again, " ++
          "so the work order needs decomposing; no supervisor exists yet, " ++
          "so it is waiting for you." }]

/-! ## What the sweep reads -/

namespace WatchedRun

/-- The newest event stored for a run; equal instants fall to the order of
the table. -/
def newestEvent (watched : WatchedRun) : Option RunEventRow :=
  (rank (fun a b => compare b.occurredAt a.occurredAt)
    watched.record.events).head?

/-- A live run with its runner's declared fidelity. -/
def liveState (fidelityOf : RunnerKey → Option StreamingFidelity)
    (watched : WatchedRun) : WatchedRunState where
  runId := watched.record.run.id
  workOrderIdentity := watched.workOrderIdentity
  repository := watched.repository
  issueNumber := watched.issueNumber
  status := watched.record.run.status
  startedAt := watched.record.run.startedAt
  lastEventAt := watched.record.run.lastEventAt
  lastEventSource := watched.newestEvent.map (·.source)
  runnerKey := watched.record.run.runnerKey
  fidelity := fidelityOf watched.record.run.runnerKey

/-- Recent tool signatures of a run, oldest first. -/
def toolObservations (watched : WatchedRun) : List ToolObservation :=
  ((rank (fun a b => compare b.occurredAt a.occurredAt)
    (watched.record.events.filter (·.toolSignature.isSome))).take
      defaultLoopWindow).reverse.map fun event =>
        { signature := event.toolSignature.getD ""
          occurredAt := event.occurredAt }

end WatchedRun

/-- The runs the silence check is about: not the blocked ones. -/
def loadLiveRuns (table : Table WatchedRun) : List WatchedRun :=
  table.rows.filter fun watched =>
    watched.record.run.status == .running ||
      watched.record.run.status == .stalled

/-! ## Verdicts -/

/-- **A silent run** is one that may be judged and whose last sign of life is
past the threshold. -/
theorem isSome_silence {now : Instant} {run : WatchedRunState} :
    (run.silence now).isSome ↔ run.isJudgeable ∧
      thresholdFor run.fidelity < now - run.quietSince := by
  unfold WatchedRunState.silence
  cases run.isJudgeable with
  | false => simp
  | true =>
    dsimp only
    rw [if_neg (by decide)]
    by_cases hquiet : now - run.quietSince ≤ thresholdFor run.fidelity
    · rw [if_pos hquiet]
      exact iff_of_false Bool.false_ne_true
        fun h => absurd h.2 (not_lt.mpr hquiet)
    · rw [if_neg hquiet]
      exact iff_of_true rfl ⟨rfl, not_le.mp hquiet⟩

/-- A verdict names the run it is about. -/
theorem runId_silence {now : Instant} {run : WatchedRunState}
    {verdict : SilenceVerdict} (h : run.silence now = some verdict) :
    verdict.runId = run.runId := by
  unfold WatchedRunState.silence at h
  cases hjudgeable : run.isJudgeable with
  | false =>
    rw [hjudgeable] at h
    cases h
  | true =>
    rw [hjudgeable, if_neg (by decide)] at h
    dsimp only at h
    by_cases hquiet : now - run.quietSince ≤ thresholdFor run.fidelity
    · rw [if_pos hquiet] at h
      cases h
    · rw [if_neg hquiet] at h
      rw [← Option.some.inj h]

end Opifex
