import Opifex.IngestConfluence
import Opifex.LocalRunner
import Opifex.Watchdog

/-!
# A refused run whose process exits

A rate limit that is refused is reported as a block, and the CLI exits on it.
The exit is reported as an ending, whatever its code: ingestion lets an ending
absorb a block, in one batch or over several. So once everything the runner
queued is ingested no exited run is parked, and nothing is left to resume.
-/

namespace Opifex

/-- The runner's side of a run, and what was ingested of it. What the runner has pending
is on neither side of the database yet. -/
structure Relay where
  run : LocalRun
  record : RunRecord

/-- What happens next: the runner observes its process, or is polled and what it had
pending is ingested. -/
inductive RelayStep where
  | observe (input : RunnerInput)
  /-- A poll, and the ingestion of what it drained. -/
  | poll

namespace Relay

variable (env : MapperEnv)
  (fits : RunnerEvent → Except (List ValidationFailure) Unit)

/-- The ingestion of what is queued. -/
def ingestPending (relay : Relay) :
    Except IngestError (RunRecord × IngestResult) :=
  (runnerValidator fits).ingest relay.run.runId (some relay.record)
    relay.run.pending

/-- A step. A poll takes what is pending, and what it took is ingested or lost. -/
def step (relay : Relay) : RelayStep → Relay
  | .observe input => { relay with run := relay.run.observe env input }
  | .poll =>
    if relay.run.pending.isEmpty then
      { relay with run := relay.run.drained }
    else
      match relay.ingestPending fits with
      | .ok (record, _) => { run := relay.run.drained, record := record }
      | .error _ => { relay with run := relay.run.drained }

/-- The step ingests what it drains. -/
def Ingests (relay : Relay) : RelayStep → Prop
  | .observe _ => True
  | .poll =>
    relay.run.pending = [] ∨ (relay.ingestPending fits).isOk = true

instance (relay : Relay) : ∀ i, Decidable (Ingests fits relay i)
  | .observe _ => isTrue trivial
  | .poll => inferInstanceAs (Decidable (_ ∨ _))

/-- The run is parked on the newest block's reset. -/
def StaysParked (record : RunRecord) : Prop :=
  record.run.status = .blocked ∧
    ∃ reset, (newestBlock record.events).bind (·.blockedUntil) = some reset

/-- What holds of a run while its runner works: it is settled when its process
has ended, and then its ending is queued or has been ingested. -/
structure Ending (relay : Relay) : Prop where
  open_ : relay.run.outcome = none → relay.run.settled = false
  ended : relay.run.outcome ≠ none →
    (∃ event ∈ relay.run.pending, event.type.isTerminal = true) ∨
      relay.record.run.status.isLive = false

variable {env fits} {relay : Relay}

/-- What a successful ingestion leaves. -/
theorem ingestPending_ok {record : RunRecord} {result : IngestResult}
    (h : relay.ingestPending fits = .ok (record, result)) :
    record
      = (relay.record.persist (relay.run.pending.map RunnerEvent.toPayload)).1 := by
  unfold ingestPending RunEventValidator.ingest at h
  split_ifs at h
  simp only at h
  split_ifs at h with hrejected
  rw [runnerValidator_acceptAll (List.isEmpty_iff.mp hrejected)] at h
  rw [Except.ok.inj h]

/-- A step adds to the queue of the runner. -/
theorem terminal_observe {input : RunnerInput}
    (h : ∃ event ∈ relay.run.pending, event.type.isTerminal = true) :
    ∃ event ∈ (relay.run.observe env input).pending,
      event.type.isTerminal = true := by
  obtain ⟨event, hevent, hterminal⟩ := h
  obtain ⟨queued, hqueued⟩ := @LocalRun.pending_observe env relay.run input
  refine ⟨event, ?_, hterminal⟩
  rw [hqueued]
  exact List.mem_append_left queued hevent

theorem ending_observe (h : Ending relay) (input : RunnerInput) :
    Ending { relay with run := relay.run.observe env input } := by
  by_cases houtcome : relay.run.outcome = none
  · obtain ⟨hopen, hsettled⟩ | ⟨hended, hterminal⟩ :=
      @LocalRun.observe_open env relay.run input houtcome (h.open_ houtcome)
    · exact ⟨fun _ => hsettled, fun hended => absurd hopen hended⟩
    · exact ⟨fun hopen => absurd hopen hended, fun _ => Or.inl hterminal⟩
  · refine ⟨fun hopen => ?_, fun _ => ?_⟩
    · exact absurd (LocalRun.outcome_of_observe hopen) houtcome
    · exact (h.ended houtcome).imp terminal_observe id

theorem ending_poll (h : Ending relay) (hingests : Ingests fits relay .poll) :
    Ending (step env fits relay .poll) := by
  have hdrained : relay.run.drained.outcome = relay.run.outcome := rfl
  unfold step
  by_cases hempty : relay.run.pending.isEmpty = true
  · simp only [hempty, if_true]
    refine ⟨h.open_, fun hended => Or.inr ?_⟩
    refine (h.ended hended).resolve_left ?_
    rintro ⟨event, hevent, -⟩
    rw [List.isEmpty_iff.mp hempty] at hevent
    cases hevent
  · have hok := hingests.resolve_left
      fun hnil => hempty (List.isEmpty_iff.mpr hnil)
    cases hout : relay.ingestPending fits with
    | error error =>
      rw [hout] at hok
      cases hok
    | ok out =>
      simp only [hempty]
      refine ⟨h.open_, fun hended => Or.inr ?_⟩
      rw [@ingestPending_ok fits relay out.1 out.2 hout]
      obtain ⟨event, hevent, hterminal⟩ | hended := h.ended hended
      · exact not_live_persist_of_terminal
          (List.mem_map_of_mem hevent) hterminal
      · exact not_live_persist hended

theorem ending_step (relay : Relay) (i : RelayStep) (h : Ending relay)
    (hingests : Ingests fits relay i) : Ending (step env fits relay i) := by
  cases i with
  | observe input => exact ending_observe h input
  | poll => exact ending_poll h hingests

/-- **No exited run stays parked.** Once its process has ended and everything
its runner queued was ingested, in whatever polls, a run is parked for no
output, no way to end and no moment of any poll. -/
theorem exit_ends_park (hopen : relay.run.outcome = none)
    (hsettled : relay.run.settled = false) {steps : List RelayStep}
    (hingested : Machine.Always (step env fits) (Ingests fits) relay steps)
    (hended : (Machine.run (step env fits) relay steps).run.outcome ≠ none)
    (hdrained : (Machine.run (step env fits) relay steps).run.pending = []) :
    ¬ StaysParked (Machine.run (step env fits) relay steps).record := by
  have hstart : Ending relay :=
    ⟨fun _ => hsettled, fun hexited => absurd hopen hexited⟩
  have hfinal := Machine.run_invariant
    (fun s i hs hi => ending_step s i hs hi) hstart hingested
  have hlive := (hfinal.ended hended).resolve_left <| by
    rintro ⟨event, hevent, -⟩
    rw [hdrained] at hevent
    cases hevent
  intro hparked
  rw [hparked.1] at hlive
  cases hlive

/-! ## A run that hits its limit -/

/-- The refusal, as the CLI prints it. -/
def rejectedLine : JsonValue :=
  .obj [("type", .str "rate_limit_event"), ("uuid", .str "u1"),
    ("rate_limit_info", .obj [("status", .str "rejected"),
      ("resetsAt", .num 1785672000), ("rateLimitType", .str "five_hour")])]

/-- The last line before it exits. -/
def resultLine : JsonValue :=
  .obj [("type", .str "result"), ("subtype", .str "error_during_execution"),
    ("is_error", .bool true), ("total_cost_usd", .num (1 / 4))]

/-- Nothing was ingested of the run yet. -/
def submitted : Relay where
  run := submittedRun
  record := ⟨freshRun, []⟩

/-- The refusal is polled before the CLI exits. -/
def refusedAndExited : List RelayStep :=
  [.observe (.line (some rejectedLine)
      ⟨1785661000000, "r1", "claude-code-local"⟩),
    .poll,
    .observe (.line (some resultLine)
      ⟨1785661000100, "r2", "claude-code-local"⟩),
    .observe (.exit (.exited 1) "" ⟨1785661000200, "r3", "claude-code-local"⟩),
    .poll]

/-- **The exit ends the park**: the refusal blocks the run until its reset, and
then the exit fails it. -/
theorem refusal_fails :
    StaysParked (Machine.run (step plainEnv anyFits) submitted
        (refusedAndExited.take 2)).record ∧
      (Machine.run (step plainEnv anyFits) submitted
        refusedAndExited).record.run.status = .failed ∧
      (newestBlock (Machine.run (step plainEnv anyFits) submitted
        refusedAndExited).record.events).bind (·.blockedUntil)
          = some 1785672000000 := by
  refine ⟨⟨?_, 1785672000000, ?_⟩, ?_, ?_⟩
  · decide +kernel
  · decide +kernel
  · decide +kernel
  · decide +kernel

theorem exit_ends_park_refused :
    ¬ StaysParked (Machine.run (step plainEnv anyFits) submitted
      refusedAndExited).record := by
  refine exit_ends_park rfl rfl ?_ ?_ ?_
  · decide +kernel
  · decide +kernel
  · decide +kernel

end Relay

end Opifex
