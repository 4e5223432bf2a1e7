import Opifex.Lib.HighWater
import Opifex.Lib.Text
import Opifex.Tables

/-!
# Ingesting a runner's events

A batch is validated wholly before anything is written. Its events are then
stored, a duplicate counting as success, and the run is moved forward: its
newest event, its cost as the sum over the stored events, and its status. A
batch that carries a terminal event concludes the run; any other parks it when
it ends on a block and returns it to running when it does not, and only when
it moved the newest event forward.

Instants are what `new Date` reads from the texts of an event. The validator
compiles the event schema with a library, so it is a parameter here.
-/

namespace Opifex

open Preference (rank)
open HighWater (below raise raise?)

/-- The six normalized types. Only the last two end a run, and only `blocked` takes it
out of `running` without ending it. -/
inductive RunEventType where
  | started
  | heartbeat
  | progress
  | blocked
  | completed
  | failed
deriving DecidableEq, Repr

/-- A type that concludes a run. -/
def RunEventType.isTerminal : RunEventType → Bool
  | .completed | .failed => true
  | _ => false

/-- Who says that something happened to a run: its runner, the branch on GitHub, or the
control plane itself. -/
inductive RunEventSource where
  | runnerReported
  | gitDerived
  | controlPlaneSynthesized
deriving DecidableEq, Repr

/-- The source as events write it. -/
def RunEventSource.name : RunEventSource → String
  | .runnerReported => "runner-reported"
  | .gitDerived => "git-derived"
  | .controlPlaneSynthesized => "control-plane-synthesized"

/-- Why a run is blocked. The first two are about the quota of the runner's
subscription. -/
inductive BlockedReason where
  | rateLimit
  | quotaExhausted
  | awaitingApproval
  | upstreamUnavailable
  | unknown
deriving DecidableEq, Repr

/-- The reason as events and columns write it. -/
def BlockedReason.name : BlockedReason → String
  | .rateLimit => "rate-limit"
  | .quotaExhausted => "quota-exhausted"
  | .awaitingApproval => "awaiting-approval"
  | .upstreamUnavailable => "upstream-unavailable"
  | .unknown => "unknown"

/-- A tool call that an event reports, by the name of the tool and what tells its calls
apart. -/
structure RunEventTool where
  name : String
  /-- A digest of the arguments. -/
  signature : String
deriving DecidableEq

/-- Cost and tokens of one event, never cumulative. What an event does not report is
null and not zero. -/
structure RunEventCost where
  usd : Option ℚ
  tokensInput : Option ℕ
  tokensOutput : Option ℕ
deriving DecidableEq

/-- Why a run waits, as an event reports it, and how long it expects to. -/
structure RunEventBlocked where
  reason : BlockedReason
  /-- When the block is expected to clear, if the runner can say. -/
  resetAt : Option Instant
deriving DecidableEq

/-- What a run that completed leaves behind: the branch, its head, and the pull request
if there is one. -/
structure RunEventResult where
  branch : Option String
  headCommit : Option String
  pullRequestUrl : Option String
deriving DecidableEq

/-- Why a run failed, and whether another attempt could succeed, as far as the runner
can tell. -/
structure RunEventFailure where
  reason : String
  retryable : Option Bool
deriving DecidableEq

/-- One event as a runner reports it. The identifier makes a redelivery harmless; the
detail that goes with its type is in one of the last fields. -/
structure RunEventPayload where
  /-- Chosen by the sender; a redelivery reuses it. -/
  eventId : String
  runId : ℕ
  workOrderId : String
  type : RunEventType
  source : RunEventSource
  occurredAt : Instant
  summary : Option String := none
  tool : Option RunEventTool := none
  cost : Option RunEventCost := none
  blocked : Option RunEventBlocked := none
  result : Option RunEventResult := none
  failure : Option RunEventFailure := none
deriving DecidableEq

/-- One event as it is stored. `(runId, externalId)` is unique, and null is no
duplicate of null. -/
structure RunEventRow where
  externalId : Option String
  type : RunEventType
  source : RunEventSource
  occurredAt : Instant
  summary : String
  toolSignature : Option String
  blockedReason : Option String
  blockedUntil : Option Instant
  costUsd : Option Usd
  tokensInput : Option ℕ
  tokensOutput : Option ℕ
deriving DecidableEq

/-- A run together with the events stored for it. The columns of the run are computed
from the events as these arrive. -/
structure RunRecord where
  run : RunRow
  events : List RunEventRow
deriving DecidableEq

/-- One row. -/
def toRow (event : RunEventPayload) : RunEventRow where
  externalId := some event.eventId
  type := event.type
  source := event.source
  occurredAt := event.occurredAt
  summary := event.summary.getD ""
  toolSignature := event.tool.map fun tool => tool.name ++ ":" ++ tool.signature
  blockedReason := event.blocked.map (·.reason.name)
  blockedUntil := event.blocked.bind (·.resetAt)
  costUsd := event.cost.bind fun cost => cost.usd.map Usd.ofRat
  tokensInput := event.cost.bind (·.tokensInput)
  tokensOutput := event.cost.bind (·.tokensOutput)

/-- A stored event carries the row's identifier. -/
def isStored (stored : List RunEventRow) (row : RunEventRow) : Bool :=
  row.externalId.isSome &&
    stored.any fun other => other.externalId == row.externalId

/-- One row of an insert that skips duplicates: an event that is stored already leaves
the table as it is. -/
def insertEvent (stored : List RunEventRow) (row : RunEventRow) :
    List RunEventRow :=
  if isStored stored row then stored else stored ++ [row]

/-- `runEvent.createMany({ data, skipDuplicates: true })`. -/
def createMany (stored data : List RunEventRow) : List RunEventRow :=
  data.foldl insertEvent stored

section Stored

variable {stored data : List RunEventRow} {row other : RunEventRow}

theorem mem_insertEvent (h : other ∈ insertEvent stored row) :
    other ∈ stored ∨ other = row := by
  unfold insertEvent at h
  split at h
  · exact Or.inl h
  · exact (List.mem_append.mp h).imp id List.mem_singleton.mp

/-- Nothing is stored but what was stored before or was sent. -/
theorem mem_createMany (h : other ∈ createMany stored data) :
    other ∈ stored ∨ other ∈ data := by
  induction data generalizing stored with
  | nil => exact Or.inl h
  | cons row data ih =>
    obtain h | h := ih h
    · exact (mem_insertEvent h).imp_right fun h => List.mem_cons.mpr (Or.inl h)
    · exact Or.inr (List.mem_cons_of_mem _ h)

end Stored

/-! ## What a batch says -/

/-- The order in which a batch is gone through. -/
def byOccurredAt (a b : RunEventPayload) : Ordering :=
  compare a.occurredAt b.occurredAt

/-- When the newest event of a batch happened. -/
def newestOf (events : List RunEventPayload) : Option Instant :=
  match events.map (·.occurredAt) with
  | [] => none
  | first :: rest =>
    some (rest.foldl (fun latest at' => if latest < at' then at' else latest)
      first)

/-- The terminal event a batch concludes on: the last by when it happened. -/
def terminalEventIn (events : List RunEventPayload) : Option RunEventPayload :=
  (rank byOccurredAt (events.filter (·.type.isTerminal))).getLast?

/-- The block a batch ends on. Equal instants fall to the batch's own
order. -/
def blockingEventIn (events : List RunEventPayload) : Option RunEventPayload :=
  (rank byOccurredAt events).getLast?.filter (·.type == .blocked)

/-- A digit of a pull request's number. -/
def digitValue (c : Char) : ℕ := c.toNat - '0'.toNat

/-- `/pull/`, digits, and then the end or one of `/`, `?` and `#`. -/
def pullNumberAt (cs : List Char) : Option ℕ :=
  if "/pull/".toList.isPrefixOf cs then
    let digits := (cs.drop 6).takeWhile Char.isDigit
    let rest := (cs.drop 6).dropWhile Char.isDigit
    if digits ≠ [] ∧ rest.head?.all (['/', '?', '#'].contains ·) then
      some (digits.foldl (fun n c => 10 * n + digitValue c) 0)
    else none
  else none

/-- The number out of a pull-request URL, or null. -/
def pullNumberFrom (url : String) : Option ℕ :=
  url.toList.tails.findSome? pullNumberAt

/-! ## The statements -/

/-- What the events stored for a run add up to; null when none reports, so that an
unknown cost is not a cost of zero. -/
structure CostTotals where
  costUsd : Option Usd
  tokensInput : Option ℕ
  tokensOutput : Option ℕ
deriving DecidableEq

/-- `SUM` of a nullable column: null when every row is. -/
def sumOf (column : RunEventRow → Option ℕ) (events : List RunEventRow) :
    Option ℕ :=
  match events.filterMap column with
  | [] => none
  | amounts => some amounts.sum

/-- `runEvent.aggregate({ _sum })`. -/
def aggregate (events : List RunEventRow) : CostTotals where
  costUsd :=
    (sumOf (fun row => row.costUsd.map (·.tenThousandths)) events).map Usd.mk
  tokensInput := sumOf (·.tokensInput) events
  tokensOutput := sumOf (·.tokensOutput) events

namespace RunRow

/-- Move the newest event forward, never back. -/
def moveLastEventAt (newest : Instant) (run : RunRow) : RunRow :=
  { run with lastEventAt := raise run.lastEventAt newest }

/-- The cost of a run, moved up to a total. It never moves down. -/
def raiseCostUsd (total : Option Usd) (run : RunRow) : RunRow :=
  { run with costUsd := raise? run.costUsd total }

/-- The input tokens of a run, moved up in the same way. -/
def raiseTokensInput (total : Option ℕ) (run : RunRow) : RunRow :=
  { run with tokensInput := raise? run.tokensInput total }

/-- The output tokens of a run, moved up in the same way. -/
def raiseTokensOutput (total : Option ℕ) (run : RunRow) : RunRow :=
  { run with tokensOutput := raise? run.tokensOutput total }

/-- A run that reports and was thought not to. -/
def isResumable (run : RunRow) : Bool :=
  run.status == .stalled || run.status == .blocked

/-- Park the run on the block its runner reported: the status, and nothing
else. -/
def blockRun (run : RunRow) : RunRow :=
  if run.status.isLive then { run with status := .blocked } else run

/-- Return a stalled or blocked run to running; a plan to wake it is
erased. -/
def resumeRun (run : RunRow) : RunRow :=
  if run.isResumable then
    { run with status := .running, resumesAt := none }
  else run

/-- What a terminal event makes of a run. -/
def conclude (terminal : RunEventPayload) (run : RunRow) : RunRow :=
  let succeeded := terminal.type == .completed
  let headCommit := (terminal.result.bind (·.headCommit)).filter Text.truthy
  let pullRequestUrl :=
    (terminal.result.bind (·.pullRequestUrl)).filter Text.truthy
  { run with
    status := if succeeded then .succeeded else .failed
    endedAt := some terminal.occurredAt
    attentionReason :=
      if succeeded then run.attentionReason
      else some ((terminal.failure.map (·.reason)).getD "run failed")
    headCommit := headCommit <|> run.headCommit
    pullRequestUrl := pullRequestUrl <|> run.pullRequestUrl
    pullRequestNumber :=
      match pullRequestUrl with
      | some url => pullNumberFrom url
      | none => run.pullRequestNumber }

/-- Close the attempts that are still open when the run ends. -/
def endOpenAttempts (terminal : RunEventPayload) (run : RunRow) : RunRow :=
  let succeeded := terminal.type == .completed
  { run with
    attempts := run.attempts.map fun attempt =>
      if attempt.outcome == .running then
        { attempt with
          outcome := if succeeded then .succeeded else .failed
          endedAt := some terminal.occurredAt
          stopReason :=
            if succeeded then terminal.summary
            else some ((terminal.failure.map (·.reason)).getD "run failed") }
      else attempt }

/-- Conclude an unfinished run; the invocation ends with it. -/
def concludeRun (terminal : RunEventPayload) (run : RunRow) : RunRow :=
  if run.status.isLive then
    (run.conclude terminal).endOpenAttempts terminal
  else run

/-- Carry the reported cost onto the run. -/
def rollUpCost (totals : CostTotals) (run : RunRow) : RunRow :=
  ((run.raiseCostUsd totals.costUsd).raiseTokensInput
    totals.tokensInput).raiseTokensOutput totals.tokensOutput

@[simp] theorem moveLastEventAt_status (newest : Instant) (run : RunRow) :
    (run.moveLastEventAt newest).status = run.status := rfl

@[simp] theorem moveLastEventAt_resumesAt (newest : Instant) (run : RunRow) :
    (run.moveLastEventAt newest).resumesAt = run.resumesAt := rfl

@[simp] theorem moveLastEventAt_endedAt (newest : Instant) (run : RunRow) :
    (run.moveLastEventAt newest).endedAt = run.endedAt := rfl

@[simp] theorem moveLastEventAt_attempts (newest : Instant) (run : RunRow) :
    (run.moveLastEventAt newest).attempts = run.attempts := rfl

@[simp] theorem rollUpCost_status (totals : CostTotals) (run : RunRow) :
    (run.rollUpCost totals).status = run.status := rfl

@[simp] theorem rollUpCost_endedAt (totals : CostTotals) (run : RunRow) :
    (run.rollUpCost totals).endedAt = run.endedAt := rfl

@[simp] theorem rollUpCost_attempts (totals : CostTotals) (run : RunRow) :
    (run.rollUpCost totals).attempts = run.attempts := rfl

@[simp] theorem rollUpCost_resumesAt (totals : CostTotals) (run : RunRow) :
    (run.rollUpCost totals).resumesAt = run.resumesAt := rfl

end RunRow

/-! ## A delivery -/

/-- The status the batch leaves the run in. A run that is about to conclude is
neither parked nor un-stalled first, and a batch too old to move the newest
event forward moves no status either. -/
def transition (events : List RunEventPayload) (advanced : Bool)
    (run : RunRow) : RunRow :=
  match terminalEventIn events with
  | some terminal => run.concludeRun terminal
  | none =>
    if advanced then
      match blockingEventIn events with
      | some _ => run.blockRun
      | none => run.resumeRun
    else run

/-- Move the run forward. -/
def advanceRun (record : RunRecord) (events : List RunEventPayload) :
    RunRow :=
  match newestOf events with
  -- an empty batch is refused before it gets here
  | none => record.run
  | some newest =>
    let advanced := below record.run.lastEventAt newest
    transition events advanced
      ((record.run.moveLastEventAt newest).rollUpCost (aggregate record.events))

/-- What a caller is answered: how many events were new, and how many were known. -/
structure IngestResult where
  accepted : ℕ
  duplicates : ℕ
deriving DecidableEq, Repr

/-- Write the batch, treating a duplicate as success. -/
def RunRecord.persist (record : RunRecord) (events : List RunEventPayload) :
    RunRecord × IngestResult :=
  let stored := createMany record.events (events.map toRow)
  let created := stored.length - record.events.length
  ({ run := advanceRun { record with events := stored } events
     events := stored },
    { accepted := created, duplicates := events.length - created })

/-- What is wrong with an event: where, as a path into the event, and the message. -/
structure ValidationFailure where
  path : String
  message : String
deriving DecidableEq

/-- An event of a batch that did not validate. One of them rejects the whole batch. -/
structure RejectedEvent where
  index : ℕ
  eventId : Option String
  failures : List ValidationFailure
deriving DecidableEq

/-- Why a batch was refused: an event of it does not validate, or there is no such run.
-/
inductive IngestError where
  | badRequest (message : String) (rejected : List RejectedEvent)
  | notFound (message : String)
deriving DecidableEq

/-- The compiled schema, and the identifier read from a candidate that may not
fit it. -/
structure RunEventValidator (Candidate : Type*) where
  check : Candidate → Except (List ValidationFailure) RunEventPayload
  readEventId : Candidate → Option String

namespace RunEventValidator

variable {Candidate : Type*} (validator : RunEventValidator Candidate)

/-- One candidate of a batch: an event that fits the schema, claims the run it
was sent for and was reported by a runner. -/
def accept (runId index : ℕ) (candidate : Candidate) :
    Except RejectedEvent RunEventPayload :=
  match validator.check candidate with
  | .error failures =>
    .error ⟨index, validator.readEventId candidate, failures⟩
  | .ok event =>
    if event.runId ≠ runId then
      .error
        { index := index
          eventId := some event.eventId
          failures :=
            [⟨"/runId", "must match the run in the URL (" ++ toString runId ++
              "), got " ++ toString event.runId⟩] }
    else if event.source ≠ .runnerReported then
      .error
        { index := index
          eventId := some event.eventId
          failures :=
            [⟨"/source", "must be 'runner-reported' on this endpoint; '" ++
              event.source.name ++
              "' is produced by Opifex, not submitted to it"⟩] }
    else .ok event

/-- The events of a batch that are accepted, and the candidates that are
not. -/
def acceptAll (runId : ℕ) (candidates : List Candidate) :
    List RejectedEvent × List RunEventPayload :=
  candidates.zipIdx.foldl (fun (rejected, events) (candidate, index) =>
    match validator.accept runId index candidate with
    | .error refusal => (rejected ++ [refusal], events)
    | .ok event => (rejected, events ++ [event])) ([], [])

/-- **Ingest a batch**: wholly, or not at all. -/
def ingest (runId : ℕ) (stored : Option RunRecord)
    (candidates : List Candidate) :
    Except IngestError (RunRecord × IngestResult) :=
  if candidates.isEmpty then .error (.badRequest "No events supplied" [])
  else
    match stored with
    | none => .error (.notFound ("Run " ++ toString runId ++ " not found"))
    | some record =>
      let (rejected, events) := validator.acceptAll runId candidates
      if rejected.isEmpty then .ok (record.persist events)
      else
        .error (.badRequest
          (toString rejected.length ++ " of " ++
            toString candidates.length ++ " events were rejected") rejected)

/-- An event the door lets through for a run: it validates as it is, names the run, and
is the runner's own. -/
structure Valid (validator : RunEventValidator RunEventPayload) (runId : ℕ)
    (event : RunEventPayload) : Prop where
  check : validator.check event = .ok event
  runId : event.runId = runId
  source : event.source = .runnerReported

theorem accept_of_valid {validator : RunEventValidator RunEventPayload}
    {runId : ℕ} {event : RunEventPayload} (h : validator.Valid runId event)
    (index : ℕ) : validator.accept runId index event = .ok event := by
  rw [accept, h.check]
  show (if event.runId ≠ runId then _ else _) = _
  rw [if_neg (not_not.mpr h.runId), if_neg (not_not.mpr h.source)]

/-- A batch of valid events is accepted as it is. -/
theorem acceptAll_of_valid {validator : RunEventValidator RunEventPayload}
    {runId : ℕ} {events : List RunEventPayload}
    (h : ∀ event ∈ events, validator.Valid runId event) :
    validator.acceptAll runId events = ([], events) := by
  have hfold : ∀ (rest : List RunEventPayload) (accepted : List RunEventPayload)
      (index : ℕ), (∀ event ∈ rest, validator.Valid runId event) →
      (rest.zipIdx index).foldl (fun (rejected, events) (candidate, index) =>
        match validator.accept runId index candidate with
        | .error refusal => (rejected ++ [refusal], events)
        | .ok event => (rejected, events ++ [event])) ([], accepted)
        = (([] : List RejectedEvent), accepted ++ rest) := by
    intro rest
    induction rest with
    | nil => intro accepted index _; simp
    | cons event rest ih =>
      intro accepted index hrest
      rw [List.zipIdx_cons, List.foldl_cons]
      simp only [accept_of_valid (hrest event List.mem_cons_self)]
      rw [ih _ _ fun other hother => hrest other (List.mem_cons_of_mem _ hother)]
      rw [List.append_assoc, List.singleton_append]
  rw [acceptAll, hfold events [] 0 h, List.nil_append]

/-- **Valid events are persisted.** -/
theorem ingest_of_valid {validator : RunEventValidator RunEventPayload}
    {runId : ℕ} {events : List RunEventPayload} (hne : events ≠ [])
    (h : ∀ event ∈ events, validator.Valid runId event)
    (record : RunRecord) :
    validator.ingest runId (some record) events
      = .ok (record.persist events) := by
  rw [ingest, acceptAll_of_valid h,
    if_neg (by simpa [List.isEmpty_iff] using hne)]
  rfl

/-- What is accepted is what the schema let through. -/
theorem check_of_accept {Candidate : Type*}
    {validator : RunEventValidator Candidate} {runId index : ℕ}
    {candidate : Candidate} {event : RunEventPayload}
    (h : validator.accept runId index candidate = .ok event) :
    validator.check candidate = .ok event := by
  unfold accept at h
  cases hcheck : validator.check candidate with
  | error failures =>
    rw [hcheck] at h
    cases h
  | ok checked =>
    rw [hcheck] at h
    simp only at h
    split_ifs at h
    rw [Except.ok.inj h]

/-- **A batch without a refusal is its candidates**, each as the schema let it
through. -/
theorem acceptAll_of_none_rejected {Candidate : Type*}
    {validator : RunEventValidator Candidate} {runId : ℕ}
    {candidates : List Candidate}
    (h : (validator.acceptAll runId candidates).1 = []) :
    List.Forall₂ (fun candidate event => validator.check candidate = .ok event)
      candidates (validator.acceptAll runId candidates).2 := by
  have hfold : ∀ (rest : List Candidate) (rejected : List RejectedEvent)
      (events : List RunEventPayload) (index : ℕ)
      (out : List RejectedEvent × List RunEventPayload),
      (rest.zipIdx index).foldl (fun (rejected, events) (candidate, index) =>
        match validator.accept runId index candidate with
        | .error refusal => (rejected ++ [refusal], events)
        | .ok event => (rejected, events ++ [event])) (rejected, events) = out →
      out.1 = [] → rejected = [] ∧ ∃ more, out.2 = events ++ more ∧
        List.Forall₂ (fun candidate event =>
          validator.check candidate = .ok event) rest more := by
    intro rest
    induction rest with
    | nil =>
      intro rejected events index out hout hnone
      rw [← hout] at hnone ⊢
      exact ⟨hnone, [], (List.append_nil _).symm, .nil⟩
    | cons candidate rest ih =>
      intro rejected events index out hout hnone
      rw [List.zipIdx_cons, List.foldl_cons] at hout
      cases haccept : validator.accept runId index candidate with
      | error refusal =>
        -- a refusal stays in the list to the end
        simp only [haccept] at hout
        have hrejected := (ih _ _ _ _ hout hnone).1
        exact absurd hrejected (List.concat_ne_nil refusal rejected)
      | ok event =>
        simp only [haccept] at hout
        obtain ⟨hrejected, more, hmore, hall⟩ := ih _ _ _ _ hout hnone
        refine ⟨hrejected, event :: more, ?_,
          .cons (check_of_accept haccept) hall⟩
        rw [hmore, List.append_assoc, List.singleton_append]
  obtain ⟨-, more, hmore, hall⟩ := hfold candidates [] [] 0 _ rfl h
  rw [List.nil_append] at hmore
  rw [show (validator.acceptAll runId candidates).2 = more from hmore]
  exact hall

end RunEventValidator

/-! ## What a batch says about the run -/

section Batch

variable {events : List RunEventPayload} {event : RunEventPayload}
  {newest : Instant}

instance : Std.TransCmp byOccurredAt where
  eq_swap {a b} :=
    show compare a.occurredAt b.occurredAt
        = (compare b.occurredAt a.occurredAt).swap from Std.OrientedCmp.eq_swap
  isLE_trans {a _ c} hab hbc :=
    show (compare a.occurredAt c.occurredAt).isLE from
      Std.TransCmp.isLE_trans hab hbc

theorem newestOf_eq_none : newestOf events = none ↔ events = [] := by
  unfold newestOf
  cases events with
  | nil => simp
  | cons event events => simp

/-- The reduction is a maximum. -/
theorem newestOf_cons :
    newestOf (event :: events)
      = some ((events.map (·.occurredAt)).foldl max event.occurredAt) := by
  show some _ = some _
  congr 1
  refine congrArg (fun step => List.foldl step event.occurredAt
    (events.map (·.occurredAt))) ?_
  funext latest at'
  by_cases h : latest < at'
  · rw [if_pos h, max_eq_right h.le]
  · rw [if_neg h, max_eq_left (not_lt.mp h)]

theorem newestOf_spec (h : newestOf events = some newest) :
    (∃ event ∈ events, event.occurredAt = newest) ∧
      ∀ event ∈ events, event.occurredAt ≤ newest := by
  induction events generalizing newest with
  | nil => cases h
  | cons first events ih =>
    rw [newestOf_cons] at h
    cases events with
    | nil =>
      cases h
      exact ⟨⟨first, List.mem_cons_self, rfl⟩, by simp⟩
    | cons second events =>
      -- the maximum of the rest, and then of that and the first
      obtain ⟨⟨event, hevent, hat⟩, hle⟩ := ih newestOf_cons
      have hnewest : max first.occurredAt
          ((events.map (·.occurredAt)).foldl max second.occurredAt)
            = newest := by
        rw [← Option.some.inj h, List.map_cons, List.foldl_cons,
          List.foldl_assoc]
      refine ⟨?_, ?_⟩
      · obtain hmax | hmax := max_choice first.occurredAt
          ((events.map (·.occurredAt)).foldl max second.occurredAt)
        · exact ⟨first, List.mem_cons_self, by rw [← hnewest, hmax]⟩
        · exact ⟨event, List.mem_cons_of_mem _ hevent,
            by rw [hat, ← hnewest, hmax]⟩
      · intro other hother
        rw [← hnewest]
        obtain rfl | hother := List.mem_cons.mp hother
        · exact le_max_left _ _
        · exact le_max_of_le_right (hle other hother)

/-- The newest instant of a batch is one of its events' and none of them is
later. -/
theorem newestOf_eq_some :
    newestOf events = some newest ↔
      (∃ event ∈ events, event.occurredAt = newest) ∧
        ∀ event ∈ events, event.occurredAt ≤ newest := by
  refine ⟨newestOf_spec, fun ⟨⟨event, hevent, hat⟩, hle⟩ => ?_⟩
  obtain ⟨latest, hlatest⟩ : ∃ latest, newestOf events = some latest :=
    Option.ne_none_iff_exists'.mp fun hnone => by
      rw [newestOf_eq_none.mp hnone] at hevent
      exact List.not_mem_nil hevent
  obtain ⟨⟨other, hother, hat'⟩, hle'⟩ := newestOf_spec hlatest
  have hsame : latest = newest :=
    le_antisymm (hat' ▸ hle other hother) (hat ▸ hle' event hevent)
  rw [hlatest, hsame]

/-- The last event of a batch happened when its newest did. -/
theorem last_newest
    (h : (rank byOccurredAt events).getLast? = some event) :
    event ∈ events ∧ newestOf events = some event.occurredAt := by
  obtain ⟨hmem, hlast⟩ := Preference.getLast?_rank_eq_some h
  refine ⟨hmem, newestOf_eq_some.mpr ⟨⟨event, hmem, rfl⟩, fun other hother => ?_⟩⟩
  exact Std.isLE_compare.mp (hlast other hother)

theorem terminalEventIn_eq_some (h : terminalEventIn events = some event) :
    event ∈ events ∧ event.type.isTerminal := by
  obtain ⟨hmem, -⟩ := Preference.getLast?_rank_eq_some h
  exact List.mem_filter.mp hmem

theorem terminalEventIn_eq_none :
    terminalEventIn events = none ↔
      ∀ event ∈ events, event.type.isTerminal = false := by
  rw [terminalEventIn, Preference.getLast?_rank_eq_none,
    List.filter_eq_nil_iff]
  simp

end Batch

/-! ## Columns a statement leaves alone -/

/-- The columns that only move up: a delivery that comes late does not take back what a
newer one has written. -/
structure Counters where
  lastEventAt : Option Instant
  costUsd : Option Usd
  tokensInput : Option ℕ
  tokensOutput : Option ℕ
deriving DecidableEq

namespace RunRow

/-- The four columns that a batch moves whatever its events are. -/
def counters (run : RunRow) : Counters :=
  ⟨run.lastEventAt, run.costUsd, run.tokensInput, run.tokensOutput⟩

variable (run : RunRow)

@[simp] theorem counters_blockRun : run.blockRun.counters = run.counters := by
  rw [blockRun]
  split <;> rfl

@[simp] theorem counters_resumeRun : run.resumeRun.counters = run.counters := by
  rw [resumeRun]
  split <;> rfl

@[simp] theorem counters_concludeRun (terminal : RunEventPayload) :
    (run.concludeRun terminal).counters = run.counters := by
  rw [concludeRun]
  split <;> rfl

/-! ### A run that is not live stays as it is -/

variable {run}

theorem isResumable_of_not_live (h : run.status.isLive = false) :
    run.isResumable = false := by
  rw [isResumable]
  cases hstatus : run.status <;> rw [hstatus] at h <;>
    first | rfl | cases h

theorem blockRun_of_not_live (h : run.status.isLive = false) :
    run.blockRun = run := by
  rw [blockRun, h]
  rfl

theorem resumeRun_of_not_live (h : run.status.isLive = false) :
    run.resumeRun = run := by
  rw [resumeRun, isResumable_of_not_live h]
  rfl

theorem concludeRun_of_not_live {terminal : RunEventPayload}
    (h : run.status.isLive = false) : run.concludeRun terminal = run := by
  rw [concludeRun, h]
  rfl

theorem status_blockRun (h : run.status.isLive = true) :
    run.blockRun.status = .blocked := by
  rw [blockRun, if_pos h]

/-- A live run that reports is running, whether it was thought so or not. -/
theorem status_resumeRun (h : run.status.isLive = true) :
    run.resumeRun.status = .running := by
  rw [resumeRun, isResumable]
  cases hstatus : run.status <;> rw [hstatus] at h
  case running => exact hstatus
  case stalled => rfl
  case blocked => rfl
  all_goals cases h

theorem concludeRun_of_live {terminal : RunEventPayload}
    (h : run.status.isLive = true) :
    run.concludeRun terminal
      = (run.conclude terminal).endOpenAttempts terminal := by
  rw [concludeRun, if_pos h]

/-- An ending is no block. -/
theorem status_conclude_ne_blocked (terminal : RunEventPayload)
    (run : RunRow) :
    ((run.conclude terminal).endOpenAttempts terminal).status ≠ .blocked := by
  show (if terminal.type == .completed then RunStatus.succeeded
    else RunStatus.failed) ≠ .blocked
  split
  · exact fun h => by cases h
  · exact fun h => by cases h

end RunRow

/-! ## The status statement of a delivery -/

section Transition

variable {events : List RunEventPayload} {advanced : Bool} {run : RunRow}

@[simp] theorem counters_transition :
    (transition events advanced run).counters = run.counters := by
  rw [transition]
  split
  · exact run.counters_concludeRun _
  · split_ifs
    · split
      · exact run.counters_blockRun
      · exact run.counters_resumeRun
    · rfl

theorem transition_of_not_live (h : run.status.isLive = false) :
    transition events advanced run = run := by
  rw [transition]
  split
  · exact RunRow.concludeRun_of_not_live h
  · split_ifs
    · split
      · exact RunRow.blockRun_of_not_live h
      · exact RunRow.resumeRun_of_not_live h
    · rfl

theorem transition_of_terminal {terminal : RunEventPayload}
    (h : terminalEventIn events = some terminal) :
    transition events advanced run = run.concludeRun terminal := by
  rw [transition, h]

/-- A batch without an ending that moved nothing forward leaves the status. -/
theorem transition_not_advanced (h : terminalEventIn events = none) :
    transition events false run = run := by
  rw [transition, h]
  rfl

/-- Only a conclusion ends a run. -/
theorem endedAt_transition (h : terminalEventIn events = none) :
    (transition events advanced run).endedAt = run.endedAt := by
  rw [transition, h]
  show (if advanced then
    match blockingEventIn events with
    | some _ => run.blockRun
    | none => run.resumeRun
    else run).endedAt = run.endedAt
  split_ifs
  · split
    · rw [RunRow.blockRun]
      split <;> rfl
    · rw [RunRow.resumeRun]
      split <;> rfl
  · rfl

theorem transition_advanced (h : terminalEventIn events = none) :
    transition events true run
      = if (blockingEventIn events).isSome then run.blockRun
        else run.resumeRun := by
  rw [transition, h]
  show (match blockingEventIn events with
    | some _ => run.blockRun
    | none => run.resumeRun) = _
  cases blockingEventIn events <;> rfl

end Transition

theorem advanceRun_eq {record : RunRecord} {events : List RunEventPayload}
    {newest : Instant} (h : newestOf events = some newest) :
    advanceRun record events
      = transition events (below record.run.lastEventAt newest)
          ((record.run.moveLastEventAt newest).rollUpCost
            (aggregate record.events)) := by
  rw [advanceRun, h]

theorem run_persist {record : RunRecord} {events : List RunEventPayload}
    {newest : Instant} (h : newestOf events = some newest) :
    (record.persist events).1.run
      = transition events (below record.run.lastEventAt newest)
          ((record.run.moveLastEventAt newest).rollUpCost
            (aggregate (createMany record.events (events.map toRow)))) :=
  @advanceRun_eq ⟨record.run, createMany record.events (events.map toRow)⟩
    events newest h

/-- A batch without a newest event leaves the run as it is. -/
theorem run_persist_of_none {record : RunRecord} {events : List RunEventPayload}
    (h : newestOf events = none) : (record.persist events).1.run = record.run := by
  show advanceRun ⟨record.run, createMany record.events (events.map toRow)⟩ events = _
  rw [advanceRun, h]

/-! ## A run that has ended -/

section Ended

variable {events : List RunEventPayload} {record : RunRecord}

theorem not_live_concludeRun (run : RunRow) (terminal : RunEventPayload) :
    (run.concludeRun terminal).status.isLive = false := by
  cases hlive : run.status.isLive with
  | false => rw [RunRow.concludeRun_of_not_live hlive, hlive]
  | true =>
    rw [RunRow.concludeRun_of_live hlive]
    show (if terminal.type == .completed then RunStatus.succeeded
      else RunStatus.failed).isLive = false
    split <;> rfl

/-- No batch brings an ended run back. -/
theorem not_live_persist (h : record.run.status.isLive = false) :
    (record.persist events).1.run.status.isLive = false := by
  cases hnewest : newestOf events with
  | none =>
    rw [run_persist_of_none hnewest]
    exact h
  | some newest =>
    rw [run_persist hnewest]
    generalize aggregate (createMany record.events (events.map toRow)) = totals
    have hended : ((record.run.moveLastEventAt newest).rollUpCost totals).status.isLive
        = false := by
      rw [RunRow.rollUpCost_status, RunRow.moveLastEventAt_status]
      exact h
    rw [transition_of_not_live hended]
    exact hended

/-- A batch that carries an ending ends the run. -/
theorem not_live_persist_of_terminal {terminal : RunEventPayload}
    (hmem : terminal ∈ events) (hterminal : terminal.type.isTerminal = true) :
    (record.persist events).1.run.status.isLive = false := by
  obtain ⟨newest, hnewest⟩ : ∃ newest, newestOf events = some newest :=
    Option.ne_none_iff_exists'.mp fun hnone => by
      rw [newestOf_eq_none.mp hnone] at hmem
      exact List.not_mem_nil hmem
  obtain ⟨last, hlast⟩ : ∃ last, terminalEventIn events = some last :=
    Option.ne_none_iff_exists'.mp fun hnone => by
      rw [terminalEventIn_eq_none.mp hnone terminal hmem] at hterminal
      cases hterminal
  rw [run_persist hnewest, transition_of_terminal hlast]
  exact not_live_concludeRun _ last

end Ended

/-! ## The plan to wake a run -/

section Plan

variable {events : List RunEventPayload} {advanced : Bool} {run : RunRow}

@[simp] theorem resumesAt_blockRun : run.blockRun.resumesAt = run.resumesAt := by
  rw [RunRow.blockRun]
  split <;> rfl

@[simp] theorem resumesAt_concludeRun {terminal : RunEventPayload} :
    (run.concludeRun terminal).resumesAt = run.resumesAt := by
  rw [RunRow.concludeRun]
  split <;> rfl

theorem resumesAt_resumeRun :
    run.resumeRun.resumesAt = if run.isResumable then none else run.resumesAt := by
  rw [RunRow.resumeRun]
  split <;> rfl

/-- A delivery keeps the plan or erases it. -/
theorem resumesAt_transition :
    (transition events advanced run).resumesAt = run.resumesAt ∨
      (transition events advanced run).resumesAt = none := by
  rw [transition]
  split
  · exact Or.inl resumesAt_concludeRun
  · split_ifs
    · split
      · exact Or.inl resumesAt_blockRun
      · rw [resumesAt_resumeRun]
        split
        · exact Or.inr rfl
        · exact Or.inl rfl
    · exact Or.inl rfl

end Plan

theorem resumesAt_persist {record : RunRecord} {events : List RunEventPayload}
    {plan : Instant}
    (h : (record.persist events).1.run.resumesAt = some plan) :
    record.run.resumesAt = some plan := by
  cases hnewest : newestOf events with
  | none =>
    rw [run_persist_of_none hnewest] at h
    exact h
  | some newest =>
    rw [run_persist hnewest] at h
    generalize aggregate (createMany record.events (events.map toRow)) = totals at h
    obtain hkept | herased := @resumesAt_transition events
      (below record.run.lastEventAt newest)
      ((record.run.moveLastEventAt newest).rollUpCost totals)
    · rw [hkept, RunRow.rollUpCost_resumesAt, RunRow.moveLastEventAt_resumesAt] at h
      exact h
    · rw [herased] at h
      cases h

theorem exists_newestOf {events : List RunEventPayload} (h : events ≠ []) :
    ∃ newest, newestOf events = some newest :=
  Option.ne_none_iff_exists'.mp (mt newestOf_eq_none.mp h)

end Opifex
