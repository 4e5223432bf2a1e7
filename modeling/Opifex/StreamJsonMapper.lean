import Opifex.Lib.Json
import Opifex.Lib.JsonValue
import Opifex.RunPoller

/-!
# From `stream-json` to events

One parsed line of the CLI's output becomes an event, a sighting of a quota
window, the CLI's own result, or nothing. Unmappable lines are dropped, never
guessed. The result line does not end the run: the exit of the process does.

How dates and numbers print and parse is the standard library's; so is the
digest. A reset too far away to be a date throws.
-/

namespace Opifex

/-- The numbers a runner reports, as they came: nothing says that they are whole, or
that they are not below zero. -/
structure ReportedCost where
  usd : Option ℚ
  tokensInput : Option ℚ
  tokensOutput : Option ℚ
deriving DecidableEq

/-- An event as a runner emits it, before any schema has seen it. Ingestion accepts it
only if it validates. -/
structure RunnerEvent where
  eventId : String
  runId : ℕ
  workOrderId : String
  type : RunEventType
  occurredAt : Instant
  /-- `key@version`. -/
  runner : String
  summary : Option String := none
  tool : Option RunEventTool := none
  cost : Option ReportedCost := none
  blocked : Option RunEventBlocked := none
  /-- The vendor's name for the window a block is on. -/
  blockedDetail : Option String := none
  branch : Option String := none
  failure : Option RunEventFailure := none
deriving DecidableEq

/-- A whole number of tokens. -/
def ReportedCost.toCost (cost : ReportedCost) : RunEventCost where
  usd := cost.usd
  tokensInput := cost.tokensInput.map fun tokens => ⌊tokens⌋.toNat
  tokensOutput := cost.tokensOutput.map fun tokens => ⌊tokens⌋.toNat

/-- The event, once a schema has let it through. -/
def RunnerEvent.toPayload (event : RunnerEvent) : RunEventPayload where
  eventId := event.eventId
  runId := event.runId
  workOrderId := event.workOrderId
  type := event.type
  source := .runnerReported
  occurredAt := event.occurredAt
  summary := event.summary
  tool := event.tool
  cost := event.cost.map ReportedCost.toCost
  blocked := event.blocked
  result := event.branch.map fun branch => ⟨some branch, none, none⟩
  failure := event.failure

/-- The validator of runner events: what the compiled schema lets through is
the event itself. -/
def runnerValidator
    (fits : RunnerEvent → Except (List ValidationFailure) Unit) :
    RunEventValidator RunnerEvent where
  check event := (fits event).map fun _ => event.toPayload
  readEventId event := some event.eventId

/-- Whatever the schema, an accepted batch is the events themselves. -/
theorem runnerValidator_acceptAll
    {fits : RunnerEvent → Except (List ValidationFailure) Unit} {runId : ℕ}
    {events : List RunnerEvent}
    (h : ((runnerValidator fits).acceptAll runId events).1 = []) :
    ((runnerValidator fits).acceptAll runId events).2
      = events.map RunnerEvent.toPayload := by
  have hall := RunEventValidator.acceptAll_of_none_rejected h
  refine (List.forall₂_eq_eq_eq ▸ List.forall₂_map_left_iff.mpr
    (hall.imp fun event payload hcheck => ?_)).symm
  unfold runnerValidator at hcheck
  simp only at hcheck
  cases hfits : fits event with
  | error failures =>
    rw [hfits] at hcheck
    cases hcheck
  | ok _ =>
    rw [hfits] at hcheck
    exact Except.ok.inj hcheck

/-- What the mapper is told beside the line, by the runner that has read it. -/
structure MapperContext where
  runId : ℕ
  workOrderId : String
  runnerKey : String
  /-- Receipt time, for the lines the CLI does not timestamp itself. -/
  receivedAt : Instant
  /-- The next random identifier. -/
  randomId : String

/-- The standard library's part: dates, the text of numbers, and the digest that a
signature is. -/
structure MapperEnv where
  /-- `new Date(text)`, unless it is invalid. -/
  readDate : String → Option Instant
  /-- `JSON.stringify` of a number. -/
  numberText : ℚ → String
  /-- `createHash('sha256')`, in hexadecimal. -/
  sha256Hex : String → String

/-- Cost and outcome scraped off the CLI's `result` line. -/
structure StreamResult where
  isError : Bool
  subtype : String
  costUsd : Option ℚ
  tokensInput : Option ℚ
  tokensOutput : Option ℚ
  permissionDenials : ℕ
deriving DecidableEq

/-- Why a line maps to nothing. -/
inductive DropReason where
  | notAnObject
  | unmappedType (type : String)
  | noContentBlock
  | noToolResult
  | noRateLimitInfo
  | undated (status : String)
  | unmappedSubtype
deriving DecidableEq

/-- What a line of the stream is: an event, the result, a sighting of a quota window, or
nothing that is passed on. -/
inductive StreamMapping where
  | event (event : RunnerEvent) (quota : Option RunnerQuotaObservation)
  | result (result : StreamResult)
  /-- A quota window sighting and nothing else. -/
  | quota (quota : RunnerQuotaObservation)
  | drop (reason : DropReason)
deriving DecidableEq

/-- How much agent prose reaches a summary. -/
def summaryMaxLength : ℕ := 400

/-- A text on one line, cut to the length of a summary. The length is in UTF-16 units.
-/
def truncate (text : String) : String :=
  let clean := String.ofList (Text.collapseSpaces false (Text.trimChars text.toList))
  if Text.length clean ≤ summaryMaxLength then clean
  else String.ofList (Text.takeUnits (summaryMaxLength - 1) clean.toList) ++ "…"

namespace MapperEnv

variable (env : MapperEnv)

/-! ## The digest of a tool call -/

/-- Of properties of one name the last. -/
def keepLast (entries : List (String × String)) : List (String × String) :=
  entries.foldl (fun kept entry =>
    kept.filter (fun other => other.1 != entry.1) ++ [entry]) []

mutual

/-- A value with the keys of its objects sorted. -/
def canonicalJson : JsonValue → String
  | .null => "null"
  | .bool value => if value then "true" else "false"
  | .num value => env.numberText value
  | .infinite => "null"
  | .str text => Json.quote text
  | .arr items => "[" ++ ",".intercalate (canonicalItems items) ++ "]"
  | .obj fields =>
    let entries := Preference.rank (fun a b => Text.compareUnits a.1 b.1)
      (keepLast (canonicalFields fields))
    "\x7b" ++ ",".intercalate (entries.map fun (key, text) =>
      Json.quote key ++ ":" ++ text) ++ "\x7d"

/-- The items of an array, each in canonical form. -/
def canonicalItems : List JsonValue → List String
  | [] => []
  | item :: items => canonicalJson item :: canonicalItems items

/-- The fields of an object, each value in canonical form. They are sorted afterwards.
-/
def canonicalFields : List (String × JsonValue) → List (String × String)
  | [] => []
  | (key, value) :: fields =>
    (key, canonicalJson value) :: canonicalFields fields

end

/-- A stable digest of a tool call's arguments. -/
def toolSignature (input : Option JsonValue) : String :=
  String.ofList
    ((env.sha256Hex (env.canonicalJson (input.getD .null))).toList.take 32)

/-! ## Events -/

/-- When the line says it happened. -/
def cliTimestamp (line : JsonValue) : Option Instant :=
  (line.text? "timestamp").bind env.readDate

/-- What every event of a line carries. -/
def event (line : JsonValue) (context : MapperContext) (type : RunEventType) :
    RunnerEvent where
  -- the CLI stamps an identifier on every line, so a redelivery reuses it
  eventId := (line.text? "uuid").getD context.randomId
  runId := context.runId
  workOrderId := context.workOrderId
  type := type
  occurredAt := (env.cliTimestamp line).getD context.receivedAt
  runner := context.runnerKey

/-- The blocks of a message, where it has a list of them. -/
def contentBlocks (line : JsonValue) : List JsonValue :=
  (((line.record? "message").bind (·.items? "content")).getD []).filter
    JsonValue.isRecord

/-- `block.type === type`. -/
def hasType (type : String) (block : JsonValue) : Bool :=
  block.text? "type" == some type

/-- An assistant turn: a tool call, some prose, or some thinking. -/
def mapAssistant (line : JsonValue) (context : MapperContext) :
    StreamMapping :=
  let content := contentBlocks line
  let toolUse := content.find? (hasType "tool_use")
  match toolUse.bind (·.text? "name") with
  | some name =>
    .event
      { env.event line context .progress with
        summary := some ("Tool: " ++ name)
        tool := some ⟨name, env.toolSignature (toolUse.bind (·.field "input"))⟩ }
      none
  | none =>
    match ((content.find? (hasType "text")).bind (·.text? "text")).filter
        fun text => Text.truthy (Text.trim text) with
    | some text =>
      .event
        { env.event line context .progress with
          summary := some (truncate text) } none
    | none =>
      -- thinking is liveness, not progress
      if content.any (hasType "thinking") then
        .event
          { env.event line context .heartbeat with
            summary := some "Thinking" } none
      else .drop .noContentBlock

/-- A tool result coming back; an error in it is no failure of the run. -/
def mapUser (line : JsonValue) (context : MapperContext) : StreamMapping :=
  match (contentBlocks line).find? (hasType "tool_result") with
  | none => .drop .noToolResult
  | some result =>
    .event
      { env.event line context .heartbeat with
        summary := some (if result.isTrue "is_error" then "Tool result (error)"
          else "Tool result") } none

/-- The latest date there is, in milliseconds. -/
def maxDateMs : ℚ := 8640000000000000

/-- Unix seconds as an instant, or nothing. A date beyond the last one
throws. -/
def resetAt (info : JsonValue) : Except String (Option Instant) :=
  match info.number? "resetsAt" with
  | none => .ok none
  | some seconds =>
    if seconds ≤ 0 then .ok none
    else if maxDateMs < seconds * 1000 then .error "Invalid time value"
    else .ok (some ⌊seconds * 1000⌋)

/-- The CLI's words, mapped onto the ordinal. -/
def pressureOf (status : String) : QuotaPressure :=
  if status = "allowed" then .allowed
  else if status = "allowed_warning" then .warning
  else if status = "rejected" then .exhausted
  else .unknown

/-- A window sighting; an undated one is none. -/
def quotaObservation (info : JsonValue) (status : String)
    (resets : Option Instant) (context : MapperContext) :
    Option RunnerQuotaObservation :=
  resets.map fun resetsAt =>
    { runnerKey := context.runnerKey
      kind := ((info.text? "rateLimitType").filter Text.truthy).getD "unknown"
      resetsAt := resetsAt
      pressure := pressureOf status
      observedAt := context.receivedAt }

/-- The structured rate-limit signal. Only a refusal blocks the run. -/
def mapRateLimit (line : JsonValue) (context : MapperContext) :
    Except String StreamMapping :=
  match line.record? "rate_limit_info" with
  | none => .ok (.drop .noRateLimitInfo)
  | some info => do
    let status := (info.text? "status").getD "unknown"
    let resets ← resetAt info
    let quota := quotaObservation info status resets context
    if status ≠ "rejected" then
      match quota with
      | some quota => return .quota quota
      | none => return .drop (.undated status)
    else
      let exhausted :=
        info.text? "overageStatus" == some "rejected" &&
          info.isTrue "isUsingOverage"
      return .event
        { env.event line context .blocked with
          summary := some ("Rate limited (" ++ status ++ ")")
          blocked :=
            some ⟨if exhausted then .quotaExhausted else .rateLimit, resets⟩
          blockedDetail := info.text? "rateLimitType" } quota

/-- System lines: mostly noise. -/
def mapSystem (line : JsonValue) (context : MapperContext) : StreamMapping :=
  match line.text? "subtype" with
  | some "init" =>
    .event
      { env.event line context .progress with
        summary := some ("Agent ready" ++
          ((line.text? "model").map (" on " ++ ·)).getD "") } none
  | some "permission_denied" =>
    .event
      { env.event line context .progress with
        summary := some (truncate ("Permission denied for " ++
          (line.text? "tool_name").getD "a tool" ++
            ((line.text? "decision_reason").map (": " ++ ·)).getD "")) } none
  | _ => .drop .unmappedSubtype

/-- The final line, folded into the runner's own ending. -/
def mapResult (line : JsonValue) : StreamMapping :=
  let usage := (line.record? "usage").getD (.obj [])
  .result
    { isError := line.isTrue "is_error"
      subtype := (line.text? "subtype").getD "unknown"
      costUsd := line.number? "total_cost_usd"
      tokensInput := usage.number? "input_tokens"
      tokensOutput := usage.number? "output_tokens"
      permissionDenials :=
        ((line.items? "permission_denials").getD []).length }

/-- **One parsed line of `stream-json`.** -/
def mapStreamLine (line : JsonValue) (context : MapperContext) :
    Except String StreamMapping :=
  match line.text? "type" with
  | none => .ok (.drop .notAnObject)
  | some "assistant" => .ok (env.mapAssistant line context)
  | some "user" => .ok (env.mapUser line context)
  | some "rate_limit_event" => env.mapRateLimit line context
  | some "result" => .ok (mapResult line)
  | some "system" => .ok (env.mapSystem line context)
  | some type => .ok (.drop (.unmappedType type))

end MapperEnv

end Opifex
