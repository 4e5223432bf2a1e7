import Opifex.Escalations
import Opifex.Lib.Machine
import Opifex.Lib.Preference

/-!
# The escalation desk

Everything that happens to escalations happens in one of four calls: a tick
raises what it found and resolves what cleared, a pass of the dispatcher sends
what is owed and fails what no device confirmed, a device posts a receipt, and
an operator acknowledges. Each call is a program of database statements, and
between two of its statements those of any other call can land.

A desk is the table with the calls under way. A turn executes the next
statement of one of them, so a list of turns is an interleaving.
-/

namespace Opifex

open Preference (rank)

/-! ## Sending -/

/-- What happened to one send: `accepted` is not `delivered`. A push service that takes
a payload has not shown it to anybody. -/
structure SendOutcome where
  accepted : Bool
  error : Option String := none
  statusCode : Option ℕ := none
deriving DecidableEq

/-- The reason of one rejection. -/
def SendOutcome.reason (outcome : SendOutcome) : String :=
  (match outcome.statusCode with
    | none | some 0 => ""
    | some statusCode => toString statusCode ++ ": ") ++
    outcome.error.getD ""

/-- Why nothing took it. -/
def describeFailure (targetCount : ℕ) (outcomes : List SendOutcome)
    (configured : Bool) : String :=
  if !configured then
    "Web Push is not configured: set VAPID_PUBLIC_KEY, VAPID_PRIVATE_KEY and VAPID_SUBJECT. " ++
      "Until then no escalation can reach a phone."
  else if targetCount = 0 then
    "No devices are subscribed. Open the cockpit on a phone and enable notifications, " ++
      "or every escalation will stop here."
  else
    "All " ++ toString targetCount ++
      " subscribed device(s) rejected the notification. " ++
      String.intercalate "; "
        ((outcomes.map SendOutcome.reason).filter (· ≠ ""))

/-- How the sends of one delivery turn out: one answer of each subscribed
device's push service, and what the fallback webhook would answer, if one is
configured. -/
structure Attempt where
  configured : Bool
  outcomes : List SendOutcome
  fallback : Option SendOutcome
deriving DecidableEq

namespace Attempt

/-- Some push service took the payload. -/
def accepted (attempt : Attempt) : Bool := attempt.outcomes.any (·.accepted)

/-- Some transport took the payload: the fallback is asked when no push
service did. -/
def taken (attempt : Attempt) : Bool :=
  attempt.accepted || attempt.fallback.any (·.accepted)

/-- What `deliver`, or `reroute` for it, writes after the sends. -/
def update (attempt : Attempt) (receiptId : ℕ) (now : Instant) :
    EscalationUpdate :=
  if attempt.accepted then .dispatched "push" receiptId now none
  else
    let reason :=
      describeFailure attempt.outcomes.length attempt.outcomes
        attempt.configured
    if attempt.fallback.any (·.accepted) then
      .dispatched "webhook" receiptId now <| some <|
        "Web Push did not deliver, re-routed to the fallback webhook. " ++
          reason
    else .refused reason

end Attempt

/-- How many times one escalation is sent before it is given up on. -/
def maxDeliveryAttempts : ℕ := 5

/-- How many escalations one pass sends. -/
def pendingBatchSize : ℕ := 25

/-- Still owed to a human. -/
def EscalationRow.isPending (escalation : EscalationRow) : Bool :=
  [EscalationStatus.raised, .failed].contains escalation.status
    && escalation.deliveryAttempts < maxDeliveryAttempts

/-- What a pass sends: the longest waiting first. -/
def loadPending (escalations : Table EscalationRow) : List EscalationRow :=
  (rank (fun a b => compare a.raisedAt b.raisedAt)
    (escalations.rows.filter EscalationRow.isPending)).take pendingBatchSize

/-- Dispatched, and no device said it arrived. -/
def EscalationRow.isOverdue (cutoff : Instant) (escalation : EscalationRow) :
    Bool :=
  escalation.status == .dispatched && escalation.deliveredAt.isNone
    && escalation.dispatchedAt.any (· < cutoff)

/-- Why an overdue escalation is failed. -/
def EscalationRow.unconfirmedReason (timeoutMs : ℤ)
    (escalation : EscalationRow) : String :=
  "A transport accepted this escalation but no device confirmed it within " ++
    toString ((timeoutMs + 500) / 1000) ++
    "s. It was sent and probably not seen." ++
    ((escalation.failureReason.filter (· ≠ "")).elim "" (" Earlier: " ++ ·))

/-! ## Calls -/

/-- A call under way, by what it has still to do. It is cut at its statements, and what
it carries is what it has loaded, however old that is by now. -/
inductive EscalationCall where
  /-- `raiseEscalations`: the next action is looked up. -/
  | raising (actions : List HandedAction) (recovered : List ℕ)
  /-- Nothing was found for the action; its row is created. -/
  | creating (action : HandedAction) (actions : List HandedAction)
      (recovered : List ℕ)
  /-- `dispatchPending`: the pending escalations are loaded. -/
  | loading (now : Instant)
  /-- The next of them is sent; after the last the overdue are loaded. -/
  | delivering (pending : List EscalationRow) (now : Instant)
  /-- It was sent with this token; the outcome is written. -/
  | storing (escalation : EscalationRow) (receiptId : ℕ) (attempt : Attempt)
      (pending : List EscalationRow) (now : Instant)
  /-- The next overdue escalation is failed. -/
  | sweeping (overdue : List EscalationRow) (timeoutMs : ℤ)
  /-- `recordReceipt`: the token is looked up. -/
  | receipt (receiptId : ℕ) (arrivedAt : Instant)
  /-- `markDelivered`: the escalation is read. -/
  | marking (id receiptId : ℕ) (deliveredAt : Instant)
  /-- It was read as not delivered; the delivery is written. -/
  | confirming (escalation : EscalationRow) (receiptId : ℕ)
      (deliveredAt : Instant)
  /-- `acknowledge`: the escalation is read. -/
  | acknowledge (id userId : ℕ)
  /-- It was read as not acknowledged; the acknowledgement is written. -/
  | acknowledging (id userId : ℕ)
deriving DecidableEq

/-- The runs some `escalate` action of the tick concerns. -/
def stillEscalating (actions : List HandedAction) : List ℕ :=
  (actions.filter (·.type == .escalate)).filterMap (·.runId)

/-- The runs the tick judged and did not escalate about. -/
def recovered (actions : List HandedAction) (judgedRunIds : List ℕ) :
    List ℕ :=
  judgedRunIds.filter fun runId => !(stillEscalating actions).contains runId

/-- What starts a call: actions of the reconciler, a tick of the dispatcher, a receipt
of a device, or a person who acknowledges. -/
inductive EscalationRequest where
  | raiseEscalations (actions : List HandedAction) (judgedRunIds : List ℕ)
  | dispatchPending (now : Instant)
  | recordReceipt (receiptId : ℕ) (arrivedAt : Instant)
  | acknowledge (id userId : ℕ)
deriving DecidableEq

/-- The call that a request starts, at its first statement. -/
def EscalationRequest.call : EscalationRequest → EscalationCall
  | .raiseEscalations actions judgedRunIds =>
    .raising (actions.filter (·.type == .escalate))
      (recovered actions judgedRunIds)
  | .dispatchPending now => .loading now
  | .recordReceipt receiptId arrivedAt => .receipt receiptId arrivedAt
  | .acknowledge id userId => .acknowledge id userId

/-- What the outside world gives a statement: the clock, the setting of the timeout, and
what the transports say. -/
structure DeskAnswer where
  now : Instant := 0
  receiptTimeoutMs : ℤ := 120000
  attempt : Attempt := ⟨true, [], none⟩
deriving DecidableEq

/-- What a statement writes, and what the call has to do after it; a call that
returned, or threw, has nothing. -/
structure Proceeding where
  write : Option EscalationWrite
  next : Option EscalationCall
deriving DecidableEq

namespace EscalationCall

/-- **The next statement of a call.** -/
def proceed (escalations : Table EscalationRow) (token : ℕ)
    (answer : DeskAnswer) : EscalationCall → Proceeding
  | .raising [] recovered =>
    -- `resolveStale` has nothing to ask the database about no run
    ⟨if recovered = [] then none else some (.resolveStale recovered), none⟩
  | .raising (action :: actions) recovered =>
    match existing escalations action.runId action.kind with
    | some _ => ⟨none, some (.raising actions recovered)⟩
    | none => ⟨none, some (.creating action actions recovered)⟩
  | .creating action actions recovered =>
    match action.row answer.now with
    | .ok escalation =>
      ⟨some (.create escalation), some (.raising actions recovered)⟩
    -- the tick catches the error: nothing more is raised or resolved
    | .error _ => ⟨none, none⟩
  | .loading now => ⟨none, some (.delivering (loadPending escalations) now)⟩
  | .delivering [] now =>
    let cutoff := now - answer.receiptTimeoutMs
    ⟨none,
      some (.sweeping (escalations.rows.filter (EscalationRow.isOverdue cutoff))
        answer.receiptTimeoutMs)⟩
  | .delivering (escalation :: pending) now =>
    ⟨none, some (.storing escalation token answer.attempt pending now)⟩
  | .storing escalation receiptId attempt pending now =>
    ⟨some (.update escalation.id (attempt.update receiptId now)),
      some (.delivering pending now)⟩
  | .sweeping [] _ => ⟨none, none⟩
  | .sweeping (escalation :: overdue) timeoutMs =>
    ⟨some (.update escalation.id
        (.unconfirmed (escalation.unconfirmedReason timeoutMs))),
      some (.sweeping overdue timeoutMs)⟩
  | .receipt receiptId arrivedAt =>
    match escalations.rows.find? (·.receiptId == some receiptId) with
    -- `NotFoundException('Unknown receipt')`
    | none => ⟨none, none⟩
    | some escalation =>
      if escalation.deliveredAt.isSome then ⟨none, none⟩
      else ⟨none, some (.marking escalation.id receiptId arrivedAt)⟩
  | .marking id receiptId deliveredAt =>
    match escalations.find id with
    | none => ⟨none, none⟩
    | some escalation =>
      if escalation.deliveredAt.isSome then ⟨none, none⟩
      else ⟨none, some (.confirming escalation receiptId deliveredAt)⟩
  | .confirming escalation receiptId deliveredAt =>
    let notifyLatencyMs := escalation.progressStoppedAt.map
      fun stoppedAt => elapsed stoppedAt deliveredAt
    if notifyLatencyMs.all fitsInteger then
      ⟨some (.update escalation.id
        (.delivered "push" receiptId deliveredAt notifyLatencyMs)), none⟩
    else ⟨none, none⟩
  | .acknowledge id userId =>
    match escalations.find id with
    | none => ⟨none, none⟩
    | some escalation =>
      if escalation.acknowledgedAt.isSome then ⟨none, none⟩
      else ⟨none, some (.acknowledging id userId)⟩
  | .acknowledging id userId =>
    ⟨some (.update id (.acknowledged answer.now userId)), none⟩

/-- The statements that write, by the call that executes them. What a step does to the
rows is read off this list and not off the calls. -/
inductive Writes (answer : DeskAnswer) :
    EscalationCall → EscalationWrite → Prop where
  | resolve {recovered : List ℕ} (hrecovered : recovered ≠ []) :
    Writes answer (.raising [] recovered) (.resolveStale recovered)
  | create {action : HandedAction} {escalation : EscalationRow}
      (hrow : action.row answer.now = .ok escalation)
      (actions : List HandedAction) (recovered : List ℕ) :
    Writes answer (.creating action actions recovered) (.create escalation)
  | store (escalation : EscalationRow) (receiptId : ℕ) (attempt : Attempt)
      (pending : List EscalationRow) (now : Instant) :
    Writes answer (.storing escalation receiptId attempt pending now)
      (.update escalation.id (attempt.update receiptId now))
  | sweep (escalation : EscalationRow) (overdue : List EscalationRow)
      (timeoutMs : ℤ) :
    Writes answer (.sweeping (escalation :: overdue) timeoutMs)
      (.update escalation.id
        (.unconfirmed (escalation.unconfirmedReason timeoutMs)))
  | confirm {escalation : EscalationRow} {deliveredAt : Instant}
      (hfits : (escalation.progressStoppedAt.map fun stoppedAt =>
        elapsed stoppedAt deliveredAt).all fitsInteger)
      (receiptId : ℕ) :
    Writes answer (.confirming escalation receiptId deliveredAt)
      (.update escalation.id
        (.delivered "push" receiptId deliveredAt
          (escalation.progressStoppedAt.map fun stoppedAt =>
            elapsed stoppedAt deliveredAt)))
  | acknowledge (id userId : ℕ) :
    Writes answer (.acknowledging id userId)
      (.update id (.acknowledged answer.now userId))

/-- How a call goes on after a statement, one constructor for each branch of the code
that follows it. -/
inductive Continues (escalations : Table EscalationRow) (token : ℕ)
    (answer : DeskAnswer) : EscalationCall → EscalationCall → Prop where
  | suppress {action : HandedAction} {escalation : EscalationRow}
      (hexisting : existing escalations action.runId action.kind
        = some escalation)
      (actions : List HandedAction) (recovered : List ℕ) :
    Continues escalations token answer (.raising (action :: actions) recovered)
      (.raising actions recovered)
  | create {action : HandedAction}
      (hexisting : existing escalations action.runId action.kind = none)
      (actions : List HandedAction) (recovered : List ℕ) :
    Continues escalations token answer (.raising (action :: actions) recovered)
      (.creating action actions recovered)
  | created {action : HandedAction} {escalation : EscalationRow}
      (hrow : action.row answer.now = .ok escalation)
      (actions : List HandedAction) (recovered : List ℕ) :
    Continues escalations token answer (.creating action actions recovered)
      (.raising actions recovered)
  | load (now : Instant) :
    Continues escalations token answer (.loading now)
      (.delivering (loadPending escalations) now)
  | sent (now : Instant) :
    Continues escalations token answer (.delivering [] now)
      (.sweeping (escalations.rows.filter
        (EscalationRow.isOverdue (now - answer.receiptTimeoutMs)))
          answer.receiptTimeoutMs)
  | send (escalation : EscalationRow) (pending : List EscalationRow)
      (now : Instant) :
    Continues escalations token answer (.delivering (escalation :: pending) now)
      (.storing escalation token answer.attempt pending now)
  | stored (escalation : EscalationRow) (receiptId : ℕ) (attempt : Attempt)
      (pending : List EscalationRow) (now : Instant) :
    Continues escalations token answer
      (.storing escalation receiptId attempt pending now)
      (.delivering pending now)
  | swept (escalation : EscalationRow) (overdue : List EscalationRow)
      (timeoutMs : ℤ) :
    Continues escalations token answer
      (.sweeping (escalation :: overdue) timeoutMs)
      (.sweeping overdue timeoutMs)
  | found {escalation : EscalationRow} {receiptId : ℕ}
      (hfind : escalations.rows.find? (·.receiptId == some receiptId)
        = some escalation)
      (hopen : ¬ escalation.deliveredAt.isSome) (arrivedAt : Instant) :
    Continues escalations token answer (.receipt receiptId arrivedAt)
      (.marking escalation.id receiptId arrivedAt)
  | read {escalation : EscalationRow} {id : ℕ}
      (hfind : escalations.find id = some escalation)
      (hopen : ¬ escalation.deliveredAt.isSome) (receiptId : ℕ)
      (deliveredAt : Instant) :
    Continues escalations token answer (.marking id receiptId deliveredAt)
      (.confirming escalation receiptId deliveredAt)
  | acknowledging {escalation : EscalationRow} {id : ℕ}
      (hfind : escalations.find id = some escalation)
      (hopen : ¬ escalation.acknowledgedAt.isSome) (userId : ℕ) :
    Continues escalations token answer (.acknowledge id userId)
      (.acknowledging id userId)

section Proceed

variable {escalations : Table EscalationRow} {token : ℕ} {answer : DeskAnswer}
  {call next : EscalationCall} {write : EscalationWrite}

/-- **What a statement writes.** -/
theorem writes_of_proceed
    (h : (call.proceed escalations token answer).write = some write) :
    Writes answer call write := by
  cases call with
  | raising actions recovered =>
    cases actions with
    | nil =>
      dsimp only [proceed] at h
      split_ifs at h with hrecovered
      obtain rfl := Option.some.inj h
      exact .resolve hrecovered
    | cons action actions =>
      dsimp only [proceed] at h
      split at h
      · cases h
      · cases h
  | creating action actions recovered =>
    dsimp only [proceed] at h
    split at h
    · rename_i escalation hrow
      obtain rfl := Option.some.inj h
      exact .create hrow actions recovered
    · cases h
  | loading now => cases h
  | delivering pending now =>
    cases pending with
    | nil => cases h
    | cons escalation pending => cases h
  | storing escalation receiptId attempt pending now =>
    obtain rfl := Option.some.inj h
    exact .store escalation receiptId attempt pending now
  | sweeping overdue timeoutMs =>
    cases overdue with
    | nil => cases h
    | cons escalation overdue =>
      obtain rfl := Option.some.inj h
      exact .sweep escalation overdue timeoutMs
  | receipt receiptId arrivedAt =>
    dsimp only [proceed] at h
    split at h
    · cases h
    · split_ifs at h
  | marking id receiptId deliveredAt =>
    dsimp only [proceed] at h
    split at h
    · cases h
    · split_ifs at h
  | confirming escalation receiptId deliveredAt =>
    dsimp only [proceed] at h
    split_ifs at h with hfits
    obtain rfl := Option.some.inj h
    exact .confirm hfits receiptId
  | acknowledge id userId =>
    dsimp only [proceed] at h
    split at h
    · cases h
    · split_ifs at h
  | acknowledging id userId =>
    obtain rfl := Option.some.inj h
    exact .acknowledge id userId

/-- **How a call goes on.** -/
theorem continues_of_proceed
    (h : (call.proceed escalations token answer).next = some next) :
    Continues escalations token answer call next := by
  cases call with
  | raising actions recovered =>
    cases actions with
    | nil => cases h
    | cons action actions =>
      dsimp only [proceed] at h
      split at h
      · rename_i escalation hexisting
        obtain rfl := Option.some.inj h
        exact .suppress hexisting actions recovered
      · rename_i hexisting
        obtain rfl := Option.some.inj h
        exact .create hexisting actions recovered
  | creating action actions recovered =>
    dsimp only [proceed] at h
    split at h
    · rename_i escalation hrow
      obtain rfl := Option.some.inj h
      exact .created hrow actions recovered
    · cases h
  | loading now =>
    obtain rfl := Option.some.inj h
    exact .load now
  | delivering pending now =>
    cases pending with
    | nil =>
      obtain rfl := Option.some.inj h
      exact .sent now
    | cons escalation pending =>
      obtain rfl := Option.some.inj h
      exact .send escalation pending now
  | storing escalation receiptId attempt pending now =>
    obtain rfl := Option.some.inj h
    exact .stored escalation receiptId attempt pending now
  | sweeping overdue timeoutMs =>
    cases overdue with
    | nil => cases h
    | cons escalation overdue =>
      obtain rfl := Option.some.inj h
      exact .swept escalation overdue timeoutMs
  | receipt receiptId arrivedAt =>
    dsimp only [proceed] at h
    split at h
    · cases h
    · rename_i escalation hfind
      split_ifs at h with hopen
      obtain rfl := Option.some.inj h
      exact .found hfind hopen arrivedAt
  | marking id receiptId deliveredAt =>
    dsimp only [proceed] at h
    split at h
    · cases h
    · rename_i escalation hfind
      split_ifs at h with hopen
      obtain rfl := Option.some.inj h
      exact .read hfind hopen receiptId deliveredAt
  | confirming escalation receiptId deliveredAt =>
    dsimp only [proceed] at h
    split_ifs at h
  | acknowledge id userId =>
    dsimp only [proceed] at h
    split at h
    · cases h
    · rename_i escalation hfind
      split_ifs at h with hopen
      obtain rfl := Option.some.inj h
      exact .acknowledging hfind hopen userId
  | acknowledging id userId => cases h

end Proceed

/-- The escalations the next statement draws a token for. -/
def draws : EscalationCall → List ℕ
  | .delivering (escalation :: _) _ => [escalation.id]
  | _ => []

end EscalationCall

/-! ## The desk -/

/-- The escalations, and the calls under way on them. The calls may be of several ticks
and requests; a turn names one by its place. -/
structure EscalationDesk where
  escalations : Table EscalationRow
  calls : List EscalationCall
  /-- The escalations receipt tokens were drawn for. A token is 32 random bytes
  and is never drawn twice: here it is its place in this list. -/
  drawn : List ℕ

/-- What happens next: a call starts, executes its next statement, or fails at it. A run
of turns is one interleaving of the calls. -/
inductive EscalationTurn where
  | start (request : EscalationRequest)
  /-- The next statement of the call in this place. -/
  | resume (place : ℕ) (answer : DeskAnswer)
  /-- A statement of the call in this place fails, and the call with it. -/
  | abandon (place : ℕ)
deriving DecidableEq

namespace EscalationDesk

/-- No escalation yet. -/
def opened : EscalationDesk := ⟨Table.empty, [], []⟩

/-- The call a turn proceeds with, and what its statement does. -/
def proceeding (desk : EscalationDesk) :
    EscalationTurn → Option (EscalationCall × Proceeding)
  | .resume place answer =>
    desk.calls[place]?.map fun call =>
      (call, call.proceed desk.escalations desk.drawn.length answer)
  | _ => none

/-- What a turn writes. -/
def written (desk : EscalationDesk) (turn : EscalationTurn) :
    Option EscalationWrite :=
  (desk.proceeding turn).bind fun (_, proceeding) => proceeding.write

/-- The table after a turn. -/
def tableAfter (desk : EscalationDesk) (turn : EscalationTurn) :
    Table EscalationRow :=
  (desk.written turn).elim desk.escalations (·.onTable desk.escalations)

/-- One turn. -/
def step (desk : EscalationDesk) (turn : EscalationTurn) : EscalationDesk :=
  { escalations := desk.tableAfter turn
    calls :=
      match turn with
      | .start request => desk.calls ++ [request.call]
      | .resume place _ =>
        desk.calls.eraseIdx place ++
          ((desk.proceeding turn).bind fun (_, proceeding) =>
            proceeding.next).toList
      | .abandon place => desk.calls.eraseIdx place
    drawn := desk.drawn ++ (desk.proceeding turn).elim [] (·.1.draws) }

end EscalationDesk

section Turns

variable {desk : EscalationDesk} {turn : EscalationTurn} {id : ℕ}
  {escalation : EscalationRow} {call : EscalationCall}

/-- A turn that proceeds resumes a call under way. -/
theorem proceeding_eq_some {proceeding : Proceeding}
    (h : desk.proceeding turn = some (call, proceeding)) :
    ∃ place answer, turn = .resume place answer
      ∧ desk.calls[place]? = some call
      ∧ proceeding
          = call.proceed desk.escalations desk.drawn.length answer := by
  cases turn with
  | start request => cases h
  | abandon place => cases h
  | resume place answer =>
    obtain ⟨before, hcall, hbefore⟩ := Option.map_eq_some_iff.mp h
    cases hbefore
    exact ⟨place, answer, rfl, hcall, rfl⟩

/-- **What a turn does to a row**: nothing, or what the statement it executes
does. -/
theorem find_step (h : desk.escalations.find id = some escalation) :
    (desk.step turn).escalations.find id
      = some ((desk.written turn).elim escalation
          (EscalationWrite.onRow escalation)) := by
  show (desk.tableAfter turn).find id = _
  rw [EscalationDesk.tableAfter]
  cases desk.written turn with
  | none => exact h
  | some write => exact find_onTable write h

/-- A stored row stays stored. -/
theorem exists_find_step (h : ∃ escalation,
    desk.escalations.find id = some escalation) :
    ∃ escalation, (desk.step turn).escalations.find id = some escalation := by
  obtain ⟨escalation, hfind⟩ := h
  exact ⟨_, find_step hfind⟩

/-- Where a call under way comes from: it was under way, it was started, or it
is the rest of the call that proceeded. -/
theorem mem_calls_step (h : call ∈ (desk.step turn).calls) :
    call ∈ desk.calls ∨ (∃ request, turn = .start request
        ∧ call = request.call)
      ∨ ∃ place answer before, turn = .resume place answer
          ∧ desk.calls[place]? = some before
          ∧ EscalationCall.Continues desk.escalations desk.drawn.length answer
              before call := by
  cases turn with
  | start request =>
    rcases List.mem_append.mp h with h | h
    · exact Or.inl h
    · exact Or.inr (Or.inl ⟨request, rfl, List.mem_singleton.mp h⟩)
  | abandon place => exact Or.inl (List.mem_of_mem_eraseIdx h)
  | resume place answer =>
    rcases List.mem_append.mp h with h | h
    · exact Or.inl (List.mem_of_mem_eraseIdx h)
    · obtain ⟨⟨before, proceeding⟩, hproceeding, hnext⟩ :=
        Option.bind_eq_some_iff.mp (Option.mem_toList.mp h)
      obtain ⟨place, answer, hturn, hcall, rfl⟩ :=
        proceeding_eq_some hproceeding
      exact Or.inr (Or.inr ⟨place, answer, before, hturn, hcall,
        EscalationCall.continues_of_proceed hnext⟩)

/-- A turn writes what the next statement of a call under way writes. -/
theorem written_eq_some {write : EscalationWrite}
    (h : desk.written turn = some write) :
    ∃ place answer call, turn = .resume place answer
      ∧ desk.calls[place]? = some call
      ∧ EscalationCall.Writes answer call write := by
  obtain ⟨⟨call, proceeding⟩, hproceeding, hwrite⟩ :=
    Option.bind_eq_some_iff.mp h
  obtain ⟨place, answer, rfl, hcall, rfl⟩ := proceeding_eq_some hproceeding
  exact ⟨place, answer, call, rfl, hcall,
    EscalationCall.writes_of_proceed hwrite⟩

end Turns

end Opifex
