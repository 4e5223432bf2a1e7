import Opifex.Approvals
import Opifex.Lib.Machine

/-!
# The approval desk

A request is raised by the gate, answered by a person or by the clock, retired
when the question has gone, and, where it is parked, told of by an escalation
that a later pass raises if the gate could not. Each of these is a program of
database statements that reads first and writes after, so between two of its
statements those of any other call can land.

The desk is the tables with the calls under way. A turn starts a call or
executes the next statement of one, which may fail.
-/

namespace Opifex

open Preference (rank)

/-- How many due requests one sweep resolves. -/
def sweepBatchLimit : ℕ := 200

/-- How many parked requests one pass of the backfill repairs. -/
def parkedBackfillBatchLimit : ℕ := 25

/-- How long after parking the backfill keeps trying. -/
def parkedBackfillWindowMs : ℤ := 24 * 60 * 60 * 1000

/-- The counts of a sweep of the timeouts. Each request the sweep examined is counted
again under what became of it; `raced` counts those that somebody else answered before
the sweep's guarded update. -/
structure SweepTimeoutsResult where
  examined : ℕ := 0
  autoApproved : ℕ := 0
  autoDenied : ℕ := 0
  skippedParked : ℕ := 0
  raced : ℕ := 0
deriving DecidableEq

/-- The counts of a pass over the parked requests without an escalation. `abandoned`
counts those that are too old to be raised any more. -/
structure BackfillParkedResult where
  examined : ℕ := 0
  raised : ℕ := 0
  linked : ℕ := 0
  raced : ℕ := 0
  failed : ℕ := 0
  abandoned : ℕ := 0
deriving DecidableEq

/-- What a call returns or throws. A refusal carries the reason with the message of the
exception, and an answer says whether a grant came of it and, if none did, why. -/
inductive ApprovalOutcome where
  | authorized (grantId approvalId : ℕ)
  | pending (approvalId : ℕ)
  | notFound
  | notPending (refusal : ApprovalNotPendingReason × String)
  | decided (createdGrantId : Option ℕ) (grantSkippedReason : Option String)
      (decidedAfterTimeout : Bool)
  | swept (result : SweepTimeoutsResult)
  | superseded
  | backfilled (result : BackfillParkedResult)
  | threw (error : String)
deriving DecidableEq

/-- A pass of the backfill under way: it raises an escalation for one parked request
after the other, and other calls run between them. -/
structure BackfillPass where
  now : Instant
  /-- The requests it has not come to yet. -/
  left : List ApprovalRow
  result : BackfillParkedResult
  /-- The requests its select matched, those over the limit included. -/
  stale : List ApprovalRow
deriving DecidableEq

/-- What a call does next. A call is cut at its statements, so that two calls may
interleave at each of them, and it carries on what it has read so far. -/
inductive ApprovalCall where
  | gating (input : RaiseApprovalInput) (now : Instant)
  | authorizing (input : RaiseApprovalInput) (grant : TrustGrantRow)
      (now : Instant)
  | asking (input : RaiseApprovalInput) (now : Instant)
      (noGrantDetail : String)
  /-- `seen` is the number of escalations there were when the row was
  created. -/
  | escalating (approvalId : ℕ) (input : RaiseApprovalInput)
      (noGrantDetail : String) (seen : ℕ)
  | linking (approvalId escalationId : ℕ)
  | deciding (approvalId : ℕ) (input : DecideApprovalInput) (now : Instant)
  | answering (existing : ApprovalRow) (input : DecideApprovalInput)
      (now : Instant)
  | refusing (approvalId : ℕ)
  | minting (existing : ApprovalRow) (input : DecideApprovalInput)
      (now : Instant)
  | noting (existing : ApprovalRow) (grantId : ℕ) (now : Instant)
  | selectingDue (now : Instant)
  | sweeping (due : List ApprovalRow) (now : Instant)
      (result : SweepTimeoutsResult)
  | superseding (approvalId : ℕ) (reason : String) (now : Instant)
  | selectingStale (now : Instant)
  | lookingUp (pass : BackfillPass)
  /-- `seen` is the number of escalations there were when none was found. -/
  | reraising (approval : ApprovalRow) (seen : ℕ) (pass : BackfillPass)
  | relinking (approval : ApprovalRow) (escalationId : ℕ) (found : Bool)
      (pass : BackfillPass)
  | done (outcome : ApprovalOutcome)
deriving DecidableEq

/-- The tables with the calls under way. The index of a call in the list is how a turn
names it. -/
structure ApprovalDesk where
  approvals : Table ApprovalRow
  grants : Table TrustGrantRow
  escalations : Table EscalationRow
  calls : List ApprovalCall := []
  /-- The grants that decisions gave birth to, with the request each decision
  was on. -/
  minted : List (ℕ × ℕ) := []

/-- What happens next: a call starts, or one that started executes its next statement.
-/
inductive ApprovalTurn where
  /-- An action whose effects are not forbidden outright asks the gate. -/
  | gate (input : RaiseApprovalInput) (now : Instant)
  | decide (approvalId : ℕ) (input : DecideApprovalInput) (now : Instant)
  | sweepTimeouts (now : Instant)
  | supersede (approvalId : ℕ) (reason : String) (now : Instant)
  | backfillParkedEscalations (now : Instant)
  /-- A call executes its next statement, by the database's clock. -/
  | resume (call : ℕ) (error : Option String) (clock : Instant)

/-- The first statement of a call. -/
def ApprovalTurn.call : ApprovalTurn → Option ApprovalCall
  | .gate input now => some (.gating input now)
  | .decide approvalId input now => some (.deciding approvalId input now)
  | .sweepTimeouts now => some (.selectingDue now)
  | .supersede approvalId reason now =>
    some (.superseding approvalId reason now)
  | .backfillParkedEscalations now => some (.selectingStale now)
  | .resume _ _ _ => none

namespace ApprovalDesk

/-! ## The statements -/

/-- Update the request with an id. -/
def update (desk : ApprovalDesk) (id : ℕ) (f : ApprovalRow → ApprovalRow)
    (hf : ∀ row, (f row).id = row.id) : ApprovalDesk :=
  { desk with
    approvals := desk.approvals.modify (fun row => row.id == id) f hf }

/-- Raise an escalation about the control plane. -/
def raiseSystem (desk : ApprovalDesk) (summary detail : String)
    (clock : Instant) : ApprovalDesk :=
  { desk with
    escalations :=
      desk.escalations.insert (systemEscalation summary detail clock)
        fun _ => rfl }

/-- What a verdict that landed goes on with. -/
def afterVerdict (existing : ApprovalRow) (input : DecideApprovalInput)
    (now : Instant) : ApprovalCall :=
  let decidedAfterTimeout :=
    existing.timeoutAt.any fun timeoutAt => decide (timeoutAt ≤ now)
  if !input.alwaysApproveThisClass then
    .done (.decided none none decidedAfterTimeout)
  else
    match grantSkipped existing input with
    | some reason => .done (.decided none (some reason) decidedAfterTimeout)
    | none => .minting existing input now

/-- A verdict stands whose grant could not be created. -/
def mintFailed (existing : ApprovalRow) (now : Instant) (error : String) :
    ApprovalCall :=
  .done (.decided none
    (some ("The action was approved, but the trust grant could not be " ++
      "created: " ++ error ++ ". Nothing runs unattended as a result of " ++
        "this decision."))
    (existing.timeoutAt.any fun timeoutAt => decide (timeoutAt ≤ now)))

/-- The requests whose window has closed, the earliest first. -/
def due (desk : ApprovalDesk) (now : Instant) : List ApprovalRow :=
  (rank (fun a b => compare a.timeoutAt b.timeoutAt)
    (desk.approvals.rows.filter (·.isDue now))).take sweepBatchLimit

/-- The parked requests without an escalation that the backfill still tries,
the oldest first. -/
def stale (desk : ApprovalDesk) (now : Instant) : List ApprovalRow :=
  rank (fun a b => compare a.createdAt b.createdAt)
    (desk.approvals.rows.filter fun row =>
      row.isUnescalated && decide (now - parkedBackfillWindowMs ≤ row.createdAt))

/-- The pass as its select leaves it. -/
def startPass (desk : ApprovalDesk) (now : Instant) : BackfillPass :=
  let examined := (desk.stale now).take parkedBackfillBatchLimit
  { now := now
    left := examined
    result :=
      { examined := examined.length
        abandoned := desk.approvals.rows.countP fun row =>
          row.isUnescalated &&
            decide (row.createdAt < now - parkedBackfillWindowMs) }
    stale := desk.stale now }

/-- The pass after one more failure. -/
def failing (pass : BackfillPass) : BackfillPass :=
  { pass with
    result := { pass.result with failed := pass.result.failed + 1 } }

/-- What linking did, as the pass counts it. -/
def counting (pass : BackfillPass) (linked found : Bool) : BackfillPass :=
  let result := pass.result
  { pass with
    result :=
      if !linked then { result with raced := result.raced + 1 }
      else if found then { result with linked := result.linked + 1 }
      else { result with raised := result.raised + 1 } }

section Step

variable (idText : ℕ → String)

/-- **The next statement of a call**: what it writes, and what the call does
after it. -/
def proceed (desk : ApprovalDesk) (error : Option String) (clock : Instant) :
    ApprovalCall → ApprovalDesk × ApprovalCall
  | .gating input now =>
    match error with
    | some error => (desk, .done (.threw error))
    | none =>
      match input.authorization desk.grants.rows now with
      | .authorized grant => (desk, .authorizing input grant now)
      | .denied _ detail => (desk, .asking input now detail)
  | .authorizing input grant now =>
    match error with
    | some error => (desk, .done (.threw error))
    | none =>
      ({ desk with
          approvals :=
            desk.approvals.insert (input.authorizedRow grant now clock)
              fun _ => rfl },
        .done (.authorized grant.id desk.approvals.next))
  | .asking input now noGrantDetail =>
    match error with
    | some error => (desk, .done (.threw error))
    | none =>
      let id := desk.approvals.next
      ({ desk with
          approvals :=
            desk.approvals.insert (input.asked now clock) fun _ => rfl },
        if resolveTimeoutPolicy input.actionClass = .parkAndEscalate then
          .escalating id input noGrantDetail desk.escalations.next
        else .done (.pending id))
  | .escalating approvalId input noGrantDetail _ =>
    match error with
    -- the gate's answer does not depend on it
    | some _ => (desk, .done (.pending approvalId))
    | none =>
      (desk.raiseSystem
          ("Approval parked, waiting on a human: " ++ input.summary)
          (parkedEscalationDetail idText approvalId input.reasoning
            input.blastRadius ("Grant: " ++ noGrantDetail ++ "\n"))
          clock,
        .linking approvalId desk.escalations.next)
  | .linking approvalId escalationId =>
    match error with
    | some _ => (desk, .done (.pending approvalId))
    | none =>
      (desk.update approvalId (·.link escalationId) fun _ => id_link _,
        .done (.pending approvalId))
  | .deciding approvalId input now =>
    match error with
    | some error => (desk, .done (.threw error))
    | none =>
      match desk.approvals.find approvalId with
      | none => (desk, .done .notFound)
      | some existing =>
        if existing.isOpen then (desk, .answering existing input now)
        else (desk, .done (.notPending existing.notPending))
  | .answering existing input now =>
    match error with
    | some error => (desk, .done (.threw error))
    | none =>
      if (desk.approvals.find existing.id).any (·.isOpen) then
        (desk.update existing.id (·.answer input now) fun _ => id_answer _ _,
          afterVerdict existing input now)
      else (desk, .refusing existing.id)
  | .refusing approvalId =>
    match error with
    | some error => (desk, .done (.threw error))
    | none =>
      match desk.approvals.find approvalId with
      | none => (desk, .done .notFound)
      | some current => (desk, .done (.notPending current.notPending))
  | .minting existing input now =>
    match error.or ((grantInput existing input now).refusal now) with
    | some error => (desk, mintFailed existing now error)
    | none =>
      ({ desk with
          grants :=
            desk.grants.insert ((grantInput existing input now).row clock)
              fun _ => rfl
          minted := (existing.id, desk.grants.next) :: desk.minted },
        .noting existing desk.grants.next now)
  | .noting existing grantId now =>
    match error with
    | some error => (desk, mintFailed existing now error)
    | none =>
      (desk.update existing.id (·.recordGrant grantId) fun _ => rfl,
        .done (.decided (some grantId) none
          (existing.timeoutAt.any fun timeoutAt => decide (timeoutAt ≤ now))))
  | .selectingDue now =>
    match error with
    | some error => (desk, .done (.threw error))
    | none =>
      (desk, .sweeping (desk.due now) now { examined := (desk.due now).length })
  | .sweeping [] _ result => (desk, .done (.swept result))
  | .sweeping (due :: left) now result =>
    if due.timeoutPolicy = .parkAndEscalate then
      (desk, .sweeping left now
        { result with skippedParked := result.skippedParked + 1 })
    else
      match error with
      | some error => (desk, .done (.threw error))
      | none =>
        if (desk.approvals.find due.id).any (·.status == .pending) then
          (desk.update due.id (due.timeOut now) fun _ => id_timeOut _ _,
            .sweeping left now
              (if due.timeoutPolicy = .autoApprove then
                { result with autoApproved := result.autoApproved + 1 }
              else { result with autoDenied := result.autoDenied + 1 }))
        else
          (desk, .sweeping left now { result with raced := result.raced + 1 })
  | .superseding approvalId reason now =>
    match error with
    | some error => (desk, .done (.threw error))
    | none =>
      (desk.update approvalId (·.supersede reason now)
          fun _ => id_supersede _ _,
        .done (if (desk.approvals.find approvalId).isSome then .superseded
          else .notFound))
  | .selectingStale now =>
    match error with
    | some error => (desk, .done (.threw error))
    | none => (desk, .lookingUp (desk.startPass now))
  | .lookingUp pass =>
    match pass.left with
    | [] => (desk, .done (.backfilled pass.result))
    | approval :: left =>
      let pass := { pass with left }
      match error with
      | some _ => (desk, .lookingUp (failing pass))
      | none =>
        match findEscalationFor idText desk.escalations.rows approval.id with
        | some existing => (desk, .relinking approval existing.id true pass)
        | none => (desk, .reraising approval desk.escalations.next pass)
  | .reraising approval _ pass =>
    match error with
    | some _ => (desk, .lookingUp (failing pass))
    | none =>
      (desk.raiseSystem
          ("Approval parked, waiting on a human: " ++ approval.summary)
          (parkedEscalationDetail idText approval.id approval.reasoning
            approval.blastRadius (lateNotice approval.createdAt pass.now))
          clock,
        .relinking approval desk.escalations.next false pass)
  | .relinking approval escalationId found pass =>
    match error with
    | some _ => (desk, .lookingUp (failing pass))
    | none =>
      (desk.update approval.id (·.link escalationId) fun _ => id_link _,
        .lookingUp (counting pass
          ((desk.approvals.find approval.id).any (·.isUnescalated)) found))
  | .done outcome => (desk, .done outcome)

/-- One turn. -/
def step (desk : ApprovalDesk) (turn : ApprovalTurn) : ApprovalDesk :=
  match turn with
  | .resume id error clock =>
    match desk.calls[id]? with
    | none => desk
    | some call =>
      let proceeded := desk.proceed idText error clock call
      { proceeded.1 with calls := desk.calls.set id proceeded.2 }
  | turn => { desk with calls := desk.calls ++ turn.call.toList }

end Step

/-- A desk at which nothing has been asked yet. -/
def opened (grants : Table TrustGrantRow) (escalations : Table EscalationRow) :
    ApprovalDesk where
  approvals := .empty
  grants := grants
  escalations := escalations

/-! ## What one statement can do to the requests -/

section Written

variable {idText : ℕ → String} {desk : ApprovalDesk} {error : Option String}
  {clock : Instant} {call : ApprovalCall}

/-- **What a statement of a call can do to the requests**, one constructor for each kind
of write. Every invariant of the requests is derived from this list and not from the
bodies of the calls. -/
inductive RowsWritten (desk after : ApprovalDesk) : ApprovalCall → Prop where
  | kept {call : ApprovalCall} (h : after.approvals = desk.approvals) :
    RowsWritten desk after call
  | authorized {input : RaiseApprovalInput} {grant : TrustGrantRow}
    {now : Instant} (createdAt : Instant)
    (h : after.approvals =
      desk.approvals.insert (input.authorizedRow grant now createdAt)
        fun _ => rfl) :
    RowsWritten desk after (.authorizing input grant now)
  | asked {input : RaiseApprovalInput} {now : Instant} {detail : String}
    (createdAt : Instant)
    (h : after.approvals =
      desk.approvals.insert (input.asked now createdAt) fun _ => rfl) :
    RowsWritten desk after (.asking input now detail)
  | linked {approvalId escalationId : ℕ}
    (h : after.approvals =
      (desk.update approvalId (·.link escalationId)
        fun _ => id_link _).approvals) :
    RowsWritten desk after (.linking approvalId escalationId)
  | answered {existing : ApprovalRow} {input : DecideApprovalInput}
    {now : Instant}
    (h : after.approvals =
      (desk.update existing.id (·.answer input now)
        fun _ => id_answer _ _).approvals) :
    RowsWritten desk after (.answering existing input now)
  | noted {existing : ApprovalRow} {grantId : ℕ} {now : Instant}
    (h : after.approvals =
      (desk.update existing.id (·.recordGrant grantId)
        fun _ => rfl).approvals) :
    RowsWritten desk after (.noting existing grantId now)
  | timedOut {due : ApprovalRow} {left : List ApprovalRow} {now : Instant}
    {result : SweepTimeoutsResult}
    (hpolicy : due.timeoutPolicy ≠ .parkAndEscalate)
    (h : after.approvals =
      (desk.update due.id (due.timeOut now) fun _ => id_timeOut _ _).approvals) :
    RowsWritten desk after (.sweeping (due :: left) now result)
  | superseded {approvalId : ℕ} {reason : String} {now : Instant}
    (h : after.approvals =
      (desk.update approvalId (·.supersede reason now)
        fun _ => id_supersede _ _).approvals) :
    RowsWritten desk after (.superseding approvalId reason now)
  | relinked {approval : ApprovalRow} {escalationId : ℕ} {found : Bool}
    {pass : BackfillPass}
    (h : after.approvals =
      (desk.update approval.id (·.link escalationId)
        fun _ => id_link _).approvals) :
    RowsWritten desk after (.relinking approval escalationId found pass)

/-- A statement of a call does to the requests what is listed, and nothing
else. -/
theorem rowsWritten_proceed :
    RowsWritten desk (desk.proceed idText error clock call).1 call := by
  cases call with
  | authorizing input grant now =>
    cases error with
    | some error => exact .kept rfl
    | none => exact .authorized clock rfl
  | asking input now noGrantDetail =>
    cases error with
    | some error => exact .kept rfl
    | none => exact .asked clock rfl
  | linking approvalId escalationId =>
    cases error with
    | some error => exact .kept rfl
    | none => exact .linked rfl
  | answering existing input now =>
    cases error with
    | some error => exact .kept rfl
    | none =>
      dsimp only [proceed]
      split_ifs
      · exact .answered rfl
      · exact .kept rfl
  | noting existing grantId now =>
    cases error with
    | some error => exact .kept rfl
    | none => exact .noted rfl
  | sweeping due now result =>
    cases due with
    | nil => exact .kept rfl
    | cons due left =>
      dsimp only [proceed]
      by_cases hpark : due.timeoutPolicy = .parkAndEscalate
      · rw [if_pos hpark]
        exact .kept rfl
      · rw [if_neg hpark]
        cases error with
        | some error => exact .kept rfl
        | none =>
          dsimp only
          split_ifs
          · exact .timedOut hpark rfl
          · exact .timedOut hpark rfl
          · exact .kept rfl
  | superseding approvalId reason now =>
    cases error with
    | some error => exact .kept rfl
    | none => exact .superseded rfl
  | relinking approval escalationId found pass =>
    cases error with
    | some error => exact .kept rfl
    | none => exact .relinked rfl
  | done outcome => exact .kept rfl
  | _ =>
    dsimp only [proceed]
    repeat' split
    all_goals exact .kept rfl

end Written

end ApprovalDesk

end Opifex
