import Opifex.Escalations
import Opifex.TrustGrants

/-!
# Approval requests

The gate asks whether an action may proceed: of a standing grant first, and
else of a person, with a stated consequence for silence. The consequence is
frozen on the row when it is raised, and the row is answered by statements
that match it only while it is open.

These are the columns of a request, what each method decides from the rows it
read, and what each of its statements writes.
-/

namespace Opifex

open Preference (rank)

/-! ## The row -/

/-- What silence means for a request: it counts as a yes, as a no, or it is handed to a
person and stays unanswered. -/
inductive ApprovalTimeoutPolicy where
  | autoApprove
  | deny
  | parkAndEscalate
deriving DecidableEq, Repr

/-- The policy as its column spells it. -/
def ApprovalTimeoutPolicy.name : ApprovalTimeoutPolicy → String
  | .autoApprove => "auto_approve"
  | .deny => "deny"
  | .parkAndEscalate => "park_and_escalate"

/-- The statuses of a request. Only `pending` may still be answered in time; `parked`
was timed out without an answer, and a person may answer it late. -/
inductive ApprovalStatus where
  | pending
  | approved
  | denied
  | autoApproved
  | autoDenied
  | parked
  | superseded
deriving DecidableEq, Repr

/-- The status as its column spells it. -/
def ApprovalStatus.name : ApprovalStatus → String
  | .pending => "pending"
  | .approved => "approved"
  | .denied => "denied"
  | .autoApproved => "auto_approved"
  | .autoDenied => "auto_denied"
  | .parked => "parked"
  | .superseded => "superseded"

/-- Who answered a request: a person, the clock, or a standing grant, which authorised
the action without anybody being asked. -/
inductive ApprovalDecidedVia where
  | human
  | timeout
  | grant
deriving DecidableEq, Repr

/-- A row of the table: what was asked, what silence would mean and when, and how it was
answered. -/
structure ApprovalRow where
  id : ℕ
  actionClass : String
  repositoryId : ℕ
  proposalId : Option ℕ
  targetKind : Option String
  targetRef : Option String
  summary : String
  reasoning : String
  blastRadius : String
  timeoutPolicy : ApprovalTimeoutPolicy
  timeoutAt : Option Instant
  status : ApprovalStatus
  decidedAt : Option Instant := none
  decidedById : Option ℕ := none
  decidedVia : Option ApprovalDecidedVia := none
  decisionNote : Option String := none
  /-- The grant that authorised it. -/
  grantId : Option ℕ := none
  /-- The grant born from the decision on it. -/
  createdGrantId : Option ℕ := none
  escalationId : Option ℕ := none
  createdAt : Instant
deriving DecidableEq

instance : Keyed ApprovalRow := ⟨ApprovalRow.id⟩

namespace ApprovalRow

/-- Nobody has answered it yet: parked is pending with no timer. -/
def isOpen (row : ApprovalRow) : Bool :=
  row.status == .pending || row.status == .parked

/-- It waits for a person, and no escalation says so. -/
def isUnescalated (row : ApprovalRow) : Bool :=
  row.status == .parked && row.escalationId.isNone

end ApprovalRow

/-! ## The consequence of silence -/

/-- **`resolveTimeoutPolicy`**: the first rule that matches. An unknown class
parks. -/
def resolveTimeoutPolicy (actionClass : String) : ApprovalTimeoutPolicy :=
  match getActionClass actionClass with
  | none => .parkAndEscalate
  | some registered =>
    if registered.reversibility = .irreversible then .parkAndEscalate
    else if registered.spendsMoney then .deny
    else if registered.reversibility = .reversibleWithEffort then .deny
    else .autoApprove

/-- How long a request waits for a person: four hours. -/
def timeoutWindowMs : ℤ := 4 * 60 * 60 * 1000

/-- When a request resolves itself, or never: there is no timer to fire. -/
def timeoutAtFor (policy : ApprovalTimeoutPolicy) (now : Instant) :
    Option Instant :=
  if policy = .parkAndEscalate then none else some (now + timeoutWindowMs)

/-! ## Raising -/

/-- What the gate is asked. The cost is the caller's estimate, if it has one; the texts
are for the person who answers, and the proposal and the target say what the action is
about. -/
structure RaiseApprovalInput where
  actionClass : String
  repositoryId : ℕ
  summary : String
  reasoning : String
  blastRadius : String
  estimatedCostUsd : Option JsNumber := none
  proposalId : Option ℕ := none
  targetKind : Option String := none
  targetRef : Option String := none
deriving DecidableEq

namespace RaiseApprovalInput

/-- The cost handed to the grant's budget check. An action that spends money
and could not be priced is not a free one. -/
def projectedCost (input : RaiseApprovalInput) : JsNumber :=
  input.estimatedCostUsd.getD
    (if spendsMoney input.actionClass then ⟨none, "NaN"⟩ else ⟨some 0, "0"⟩)

/-- What the gate asks the grants. -/
def authorization (input : RaiseApprovalInput) (grants : List TrustGrantRow)
    (now : Instant) : AuthorizationResult :=
  authorize grants input.actionClass input.repositoryId input.projectedCost now

/-- The row of a request that waits for an answer. -/
def asked (input : RaiseApprovalInput) (now createdAt : Instant) (id : ℕ) :
    ApprovalRow :=
  let timeoutPolicy := resolveTimeoutPolicy input.actionClass
  { id := id
    actionClass := input.actionClass
    repositoryId := input.repositoryId
    proposalId := input.proposalId
    targetKind := input.targetKind
    targetRef := input.targetRef
    summary := input.summary
    reasoning := input.reasoning
    blastRadius := input.blastRadius
    timeoutPolicy := timeoutPolicy
    timeoutAt := timeoutAtFor timeoutPolicy now
    status := if timeoutPolicy = .parkAndEscalate then .parked else .pending
    createdAt := createdAt }

/-- The record of a request that a grant answered. -/
def authorizedRow (input : RaiseApprovalInput) (grant : TrustGrantRow)
    (now createdAt : Instant) (id : ℕ) : ApprovalRow :=
  { input.asked now createdAt id with
    timeoutAt := none
    status := .approved
    decidedAt := some now
    decidedVia := some .grant
    decisionNote := some
      ("Authorized by trust grant " ++ toString grant.id ++ " (" ++
        input.actionClass ++ " on this repository, expires " ++
          Instant.toISOString grant.expiresAt ++ "). No human was asked; " ++
            "this row is the record of what would have been (VISION §8).")
    grantId := some grant.id }

end RaiseApprovalInput

/-! ## Answering -/

/-- What a person may answer. -/
inductive ApprovalDecision where
  | approve
  | deny
deriving DecidableEq, Repr

/-- The answer of a person, who may ask for a grant along with it: a standing permission
for the actions of this class. -/
structure DecideApprovalInput where
  decision : ApprovalDecision
  actorUserId : ℕ
  note : Option String := none
  alwaysApproveThisClass : Bool := false
deriving DecidableEq

/-- Why an answer comes too late, as the exception tells it: who or what answered first,
or that the request was replaced by a newer one. -/
inductive ApprovalNotPendingReason where
  | alreadyDecidedByHuman
  | alreadyTimedOut
  | alreadyAuthorizedByGrant
  | superseded
  | notPending
deriving DecidableEq, Repr

namespace ApprovalRow

/-- **`notPendingFor`**: what happened to a request that is not open. -/
def notPending (row : ApprovalRow) : ApprovalNotPendingReason × String :=
  let id := toString row.id
  let at_ := (row.decidedAt.map Instant.toISOString).getD "an unknown time"
  if row.status = .superseded then
    (.superseded,
      "Approval " ++ id ++ " was superseded at " ++ at_ ++ ": the condition " ++
        "it was raised about changed before anyone had to answer. Nobody " ++
          "refused it. If the action is still wanted, raise it again.")
  else if row.status = .autoApproved ∨ row.status = .autoDenied then
    (.alreadyTimedOut,
      "Approval " ++ id ++ " timed out at " ++ at_ ++ " and was auto-" ++
        (if row.status = .autoApproved then "approved" else "denied") ++
          " by its recorded \"" ++ row.timeoutPolicy.name ++ "\" policy — " ++
            "the consequence of silence it was raised with (ADR-0014). No " ++
              "human decided it, so it is not evidence either way for this " ++
                "action class.")
  else if row.decidedVia = some .grant then
    (.alreadyAuthorizedByGrant,
      "Approval " ++ id ++ " was authorized by a standing trust grant at " ++
        at_ ++ " and was never a human-facing question. This row is the " ++
          "record of what would have been asked (VISION §8); it is not a " ++
            "decision waiting to be made.")
  else if row.decidedVia = some .human then
    (.alreadyDecidedByHuman,
      "Approval " ++ id ++ " was already " ++
        (if row.status = .approved then "approved" else "denied") ++ " by " ++
          (row.decidedById.map toString).getD
            "a user whose account has since been removed" ++ " at " ++ at_ ++
              ". The first verdict stands — two people reaching for the " ++
                "same request at once is normal, and the earlier one is the " ++
                  "true one.")
  else
    (.notPending,
      "Approval " ++ id ++ " is in status \"" ++ row.status.name ++
        "\" and cannot be decided. This combination of status and " ++
          "decidedVia is not one the approval gate writes; the row is " ++
            "inconsistent.")

/-- The write of a verdict, on a request that is open. -/
def answer (input : DecideApprovalInput) (now : Instant) (row : ApprovalRow) :
    ApprovalRow :=
  if row.isOpen then
    { row with
      status := if input.decision = .approve then .approved else .denied
      decidedAt := some now
      decidedById := some input.actorUserId
      decidedVia := some .human
      decisionNote := input.note }
  else row

/-- A request whose window has closed. -/
def isDue (now : Instant) (row : ApprovalRow) : Bool :=
  row.status == .pending && row.timeoutAt.any fun timeoutAt =>
    decide (timeoutAt ≤ now)

/-- The status a policy resolves silence to. -/
def resolution (policy : ApprovalTimeoutPolicy) : ApprovalStatus :=
  if policy = .autoApprove then .autoApproved else .autoDenied

/-- The write of the timeout sweep, from what it read of the request, on one
that is pending. -/
def timeOut (due : ApprovalRow) (now : Instant) (row : ApprovalRow) :
    ApprovalRow :=
  if row.status = .pending then
    { row with
      status := resolution due.timeoutPolicy
      decidedAt := some now
      decidedById := none
      decidedVia := some .timeout
      decisionNote := some
        ("Nobody answered before " ++
          (due.timeoutAt.map Instant.toISOString).getD "the deadline" ++
            ". Resolved to " ++ (resolution due.timeoutPolicy).name ++
              " by the policy recorded when it was raised (\"" ++
                due.timeoutPolicy.name ++ "\", ADR-0014) — the same " ++
                  "consequence the request was announced with. This is " ++
                    "silence, not a human verdict, and does not count as " ++
                      "approval evidence for this action class.") }
  else row

/-- The write of `supersede`, on a request that is open. -/
def supersede (reason : String) (now : Instant) (row : ApprovalRow) :
    ApprovalRow :=
  if row.isOpen then
    { row with
      status := .superseded
      decidedAt := some now
      decidedById := none
      decidedVia := none
      decisionNote := some reason }
  else row

/-- The write of `linkEscalation`, on a request that is parked and points at no
escalation. -/
def link (escalationId : ℕ) (row : ApprovalRow) : ApprovalRow :=
  if row.isUnescalated then { row with escalationId := some escalationId }
  else row

/-- The write that records the grant a decision gave birth to. -/
def recordGrant (grantId : ℕ) (row : ApprovalRow) : ApprovalRow :=
  { row with createdGrantId := some grantId }

end ApprovalRow

/-! ## Minting a grant -/

/-- Whether a verdict asks for a grant of a class that may hold one, or why
not. -/
def grantSkipped (approval : ApprovalRow) (input : DecideApprovalInput) :
    Option String :=
  if input.decision = .deny then
    some ("\"Always approve this class\" applies only to an approval. This " ++
      "request was denied, so no trust grant was created.")
  else if !isAutonomyEligible approval.actionClass then
    some ("Action class \"" ++ approval.actionClass ++ "\" is not " ++
      "autonomy-eligible (VISION §7 ranks it last and annotates it " ++
        "\"probably never\"; VISION §8 puts it on the never-trustable " ++
          "list). This action was approved; no trust grant was created, and " ++
            "proposals of this class will keep requiring a human decision.")
  else none

/-- What a verdict asks `TrustGrantService.create` for: the default terms. -/
def grantInput (approval : ApprovalRow) (input : DecideApprovalInput)
    (now : Instant) : CreateTrustGrantInput :=
  let attributes := defaultGrantAttributes now
  { actionClass := approval.actionClass
    repositoryId := approval.repositoryId
    grantedById := input.actorUserId
    expiresAt := attributes.expiresAt
    budgetCeilingUsd := ⟨some attributes.budgetCeilingUsd.toRat, "25"⟩
    maxFailureRate := ⟨some attributes.maxFailureRate.toRat, "0.34"⟩
    maxCostPerActionUsd := ⟨some attributes.maxCostPerActionUsd.toRat, "5"⟩
    minActionsBeforeAutoRevoke :=
      some ⟨some attributes.minActionsBeforeAutoRevoke, "3"⟩
    grantedFromProposalId := approval.proposalId
    note := input.note.or (some
      ("Created from \"Always approve this class\" on approval " ++
        toString approval.id ++ ".")) }

/-! ## The escalation of a parked request -/

section Escalation

-- how the database spells an approval's id
variable (idText : ℕ → String)

/-- The line that ties an escalation back to the request it is about. -/
def parkedApprovalMarker (approvalId : ℕ) : String :=
  "Approval: " ++ idText approvalId

/-- How the backfill introduces an escalation that is late. -/
def lateNotice (parkedAt now : Instant) : String :=
  let minutes := max 0 (Rounding.round ((now - parkedAt : ℤ) / 60000))
  "Raised late, by the backfill pass: the escalation for this approval " ++
    "failed when it was parked, " ++ toString minutes ++ " minute(s) ago. " ++
      "The approval itself was pushed at the time it was raised, so this " ++
        "may be the second time you have seen it — it is the same question, " ++
          "not a new one, and it is still waiting.\nThe action has been " ++
            "blocked the entire time (#237).\n"

/-- What the operator reads when a request parks. -/
def parkedEscalationDetail (approvalId : ℕ)
    (reasoning blastRadius provenance : String) : String :=
  reasoning ++ "\n\nBlast radius: " ++ blastRadius ++ "\n\n" ++
    "If ignored: nothing. This action class is irreversible, so it is never " ++
      "auto-approved under any grant or any timeout (VISION §8, ADR-0014 " ++
        "rule 1). There is no timer on this request — it waits until a " ++
          "person answers it.\n\n" ++ provenance ++
            parkedApprovalMarker idText approvalId

/-- **`raiseSystem`**: an escalation about the control plane, without a look
at what is outstanding. -/
def systemEscalation (summary detail : String) (raisedAt : Instant) (id : ℕ) :
    EscalationRow where
  id := id
  runId := none
  kind := .system
  status := .raised
  summary := summary
  detail := some detail
  progressStoppedAt := none
  detectionSource := none
  detectLatencyMs := none
  raisedAt := raisedAt

/-- The escalation carries the marker of a request. -/
def EscalationRow.carries (approvalId : ℕ) (escalation : EscalationRow) :
    Bool :=
  escalation.kind == .system && escalation.runId.isNone &&
    escalation.detail.any fun detail =>
      decide ((parkedApprovalMarker idText approvalId).toList
        <:+: detail.toList)

/-- **`findEscalationFor`**: the oldest escalation that carries the marker. -/
def findEscalationFor (escalations : List EscalationRow) (approvalId : ℕ) :
    Option EscalationRow :=
  (rank (fun a b => compare a.raisedAt b.raisedAt)
    (escalations.filter (·.carries idText approvalId))).head?

end Escalation

/-! ## Small facts -/

section Rows

variable {row : ApprovalRow}

@[simp] theorem id_answer (input : DecideApprovalInput) (now : Instant) :
    (row.answer input now).id = row.id := by
  unfold ApprovalRow.answer
  by_cases h : row.isOpen
  · rw [if_pos h]
  · rw [if_neg h]

@[simp] theorem id_timeOut (due : ApprovalRow) (now : Instant) :
    (due.timeOut now row).id = row.id := by
  unfold ApprovalRow.timeOut
  split_ifs
  · rfl
  · rfl

@[simp] theorem id_supersede (reason : String) (now : Instant) :
    (row.supersede reason now).id = row.id := by
  unfold ApprovalRow.supersede
  split_ifs
  · rfl
  · rfl

@[simp] theorem id_link (escalationId : ℕ) :
    (row.link escalationId).id = row.id := by
  unfold ApprovalRow.link
  split_ifs
  · rfl
  · rfl

end Rows

end Opifex
