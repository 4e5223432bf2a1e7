import Opifex.TrustGrants
import Opifex.Lib.Machine

/-!
# The grant desk

Every method that writes a grant, as the statements it executes: a grant is
created and renewed by people, charged by what runs under it, and ended by
people, by evidence and by the clock. All but a renewal write with one
statement at a time; a renewal reads first, and creates the successor and ends
the old grant in one transaction that is rolled back where the old grant has
ended in the meantime.

The desk has one clock. A renewal is about a grant its caller has seen, so one
that starts names a grant there is.
-/

namespace Opifex

/-- What a call does next. Issuing, renewing, charging, suspending, revoking and
expiring are cut at their statements; a call carries what it has read. -/
inductive GrantCall where
  | inserting (input : CreateTrustGrantInput)
  | reading (grantId actorUserId : ℕ) (note : Option String) (now : Instant)
  | committing (old : TrustGrantRow) (actorUserId : ℕ) (note : Option String)
      (now : Instant)
  | charging (grantId : ℕ) (usage : UsageRecord) (now : Instant)
  | suspending (grantId : ℕ) (reason : TrustGrantEndReason) (detail : String)
      (now : Instant)
  | revoking (grantId actorUserId : ℕ) (note : Option String) (now : Instant)
  | selectingLapsed (now : Instant)
  | expiring (lapsed : List TrustGrantRow) (now : Instant)
  | done
deriving DecidableEq

/-- The table of grants with the calls under way. The renewals are ghost: they say which
grant took the place of which. -/
structure GrantDesk where
  clock : Instant
  grants : Table TrustGrantRow := .empty
  calls : List GrantCall := []
  /-- The renewals: the grant that ended and the one that took its place. -/
  renewals : List (ℕ × ℕ) := []

/-- What happens next: a method of the service is called, time passes, or a call
executes its next statement. -/
inductive GrantTurn where
  | tick (ms : ℕ)
  | create (input : CreateTrustGrantInput) (repositoryExists : Bool)
  | renew (grantId actorUserId : ℕ) (note : Option String)
  | recordUsage (grantId : ℕ) (usage : UsageRecord) (now : Instant)
  | suspend (grantId : ℕ) (reason : TrustGrantEndReason) (detail : String)
      (now : Instant)
  | revoke (grantId actorUserId : ℕ) (note : Option String) (now : Instant)
  | sweepExpired (now : Instant)
  | resume (call : ℕ) (error : Option String)

namespace GrantDesk

/-- Update the grant with an id. -/
def update (desk : GrantDesk) (id : ℕ) (f : TrustGrantRow → TrustGrantRow)
    (hf : ∀ row, (f row).id = row.id) : GrantDesk :=
  { desk with
    grants := desk.grants.modify (fun row => row.id == id) f hf }

/-- The first statement of a call, if its arguments pass. -/
def start (desk : GrantDesk) : GrantTurn → Option GrantCall
  | .create input repositoryExists =>
    if (input.refusal desk.clock).isNone && repositoryExists then
      some (.inserting input)
    else none
  | .renew grantId actorUserId note =>
    if (desk.grants.find grantId).isSome then
      some (.reading grantId actorUserId note desk.clock)
    else none
  | .recordUsage grantId usage now => some (.charging grantId usage now)
  | .suspend grantId reason detail now =>
    some (.suspending grantId reason detail now)
  | .revoke grantId actorUserId note now =>
    some (.revoking grantId actorUserId note now)
  | .sweepExpired now => some (.selectingLapsed now)
  | .tick _ => none
  | .resume _ _ => none

/-- The transaction of a renewal, from what it read of the old grant. -/
def commit (desk : GrantDesk) (old : TrustGrantRow) (actorUserId : ℕ)
    (note : Option String) (now : Instant) : GrantDesk :=
  let created := old.successor actorUserId note now desk.clock
  { desk with
    grants :=
      (desk.grants.insert created fun _ => rfl).modify
        (fun row => row.id == old.id)
        (old.supersede (created desk.grants.next) actorUserId now)
        fun _ => TrustGrantRow.id_finish _ _ _ _ _
    renewals := (old.id, desk.grants.next) :: desk.renewals }

/-- What a charge goes on with, from the row as the increment left it. -/
def judge (row : TrustGrantRow) (now : Instant) : GrantCall :=
  match evaluateAutoRevoke row now with
  | none => .done
  | some verdict => .suspending row.id verdict.reason verdict.detail now

/-- **The next statement of a call**, where it does not fail. -/
def execute (desk : GrantDesk) : GrantCall → GrantDesk × GrantCall
  | .inserting input =>
    ({ desk with
        grants := desk.grants.insert (input.row desk.clock) fun _ => rfl },
      .done)
  | .reading grantId actorUserId note now =>
    match desk.grants.find grantId with
    | none => (desk, .done)
    | some old =>
      if (old.notRenewable now).isSome then (desk, .done)
      else (desk, .committing old actorUserId note now)
  | .committing old actorUserId note now =>
    if (desk.grants.find old.id).any (·.status == .active) then
      (desk.commit old actorUserId note now, .done)
    -- rolled back: the old grant ended while it was being renewed
    else (desk, .done)
  | .charging grantId usage now =>
    match usage.costUsd.value.filter (0 ≤ ·), desk.grants.find grantId with
    | some cost, some row =>
      (desk.update grantId (·.charge cost usage.failed)
          fun _ => TrustGrantRow.id_charge _ _,
        judge (row.charge cost usage.failed) now)
    | _, _ => (desk, .done)
  | .suspending grantId reason detail now =>
    (desk.update grantId (·.suspend reason detail now)
        fun _ => TrustGrantRow.id_finish _ _ _ _ _,
      .done)
  | .revoking grantId actorUserId note now =>
    (desk.update grantId (·.revoke actorUserId note now)
        fun _ => TrustGrantRow.id_finish _ _ _ _ _,
      .done)
  | .selectingLapsed now =>
    (desk, .expiring
      (desk.grants.rows.filter fun row =>
        row.status == .active && decide (row.expiresAt ≤ now)) now)
  | .expiring [] _ => (desk, .done)
  | .expiring (lapsed :: left) now =>
    (desk.update lapsed.id (·.expire now)
        fun _ => TrustGrantRow.id_finish _ _ _ _ _,
      .expiring left now)
  | .done => (desk, .done)

/-- One turn. -/
def step (desk : GrantDesk) (turn : GrantTurn) : GrantDesk :=
  match turn with
  | .tick ms => { desk with clock := desk.clock + ms }
  | .resume id error =>
    match desk.calls[id]?, error with
    | none, _ => desk
    | some _, some _ => { desk with calls := desk.calls.set id .done }
    | some call, none =>
      let executed := desk.execute call
      { executed.1 with calls := desk.calls.set id executed.2 }
  | turn => { desk with calls := desk.calls ++ (desk.start turn).toList }

end GrantDesk

end Opifex
