import Mathlib.Order.WithBot
import Opifex.ActionClasses
import Opifex.Lib.Preference
import Opifex.Lib.Table
import Opifex.SpendAdmission

/-!
# Trust grants

A grant lets actions of one class run in one repository without asking. It
carries when it stops, what it may spend and when the evidence ends it. What
is written here is what each statement does to a row and what each method
decides from the rows it read; how the statements of several calls interleave
is a matter of the modules that use them.

Whether a grant authorises is read off its expiry and its status: the first
becomes true while nobody writes the row, the second is written when it
happens.
-/

namespace Opifex

open Preference (rank)

/-- The statuses of the column. Only an active grant authorises anything, and none
becomes active again. -/
inductive TrustGrantStatus where
  | active
  | expired
  | revoked
  | suspended
deriving DecidableEq, Repr

/-- Why a grant ended. The column is written once, with the status, and says which rule
or which person ended it. -/
inductive TrustGrantEndReason where
  | manualRevocation
  | expired
  | budgetExhausted
  | failureRateExceeded
  | costPerActionExceeded
  | classDemoted
  | supersededByRenewal
deriving DecidableEq, Repr

/-- The reason as the column spells it. -/
def TrustGrantEndReason.name : TrustGrantEndReason → String
  | .manualRevocation => "manual_revocation"
  | .expired => "expired"
  | .budgetExhausted => "budget_exhausted"
  | .failureRateExceeded => "failure_rate_exceeded"
  | .costPerActionExceeded => "cost_per_action_exceeded"
  | .classDemoted => "class_demoted"
  | .supersededByRenewal => "superseded_by_renewal"

/-- A fraction with three decimals, as the column stores it, in thousandths. -/
structure FailureRate where
  thousandths : ℕ
deriving DecidableEq, Repr

namespace FailureRate

/-- The rate as a number. The column has three decimals. -/
def toRat (rate : FailureRate) : ℚ := rate.thousandths / 1000

/-- The fraction a column stores for a number. -/
def ofRat (rate : ℚ) : FailureRate := ⟨⌊rate * 1000 + 1 / 2⌋.toNat⟩

theorem thousandths_injective : Function.Injective thousandths := by
  rintro ⟨a⟩ ⟨b⟩ h
  exact congrArg mk h

instance : LinearOrder FailureRate :=
  LinearOrder.lift' thousandths thousandths_injective

end FailureRate

/-- A row of the table: what the grant allows, what has been spent under it, and how it
ended. Money is in the units of its column. -/
structure TrustGrantRow where
  id : ℕ
  actionClass : String
  repositoryId : ℕ
  expiresAt : Instant
  budgetCeilingUsd : Usd
  spentUsd : Usd := ⟨0⟩
  actionsAuthorized : ℕ := 0
  actionsFailed : ℕ := 0
  maxFailureRate : FailureRate
  maxCostPerActionUsd : Usd
  minActionsBeforeAutoRevoke : ℕ := 3
  status : TrustGrantStatus := .active
  endedAt : Option Instant := none
  endReason : Option TrustGrantEndReason := none
  endDetail : Option String := none
  revokedById : Option ℕ := none
  note : Option String := none
  createdAt : Instant
  grantedById : ℕ
  grantedFromProposalId : Option ℕ := none
  renewedFromId : Option ℕ := none
deriving DecidableEq

instance : Keyed TrustGrantRow := ⟨TrustGrantRow.id⟩

/-! ## Durations -/

/-- A count with its noun, as the texts of the service write it. -/
def plural (value : ℕ) (noun : String) : String :=
  toString value ++ " " ++ noun ++ if value = 1 then "" else "s"

/-- A duration as a phrase. -/
def describeDuration (ms : ℤ) : String :=
  let minutes := ms.natAbs / 60000
  if minutes < 1 then "less than a minute"
  else if minutes < 60 then plural minutes "minute"
  else
    let hours := minutes / 60
    if hours < 24 then plural hours "hour" else plural (hours / 24) "day"

/-! ## Creation -/

/-- A number as the code computes with it, none where it is not finite, and as
`String` prints it. -/
structure JsNumber where
  value : Option ℚ
  text : String
deriving DecidableEq

/-- What a grant is created from. Amounts and rates are numbers of the caller's, which
are checked and then rounded into their columns. -/
structure CreateTrustGrantInput where
  actionClass : String
  repositoryId : ℕ
  grantedById : ℕ
  expiresAt : Instant
  budgetCeilingUsd : JsNumber
  maxFailureRate : JsNumber
  maxCostPerActionUsd : JsNumber
  minActionsBeforeAutoRevoke : Option JsNumber := none
  grantedFromProposalId : Option ℕ := none
  renewedFromId : Option ℕ := none
  note : Option String := none
deriving DecidableEq

namespace CreateTrustGrantInput

/-- The first thing wrong with the input, as the caller is told. -/
def refusal (input : CreateTrustGrantInput) (now : Instant) : Option String :=
  if !isActionClass input.actionClass then
    some ("Unknown action class \"" ++ input.actionClass ++ "\". The " ++
      "taxonomy is apps/api/src/supervisor/action-classes.ts (ADR-0011).")
  else if !isAutonomyEligible input.actionClass then
    some ("Action class \"" ++ input.actionClass ++ "\" is not " ++
      "autonomy-eligible and can never receive a trust grant (VISION §7, " ++
      "§8). Proposals of this class always require a human decision.")
  else if input.expiresAt ≤ now then
    some ("A trust grant must expire in the future: expiresAt " ++
      Instant.toISOString input.expiresAt ++ " is not after " ++
        Instant.toISOString now ++ ".")
  else if !input.budgetCeilingUsd.value.any (0 < ·) then
    some ("budgetCeilingUsd must be a finite number greater than 0, got " ++
      input.budgetCeilingUsd.text ++ ". VISION §8: \"the grant dies at a " ++
        "cumulative spend\" — a grant with no ceiling never dies.")
  else if !input.maxFailureRate.value.any fun rate => 0 ≤ rate && rate ≤ 1 then
    some ("maxFailureRate must be a finite number in [0, 1], got " ++
      input.maxFailureRate.text ++ ".")
  else if !input.maxCostPerActionUsd.value.any (0 < ·) then
    some ("maxCostPerActionUsd must be a finite number greater than 0, got " ++
      input.maxCostPerActionUsd.text ++ ".")
  else
    match input.minActionsBeforeAutoRevoke with
    | none => none
    | some floor =>
      if floor.value.any fun value => value.isInt && 1 ≤ value then none
      else
        some ("minActionsBeforeAutoRevoke must be an integer of at least 1, " ++
          "got " ++ floor.text ++ ".")

/-- The row of an input that is not refused. -/
def row (input : CreateTrustGrantInput) (createdAt : Instant) (id : ℕ) :
    TrustGrantRow where
  id := id
  actionClass := input.actionClass
  repositoryId := input.repositoryId
  expiresAt := input.expiresAt
  budgetCeilingUsd := Usd.ofRat (input.budgetCeilingUsd.value.getD 0)
  maxFailureRate := FailureRate.ofRat (input.maxFailureRate.value.getD 0)
  maxCostPerActionUsd := Usd.ofRat (input.maxCostPerActionUsd.value.getD 0)
  minActionsBeforeAutoRevoke :=
    match input.minActionsBeforeAutoRevoke with
    | none => 3
    | some floor => (floor.value.getD 0).floor.toNat
  createdAt := createdAt
  grantedById := input.grantedById
  grantedFromProposalId := input.grantedFromProposalId
  renewedFromId := input.renewedFromId
  note := input.note

end CreateTrustGrantInput

/-! ## The defaults -/

/-- What a grant has that a promotion proposes: when it ends, and how much it may spend
and fail. -/
structure DefaultGrantAttributes where
  expiresAt : Instant
  budgetCeilingUsd : Usd
  maxFailureRate : FailureRate
  maxCostPerActionUsd : Usd
  minActionsBeforeAutoRevoke : ℕ
deriving DecidableEq

/-- How many days such a grant lasts. -/
def defaultGrantExpiryDays : ℤ := 14

/-- How long a grant lasts that nobody chose a length for. -/
def defaultGrantDurationMs : ℤ := defaultGrantExpiryDays * Instant.dayMs

/-- The defaults, with the expiry counted from now. -/
def defaultGrantAttributes (now : Instant) : DefaultGrantAttributes where
  expiresAt := now + defaultGrantDurationMs
  budgetCeilingUsd := Usd.ofDollars 25
  maxFailureRate := ⟨340⟩
  maxCostPerActionUsd := Usd.ofDollars 5
  minActionsBeforeAutoRevoke := 3

/-! ## Authorisation -/

/-- Why no grant authorises an action. The gate reports one reason, the most telling of
those that hold. -/
inductive AuthorizationDenial where
  | classIneligible
  | budgetExhausted
  | noGrant
  | expired
  | revoked
  | suspended
deriving DecidableEq, Repr

/-- The answer of the gate: a grant that authorises the action, or a reason with the
sentence a person is asked with. -/
inductive AuthorizationResult where
  | authorized (grant : TrustGrantRow)
  | denied (reason : AuthorizationDenial) (detail : String)
deriving DecidableEq

namespace TrustGrantRow

/-- It authorises what fits its budget: it has not ended and has not lapsed. -/
def isCandidate (row : TrustGrantRow) (actionClass : String)
    (repositoryId : ℕ) (now : Instant) : Bool :=
  row.actionClass == actionClass && row.repositoryId == repositoryId &&
    row.status == .active && decide (now < row.expiresAt)

end TrustGrantRow

/-- Why nothing authorised the action: the grant of the scope that expires
last says. -/
def diagnoseNoGrant (rows : List TrustGrantRow) (actionClass : String)
    (repositoryId : ℕ) (now : Instant) : AuthorizationResult :=
  let previous := rows.filter fun row =>
    row.actionClass == actionClass && row.repositoryId == repositoryId
  let newestFirst (a b : TrustGrantRow) :=
    (compare b.expiresAt a.expiresAt).then (compare b.id a.id)
  match (rank newestFirst previous).head? with
  | none =>
    .denied .noGrant
      ("No trust grant has ever been issued for \"" ++ actionClass ++
        "\" in repository " ++ toString repositoryId ++ " (0 grants found). " ++
          "This action needs a human decision.")
  | some row =>
    let lapsed := row.status == .active && decide (row.expiresAt ≤ now)
    let endedAt :=
      (row.endedAt.map Instant.toISOString).getD "an unrecorded time"
    let endDetail := row.endDetail.getD "No detail was recorded."
    if lapsed || row.status == .expired then
      .denied .expired
        ("Trust grant " ++ toString row.id ++ " for \"" ++ actionClass ++
          "\" expired " ++ describeDuration (now - row.expiresAt) ++
            " ago at " ++ Instant.toISOString row.expiresAt ++
              " and was not renewed. VISION §8: renewal is one tap; silence " ++
                "revokes.")
    else if row.status == .revoked then
      .denied .revoked
        ("Trust grant " ++ toString row.id ++ " for \"" ++ actionClass ++
          "\" was revoked by a human at " ++ endedAt ++ ". " ++ endDetail ++
            " Nothing reactivates a revoked grant; a new grant is required.")
    else
      .denied .suspended
        ("Trust grant " ++ toString row.id ++ " for \"" ++ actionClass ++
          "\" was suspended at " ++ endedAt ++ " (" ++
            (row.endReason.map (·.name)).getD "reason not recorded" ++ "). " ++
              endDetail)

/-- A row and its two sums as the columns were read, none where one could not
be read as a number. -/
structure ReadGrant where
  row : TrustGrantRow
  ceiling : Option ℚ
  spent : Option ℚ
deriving DecidableEq

/-- A row whose columns hold what they should. -/
def TrustGrantRow.read (row : TrustGrantRow) : ReadGrant where
  row := row
  ceiling := some row.budgetCeilingUsd.toRat
  spent := some row.spentUsd.toRat

namespace ReadGrant

/-- What is left of the ceiling; an unreadable row has less than any. -/
def sortKey (grant : ReadGrant) : WithBot ℚ :=
  match grant.ceiling, grant.spent with
  | some ceiling, some spent => (ceiling - spent : ℚ)
  | _, _ => ⊥

/-- Most headroom first, then the later expiry, then the id. -/
def compareRead (a b : ReadGrant) : Ordering :=
  (compare b.sortKey a.sortKey).then
    ((compare b.row.expiresAt a.row.expiresAt).then
      (compare a.row.id b.row.id))

end ReadGrant

/-- **`authorize`**, over rows as they were read. -/
def authorizeRead (grants : List ReadGrant) (actionClass : String)
    (repositoryId : ℕ) (projectedCostUsd : JsNumber) (now : Instant) :
    AuthorizationResult :=
  if !isAutonomyEligible actionClass then
    .denied .classIneligible
      ("Action class \"" ++ actionClass ++ "\" is not autonomy-eligible " ++
        "(VISION §7, §8), so no grant can authorize it. 0 grants were " ++
          "considered.")
  else
    match projectedCostUsd.value.filter (0 ≤ ·) with
    | none =>
      .denied .budgetExhausted
        ("Projected cost " ++ projectedCostUsd.text ++ " is not a usable " ++
          "figure (must be finite and at least 0). An unknown cost is not a " ++
            "zero cost, so it cannot be checked against a budget ceiling.")
    | some cost =>
      let candidates :=
        grants.filter (·.row.isCandidate actionClass repositoryId now)
      match (rank ReadGrant.compareRead candidates).head? with
      | none =>
        diagnoseNoGrant (grants.map (·.row)) actionClass repositoryId now
      | some best =>
        match best.ceiling, best.spent with
        | some ceiling, some spent =>
          let projectedTotal := spent + cost
          -- a ceiling authorises spending up to it
          if ceiling < projectedTotal then
            .denied .budgetExhausted
              ("Grant " ++ toString best.row.id ++ " has spent " ++
                usd spent ++ " of its " ++ usd ceiling ++
                  " ceiling; the projected " ++ usd cost ++
                    " would take it to " ++ usd projectedTotal ++
                      ", over the ceiling by " ++
                        usd (projectedTotal - ceiling) ++ ".")
          else .authorized best.row
        | _, _ =>
          .denied .budgetExhausted
            ("Grant " ++ toString best.row.id ++ " has budget figures that " ++
              "could not be read as numbers, so its ceiling cannot be " ++
                "checked. Refusing rather than assuming headroom.")

/-- **`authorize`**: may this action run without asking? The grant with the
most headroom is charged, if the cost fits its stored spend. -/
def authorize (rows : List TrustGrantRow) (actionClass : String)
    (repositoryId : ℕ) (projectedCostUsd : JsNumber) (now : Instant) :
    AuthorizationResult :=
  authorizeRead (rows.map TrustGrantRow.read) actionClass repositoryId
    projectedCostUsd now

theorem diagnoseNoGrant_ne_authorized (rows : List TrustGrantRow)
    (actionClass : String) (repositoryId : ℕ) (now : Instant)
    (grant : TrustGrantRow) :
    diagnoseNoGrant rows actionClass repositoryId now ≠ .authorized grant := by
  unfold diagnoseNoGrant
  dsimp only
  repeat' split
  all_goals exact nofun

namespace ReadGrant

/-- The cost fits what is left of the ceiling. -/
def HasRoomFor (grant : ReadGrant) (cost : ℚ) : Prop :=
  ∃ ceiling spent, grant.ceiling = some ceiling ∧ grant.spent = some spent
    ∧ spent + cost ≤ ceiling

end ReadGrant

section Authorize

variable {grants : List ReadGrant} {actionClass : String} {repositoryId : ℕ}
  {projectedCostUsd : JsNumber} {now : Instant}

/-- The gate authorises what fits the first candidate, and names it. -/
theorem authorizeRead_eq_authorized {row : TrustGrantRow} :
    authorizeRead grants actionClass repositoryId projectedCostUsd now
        = .authorized row ↔
      isAutonomyEligible actionClass
        ∧ ∃ cost, projectedCostUsd.value = some cost ∧ 0 ≤ cost
          ∧ ∃ best, (rank ReadGrant.compareRead (grants.filter
              (·.row.isCandidate actionClass repositoryId now))).head?
                = some best
            ∧ best.HasRoomFor cost ∧ best.row = row := by
  unfold authorizeRead
  by_cases heligible : isAutonomyEligible actionClass
  · rw [if_neg (by simpa using heligible)]
    simp only [heligible, true_and]
    cases hcost : projectedCostUsd.value.filter (0 ≤ ·) with
    | none =>
      refine ⟨nofun, fun ⟨cost, hvalue, hnonneg, _⟩ => ?_⟩
      rw [hvalue, Option.filter_some_pos (by simpa using hnonneg)] at hcost
      contradiction
    | some cost =>
      obtain ⟨hvalue, hnonneg⟩ := Option.filter_eq_some_iff.mp hcost
      simp only [hvalue, Option.some.injEq, exists_eq_left',
        of_decide_eq_true hnonneg, true_and]
      cases (rank ReadGrant.compareRead (grants.filter
        (·.row.isCandidate actionClass repositoryId now))).head? with
      | none =>
        simp only [diagnoseNoGrant_ne_authorized, false_iff]
        rintro ⟨_, hnone, _⟩
        contradiction
      | some best =>
        simp only [Option.some.injEq, exists_eq_left', ReadGrant.HasRoomFor]
        cases best.ceiling with
        | none => simp
        | some ceiling =>
          cases best.spent with
          | none => simp
          | some spent =>
            dsimp only
            by_cases hover : ceiling < spent + cost
            · rw [if_pos hover]
              refine ⟨nofun, ?_⟩
              rintro ⟨⟨_, _, ⟨⟩, ⟨⟩, hfits⟩, -⟩
              exact absurd hover hfits.not_gt
            · rw [if_neg hover, AuthorizationResult.authorized.injEq]
              exact ⟨fun h => ⟨⟨ceiling, spent, rfl, rfl, not_lt.mp hover⟩, h⟩,
                fun h => h.2⟩
  · rw [if_pos (by simpa using heligible)]
    simp [heligible]

/-- **What a grant that authorises is**: a candidate with room for the cost,
of a class that may be granted. -/
theorem of_authorize_eq_authorized {rows : List TrustGrantRow} {grant : TrustGrantRow}
    (h : authorize rows actionClass repositoryId projectedCostUsd now
      = .authorized grant) :
    isAutonomyEligible actionClass ∧ grant ∈ rows
      ∧ grant.isCandidate actionClass repositoryId now
      ∧ ∃ cost, projectedCostUsd.value = some cost ∧ 0 ≤ cost
        ∧ grant.spentUsd.toRat + cost ≤ grant.budgetCeilingUsd.toRat := by
  obtain ⟨heligible, cost, hvalue, hnonneg, best, hbest, hroom, rfl⟩ :=
    authorizeRead_eq_authorized.mp h
  obtain ⟨hmem, hcandidate⟩ := List.mem_filter.mp
    (Preference.mem_rank.mp (List.mem_of_mem_head? (Option.mem_def.mpr hbest)))
  obtain ⟨row, hrow, rfl⟩ := List.mem_map.mp hmem
  obtain ⟨ceiling, spent, hceiling, hspent, hfits⟩ := hroom
  obtain rfl : row.budgetCeilingUsd.toRat = ceiling := Option.some.inj hceiling
  obtain rfl : row.spentUsd.toRat = spent := Option.some.inj hspent
  exact ⟨heligible, hrow, hcandidate, cost, hvalue, hnonneg, hfits⟩

end Authorize

/-! ## Usage -/

/-- What is recorded of an action after it: its cost, and whether it failed. Both count
towards the grant's thresholds. -/
structure UsageRecord where
  costUsd : JsNumber
  failed : Bool
deriving DecidableEq

/-- Why a grant is to be revoked, with the sentence that says so. A charge that passes a
threshold gives one. -/
structure AutoRevokeVerdict where
  reason : TrustGrantEndReason
  detail : String
deriving DecidableEq

/-- `Math.round(value * 100)%`. -/
def percent (value : ℚ) : String :=
  toString (Rounding.round (value * 100)) ++ "%"

/-- **`evaluateAutoRevoke`**: the ceiling first, then, with enough evidence,
the failure rate and the average cost. A grant that has lapsed is not
judged. -/
def evaluateAutoRevoke (grant : TrustGrantRow) (now : Instant) :
    Option AutoRevokeVerdict :=
  let spent := grant.spentUsd.toRat
  let actions : ℚ := grant.actionsAuthorized
  let hasEnoughEvidence :=
    grant.minActionsBeforeAutoRevoke ≤ grant.actionsAuthorized
      && 0 < grant.actionsAuthorized
  let failureRate : ℚ := grant.actionsFailed / actions
  let costPerAction := spent / actions
  if grant.expiresAt ≤ now then none
  else if grant.budgetCeilingUsd ≤ grant.spentUsd then
    some
      { reason := .budgetExhausted
        detail :=
          "Suspended: " ++ usd spent ++ " spent against a " ++
            usd grant.budgetCeilingUsd.toRat ++ " budget ceiling across " ++
              plural grant.actionsAuthorized "authorized action" ++
                ". The grant is exhausted; a renewal issues a new ceiling." }
  else if hasEnoughEvidence && grant.maxFailureRate.toRat < failureRate then
    some
      { reason := .failureRateExceeded
        detail :=
          "Suspended: " ++ toString grant.actionsFailed ++ " of " ++
            toString grant.actionsAuthorized ++
              " authorized actions failed (" ++ percent failureRate ++
                "), above the " ++ percent grant.maxFailureRate.toRat ++
                  " threshold set when the grant was created." }
  else if hasEnoughEvidence
      && grant.maxCostPerActionUsd.toRat < costPerAction then
    some
      { reason := .costPerActionExceeded
        detail :=
          "Suspended: " ++ usd costPerAction ++ " average cost across " ++
            plural grant.actionsAuthorized "authorized action" ++ " (" ++
              usd spent ++ " total), above the " ++
                usd grant.maxCostPerActionUsd.toRat ++ " per-action " ++
                  "threshold set when the grant was created." }
  else none

namespace TrustGrantRow

/-- The increments of `recordUsage`. -/
def charge (cost : ℚ) (failed : Bool) (row : TrustGrantRow) : TrustGrantRow :=
  { row with
    spentUsd := Usd.ofRat (row.spentUsd.toRat + cost)
    actionsAuthorized := row.actionsAuthorized + 1
    actionsFailed := row.actionsFailed + if failed then 1 else 0 }

/-- End a grant: nothing happens to one that has ended already. -/
def finish (status : TrustGrantStatus) (endedAt : Instant)
    (endReason : TrustGrantEndReason) (endDetail : String)
    (revokedById : Option ℕ) (row : TrustGrantRow) : TrustGrantRow :=
  if row.status = .active then
    { row with
      status := status
      endedAt := some endedAt
      endReason := some endReason
      endDetail := some endDetail
      revokedById := revokedById.or row.revokedById }
  else row

/-- **`suspend`**: the system ends a grant, on evidence. -/
def suspend (reason : TrustGrantEndReason) (detail : String) (now : Instant) :
    TrustGrantRow → TrustGrantRow :=
  finish .suspended now reason detail none

/-- **`revoke`**: a human ends a grant. -/
def revoke (actorUserId : ℕ) (note : Option String) (now : Instant) :
    TrustGrantRow → TrustGrantRow :=
  finish .revoked now .manualRevocation
    ("Revoked at " ++ Instant.toISOString now ++ "." ++
      ((note.filter (· ≠ "")).map (" " ++ ·)).getD "") (some actorUserId)

/-- What the expiry sweep writes on a grant that lapsed. -/
def expire (now : Instant) (row : TrustGrantRow) : TrustGrantRow :=
  row.finish .expired now .expired
    ("Expired: the grant lapsed at " ++ Instant.toISOString row.expiresAt ++
      " (" ++ describeDuration (now - row.expiresAt) ++ " ago) with no " ++
        "renewal issued before it. VISION §8: renewal is one tap; silence " ++
          "revokes.") none

@[simp] theorem id_charge {row : TrustGrantRow} (cost : ℚ) (failed : Bool) :
    (row.charge cost failed).id = row.id := by
  unfold charge
  rfl

@[simp] theorem id_finish {row : TrustGrantRow} (status : TrustGrantStatus)
    (endedAt : Instant) (endReason : TrustGrantEndReason) (endDetail : String)
    (revokedById : Option ℕ) :
    (row.finish status endedAt endReason endDetail revokedById).id = row.id := by
  unfold finish
  split_ifs
  · rfl
  · rfl

end TrustGrantRow

/-! ## Renewal -/

/-- **`narrowerOf`**: the defaults, narrowed by the old grant's own terms. The
length of a grant is narrowed as a length, and not as an instant. -/
def narrowerOf (old : TrustGrantRow) (defaults : DefaultGrantAttributes)
    (now : Instant) : DefaultGrantAttributes :=
  let defaultDurationMs := defaults.expiresAt - now
  let oldDurationMs := old.expiresAt - old.createdAt
  let usableOldDuration :=
    if 0 < oldDurationMs then oldDurationMs else defaultDurationMs
  { expiresAt := now + min defaultDurationMs usableOldDuration
    budgetCeilingUsd := min old.budgetCeilingUsd defaults.budgetCeilingUsd
    maxFailureRate := min old.maxFailureRate defaults.maxFailureRate
    maxCostPerActionUsd :=
      min old.maxCostPerActionUsd defaults.maxCostPerActionUsd
    minActionsBeforeAutoRevoke :=
      min old.minActionsBeforeAutoRevoke defaults.minActionsBeforeAutoRevoke }

/-- Why a grant cannot be renewed: it has ended, or its class may not be trusted any
more. -/
inductive TrustGrantNotRenewableReason where
  | expired
  | revoked
  | suspended
  | classIneligible
deriving DecidableEq, Repr

namespace TrustGrantRow

/-- Why a grant that was read cannot be renewed. -/
def notRenewable (old : TrustGrantRow) (now : Instant) :
    Option TrustGrantNotRenewableReason :=
  if !isAutonomyEligible old.actionClass then some .classIneligible
  else if old.status = .active ∧ old.expiresAt ≤ now then some .expired
  else
    match old.status with
    | .active => none
    | .expired => some .expired
    | .revoked => some .revoked
    | .suspended => some .suspended

/-- The successor: the scope of the old grant and its narrowed terms. -/
def successor (old : TrustGrantRow) (actorUserId : ℕ) (note : Option String)
    (now createdAt : Instant) (id : ℕ) : TrustGrantRow :=
  let attributes := narrowerOf old (defaultGrantAttributes now) now
  { id := id
    actionClass := old.actionClass
    repositoryId := old.repositoryId
    expiresAt := attributes.expiresAt
    budgetCeilingUsd := attributes.budgetCeilingUsd
    maxFailureRate := attributes.maxFailureRate
    maxCostPerActionUsd := attributes.maxCostPerActionUsd
    minActionsBeforeAutoRevoke := attributes.minActionsBeforeAutoRevoke
    createdAt := createdAt
    grantedById := actorUserId
    renewedFromId := some old.id
    note := note }

/-- What a renewal writes on the grant it replaces, from what it read of
it. -/
def supersede (old created : TrustGrantRow) (actorUserId : ℕ) (now : Instant) :
    TrustGrantRow → TrustGrantRow :=
  finish .revoked now .supersededByRenewal
    ("Superseded by renewal grant " ++ toString created.id ++ ", issued at " ++
      Instant.toISOString now ++ " and expiring " ++
        Instant.toISOString created.expiresAt ++ ". This grant authorized " ++
          toString old.actionsAuthorized ++ " action(s) and spent " ++
            usd old.spentUsd.toRat ++ " of its " ++
              usd old.budgetCeilingUsd.toRat ++ " ceiling. The successor's " ++
                "attributes were taken fresh from the defaults and narrowed " ++
                  "by this grant's own, never widened (#115).")
    (some actorUserId)

end TrustGrantRow

end Opifex
