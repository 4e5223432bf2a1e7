import Opifex.Lib.Instant
import Opifex.SpendAdmission

/-!
# The two ceilings of a run

When a run has been going on too long, and when it has spent more than its
work order allowed. Both are arithmetic on what the control plane read, and
both say only what is certain before anything is attempted.
-/

namespace Opifex

/-! ## The wall clock -/

/-- What a wall-clock ceiling is decided from, besides the time. The grace leaves the
runner's own timer to act first. -/
structure DeadlineInputs where
  startedAt : Instant
  /-- The work order's own ceiling; null when it names none. -/
  timeoutMinutes : Option ℤ
  /-- The fallback; null means unbounded. -/
  defaultTimeoutMinutes : Option ℤ
  graceMinutes : ℤ
deriving DecidableEq

/-- What the deadline says. Elapsed time is in tenths of a minute, as the message of an
overdue run tells it. -/
inductive DeadlineVerdict where
  | within (limitMinutes : Option ℤ) (elapsedTenths : ℤ)
  | overdue (limitMinutes enforcedAfterMinutes elapsedTenths : ℤ)
      (reason : String)
deriving DecidableEq

/-- Minutes since the run started, to a tenth. -/
def elapsedTenths (startedAt now : Instant) : ℤ :=
  Rounding.round (((now - startedAt : ℤ) : ℚ) / 60000 * 10)

/-- Tenths as the number prints. -/
def tenthsText (tenths : ℤ) : String :=
  toString (tenths / 10) ++
    if tenths % 10 = 0 then "" else "." ++ toString (tenths % 10)

/-- Said of a run that its own runner did not stop in time. -/
def overdueReason (elapsed limitMinutes graceMinutes : ℤ) : String :=
  "Ran for " ++ tenthsText elapsed ++
    " minute(s) against a wall-clock ceiling of " ++ toString limitMinutes ++
    " minute(s). Its runner did not stop it within the " ++
    toString graceMinutes ++ "-minute grace period."

/-- When has a run been going on too long? -/
def decideDeadline (inputs : DeadlineInputs) (now : Instant) :
    DeadlineVerdict :=
  let elapsed := elapsedTenths inputs.startedAt now
  match inputs.timeoutMinutes <|> inputs.defaultTimeoutMinutes with
  | none => .within none elapsed
  | some limit =>
    if limit ≤ 0 then .within none elapsed
    else
      let enforcedAfter := limit + max 0 inputs.graceMinutes
      -- a run at exactly the mark has not exceeded it
      if elapsed ≤ enforcedAfter * 10 then .within (some limit) elapsed
      else
        .overdue limit enforcedAfter elapsed
          (overdueReason elapsed limit inputs.graceMinutes)

/-! ## The budget -/

/-- What a budget overrun is decided from: what was spent, what may be, and whether
there is still something to stop. -/
structure OverrunInputs where
  /-- What the run has reported spending; null is not zero. -/
  costUsd : Option ℚ
  ceilingUsd : Option ℚ
  /-- Whether the run can still be stopped. -/
  runIsLive : Bool
deriving DecidableEq

/-- Whether a run has spent more than it may, and by how much. A run that is over its
ceiling is reported also where it cannot be stopped any more. -/
inductive OverrunVerdict where
  | within
  | over (costUsd ceilingUsd overspendUsd : ℚ) (stoppable : Bool)
      (reason : String)
deriving DecidableEq

/-- Has a run spent more than its work order allowed? -/
def decideBudgetOverrun (inputs : OverrunInputs) : OverrunVerdict :=
  match inputs.costUsd, inputs.ceilingUsd with
  | some cost, some ceiling =>
    -- a ceiling of $5 authorizes spending $5
    if cost ≤ ceiling then .within
    else
      let overspend := cents (Double.nearest (cost - ceiling))
      .over cost ceiling overspend inputs.runIsLive
        ("Reported " ++ usd cost ++ " against a budget ceiling of " ++
          usd ceiling ++ " — " ++ usd overspend ++ " over.")
  | _, _ => .within

end Opifex
