import Opifex.DispatchPolicy
import Opifex.Lib.DoubleSums
import Opifex.Lib.Instant
import Opifex.Lib.Json
import Opifex.Vocabulary

/-!
# The hard spend ceiling

What the factory has spent over a trailing window, with the unmeasured part
counted rather than dropped, and whether one more order may be dispatched
against it. A run that reported a cost counts for that cost, a run that
reported nothing counts for its order's ceiling, and a run with neither cannot
be bounded at all.

The amounts are read from `DECIMAL(10, 4)` columns, and are held here as such,
in ten-thousandths. The source computes on the numbers they are read as, which
are doubles: every sum is rounded, and a total is cut to cents by a product, a
rounding and a quotient. So a tie is rounded by where the double is, and
`1.005` dollars, which is read a little lower, are one dollar.
-/

namespace Opifex

/-- The number an amount is read as, `Decimal.toNumber()`. -/
def Usd.toNumber (amount : Usd) : ℚ := Double.nearest amount.toRat

/-- Rounding to cents, `Math.round(value * 100) / 100`. -/
def cents (x : ℚ) : ℚ := Double.hundredths x

/-- `value.toFixed(2)` of a number that is not negative: the digits of the
nearest hundredth of the double itself, without a product that rounds. -/
def toFixed2 (x : ℚ) : String :=
  let n := (Rounding.round (x * 100)).toNat
  toString (n / 100) ++ "." ++ toString (n / 10 % 10) ++ toString (n % 10)

/-- An amount as the sentences print it. -/
def usd (value : ℚ) : String := "$" ++ toFixed2 value

theorem Usd.toRat_le_toRat {a b : Usd} (h : a ≤ b) : a.toRat ≤ b.toRat :=
  div_le_div_of_nonneg_right (Nat.cast_le.mpr h) (by norm_num)

theorem Usd.toNumber_nonneg (amount : Usd) : 0 ≤ amount.toNumber :=
  Double.nearest_nonneg amount.toRat_nonneg

/-! ## The ledger -/

/-- A run as the ledger reads it, with its work order's ceiling. It counts at its cost,
or at that ceiling where no cost was reported. -/
structure LedgerRun where
  startedAt : Instant
  costUsd : Option Usd
  budgetCeilingUsd : Option Usd
deriving DecidableEq

/-- What the runs of a window add up to, with what was reported and what is estimated
apart. -/
structure SpendTally where
  reportedUsd : ℚ
  estimatedUsd : ℚ
  /-- A floor rather than a total whenever `unboundedRuns` is above zero. -/
  totalUsd : ℚ
  runs : ℕ
  runsWithoutCost : ℕ
  unboundedRuns : ℕ
  days : ℕ
deriving DecidableEq

/-- The run started inside the trailing window. -/
def LedgerRun.inWindow (days : ℕ) (now : Instant) (run : LedgerRun) : Bool :=
  now - days * Instant.dayMs ≤ run.startedAt && run.startedAt ≤ now

/-- What a run that reported nothing was authorized to spend. Without a
ceiling either, there is nothing to count. -/
def LedgerRun.estimate (run : LedgerRun) : Option Usd :=
  match run.costUsd with
  | some _ => none
  | none => run.budgetCeilingUsd

/-- What the runs reported, added up as they are read. -/
def reportedTotal (runs : List LedgerRun) : ℚ :=
  Double.total ((runs.filterMap (·.costUsd)).map Usd.toNumber)

/-- What is estimated of the others, in a total of its own. -/
def estimatedTotal (runs : List LedgerRun) : ℚ :=
  Double.total ((runs.filterMap (·.estimate)).map Usd.toNumber)

/-- What the runs of a window count for, to the cent. -/
def countedTotal (runs : List LedgerRun) : ℚ :=
  cents (Double.plus (reportedTotal runs) (estimatedTotal runs))

/-- **Tally spend over the trailing `days`**, one pass over the rows with two
running totals. -/
def tally (days : ℕ) (now : Instant) (rows : List LedgerRun) : SpendTally :=
  let runs := rows.filter (·.inWindow days now)
  { reportedUsd := cents (reportedTotal runs)
    estimatedUsd := cents (estimatedTotal runs)
    totalUsd := countedTotal runs
    runs := runs.length
    runsWithoutCost := runs.countP (·.costUsd.isNone)
    unboundedRuns :=
      runs.countP fun run => run.costUsd.isNone && run.budgetCeilingUsd.isNone
    days := days }

/-! ## Admission -/

/-- A ceiling as it was parsed: the limit, the days it is over, and what was wrong with
the setting. -/
structure HardCeiling where
  /-- The number that was read. Null means no ceiling was set, which blocks rather than permits. -/
  limitUsd : Option ℚ
  windowDays : ℕ
  /-- Set but unusable. -/
  malformed : Option String
deriving DecidableEq

/-- What the order being considered would be allowed to spend, and whether its runner
would say what it does spend. -/
structure OrderBudget where
  /-- The number the order names. -/
  ceilingUsd : Option ℚ
  runnerReportsCost : Bool
deriving DecidableEq

/-- The answer of the ceiling: a headroom, or the reason to queue. A refused order is
not failed: it waits. -/
inductive SpendVerdict where
  | admitted (headroomUsd : ℚ) (reason : String)
  | refuse (refusal : QueueReason) (reason : String)
deriving DecidableEq

/-- Whether the answer lets a run through. -/
def SpendVerdict.admits : SpendVerdict → Bool
  | .admitted _ _ => true
  | .refuse _ _ => false

/-- The variable that the refusals name. -/
def hardSpendCeilingEnv : String := "OPIFEX_HARD_SPEND_CEILING_USD"

/-- What a refused operator's next move is. -/
def whoRaisesIt : String :=
  "No trust grant, promoted action class or agent can raise this ceiling " ++
    "(VISION §8); a signed-in admin can, from the Control Center, and the " ++
    "change is recorded."

/-- The spend figure, saying what kind of figure it is. -/
def describeSpend (tally : SpendTally) : String :=
  (if 0 < tally.estimatedUsd then
    "spent at most " ++ usd tally.totalUsd ++ " (" ++ usd tally.reportedUsd ++
      " reported, " ++ usd tally.estimatedUsd ++
      " estimated from the ceilings of " ++
      toString (tally.runsWithoutCost - tally.unboundedRuns) ++
      " run(s) that reported nothing)"
  else "spent " ++ usd tally.totalUsd ++ " reported") ++
  (if 0 < tally.unboundedRuns then
    " and an unknown amount across " ++ toString tally.unboundedRuns ++
      " run(s) with neither a reported cost nor a ceiling — so this figure " ++
      "is a floor, not a total"
  else "")

/-- **May this work order be dispatched**, given what has already been
spent? -/
def decideSpendAdmission (ceiling : HardCeiling) (tally : SpendTally)
    (order : OrderBudget) : SpendVerdict :=
  let window := toString tally.days ++ "d"
  match ceiling.malformed, ceiling.limitUsd with
  | some malformed, _ =>
    .refuse .noHardSpendCeilingConfigured
      (hardSpendCeilingEnv ++ " is set to " ++ Json.quote malformed ++
        ", which is not a non-negative number. Refusing to spend against a " ++
        "ceiling that cannot be read.")
  | none, none =>
    .refuse .noHardSpendCeilingConfigured
      ("No hard spend ceiling is configured. Set " ++ hardSpendCeilingEnv ++
        " to the most you are willing to spend per " ++ window ++
        " before enabling dispatch.")
  | none, some limit =>
    let spent := describeSpend tally
    if limit ≤ tally.totalUsd then
      .refuse .hardSpendCeilingReached
        ("Hard spend ceiling reached: " ++ spent ++ " against a " ++ window ++
          " ceiling of " ++ usd limit ++ ". " ++ whoRaisesIt)
    else
      let headroom := cents (Double.nearest (limit - tally.totalUsd))
      match order.ceilingUsd with
      | none =>
        if !order.runnerReportsCost then
          .refuse .workOrderCannotBeBudgeted
            ("This work order names no budget ceiling and its runner does " ++
              "not report cost, so nothing could bound or stop its spend. " ++
              "Give the order a budgetCeilingUsd, or route it to a runner " ++
              "that reports cost.")
        else
          .admitted headroom
            (usd headroom ++ " of headroom under the " ++ window ++
              " ceiling of " ++ usd limit ++ " (" ++ spent ++
              "). This order names no ceiling of its own; its spend is " ++
              "bounded only by the reported cost it is stopped on.")
      | some orderCeiling =>
        let projected := cents (Double.plus tally.totalUsd orderCeiling)
        if limit < projected then
          .refuse .hardSpendCeilingReached
            ("Dispatching would authorize up to " ++ usd projected ++
              " against a " ++ window ++ " ceiling of " ++ usd limit ++ ": " ++
              spent ++ ", and this order authorizes a further " ++
              usd orderCeiling ++ ". " ++ whoRaisesIt)
        else
          .admitted headroom
            (usd headroom ++ " of headroom under the " ++ window ++
              " ceiling of " ++ usd limit ++ " (" ++ spent ++
              "); this order authorizes up to " ++ usd orderCeiling ++ ".")

/-! ## What admission means -/

/-- **What an admission has checked**: a readable ceiling that the tally is
below and that the order's own ceiling still fits under, or, for an order that
names none, a runner that reports what it spends. -/
theorem decideSpendAdmission_admits {ceiling : HardCeiling}
    {spend : SpendTally} {order : OrderBudget} :
    (decideSpendAdmission ceiling spend order).admits ↔
      ceiling.malformed = none ∧
      ∃ limit, ceiling.limitUsd = some limit ∧ spend.totalUsd < limit ∧
        (order.ceilingUsd = none → order.runnerReportsCost) ∧
        ∀ orderCeiling, order.ceilingUsd = some orderCeiling →
          cents (Double.plus spend.totalUsd orderCeiling) ≤ limit := by
  unfold decideSpendAdmission
  cases hm : ceiling.malformed with
  | some malformed => simp [SpendVerdict.admits]
  | none =>
    cases hl : ceiling.limitUsd with
    | none => simp [SpendVerdict.admits]
    | some limit =>
      by_cases hreached : limit ≤ spend.totalUsd
      · simp [SpendVerdict.admits, hreached]
      · cases ho : order.ceilingUsd with
        | none =>
          cases hr : order.runnerReportsCost <;>
            simp [SpendVerdict.admits, lt_of_not_ge hreached, hreached]
        | some orderCeiling =>
          by_cases hp : limit < cents (Double.plus spend.totalUsd orderCeiling)
          · simp [SpendVerdict.admits, hp, hreached]
          · simp [SpendVerdict.admits, hp, hreached,
              lt_of_not_ge hreached, le_of_not_gt hp]

/-! ## What the tally counts -/

section Tally

/-- What a run counts for, in full. -/
def LedgerRun.counted (run : LedgerRun) : ℚ :=
  ((run.costUsd <|> run.budgetCeilingUsd).map Usd.toRat).getD 0

/-- What the ledger should come to. -/
def trueTotal (runs : List LedgerRun) : ℚ := (runs.map (·.counted)).sum

/-- When every run started inside the window, every run is counted. -/
theorem filter_inWindow {days : ℕ} {now : Instant} {rows : List LedgerRun}
    (h : ∀ run ∈ rows, run.inWindow days now) :
    rows.filter (·.inWindow days now) = rows :=
  List.filter_eq_self.mpr h

variable {runs : List LedgerRun}

/-- The two totals together are of every run that can be counted. -/
theorem trueTotal_eq :
    trueTotal runs
      = ((runs.filterMap (·.costUsd)).map Usd.toRat).sum
        + ((runs.filterMap (·.estimate)).map Usd.toRat).sum := by
  unfold trueTotal
  induction runs with
  | nil => simp
  | cons run runs ih =>
    rw [List.map_cons, List.sum_cons, ih]
    unfold LedgerRun.counted LedgerRun.estimate
    cases hcost : run.costUsd with
    | some cost => simp [hcost, add_assoc]
    | none =>
      cases hceiling : run.budgetCeilingUsd with
      | some ceiling => simp [hcost, hceiling]; ring
      | none => simp [hcost, hceiling]

/-- And there are no more of them than runs. -/
theorem length_add_length_le :
    (runs.filterMap (·.costUsd)).length + (runs.filterMap (·.estimate)).length
      ≤ runs.length := by
  induction runs with
  | nil => simp
  | cons run runs ih =>
    unfold LedgerRun.estimate at ih ⊢
    cases hcost : run.costUsd with
    | some cost => simp [hcost]; omega
    | none =>
      cases hceiling : run.budgetCeilingUsd with
      | some ceiling => simp [hcost, hceiling]; omega
      | none => simp [hcost, hceiling]; omega

end Tally

/-! ## What rounding takes -/

section Totals

/-- The numbers a column is read as are its amounts, rounded. -/
theorem map_toNumber (amounts : List Usd) :
    amounts.map Usd.toNumber = (amounts.map Usd.toRat).map Double.nearest :=
  (List.map_map).symm

theorem forall_mem_map_toRat (amounts : List Usd) :
    ∀ x ∈ amounts.map Usd.toRat, 0 ≤ x := by
  intro x hx
  obtain ⟨amount, -, rfl⟩ := List.mem_map.mp hx
  exact amount.toRat_nonneg

/-- A running total of a column, and how far it is off. -/
theorem total_toNumber (amounts : List Usd) :
    Double.IsDouble (Double.total (amounts.map Usd.toNumber))
      ∧ 0 ≤ Double.total (amounts.map Usd.toNumber)
      ∧ (amounts.map Usd.toRat).sum
        ≤ Double.total (amounts.map Usd.toNumber) + amounts.length
          * (2 * (Double.total (amounts.map Usd.toNumber) / 2 ^ 52)) := by
  have hnonneg := forall_mem_map_toRat amounts
  have herror := (abs_le.mp (Double.abs_total_sub_le hnonneg)).1
  rw [List.length_map] at herror
  rw [map_toNumber]
  exact ⟨Double.isDouble_total hnonneg, Double.total_nonneg hnonneg,
    by linarith⟩

/-- **What a tally loses before it is cut to cents**: two units of itself for
each run, and one more. -/
theorem trueTotal_le (runs : List LedgerRun) :
    0 ≤ Double.plus (reportedTotal runs) (estimatedTotal runs)
      ∧ trueTotal runs
        ≤ Double.plus (reportedTotal runs) (estimatedTotal runs)
          + (2 * runs.length + 1)
            * (Double.plus (reportedTotal runs) (estimatedTotal runs)
              / 2 ^ 52) := by
  obtain ⟨hrdouble, hrnonneg, hreported⟩ :=
    total_toNumber (runs.filterMap (·.costUsd))
  obtain ⟨hedouble, henonneg, hestimated⟩ :=
    total_toNumber (runs.filterMap (·.estimate))
  rw [← reportedTotal] at hrdouble hrnonneg hreported
  rw [← estimatedTotal] at hedouble henonneg hestimated
  have hrle : reportedTotal runs
      ≤ Double.plus (reportedTotal runs) (estimatedTotal runs) :=
    Double.le_plus_right hrdouble hrnonneg henonneg
  have hele : estimatedTotal runs
      ≤ Double.plus (reportedTotal runs) (estimatedTotal runs) :=
    Double.le_plus_left hedouble henonneg hrnonneg
  have hsum : reportedTotal runs + estimatedTotal runs
      ≤ Double.plus (reportedTotal runs) (estimatedTotal runs)
        + Double.plus (reportedTotal runs) (estimatedTotal runs) / 2 ^ 52 :=
    Double.le_nearest_add (add_nonneg hrnonneg henonneg)
  set sum := Double.plus (reportedTotal runs) (estimatedTotal runs)
  have hunit : 0 ≤ sum / 2 ^ 52 :=
    div_nonneg (hrnonneg.trans hrle) (by positivity)
  refine ⟨hrnonneg.trans hrle, ?_⟩
  have hrerror : (runs.filterMap (·.costUsd)).length
        * (2 * (reportedTotal runs / 2 ^ 52))
      ≤ (runs.filterMap (·.costUsd)).length * (2 * (sum / 2 ^ 52)) := by
    gcongr
  have heerror : (runs.filterMap (·.estimate)).length
        * (2 * (estimatedTotal runs / 2 ^ 52))
      ≤ (runs.filterMap (·.estimate)).length * (2 * (sum / 2 ^ 52)) := by
    gcongr
  have hlength : ((runs.filterMap (·.costUsd)).length
        + (runs.filterMap (·.estimate)).length : ℚ) * (2 * (sum / 2 ^ 52))
      ≤ runs.length * (2 * (sum / 2 ^ 52)) :=
    mul_le_mul_of_nonneg_right (by exact_mod_cast length_add_length_le)
      (by positivity)
  rw [trueTotal_eq]
  linarith

end Totals

end Opifex
