import Mathlib.Algebra.BigOperators.Group.List.Basic
import Mathlib.Algebra.Order.BigOperators.Group.List
import Opifex.Lib.Machine
import Opifex.SpendAdmission

/-!
# The ceiling against worst-case exposure

What a set of runs may still cost is more than what the ledger counts them
for: a live run that has reported part of its cost counts for that part, while
it may go on to spend its whole ceiling, and a run that ended after its last
report counts for the report. Everything else is counted at or above its
exposure.

So the ceiling bounds exposure along every history in which each admission
finds no such *under-counted* run (`exposureBounded_of_fullyCounted`); and a
partial report followed by two dispatches takes exposure past the ceiling
(`partialReport_exceeds`).

The cent by which the bound is missed is of two roundings to cents, of the
tally and of the order on top of it. Each is of a number of ten-thousandths,
so half a cent is what it loses even where the doubles on the way are off by
less than a ten-thousandth – which they are for a ledger of so many runs that
these times the limit stay below `2 ^ 37` (`counted_add_le_of_admits`).
-/

namespace Opifex

/-- A run of the window: what the ledger holds of it, and the cost it ended
with once it has. Its work order names a ceiling. -/
structure SpendRun where
  startedAt : Instant
  budgetCeilingUsd : Usd
  costUsd : Option Usd
  finalCost : Option Usd
deriving DecidableEq

namespace SpendRun

/-- The row as the ledger reads it. -/
def toLedger (run : SpendRun) : LedgerRun :=
  ⟨run.startedAt, run.costUsd, some run.budgetCeilingUsd⟩

/-- **What a run may cost**: its final cost once it has ended, else the larger
of what it has reported and its ceiling. -/
def exposure (run : SpendRun) : Usd :=
  match run.finalCost with
  | some finalCost => finalCost
  | none => max (run.costUsd.getD ⟨0⟩) run.budgetCeilingUsd

/-- The run stays within its order's ceiling, in what it reports and in what it comes to
in the end. -/
structure WithinCeiling (run : SpendRun) : Prop where
  cost : ∀ cost ∈ run.costUsd, cost ≤ run.budgetCeilingUsd
  final : ∀ cost ∈ run.finalCost, cost ≤ run.budgetCeilingUsd

/-- The ledger counts the run for at least what it may cost. -/
def FullyCounted (run : SpendRun) : Prop :=
  ∀ cost ∈ run.costUsd, run.exposure ≤ cost

instance (run : SpendRun) : Decidable run.FullyCounted :=
  inferInstanceAs (Decidable (∀ cost ∈ run.costUsd, run.exposure ≤ cost))

end SpendRun

/-- What all the runs of the window may cost together. -/
def totalExposure (runs : List SpendRun) : ℚ :=
  (runs.map (·.exposure.toRat)).sum

/-! ## Histories -/

/-- What can happen to the ledger: runs ask to be admitted, report what they have spent,
and end. -/
inductive SpendEvent where
  /-- A work order with this ceiling asks to be dispatched. -/
  | dispatch (now : Instant) (budgetCeilingUsd : Usd) (reportsCost : Bool)
  /-- A parked run, by its position, asks to be resumed. -/
  | resume (now : Instant) (run : ℕ) (reportsCost : Bool)
  /-- A live run reports its cost so far. -/
  | report (run : ℕ) (cost : Usd)
  /-- A live run ends at a cost, which it reports or not. -/
  | complete (run : ℕ) (finalCost : Usd) (reported : Bool)
deriving DecidableEq

/-- Change a run that has not ended. -/
def updateLive (runs : List SpendRun) (run : ℕ) (f : SpendRun → SpendRun) :
    List SpendRun :=
  runs.modify run fun r => if r.finalCost.isNone then f r else r

variable (ceiling : HardCeiling)

/-- Whether the admission an event asks for is given. -/
def admitted (runs : List SpendRun) : SpendEvent → Bool
  | .dispatch now budgetCeilingUsd reportsCost =>
    (decideSpendAdmission ceiling
      (tally ceiling.windowDays now (runs.map (·.toLedger)))
      ⟨some budgetCeilingUsd.toNumber, reportsCost⟩).admits
  | .resume now run reportsCost =>
    match runs[run]? with
    | none => false
    | some r =>
      r.finalCost.isNone &&
        (decideSpendAdmission ceiling
          (tally ceiling.windowDays now (runs.map (·.toLedger)))
          ⟨some r.budgetCeilingUsd.toNumber, reportsCost⟩).admits
  | .report _ _ => false
  | .complete _ _ _ => false

/-- The ledger after an event. A dispatch that is admitted starts a run; a
resume re-invokes one the ledger already holds. -/
def spendStep (runs : List SpendRun) (event : SpendEvent) : List SpendRun :=
  match event with
  | .dispatch now budgetCeilingUsd _ =>
    if admitted ceiling runs event then
      runs ++ [⟨now, budgetCeilingUsd, none, none⟩]
    else runs
  | .resume _ _ _ => runs
  | .report run cost =>
    updateLive runs run fun r => { r with costUsd := some cost }
  | .complete run finalCost reported =>
    updateLive runs run fun r =>
      { r with
        costUsd := if reported then some finalCost else r.costUsd
        finalCost := some finalCost }

/-- The event keeps every run within its order's ceiling. -/
def KeepsCeilings (runs : List SpendRun) : SpendEvent → Prop
  | .dispatch _ _ _ => True
  | .resume _ _ _ => True
  | .report run cost => ∀ r ∈ runs[run]?, cost ≤ r.budgetCeilingUsd
  | .complete run finalCost _ =>
    ∀ r ∈ runs[run]?, finalCost ≤ r.budgetCeilingUsd

/-- An admission is asked for while every run is inside the ledger window. -/
def InOneWindow (runs : List SpendRun) : SpendEvent → Prop
  | .dispatch now _ _ =>
    ∀ r ∈ runs, r.toLedger.inWindow ceiling.windowDays now
  | .resume now _ _ =>
    ∀ r ∈ runs, r.toLedger.inWindow ceiling.windowDays now
  | .report _ _ => True
  | .complete _ _ _ => True

/-- **What an admission promises**: immediately after it, all runs together
cannot cost more than the limit and a cent of rounding. -/
def ExposureBounded (limit : ℚ) (runs : List SpendRun) (event : SpendEvent) :
    Prop :=
  admitted ceiling runs event →
    totalExposure (spendStep ceiling runs event) ≤ limit + 1 / 100

/-! ## What the doubles need -/

/-- **The ceiling was set to this limit**: its number, if it has one, is the
one the limit is read as, and no whole number of cents above the limit is read
as that number too. -/
structure SetTo (limit : ℚ) : Prop where
  nonneg : 0 ≤ limit
  read : ∀ number ∈ ceiling.limitUsd, number = Double.nearest limit
  apart : ∀ n : ℕ, limit < n / 100 →
    Double.nearest limit < Double.nearest (n / 100)

/-- The ledger is small enough for its doubles to be told apart where their
ten-thousandths are. -/
def FewRuns (limit : ℚ) (runs : List SpendRun) : Prop :=
  (runs.length + 4) * (limit + 1) ≤ 2 ^ 37

/-- No run other than the one being resumed has a reported cost below what it
may yet cost. -/
def NoPartialReport (runs : List SpendRun) : SpendEvent → Prop
  | .dispatch _ _ _ => ∀ r ∈ runs, r.FullyCounted
  | .resume _ run _ => ∀ r ∈ runs.eraseIdx run, r.FullyCounted
  | .report _ _ => True
  | .complete _ _ _ => True

section Computable

variable (limit : ℚ) (runs : List SpendRun)

instance : (event : SpendEvent) → Decidable (KeepsCeilings runs event)
  | .dispatch _ _ _ => inferInstanceAs (Decidable True)
  | .resume _ _ _ => inferInstanceAs (Decidable True)
  | .report run cost =>
    inferInstanceAs (Decidable (∀ r ∈ runs[run]?, cost ≤ r.budgetCeilingUsd))
  | .complete run finalCost _ =>
    inferInstanceAs (Decidable (∀ r ∈ runs[run]?,
      finalCost ≤ r.budgetCeilingUsd))

instance : (event : SpendEvent) → Decidable (InOneWindow ceiling runs event)
  | .dispatch now _ _ =>
    inferInstanceAs (Decidable (∀ r ∈ runs,
      r.toLedger.inWindow ceiling.windowDays now))
  | .resume now _ _ =>
    inferInstanceAs (Decidable (∀ r ∈ runs,
      r.toLedger.inWindow ceiling.windowDays now))
  | .report _ _ => inferInstanceAs (Decidable True)
  | .complete _ _ _ => inferInstanceAs (Decidable True)

instance (event : SpendEvent) :
    Decidable (ExposureBounded ceiling limit runs event) :=
  inferInstanceAs (Decidable (admitted ceiling runs event →
    totalExposure (spendStep ceiling runs event) ≤ limit + 1 / 100))

instance : Decidable (FewRuns limit runs) :=
  inferInstanceAs (Decidable ((runs.length + 4) * (limit + 1) ≤ 2 ^ 37))

instance : (event : SpendEvent) → Decidable (NoPartialReport runs event)
  | .dispatch _ _ _ =>
    inferInstanceAs (Decidable (∀ r ∈ runs, r.FullyCounted))
  | .resume _ run _ =>
    inferInstanceAs (Decidable (∀ r ∈ runs.eraseIdx run, r.FullyCounted))
  | .report _ _ => inferInstanceAs (Decidable True)
  | .complete _ _ _ => inferInstanceAs (Decidable True)

end Computable

/-! ## Counting against exposure -/

variable {ceiling}

namespace SpendRun

variable {run : SpendRun}

theorem exposure_le (h : run.WithinCeiling) :
    run.exposure ≤ run.budgetCeilingUsd := by
  unfold exposure
  cases hfinal : run.finalCost with
  | some finalCost => exact h.final finalCost hfinal
  | none =>
    refine max_le ?_ le_rfl
    cases hcost : run.costUsd with
    | some cost => exact h.cost cost hcost
    | none => exact Nat.zero_le _

/-- A run that reported nothing, or at least what it may cost, is counted for
its exposure. -/
theorem exposure_le_counted (h : run.WithinCeiling) (hc : run.FullyCounted) :
    run.exposure.toRat ≤ run.toLedger.counted := by
  unfold LedgerRun.counted toLedger
  cases hcost : run.costUsd with
  | some cost => exact Usd.toRat_le_toRat (hc cost hcost)
  | none => exact Usd.toRat_le_toRat (exposure_le h)

/-- Whatever it reported, a run's exposure is at most what it counts for and
its ceiling once more. -/
theorem exposure_le_counted_add (h : run.WithinCeiling) :
    run.exposure.toRat
      ≤ run.toLedger.counted + run.budgetCeilingUsd.toRat := by
  have hexp := Usd.toRat_le_toRat (exposure_le h)
  have hcounted : 0 ≤ run.toLedger.counted := by
    unfold LedgerRun.counted toLedger
    cases hcost : run.costUsd with
    | some cost => exact cost.toRat_nonneg
    | none => exact run.budgetCeilingUsd.toRat_nonneg
  linarith

end SpendRun

/-- What the ledger should count all the runs for. -/
def totalCounted (runs : List SpendRun) : ℚ :=
  trueTotal (runs.map (·.toLedger))

theorem totalExposure_le (runs : List SpendRun)
    (h : ∀ r ∈ runs, r.WithinCeiling) (hc : ∀ r ∈ runs, r.FullyCounted) :
    totalExposure runs ≤ totalCounted runs := by
  unfold totalExposure totalCounted trueTotal
  rw [List.map_map]
  exact List.sum_le_sum fun r hr =>
    SpendRun.exposure_le_counted (h r hr) (hc r hr)

/-- One run's ceiling covers what that run may be under-counted by. -/
theorem totalExposure_le_add {runs : List SpendRun} {i : ℕ} {r : SpendRun}
    (hr : runs[i]? = some r) (h : ∀ r ∈ runs, r.WithinCeiling)
    (hc : ∀ r ∈ runs.eraseIdx i, r.FullyCounted) :
    totalExposure runs ≤ totalCounted runs + r.budgetCeilingUsd.toRat := by
  induction runs generalizing i with
  | nil => simp at hr
  | cons a runs ih =>
    have ha := h a List.mem_cons_self
    have hruns : ∀ r ∈ runs, r.WithinCeiling :=
      fun r hr => h r (List.mem_cons_of_mem a hr)
    have hsplit : totalExposure (a :: runs) =
        a.exposure.toRat + totalExposure runs := List.sum_cons
    have hsplit' : totalCounted (a :: runs) =
        a.toLedger.counted + totalCounted runs := List.sum_cons
    rw [hsplit, hsplit']
    cases i with
    | zero =>
      -- the resumed run is this one, and all the others are fully counted
      obtain rfl : a = r := by simpa using hr
      have := SpendRun.exposure_le_counted_add ha
      have := totalExposure_le runs hruns hc
      linarith
    | succ i =>
      have := SpendRun.exposure_le_counted ha (hc a List.mem_cons_self)
      have := ih (i := i) (by simpa using hr) hruns
        fun r hr => hc r (List.mem_cons_of_mem a hr)
      linarith

/-! ## Ten-thousandths -/

/-- All that is counted is a number of ten-thousandths. -/
theorem exists_totalCounted_eq (runs : List SpendRun) :
    ∃ n : ℕ, totalCounted runs = n / 10000 := by
  unfold totalCounted trueTotal
  induction runs with
  | nil => exact ⟨0, by simp⟩
  | cons run runs ih =>
    obtain ⟨n, hn⟩ := ih
    rw [List.map_cons, List.map_cons, List.sum_cons, hn]
    refine ⟨((run.costUsd.getD run.budgetCeilingUsd).tenThousandths) + n, ?_⟩
    have hcounted : run.toLedger.counted
        = (run.costUsd.getD run.budgetCeilingUsd).toRat := by
      unfold LedgerRun.counted SpendRun.toLedger
      cases run.costUsd with
      | some cost => rfl
      | none => rfl
    rw [hcounted, Usd.toRat]
    push_cast
    ring

/-- **Ten-thousandths are cut to cents by half a cent**, where the figure that
is cut is off by less than one of them. -/
theorem le_cents_of_close {n m : ℤ} (h : (n : ℚ) / 100 < m + 1 / 2 + 1 / 100) :
    (n : ℚ) / 10000 ≤ m / 100 + 1 / 200 := by
  have hn : (n : ℚ) < (100 * m + 51 : ℤ) := by
    push_cast
    linarith
  have hle : n ≤ 100 * m + 50 := by
    have hlt : n < 100 * m + 51 := by exact_mod_cast hn
    omega
  have hcast : (n : ℚ) ≤ 100 * m + 50 := by exact_mod_cast hle
  linarith

/-- The last cents an admission has checked are not above what was set. -/
theorem hundredthCount_le_of_setTo {x limit number : ℚ}
    (hset : SetTo ceiling limit) (hnumber : ceiling.limitUsd = some number)
    (hx : 0 ≤ x) (h : cents x ≤ number) :
    (Double.hundredthCount x : ℚ) / 100 ≤ limit := by
  rw [hset.read number hnumber] at h
  by_contra habove
  rw [not_le] at habove
  obtain ⟨n, hn⟩ := Int.eq_ofNat_of_zero_le (Double.hundredthCount_nonneg hx)
  unfold cents Double.hundredths at h
  rw [hn, Int.cast_natCast] at h habove
  exact absurd (hset.apart n habove) (not_lt.mpr h)

/-- **Rounding costs a cent**: an admitted order fits under the limit together
with all that is counted, up to two roundings of half a cent. -/
theorem counted_add_le_of_admits {runs : List SpendRun} {now : Instant}
    {order : Usd} {limit : ℚ} {reportsCost : Bool}
    (hset : SetTo ceiling limit) (hfew : FewRuns limit runs)
    (hw : ∀ r ∈ runs, r.toLedger.inWindow ceiling.windowDays now)
    (hadm : (decideSpendAdmission ceiling
      (tally ceiling.windowDays now (runs.map (·.toLedger)))
      ⟨some order.toNumber, reportsCost⟩).admits) :
    totalCounted runs + order.toRat ≤ limit + 1 / 100 := by
  obtain ⟨-, number, hnumber, -, -, hfits⟩ :=
    decideSpendAdmission_admits.mp hadm
  have hall : ∀ r ∈ runs.map (·.toLedger),
      r.inWindow ceiling.windowDays now := by
    intro r hr
    obtain ⟨r', hr', rfl⟩ := List.mem_map.mp hr
    exact hw r' hr'
  have hcents := hfits order.toNumber rfl
  have htotal : (tally ceiling.windowDays now (runs.map (·.toLedger))).totalUsd
      = countedTotal (runs.map (·.toLedger)) := by
    unfold tally
    dsimp only
    rw [filter_inWindow hall]
  rw [htotal] at hcents
  obtain ⟨hsum, htrue⟩ := trueTotal_le (runs.map (·.toLedger))
  rw [List.length_map, ← totalCounted] at htrue
  have horder := order.toNumber_nonneg
  have hread : order.toRat ≤ order.toNumber + order.toNumber / 2 ^ 52 :=
    Double.le_nearest_add order.toRat_nonneg
  unfold countedTotal cents at hcents
  set sum := Double.plus (reportedTotal (runs.map (·.toLedger)))
    (estimatedTotal (runs.map (·.toLedger)))
  have hspent : 0 ≤ Double.hundredths sum := Double.hundredths_nonneg hsum
  have hprojected : 0 ≤ Double.plus (Double.hundredths sum) order.toNumber :=
    Double.plus_nonneg hspent horder
  have hcut := Double.le_hundredthCount_add hsum
  have hcut' := Double.le_hundredthCount_add hprojected
  have hquotient := Double.hundredthCount_le_mul hsum
  have hplus : Double.hundredths sum + order.toNumber
      ≤ Double.plus (Double.hundredths sum) order.toNumber
        + Double.plus (Double.hundredths sum) order.toNumber / 2 ^ 52 :=
    Double.le_nearest_add (add_nonneg hspent horder)
  have hspentle : Double.hundredths sum
      ≤ Double.plus (Double.hundredths sum) order.toNumber :=
    Double.le_plus_right (Double.isDouble_hundredths hsum) hspent horder
  have horderle : order.toNumber
      ≤ Double.plus (Double.hundredths sum) order.toNumber :=
    Double.le_plus_left (Double.isDouble_nearest order.toRat_nonneg) horder
      hspent
  have hlast := hundredthCount_le_of_setTo hset hnumber hprojected hcents
  set projected := Double.plus (Double.hundredths sum) order.toNumber
  -- everything on the way is at most a dollar above the limit
  have hfewer := hfew
  unfold FewRuns at hfewer
  have hlimit : limit + 1 ≤ 2 ^ 35 := by
    have hnonneg := hset.nonneg
    have hruns : (0 : ℚ) ≤ runs.length := Nat.cast_nonneg _
    nlinarith
  have hprojectedle : projected ≤ limit + 1 := by
    norm_num at hcut' hlimit ⊢
    linarith
  have hsumle : sum ≤ limit + 1 := by
    norm_num at hcut hcut' hquotient hlimit ⊢
    linarith
  -- so that the sum of so many runs is off by less than a ten-thousandth
  have hruns : (2 * runs.length + 1) * (sum / 2 ^ 52)
      ≤ (2 * runs.length + 1) * ((limit + 1) / 2 ^ 52) := by
    gcongr
  obtain ⟨n, hn⟩ := exists_totalCounted_eq runs
  have htally : (n : ℚ) / 10000 ≤ Double.hundredthCount sum / 100 + 1 / 200 := by
    refine @le_cents_of_close n _ ?_
    push_cast
    rw [hn] at htrue
    norm_num at hcut htrue hruns hfewer hsumle ⊢
    linarith
  have hlater : (100 * Double.hundredthCount sum + order.tenThousandths : ℚ)
      / 10000 ≤ Double.hundredthCount projected / 100 + 1 / 200 := by
    have hclose := @le_cents_of_close
      (100 * Double.hundredthCount sum + order.tenThousandths)
      (Double.hundredthCount projected)
    push_cast at hclose
    refine hclose ?_
    unfold Usd.toRat at hread
    norm_num at hcut' hquotient hplus hread hspentle horderle hprojectedle hlimit ⊢
    linarith
  rw [hn]
  unfold Usd.toRat
  linarith

/-! ## Along a history -/

theorem mem_updateLive {runs : List SpendRun} {i : ℕ}
    {f : SpendRun → SpendRun} {r : SpendRun} (h : r ∈ updateLive runs i f) :
    r ∈ runs ∨ ∃ r₀, runs[i]? = some r₀ ∧ r₀.finalCost = none ∧ r = f r₀ := by
  unfold updateLive at h
  obtain ⟨j, hj⟩ := List.mem_iff_getElem?.mp h
  rw [List.getElem?_modify] at hj
  obtain ⟨r₀, hr₀, hr⟩ := Option.map_eq_some_iff.mp hj
  by_cases hij : i = j
  · subst hij
    simp only [if_true] at hr
    by_cases hlive : r₀.finalCost = none
    · simp only [hlive, Option.isNone_none, if_true] at hr
      exact Or.inr ⟨r₀, hr₀, hlive, hr.symm⟩
    · have hended : r₀.finalCost.isNone = false := by
        cases hf : r₀.finalCost with
        | none => exact absurd hf hlive
        | some finalCost => rfl
      rw [hended] at hr
      exact Or.inl (hr ▸ List.mem_of_getElem? hr₀)
  · simp only [hij, if_false] at hr
    exact Or.inl (hr ▸ List.mem_of_getElem? hr₀)

/-- Every event that keeps the ceilings keeps every run within its own. -/
theorem spendStep_withinCeiling (runs : List SpendRun) (event : SpendEvent)
    (h : ∀ r ∈ runs, r.WithinCeiling) (he : KeepsCeilings runs event) :
    ∀ r ∈ spendStep ceiling runs event, r.WithinCeiling := by
  intro r hr
  cases event with
  | dispatch now order reportsCost =>
    unfold spendStep at hr
    split_ifs at hr
    · rcases List.mem_append.mp hr with hr | hr
      · exact h r hr
      · obtain rfl := List.mem_singleton.mp hr
        exact ⟨by simp, by simp⟩
    · exact h r hr
  | resume now run reportsCost => exact h r hr
  | report run cost =>
    rcases mem_updateLive hr with hr | ⟨r₀, hr₀, hlive, rfl⟩
    · exact h r hr
    · have hr₀' := h r₀ (List.mem_of_getElem? hr₀)
      exact ⟨fun x hx => Option.some.inj hx ▸ he r₀ hr₀, hr₀'.final⟩
  | complete run finalCost reported =>
    rcases mem_updateLive hr with hr | ⟨r₀, hr₀, hlive, rfl⟩
    · exact h r hr
    · have hr₀' := h r₀ (List.mem_of_getElem? hr₀)
      refine ⟨fun x hx => ?_, fun x hx => Option.some.inj hx ▸ he r₀ hr₀⟩
      cases reported with
      | true => exact Option.some.inj hx ▸ he r₀ hr₀
      | false => exact hr₀'.cost x hx

/-- One admission that finds every other run fully counted bounds the
exposure. -/
theorem exposureBounded_step {limit : ℚ} {runs : List SpendRun}
    {event : SpendEvent} (hset : SetTo ceiling limit)
    (h : ∀ r ∈ runs, r.WithinCeiling) (hw : InOneWindow ceiling runs event)
    (hc : NoPartialReport runs event) (hfew : FewRuns limit runs) :
    ExposureBounded ceiling limit runs event := by
  intro hadm
  cases event with
  | dispatch now order reportsCost =>
    have hbound := counted_add_le_of_admits hset hfew hw hadm
    have hexp := totalExposure_le runs h hc
    have hnew : totalExposure
        (spendStep ceiling runs (.dispatch now order reportsCost)) =
          totalExposure runs + order.toRat := by
      have horder : max ⟨0⟩ order = order := max_eq_right (Nat.zero_le _)
      simp [spendStep, hadm, totalExposure, SpendRun.exposure, horder]
    rw [hnew]
    linarith
  | resume now run reportsCost =>
    cases hr : runs[run]? with
    | none => simp [admitted, hr] at hadm
    | some r =>
      simp only [admitted, hr, Bool.and_eq_true] at hadm
      have hbound := counted_add_le_of_admits hset hfew hw hadm.2
      have hexp := totalExposure_le_add hr h hc
      exact le_trans hexp hbound
  | report run cost => contradiction
  | complete run finalCost reported => contradiction

/-- **The ceiling bounds worst-case exposure along every history whose
admissions find every other run fully counted.** All runs start inside one
window and stay within their orders' ceilings, and there are not so many of
them that the doubles of the ledger run into one another. -/
theorem exposureBounded_of_fullyCounted (ceiling : HardCeiling) (limit : ℚ)
    (history : List SpendEvent) (hset : SetTo ceiling limit)
    (hceilings : Machine.Always (spendStep ceiling) KeepsCeilings [] history)
    (hwindow : Machine.Always (spendStep ceiling) (InOneWindow ceiling) []
      history)
    (hcounted : Machine.Always (spendStep ceiling) NoPartialReport []
      history)
    (hfew : Machine.Always (spendStep ceiling)
      (fun runs _ => FewRuns limit runs) [] history) :
    Machine.Always (spendStep ceiling) (ExposureBounded ceiling limit) []
      history := by
  have hinit : ∀ r ∈ ([] : List SpendRun), r.WithinCeiling := by simp
  exact Machine.always_of_invariant
    (fun runs event h hg => spendStep_withinCeiling runs event h hg.1)
    (fun runs event h hg =>
      exposureBounded_step hset h hg.2.1 hg.2.2.1 hg.2.2.2)
    hinit (Machine.always_and_iff.mpr ⟨hceilings,
      Machine.always_and_iff.mpr ⟨hwindow,
        Machine.always_and_iff.mpr ⟨hcounted, hfew⟩⟩⟩)

/-- A limit in whole dollars is read as it is, and a cent above it is read
above it. -/
theorem setTo_dollars {dollars : ℕ} (hsmall : dollars ≤ 2 ^ 45)
    (hread : ∀ number ∈ ceiling.limitUsd, number = dollars) :
    SetTo ceiling dollars where
  nonneg := Nat.cast_nonneg _
  read number hnumber := by
    rw [hread number hnumber, Double.nearest_natCast (by omega)]
  apart n hn := by
    rw [Double.nearest_natCast (by omega)]
    have hcents : dollars * 100 + 1 ≤ n := by
      rw [lt_div_iff₀ (by norm_num)] at hn
      exact_mod_cast hn
    have hnext : (dollars : ℚ) + 1 / 100 ≤ n / 100 := by
      have hcast : (dollars : ℚ) * 100 + 1 ≤ n := by exact_mod_cast hcents
      linarith
    have hdollars : (dollars : ℚ) ≤ (2 ^ 45 : ℕ) := Nat.cast_le.mpr hsmall
    rw [Nat.cast_pow, Nat.cast_ofNat] at hdollars
    have hpos : (0 : ℚ) ≤ dollars + 1 / 100 := by positivity
    have herror := (abs_le.mp (Double.abs_nearest_sub_le_mul hpos)).1
    refine lt_of_lt_of_le ?_ (Double.nearest_le_nearest hpos hnext)
    norm_num at herror ⊢
    linarith

/-- A ceiling of twenty dollars over thirty days. -/
def twentyDollars : HardCeiling := ⟨some 20, 30, none⟩

/-- A run parks unreported, ends having reported what it cost, and the order
after it fits. -/
theorem exposureBounded_completed :
    Machine.Always (spendStep twentyDollars)
      (ExposureBounded twentyDollars 20) []
      [.dispatch 0 (.ofDollars 10) true, .resume 1 0 true,
        .complete 0 (.ofDollars 4) true, .dispatch 2 (.ofDollars 15) true] :=
  exposureBounded_of_fullyCounted twentyDollars 20 _
    (@setTo_dollars twentyDollars 20 (by norm_num) (by decide))
    (by decide +kernel) (by decide +kernel) (by decide +kernel)
    (by decide +kernel)

/-- A run that has reported one dollar of its ten is counted for one, so two
more orders of ten and nine dollars fit under twenty. -/
def partialReport : List SpendEvent :=
  [.dispatch 0 (.ofDollars 10) true, .report 0 (.ofDollars 1),
    .dispatch 1 (.ofDollars 10) true, .dispatch 2 (.ofDollars 9) true]

/-- **A partial report takes exposure past the ceiling.** -/
theorem partialReport_exceeds :
    ¬ ∀ (ceiling : HardCeiling) (limit : ℚ) (history : List SpendEvent),
      SetTo ceiling limit →
      Machine.Always (spendStep ceiling) KeepsCeilings [] history →
      Machine.Always (spendStep ceiling) (InOneWindow ceiling) [] history →
      Machine.Always (spendStep ceiling) (ExposureBounded ceiling limit) []
        history := by
  intro h
  have hbounded := h twentyDollars 20 partialReport
    (@setTo_dollars twentyDollars 20 (by norm_num) (by decide))
    (by decide +kernel) (by decide +kernel)
  exact absurd hbounded (by decide +kernel)

end Opifex
