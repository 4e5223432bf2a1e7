import Mathlib.Algebra.BigOperators.Group.List.Basic
import Opifex.SpendAdmission

/-!
# Re-admitting a parked run

A resume goes through the same admission as the dispatch did, with the same
order. Between the two the ledger has gained the run itself: having reported
nothing, it counts for its order's ceiling – and the order's ceiling is passed
whole once more. So a run that was authorized is re-admitted exactly when the
limit has room for that ceiling *twice*, on top of what the other runs count
for (`readmitted_iff`).

A total of doubles depends on the order in which they are added, and the two
reads need not return the rows in one order. So the room is that of the rows as
the resume reads them, the run's own among them. Where the order is one, an
order that names no ceiling is always re-admitted
(`hasRoomTwice_of_no_ceiling`).
-/

namespace Opifex

/-- What a run's order may spend, if it names a ceiling, and whether its runner reports
costs. -/
structure ParkedOrder where
  budgetCeilingUsd : Option Usd
  runnerReportsCost : Bool
deriving DecidableEq

/-- The order as an admission is asked about it. -/
def ParkedOrder.budget (order : ParkedOrder) : OrderBudget :=
  ⟨order.budgetCeilingUsd.map Usd.toNumber, order.runnerReportsCost⟩

/-- The row of a run that was dispatched and parked before reporting any
cost. -/
def parkedRow (startedAt : Instant) (order : ParkedOrder) : LedgerRun :=
  ⟨startedAt, none, order.budgetCeilingUsd⟩

/-- **A dispatch and a later resume of the same run, with nothing else in
between**: no other run started, no cost was reported, and the window moved
past no run. The resume reads the run's own row after some of the others and
before the rest. -/
structure ParkedSince (ceiling : HardCeiling) (order : ParkedOrder)
    (dispatchedAt startedAt resumedAt : Instant)
    (atDispatch before after : List LedgerRun) : Prop where
  rows : (before ++ after).Perm atDispatch
  window : ∀ r ∈ atDispatch, r.inWindow ceiling.windowDays resumedAt =
    r.inWindow ceiling.windowDays dispatchedAt
  started : (parkedRow startedAt order).inWindow ceiling.windowDays resumedAt
  admitted : (decideSpendAdmission ceiling
    (tally ceiling.windowDays dispatchedAt atDispatch) order.budget).admits

/-- The admission the resume asks for is given. -/
def Readmitted (ceiling : HardCeiling) (order : ParkedOrder)
    (startedAt resumedAt : Instant) (before after : List LedgerRun) : Prop :=
  (decideSpendAdmission ceiling
    (tally ceiling.windowDays resumedAt
      (before ++ parkedRow startedAt order :: after)) order.budget).admits

/-- What the other runs of the window count for, and on top of them an order's
ceiling, if it names one: added where the run's row is read. -/
def countedWith (order : ParkedOrder) (before after : List LedgerRun) : ℚ :=
  cents (Double.plus
    (Double.total (((before ++ after).filterMap (·.costUsd)).map Usd.toNumber))
    (Double.total
      ((before.filterMap (·.estimate) ++ order.budgetCeilingUsd.toList
        ++ after.filterMap (·.estimate)).map Usd.toNumber)))

/-- The limit is above what the other runs count for together with the order's
ceiling, and has room for that ceiling a second time. -/
def HasRoomTwice (ceiling : HardCeiling) (order : ParkedOrder)
    (now : Instant) (before after : List LedgerRun) : Prop :=
  ∀ limit ∈ ceiling.limitUsd,
    let counted := countedWith order
      (before.filter (·.inWindow ceiling.windowDays now))
      (after.filter (·.inWindow ceiling.windowDays now))
    counted < limit ∧ ∀ again ∈ order.budgetCeilingUsd,
      cents (Double.plus counted again.toNumber) ≤ limit

variable {ceiling : HardCeiling} {order : ParkedOrder}
  {dispatchedAt startedAt resumedAt : Instant}
  {atDispatch before after : List LedgerRun}

/-- The parked run is estimated at its order's ceiling, wherever its row
is. -/
theorem countedTotal_parkedRow (before after : List LedgerRun) :
    countedTotal (before ++ parkedRow startedAt order :: after)
      = countedWith order before after := by
  have hcosts : (before ++ parkedRow startedAt order :: after).filterMap
      (·.costUsd) = (before ++ after).filterMap (·.costUsd) := by
    simp [parkedRow]
  have hestimates : (before ++ parkedRow startedAt order :: after).filterMap
      (·.estimate)
        = before.filterMap (·.estimate) ++ order.budgetCeilingUsd.toList
          ++ after.filterMap (·.estimate) := by
    rw [List.filterMap_append, List.filterMap_cons]
    unfold LedgerRun.estimate parkedRow
    cases order.budgetCeilingUsd with
    | none => simp
    | some ceiling => simp
  unfold countedTotal reportedTotal estimatedTotal countedWith
  rw [hcosts, hestimates]

/-- **A parked run is re-admitted exactly when the limit has room for its
order's ceiling twice**, if it names one. -/
theorem readmitted_iff (ceiling : HardCeiling) (order : ParkedOrder)
    (dispatchedAt startedAt resumedAt : Instant)
    (atDispatch before after : List LedgerRun)
    (h : ParkedSince ceiling order dispatchedAt startedAt resumedAt atDispatch
      before after) :
    Readmitted ceiling order startedAt resumedAt before after ↔
      HasRoomTwice ceiling order resumedAt before after := by
  obtain ⟨hmalformed, limit, hlimit, -, hreports, -⟩ :=
    decideSpendAdmission_admits.mp h.admitted
  have htotal : (tally ceiling.windowDays resumedAt
        (before ++ parkedRow startedAt order :: after)).totalUsd
      = countedWith order
        (before.filter (·.inWindow ceiling.windowDays resumedAt))
        (after.filter (·.inWindow ceiling.windowDays resumedAt)) := by
    unfold tally
    dsimp only
    rw [List.filter_append, List.filter_cons_of_pos h.started,
      countedTotal_parkedRow]
  have hreports' : order.budget.ceilingUsd = none →
      order.budget.runnerReportsCost := hreports
  unfold Readmitted HasRoomTwice
  rw [decideSpendAdmission_admits, htotal]
  constructor
  · rintro ⟨-, limit', hlimit', hbelow, -, hfits⟩ number hnumber
    obtain rfl : number = limit' :=
      Option.some.inj (hnumber.symm.trans hlimit')
    refine ⟨hbelow, fun again hagain => hfits again.toNumber ?_⟩
    unfold ParkedOrder.budget
    rw [hagain]
    rfl
  · intro hroom
    obtain ⟨hbelow, hagain⟩ := hroom limit hlimit
    refine ⟨hmalformed, limit, hlimit, hbelow, hreports', ?_⟩
    intro orderCeiling horder
    obtain ⟨again, hsome, rfl⟩ := Option.map_eq_some_iff.mp horder
    exact hagain again hsome

/-- **An order that names no ceiling asks for no room**: where the other rows
are read in the order in which the dispatch read them, they come to what they
came to then. -/
theorem hasRoomTwice_of_no_ceiling
    (h : ParkedSince ceiling order dispatchedAt startedAt resumedAt
      (before ++ after) before after)
    (hnone : order.budgetCeilingUsd = none) :
    HasRoomTwice ceiling order resumedAt before after := by
  obtain ⟨-, limit, hlimit, hbelow, -, -⟩ :=
    decideSpendAdmission_admits.mp h.admitted
  have hothers : (before ++ after).filter
        (·.inWindow ceiling.windowDays resumedAt)
      = (before ++ after).filter (·.inWindow ceiling.windowDays dispatchedAt) :=
    List.filter_congr h.window
  have hcounted : countedWith order
        (before.filter (·.inWindow ceiling.windowDays resumedAt))
        (after.filter (·.inWindow ceiling.windowDays resumedAt))
      = (tally ceiling.windowDays dispatchedAt (before ++ after)).totalUsd := by
    unfold tally countedTotal reportedTotal estimatedTotal countedWith
    dsimp only
    rw [← hothers, hnone, Option.toList_none, List.append_nil,
      ← List.filterMap_append, ← List.filter_append]
  intro number hnumber
  obtain rfl : number = limit := Option.some.inj (hnumber.symm.trans hlimit)
  dsimp only
  rw [hcounted]
  exact ⟨hbelow, fun again hagain => by
    rw [hnone] at hagain
    cases hagain⟩

/-- Fifty dollars over thirty days. -/
def fiftyDollars : HardCeiling := ⟨some 50, 30, none⟩

/-- An order of fifteen dollars, after a run that reported ten, fits twice. -/
theorem readmitted_iff_fifteen :
    Readmitted fiftyDollars ⟨some (.ofDollars 15), true⟩ 1 2
        [⟨0, some (.ofDollars 10), none⟩] [] ↔
      HasRoomTwice fiftyDollars ⟨some (.ofDollars 15), true⟩ 2
        [⟨0, some (.ofDollars 10), none⟩] [] :=
  readmitted_iff fiftyDollars ⟨some (.ofDollars 15), true⟩ 0 1 2
    [⟨0, some (.ofDollars 10), none⟩] [⟨0, some (.ofDollars 10), none⟩] []
    { rows := List.Perm.refl _
      window := by decide
      started := by decide
      admitted := by decide +kernel }

/-- **A run is refused its resume because of its own authorization**: an order
of thirty dollars under a ceiling of fifty, with no other run at all. -/
theorem thirtyDollars_refused :
    ¬ ∀ (ceiling : HardCeiling) (order : ParkedOrder)
      (dispatchedAt startedAt resumedAt : Instant)
      (atDispatch before after : List LedgerRun),
      ParkedSince ceiling order dispatchedAt startedAt resumedAt atDispatch
        before after →
      Readmitted ceiling order startedAt resumedAt before after := by
  intro h
  have hre := h fiftyDollars ⟨some (.ofDollars 30), true⟩ 0 1 2 [] [] []
    { rows := List.Perm.refl _
      window := by simp
      started := by decide
      admitted := by decide +kernel }
  unfold Readmitted at hre
  exact absurd hre (by decide +kernel)

end Opifex
