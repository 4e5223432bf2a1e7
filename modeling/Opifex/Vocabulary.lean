import Mathlib.Algebra.Order.Ring.Rat
import Mathlib.Data.Rat.Floor
import Mathlib.Data.List.DropRight
import Mathlib.Tactic.NormNum

/-!
# Statuses and money

The closed vocabularies the tables are written in, and the amounts of money
they hold. A money column is `DECIMAL(10, 4)`, so an amount is a whole number
of ten-thousandths of a dollar; arithmetic on it in the source is on numbers
that such a column returns, here exact rationals.
-/

namespace Opifex

/-- Where a work order is in its life. The drain takes the `queued` ones; a hold takes a
row out of the queue, and its release puts it back. -/
inductive WorkOrderStatus where
  | pending
  | queued
  | held
  | dispatched
  | succeeded
  | failed
  | quarantined
  | superseded
  | cancelled
deriving DecidableEq, Repr

/-- The status as the columns and messages write it. -/
def WorkOrderStatus.name : WorkOrderStatus → String
  | .pending => "pending"
  | .queued => "queued"
  | .held => "held"
  | .dispatched => "dispatched"
  | .succeeded => "succeeded"
  | .failed => "failed"
  | .quarantined => "quarantined"
  | .superseded => "superseded"
  | .cancelled => "cancelled"

/-- Where a run is in its life. A run that is running, stalled or blocked is live: its
work order has an agent, or will have one again. -/
inductive RunStatus where
  | running
  | succeeded
  | stalled
  | blocked
  | failed
  | quarantined
deriving DecidableEq, Repr

/-- The status as the columns and messages write it. -/
def RunStatus.name : RunStatus → String
  | .running => "running"
  | .succeeded => "succeeded"
  | .stalled => "stalled"
  | .blocked => "blocked"
  | .failed => "failed"
  | .quarantined => "quarantined"

/-- A run that occupies its work order: running, stalled or blocked. -/
def RunStatus.isLive : RunStatus → Bool
  | .running => true
  | .stalled => true
  | .blocked => true
  | _ => false

/-- An amount of money, in ten-thousandths of a dollar, as a DECIMAL(10,4) column holds
it. -/
structure Usd where
  tenThousandths : ℕ
deriving DecidableEq, Repr

namespace Usd

/-- The amount in dollars. -/
def toRat (amount : Usd) : ℚ := amount.tenThousandths / 10000

/-- Whole dollars, as an amount. -/
def ofDollars (dollars : ℕ) : Usd := ⟨dollars * 10000⟩

/-- The digits after the decimal point, without trailing zeros. -/
def fractionDigits (amount : Usd) : List Char :=
  let n := amount.tenThousandths
  ([n / 1000 % 10, n / 100 % 10, n / 10 % 10, n % 10].map
    Nat.digitChar).rdropWhile (· == '0')

/-- The amount as JavaScript prints the number: at most four decimals, none
of them a trailing zero. -/
def text (amount : Usd) : String :=
  toString (amount.tenThousandths / 10000) ++
    match amount.fractionDigits with
    | [] => ""
    | digits => "." ++ String.ofList digits

/-- The amount a column stores for a number of dollars: four decimals, halves
away from zero. -/
def ofRat (dollars : ℚ) : Usd := ⟨⌊dollars * 10000 + 1 / 2⌋.toNat⟩

theorem tenThousandths_injective : Function.Injective tenThousandths := by
  rintro ⟨a⟩ ⟨b⟩ h
  exact congrArg mk h

/-- Amounts are ordered as the columns compare them. -/
instance : LinearOrder Usd :=
  LinearOrder.lift' tenThousandths tenThousandths_injective

theorem toRat_nonneg (amount : Usd) : 0 ≤ amount.toRat := by
  exact div_nonneg (Nat.cast_nonneg _) (by norm_num)

/-- A column keeps the amounts it can hold. -/
theorem ofRat_toRat (amount : Usd) : ofRat amount.toRat = amount := by
  have hscale : amount.toRat * 10000 = (amount.tenThousandths : ℤ) := by
    unfold toRat
    rw [div_mul_cancel₀ _ (by norm_num), Int.cast_natCast]
  unfold ofRat
  rw [hscale, Int.floor_intCast_add]
  norm_num

example : (⟨125000⟩ : Usd).text = "12.5" := by decide

end Usd

end Opifex
