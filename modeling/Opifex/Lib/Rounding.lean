import Mathlib.Algebra.Order.Floor.Ring
import Mathlib.Data.Rat.Floor
import Mathlib.Tactic.Linarith

/-!
# Rounding to an integer

`round x` is the integer nearest to `x`, ties upwards, which is `Math.round`. It
loses less than a half (`lt_round_add`), and it stays below a bound just as long as
the number is less than a half above it (`round_le_iff`).
-/

namespace Rounding

/-- `Math.round`: the nearest integer, ties upwards. -/
def round (x : ℚ) : ℤ := ⌊x + 1 / 2⌋

variable {x : ℚ} {n : ℤ}

/-- Rounding loses less than a half. -/
theorem lt_round_add (x : ℚ) : x < round x + 1 / 2 := by
  have hfloor := Int.lt_floor_add_one (x + 1 / 2)
  unfold round
  linarith

/-- What is less than a half above an integer rounds to no more. -/
theorem round_le_iff : round x ≤ n ↔ x < n + 1 / 2 := by
  unfold round
  rw [← Int.lt_add_one_iff, Int.floor_lt]
  push_cast
  constructor <;> intro h <;> linarith

theorem round_nonneg (hx : 0 ≤ x) : 0 ≤ round x :=
  Int.floor_nonneg.mpr (by linarith)

end Rounding
