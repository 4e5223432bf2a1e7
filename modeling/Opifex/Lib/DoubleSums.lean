import Mathlib.Algebra.BigOperators.Group.List.Basic
import Opifex.Lib.Double
import Opifex.Lib.Rounding

/-!
# Running totals of doubles

A program that adds up numbers rounds at every addition, and it read the
numbers by rounding them in the first place. Where none of them is negative the
total only grows, so that everything rounded on the way is at most the total
that comes out; and the total is off by two units of `2 ^ (-52)` of itself for
each number, at most (`abs_total_sub_le`).

`hundredths` is how such a total is cut to two decimals,
`Math.round(x * 100) / 100`: a product, a rounding to an integer
(`hundredthCount`) and a quotient. It loses half a hundredth, and what the two
operations round (`le_hundredthCount_add`).
-/

namespace Double

/-- A sum of two doubles. -/
def plus (x y : ℚ) : ℚ := nearest (x + y)

/-- **A running total**, in the order of the list: `0` is the first double,
and a sum does not change it. -/
def total (values : List ℚ) : ℚ := values.foldl plus 0

section Nearest

variable {x y : ℚ}

/-- A number is rounded down by a fraction of what it is rounded to. -/
theorem le_nearest_add (hx : 0 ≤ x) : x ≤ nearest x + nearest x / 2 ^ 52 := by
  have herror := (abs_le.mp (abs_nearest_sub_le_mul hx)).1
  norm_num at herror ⊢
  linarith

/-- And up. -/
theorem nearest_le_add (hx : 0 ≤ x) : nearest x ≤ x + nearest x / 2 ^ 52 := by
  have herror := (abs_le.mp (abs_nearest_sub_le_mul hx)).2
  have hlow := le_nearest_add hx
  norm_num at herror hlow ⊢
  linarith

theorem abs_nearest_sub_le_self (hx : 0 ≤ x) :
    |nearest x - x| ≤ nearest x / 2 ^ 52 := by
  have hlow := le_nearest_add hx
  have hhigh := nearest_le_add hx
  rw [abs_le]
  constructor <;> linarith

theorem plus_comm (x y : ℚ) : plus x y = plus y x := by
  unfold plus
  rw [add_comm]

theorem plus_nonneg (hx : 0 ≤ x) (hy : 0 ≤ y) : 0 ≤ plus x y :=
  nearest_nonneg (add_nonneg hx hy)

/-- A total does not fall. -/
theorem le_plus_right (hx : IsDouble x) (hnonneg : 0 ≤ x) (hy : 0 ≤ y) :
    x ≤ plus x y := by
  obtain hzero | hpos := (add_nonneg hnonneg hy).eq_or_lt
  · have heq : x = 0 := by linarith
    rw [heq]
    exact plus_nonneg le_rfl hy
  · exact le_nearest hx (by linarith) hpos

theorem le_plus_left (hy : IsDouble y) (hnonneg : 0 ≤ y) (hx : 0 ≤ x) :
    y ≤ plus x y := by
  rw [plus_comm]
  exact le_plus_right hy hnonneg hx

end Nearest

/-! ## The error of a total -/

/-- What a total that starts at a double comes to: it has not fallen, and each
number was rounded twice, when it was read and when it was added. -/
structure Totals (start : ℚ) (values : List ℚ) (result : ℚ) : Prop where
  isDouble : IsDouble result
  le : start ≤ result
  error : |result - (start + values.sum)|
    ≤ values.length * (2 * (result / 2 ^ 52))

theorem totals_foldl {start : ℚ} {values : List ℚ} (hstart : IsDouble start)
    (hnonneg : 0 ≤ start) (hvalues : ∀ x ∈ values, 0 ≤ x) :
    Totals start values ((values.map nearest).foldl plus start) := by
  induction values generalizing start with
  | nil => exact ⟨hstart, le_rfl, by simp⟩
  | cons x values ih =>
    have hx : 0 ≤ x := hvalues x List.mem_cons_self
    have hread : 0 ≤ nearest x := nearest_nonneg hx
    have hsum : 0 ≤ start + nearest x := add_nonneg hnonneg hread
    have hnext : Totals (plus start (nearest x)) values
        ((values.map nearest).foldl plus (plus start (nearest x))) :=
      ih (isDouble_nearest hsum) (plus_nonneg hnonneg hread)
        fun y hy => hvalues y (List.mem_cons_of_mem x hy)
    rw [List.map_cons, List.foldl_cons]
    set result := (values.map nearest).foldl plus (plus start (nearest x))
    -- both roundings are of numbers that the total is not below
    have hadded : |plus start (nearest x) - (start + nearest x)|
        ≤ result / 2 ^ 52 :=
      (abs_nearest_sub_le_self hsum).trans
        (div_le_div_of_nonneg_right hnext.le (by positivity))
    have hxle : nearest x ≤ result :=
      (le_plus_left (isDouble_nearest hx) hread hnonneg).trans hnext.le
    have hreading : |nearest x - x| ≤ result / 2 ^ 52 :=
      (abs_nearest_sub_le_self hx).trans
        (div_le_div_of_nonneg_right hxle (by positivity))
    refine ⟨hnext.isDouble,
      (le_plus_right hstart hnonneg hread).trans hnext.le, ?_⟩
    have hsplit : result - (start + (x :: values).sum)
        = (result - (plus start (nearest x) + values.sum))
          + (plus start (nearest x) - (start + nearest x)) + (nearest x - x) := by
      rw [List.sum_cons]
      ring
    rw [hsplit, List.length_cons]
    push_cast
    calc |result - (plus start (nearest x) + values.sum)
          + (plus start (nearest x) - (start + nearest x)) + (nearest x - x)|
        ≤ |result - (plus start (nearest x) + values.sum)|
          + |plus start (nearest x) - (start + nearest x)| + |nearest x - x| :=
          abs_add_three _ _ _
      _ ≤ (values.length + 1) * (2 * (result / 2 ^ 52)) := by
          linarith [hnext.error]

theorem isDouble_zero : IsDouble 0 := ⟨0, 0, by norm_num, by simp⟩

section Total

variable {values : List ℚ} (h : ∀ x ∈ values, 0 ≤ x)
include h

theorem isDouble_total : IsDouble (total (values.map nearest)) :=
  (totals_foldl isDouble_zero le_rfl h).isDouble

theorem total_nonneg : 0 ≤ total (values.map nearest) :=
  (totals_foldl isDouble_zero le_rfl h).le

/-- **A total is off by two units of itself for each number.** -/
theorem abs_total_sub_le :
    |total (values.map nearest) - values.sum|
      ≤ values.length * (2 * (total (values.map nearest) / 2 ^ 52)) := by
  have herror := (totals_foldl isDouble_zero le_rfl h).error
  rwa [zero_add] at herror

end Total

/-! ## Two decimals -/

/-- The number of hundredths a double is rounded to, ties upwards. -/
def hundredthCount (x : ℚ) : ℤ := Rounding.round (nearest (x * 100))

/-- `Math.round(x * 100) / 100`. -/
def hundredths (x : ℚ) : ℚ := nearest (hundredthCount x / 100)

/-- A tie that the double is just below is rounded down. -/
example : hundredths (nearest (1005 / 1000)) = 1 := by decide +kernel

section Hundredths

variable {x y : ℚ}

/-- Half a hundredth is lost, and what the product rounds. -/
theorem le_hundredthCount_add (hx : 0 ≤ x) :
    x * 100 ≤ hundredthCount x + 1 / 2 + x * 100 / 2 ^ 53 := by
  have hproduct : (0 : ℚ) ≤ x * 100 := by positivity
  have herror := (abs_le.mp (abs_nearest_sub_le_mul hproduct)).1
  have hround := Rounding.lt_round_add (nearest (x * 100))
  unfold hundredthCount
  linarith

theorem hundredthCount_nonneg (hx : 0 ≤ x) : 0 ≤ hundredthCount x :=
  Rounding.round_nonneg (nearest_nonneg (by positivity))

theorem hundredths_nonneg (hx : 0 ≤ x) : 0 ≤ hundredths x :=
  nearest_nonneg (div_nonneg (Int.cast_nonneg (hundredthCount_nonneg hx))
    (by norm_num))

theorem isDouble_hundredths (hx : 0 ≤ x) : IsDouble (hundredths x) :=
  isDouble_nearest (div_nonneg (Int.cast_nonneg (hundredthCount_nonneg hx))
    (by norm_num))

/-- The quotient is rounded down by a fraction of itself. -/
theorem hundredthCount_le_mul (hx : 0 ≤ x) :
    hundredthCount x ≤ (hundredths x + hundredths x / 2 ^ 52) * 100 := by
  have hcount : (0 : ℚ) ≤ hundredthCount x / 100 :=
    div_nonneg (Int.cast_nonneg (hundredthCount_nonneg hx)) (by norm_num)
  have hquotient := le_nearest_add hcount
  exact (div_le_iff₀ (by norm_num)).mp hquotient

theorem hundredths_le_add (hx : 0 ≤ x) :
    hundredths x ≤ hundredthCount x / 100 + hundredths x / 2 ^ 52 :=
  nearest_le_add (div_nonneg (Int.cast_nonneg (hundredthCount_nonneg hx))
    (by norm_num))

end Hundredths

end Double
