import Mathlib.Data.Int.Log
import Mathlib.Data.Rat.Floor
import Mathlib.Tactic.FieldSimp
import Mathlib.Tactic.Linarith
import Mathlib.Tactic.NormNum
import Mathlib.Tactic.Positivity
import Mathlib.Tactic.Ring

/-!
# Rounding to a double

An operation on doubles is the exact operation, rounded: `nearest x` is the
number of 53 binary digits nearest to `x`, the one with the even last digit
where two are equally near. Numbers whose exponent is too large or too small
for a double are not treated apart.

What a computation with doubles can be held to is what rounding keeps. It is
monotone (`nearest_le_nearest`) and leaves a double where it is, so it does not
pass one (`nearest_le`, `le_nearest`); and it moves a number by no more than
half a unit in the last place (`abs_nearest_sub_le`), which is a fraction
`2 ^ (-53)` of the number, or half of any power of two that the digits reach
down to.
-/

namespace Double

/-! ## The nearest integer -/

/-- The nearest integer, the even one of two. -/
def roundEven (x : ℚ) : ℤ :=
  let k := ⌊x⌋
  if x - k < 1 / 2 then k
  else if 1 / 2 < x - k then k + 1
  else k + k % 2

section RoundEven

variable {x y : ℚ} {m : ℤ}

/-- A tie goes to the lower integer where that is even. -/
theorem roundEven_cases (x : ℚ) :
    (roundEven x = ⌊x⌋ ∧ x - ⌊x⌋ ≤ 1 / 2)
      ∨ (roundEven x = ⌊x⌋ + 1 ∧ 1 / 2 ≤ x - ⌊x⌋) := by
  unfold roundEven
  dsimp only
  by_cases hlow : x - ⌊x⌋ < 1 / 2
  · rw [if_pos hlow]
    exact Or.inl ⟨rfl, hlow.le⟩
  rw [if_neg hlow]
  by_cases hhigh : 1 / 2 < x - ⌊x⌋
  · rw [if_pos hhigh]
    exact Or.inr ⟨rfl, hhigh.le⟩
  rw [if_neg hhigh]
  obtain heven | hodd := Int.emod_two_eq_zero_or_one ⌊x⌋
  · exact Or.inl ⟨by rw [heven, add_zero], not_lt.mp hhigh⟩
  · exact Or.inr ⟨by rw [hodd], not_lt.mp hlow⟩

theorem abs_roundEven_sub_le (x : ℚ) : |(roundEven x : ℚ) - x| ≤ 1 / 2 := by
  have hfloor := Int.floor_le x
  have hlt := Int.lt_floor_add_one x
  rw [abs_le]
  obtain ⟨heq, h⟩ | ⟨heq, h⟩ := roundEven_cases x
  · rw [heq]
    constructor <;> linarith
  · rw [heq, Int.cast_add, Int.cast_one]
    constructor <;> linarith

/-- What is less than half above an integer is not rounded above it. -/
theorem roundEven_le_of_lt (h : x < m + 1 / 2) : roundEven x ≤ m := by
  have herror := (abs_le.mp (abs_roundEven_sub_le x)).2
  have hlt : (roundEven x : ℚ) < m + 1 := by linarith
  exact Int.lt_add_one_iff.mp (by exact_mod_cast hlt)

theorem le_roundEven_of_lt (h : m - 1 / 2 < x) : m ≤ roundEven x := by
  have herror := (abs_le.mp (abs_roundEven_sub_le x)).1
  have hlt : (m : ℚ) - 1 < roundEven x := by linarith
  exact Int.sub_one_lt_iff.mp (by exact_mod_cast hlt)

theorem roundEven_le (h : x ≤ m) : roundEven x ≤ m :=
  roundEven_le_of_lt (by linarith)

theorem le_roundEven (h : (m : ℚ) ≤ x) : m ≤ roundEven x :=
  le_roundEven_of_lt (by linarith)

theorem roundEven_mono (h : x ≤ y) : roundEven x ≤ roundEven y := by
  by_contra hlt
  have hlt : (roundEven y : ℚ) + 1 ≤ roundEven x := by
    exact_mod_cast not_le.mp hlt
  have hx := (abs_le.mp (abs_roundEven_sub_le x)).2
  have hy := (abs_le.mp (abs_roundEven_sub_le y)).1
  -- both are half way between the two integers, and the rule is one
  have heq : x = y := by linarith
  rw [heq] at hlt
  linarith

end RoundEven

/-! ## The nearest double -/

/-- A unit in the last of 53 digits. -/
def ulp (x : ℚ) : ℚ := 2 ^ (Int.log 2 |x| - 52)

/-- The double nearest to a rational, ties to the even one. The exponent has no bounds,
so there is neither overflow nor underflow. -/
def nearest (x : ℚ) : ℚ := roundEven (x / ulp x) * ulp x

/-- A number of 53 digits. -/
def IsDouble (y : ℚ) : Prop := ∃ (m : ℕ) (k : ℤ), m ≤ 2 ^ 53 ∧ y = m * 2 ^ k

section Ulp

variable {x : ℚ} {k : ℤ}

theorem ulp_pos (x : ℚ) : 0 < ulp x := zpow_pos two_pos _

/-- The unit of the numbers between two powers of two. -/
theorem ulp_eq (hlow : 2 ^ k ≤ x) (hhigh : x < 2 ^ (k + 1)) :
    ulp x = 2 ^ (k - 52) := by
  have hpos : 0 < x := lt_of_lt_of_le (zpow_pos two_pos k) hlow
  have hle : k ≤ Int.log 2 x :=
    (Int.zpow_le_iff_le_log one_lt_two hpos).mp (by exact_mod_cast hlow)
  have hlt : Int.log 2 x < k + 1 :=
    (Int.lt_zpow_iff_log_lt one_lt_two hpos).mp (by exact_mod_cast hhigh)
  rw [ulp, abs_of_pos hpos, le_antisymm (Int.lt_add_one_iff.mp hlt) hle]

/-- Every positive number is between two powers of two. -/
theorem exists_binade (hx : 0 < x) : ∃ k : ℤ, (2 : ℚ) ^ k ≤ x ∧ x < 2 ^ (k + 1) :=
  ⟨Int.log 2 x, by exact_mod_cast Int.zpow_log_le_self one_lt_two hx,
    by exact_mod_cast Int.lt_zpow_succ_log_self one_lt_two x⟩

theorem zpow_sub_fifty_two (k : ℤ) : (2 : ℚ) ^ k = 2 ^ 52 * 2 ^ (k - 52) := by
  rw [← zpow_natCast, ← zpow_add₀ two_ne_zero]
  congr 1
  norm_num

theorem zpow_add_one_eq (k : ℤ) : (2 : ℚ) ^ (k + 1) = 2 ^ 53 * 2 ^ (k - 52) := by
  rw [← zpow_natCast, ← zpow_add₀ two_ne_zero]
  congr 1
  push_cast
  ring

theorem ulp_le_of_lt (hx : 0 < x) (h : x < 2 ^ (k + 1)) : ulp x ≤ 2 ^ (k - 52) := by
  obtain ⟨j, hlow, hhigh⟩ := exists_binade hx
  have hjk : j < k + 1 :=
    (zpow_lt_zpow_iff_right₀ one_lt_two).mp (lt_of_le_of_lt hlow h)
  rw [ulp_eq hlow hhigh]
  exact zpow_le_zpow_right₀ one_le_two (by omega)

theorem ulp_mul_le (hx : 0 < x) : 2 ^ 52 * ulp x ≤ x := by
  obtain ⟨j, hlow, hhigh⟩ := exists_binade hx
  rw [ulp_eq hlow hhigh, ← zpow_sub_fifty_two]
  exact hlow

/-- A double is a multiple of the unit of every number it is not below. -/
theorem IsDouble.exists_mul {y : ℚ} (hy : IsDouble y) (h : 2 ^ k ≤ y) :
    ∃ n : ℕ, y = n * 2 ^ (k - 52) := by
  obtain ⟨m, e, hm, rfl⟩ := hy
  have hcast : (m : ℚ) ≤ 2 ^ 53 := by exact_mod_cast hm
  obtain he | he := le_or_gt (k - 52) e
  · refine ⟨m * 2 ^ (e - (k - 52)).toNat, ?_⟩
    rw [Nat.cast_mul, Nat.cast_pow, Nat.cast_ofNat, mul_assoc, ← zpow_natCast,
      ← zpow_add₀ two_ne_zero, Int.toNat_of_nonneg (by omega)]
    congr 2
    ring
  · -- it has too few digits to be above the power of two
    refine ⟨2 ^ 52, ?_⟩
    have hle : (m : ℚ) * 2 ^ e ≤ 2 ^ k := calc
      (m : ℚ) * 2 ^ e ≤ 2 ^ 53 * 2 ^ (k - 53) :=
        mul_le_mul hcast (zpow_le_zpow_right₀ one_le_two (by omega))
          (zpow_nonneg zero_le_two e) (by positivity)
      _ = 2 ^ k := by
        rw [← zpow_natCast, ← zpow_add₀ two_ne_zero]
        congr 1
        norm_num
    rw [Nat.cast_pow, Nat.cast_ofNat, ← zpow_sub_fifty_two]
    exact le_antisymm hle h

end Ulp

section Nearest

variable {x y : ℚ} {k : ℤ}

@[simp] theorem nearest_zero : nearest 0 = 0 := by
  have hround : roundEven 0 = 0 := by simp [roundEven]
  rw [nearest, zero_div, hround, Int.cast_zero, zero_mul]

/-- **Rounding moves a number by half a unit at most.** -/
theorem abs_nearest_sub_le (x : ℚ) : |nearest x - x| ≤ ulp x / 2 := by
  have hpos := ulp_pos x
  have heq : nearest x - x = (roundEven (x / ulp x) - x / ulp x) * ulp x := by
    rw [nearest, sub_mul, div_mul_cancel₀ x hpos.ne']
  rw [heq, abs_mul, abs_of_pos hpos]
  calc |(roundEven (x / ulp x) : ℚ) - x / ulp x| * ulp x
      ≤ 1 / 2 * ulp x :=
        mul_le_mul_of_nonneg_right (abs_roundEven_sub_le _) hpos.le
    _ = ulp x / 2 := by ring

/-- By a fraction of itself. -/
theorem abs_nearest_sub_le_mul (hx : 0 ≤ x) : |nearest x - x| ≤ x / 2 ^ 53 := by
  obtain rfl | hpos := hx.eq_or_lt
  · simp
  have hulp := ulp_mul_le hpos
  have herror := abs_nearest_sub_le x
  linarith

/-- By half of what its digits reach down to. -/
theorem abs_nearest_sub_le_zpow (hx : 0 ≤ x) (h : x < 2 ^ (k + 1)) :
    |nearest x - x| ≤ 2 ^ (k - 52) / 2 := by
  obtain rfl | hpos := hx.eq_or_lt
  · rw [nearest_zero, sub_zero, abs_zero]
    exact div_nonneg (zpow_nonneg zero_le_two _) zero_le_two
  have hulp := ulp_le_of_lt hpos h
  have herror := abs_nearest_sub_le x
  linarith

/-- **Rounding does not pass a double from below.** -/
theorem nearest_le (hx : 0 ≤ x) (hy : IsDouble y) (h : x ≤ y) : nearest x ≤ y := by
  obtain rfl | hpos := hx.eq_or_lt
  · rwa [nearest_zero]
  obtain ⟨k, hlow, hhigh⟩ := exists_binade hpos
  obtain ⟨n, rfl⟩ := hy.exists_mul (hlow.trans h)
  rw [nearest, ulp_eq hlow hhigh]
  have hunit : (0 : ℚ) < 2 ^ (k - 52) := zpow_pos two_pos _
  have hround : roundEven (x / 2 ^ (k - 52)) ≤ (n : ℤ) :=
    roundEven_le (by rw [Int.cast_natCast]; exact (div_le_iff₀ hunit).mpr h)
  exact mul_le_mul_of_nonneg_right (by exact_mod_cast hround) hunit.le

/-- Nor from above. -/
theorem le_nearest (hy : IsDouble y) (h : y ≤ x) (hx : 0 < x) : y ≤ nearest x := by
  obtain ⟨k, hlow, hhigh⟩ := exists_binade hx
  have hunit : (0 : ℚ) < 2 ^ (k - 52) := zpow_pos two_pos _
  have hgrid : ∀ n : ℕ, (n : ℚ) * 2 ^ (k - 52) ≤ x →
      (n : ℚ) * 2 ^ (k - 52) ≤ nearest x := by
    intro n hn
    rw [nearest, ulp_eq hlow hhigh]
    have hround : (n : ℤ) ≤ roundEven (x / 2 ^ (k - 52)) :=
      le_roundEven (by rw [Int.cast_natCast]; exact (le_div_iff₀ hunit).mpr hn)
    exact mul_le_mul_of_nonneg_right (by exact_mod_cast hround) hunit.le
  obtain hky | hyk := le_or_gt ((2 : ℚ) ^ k) y
  · obtain ⟨n, rfl⟩ := hy.exists_mul hky
    exact hgrid n h
  · have hpower := hgrid (2 ^ 52)
    rw [Nat.cast_pow, Nat.cast_ofNat, ← zpow_sub_fifty_two] at hpower
    exact hyk.le.trans (hpower hlow)

theorem isDouble_zpow (k : ℤ) : IsDouble (2 ^ k) :=
  ⟨1, k, by norm_num, by rw [Nat.cast_one, one_mul]⟩

theorem isDouble_natCast {n : ℕ} (hn : n ≤ 2 ^ 53) : IsDouble n :=
  ⟨n, 0, hn, by rw [zpow_zero, mul_one]⟩

theorem nearest_nonneg (hx : 0 ≤ x) : 0 ≤ nearest x := by
  obtain rfl | hpos := hx.eq_or_lt
  · exact nearest_zero.ge
  · exact le_nearest ⟨0, 0, by norm_num, by simp⟩ hx hpos

theorem nearest_nonpos (hx : x ≤ 0) : nearest x ≤ 0 := by
  have hround : roundEven (x / ulp x) ≤ 0 :=
    roundEven_le (by
      rw [Int.cast_zero]
      exact div_nonpos_of_nonpos_of_nonneg hx (ulp_pos x).le)
  exact mul_nonpos_of_nonpos_of_nonneg (by exact_mod_cast hround) (ulp_pos x).le

/-- A double is rounded to itself. -/
theorem nearest_eq (hy : IsDouble y) (hpos : 0 < y) : nearest y = y :=
  le_antisymm (nearest_le hpos.le hy le_rfl) (le_nearest hy le_rfl hpos)

theorem nearest_natCast {n : ℕ} (hn : n ≤ 2 ^ 53) : nearest n = n := by
  obtain rfl | hpos := n.eq_zero_or_pos
  · rw [Nat.cast_zero, nearest_zero]
  · exact nearest_eq (isDouble_natCast hn) (Nat.cast_pos.mpr hpos)

/-- **Rounding is monotone.** -/
theorem nearest_le_nearest (hx : 0 ≤ x) (h : x ≤ y) : nearest x ≤ nearest y := by
  obtain rfl | hxpos := hx.eq_or_lt
  · rw [nearest_zero]
    exact nearest_nonneg h
  have hypos := hxpos.trans_le h
  obtain ⟨j, hjlow, hjhigh⟩ := exists_binade hxpos
  obtain ⟨k, hklow, hkhigh⟩ := exists_binade hypos
  have hjk : j < k + 1 := (zpow_lt_zpow_iff_right₀ one_lt_two).mp
    (lt_of_le_of_lt hjlow (lt_of_le_of_lt h hkhigh))
  obtain rfl | hlt := (Int.lt_add_one_iff.mp hjk).eq_or_lt
  · rw [nearest, nearest, ulp_eq hjlow hjhigh, ulp_eq hklow hkhigh]
    have hunit : (0 : ℚ) < 2 ^ (j - 52) := zpow_pos two_pos _
    have hround : roundEven (x / 2 ^ (j - 52)) ≤ roundEven (y / 2 ^ (j - 52)) :=
      roundEven_mono (div_le_div_of_nonneg_right h hunit.le)
    exact mul_le_mul_of_nonneg_right (by exact_mod_cast hround) hunit.le
  · -- a power of two is between them
    have hpower : (2 : ℚ) ^ (j + 1) ≤ 2 ^ k :=
      zpow_le_zpow_right₀ one_le_two (by omega)
    calc nearest x ≤ 2 ^ (j + 1) := nearest_le hx (isDouble_zpow _) hjhigh.le
      _ ≤ 2 ^ k := hpower
      _ ≤ nearest y := le_nearest (isDouble_zpow _) hklow hypos

/-- What is rounded has 53 digits. -/
theorem isDouble_nearest (hx : 0 ≤ x) : IsDouble (nearest x) := by
  obtain rfl | hpos := hx.eq_or_lt
  · exact ⟨0, 0, by norm_num, by simp⟩
  obtain ⟨k, hlow, hhigh⟩ := exists_binade hpos
  have hunit : (0 : ℚ) < 2 ^ (k - 52) := zpow_pos two_pos _
  have hnonneg : 0 ≤ roundEven (x / 2 ^ (k - 52)) :=
    le_roundEven (by rw [Int.cast_zero]; exact (div_pos hpos hunit).le)
  have hle : roundEven (x / 2 ^ (k - 52)) ≤ 2 ^ 53 := by
    refine roundEven_le ?_
    rw [div_le_iff₀ hunit]
    push_cast
    exact zpow_add_one_eq k ▸ hhigh.le
  refine ⟨(roundEven (x / 2 ^ (k - 52))).toNat, k - 52, by omega, ?_⟩
  rw [nearest, ulp_eq hlow hhigh, ← Int.cast_natCast, Int.toNat_of_nonneg hnonneg]

/-- **A difference of two doubles that are within a factor of two is one**:
nothing is rounded. -/
theorem IsDouble.sub (hx : IsDouble x) (hy : IsDouble y) (hle : y ≤ x)
    (hhalf : x ≤ 2 * y) : IsDouble (x - y) := by
  obtain hzero | hpos := le_or_gt y 0
  · have heq : x - y = 0 := by linarith
    exact ⟨0, 0, by norm_num, by rw [heq]; simp⟩
  obtain ⟨k, hlow, hhigh⟩ := exists_binade hpos
  have hunit : (0 : ℚ) < 2 ^ (k - 52) := zpow_pos two_pos _
  obtain ⟨m, hm⟩ := hy.exists_mul hlow
  obtain ⟨n, hn⟩ := hx.exists_mul (hlow.trans hle)
  have hmn : m ≤ n := by
    rw [hm, hn] at hle
    exact_mod_cast le_of_mul_le_mul_right hle hunit
  have hnm : n - m ≤ m := by
    rw [hm, hn, ← mul_assoc] at hhalf
    have hdouble : n ≤ 2 * m := by exact_mod_cast le_of_mul_le_mul_right hhalf hunit
    omega
  have hsmall : m < 2 ^ 53 := by
    rw [hm, zpow_add_one_eq] at hhigh
    exact_mod_cast lt_of_mul_lt_mul_right hhigh hunit.le
  refine ⟨n - m, k - 52, by omega, ?_⟩
  rw [hm, hn, Nat.cast_sub hmn, sub_mul]

/-- What is less than half a unit above a natural number is not rounded above
it. -/
theorem nearest_le_of_lt {n : ℕ} (hn : n ≤ 2 ^ 53) {k : ℕ} (hk : k ≤ 52)
    (hx : 2 ^ k ≤ x) (h : x < n + 2 ^ (k - 52 : ℤ) / 2) : nearest x ≤ n := by
  have hpos : 0 < x := lt_of_lt_of_le (pow_pos two_pos k) hx
  obtain ⟨j, hlow, hhigh⟩ := exists_binade hpos
  have hkj : (k : ℤ) ≤ j := by
    have hlt : (2 : ℚ) ^ (k : ℤ) < 2 ^ (j + 1) := by
      rw [zpow_natCast]
      exact lt_of_le_of_lt hx hhigh
    exact Int.lt_add_one_iff.mp ((zpow_lt_zpow_iff_right₀ one_lt_two).mp hlt)
  have hunit : (0 : ℚ) < 2 ^ (j - 52) := zpow_pos two_pos _
  have hfine : (2 : ℚ) ^ (k - 52 : ℤ) ≤ 2 ^ (j - 52) :=
    zpow_le_zpow_right₀ one_le_two (by omega)
  obtain hjn | hnj := le_or_gt ((2 : ℚ) ^ j) n
  · obtain ⟨m, hm⟩ := (isDouble_natCast hn).exists_mul hjn
    rw [nearest, ulp_eq hlow hhigh, hm]
    have hround : roundEven (x / 2 ^ (j - 52)) ≤ (m : ℤ) := by
      refine roundEven_le_of_lt ?_
      rw [div_lt_iff₀ hunit, Int.cast_natCast, add_mul, ← hm]
      linarith
    exact mul_le_mul_of_nonneg_right (by exact_mod_cast hround) hunit.le
  · -- the power of two is a natural number above it, and so out of reach
    exfalso
    obtain ⟨i, rfl⟩ := Int.eq_ofNat_of_zero_le (show 0 ≤ j by omega)
    rw [zpow_natCast] at hlow hnj
    have habove : (n : ℚ) + 1 ≤ 2 ^ i := by exact_mod_cast hnj
    have hone : (2 : ℚ) ^ (k - 52 : ℤ) ≤ 1 :=
      zpow_le_one_of_nonpos₀ one_le_two (by omega)
    linarith

end Nearest

end Double
