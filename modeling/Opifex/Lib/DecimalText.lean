import Mathlib.Data.Nat.Log
import Mathlib.Data.Nat.Prime.Basic
import Mathlib.Data.Nat.Prime.Pow
import Opifex.Lib.Double

/-!
# The text of a double

A double is printed with the fewest decimal digits that are rounded to it, and of these
the digits nearest to it (`shortest`): the largest power of ten is found of which a
multiple is rounded to the number. The digits are laid out with a decimal point or an
exponent, as the power of ten asks for.

Digits are rounded as a program reads them (`numberValue`): to 53 binary digits, and to
fewer where the 53 would reach below the least double. A double so small is printed with
as few digits as it needs among the doubles that there are.

However they are laid out, the text reads as the digits times the power of ten, and that
is rounded to the double. So the double is read back from its text
(`readNumber_toText`). A number that has digits below the least double is no double of a
program; the text of it has all its digits, and is the text of no other number either
(`toText_inj`).
-/

namespace Double

/-! ## The number that digits are read as -/

/-- The least double above zero, `2 ^ (-1074)`. Every double is a multiple of it. -/
def least : ℚ := ((2 ^ 1074 : ℕ) : ℚ)⁻¹

/-- The double that digits are read as. Below `2 ^ (-1022)` a double has fewer than 53
digits: the last of them is the least double. -/
def numberValue (y : ℚ) : ℚ :=
  if 2 ^ 52 * least ≤ y then nearest y else roundEven (y / least) * least

/-- A number that has no digit below the least double, as every double of a program. -/
def IsMultiple (x : ℚ) : Prop := ∃ n : ℕ, x = n * least

section NumberValue

variable {x y : ℚ}

theorem least_eq : least = 2 ^ (-1074 : ℤ) := by
  rw [least, zpow_neg, zpow_ofNat, Nat.cast_pow, Nat.cast_ofNat]

theorem least_pos : 0 < least := by
  rw [least_eq]
  exact zpow_pos two_pos _

theorem two_pow_mul_least : 2 ^ 52 * least = 2 ^ (-1022 : ℤ) := by
  rw [least_eq, ← zpow_ofNat, ← zpow_add₀ two_ne_zero]
  congr 1

/-- A double is read as itself. -/
theorem numberValue_eq (hd : IsDouble x) (hx : 0 < x) (h : IsMultiple x) :
    numberValue x = x := by
  unfold numberValue
  split
  · exact nearest_eq hd hx
  · obtain ⟨n, rfl⟩ := h
    have hround : roundEven n = n :=
      le_antisymm (roundEven_le (Int.cast_natCast n).ge) (le_roundEven (Int.cast_natCast n).le)
    rw [mul_div_cancel_right₀ _ least_pos.ne', hround, Int.cast_natCast]

/-- **What digits are read as has no digit below the least double.** -/
theorem isMultiple_numberValue (hy : 0 ≤ y) : IsMultiple (numberValue y) := by
  unfold numberValue
  split
  · rename_i hlow
    rw [two_pow_mul_least] at hlow
    have hpos : 0 < y := lt_of_lt_of_le (zpow_pos two_pos _) hlow
    obtain ⟨n, hn⟩ := (isDouble_nearest hy).exists_mul (le_nearest (isDouble_zpow _) hlow hpos)
    exact ⟨n, by rw [hn, least_eq]; norm_num⟩
  · have hround : 0 ≤ roundEven (y / least) :=
      le_roundEven (by rw [Int.cast_zero]; exact div_nonneg hy least_pos.le)
    exact ⟨(roundEven (y / least)).toNat,
      by rw [← Int.cast_natCast, Int.toNat_of_nonneg hround]⟩

theorem numberValue_zero : numberValue 0 = 0 := by
  have hround : roundEven 0 = 0 := by simp [roundEven]
  unfold numberValue
  split
  · exact nearest_zero
  · rw [zero_div, hround, Int.cast_zero, zero_mul]

/-- Digits are read as no further off than half of the last digit of the number. -/
theorem abs_numberValue_sub_le (hy : 0 ≤ y) :
    |numberValue y - y| ≤ y / 2 ^ 53 + least / 2 := by
  unfold numberValue
  split
  · have hnearest := abs_nearest_sub_le_mul hy
    have hleast := least_pos
    linarith
  · have heq : roundEven (y / least) * least - y
        = (roundEven (y / least) - y / least) * least := by
      rw [sub_mul, div_mul_cancel₀ y least_pos.ne']
    have hround := mul_le_mul_of_nonneg_right (abs_roundEven_sub_le (y / least)) least_pos.le
    have hnonneg : 0 ≤ y / 2 ^ 53 := by positivity
    rw [heq, abs_mul, abs_of_pos least_pos]
    linarith

end NumberValue

/-! ## The digits -/

/-- The multiple of a power of ten that is read as a number, and the nearest of them;
none if there is none. -/
def candidate (x : ℚ) (j : ℤ) : Option ℕ :=
  let low := ⌊x / 10 ^ j⌋.toNat
  [(roundEven (x / 10 ^ j)).toNat, low, low + 1].find? fun s =>
    numberValue (s * 10 ^ j) == x

/-- The largest power of ten, among some, of which a multiple is read as a number. -/
def searchDigits (x : ℚ) : ℕ → ℤ → ℕ × ℤ
  | 0, j => (⌊x / 10 ^ j⌋.toNat, j)
  | steps + 1, j =>
    match candidate x j with
    | some s => (s, j)
    | none => searchDigits x steps (j - 1)

/-- The digits of a positive number, and the power of ten of the last one. The number is
a multiple of the least power of ten that is tried. -/
def shortest (x : ℚ) : ℕ × ℤ :=
  let top := Int.log 10 x + 1
  searchDigits x (top + Nat.log 2 x.den).toNat top

/-- The number that the digits stand for: what another program reads a double as, when it
is handed over in digits. -/
def decimal (x : ℚ) : ℚ := if x = 0 then 0 else (shortest x).1 * 10 ^ (shortest x).2

example : decimal (nearest (5 / 100000)) = 5 / 100000 := by decide +kernel

/-! ## The layout -/

/-- Digits laid out, with the decimal point after so many of them. -/
def layout (digits : List Char) (n : ℤ) : List Char :=
  if digits.length ≤ n ∧ n ≤ 21 then
    digits ++ List.replicate (n - digits.length).toNat '0'
  else if 0 < n ∧ n ≤ 21 then digits.take n.toNat ++ '.' :: digits.drop n.toNat
  else if -6 < n ∧ n ≤ 0 then '0' :: '.' :: (List.replicate (-n).toNat '0' ++ digits)
  else
    let exponent := 'e' :: (if 0 < n then '+' else '-') :: Nat.toDigits 10 (n - 1).natAbs
    if digits.length = 1 then digits ++ exponent
    else digits.take 1 ++ '.' :: (digits.drop 1 ++ exponent)

/-- The text of a positive number: its shortest digits, laid out. -/
def positiveText (x : ℚ) : List Char :=
  let digits := Nat.toDigits 10 (shortest x).1
  layout digits (digits.length + (shortest x).2)

/-- `Number.prototype.toString`. -/
def toText (x : ℚ) : String :=
  if x = 0 then "0"
  else if x < 0 then String.ofList ('-' :: positiveText (-x))
  else String.ofList (positiveText x)

example : toText (nearest (1 / 10)) = "0.1" ∧ toText (-1500) = "-1500"
    ∧ toText (nearest (10 ^ 23)) = "1e+23" ∧ toText least = "5e-324" := by
  decide +kernel

/-! ## Reading a text -/

/-- The exponent at the end of such a text; zero if there is none. -/
def readExponent : List Char → ℤ
  | 'e' :: '+' :: digits => Nat.ofDigitChars 10 digits 0
  | 'e' :: '-' :: digits => -Nat.ofDigitChars 10 digits 0
  | _ => 0

/-- The number that digits with a decimal point and an exponent stand for. -/
def readDecimal (cs : List Char) : ℚ :=
  let mantissa := cs.takeWhile (· != 'e')
  let fraction := (mantissa.dropWhile (· != '.')).drop 1
  Nat.ofDigitChars 10 (mantissa.takeWhile (· != '.') ++ fraction) 0
    * 10 ^ (readExponent (cs.dropWhile (· != 'e')) - fraction.length)

/-- The number that a text stands for. -/
def readSigned : List Char → ℚ
  | '-' :: cs => -readDecimal cs
  | cs => readDecimal cs

/-- The double that a text is read as. -/
def readNumber (cs : List Char) : ℚ :=
  if readSigned cs < 0 then -numberValue (-readSigned cs) else numberValue (readSigned cs)

/-! ## The digits are rounded to the number -/

section Digits

variable {x : ℚ}

/-- A double has a last decimal digit. -/
theorem IsDouble.exists_mul_ten (hd : IsDouble x) (hx : 0 < x) {j : ℤ}
    (hj : j ≤ -(Nat.log 2 x.den : ℤ)) : ∃ m : ℕ, x = m * 10 ^ j := by
  obtain ⟨i, hden⟩ : ∃ i, x.den = 2 ^ i := by
    obtain ⟨m, k, -, heq⟩ := hd
    have hdvd : ∃ n, x.den ∣ 2 ^ n := by
      obtain hk | hk := le_or_gt 0 k
      · lift k to ℕ using hk
        have hcast : x = ((m * 2 ^ k : ℕ) : ℚ) := by
          rw [heq]
          push_cast
          rw [zpow_natCast]
        exact ⟨0, by rw [hcast, Rat.den_natCast, pow_zero]⟩
      · obtain ⟨n, rfl⟩ := Int.exists_eq_neg_ofNat hk.le
        have hcast : x = ((m : ℤ) : ℚ) / ((2 ^ n : ℕ) : ℤ) := by
          rw [heq, zpow_neg, zpow_natCast, div_eq_mul_inv]
          push_cast
          rfl
        have hdvd := Rat.den_dvd (m : ℤ) ((2 ^ n : ℕ) : ℤ)
        rw [Rat.divInt_eq_div, ← hcast] at hdvd
        exact ⟨n, Int.natCast_dvd_natCast.mp hdvd⟩
    obtain ⟨n, hn⟩ := hdvd
    obtain ⟨i, -, hi⟩ := (Nat.dvd_prime_pow Nat.prime_two).mp hn
    exact ⟨i, hi⟩
  rw [hden, Nat.log_pow Nat.one_lt_two] at hj
  obtain ⟨n, rfl⟩ := Int.exists_eq_neg_ofNat (show j ≤ 0 by omega)
  have hle : i ≤ n := by omega
  have hnum : ((x.num.toNat : ℤ) : ℚ) = x.num := by
    rw [Int.toNat_of_nonneg (Rat.num_pos.mpr hx).le]
  refine ⟨x.num.toNat * 5 ^ i * 10 ^ (n - i), ?_⟩
  have hten : (10 : ℚ) ^ n = 10 ^ (n - i) * (5 ^ i * 2 ^ i) := by
    rw [← mul_pow, show (5 : ℚ) * 2 = 10 by norm_num, ← pow_add, Nat.sub_add_cancel hle]
  push_cast
  rw [show ((x.num.toNat : ℕ) : ℚ) = x.num from hnum, zpow_neg, zpow_natCast]
  have hself : x * 2 ^ i = x.num := by
    have hmul := Rat.mul_den_eq_num x
    rw [hden] at hmul
    exact_mod_cast hmul
  rw [← hself, eq_mul_inv_iff_mul_eq₀ (pow_ne_zero n (by norm_num)), hten]
  ring

/-- Digits of a number: they are read as it, or they are all the digits it has. -/
def Shows (x : ℚ) (digits : ℕ × ℤ) : Prop :=
  numberValue (digits.1 * 10 ^ digits.2) = x ∨ digits.1 * 10 ^ digits.2 = x

/-- The search ends with digits of the number, and goes no further down than it is told
to. -/
theorem searchDigits_spec :
    ∀ (steps : ℕ) (j : ℤ), (∃ m : ℕ, x = m * 10 ^ (j - steps)) →
      Shows x (searchDigits x steps j) ∧ j - steps ≤ (searchDigits x steps j).2 := by
  intro steps
  induction steps with
  | zero =>
    rintro j ⟨m, hm⟩
    rw [Nat.cast_zero, sub_zero] at hm
    have hdiv : x / 10 ^ j = (m : ℤ) := by
      rw [div_eq_iff (zpow_ne_zero j (by norm_num)), Int.cast_natCast]
      exact hm
    unfold searchDigits
    rw [hdiv, Int.floor_intCast, Int.toNat_natCast]
    exact ⟨Or.inr hm.symm, by simp⟩
  | succ steps ih =>
    rintro j ⟨m, hm⟩
    unfold searchDigits
    cases hfound : candidate x j with
    | some s =>
      have hread : (numberValue (s * 10 ^ j) == x) = true := by
        unfold candidate at hfound
        exact List.find?_some (p := fun s : ℕ => numberValue (s * 10 ^ j) == x) hfound
      exact ⟨Or.inl (eq_of_beq hread), by dsimp only; omega⟩
    | none =>
      have hlater : x = m * 10 ^ (j - 1 - steps) := by
        rw [hm]
        congr 2
        push_cast
        ring
      obtain ⟨hshows, hle⟩ := ih (j - 1) ⟨m, hlater⟩
      exact ⟨hshows, by push_cast; omega⟩

/-- The search starts above the last digit that a number can have. -/
theorem neg_log_den_le (hx : 0 < x) : -(Nat.log 2 x.den : ℤ) ≤ Int.log 10 x + 1 := by
  have hden : (x.den : ℚ) ≤ 10 ^ (Nat.log 2 x.den + 1) := by
    have hlt := Nat.lt_pow_succ_log_self Nat.one_lt_two x.den
    have hle := Nat.pow_le_pow_left (show 2 ≤ 10 by decide) (Nat.log 2 x.den + 1)
    exact_mod_cast hlt.le.trans hle
  have hnum : 1 ≤ x * x.den := by
    rw [Rat.mul_den_eq_num]
    exact_mod_cast Int.add_one_le_of_lt (Rat.num_pos.mpr hx)
  have hone : 1 ≤ x * 10 ^ (Nat.log 2 x.den + 1) :=
    hnum.trans (mul_le_mul_of_nonneg_left hden hx.le)
  have hle : (10 : ℚ) ^ (-(Nat.log 2 x.den : ℤ) - 1) ≤ x := by
    rw [← neg_add', zpow_neg, inv_le_iff_one_le_mul₀ (zpow_pos (by norm_num) _)]
    exact_mod_cast hone
  have hlog := (Int.zpow_le_iff_le_log (b := 10) (by decide) hx).mp (by exact_mod_cast hle)
  omega

theorem shortest_spec (hd : IsDouble x) (hx : 0 < x) :
    Shows x (shortest x) ∧ -(Nat.log 2 x.den : ℤ) ≤ (shortest x).2 := by
  have htop := neg_log_den_le hx
  have hsteps : Int.log 10 x + 1 - ((Int.log 10 x + 1 + Nat.log 2 x.den).toNat : ℤ)
      = -(Nat.log 2 x.den : ℤ) := by
    omega
  have hspec := searchDigits_spec (Int.log 10 x + 1 + Nat.log 2 x.den).toNat (Int.log 10 x + 1)
    (hd.exists_mul_ten hx hsteps.le)
  rw [hsteps] at hspec
  exact hspec

/-- **The digits of a double are read as it.** -/
theorem numberValue_shortest (hd : IsDouble x) (hx : 0 < x) (h : IsMultiple x) :
    numberValue ((shortest x).1 * 10 ^ (shortest x).2) = x := by
  obtain hread | hall := (shortest_spec hd hx).1
  · exact hread
  · rw [hall]
    exact numberValue_eq hd hx h

theorem decimal_nonneg (x : ℚ) : 0 ≤ decimal x := by
  unfold decimal
  split
  · exact le_rfl
  · exact mul_nonneg (Nat.cast_nonneg _) (zpow_nonneg (by norm_num) _)

/-- What the digits of a double stand for is near to it. -/
theorem abs_sub_decimal_le (hd : IsDouble x) (hx : 0 ≤ x) :
    |x - decimal x| ≤ decimal x / 2 ^ 53 + least / 2 := by
  have hnonneg := decimal_nonneg x
  have hleast := least_pos
  have hbound : 0 ≤ decimal x / 2 ^ 53 + least / 2 := by positivity
  obtain rfl | hpos := hx.eq_or_lt
  · rwa [show decimal 0 = 0 from if_pos rfl, sub_zero, abs_zero]
  · have heq : decimal x = (shortest x).1 * 10 ^ (shortest x).2 := if_neg hpos.ne'
    obtain hread | hall := (shortest_spec hd hpos).1
    · have herror := abs_numberValue_sub_le hnonneg
      rwa [heq, hread, ← heq] at herror
    · rwa [heq, hall, sub_self, abs_zero, ← hall, ← heq]

theorem decimal_pos (hd : IsDouble x) (hx : 0 < x) : 0 < decimal x := by
  refine lt_of_le_of_ne (decimal_nonneg x) fun hzero => ?_
  have heq : decimal x = (shortest x).1 * 10 ^ (shortest x).2 := if_neg hx.ne'
  obtain hread | hall := (shortest_spec hd hx).1
  · rw [← heq, ← hzero, numberValue_zero] at hread
    exact hx.ne hread
  · rw [← heq, ← hzero] at hall
    exact hx.ne hall

theorem numberValue_decimal (hd : IsDouble x) (hx : 0 ≤ x) (h : IsMultiple x) :
    numberValue (decimal x) = x := by
  unfold decimal
  split
  · next hzero => rw [numberValue_zero, hzero]
  · next hne => exact numberValue_shortest hd (lt_of_le_of_ne hx (Ne.symm hne)) h

/-- A number with a digit below the least double is printed with all its digits. -/
theorem decimal_eq_self (hd : IsDouble x) (hx : 0 ≤ x) (h : ¬IsMultiple x) : decimal x = x := by
  obtain rfl | hpos := hx.eq_or_lt
  · exact if_pos rfl
  have heq : decimal x = (shortest x).1 * 10 ^ (shortest x).2 := if_neg hpos.ne'
  obtain hread | hall := (shortest_spec hd hpos).1
  · rw [← heq] at hread
    exact absurd (hread ▸ isMultiple_numberValue (decimal_nonneg x)) h
  · exact heq.trans hall

theorem log_den_le {p : ℕ} (h : x.den ∣ 2 ^ p) : Nat.log 2 x.den ≤ p :=
  (Nat.log_mono_right (Nat.le_of_dvd (Nat.two_pow_pos p) h)).trans
    (Nat.log_pow Nat.one_lt_two p).le

/-- The digits of a double end where the digits of the least double do. -/
theorem IsMultiple.exists_decimal (h : IsMultiple x) (hd : IsDouble x) (hx : 0 ≤ x) :
    ∃ n : ℕ, decimal x * 10 ^ 1074 = n := by
  obtain rfl | hpos := hx.eq_or_lt
  · exact ⟨0, by rw [show decimal 0 = 0 from if_pos rfl, zero_mul, Nat.cast_zero]⟩
  have hden : x.den ∣ 2 ^ 1074 := by
    obtain ⟨n, rfl⟩ := h
    have hdvd := Rat.den_dvd (n : ℤ) ((2 ^ 1074 : ℕ) : ℤ)
    rw [Rat.divInt_eq_div, Int.cast_natCast, Int.cast_natCast, div_eq_mul_inv] at hdvd
    exact Int.natCast_dvd_natCast.mp hdvd
  have hlog := log_den_le hden
  have hexponent := (shortest_spec hd hpos).2
  refine ⟨(shortest x).1 * 10 ^ ((shortest x).2 + 1074).toNat, ?_⟩
  rw [show decimal x = (shortest x).1 * 10 ^ (shortest x).2 from if_neg hpos.ne', Nat.cast_mul,
    Nat.cast_pow, Nat.cast_ofNat, mul_assoc, ← zpow_natCast, ← zpow_natCast,
    ← zpow_add₀ (by norm_num), Int.toNat_of_nonneg (by omega)]
  rfl

/-- Zeros of a number of binary digits: those below `2 ^ (-p)`, where all of its decimal
digits are above `10 ^ (-p)`. -/
theorem dvd_of_mul_ten_pow {m n p i : ℕ} (h : (m : ℚ) * 2 ^ (-(p : ℤ) - i) * 10 ^ p = n) :
    2 ^ i ∣ m := by
  have hten : (10 : ℚ) ^ p = 2 ^ p * 5 ^ p := by
    rw [← mul_pow]
    norm_num
  have hone : (2 : ℚ) ^ (-(p : ℤ) - i) * 2 ^ p * 2 ^ i = 1 := by
    rw [← zpow_natCast, ← zpow_natCast, ← zpow_add₀ two_ne_zero, ← zpow_add₀ two_ne_zero,
      show -(p : ℤ) - i + p + i = 0 by ring, zpow_zero]
  have hcast : (m : ℚ) * 5 ^ p = n * 2 ^ i := calc
    (m : ℚ) * 5 ^ p = m * 5 ^ p * (2 ^ (-(p : ℤ) - i) * 2 ^ p * 2 ^ i) := by
      rw [hone, mul_one]
    _ = n * 2 ^ i := by
      rw [← h, hten]
      ring
  have hnat : m * 5 ^ p = n * 2 ^ i := by exact_mod_cast hcast
  have hcoprime : Nat.Coprime (2 ^ i) (5 ^ p) := Nat.Coprime.pow i p (by decide)
  exact hcoprime.dvd_of_dvd_mul_right ⟨n, by rw [hnat, mul_comm]⟩

/-- Digits that end there are those of a double. -/
theorem isMultiple_of_decimal (hd : IsDouble x) (hx : 0 ≤ x) {n : ℕ}
    (h : decimal x * 10 ^ 1074 = n) : IsMultiple x := by
  by_contra hmultiple
  rw [decimal_eq_self hd hx hmultiple] at h
  obtain ⟨m, k, -, rfl⟩ := hd
  obtain hk | hk := le_or_gt (-1074) k
  · refine hmultiple ⟨m * 2 ^ (k + 1074).toNat, ?_⟩
    rw [least_eq, Nat.cast_mul, Nat.cast_pow, Nat.cast_ofNat, mul_assoc, ← zpow_natCast,
      ← zpow_add₀ two_ne_zero, Int.toNat_of_nonneg (by omega), add_neg_cancel_right]
  · obtain ⟨i, rfl⟩ : ∃ i : ℕ, k = -1074 - i := ⟨(-1074 - k).toNat, by omega⟩
    obtain ⟨m', rfl⟩ := dvd_of_mul_ten_pow h
    refine hmultiple ⟨m', ?_⟩
    have hone : (2 : ℚ) ^ i * 2 ^ (-1074 - i : ℤ) = 2 ^ (-1074 : ℤ) := by
      rw [← zpow_natCast, ← zpow_add₀ two_ne_zero, add_sub_cancel]
    rw [least_eq, ← hone, Nat.cast_mul, Nat.cast_pow, Nat.cast_ofNat]
    ring

end Digits

/-! ## Reading the layout -/

section Layout

variable {digits fraction tail : List Char} {n : ℤ}

theorem takeWhile_digits {mark : Char} (hmark : mark.isDigit = false)
    (hdigits : ∀ c ∈ digits, c.isDigit = true) (rest : List Char) :
    (digits ++ mark :: rest).takeWhile (· != mark) = digits
      ∧ (digits ++ mark :: rest).dropWhile (· != mark) = mark :: rest := by
  have hne : ∀ c ∈ digits, (c != mark) = true := by
    intro c hc
    rw [bne_iff_ne]
    rintro rfl
    rw [hdigits c hc] at hmark
    contradiction
  rw [List.takeWhile_append_of_pos hne, List.dropWhile_append_of_pos hne,
    List.takeWhile_cons_of_neg (by simp), List.dropWhile_cons_of_neg (by simp), List.append_nil]
  exact ⟨rfl, rfl⟩

/-- What follows the mantissa. -/
def IsExponent (tail : List Char) : Prop := tail = [] ∨ ∃ rest, tail = 'e' :: rest

theorem span_exponent {mantissa : List Char} (hmantissa : ∀ c ∈ mantissa, c ≠ 'e')
    (htail : IsExponent tail) :
    (mantissa ++ tail).takeWhile (· != 'e') = mantissa
      ∧ (mantissa ++ tail).dropWhile (· != 'e') = tail := by
  have hne : ∀ c ∈ mantissa, (c != 'e') = true := fun c hc => bne_iff_ne.mpr (hmantissa c hc)
  rw [List.takeWhile_append_of_pos hne, List.dropWhile_append_of_pos hne]
  obtain rfl | ⟨rest, rfl⟩ := htail
  · exact ⟨List.append_nil _, rfl⟩
  · exact ⟨List.append_nil _, rfl⟩

theorem ne_of_isDigit {mark c : Char} (hmark : mark.isDigit = false) (hc : c.isDigit = true) :
    c ≠ mark := by
  rintro rfl
  rw [hc] at hmark
  contradiction

theorem readDecimal_whole (hdigits : ∀ c ∈ digits, c.isDigit = true) (htail : IsExponent tail) :
    readDecimal (digits ++ tail)
      = Nat.ofDigitChars 10 digits 0 * 10 ^ readExponent tail := by
  obtain ⟨htake, hdrop⟩ :=
    span_exponent (fun c hc => ne_of_isDigit (by decide) (hdigits c hc)) htail
  have hpoint : ∀ c ∈ digits, (c != '.') = true := fun c hc =>
    bne_iff_ne.mpr (ne_of_isDigit (by decide) (hdigits c hc))
  have hall : digits.takeWhile (· != '.') = digits ∧ digits.dropWhile (· != '.') = [] := by
    have htakes := @List.takeWhile_append_of_pos _ _ digits [] hpoint
    have hdrops := @List.dropWhile_append_of_pos _ _ digits [] hpoint
    rw [List.append_nil] at htakes hdrops
    exact ⟨htakes.trans (List.append_nil _), hdrops⟩
  unfold readDecimal
  dsimp only
  rw [htake, hdrop, hall.1, hall.2,
    List.drop_nil, List.append_nil, List.length_nil, Nat.cast_zero, sub_zero]

theorem readDecimal_point (hdigits : ∀ c ∈ digits, c.isDigit = true)
    (hfraction : ∀ c ∈ fraction, c.isDigit = true) (htail : IsExponent tail) :
    readDecimal (digits ++ '.' :: (fraction ++ tail))
      = Nat.ofDigitChars 10 (digits ++ fraction) 0
        * 10 ^ (readExponent tail - fraction.length) := by
  have hmantissa : ∀ c ∈ digits ++ '.' :: fraction, c ≠ 'e' := by
    intro c hc
    obtain hc | hc := List.mem_append.mp hc
    · exact ne_of_isDigit (by decide) (hdigits c hc)
    obtain rfl | hc := List.mem_cons.mp hc
    · decide
    · exact ne_of_isDigit (by decide) (hfraction c hc)
  obtain ⟨htake, hdrop⟩ := span_exponent hmantissa htail
  obtain ⟨hwhole, hrest⟩ := @takeWhile_digits digits '.' (by decide) hdigits fraction
  unfold readDecimal
  dsimp only
  rw [← List.cons_append, ← List.append_assoc, htake, hdrop, hwhole, hrest, List.drop_succ_cons,
    List.drop_zero]

/-- The exponent that is written is read. -/
theorem readExponent_toDigits (n : ℤ) :
    readExponent ('e' :: (if 0 < n then '+' else '-') :: Nat.toDigits 10 (n - 1).natAbs)
      = n - 1 := by
  by_cases hpos : 0 < n
  · rw [if_pos hpos]
    show ((Nat.ofDigitChars 10 (Nat.toDigits 10 (n - 1).natAbs) 0 : ℕ) : ℤ) = n - 1
    rw [Nat.ofDigitChars_ten_toDigits, Int.natAbs_of_nonneg (by omega)]
  · rw [if_neg hpos]
    show -((Nat.ofDigitChars 10 (Nat.toDigits 10 (n - 1).natAbs) 0 : ℕ) : ℤ) = n - 1
    rw [Nat.ofDigitChars_ten_toDigits]
    omega

theorem isDigit_of_mem_replicate {c : Char} {n : ℕ} (h : c ∈ List.replicate n '0') :
    c.isDigit = true := by
  rw [(List.mem_replicate.mp h).2]
  decide

/-- **However digits are laid out, the text reads as them**, with the point where it was
asked for. -/
theorem readDecimal_layout (hdigits : ∀ c ∈ digits, c.isDigit = true) (hne : digits ≠ []) :
    readDecimal (layout digits n)
      = Nat.ofDigitChars 10 digits 0 * 10 ^ (n - digits.length) := by
  unfold layout
  by_cases hwhole : digits.length ≤ n ∧ n ≤ 21
  · -- zeros after the digits
    obtain ⟨k, hk⟩ := Int.exists_add_of_le hwhole.1
    have hread := @readDecimal_whole (digits ++ List.replicate (n - digits.length).toNat '0') []
      (fun c hc => (List.mem_append.mp hc).elim (hdigits c) isDigit_of_mem_replicate)
      (Or.inl rfl)
    rw [List.append_nil] at hread
    rw [if_pos hwhole, hread, Nat.ofDigitChars_append, Nat.ofDigitChars_replicate_zero, hk,
      add_sub_cancel_left, Int.toNat_natCast, zpow_natCast]
    show ((10 ^ k * Nat.ofDigitChars 10 digits 0 : ℕ) : ℚ) * 10 ^ (0 : ℤ) = _
    rw [zpow_zero, mul_one, mul_comm]
    push_cast
    rfl
  rw [if_neg hwhole]
  by_cases hpoint : 0 < n ∧ n ≤ 21
  · -- a point among them
    have hread := @readDecimal_point (digits.take n.toNat) (digits.drop n.toNat) []
      (fun c hc => hdigits c (List.mem_of_mem_take hc))
      (fun c hc => hdigits c (List.mem_of_mem_drop hc)) (Or.inl rfl)
    rw [List.append_nil] at hread
    have hlt : n < digits.length := lt_of_not_ge fun hge => hwhole ⟨hge, hpoint.2⟩
    rw [if_pos hpoint, hread, List.take_append_drop, List.length_drop]
    congr 2
    show (0 : ℤ) - _ = _
    omega
  rw [if_neg hpoint]
  by_cases hsmall : -6 < n ∧ n ≤ 0
  · -- zeros before them
    have hread := @readDecimal_point ['0'] (List.replicate (-n).toNat '0' ++ digits) []
      (List.forall_mem_singleton.mpr (by decide))
      (fun c hc => (List.mem_append.mp hc).elim isDigit_of_mem_replicate (hdigits c))
      (Or.inl rfl)
    rw [List.append_nil] at hread
    rw [if_pos hsmall, show ('0' :: '.' :: (List.replicate (-n).toNat '0' ++ digits))
      = ['0'] ++ '.' :: (List.replicate (-n).toNat '0' ++ digits) from rfl, hread,
      Nat.ofDigitChars_append, Nat.ofDigitChars_append, Nat.ofDigitChars_replicate_zero,
      show Nat.ofDigitChars 10 ['0'] 0 = 0 by decide, mul_zero, List.length_append,
      List.length_replicate]
    congr 2
    show (0 : ℤ) - _ = _
    push_cast
    omega
  rw [if_neg hsmall]
  dsimp only
  by_cases hone : digits.length = 1
  · -- an exponent
    rw [if_pos hone, readDecimal_whole hdigits (Or.inr ⟨_, rfl⟩), readExponent_toDigits, hone]
    norm_num
  · have hread := @readDecimal_point (digits.take 1) (digits.drop 1)
      ('e' :: (if 0 < n then '+' else '-') :: Nat.toDigits 10 (n - 1).natAbs)
      (fun c hc => hdigits c (List.mem_of_mem_take hc))
      (fun c hc => hdigits c (List.mem_of_mem_drop hc)) (Or.inr ⟨_, rfl⟩)
    have hlength : 1 ≤ digits.length := List.length_pos_iff.mpr hne
    rw [if_neg hone, hread, readExponent_toDigits, List.take_append_drop, List.length_drop,
      Nat.cast_sub hlength]
    congr 2
    push_cast
    ring

/-- What a number is written with. -/
def isNumberChar (c : Char) : Bool :=
  c.isDigit || c == '.' || c == 'e' || c == '+' || c == '-'

theorem isNumberChar_of_isDigit {c : Char} (h : c.isDigit = true) : isNumberChar c = true := by
  unfold isNumberChar
  rw [h]
  rfl

/-- A layout begins with a digit. -/
theorem exists_layout_eq_cons (hdigits : ∀ c ∈ digits, c.isDigit = true) (hne : digits ≠ []) :
    ∃ c cs, layout digits n = c :: cs ∧ c.isDigit = true := by
  obtain ⟨first, rest, rfl⟩ := List.exists_cons_of_ne_nil hne
  have hfirst := hdigits first List.mem_cons_self
  unfold layout
  by_cases hwhole : (first :: rest).length ≤ n ∧ n ≤ 21
  · rw [if_pos hwhole]
    exact ⟨first, _, rfl, hfirst⟩
  rw [if_neg hwhole]
  by_cases hpoint : 0 < n ∧ n ≤ 21
  · rw [if_pos hpoint]
    obtain ⟨k, hk⟩ := Nat.exists_eq_succ_of_ne_zero (show n.toNat ≠ 0 by omega)
    rw [hk]
    exact ⟨first, _, rfl, hfirst⟩
  rw [if_neg hpoint]
  by_cases hsmall : -6 < n ∧ n ≤ 0
  · rw [if_pos hsmall]
    exact ⟨'0', _, rfl, by decide⟩
  rw [if_neg hsmall]
  dsimp only
  by_cases hone : (first :: rest).length = 1
  · rw [if_pos hone]
    exact ⟨first, _, rfl, hfirst⟩
  · rw [if_neg hone]
    exact ⟨first, _, rfl, hfirst⟩

theorem isNumberChar_of_mem_layout (hdigits : ∀ c ∈ digits, c.isDigit = true) {c : Char}
    (hc : c ∈ layout digits n) : isNumberChar c = true := by
  have hexponent : ∀ c ∈ 'e' :: (if 0 < n then '+' else '-') ::
      Nat.toDigits 10 (n - 1).natAbs, isNumberChar c = true := by
    intro c hc
    obtain rfl | hc := List.mem_cons.mp hc
    · decide
    obtain rfl | hc := List.mem_cons.mp hc
    · split_ifs
      · decide
      · decide
    · exact isNumberChar_of_isDigit (Nat.isDigit_of_mem_toDigits (by decide) (by decide) hc)
  have hall : ∀ c ∈ digits, isNumberChar c = true := fun c hc =>
    isNumberChar_of_isDigit (hdigits c hc)
  unfold layout at hc
  by_cases hwhole : digits.length ≤ n ∧ n ≤ 21
  · rw [if_pos hwhole] at hc
    exact (List.mem_append.mp hc).elim (hall c)
      fun hc => isNumberChar_of_isDigit (isDigit_of_mem_replicate hc)
  rw [if_neg hwhole] at hc
  by_cases hpoint : 0 < n ∧ n ≤ 21
  · rw [if_pos hpoint] at hc
    obtain hc | hc := List.mem_append.mp hc
    · exact hall c (List.mem_of_mem_take hc)
    obtain rfl | hc := List.mem_cons.mp hc
    · decide
    · exact hall c (List.mem_of_mem_drop hc)
  rw [if_neg hpoint] at hc
  by_cases hsmall : -6 < n ∧ n ≤ 0
  · rw [if_pos hsmall] at hc
    obtain rfl | hc := List.mem_cons.mp hc
    · decide
    obtain rfl | hc := List.mem_cons.mp hc
    · decide
    exact (List.mem_append.mp hc).elim
      (fun hc => isNumberChar_of_isDigit (isDigit_of_mem_replicate hc)) (hall c)
  rw [if_neg hsmall] at hc
  dsimp only at hc
  by_cases hone : digits.length = 1
  · rw [if_pos hone] at hc
    exact (List.mem_append.mp hc).elim (hall c) (hexponent c)
  · rw [if_neg hone] at hc
    obtain hc | hc := List.mem_append.mp hc
    · exact hall c (List.mem_of_mem_take hc)
    obtain rfl | hc := List.mem_cons.mp hc
    · decide
    exact (List.mem_append.mp hc).elim (fun hc => hall c (List.mem_of_mem_drop hc))
      (hexponent c)

end Layout

/-! ## A double and its text -/

section Text

variable {x y : ℚ}

theorem isDigit_of_mem_digits (n : ℕ) : ∀ c ∈ Nat.toDigits 10 n, c.isDigit = true :=
  fun _ hc => Nat.isDigit_of_mem_toDigits (by decide) (by decide) hc

theorem readDecimal_positiveText (hx : 0 < x) : readDecimal (positiveText x) = decimal x := by
  unfold positiveText decimal
  dsimp only
  rw [readDecimal_layout (isDigit_of_mem_digits _) Nat.toDigits_ne_nil,
    Nat.ofDigitChars_ten_toDigits, add_sub_cancel_left, if_neg hx.ne']

theorem toText_cases (x : ℚ) :
    (x = 0 ∧ (toText x).toList = ['0'])
      ∨ (x < 0 ∧ (toText x).toList = '-' :: positiveText (-x))
      ∨ (0 < x ∧ (toText x).toList = positiveText x) := by
  unfold toText
  obtain hneg | rfl | hpos := lt_trichotomy x 0
  · rw [if_neg hneg.ne, if_pos hneg, String.toList_ofList]
    exact Or.inr (Or.inl ⟨hneg, rfl⟩)
  · rw [if_pos rfl]
    exact Or.inl ⟨rfl, by decide⟩
  · rw [if_neg hpos.ne', if_neg hpos.not_gt, String.toList_ofList]
    exact Or.inr (Or.inr ⟨hpos, rfl⟩)

/-- **The text of a number stands for its digits.** -/
theorem readSigned_toText (x : ℚ) :
    readSigned (toText x).toList = if x < 0 then -decimal (-x) else decimal x := by
  obtain ⟨rfl, htext⟩ | ⟨hneg, htext⟩ | ⟨hpos, htext⟩ := toText_cases x
  · rw [htext]
    have hread := @readDecimal_whole ['0'] [] (List.forall_mem_singleton.mpr (by decide))
      (Or.inl rfl)
    rw [List.append_nil, show Nat.ofDigitChars 10 ['0'] 0 = 0 by decide, Nat.cast_zero,
      zero_mul] at hread
    show readDecimal ['0'] = _
    rw [hread, if_neg (lt_irrefl 0), show decimal 0 = 0 from if_pos rfl]
  · rw [htext, if_pos hneg]
    show -readDecimal (positiveText (-x)) = _
    rw [readDecimal_positiveText (neg_pos.mpr hneg)]
  · rw [htext, if_neg hpos.not_gt]
    obtain ⟨c, cs, hcons, hc⟩ := @exists_layout_eq_cons (Nat.toDigits 10 (shortest x).1)
      ((Nat.toDigits 10 (shortest x).1).length + (shortest x).2) (isDigit_of_mem_digits _)
      Nat.toDigits_ne_nil
    have hcons : positiveText x = c :: cs := hcons
    rw [← readDecimal_positiveText hpos, hcons]
    unfold readSigned
    split
    · rename_i heq
      rw [(List.cons.inj heq).1] at hc
      contradiction
    · rfl

theorem abs_readSigned_toText (x : ℚ) : |readSigned (toText x).toList| = decimal |x| := by
  rw [readSigned_toText]
  obtain hneg | hnonneg := lt_or_ge x 0
  · rw [if_pos hneg, abs_neg, abs_of_nonneg (decimal_nonneg _), abs_of_neg hneg]
  · rw [if_neg hnonneg.not_gt, abs_of_nonneg (decimal_nonneg _), abs_of_nonneg hnonneg]

/-- **A double is read back from its text.** -/
theorem readNumber_toText (h : IsDouble |x|) (hmultiple : IsMultiple |x|) :
    readNumber (toText x).toList = x := by
  unfold readNumber
  rw [readSigned_toText]
  obtain hneg | hnonneg := lt_or_ge x 0
  · rw [abs_of_neg hneg] at h hmultiple
    have hpos := decimal_pos h (neg_pos.mpr hneg)
    rw [if_pos hneg, if_pos (neg_neg_of_pos hpos), neg_neg,
      numberValue_decimal h (neg_pos.mpr hneg).le hmultiple, neg_neg]
  · rw [abs_of_nonneg hnonneg] at h hmultiple
    rw [if_neg hnonneg.not_gt, if_neg (decimal_nonneg x).not_gt,
      numberValue_decimal h hnonneg hmultiple]

/-- The text of a number that has digits below the least double stands for it. -/
theorem readSigned_toText_of_not_isMultiple (h : IsDouble |x|) (hmultiple : ¬IsMultiple |x|) :
    readSigned (toText x).toList = x := by
  rw [readSigned_toText]
  obtain hneg | hnonneg := lt_or_ge x 0
  · rw [abs_of_neg hneg] at h hmultiple
    rw [if_pos hneg, decimal_eq_self h (neg_pos.mpr hneg).le hmultiple, neg_neg]
  · rw [abs_of_nonneg hnonneg] at h hmultiple
    rw [if_neg hnonneg.not_gt, decimal_eq_self h hnonneg hmultiple]

/-- A text is not one of a double and of a number that is none. -/
theorem IsMultiple.of_toText (h : IsMultiple |x|) (hx : IsDouble |x|) (hy : IsDouble |y|)
    (htext : toText x = toText y) : IsMultiple |y| := by
  obtain ⟨n, hn⟩ := h.exists_decimal hx (abs_nonneg x)
  have hsame : decimal |x| = decimal |y| := by
    rw [← abs_readSigned_toText, ← abs_readSigned_toText, htext]
  exact isMultiple_of_decimal hy (abs_nonneg y) (hsame ▸ hn)

/-- **No two doubles have one text.** -/
theorem toText_inj (hx : IsDouble |x|) (hy : IsDouble |y|) (h : toText x = toText y) :
    x = y := by
  by_cases hmultiple : IsMultiple |x|
  · rw [← readNumber_toText hx hmultiple, h,
      readNumber_toText hy (hmultiple.of_toText hx hy h)]
  · have hother : ¬IsMultiple |y| := fun hy' => hmultiple (hy'.of_toText hy hx h.symm)
    rw [← readSigned_toText_of_not_isMultiple hx hmultiple, h,
      readSigned_toText_of_not_isMultiple hy hother]

/-- The text of a number is written with what numbers are written with. -/
theorem toText_chars (x : ℚ) :
    (toText x).toList ≠ [] ∧ ∀ c ∈ (toText x).toList, isNumberChar c = true := by
  have hpositive : ∀ x, positiveText x ≠ [] ∧ ∀ c ∈ positiveText x, isNumberChar c = true := by
    intro x
    refine ⟨?_, fun c hc => isNumberChar_of_mem_layout (isDigit_of_mem_digits _) hc⟩
    obtain ⟨c, cs, hcons, -⟩ := @exists_layout_eq_cons (Nat.toDigits 10 (shortest x).1)
      ((Nat.toDigits 10 (shortest x).1).length + (shortest x).2) (isDigit_of_mem_digits _)
      Nat.toDigits_ne_nil
    exact List.ne_nil_of_length_pos (by rw [show positiveText x = c :: cs from hcons]; simp)
  obtain ⟨-, htext⟩ | ⟨-, htext⟩ | ⟨-, htext⟩ := toText_cases x
  · rw [htext]
    exact ⟨List.cons_ne_nil _ _, List.forall_mem_singleton.mpr (by decide)⟩
  · rw [htext]
    refine ⟨List.cons_ne_nil _ _, fun c hc => ?_⟩
    obtain rfl | hc := List.mem_cons.mp hc
    · decide
    · exact (hpositive _).2 c hc
  · rw [htext]
    exact hpositive x

end Text

end Double
