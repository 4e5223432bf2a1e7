import Mathlib.Order.Compare
import Mathlib.Data.Nat.Digits.Lemmas
import Opifex.Lib.Text

/-!
# The order of texts that print numbers

Texts are compared code unit by code unit. A comparison of two texts that
begin with parts of one length compares these first and then the rest
(`compareUnits_append`), and **numbers printed in one width with leading zeros
compare as numbers** (`compareUnits_pad`). A number that is split into a
higher and a lower part is compared part by part (`compare_eq_then`), so a
text that prints the parts in turn is in the order of the number.
-/

namespace Text

/-- A comparison decided by one pair of values, or by another if the first is
level. -/
theorem compare_eq_then {ι α β : Type*} [LinearOrder ι] [LinearOrder α]
    [LinearOrder β] {x y : ι} {a c : α} {b d : β}
    (hlt : a < c ∨ a = c ∧ b < d → x < y)
    (hgt : c < a ∨ a = c ∧ d < b → y < x)
    (heq : a = c ∧ b = d → x = y) :
    compare x y = (compare a c).then (compare b d) := by
  obtain hac | hac | hac := lt_trichotomy a c
  · rw [compare_lt_iff_lt.mpr hac, compare_lt_iff_lt.mpr (hlt (Or.inl hac))]
    rfl
  · rw [compare_eq_iff_eq.mpr hac]
    obtain hbd | hbd | hbd := lt_trichotomy b d
    · rw [compare_lt_iff_lt.mpr hbd,
        compare_lt_iff_lt.mpr (hlt (Or.inr ⟨hac, hbd⟩))]
      rfl
    · rw [compare_eq_iff_eq.mpr hbd, compare_eq_iff_eq.mpr (heq ⟨hac, hbd⟩)]
      rfl
    · rw [compare_gt_iff_gt.mpr hbd,
        compare_gt_iff_gt.mpr (hgt (Or.inr ⟨hac, hbd⟩))]
      rfl
  · rw [compare_gt_iff_gt.mpr hac, compare_gt_iff_gt.mpr (hgt (Or.inl hac))]
    rfl

/-! ## Texts in parts -/

/-- The code units of a text. -/
def units (s : String) : List ℕ := s.toList.flatMap unitsOf

section Parts

variable {s s' t t' : String} {xs ys us vs : List ℕ}

theorem compareUnits_eq : compareUnits s t = compare (units s) (units t) := rfl

theorem compareUnits_self : compareUnits s s = .eq := by
  rw [compareUnits_eq]
  exact Std.ReflCmp.compare_self

theorem compareUnits_swap :
    compareUnits s t = (compareUnits t s).swap := by
  rw [compareUnits_eq, compareUnits_eq]
  exact Std.OrientedCmp.eq_swap

/-- A character and what follows it are known from their code units, since no character is
half of a surrogate pair. -/
theorem unitsOf_append_inj {c d : Char} (h : unitsOf c ++ xs = unitsOf d ++ ys) :
    c = d ∧ xs = ys := by
  have hvalid : ∀ c : Char, c.toNat < 0xD800 ∨ 0xDFFF < c.toNat ∧ c.toNat < 0x110000 :=
    fun c => c.valid
  have hc := hvalid c
  have hd := hvalid d
  have heq : c.toNat = d.toNat → c = d := fun h => Char.toNat_inj.mp h
  unfold unitsOf at h
  split_ifs at h with hlow hlow' hlow'
  · obtain ⟨hcd, hrest⟩ := List.cons.inj h
    exact ⟨heq hcd, hrest⟩
  · obtain ⟨hcd, -⟩ := List.cons.inj h
    omega
  · obtain ⟨hcd, -⟩ := List.cons.inj h
    omega
  · obtain ⟨hhigh, h⟩ := List.cons.inj h
    obtain ⟨hlow, hrest⟩ := List.cons.inj h
    exact ⟨heq (by omega), hrest⟩

theorem units_inj (h : units s = units t) : s = t := by
  have hchars : ∀ cs ds : List Char, cs.flatMap unitsOf = ds.flatMap unitsOf → cs = ds := by
    have hne : ∀ (c : Char) (xs : List ℕ), unitsOf c ++ xs ≠ [] := by
      intro c xs
      unfold unitsOf
      split_ifs
      · exact List.cons_ne_nil _ _
      · exact List.cons_ne_nil _ _
    intro cs
    induction cs with
    | nil =>
      intro ds h
      cases ds with
      | nil => rfl
      | cons d ds => exact absurd h.symm (hne d _)
    | cons c cs ih =>
      intro ds h
      cases ds with
      | nil => exact absurd h (hne c _)
      | cons d ds =>
        obtain ⟨rfl, hrest⟩ := unitsOf_append_inj h
        rw [ih ds hrest]
  exact String.toList_inj.mp (hchars _ _ h)

theorem eq_of_compareUnits (h : compareUnits s t = .eq) : s = t :=
  units_inj (Std.LawfulEqCmp.eq_of_compare (compareUnits_eq.symm.trans h))

theorem units_append : units (s ++ t) = units s ++ units t := by
  rw [units, String.toList_append, List.flatMap_append]
  rfl

/-- Lists that begin with parts of one length are compared part by part. -/
theorem compare_append (h : xs.length = ys.length) :
    compare (xs ++ us) (ys ++ vs)
      = (compare xs ys).then (compare us vs) := by
  induction xs generalizing ys with
  | nil =>
    rw [List.length_eq_zero_iff.mp h.symm]
    rfl
  | cons x xs ih =>
    obtain ⟨y, ys, rfl⟩ := List.exists_cons_of_length_eq_add_one h.symm
    rw [List.cons_append, List.cons_append, List.compare_cons_cons,
      List.compare_cons_cons, ih (Nat.succ_injective h), Ordering.then_assoc]

theorem compareUnits_append (h : (units s).length = (units s').length) :
    compareUnits (s ++ t) (s' ++ t')
      = (compareUnits s s').then (compareUnits t t') := by
  rw [compareUnits_eq, units_append, units_append]
  exact compare_append h

/-- A common beginning does not matter. -/
theorem compareUnits_append_left :
    compareUnits (s ++ t) (s ++ t') = compareUnits t t' := by
  rw [compareUnits_append rfl, compareUnits_self]
  rfl

end Parts

/-! ## Numbers in a fixed width -/

/-- The digits of a number in a width, as code units. -/
def decimal : ℕ → ℕ → List ℕ
  | 0, _ => []
  | width + 1, n => decimal width (n / 10) ++ [48 + n % 10]

/-- A number in a fixed width, with leading zeros. -/
def padded (width n : ℕ) : String :=
  let digits := (toString n).toList
  String.ofList (List.replicate (width - digits.length) '0' ++ digits)

section Numbers

variable {width m n : ℕ}

theorem length_decimal : (decimal width n).length = width := by
  induction width generalizing n with
  | zero => rfl
  | succ width ih => rw [decimal, List.length_append, ih]; rfl

theorem decimal_zero : decimal width 0 = List.replicate width 48 := by
  induction width with
  | zero => rfl
  | succ width ih =>
    rw [decimal, Nat.zero_div, ih, List.replicate_succ']

theorem compare_decimal (hm : m < 10 ^ width) (hn : n < 10 ^ width) :
    compare (decimal width m) (decimal width n) = compare m n := by
  induction width generalizing m n with
  | zero =>
    rw [Nat.pow_zero, Nat.lt_one_iff] at hm hn
    rw [hm, hn]
    rfl
  | succ width ih =>
    rw [pow_succ] at hm hn
    -- the last digit counts when the others are level
    have hlast : compare m n
        = (compare (m / 10) (n / 10)).then
            (compare (48 + m % 10) (48 + n % 10)) := by
      refine compare_eq_then ?_ ?_ ?_ <;> intro h <;> omega
    rw [decimal, decimal, compare_append (by rw [length_decimal, length_decimal]),
      ih (Nat.div_lt_of_lt_mul (by omega)) (Nat.div_lt_of_lt_mul (by omega)),
      hlast, List.compare_cons_cons]
    simp

theorem unitsOf_digitChar (h : n < 10) : unitsOf (Nat.digitChar n) = [48 + n] := by
  revert h n
  decide

/-- What leading zeros make of the digits of a number that fits. -/
theorem units_padded (h : n < 10 ^ (width + 1)) :
    units (padded (width + 1) n) = decimal (width + 1) n := by
  have hdigits : ∀ n, (toString n : String).toList = Nat.toDigits 10 n :=
    fun n => by simp [toString, Nat.repr]
  rw [units, padded, String.toList_ofList, hdigits]
  induction width generalizing n with
  | zero =>
    have hn : n < 10 := by omega
    rw [Nat.toDigits_of_lt_base hn]
    simp [decimal, unitsOf_digitChar hn, Nat.mod_eq_of_lt hn]
  | succ width ih =>
    by_cases hn : n < 10
    · rw [Nat.toDigits_of_lt_base hn, decimal, Nat.div_eq_of_lt hn,
        Nat.mod_eq_of_lt hn, decimal_zero, List.flatMap_append,
        List.flatMap_singleton, unitsOf_digitChar hn, List.flatMap_replicate]
      simp [unitsOf]
    · have hdiv : n / 10 < 10 ^ (width + 1) := by
        rw [pow_succ] at h
        omega
      rw [Nat.toDigits_of_base_le (by decide) (by omega), decimal, ← ih hdiv,
        List.length_append, List.length_singleton, Nat.add_sub_add_right,
        ← List.append_assoc, List.flatMap_append]
      rw [List.flatMap_singleton, unitsOf_digitChar (Nat.mod_lt n (by decide))]

theorem length_units_padded (h : n < 10 ^ (width + 1)) :
    (units (padded (width + 1) n)).length = width + 1 := by
  rw [units_padded h, length_decimal]

/-- **Numbers of one width compare as numbers.** -/
theorem compareUnits_padded (hm : m < 10 ^ (width + 1))
    (hn : n < 10 ^ (width + 1)) :
    compareUnits (padded (width + 1) m) (padded (width + 1) n) = compare m n := by
  rw [compareUnits_eq, units_padded hm, units_padded hn, compare_decimal hm hn]

/-- A character below the digits sorts before every number. -/
theorem compareUnits_sign_padded {sign s t : String} {mark : ℕ}
    (hsign : units sign = [mark]) (hmark : mark < 48)
    (hn : n < 10 ^ (width + 1)) :
    compareUnits (sign ++ s) (padded (width + 1) n ++ t) = .lt := by
  have hdecimal : ∃ digit rest, decimal (width + 1) n = (48 + digit) :: rest := by
    clear hn
    induction width generalizing n with
    | zero => exact ⟨n % 10, [], rfl⟩
    | succ width ih =>
      obtain ⟨digit, rest, h⟩ := @ih (n / 10)
      exact ⟨digit, rest ++ [48 + n % 10], by rw [decimal, h]; rfl⟩
  obtain ⟨digit, rest, hrest⟩ := hdecimal
  rw [compareUnits_eq, units_append, units_append, hsign, units_padded hn,
    hrest, List.singleton_append, List.cons_append, List.compare_cons_cons,
    compare_lt_iff_lt.mpr (by omega)]
  rfl

end Numbers

end Text
