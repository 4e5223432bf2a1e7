import Opifex.Lib.Instant
import Opifex.Lib.TextOrder

/-!
# When instants sort like their texts

`toISOString` prints the calendar date and the time of day from the largest
unit to the smallest, each in a fixed width. Days and dates are in the same
order (`compare_civil`), which is read off a calendar whose years begin with
March: there the leap day is the last one of its year. So the texts of two
instants sort like the instants as long as their years do – and **that is not
so for all of them** (`compareUnits_toISOString`). A year beyond 9999 is
printed with a sign, which sorts before every digit, and years before the year
0 sort backwards.
-/

namespace Instant

open Text (compareUnits compareUnits_append compareUnits_append_left
  compareUnits_padded compare_eq_then padded units units_append
  length_units_padded)

/-! ## The calendar that begins with March -/

/-- A day of the calendar whose years begin with March: the era of 400 years,
the century in it, the four years in that, the year in those and the day. -/
structure MarchDate where
  era : ℤ
  century : ℤ
  quad : ℤ
  year : ℤ
  day : ℤ
  century_bounds : 0 ≤ century ∧ century ≤ 3
  quad_bounds : 0 ≤ quad ∧ quad ≤ 24
  year_bounds : 0 ≤ year ∧ year ≤ 3
  day_nonneg : 0 ≤ day
  /-- Only a year that ends in a leap day has a 366th day. -/
  day_le : day ≤ 364 ∨ day = 365 ∧ year = 3 ∧ (quad = 24 → century = 3)

namespace MarchDate

/-- The days before a year of this calendar. -/
def start (year : ℤ) : ℤ := 365 * year + year / 4 - year / 100 + year / 400

/-- The days since the epoch. -/
def days (date : MarchDate) : ℤ :=
  146097 * date.era + 36524 * date.century + 1461 * date.quad +
    365 * date.year + date.day - 719468

/-- The year of a date, which starts in March. -/
def fullYear (date : MarchDate) : ℤ :=
  400 * date.era + 100 * date.century + 4 * date.quad + date.year

/-- The month, with March as 0. -/
def month (date : MarchDate) : ℤ := (5 * date.day + 2) / 153

/-- The day in its month, from one. -/
def dayOfMonth (date : MarchDate) : ℤ :=
  date.day - (153 * date.month + 2) / 5 + 1

/-- Every day has a date: each part is what the larger ones leave over. -/
theorem exists_days_eq (n : ℤ) : ∃ date : MarchDate, date.days = n := by
  obtain ⟨doe, hdoe, hnonneg, hlt⟩ : ∃ doe, doe = (n + 719468) % 146097 ∧
      0 ≤ doe ∧ doe < 146097 := ⟨_, rfl, by omega, by omega⟩
  obtain ⟨century, hcentury⟩ : ∃ c : ℤ, 0 ≤ c ∧ c ≤ 3 ∧ 36524 * c ≤ doe ∧
      (doe < 36524 * c + 36524 ∨ c = 3 ∧ doe = 146096) :=
    ⟨min 3 (doe / 36524), by omega⟩
  obtain ⟨quad, hquad⟩ : ∃ q : ℤ, 0 ≤ q ∧ q ≤ 24 ∧
      1461 * q ≤ doe - 36524 * century ∧
      doe - 36524 * century < 1461 * q + 1461 :=
    ⟨(doe - 36524 * century) / 1461, by omega⟩
  obtain ⟨year, hyear⟩ : ∃ y : ℤ, 0 ≤ y ∧ y ≤ 3 ∧
      365 * y ≤ doe - 36524 * century - 1461 * quad ∧
      (doe - 36524 * century - 1461 * quad < 365 * y + 365 ∨
        y = 3 ∧ doe - 36524 * century - 1461 * quad = 1460) :=
    ⟨min 3 ((doe - 36524 * century - 1461 * quad) / 365), by omega⟩
  refine ⟨⟨(n + 719468) / 146097, century, quad, year,
    doe - 36524 * century - 1461 * quad - 365 * year,
    by omega, by omega, by omega, by omega, by omega⟩, ?_⟩
  show 146097 * ((n + 719468) / 146097) + 36524 * century + 1461 * quad +
    365 * year + (doe - 36524 * century - 1461 * quad - 365 * year) - 719468 = n
  omega

section Order

variable (date : MarchDate) {date' : MarchDate}

theorem days_eq :
    date.days = start date.fullYear + date.day - 719468 := by
  have hcentury := date.century_bounds
  have hquad := date.quad_bounds
  have hyear := date.year_bounds
  unfold days start fullYear
  omega

theorem start_add_day_lt :
    start date.fullYear + date.day < start (date.fullYear + 1) := by
  have hcentury := date.century_bounds
  have hquad := date.quad_bounds
  have hyear := date.year_bounds
  have hday := date.day_le
  unfold start fullYear
  omega

theorem start_mono {y y' : ℤ} (h : y ≤ y') : start y ≤ start y' := by
  unfold start
  omega

/-- A later year has later days. -/
theorem days_lt_of_fullYear_lt {date : MarchDate}
    (h : date.fullYear < date'.fullYear) : date.days < date'.days := by
  have hend := date.start_add_day_lt
  have hstart := start_mono (show date.fullYear + 1 ≤ date'.fullYear from h)
  have hday := date'.day_nonneg
  rw [days_eq, days_eq]
  omega

/-- Within a year the day decides, between years the year does. -/
theorem compare_days :
    compare date.days date'.days
      = (compare date.fullYear date'.fullYear).then
          (compare date.day date'.day) := by
  have hsame : date.fullYear = date'.fullYear →
      date.days - date.day = date'.days - date'.day := by
    intro h
    rw [days_eq, days_eq, h]
    omega
  refine compare_eq_then ?_ ?_ ?_
  · rintro (h | ⟨h, hday⟩)
    · exact days_lt_of_fullYear_lt h
    · have := hsame h
      omega
  · rintro (h | ⟨h, hday⟩)
    · exact days_lt_of_fullYear_lt h
    · have := hsame h
      omega
  · rintro ⟨h, hday⟩
    have := hsame h
    omega

theorem month_bounds : 0 ≤ date.month ∧ date.month ≤ 11 := by
  have hnonneg := date.day_nonneg
  have hday := date.day_le
  unfold month
  omega

theorem dayOfMonth_bounds :
    1 ≤ date.dayOfMonth ∧ date.dayOfMonth ≤ 31 := by
  have hnonneg := date.day_nonneg
  have hday := date.day_le
  unfold dayOfMonth month
  omega

theorem month_mul_le :
    153 * date.month ≤ 5 * date.day + 2 ∧
      5 * date.day + 2 < 153 * date.month + 153 := by
  unfold month
  omega

theorem compare_day :
    compare date.day date'.day
      = (compare date.month date'.month).then
          (compare date.dayOfMonth date'.dayOfMonth) := by
  have hmonth := date.month_mul_le
  have hmonth' := date'.month_mul_le
  have hsame : date.month = date'.month →
      date.dayOfMonth - date.day = date'.dayOfMonth - date'.day := by
    intro h
    rw [dayOfMonth, dayOfMonth, h]
    omega
  refine compare_eq_then ?_ ?_ ?_
  · rintro (h | ⟨h, hday⟩)
    · omega
    · have := hsame h
      omega
  · rintro (h | ⟨h, hday⟩)
    · omega
    · have := hsame h
      omega
  · rintro ⟨h, hday⟩
    have := hsame h
    omega

/-! ## The date `civil` computes -/

/-- The day of the era. -/
def dayOfEra : ℤ :=
  36524 * date.century + 1461 * date.quad + 365 * date.year + date.day

theorem dayOfEra_bounds : 0 ≤ date.dayOfEra ∧ date.dayOfEra < 146097 := by
  have hcentury := date.century_bounds
  have hquad := date.quad_bounds
  have hyear := date.year_bounds
  have hnonneg := date.day_nonneg
  have hday := date.day_le
  unfold dayOfEra
  omega

/-- The year of the era, as `civil` computes it from the day of the era. -/
theorem yearOfEra_eq :
    (date.dayOfEra - date.dayOfEra / 1460 + date.dayOfEra / 36524
        - date.dayOfEra / 146096) / 365
      = 100 * date.century + 4 * date.quad + date.year := by
  have hcentury := date.century_bounds
  have hquad := date.quad_bounds
  have hyear := date.year_bounds
  have hnonneg := date.day_nonneg
  have hday := date.day_le
  obtain ⟨doe, hdoe⟩ : ∃ doe, doe = date.dayOfEra := ⟨_, rfl⟩
  rw [← hdoe]
  unfold dayOfEra at hdoe
  have hlast : doe < 36524 * date.century + 36524 ∨
      date.century = 3 ∧ doe = 146096 := by omega
  -- the last day of an era is the one that would begin a fifth century
  have hleft : doe / 36524 - doe / 146096 = date.century := by
    obtain hlt | ⟨hthree, rfl⟩ := hlast
    · have hge : 0 ≤ doe ∧ 36524 * date.century ≤ doe := by omega
      clear hdoe
      have hera : doe / 146096 = 0 := by omega
      have hquotient : doe / 36524 = date.century := by omega
      omega
    · rw [hthree]
      rfl
  -- 1460 days go by once for every four years, and once more towards the end
  have hsplit : doe = 1460 * (25 * date.century + date.quad)
      + (24 * date.century + date.quad + 365 * date.year + date.day) := by
    omega
  by_cases hfour :
      24 * date.century + date.quad + 365 * date.year + date.day < 1460
  · have hquotient : doe / 1460 = 25 * date.century + date.quad := by omega
    have hshort : date.day ≤ 364 := by omega
    omega
  · have hquotient : doe / 1460 = 25 * date.century + date.quad + 1 := by omega
    have hlong : 1 ≤ date.day := by omega
    omega

theorem days_add : date.days + 719468 = date.dayOfEra + 146097 * date.era := by
  unfold days dayOfEra
  omega

theorem yearOfEra_parts :
    (100 * date.century + 4 * date.quad + date.year) / 4
        = 25 * date.century + date.quad ∧
      (100 * date.century + 4 * date.quad + date.year) / 100
        = date.century := by
  have hquad := date.quad_bounds
  have hyear := date.year_bounds
  omega

theorem civil_days :
    civil date.days
      = (date.fullYear + (if date.month < 10 then 0 else 1),
          if date.month < 10 then date.month + 3 else date.month - 9,
          date.dayOfMonth) := by
  obtain ⟨hnonneg, hlt⟩ := date.dayOfEra_bounds
  have hmod : (date.days + 719468) % 146097 = date.dayOfEra := by
    rw [days_add, Int.add_mul_emod_self_left, Int.emod_eq_of_lt hnonneg hlt]
  have hdiv : (date.days + 719468) / 146097 = date.era := by
    rw [days_add, Int.add_mul_ediv_left _ _ (by decide),
      Int.ediv_eq_zero_of_lt hnonneg hlt, zero_add]
  have hday : date.dayOfEra
      - (365 * (100 * date.century + 4 * date.quad + date.year)
        + (100 * date.century + 4 * date.quad + date.year) / 4
        - (100 * date.century + 4 * date.quad + date.year) / 100)
        = date.day := by
    rw [date.yearOfEra_parts.1, date.yearOfEra_parts.2]
    unfold dayOfEra
    omega
  unfold civil
  dsimp only
  rw [hmod, hdiv, yearOfEra_eq, hday]
  show (_ + _ + (if (if date.month < 10 then date.month + 3
      else date.month - 9) ≤ 2 then 1 else 0),
    (if date.month < 10 then date.month + 3 else date.month - 9),
    date.dayOfMonth) = _
  have hmonth := date.month_bounds
  by_cases hlate : date.month < 10
  · rw [if_pos hlate, if_pos hlate, if_neg (by omega)]
    refine Prod.ext ?_ rfl
    show _ = 400 * _ + _ + _ + _ + _
    omega
  · rw [if_neg hlate, if_neg hlate, if_pos (by omega)]
    refine Prod.ext ?_ rfl
    show _ = 400 * _ + _ + _ + _ + _
    omega

end Order

end MarchDate

/-! ## Days and dates -/

section Civil

variable {days days' : ℤ}

/-- Months and days of the month are in their ranges. -/
theorem civil_bounds :
    (1 ≤ (civil days).2.1 ∧ (civil days).2.1 ≤ 12) ∧
      1 ≤ (civil days).2.2 ∧ (civil days).2.2 ≤ 31 := by
  obtain ⟨date, rfl⟩ := MarchDate.exists_days_eq days
  have hmonth := date.month_bounds
  rw [MarchDate.civil_days]
  refine ⟨?_, date.dayOfMonth_bounds⟩
  dsimp only
  split <;> omega

/-- **Days are in the order of their dates.** -/
theorem compare_civil :
    compare days days'
      = (compare (civil days).1 (civil days').1).then
          ((compare (civil days).2.1 (civil days').2.1).then
            (compare (civil days).2.2 (civil days').2.2)) := by
  obtain ⟨date, rfl⟩ := MarchDate.exists_days_eq days
  obtain ⟨date', rfl⟩ := MarchDate.exists_days_eq days'
  rw [date.compare_days, date.compare_day, ← Ordering.then_assoc,
    ← Ordering.then_assoc, date.civil_days, date'.civil_days]
  refine congrArg (Ordering.then · _) ?_
  -- the months of both calendars are counted from different beginnings
  have hcount : compare (12 * date.fullYear + date.month)
      (12 * date'.fullYear + date'.month)
        = (compare date.fullYear date'.fullYear).then
            (compare date.month date'.month) := by
    have hmonth := date.month_bounds
    have hmonth' := date'.month_bounds
    refine compare_eq_then ?_ ?_ ?_ <;> intro h <;> omega
  rw [← hcount]
  have hmonth := date.month_bounds
  have hmonth' := date'.month_bounds
  refine compare_eq_then ?_ ?_ ?_ <;> dsimp only <;> intro h <;>
    split at h <;> split at h <;> omega

end Civil

/-! ## The text of an instant -/

/-- The date of an instant, in the calendar. -/
def yearOf (t : Instant) : ℤ := (civil (t / dayMs)).1

/-- The instants a `Date` can hold. -/
def IsDate (t : Instant) : Prop := -8640000000000000 ≤ t ∧ t ≤ 8640000000000000

/-- The text after the year. -/
def restText (t : Instant) : String :=
  let date := civil (t / dayMs)
  let ms : ℤ := t % dayMs
  "-" ++ (padded 2 date.2.1.toNat ++ ("-" ++ (padded 2 date.2.2.toNat ++
    ("T" ++ (padded 2 (ms / 3600000).toNat ++ (":" ++
      (padded 2 (ms / 60000 % 60).toNat ++ (":" ++
        (padded 2 (ms / 1000 % 60).toNat ++ ("." ++
          (padded 3 (ms % 1000).toNat ++ "Z")))))))))))

section Texts

variable {t t' : ℤ}

theorem toISOString_eq : toISOString t = yearText (yearOf t) ++ restText t := by
  unfold toISOString restText yearOf
  simp only [String.append_assoc]
  rfl

/-- Parts that are printed in one width and are in their range. -/
theorem compareUnits_part {width : ℕ} {m n : ℤ} {rest rest' : String}
    (hm : 0 ≤ m ∧ m < 10 ^ (width + 1)) (hn : 0 ≤ n ∧ n < 10 ^ (width + 1)) :
    compareUnits (padded (width + 1) m.toNat ++ rest)
        (padded (width + 1) n.toNat ++ rest')
      = (compare m n).then (compareUnits rest rest') := by
  obtain ⟨m, rfl⟩ := Int.eq_ofNat_of_zero_le hm.1
  obtain ⟨n, rfl⟩ := Int.eq_ofNat_of_zero_le hn.1
  have hm' : m < 10 ^ (width + 1) := by exact_mod_cast hm.2
  have hn' : n < 10 ^ (width + 1) := by exact_mod_cast hn.2
  rw [Int.toNat_natCast, Int.toNat_natCast, compareUnits_append
    (by rw [length_units_padded hm', length_units_padded hn']),
    compareUnits_padded hm' hn']
  rw [← cmp_eq_compare, ← cmp_eq_compare (m : ℤ), Int.natCast_strictMono.cmp_map_eq]

/-- The time of day, unit by unit. -/
theorem compare_timeOfDay {ms ms' : ℤ} :
    compare ms ms'
      = (compare (ms / 3600000) (ms' / 3600000)).then
          ((compare (ms / 60000 % 60) (ms' / 60000 % 60)).then
            ((compare (ms / 1000 % 60) (ms' / 1000 % 60)).then
              (compare (ms % 1000) (ms' % 1000)))) := by
  have hseconds : compare (ms % 60000) (ms' % 60000)
      = (compare (ms / 1000 % 60) (ms' / 1000 % 60)).then
          (compare (ms % 1000) (ms' % 1000)) := by
    refine compare_eq_then ?_ ?_ ?_ <;> intro h <;> omega
  have hminutes : compare (ms % 3600000) (ms' % 3600000)
      = (compare (ms / 60000 % 60) (ms' / 60000 % 60)).then
          (compare (ms % 60000) (ms' % 60000)) := by
    refine compare_eq_then ?_ ?_ ?_ <;> intro h <;> omega
  rw [← hseconds, ← hminutes]
  refine compare_eq_then ?_ ?_ ?_ <;> intro h <;> omega

theorem compareUnits_restText :
    compareUnits (restText t) (restText t')
      = (compare (civil (t / dayMs)).2.1 (civil (t' / dayMs)).2.1).then
          ((compare (civil (t / dayMs)).2.2 (civil (t' / dayMs)).2.2).then
            (compare (t % dayMs) (t' % dayMs))) := by
  have hdate := @civil_bounds (t / dayMs)
  have hdate' := @civil_bounds (t' / dayMs)
  have hms : 0 ≤ t % dayMs ∧ t % dayMs < 86400000 := by
    unfold dayMs
    omega
  have hms' : 0 ≤ t' % dayMs ∧ t' % dayMs < 86400000 := by
    unfold dayMs
    omega
  unfold restText
  rw [compareUnits_append_left, compareUnits_part (by omega) (by omega),
    compareUnits_append_left, compareUnits_part (by omega) (by omega),
    compareUnits_append_left, compareUnits_part (by omega) (by omega),
    compareUnits_append_left, compareUnits_part (by omega) (by omega),
    compareUnits_append_left, compareUnits_part (by omega) (by omega),
    compareUnits_append_left, compareUnits_part (by omega) (by omega),
    Text.compareUnits_self, Ordering.then_eq, ← compare_timeOfDay]

/-- **An instant is its year and what follows it.** -/
theorem compare_eq_year :
    compare t t'
      = (compare (yearOf t) (yearOf t')).then
          (compareUnits (restText t) (restText t')) := by
  have hday : compare t t' = (compare (t / dayMs) (t' / dayMs)).then
      (compare (t % dayMs) (t' % dayMs)) := by
    unfold dayMs
    refine compare_eq_then ?_ ?_ ?_ <;> intro h <;> omega
  rw [hday, compare_civil, compareUnits_restText, Ordering.then_assoc,
    Ordering.then_assoc]
  rfl

theorem yearOf_bounds (h : IsDate t) :
    -999999 ≤ yearOf t ∧ yearOf t ≤ 999999 := by
  obtain ⟨date, hdate⟩ := MarchDate.exists_days_eq (t / dayMs)
  have hera := date.dayOfEra_bounds
  have hdays := date.days_add
  have hcentury := date.century_bounds
  have hquad := date.quad_bounds
  have hyear := date.year_bounds
  rw [yearOf, ← hdate, date.civil_days]
  have hrange : -8640000000000000 ≤ t ∧ t ≤ 8640000000000000 := h
  have hlow : -100000001 ≤ date.days ∧ date.days ≤ 100000000 := by
    rw [hdate]
    unfold dayMs
    omega
  show -999999 ≤ 400 * _ + _ + _ + _ + _ ∧ 400 * _ + _ + _ + _ + _ ≤ 999999
  split <;> omega

end Texts

/-! ## Which texts sort like their instants -/

/-- **The years are printed in one order**: none of the two alone is beyond
9999, and two years before the year 0 are the same. -/
def SpelledAlike (t t' : Instant) : Prop :=
  (yearOf t ≤ 9999 ↔ yearOf t' ≤ 9999) ∧
    (yearOf t < 0 → yearOf t' < 0 → yearOf t = yearOf t')

instance (t t' : Instant) : Decidable (SpelledAlike t t') :=
  inferInstanceAs (Decidable (_ ∧ _))

section SpelledAlike

variable {t t' : ℤ}

theorem compare_of_year_lt (h : yearOf t < yearOf t') : compare t t' = .lt := by
  rw [compare_eq_year, compare_lt_iff_lt.mpr h]
  rfl

theorem compare_of_year_gt (h : yearOf t' < yearOf t) : compare t t' = .gt := by
  rw [compare_eq_year, compare_gt_iff_gt.mpr h]
  rfl

theorem toISOString_mid (h : 0 ≤ yearOf t ∧ yearOf t ≤ 9999) :
    toISOString t = padded 4 (yearOf t).toNat ++ restText t := by
  rw [toISOString_eq, yearText, if_pos h]
  rfl

theorem toISOString_late (h : 9999 < yearOf t) :
    toISOString t = "+" ++ (padded 6 (yearOf t).toNat ++ restText t) := by
  rw [toISOString_eq, yearText, if_neg (by omega), if_neg (by omega),
    String.append_assoc, show pad 6 (yearOf t).natAbs
      = padded 6 (yearOf t).natAbs from rfl,
    show (yearOf t).natAbs = (yearOf t).toNat by omega]

theorem toISOString_early (h : yearOf t < 0) :
    toISOString t = "-" ++ (padded 6 (-yearOf t).toNat ++ restText t) := by
  rw [toISOString_eq, yearText, if_neg (by omega), if_pos h,
    String.append_assoc, show pad 6 (yearOf t).natAbs
      = padded 6 (yearOf t).natAbs from rfl,
    show (yearOf t).natAbs = (-yearOf t).toNat by omega]

theorem compareUnits_mid (h : 0 ≤ yearOf t ∧ yearOf t ≤ 9999)
    (h' : 0 ≤ yearOf t' ∧ yearOf t' ≤ 9999) :
    compareUnits (toISOString t) (toISOString t') = compare t t' := by
  rw [toISOString_mid h, toISOString_mid h',
    compareUnits_part (by omega) (by omega), @compare_eq_year t t']

theorem compareUnits_late (h : 9999 < yearOf t ∧ yearOf t ≤ 999999)
    (h' : 9999 < yearOf t' ∧ yearOf t' ≤ 999999) :
    compareUnits (toISOString t) (toISOString t') = compare t t' := by
  rw [toISOString_late h.1, toISOString_late h'.1, compareUnits_append_left,
    compareUnits_part (by omega) (by omega), @compare_eq_year t t']

/-- Years before the year 0 are printed by their distance from it. -/
theorem compareUnits_early (h : yearOf t < 0 ∧ -999999 ≤ yearOf t)
    (h' : yearOf t' < 0 ∧ -999999 ≤ yearOf t') :
    compareUnits (toISOString t) (toISOString t')
      = (compare (-yearOf t) (-yearOf t')).then
          (compareUnits (restText t) (restText t')) := by
  rw [toISOString_early h.1, toISOString_early h'.1, compareUnits_append_left,
    compareUnits_part (by omega) (by omega)]

theorem SpelledAlike.symm (h : SpelledAlike t t') : SpelledAlike t' t :=
  ⟨h.1.symm, fun h₁ h₂ => (h.2 h₂ h₁).symm⟩

/-- Texts of one year sort like their instants. -/
theorem compareUnits_of_year_eq (h : IsDate t) (h' : IsDate t')
    (hyear : yearOf t = yearOf t') :
    compareUnits (toISOString t) (toISOString t') = compare t t' := by
  have hb := yearOf_bounds h
  have hb' := yearOf_bounds h'
  by_cases hmid : 0 ≤ yearOf t ∧ yearOf t ≤ 9999
  · exact compareUnits_mid hmid (hyear ▸ hmid)
  · by_cases hlate : 9999 < yearOf t
    · exact compareUnits_late ⟨hlate, hb.2⟩ ⟨hyear ▸ hlate, hb'.2⟩
    · rw [compareUnits_early (by omega) (by omega), @compare_eq_year t t',
        hyear, compare_eq_iff_eq.mpr rfl, compare_eq_iff_eq.mpr rfl]

/-- The text of an earlier year comes first exactly if the years are spelled
alike. -/
theorem compareUnits_of_year_lt (h : IsDate t) (h' : IsDate t')
    (hyear : yearOf t < yearOf t') :
    compareUnits (toISOString t) (toISOString t')
      = if SpelledAlike t t' then .lt else .gt := by
  have hb := yearOf_bounds h
  have hb' := yearOf_bounds h'
  have hlt := compare_of_year_lt hyear
  obtain hneg | hmid | hlate : yearOf t < 0 ∨
      (0 ≤ yearOf t ∧ yearOf t ≤ 9999) ∨ 9999 < yearOf t := by omega
  · obtain hneg' | hmid' | hlate' : yearOf t' < 0 ∨
        (0 ≤ yearOf t' ∧ yearOf t' ≤ 9999) ∨ 9999 < yearOf t' := by omega
    · rw [if_neg fun halike => hyear.ne (halike.2 hneg hneg'),
        compareUnits_early ⟨hneg, hb.1⟩ ⟨hneg', hb'.1⟩,
        compare_gt_iff_gt.mpr (by omega)]
      rfl
    · rw [if_pos ⟨by omega, by omega⟩, toISOString_early hneg,
        toISOString_mid hmid']
      exact Text.compareUnits_sign_padded rfl (by decide) (by omega)
    · rw [if_neg fun halike => absurd (halike.1.mp (by omega)) (by omega),
        toISOString_early hneg, toISOString_late hlate',
        compareUnits_append (show (units "-").length = (units "+").length from
          rfl)]
      rfl
  · obtain hmid' | hlate' : (0 ≤ yearOf t' ∧ yearOf t' ≤ 9999) ∨
        9999 < yearOf t' := by omega
    · rw [if_pos ⟨by omega, by omega⟩, compareUnits_mid hmid hmid', hlt]
    · rw [if_neg fun halike => absurd (halike.1.mp (by omega)) (by omega),
        toISOString_mid hmid, toISOString_late hlate', Text.compareUnits_swap,
        Text.compareUnits_sign_padded rfl (by decide) (by omega)]
      rfl
  · rw [if_pos ⟨by omega, by omega⟩,
      compareUnits_late ⟨hlate, hb.2⟩ ⟨hlate.trans hyear, hb'.2⟩, hlt]

/-- **How the texts of two dates compare**: as the dates do if their years are
spelled alike, and the other way round if not. -/
theorem compareUnits_toISOString (h : IsDate t) (h' : IsDate t') :
    compareUnits (toISOString t) (toISOString t')
      = if SpelledAlike t t' then compare t t' else compare t' t := by
  obtain hyear | hyear | hyear := lt_trichotomy (yearOf t) (yearOf t')
  · rw [compareUnits_of_year_lt h h' hyear, compare_of_year_lt hyear,
      compare_of_year_gt hyear]
  · rw [compareUnits_of_year_eq h h' hyear,
      if_pos ⟨by rw [hyear], fun _ _ => hyear⟩]
  · rw [Text.compareUnits_swap, compareUnits_of_year_lt h' h hyear,
      compare_of_year_lt hyear, compare_of_year_gt hyear]
    by_cases halike : SpelledAlike t t'
    · rw [if_pos halike, if_pos halike.symm]
      rfl
    · rw [if_neg halike, if_neg fun halike' => halike halike'.symm]
      rfl

/-- Two dates are never printed alike. -/
theorem toISOString_injective (h : IsDate t) (h' : IsDate t')
    (heq : toISOString t = toISOString t') : t = t' := by
  have hcompare := compareUnits_toISOString h h'
  rw [heq, Text.compareUnits_self] at hcompare
  split at hcompare
  · exact compare_eq_iff_eq.mp hcompare.symm
  · exact (compare_eq_iff_eq.mp hcompare.symm).symm

end SpelledAlike

/-! ## Blanks -/

/-- A padded number has no blank. -/
theorem blank_notMem_pad (width : ℕ) (n : ℤ) : ' ' ∉ (pad width n).toList := by
  rw [pad, String.toList_ofList, List.mem_append]
  rintro (hzero | hdigit)
  · exact absurd (List.eq_of_mem_replicate hzero) (by decide)
  · rw [show toString n.toNat = Nat.repr n.toNat from rfl, Nat.repr,
      String.toList_ofList] at hdigit
    exact absurd (Nat.isDigit_of_mem_toDigits (by decide) (by decide) hdigit)
      (by decide)

/-- **A date prints without a blank.** -/
theorem blank_notMem_toISOString (t : Instant) : ' ' ∉ t.toISOString.toList := by
  have hyear : ∀ year, ' ' ∉ (yearText year).toList := by
    intro year
    unfold yearText
    split
    · exact blank_notMem_pad 4 year
    · rw [String.toList_append, List.mem_append, not_or]
      refine ⟨?_, blank_notMem_pad 6 _⟩
      split <;> decide
  unfold toISOString
  simp only [String.toList_append, List.mem_append, not_or, and_assoc]
  refine ⟨hyear _, ?_, blank_notMem_pad _ _, ?_, blank_notMem_pad _ _, ?_,
    blank_notMem_pad _ _, ?_, blank_notMem_pad _ _, ?_, blank_notMem_pad _ _,
    ?_, blank_notMem_pad _ _, ?_⟩ <;> decide

end Instant
