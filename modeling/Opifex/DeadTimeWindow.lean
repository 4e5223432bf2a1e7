import Mathlib.Tactic.FieldSimp
import Opifex.DeadTimeLedger

/-!
# Dead time over a window of days

Every interval is clipped twice, to the window for the totals and to each day
for the values of the days, and an open one is given the end of what it is
clipped to. Both count the instants of the interval: **the days adjoin, so what
they hold together is what the window holds**, and an open interval goes on past
the end of either.

Hours are exact quotients.
-/

namespace Opifex

/-- The milliseconds of a day. -/
def dayMs : ℤ := 24 * 60 * 60 * 1000

/-- The milliseconds of an hour. -/
def hourMs : ℤ := 60 * 60 * 1000

/-- The dead time of a window of days, in hours a day: the total, its two kinds, and
each day by itself. -/
structure DeadTimeWindow where
  hoursPerDay : ℚ
  stalledHoursPerDay : ℚ
  parkedHoursPerDay : ℚ
  /-- One value a day, oldest first. -/
  perDayHours : List ℚ
  /-- How many intervals contributed anything. -/
  intervals : ℕ
  openIntervals : ℕ
deriving DecidableEq

/-- What the loop over the intervals has added up: the time in the window, in all and
for each kind, and how many intervals it came from. -/
structure DeadTimeTotals where
  totalMs : ℤ := 0
  stalledMs : ℤ := 0
  parkedMs : ℤ := 0
  contributing : ℕ := 0
  openIntervals : ℕ := 0
deriving DecidableEq

/-- One round of the loop. -/
def DeadTimeTotals.add (lower upper : Instant) (totals : DeadTimeTotals)
    (interval : DeadInterval) : DeadTimeTotals :=
  let ms := overlapMs interval lower upper
  if ms ≤ 0 then totals
  else
    { totalMs := totals.totalMs + ms
      stalledMs :=
        if interval.kind = .stalled then totals.stalledMs + ms
        else totals.stalledMs
      parkedMs :=
        if interval.kind = .stalled then totals.parkedMs
        else totals.parkedMs + ms
      contributing := totals.contributing + 1
      openIntervals :=
        if interval.endedAt.isNone then totals.openIntervals + 1
        else totals.openIntervals }

/-- The milliseconds of one day. -/
def bucketMs (intervals : List DeadInterval) (lower : Instant) (day : ℕ) : ℤ :=
  let bucketFrom := lower + day * dayMs
  let bucketTo := bucketFrom + dayMs
  intervals.foldl
    (fun total interval => total + overlapMs interval bucketFrom bucketTo) 0

/-- **`deadTimeInWindow`**: dead time a day, over so many days from an instant
on. -/
def deadTimeInWindow (intervals : List DeadInterval) (lower : Instant)
    (days : ℕ) : DeadTimeWindow :=
  let upper := lower + days * dayMs
  let totals := intervals.foldl (DeadTimeTotals.add lower upper) {}
  { hoursPerDay := totals.totalMs / hourMs / days
    stalledHoursPerDay := totals.stalledMs / hourMs / days
    parkedHoursPerDay := totals.parkedMs / hourMs / days
    perDayHours := (List.range days).map fun day =>
      (bucketMs intervals lower day : ℚ) / hourMs
    intervals := totals.contributing
    openIntervals := totals.openIntervals }

/-! ## The totals -/

/-- The milliseconds of all intervals in a window. -/
def windowMs (intervals : List DeadInterval) (lower upper : Instant) : ℤ :=
  (intervals.map fun interval => overlapMs interval lower upper).sum

section Totals

variable {intervals : List DeadInterval} {lower upper : Instant} {days : ℕ}

theorem overlapMs_nonneg (interval : DeadInterval) :
    0 ≤ overlapMs interval lower upper :=
  le_max_left _ _

/-- A round adds what the interval has in the window, to the total and to one of
the halves. -/
theorem totals_add (totals : DeadTimeTotals) (interval : DeadInterval) :
    (totals.add lower upper interval).totalMs
        = totals.totalMs + overlapMs interval lower upper
      ∧ (totals.add lower upper interval).stalledMs
          + (totals.add lower upper interval).parkedMs
        = totals.stalledMs + totals.parkedMs + overlapMs interval lower upper := by
  unfold DeadTimeTotals.add
  dsimp only
  by_cases hnone : overlapMs interval lower upper ≤ 0
  · have hzero := le_antisymm hnone (overlapMs_nonneg interval)
    rw [if_pos hnone, hzero, add_zero, add_zero]
    exact ⟨rfl, rfl⟩
  · rw [if_neg hnone]
    refine ⟨rfl, ?_⟩
    by_cases hkind : interval.kind = .stalled
    · simp only [if_pos hkind]
      ring
    · simp only [if_neg hkind]
      ring

theorem totals_foldl (totals : DeadTimeTotals) :
    (intervals.foldl (DeadTimeTotals.add lower upper) totals).totalMs
        = totals.totalMs + windowMs intervals lower upper
      ∧ (intervals.foldl (DeadTimeTotals.add lower upper) totals).stalledMs
          + (intervals.foldl (DeadTimeTotals.add lower upper) totals).parkedMs
        = totals.stalledMs + totals.parkedMs
          + windowMs intervals lower upper := by
  induction intervals generalizing totals with
  | nil => simp [windowMs]
  | cons interval intervals ih =>
    obtain ⟨htotal, hhalves⟩ := ih (totals.add lower upper interval)
    obtain ⟨htotal', hhalves'⟩ := @totals_add lower upper totals interval
    have hcons : windowMs (interval :: intervals) lower upper
        = overlapMs interval lower upper + windowMs intervals lower upper :=
      List.sum_cons
    rw [List.foldl_cons, htotal, hhalves, htotal', hhalves', hcons]
    constructor <;> ring

theorem bucketMs_eq (day : ℕ) :
    bucketMs intervals lower day
      = windowMs intervals (lower + day * dayMs)
          (lower + (day + 1 : ℕ) * dayMs) := by
  have hupper : lower + day * dayMs + dayMs = lower + (day + 1 : ℕ) * dayMs := by
    push_cast
    ring
  unfold bucketMs windowMs
  dsimp only
  rw [hupper, List.sum_eq_foldl, List.foldl_map]

end Totals

/-! ## The days -/

section Days

variable {intervals : List DeadInterval} {lower : Instant} {days : ℕ}

/-- **An interval is split over the days** without loss and without a second
count. -/
theorem sum_overlapMs (interval : DeadInterval) :
    ((List.range days).map fun day : ℕ => overlapMs interval
        (lower + day * dayMs) (lower + (day + 1 : ℕ) * dayMs)).sum
      = overlapMs interval lower (lower + days * dayMs) := by
  have hcut : Monotone fun day : ℕ => lower + (day : ℤ) * dayMs := by
    intro day day' hle
    have hcast : (day : ℤ) ≤ day' := by exact_mod_cast hle
    exact add_le_add_right (mul_le_mul_of_nonneg_right hcast (by decide)) lower
  have hsum := Span.sum_card_within_consecutive interval.span hcut days
  have hcast := congrArg (Nat.cast : ℕ → ℤ) hsum
  rw [Nat.cast_list_sum, List.map_map, Nat.cast_zero, zero_mul, add_zero] at hcast
  simp only [DeadInterval.overlapMs_eq_card]
  exact hcast

/-- The days together have what the window has. -/
theorem sum_windowMs :
    ((List.range days).map fun day : ℕ => windowMs intervals
        (lower + day * dayMs) (lower + (day + 1 : ℕ) * dayMs)).sum
      = windowMs intervals lower (lower + days * dayMs) := by
  induction intervals with
  | nil => simp [windowMs]
  | cons interval intervals ih =>
    have hcons : ∀ first last : Instant,
        windowMs (interval :: intervals) first last
          = overlapMs interval first last + windowMs intervals first last :=
      fun _ _ => List.sum_cons
    simp only [hcons]
    rw [List.sum_map_add, ih, sum_overlapMs]

/-- The hours of the days add up to those of the window. -/
theorem sum_perDayHours :
    (deadTimeInWindow intervals lower days).perDayHours.sum
      = windowMs intervals lower (lower + days * dayMs) / hourMs := by
  show ((List.range days).map fun day =>
    (bucketMs intervals lower day : ℚ) / hourMs).sum = _
  simp only [bucketMs_eq, div_eq_mul_inv]
  rw [List.sum_map_mul_right, ← sum_windowMs, Int.cast_list_sum, List.map_map]
  rfl

theorem hoursPerDay_mul (hdays : 1 ≤ days) :
    (deadTimeInWindow intervals lower days).hoursPerDay * days
      = windowMs intervals lower (lower + days * dayMs) / hourMs := by
  have hne : (days : ℚ) ≠ 0 := Nat.cast_ne_zero.mpr (by omega)
  obtain ⟨htotal, -⟩ := @totals_foldl intervals lower (lower + days * dayMs) {}
  rw [zero_add] at htotal
  show ((intervals.foldl (DeadTimeTotals.add lower (lower + days * dayMs))
    {}).totalMs : ℚ) / hourMs / days * days = _
  rw [htotal, div_mul_cancel₀ _ hne]

theorem halves_mul (hdays : 1 ≤ days) :
    ((deadTimeInWindow intervals lower days).stalledHoursPerDay
        + (deadTimeInWindow intervals lower days).parkedHoursPerDay) * days
      = windowMs intervals lower (lower + days * dayMs) / hourMs := by
  have hne : (days : ℚ) ≠ 0 := Nat.cast_ne_zero.mpr (by omega)
  obtain ⟨-, hhalves⟩ := @totals_foldl intervals lower (lower + days * dayMs) {}
  rw [add_zero, zero_add] at hhalves
  show (((intervals.foldl (DeadTimeTotals.add lower (lower + days * dayMs))
      {}).stalledMs : ℚ) / hourMs / days
    + ((intervals.foldl (DeadTimeTotals.add lower (lower + days * dayMs))
      {}).parkedMs : ℚ) / hourMs / days) * days = _
  rw [← add_div, ← add_div, ← Int.cast_add, hhalves, div_mul_cancel₀ _ hne]

/-- The milliseconds of a window are the instants that its intervals hold. -/
theorem windowMs_eq_card {upper : Instant} :
    windowMs intervals lower upper
      = (intervals.map fun interval =>
          ((interval.span.within lower upper).card : ℤ)).sum := by
  unfold windowMs
  congr 1
  exact List.map_congr_left fun _ _ => DeadInterval.overlapMs_eq_card

end Days

/-- **The days tile the window.** The values of the days add up to the mean
times the number of days, and so do its two halves; they are the hours that the
intervals hold in the window, an open one to its end; and what one interval has
in the window is what it has in the days. -/
theorem deadTimeInWindow_tiles {intervals : List DeadInterval} {lower : Instant}
    {days : ℕ} (hdays : 1 ≤ days) :
    (deadTimeInWindow intervals lower days).perDayHours.length = days
      ∧ (deadTimeInWindow intervals lower days).perDayHours.sum
        = (deadTimeInWindow intervals lower days).hoursPerDay * days
      ∧ (deadTimeInWindow intervals lower days).hoursPerDay * days
        = ((deadTimeInWindow intervals lower days).stalledHoursPerDay
            + (deadTimeInWindow intervals lower days).parkedHoursPerDay) * days
      ∧ (deadTimeInWindow intervals lower days).hoursPerDay * days * hourMs
        = ((intervals.map fun interval => ((interval.span.within lower
            (lower + days * dayMs)).card : ℤ)).sum : ℤ)
      ∧ ∀ interval : DeadInterval,
        ((List.range days).map fun day : ℕ => overlapMs interval
            (lower + day * dayMs) (lower + day * dayMs + dayMs)).sum
          = (interval.span.within lower (lower + days * dayMs)).card := by
  have hhour : (hourMs : ℚ) ≠ 0 := by decide
  refine ⟨by simp [deadTimeInWindow], ?_, ?_, ?_, fun interval => ?_⟩
  · rw [sum_perDayHours, hoursPerDay_mul hdays]
  · rw [hoursPerDay_mul hdays, halves_mul hdays]
  · rw [hoursPerDay_mul hdays, div_mul_cancel₀ _ hhour, windowMs_eq_card]
  · rw [← DeadInterval.overlapMs_eq_card, ← sum_overlapMs]
    congr 1
    refine List.map_congr_left fun day _ => ?_
    congr 1
    push_cast
    ring

/-- A stall that is open still and a park that spans the first midnight, over two
days. -/
theorem deadTimeInWindow_tiles_two :
    let intervals : List DeadInterval :=
      [⟨0, .stalled, dayMs + hourMs, none, none⟩,
        ⟨1, .parked, dayMs - hourMs, some (dayMs + 2 * hourMs), none⟩]
    (deadTimeInWindow intervals 0 2).perDayHours = [1, 25]
      ∧ (deadTimeInWindow intervals 0 2).perDayHours.sum
        = (deadTimeInWindow intervals 0 2).hoursPerDay * 2 :=
  ⟨by decide +kernel, (deadTimeInWindow_tiles (by decide)).2.1⟩

end Opifex
