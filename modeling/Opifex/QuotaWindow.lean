import Opifex.DispatchPolicy
import Opifex.Lib.Reduce
import Opifex.Lib.Text
import Opifex.RunPoller

/-!
# One runner's meter

A runner that is polled reports the vendor's windows. Routing collapses the
windows it has seen of a runner to one position: any window that has not
rolled and is exhausted binds, the latest of them dates the refill, and a
reading that is not fresh asserts no health.
-/

namespace Opifex

open Preference (rank)
open Reduce (reduce later)

/-- The pressure as the columns and messages write it. -/
def QuotaPressure.name : QuotaPressure → String
  | .unknown => "unknown"
  | .allowed => "allowed"
  | .warning => "warning"
  | .exhausted => "exhausted"

/-- Ordered worst-last. -/
def quotaPressureOrder : List QuotaPressure :=
  [.unknown, .allowed, .warning, .exhausted]

/-- The worse of two readings, and the first of equals. -/
def worsePressure (a b : QuotaPressure) : QuotaPressure :=
  if quotaPressureOrder.idxOf a < quotaPressureOrder.idxOf b then b else a

/-- One stored window, as routing reads it: what it meters, how full it is, when that
was seen, and when it starts anew. -/
structure MeterWindow where
  kind : String
  resetsAt : Instant
  pressure : QuotaPressure
  lastObservedAt : Instant
deriving DecidableEq

/-- How long a meter reading may keep asserting health after it was
observed. -/
def quotaMeterHealthHorizonMs : ℤ := 15 * 60000

/-- A meter reading of one window as routing sees it. -/
def quotaPositionFrom (window : MeterWindow) (now : Instant) :
    Option RunnerQuotaPosition :=
  if window.resetsAt ≤ now then none
  else if window.pressure = .unknown then none
  else
    some
      { exhausted := window.pressure == .exhausted
        resumesAt := some window.resetsAt.toISOString
        basis := "runner reported rate-limit status \"" ++
          window.pressure.name ++ "\" for its " ++ window.kind ++
          " window at " ++ window.lastObservedAt.toISOString }

namespace MeterWindow

/-- The window has not rolled. -/
def isLive (now : Instant) (window : MeterWindow) : Bool :=
  decide (now < window.resetsAt)

/-- Whether the window was last seen exhausted. -/
def isExhausted (window : MeterWindow) : Bool :=
  window.pressure == .exhausted

/-- The reading says something, and was taken within the horizon. -/
def isFresh (now : Instant) (horizonMs : ℤ) (window : MeterWindow) : Bool :=
  window.pressure != .unknown &&
    decide (now - window.lastObservedAt ≤ horizonMs)

/-- The worse of two windows, then the one seen last, then the first. -/
def worse (a b : MeterWindow) : MeterWindow :=
  if worsePressure a.pressure b.pressure ≠ a.pressure then b
  else if worsePressure b.pressure a.pressure ≠ b.pressure then a
  else if a.lastObservedAt < b.lastObservedAt then b
  else a

end MeterWindow

/-- **One runner's whole meter**, collapsed to the single position routing
consumes. -/
def meterQuotaPosition (windows : List MeterWindow) (now : Instant)
    (horizonMs : ℤ) : Option RunnerQuotaPosition :=
  let live := windows.filter (MeterWindow.isLive now)
  let exhausted := live.filter MeterWindow.isExhausted
  match reduce (later MeterWindow.resetsAt) exhausted,
      reduce (later MeterWindow.lastObservedAt) exhausted with
  | some last, some seenLast =>
    let kinds := rank Text.compareUnits (exhausted.map (·.kind)).eraseDups
    some
      { exhausted := true
        resumesAt := some last.resetsAt.toISOString
        basis := "runner reported rate-limit status \"exhausted\" for its " ++
          String.intercalate ", " kinds ++ " window" ++
          (if 1 < kinds.length then "s" else "") ++ " at " ++
          seenLast.lastObservedAt.toISOString ++
          (if 1 < exhausted.length then
            ", and the latest of them governs when it lifts" else "") }
  -- no window is exhausted
  | _, _ =>
    let fresh := live.filter (MeterWindow.isFresh now horizonMs)
    (reduce MeterWindow.worse fresh).bind (quotaPositionFrom · now)

/-! ## What the meter says -/

namespace MeterWindow

variable {now : Instant} {horizonMs : ℤ} {windows : List MeterWindow}
  {window : MeterWindow}

/-- The windows that bind: exhausted, and not yet rolled. -/
def bindingDates (windows : List MeterWindow) (now : Instant) : Set Instant :=
  {t | now < t ∧ ∃ window ∈ windows,
    window.pressure = .exhausted ∧ window.resetsAt = t}

/-- Some window that has not rolled was seen, within the horizon, at a
pressure that is known. -/
def SeenHealthy (windows : List MeterWindow) (now : Instant)
    (horizonMs : ℤ) : Prop :=
  ∃ window ∈ windows, now < window.resetsAt ∧ window.pressure ≠ .unknown ∧
    now - window.lastObservedAt ≤ horizonMs

theorem worse_eq_or (a b : MeterWindow) : worse a b = a ∨ worse a b = b := by
  unfold worse
  split
  · exact Or.inr rfl
  · split
    · exact Or.inl rfl
    · split
      · exact Or.inr rfl
      · exact Or.inl rfl

theorem mem_exhausted :
    window ∈ (windows.filter (isLive now)).filter isExhausted ↔
      window ∈ windows ∧ now < window.resetsAt ∧
        window.pressure = .exhausted := by
  rw [List.mem_filter, List.mem_filter, isLive, isExhausted, decide_eq_true_iff,
    beq_iff_eq, and_assoc]

theorem mem_fresh :
    window ∈ (windows.filter (isLive now)).filter (isFresh now horizonMs) ↔
      window ∈ windows ∧ now < window.resetsAt ∧ window.pressure ≠ .unknown ∧
        now - window.lastObservedAt ≤ horizonMs := by
  rw [List.mem_filter, List.mem_filter, isLive, isFresh, Bool.and_eq_true,
    decide_eq_true_iff, decide_eq_true_iff, bne_iff_ne, and_assoc]

/-- The exhausted windows' resets are the dates that bind. -/
theorem bindingDates_eq :
    bindingDates windows now
      = {t | ∃ window ∈ (windows.filter (isLive now)).filter isExhausted,
          window.resetsAt = t} := by
  ext t
  constructor
  · rintro ⟨hlive, window, hmem, hpressure, rfl⟩
    exact ⟨window, mem_exhausted.mpr ⟨hmem, hlive, hpressure⟩, rfl⟩
  · rintro ⟨window, hmem, rfl⟩
    obtain ⟨hmem, hlive, hpressure⟩ := mem_exhausted.mp hmem
    exact ⟨hlive, window, hmem, hpressure, rfl⟩

end MeterWindow

open MeterWindow (bindingDates SeenHealthy)

section Meter

variable {now : Instant} {horizonMs : ℤ} {windows : List MeterWindow}

/-- Of a window that has not rolled, the position is what it was seen at. -/
theorem quotaPositionFrom_eq_some {window : MeterWindow}
    (hlive : now < window.resetsAt) (hknown : window.pressure ≠ .unknown) :
    ∃ position, quotaPositionFrom window now = some position ∧
      position.exhausted = (window.pressure == .exhausted) := by
  rw [quotaPositionFrom, if_neg (not_le.mpr hlive), if_neg hknown]
  exact ⟨_, rfl, rfl⟩

theorem meterQuotaPosition_exhausted
    (h : (bindingDates windows now).Nonempty) :
    ∃ position t, meterQuotaPosition windows now horizonMs = some position ∧
      position.exhausted = true ∧ IsGreatest (bindingDates windows now) t ∧
      position.resumesAt = some t.toISOString := by
  rw [MeterWindow.bindingDates_eq] at h
  obtain ⟨t, window, hmem, -⟩ := h
  have hne := List.ne_nil_of_mem hmem
  obtain ⟨last, hlast⟩ :=
    Reduce.exists_reduce (later MeterWindow.resetsAt) hne
  obtain ⟨seenLast, hseen⟩ :=
    Reduce.exists_reduce (later MeterWindow.lastObservedAt) hne
  have hgreatest := Reduce.isGreatest_reduce hlast
  rw [← MeterWindow.bindingDates_eq] at hgreatest
  unfold meterQuotaPosition
  dsimp only
  rw [hlast, hseen]
  exact ⟨_, _, rfl, rfl, hgreatest, rfl⟩

/-- With no exhausted window the worst of the fresh ones speaks. -/
theorem meterQuotaPosition_of_empty (h : bindingDates windows now = ∅) :
    meterQuotaPosition windows now horizonMs
      = (reduce MeterWindow.worse ((windows.filter (MeterWindow.isLive now)).filter
          (MeterWindow.isFresh now horizonMs))).bind
            (quotaPositionFrom · now) := by
  have hnil : (windows.filter (MeterWindow.isLive now)).filter
      MeterWindow.isExhausted = [] := by
    rw [List.eq_nil_iff_forall_not_mem]
    intro window hmem
    rw [MeterWindow.bindingDates_eq] at h
    exact Set.eq_empty_iff_forall_notMem.mp h window.resetsAt
      ⟨window, hmem, rfl⟩
  unfold meterQuotaPosition
  dsimp only
  rw [hnil]
  rfl

theorem meterQuotaPosition_healthy (h : bindingDates windows now = ∅)
    (hseen : SeenHealthy windows now horizonMs) :
    ∃ position, meterQuotaPosition windows now horizonMs = some position ∧
      position.exhausted = false := by
  obtain ⟨window, hwindow⟩ := hseen
  have hne := List.ne_nil_of_mem (MeterWindow.mem_fresh.mpr hwindow)
  obtain ⟨worst, hworst⟩ :=
    Reduce.exists_reduce MeterWindow.worse hne
  obtain ⟨hmem, hlive, hknown, -⟩ := MeterWindow.mem_fresh.mp
    (Reduce.mem_of_reduce MeterWindow.worse_eq_or hworst)
  obtain ⟨position, hposition, hexhausted⟩ :=
    quotaPositionFrom_eq_some hlive hknown
  refine ⟨position, ?_, ?_⟩
  · rw [meterQuotaPosition_of_empty h, hworst]
    exact hposition
  · rw [hexhausted, beq_eq_false_iff_ne]
    intro hspent
    exact Set.eq_empty_iff_forall_notMem.mp h worst.resetsAt
      ⟨hlive, worst, hmem, hspent, rfl⟩

theorem meterQuotaPosition_none (h : bindingDates windows now = ∅)
    (hseen : ¬ SeenHealthy windows now horizonMs) :
    meterQuotaPosition windows now horizonMs = none := by
  have hnil : (windows.filter (MeterWindow.isLive now)).filter
      (MeterWindow.isFresh now horizonMs) = [] := by
    rw [List.eq_nil_iff_forall_not_mem]
    intro window hmem
    exact hseen ⟨window, MeterWindow.mem_fresh.mp hmem⟩
  rw [meterQuotaPosition_of_empty h, hnil]
  rfl

end Meter

end Opifex
