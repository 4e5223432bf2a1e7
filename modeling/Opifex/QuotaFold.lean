import Opifex.QuotaRecord

/-!
# The row of a window over many batches

Within a batch the latest sighting of a window wins, whatever order the lines
came in. Across batches the last call wins: the upsert writes the reading and
the instant of its own batch over what is stored, and never moves the first
instant back. So the row is the fold of all the sightings **exactly if the
last batch that saw the window holds the latest sighting, and the first one
the earliest** (`fold_iff`). The peak and the count are right either way.
-/

namespace Opifex

open Instant (IsDate)
open Reduce (reduce later)

/-- How bad a reading is. -/
def QuotaPressure.severity (pressure : QuotaPressure) : ℕ :=
  quotaPressureOrder.idxOf pressure

theorem severity_worse (a b : QuotaPressure) :
    (worsePressure a b).severity = max a.severity b.severity := by
  unfold worsePressure
  split_ifs with h
  · exact (max_eq_right (le_of_lt h)).symm
  · exact (max_eq_left (not_lt.mp h)).symm

section Bounds

variable {α ι : Type*} {f : α → ι} {l m : List α}

/-- The values of a list of elements. -/
def valuesOf (f : α → ι) (l : List α) : Set ι := {i | ∃ a ∈ l, f a = i}

theorem valuesOf_append : valuesOf f (l ++ m) = valuesOf f l ∪ valuesOf f m := by
  ext i
  constructor
  · rintro ⟨a, ha, rfl⟩
    exact (List.mem_append.mp ha).imp (fun h => ⟨a, h, rfl⟩)
      fun h => ⟨a, h, rfl⟩
  · rintro (⟨a, ha, rfl⟩ | ⟨a, ha, rfl⟩)
    · exact ⟨a, List.mem_append_left _ ha, rfl⟩
    · exact ⟨a, List.mem_append_right _ ha, rfl⟩

theorem valuesOf_singleton {a : α} : valuesOf f [a] = {f a} := by
  ext i
  constructor
  · rintro ⟨b, hb, rfl⟩
    rw [List.mem_singleton.mp hb]
    rfl
  · rintro rfl
    exact ⟨a, List.mem_singleton_self a, rfl⟩

end Bounds

/-! ## One batch -/

section Gather

variable {sightings : List RunnerQuotaObservation} {window : CollapsedWindow}

/-- The peak of a collapsed window is its worst reading. -/
theorem peak_gather
    (h : KeyMap.gather CollapsedWindow.see sightings = some window) :
    IsGreatest (valuesOf (fun sighting => sighting.pressure.severity) sightings)
      window.peakPressure.severity := by
  induction sightings using List.reverseRecOn generalizing window with
  | nil => cases h
  | append_singleton sightings sighting ih =>
    rw [KeyMap.gather_concat] at h
    rw [← Option.some.inj h, valuesOf_append, valuesOf_singleton]
    cases hseen : KeyMap.gather CollapsedWindow.see sightings with
    | none =>
      rw [gather_eq_none.mp hseen]
      refine ⟨Or.inr rfl, ?_⟩
      rintro i (⟨a, ha, -⟩ | rfl)
      · exact absurd ha List.not_mem_nil
      · exact le_rfl
    | some seen =>
      have hpeak : (CollapsedWindow.see (some seen) sighting).peakPressure
          = worsePressure seen.peakPressure sighting.pressure := rfl
      rw [hpeak, severity_worse]
      exact (ih hseen).union isGreatest_singleton

/-- The first instant of a collapsed window is its earliest. -/
theorem first_gather
    (h : KeyMap.gather CollapsedWindow.see sightings = some window) :
    IsLeast (valuesOf RunnerQuotaObservation.observedAt sightings)
      window.firstObservedAt := by
  induction sightings using List.reverseRecOn generalizing window with
  | nil => cases h
  | append_singleton sightings sighting ih =>
    rw [KeyMap.gather_concat] at h
    rw [← Option.some.inj h, valuesOf_append, valuesOf_singleton]
    cases hseen : KeyMap.gather CollapsedWindow.see sightings with
    | none =>
      rw [gather_eq_none.mp hseen]
      refine ⟨Or.inr rfl, ?_⟩
      rintro i (⟨a, ha, -⟩ | rfl)
      · exact absurd ha List.not_mem_nil
      · exact le_rfl
    | some seen =>
      have hfirst : (CollapsedWindow.see (some seen) sighting).firstObservedAt
          = min seen.firstObservedAt sighting.observedAt := by
        show (if sighting.observedAt < seen.firstObservedAt then _ else _) = _
        split_ifs with hearlier
        · exact (min_eq_right (le_of_lt hearlier)).symm
        · exact (min_eq_left (not_lt.mp hearlier)).symm
      rw [hfirst]
      exact (ih hseen).union isLeast_singleton

end Gather

/-! ## Many batches -/

/-- Record one batch after another. -/
def QuotaWindows.recordAll (registered : List RunnerKey)
    (batches : List (List RunnerQuotaObservation)) (windows : QuotaWindows) :
    QuotaWindows :=
  batches.foldl (fun windows batch => (windows.record registered batch).2)
    windows

/-- What the batches saw of one window, without the batches that saw
nothing. -/
def sightingsOf (key : RunnerKey) (kind : String) (resetsAt : Instant)
    (batches : List (List RunnerQuotaObservation)) :
    List (List RunnerQuotaObservation) :=
  (batches.map fun batch => batch.filter (·.isOf key.val kind resetsAt)).filter
    (!·.isEmpty)

/-- **The row is the fold of the sightings**: the latest reading and instant,
the worst reading, the earliest instant, and how many there were. -/
structure QuotaWindow.Folds (sightings : List RunnerQuotaObservation)
    (row : QuotaWindow) : Prop where
  latest : ∃ newest ∈ sightings,
    (∀ sighting ∈ sightings, sighting.observedAt ≤ newest.observedAt)
      ∧ row.lastObservedAt = newest.observedAt
      ∧ row.pressure = newest.pressure
  peak : IsGreatest
    (valuesOf (fun sighting => sighting.pressure.severity) sightings)
    row.peakPressure.severity
  earliest : IsLeast (valuesOf RunnerQuotaObservation.observedAt sightings)
    row.firstObservedAt
  counted : row.observations = sightings.length

/-- What the row is, in terms of the batches that saw the window: the last reading, the
worst, the first time and the last, and how many there were. -/
structure RowOf (seen : List (List RunnerQuotaObservation))
    (row : QuotaWindow) : Prop where
  last : ∃ batch newest, seen.getLast? = some batch
    ∧ reduce (later RunnerQuotaObservation.observedAt) batch = some newest
    ∧ row.lastObservedAt = newest.observedAt ∧ row.pressure = newest.pressure
  peak : IsGreatest
    (valuesOf (fun sighting => sighting.pressure.severity) seen.flatten)
    row.peakPressure.severity
  first : ∃ batch, seen.head? = some batch
    ∧ IsLeast (valuesOf RunnerQuotaObservation.observedAt batch)
        row.firstObservedAt
  counted : row.observations = seen.flatten.length

section Batches

variable {registered : List RunnerKey} {key : RunnerKey} {kind : String}
  {resetsAt : Instant} {batches : List (List RunnerQuotaObservation)}
  {windows : QuotaWindows}

/-- One more batch that saw the window. -/
theorem rowOf_upsert {seen : List (List RunnerQuotaObservation)}
    {batch : List RunnerQuotaObservation} {window : CollapsedWindow}
    {stored : Option QuotaWindow}
    (hstored : ∀ row ∈ stored, RowOf seen row)
    (hnone : stored = none → seen = [])
    (h : KeyMap.gather CollapsedWindow.see batch = some window) :
    RowOf (seen ++ [batch]) (window.upsert stored) := by
  obtain ⟨hcount, newest, hnewest, hpressure, hlast⟩ := read_gather h
  have hflatten : (seen ++ [batch]).flatten = seen.flatten ++ batch := by
    rw [List.flatten_append, List.flatten_singleton]
  refine ⟨⟨batch, newest, List.getLast?_concat, hnewest, ?_, ?_⟩, ?_, ?_, ?_⟩
  · rw [lastObservedAt_upsert, hlast]
  · rw [pressure_upsert, hpressure]
  · rw [hflatten, valuesOf_append]
    cases stored with
    | none =>
      rw [hnone rfl]
      refine ⟨Or.inr (peak_gather h).1, ?_⟩
      rintro i (⟨a, ha, -⟩ | hi)
      · exact absurd ha List.not_mem_nil
      · exact (peak_gather h).2 hi
    | some row =>
      have hpeak : (window.upsert (some row)).peakPressure
          = worsePressure row.peakPressure window.peakPressure := rfl
      rw [hpeak, severity_worse]
      exact (hstored row rfl).peak.union (peak_gather h)
  · cases stored with
    | none =>
      rw [hnone rfl]
      exact ⟨batch, rfl, first_gather h⟩
    | some row =>
      obtain ⟨first, hfirst, hleast⟩ := (hstored row rfl).first
      refine ⟨first, ?_, hleast⟩
      rw [List.head?_append, hfirst]
      rfl
  · rw [observations_upsert, hcount, hflatten, List.length_append]
    cases stored with
    | none =>
      rw [hnone rfl]
      rfl
    | some row => rw [← (hstored row rfl).counted]; rfl

/-- **The row after any sequence of batches.** -/
theorem rowOf_recordAll (hkey : key ∈ registered) (hdate : IsDate resetsAt)
    (hbatches : ∀ batch ∈ batches, BatchOf key batch)
    (hnew : windows.get (key, kind, resetsAt) = none) :
    (∀ row ∈ (windows.recordAll registered batches).get (key, kind, resetsAt),
        RowOf (sightingsOf key kind resetsAt batches) row)
      ∧ ((windows.recordAll registered batches).get (key, kind, resetsAt) = none
        ↔ sightingsOf key kind resetsAt batches = []) := by
  induction batches using List.reverseRecOn with
  | nil =>
    refine ⟨fun row hrow => ?_, iff_of_true hnew rfl⟩
    rw [show (windows.recordAll registered []).get (key, kind, resetsAt)
      = none from hnew] at hrow
    cases hrow
  | append_singleton batches batch ih =>
    obtain ⟨hrows, hnone⟩ := ih fun other hother =>
      hbatches other (List.mem_append_left _ hother)
    have hbatch : BatchOf key batch :=
      hbatches batch (List.mem_append_right _ List.mem_cons_self)
    have hrecord : windows.recordAll registered (batches ++ [batch])
        = ((windows.recordAll registered batches).record registered batch).2 := by
      rw [QuotaWindows.recordAll, List.foldl_concat]
      rfl
    have hsightings : sightingsOf key kind resetsAt (batches ++ [batch])
        = sightingsOf key kind resetsAt batches ++
          [batch.filter (·.isOf key.val kind resetsAt)].filter
            (!·.isEmpty) := by
      rw [sightingsOf, List.map_append, List.filter_append]
      rfl
    rw [hrecord, get_record hkey hbatch hdate, hsightings]
    cases hgather : KeyMap.gather CollapsedWindow.see
        (batch.filter (·.isOf key.val kind resetsAt)) with
    | none =>
      rw [gather_eq_none.mp hgather]
      rw [show [([] : List RunnerQuotaObservation)].filter (!·.isEmpty) = []
        from rfl, List.append_nil]
      exact ⟨hrows, hnone⟩
    | some window =>
      have hsaw : batch.filter (·.isOf key.val kind resetsAt) ≠ [] := by
        intro hnil
        rw [gather_eq_none.mpr hnil] at hgather
        cases hgather
      rw [List.filter_cons_of_pos (by simpa using hsaw), List.filter_nil]
      refine ⟨fun row hrow => ?_, iff_of_false (Option.some_ne_none _)
        (List.append_ne_nil_of_right_ne_nil _ (List.cons_ne_nil _ _))⟩
      rw [← Option.some.inj hrow]
      exact rowOf_upsert hrows hnone.mp hgather

/-- The batches come in order as far as a window's row can tell: the last of
them holds a latest sighting, and the first an earliest one. -/
structure InOrder (seen : List (List RunnerQuotaObservation)) : Prop where
  last : ∃ batch newest, seen.getLast? = some batch ∧ newest ∈ batch
    ∧ ∀ sighting ∈ seen.flatten, sighting.observedAt ≤ newest.observedAt
  first : ∃ batch earliest, seen.head? = some batch ∧ earliest ∈ batch
    ∧ ∀ sighting ∈ seen.flatten, earliest.observedAt ≤ sighting.observedAt

theorem folds_iff_inOrder {seen : List (List RunnerQuotaObservation)}
    {row : QuotaWindow} (h : RowOf seen row) :
    row.Folds seen.flatten ↔ InOrder seen := by
  obtain ⟨last, newest, hlastBatch, hnewest, hlast, hpressure⟩ := h.last
  obtain ⟨first, hfirstBatch, hleast⟩ := h.first
  have hnewestMem : newest ∈ last :=
    Reduce.mem_of_reduce (fun _ _ => Reduce.later_eq_or) hnewest
  have hgreatest := Reduce.isGreatest_reduce hnewest
  have hinLast : ∀ sighting ∈ last, sighting ∈ seen.flatten :=
    fun sighting hmem => List.mem_flatten.mpr
      ⟨last, List.mem_of_getLast? hlastBatch, hmem⟩
  have hinFirst : ∀ sighting ∈ first, sighting ∈ seen.flatten :=
    fun sighting hmem => List.mem_flatten.mpr
      ⟨first, List.mem_of_head? hfirstBatch, hmem⟩
  constructor
  · rintro ⟨⟨latest, -, hall, hlatest, -⟩, -, hearliest, -⟩
    refine ⟨⟨last, newest, hlastBatch, hnewestMem, fun sighting hmem => ?_⟩, ?_⟩
    · rw [← hlast, hlatest]
      exact hall sighting hmem
    · obtain ⟨earliest, hmem, hvalue⟩ := hleast.1
      refine ⟨first, earliest, hfirstBatch, hmem, fun sighting hsighting => ?_⟩
      rw [hvalue]
      exact hearliest.2 ⟨sighting, hsighting, rfl⟩
  · rintro ⟨⟨batch, latest, hbatch, hlatest, hall⟩,
      ⟨batch', earliest, hbatch', hearliest, hallEarliest⟩⟩
    obtain rfl := Option.some.inj (hlastBatch.symm.trans hbatch)
    obtain rfl := Option.some.inj (hfirstBatch.symm.trans hbatch')
    have hle : latest.observedAt ≤ newest.observedAt :=
      hgreatest.2 ⟨latest, hlatest, rfl⟩
    refine ⟨⟨newest, hinLast newest hnewestMem, fun sighting hmem => ?_, hlast,
      hpressure⟩, h.peak, ?_, h.counted⟩
    · exact le_trans (hall sighting hmem) hle
    · obtain ⟨least, hleastMem, hvalue⟩ := hleast.1
      refine ⟨⟨least, hinFirst least hleastMem, hvalue⟩, ?_⟩
      rintro i ⟨sighting, hsighting, rfl⟩
      exact le_trans (hleast.2 ⟨earliest, hearliest, rfl⟩)
        (hallEarliest sighting hsighting)

/-- **A window's row is a fold of its sightings** exactly if its batches come
in order. -/
theorem fold_iff (hkey : key ∈ registered) (hdate : IsDate resetsAt)
    (hbatches : ∀ batch ∈ batches, BatchOf key batch)
    (hnew : windows.get (key, kind, resetsAt) = none)
    (hseen : sightingsOf key kind resetsAt batches ≠ []) :
    (∃ row, (windows.recordAll registered batches).get (key, kind, resetsAt)
        = some row
      ∧ row.Folds (sightingsOf key kind resetsAt batches).flatten)
      ↔ InOrder (sightingsOf key kind resetsAt batches) := by
  obtain ⟨hrows, hnone⟩ := rowOf_recordAll hkey hdate hbatches hnew
  obtain ⟨row, hrow⟩ :=
    Option.ne_none_iff_exists'.mp (mt hnone.mp hseen)
  rw [← folds_iff_inOrder (hrows row hrow)]
  constructor
  · rintro ⟨other, hother, hfolds⟩
    rw [Option.some.inj (hrow.symm.trans hother)]
    exact hfolds
  · exact fun hfolds => ⟨row, hrow, hfolds⟩

end Batches

/-! ## Two runs of one runner -/

/-- A reading of the five hour window. -/
def reading (pressure : QuotaPressure) (observedAt : Instant) :
    RunnerQuotaObservation where
  runnerKey := localKey.val
  kind := "five_hour"
  resetsAt := 1785672000000
  pressure := pressure
  observedAt := observedAt

/-- The run that is polled first saw the window used up, a second after the
other saw room in it. -/
def drainedTogether : List (List RunnerQuotaObservation) :=
  [[reading .exhausted 2000], [reading .allowed 1000]]

theorem batchOf_drainedTogether :
    ∀ batch ∈ drainedTogether, BatchOf localKey batch := by
  have hreading : ∀ pressure observedAt,
      BatchOf localKey [reading pressure observedAt] := by
    intro pressure observedAt sighting hsighting
    rw [List.mem_singleton.mp hsighting]
    have hdate : IsDate 1785672000000 := by constructor <;> decide
    exact ⟨Or.inl rfl, hdate⟩
  intro batch hbatch
  obtain rfl | hbatch := List.mem_cons.mp hbatch
  · exact hreading _ _
  · rw [List.mem_singleton.mp hbatch]
    exact hreading _ _

theorem fold_iff_drainedTogether :
    (∃ row, (QuotaWindows.recordAll [localKey] drainedTogether
        KeyMap.empty).get (localKey, "five_hour", 1785672000000) = some row
      ∧ row.Folds
        (sightingsOf localKey "five_hour" 1785672000000
          drainedTogether).flatten)
      ↔ InOrder (sightingsOf localKey "five_hour" 1785672000000
          drainedTogether) :=
  fold_iff List.mem_cons_self (by constructor <;> decide)
    batchOf_drainedTogether rfl (by decide)

/-- **The older reading wins**: the window is used up, and its row says that
there is room. -/
theorem older_reading_wins :
    ¬ ∀ (registered : List RunnerKey) (key : RunnerKey) (kind : String)
      (resetsAt : Instant) (batches : List (List RunnerQuotaObservation))
      (windows : QuotaWindows), key ∈ registered → IsDate resetsAt →
        (∀ batch ∈ batches, BatchOf key batch) →
          windows.get (key, kind, resetsAt) = none →
            ((sightingsOf key kind resetsAt batches).flatten.map
              (·.observedAt)).Nodup →
              sightingsOf key kind resetsAt batches ≠ [] →
                ∃ row, (windows.recordAll registered batches).get
                    (key, kind, resetsAt) = some row
                  ∧ row.Folds (sightingsOf key kind resetsAt batches).flatten := by
  intro h
  obtain ⟨row, hrow, hfolds⟩ := h [localKey] localKey "five_hour" 1785672000000
    drainedTogether KeyMap.empty List.mem_cons_self
    (by constructor <;> decide) batchOf_drainedTogether rfl (by decide)
    (by decide)
  obtain ⟨newest, -, hall, hlast, -⟩ := hfolds.latest
  have hstored : ((QuotaWindows.recordAll [localKey] drainedTogether
      KeyMap.empty).get (localKey, "five_hour", 1785672000000)).map
        (·.lastObservedAt) = some 1000 := by
    decide
  rw [hrow, Option.map_some, hlast] at hstored
  have hsecond : (2000 : Instant) ≤ newest.observedAt :=
    hall (reading .exhausted 2000) (by decide)
  rw [Option.some.inj hstored] at hsecond
  exact absurd hsecond (by decide)

end Opifex
