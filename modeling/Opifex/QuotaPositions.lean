import Mathlib.Data.Set.Finite.Lemmas
import Opifex.Lib.Grouping
import Opifex.Lib.InstantOrder
import Opifex.QuotaWindow
import Opifex.Watchdog

/-!
# The one quota position of a runner

Two signals speak about a runner's quota: its runs that are blocked on a dated
quota reason, and its own meter. Each is folded over the rows of all runners
and looked up under one, and the two are resolved into a single position in
which exhaustion wins and the later date governs.

The later date is taken from the *texts* of the two dates. So the position is
what its two signals say, in whatever order the rows come, **exactly as long as
the two latest dates are spelled alike** (`quota_position_iff`).
-/

namespace Opifex

open Preference (rank)
open Reduce (reduce later)
open Instant (IsDate SpelledAlike)

/-- The block reasons that say something about quota. -/
def quotaBlockReasons : List BlockedReason := [.rateLimit, .quotaExhausted]

/-- A blocked run, with its newest block event, as the resolver selects it. -/
structure BlockedRunRow where
  runnerKey : RunnerKey
  resumesAt : Option Instant
  events : List BlockEvent
deriving DecidableEq

/-- A `quota_windows` row: a metered window of a runner, with the runner it is of. -/
structure MeterWindowRow extends MeterWindow where
  runnerKey : RunnerKey
deriving DecidableEq

/-! ## The rows -/

/-- What routing selects of a blocked run. -/
def WatchedRun.blockedRow (watched : WatchedRun) : BlockedRunRow where
  runnerKey := watched.record.run.runnerKey
  resumesAt := watched.record.run.resumesAt
  events := (newestBlock watched.record.events).toList.map fun event =>
    ⟨event.occurredAt, event.blockedReason, event.blockedUntil⟩

/-- Every currently-blocked run, with the block its runner last reported. -/
def loadQuotaBlocks (table : Table WatchedRun) : List BlockedRunRow :=
  (table.rows.filter WatchedRun.isBlocked).map WatchedRun.blockedRow

/-- Every window observed that has not yet rolled. -/
def loadQuotaMeter (windows : List MeterWindowRow) (now : Instant) :
    List MeterWindowRow :=
  windows.filter fun window => decide (now < window.resetsAt)

/-! ## Blocked runs -/

namespace BlockedRunRow

/-- The reason of the newest block, if it is about quota. -/
def quotaReason (run : BlockedRunRow) : Option String :=
  (run.events.head?.bind (·.blockedReason)).filter fun reason =>
    Text.truthy reason &&
      (quotaBlockReasons.map BlockedReason.name).contains reason

/-- When the vendor said the window rolls, and when the watchdog will retry. -/
def dates (run : BlockedRunRow) : List Instant :=
  [run.events.head?.bind (·.blockedUntil), run.resumesAt].filterMap id

end BlockedRunRow

/-- Routing dates a block by the reset and the plan that the watchdog sees. -/
theorem WatchedRun.dates_blockedRow (watched : WatchedRun) :
    watched.blockedRow.dates
      = [watched.blockedState.resetAt, watched.blockedState.resumesAt].filterMap
          id := by
  unfold BlockedRunRow.dates blockedRow blockedState
  cases newestBlock watched.record.events <;> rfl

/-- What a blocked run says about its runner: that it is out of quota, why, and until
when. -/
structure QuotaBlock where
  runnerKey : RunnerKey
  reason : String
  untilDate : Instant
deriving DecidableEq

/-- The run's block, unless the loop skips the run: it is about quota, dated,
and has not lifted. -/
def BlockedRunRow.quotaBlock (now : Instant) (run : BlockedRunRow) :
    Option QuotaBlock :=
  match run.quotaReason with
  | none => none
  | some reason =>
    match reduce (later id) run.dates with
    | none => none
    | some untilDate =>
      if untilDate ≤ now then none else some ⟨run.runnerKey, reason, untilDate⟩

/-- What was seen of one runner so far: the latest date, the reasons, and how many runs
gave one. -/
structure SeenBlocks where
  untilDate : Instant
  reasons : List String
  runs : ℕ
deriving DecidableEq

/-- One more block of the runner. -/
def SeenBlocks.add (seen : Option SeenBlocks) (block : QuotaBlock) :
    SeenBlocks :=
  match seen with
  | none => ⟨block.untilDate, [block.reason], 1⟩
  | some seen =>
    { untilDate :=
        if seen.untilDate < block.untilDate then block.untilDate else seen.untilDate
      reasons :=
        if seen.reasons.contains block.reason then seen.reasons
        else seen.reasons ++ [block.reason]
      runs := seen.runs + 1 }

/-- The position of a runner with blocked runs. -/
def SeenBlocks.position (seen : SeenBlocks) : RunnerQuotaPosition where
  exhausted := true
  resumesAt := some seen.untilDate.toISOString
  basis := toString seen.runs ++ " run(s) on this runner are blocked on '" ++
    "', '".intercalate (rank Text.compareUnits seen.reasons) ++
    "' with a reset time"

/-- **Turn blocked runs into one quota position per runner**, resolved against
now. -/
def quotaPositions (blocked : List BlockedRunRow) (now : Instant) :
    KeyMap RunnerKey RunnerQuotaPosition :=
  (KeyMap.group QuotaBlock.runnerKey SeenBlocks.add
    (blocked.filterMap (BlockedRunRow.quotaBlock now))).filterMap
      fun seen => some seen.position

/-! ## The meter -/

/-- The meter's windows, collapsed to one position per runner. -/
def meterPositions (windows : List MeterWindowRow) (now : Instant) :
    KeyMap RunnerKey RunnerQuotaPosition :=
  (KeyMap.group MeterWindowRow.runnerKey
    (fun seen window => seen.getD [] ++ [window.toMeterWindow])
    windows).filterMap fun windows =>
      meterQuotaPosition windows now quotaMeterHealthHorizonMs

/-! ## Both signals -/

/-- The same position, with its producer named in the basis. -/
def sourced (source : String) (position : RunnerQuotaPosition) :
    RunnerQuotaPosition :=
  { position with basis := source ++ ": " ++ position.basis }

/-- The later of two ISO instants, either of which may be missing: the texts
are compared. -/
def laterOf : Option String → Option String → Option String
  | none, b => b
  | some a, none => some a
  | some a, some b => some (if Text.compareUnits a b = .gt then a else b)

/-- **The one quota position**, resolved from the two signals that can produce
one. -/
def resolveQuotaPosition (derived meter : Option RunnerQuotaPosition) :
    Option RunnerQuotaPosition :=
  match derived, meter with
  | none, meter => meter.map (sourced "meter")
  | some derived, none => some (sourced "blocked runs" derived)
  | some derived, some meter =>
    if derived.exhausted && meter.exhausted then
      some
        { exhausted := true
          resumesAt := laterOf derived.resumesAt meter.resumesAt
          basis := "blocked runs and the runner's own meter agree — " ++
            "blocked runs: " ++ derived.basis ++ "; meter: " ++ meter.basis }
    else if derived.exhausted != meter.exhausted then
      some
        { exhausted := true
          resumesAt :=
            if derived.exhausted then derived.resumesAt else meter.resumesAt
          basis := "blocked runs and the runner's own meter DISAGREE, and " ++
            "the exhausted reading is taken — blocked runs: " ++
            derived.basis ++ "; meter: " ++ meter.basis }
    else some (sourced "meter" meter)

/-- What `loadPool` resolves for one runner. -/
def resolveQuota (blocked : List BlockedRunRow) (windows : List MeterWindowRow)
    (now : Instant) (key : RunnerKey) : Option RunnerQuotaPosition :=
  resolveQuotaPosition ((quotaPositions blocked now).get key)
    ((meterPositions windows now).get key)

/-! ## What the rows say -/

/-- The run is blocked for quota, and the later of its dates is `t`. -/
def BlockedRunRow.LiftsAt (run : BlockedRunRow) (t : Instant) : Prop :=
  run.quotaReason.isSome ∧ IsGreatest {date | date ∈ run.dates} t

/-- The dates of the runner's quota blocks that have not lifted. -/
def blockDates (blocked : List BlockedRunRow) (now : Instant)
    (key : RunnerKey) : Set Instant :=
  {t | now < t ∧ ∃ run ∈ blocked, run.runnerKey = key ∧ run.LiftsAt t}

/-- The dates of the runner's exhausted windows that have not rolled. -/
def windowDates (windows : List MeterWindowRow) (now : Instant)
    (key : RunnerKey) : Set Instant :=
  {t | now < t ∧ ∃ window ∈ windows, window.runnerKey = key ∧
    window.pressure = .exhausted ∧ window.resetsAt = t}

/-- Some window of the runner that has not rolled was seen, within the health
horizon, at a pressure that is known. -/
def SeenUsable (windows : List MeterWindowRow) (now : Instant)
    (key : RunnerKey) : Prop :=
  ∃ window ∈ windows, window.runnerKey = key ∧ now < window.resetsAt ∧
    window.pressure ≠ .unknown ∧
    now - window.lastObservedAt ≤ quotaMeterHealthHorizonMs

section Blocks

variable {now : Instant} {run : BlockedRunRow} {block : QuotaBlock}
  {blocked : List BlockedRunRow} {blocks : List QuotaBlock} {key : RunnerKey}

theorem BlockedRunRow.quotaBlock_eq_some :
    run.quotaBlock now = some block ↔
      run.quotaReason = some block.reason ∧ run.runnerKey = block.runnerKey ∧
        run.LiftsAt block.untilDate ∧ now < block.untilDate := by
  unfold quotaBlock LiftsAt
  cases hreason : run.quotaReason with
  | none => exact iff_of_false (by simp) (by simp)
  | some reason =>
    cases hlatest : reduce (later id) run.dates with
    | none =>
      refine iff_of_false (by simp) ?_
      rintro ⟨-, -, ⟨-, hgreatest⟩, -⟩
      rw [Reduce.reduce_eq_none] at hlatest
      rw [hlatest] at hgreatest
      exact List.not_mem_nil hgreatest.1
    | some latest =>
      have hgreatest : IsGreatest {date | date ∈ run.dates} latest := by
        have h := Reduce.isGreatest_reduce hlatest
        simpa using h
      dsimp only
      constructor
      · intro h
        split at h
        · cases h
        · rename_i hlifted
          rw [← Option.some.inj h]
          exact ⟨rfl, rfl, ⟨rfl, hgreatest⟩, not_le.mp hlifted⟩
      · rintro ⟨hsame, hkey, ⟨-, hlifts⟩, hafter⟩
        have hlatest : latest = block.untilDate := hgreatest.unique hlifts
        rw [hlatest, if_neg (not_le.mpr hafter), hkey, Option.some.inj hsame]

/-- The blocks the loop keeps for a runner carry the dates of its runs. -/
theorem blockDates_eq :
    blockDates blocked now key
      = {t | ∃ block ∈ (blocked.filterMap (BlockedRunRow.quotaBlock now)).filter
          (fun block => block.runnerKey == key), block.untilDate = t} := by
  ext t
  constructor
  · rintro ⟨hafter, run, hrun, hkey, hlifts⟩
    obtain ⟨reason, hreason⟩ := Option.isSome_iff_exists.mp hlifts.1
    refine ⟨⟨run.runnerKey, reason, t⟩, ?_, rfl⟩
    rw [List.mem_filter, List.mem_filterMap]
    refine ⟨⟨run, hrun, ?_⟩, beq_iff_eq.mpr hkey⟩
    rw [BlockedRunRow.quotaBlock_eq_some]
    exact ⟨hreason, rfl, hlifts, hafter⟩
  · rintro ⟨block, hblock, rfl⟩
    obtain ⟨hblock, hkey⟩ := List.mem_filter.mp hblock
    obtain ⟨run, hrun, hsome⟩ := List.mem_filterMap.mp hblock
    obtain ⟨-, hrunner, hlifts, hafter⟩ :=
      BlockedRunRow.quotaBlock_eq_some.mp hsome
    exact ⟨hafter, run, hrun, hrunner.trans (beq_iff_eq.mp hkey), hlifts⟩

theorem SeenBlocks.untilDate_add {seen : SeenBlocks} :
    (add (some seen) block).untilDate
      = max block.untilDate seen.untilDate := by
  show (if _ then _ else _) = _
  split
  · rw [max_eq_left (by assumption : seen.untilDate < block.untilDate).le]
  · rw [max_eq_right (not_lt.mp (by assumption))]

/-- **The latest of the blocks dates the position.** -/
theorem gather_blocks (h : blocks ≠ []) :
    ∃ seen, KeyMap.gather SeenBlocks.add blocks = some seen ∧
      IsGreatest {t | ∃ block ∈ blocks, block.untilDate = t} seen.untilDate := by
  induction blocks using List.reverseRecOn with
  | nil => exact absurd rfl h
  | append_singleton blocks block ih =>
    have hinsert : {t | ∃ b ∈ blocks ++ [block], b.untilDate = t}
        = insert block.untilDate {t | ∃ b ∈ blocks, b.untilDate = t} := by
      ext t
      simp only [List.mem_append, List.mem_singleton, or_and_right, exists_or,
        exists_eq_left, Set.mem_insert_iff, Set.mem_ofPred_eq, eq_comm (a := t)]
      exact or_comm
    refine ⟨_, KeyMap.gather_concat, ?_⟩
    rw [hinsert]
    by_cases hnil : blocks = []
    · subst hnil
      show IsGreatest _ block.untilDate
      simp
    · obtain ⟨seen, hseen, hgreatest⟩ := ih hnil
      rw [hseen, SeenBlocks.untilDate_add]
      exact hgreatest.insert _

theorem get_quotaPositions_none (h : blockDates blocked now key = ∅) :
    (quotaPositions blocked now).get key = none := by
  have hnil : (blocked.filterMap (BlockedRunRow.quotaBlock now)).filter
      (fun block => block.runnerKey == key) = [] := by
    rw [List.eq_nil_iff_forall_not_mem]
    intro block hmem
    rw [blockDates_eq] at h
    exact Set.eq_empty_iff_forall_notMem.mp h block.untilDate
      ⟨block, hmem, rfl⟩
  rw [quotaPositions, KeyMap.get_filterMap, KeyMap.get_group, hnil]
  rfl

theorem get_quotaPositions_some (h : (blockDates blocked now key).Nonempty) :
    ∃ position t, (quotaPositions blocked now).get key = some position ∧
      position.exhausted = true ∧ IsGreatest (blockDates blocked now key) t ∧
      position.resumesAt = some t.toISOString := by
  rw [blockDates_eq] at h
  obtain ⟨t, block, hmem, -⟩ := h
  obtain ⟨seen, hseen, hgreatest⟩ := gather_blocks (List.ne_nil_of_mem hmem)
  rw [← blockDates_eq] at hgreatest
  refine ⟨seen.position, seen.untilDate, ?_, rfl, hgreatest, rfl⟩
  rw [quotaPositions, KeyMap.get_filterMap, KeyMap.get_group, hseen]
  rfl

end Blocks

section Windows

variable {now : Instant} {windows : List MeterWindowRow} {key : RunnerKey}

theorem gather_windows (h : windows ≠ []) :
    KeyMap.gather (fun seen window => seen.getD [] ++ [window.toMeterWindow])
        windows
      = some (windows.map MeterWindowRow.toMeterWindow) := by
  induction windows using List.reverseRecOn with
  | nil => exact absurd rfl h
  | append_singleton windows window ih =>
    rw [KeyMap.gather_concat, List.map_append]
    by_cases hnil : windows = []
    · rw [hnil]
      rfl
    · rw [ih hnil]
      rfl

/-- The meter says of a runner what it says of its windows alone. -/
theorem get_meterPositions :
    (meterPositions windows now).get key
      = meterQuotaPosition ((windows.filter fun window =>
          window.runnerKey == key).map MeterWindowRow.toMeterWindow) now
          quotaMeterHealthHorizonMs := by
  rw [meterPositions, KeyMap.get_filterMap, KeyMap.get_group]
  by_cases hnil : (windows.filter fun window => window.runnerKey == key) = []
  · rw [hnil]
    rfl
  · rw [gather_windows hnil]
    rfl

/-- The query leaves out only windows that say nothing. -/
theorem resolveQuota_loadQuotaMeter (blocked : List BlockedRunRow) :
    resolveQuota blocked (loadQuotaMeter windows now) now key
      = resolveQuota blocked windows now key := by
  have hlive : (((loadQuotaMeter windows now).filter fun window =>
        window.runnerKey == key).map MeterWindowRow.toMeterWindow).filter
          (MeterWindow.isLive now)
      = ((windows.filter fun window =>
        window.runnerKey == key).map MeterWindowRow.toMeterWindow).filter
          (MeterWindow.isLive now) := by
    rw [List.filter_map, List.filter_map, loadQuotaMeter, List.filter_filter,
      List.filter_filter, List.filter_filter]
    refine congrArg (List.map _) (List.filter_congr fun window _ => ?_)
    rw [Function.comp_apply, MeterWindow.isLive]
    cases decide (now < window.resetsAt) <;> simp
  unfold resolveQuota
  rw [get_meterPositions, get_meterPositions]
  unfold meterQuotaPosition
  dsimp only
  rw [hlive]

/-- The windows the meter is given are those of the runner. -/
theorem exists_window {p : MeterWindow → Prop} :
    (∃ window ∈ (windows.filter fun window =>
        window.runnerKey == key).map MeterWindowRow.toMeterWindow, p window) ↔
      ∃ window ∈ windows, window.runnerKey = key ∧ p window.toMeterWindow := by
  constructor
  · rintro ⟨window, hmem, hp⟩
    obtain ⟨row, hrow, rfl⟩ := List.mem_map.mp hmem
    obtain ⟨hrow, hkey⟩ := List.mem_filter.mp hrow
    exact ⟨row, hrow, beq_iff_eq.mp hkey, hp⟩
  · rintro ⟨row, hrow, hkey, hp⟩
    exact ⟨row.toMeterWindow, List.mem_map_of_mem
      (List.mem_filter.mpr ⟨hrow, beq_iff_eq.mpr hkey⟩), hp⟩

theorem windowDates_eq :
    windowDates windows now key
      = MeterWindow.bindingDates ((windows.filter fun window =>
          window.runnerKey == key).map MeterWindowRow.toMeterWindow) now := by
  ext t
  exact and_congr_right fun _ => (exists_window (p := fun window =>
    window.pressure = .exhausted ∧ window.resetsAt = t)).symm

theorem seenUsable_iff :
    SeenUsable windows now key ↔
      MeterWindow.SeenHealthy ((windows.filter fun window =>
          window.runnerKey == key).map MeterWindowRow.toMeterWindow) now
          quotaMeterHealthHorizonMs :=
  (exists_window (p := fun window => now < window.resetsAt ∧
    window.pressure ≠ .unknown ∧
      now - window.lastObservedAt ≤ quotaMeterHealthHorizonMs)).symm

end Windows

/-! ## The position -/

/-- The dates of both signals. -/
def quotaDates (blocked : List BlockedRunRow) (windows : List MeterWindowRow)
    (now : Instant) (key : RunnerKey) : Set Instant :=
  blockDates blocked now key ∪ windowDates windows now key

/-- **One quota position, whatever the sources and their order**: a runner is exhausted
where some source gives a date that is still to come, and until the latest of these. -/
structure OneQuotaPosition (blocked : List BlockedRunRow)
    (windows : List MeterWindowRow) (now : Instant) (key : RunnerKey) :
    Prop where
  exhausted : (∃ position, resolveQuota blocked windows now key = some position ∧
      position.exhausted = true) ↔ (quotaDates blocked windows now key).Nonempty
  resumesAt : ∀ position, resolveQuota blocked windows now key = some position →
    position.exhausted = true →
      ∃ t, IsGreatest (quotaDates blocked windows now key) t ∧
        position.resumesAt = some t.toISOString
  healthy : (∃ position, resolveQuota blocked windows now key = some position ∧
      position.exhausted = false) ↔
    ¬ (quotaDates blocked windows now key).Nonempty ∧
      SeenUsable windows now key
  absent : resolveQuota blocked windows now key = none ↔
    ¬ (quotaDates blocked windows now key).Nonempty ∧
      ¬ SeenUsable windows now key
  /-- The flag, and the date of an exhausted position, forget the order. -/
  unordered : ∀ blocked' windows', blocked.Perm blocked' →
    windows.Perm windows' →
      (resolveQuota blocked' windows' now key).map (·.exhausted)
          = (resolveQuota blocked windows now key).map (·.exhausted) ∧
        ∀ position position',
          resolveQuota blocked windows now key = some position →
          resolveQuota blocked' windows' now key = some position' →
          position.exhausted = true → position'.resumesAt = position.resumesAt

section Position

variable {blocked blocked' : List BlockedRunRow}
  {windows windows' : List MeterWindowRow} {now : Instant} {key : RunnerKey}

/-- The text of the later date, as `laterOf` finds it. -/
def laterText (a b : Instant) : String :=
  if Text.compareUnits a.toISOString b.toISOString = .gt then a.toISOString
  else b.toISOString

/-- What the resolved position is, given the dates of the two signals and
whether the meter was seen usable. -/
inductive Resolved (blocks windows : Set Instant) (usable : Prop) :
    Option RunnerQuotaPosition → Prop
  | absent (hblocks : blocks = ∅) (hwindows : windows = ∅)
      (husable : ¬ usable) : Resolved blocks windows usable none
  | healthy (position : RunnerQuotaPosition)
      (hblocks : blocks = ∅) (hwindows : windows = ∅) (husable : usable)
      (hexhausted : position.exhausted = false) :
      Resolved blocks windows usable (some position)
  | blocks (position : RunnerQuotaPosition) (t : Instant)
      (hblocks : IsGreatest blocks t) (hwindows : windows = ∅)
      (hexhausted : position.exhausted = true)
      (hresumes : position.resumesAt = some t.toISOString) :
      Resolved blocks windows usable (some position)
  | meter (position : RunnerQuotaPosition) (t : Instant)
      (hblocks : blocks = ∅) (hwindows : IsGreatest windows t)
      (hexhausted : position.exhausted = true)
      (hresumes : position.resumesAt = some t.toISOString) :
      Resolved blocks windows usable (some position)
  | both (position : RunnerQuotaPosition) (a b : Instant)
      (hblocks : IsGreatest blocks a) (hwindows : IsGreatest windows b)
      (hexhausted : position.exhausted = true)
      (hresumes : position.resumesAt = some (laterText a b)) :
      Resolved blocks windows usable (some position)

theorem resolved (blocked : List BlockedRunRow) (windows : List MeterWindowRow)
    (now : Instant) (key : RunnerKey) :
    Resolved (blockDates blocked now key) (windowDates windows now key)
      (SeenUsable windows now key) (resolveQuota blocked windows now key) := by
  unfold resolveQuota
  rw [get_meterPositions]
  obtain hblocks | hblocks :=
    (blockDates blocked now key).eq_empty_or_nonempty
  · rw [get_quotaPositions_none hblocks]
    obtain hwindows | hwindows :=
      (windowDates windows now key).eq_empty_or_nonempty
    · have hnone := hwindows
      rw [windowDates_eq] at hnone
      by_cases hseen : SeenUsable windows now key
      · obtain ⟨position, hmeter, hexhausted⟩ :=
          meterQuotaPosition_healthy hnone (seenUsable_iff.mp hseen)
        rw [hmeter]
        exact .healthy _ hblocks hwindows hseen hexhausted
      · rw [meterQuotaPosition_none hnone (mt seenUsable_iff.mpr hseen)]
        exact .absent hblocks hwindows hseen
    · rw [windowDates_eq] at hwindows
      obtain ⟨position, t, hmeter, hexhausted, hgreatest, hresumes⟩ :=
        meterQuotaPosition_exhausted hwindows
      rw [← windowDates_eq] at hgreatest
      rw [hmeter]
      exact .meter _ t hblocks hgreatest hexhausted hresumes
  · obtain ⟨derived, a, hderived, hderivedExhausted, ha, hderivedResumes⟩ :=
      get_quotaPositions_some hblocks
    rw [hderived]
    obtain hwindows | hwindows :=
      (windowDates windows now key).eq_empty_or_nonempty
    · have hnone := hwindows
      rw [windowDates_eq] at hnone
      by_cases hseen : SeenUsable windows now key
      · -- the two signals disagree
        obtain ⟨position, hmeter, hexhausted⟩ :=
          meterQuotaPosition_healthy hnone (seenUsable_iff.mp hseen)
        rw [hmeter, resolveQuotaPosition, hderivedExhausted, hexhausted]
        exact .blocks _ a ha hwindows rfl hderivedResumes
      · rw [meterQuotaPosition_none hnone (mt seenUsable_iff.mpr hseen)]
        exact .blocks _ a ha hwindows hderivedExhausted hderivedResumes
    · rw [windowDates_eq] at hwindows
      obtain ⟨position, b, hmeter, hexhausted, hb, hresumes⟩ :=
        meterQuotaPosition_exhausted hwindows
      rw [← windowDates_eq] at hb
      rw [hmeter, resolveQuotaPosition, hderivedExhausted, hexhausted]
      refine .both _ a b ha hb rfl ?_
      show laterOf derived.resumesAt position.resumesAt = _
      rw [hderivedResumes, hresumes]
      rfl

namespace Resolved

variable {blocks windows : Set Instant} {usable : Prop}
  {resolved : Option RunnerQuotaPosition} {position position' : RunnerQuotaPosition}

/-- The position is exhausted as soon as one signal says so. -/
theorem exhausted_iff (h : Resolved blocks windows usable resolved) :
    resolved.map (·.exhausted) = some true ↔ (blocks ∪ windows).Nonempty := by
  rw [Set.union_nonempty]
  cases h with
  | absent hblocks hwindows husable =>
    rw [hblocks, hwindows]
    simp
  | healthy position hblocks hwindows husable hexhausted =>
    rw [hblocks, hwindows]
    simp [hexhausted]
  | blocks position t hblocks hwindows hexhausted hresumes =>
    exact iff_of_true (congrArg some hexhausted) (Or.inl ⟨t, hblocks.1⟩)
  | meter position t hblocks hwindows hexhausted hresumes =>
    exact iff_of_true (congrArg some hexhausted) (Or.inr ⟨t, hwindows.1⟩)
  | both position a b hblocks hwindows hexhausted hresumes =>
    exact iff_of_true (congrArg some hexhausted) (Or.inl ⟨a, hblocks.1⟩)

theorem absent_iff (h : Resolved blocks windows usable resolved) :
    resolved = none ↔ ¬ (blocks ∪ windows).Nonempty ∧ ¬ usable := by
  rw [← h.exhausted_iff]
  cases h with
  | absent hblocks hwindows husable =>
    exact iff_of_true rfl ⟨by simp, husable⟩
  | healthy position hblocks hwindows husable hexhausted =>
    exact iff_of_false (Option.some_ne_none _) fun h => h.2 husable
  | blocks position t hblocks hwindows hexhausted hresumes =>
    exact iff_of_false (Option.some_ne_none _)
      fun h => h.1 (congrArg some hexhausted)
  | meter position t hblocks hwindows hexhausted hresumes =>
    exact iff_of_false (Option.some_ne_none _)
      fun h => h.1 (congrArg some hexhausted)
  | both position a b hblocks hwindows hexhausted hresumes =>
    exact iff_of_false (Option.some_ne_none _)
      fun h => h.1 (congrArg some hexhausted)

theorem healthy_iff (h : Resolved blocks windows usable resolved) :
    resolved.map (·.exhausted) = some false ↔
      ¬ (blocks ∪ windows).Nonempty ∧ usable := by
  have hexhausted := h.exhausted_iff
  have habsent := h.absent_iff
  cases resolved with
  | none =>
    obtain ⟨hempty, husable⟩ := habsent.mp rfl
    exact iff_of_false (by simp) fun h => husable h.2
  | some position =>
    rw [← hexhausted, Option.map_some]
    cases hflag : position.exhausted with
    | true => exact iff_of_false (by simp) fun h => h.1 rfl
    | false =>
      refine iff_of_true rfl ⟨by simp, ?_⟩
      rw [← hexhausted, Option.map_some, hflag] at habsent
      by_contra husable
      exact Option.some_ne_none _ (habsent.mpr ⟨by simp, husable⟩)

/-- The signals determine the flag. -/
theorem exhausted_unique {resolved' : Option RunnerQuotaPosition}
    (h : Resolved blocks windows usable resolved)
    (h' : Resolved blocks windows usable resolved') :
    resolved'.map (·.exhausted) = resolved.map (·.exhausted) := by
  cases hflag : resolved.map (·.exhausted) with
  | none =>
    rw [Option.map_eq_none_iff] at hflag ⊢
    exact h'.absent_iff.mpr (h.absent_iff.mp hflag)
  | some flag =>
    cases flag with
    | true => exact h'.exhausted_iff.mpr (h.exhausted_iff.mp hflag)
    | false => exact h'.healthy_iff.mpr (h.healthy_iff.mp hflag)

/-- The signals determine the date of an exhausted position. -/
theorem resumesAt_unique (h : Resolved blocks windows usable (some position))
    (h' : Resolved blocks windows usable (some position'))
    (hexhausted : position.exhausted = true) :
    position'.resumesAt = position.resumesAt := by
  have hsome : ∀ {dates : Set Instant} {t : Instant}, IsGreatest dates t →
      dates ≠ ∅ := fun h => h.nonempty.ne_empty
  cases h with
  | healthy _ _ _ _ hfalse => exact absurd (hfalse.symm.trans hexhausted) (by decide)
  | blocks _ t hblocks hwindows _ hresumes =>
    cases h' with
    | healthy _ hblocks' _ _ _ => exact absurd hblocks' (hsome hblocks)
    | blocks _ t' hblocks' _ _ hresumes' =>
      rw [hresumes, hresumes', hblocks.unique hblocks']
    | meter _ _ hblocks' _ _ _ => exact absurd hblocks' (hsome hblocks)
    | both _ _ _ _ hwindows' _ _ => exact absurd hwindows (hsome hwindows')
  | meter _ t hblocks hwindows _ hresumes =>
    cases h' with
    | healthy _ _ hwindows' _ _ => exact absurd hwindows' (hsome hwindows)
    | blocks _ _ hblocks' _ _ _ => exact absurd hblocks (hsome hblocks')
    | meter _ t' _ hwindows' _ hresumes' =>
      rw [hresumes, hresumes', hwindows.unique hwindows']
    | both _ _ _ hblocks' _ _ _ => exact absurd hblocks (hsome hblocks')
  | both _ a b hblocks hwindows _ hresumes =>
    cases h' with
    | healthy _ hblocks' _ _ _ => exact absurd hblocks' (hsome hblocks)
    | blocks _ _ _ hwindows' _ _ => exact absurd hwindows' (hsome hwindows)
    | meter _ _ hblocks' _ _ _ => exact absurd hblocks' (hsome hblocks)
    | both _ a' b' hblocks' hwindows' _ hresumes' =>
      rw [hresumes, hresumes', hblocks.unique hblocks',
        hwindows.unique hwindows']

/-- The date of an exhausted position is the latest one, if the two signals'
latest dates are spelled alike. -/
theorem resumesAt_isGreatest
    (h : Resolved blocks windows usable (some position))
    (hexhausted : position.exhausted = true)
    (halike : ∀ a b, IsGreatest blocks a → IsGreatest windows b →
      laterText a b = (max a b).toISOString) :
    ∃ t, IsGreatest (blocks ∪ windows) t ∧
      position.resumesAt = some t.toISOString := by
  cases h with
  | healthy _ _ _ _ hfalse => exact absurd (hfalse.symm.trans hexhausted) (by decide)
  | blocks _ t hblocks hwindows _ hresumes =>
    rw [hwindows, Set.union_empty]
    exact ⟨t, hblocks, hresumes⟩
  | meter _ t hblocks hwindows _ hresumes =>
    rw [hblocks, Set.empty_union]
    exact ⟨t, hwindows, hresumes⟩
  | both _ a b hblocks hwindows _ hresumes =>
    rw [halike a b hblocks hwindows] at hresumes
    exact ⟨max a b, hblocks.union hwindows, hresumes⟩

/-- When both signals are exhausted their texts decide. -/
theorem resumesAt_of_both (h : Resolved blocks windows usable (some position))
    {a b : Instant} (ha : IsGreatest blocks a) (hb : IsGreatest windows b) :
    position.resumesAt = some (laterText a b) := by
  cases h with
  | healthy _ hblocks _ _ _ => exact absurd hblocks ha.nonempty.ne_empty
  | blocks _ _ _ hwindows _ _ => exact absurd hwindows hb.nonempty.ne_empty
  | meter _ _ hblocks _ _ _ => exact absurd hblocks ha.nonempty.ne_empty
  | both _ a' b' hblocks hwindows _ hresumes =>
    rw [hresumes, hblocks.unique ha, hwindows.unique hb]

end Resolved

/-! ## The order of the rows -/

theorem blockDates_perm (h : blocked.Perm blocked') :
    blockDates blocked' now key = blockDates blocked now key := by
  ext t
  simp only [blockDates, h.mem_iff]

theorem windowDates_perm (h : windows.Perm windows') :
    windowDates windows' now key = windowDates windows now key := by
  ext t
  simp only [windowDates, h.mem_iff]

theorem seenUsable_perm (h : windows.Perm windows') :
    SeenUsable windows' now key ↔ SeenUsable windows now key := by
  simp only [SeenUsable, h.mem_iff]

/-- The rows in another order say the same. -/
theorem resolved_perm (hblocked : blocked.Perm blocked')
    (hwindows : windows.Perm windows') :
    Resolved (blockDates blocked now key) (windowDates windows now key)
      (SeenUsable windows now key) (resolveQuota blocked' windows' now key) := by
  rw [← blockDates_perm hblocked, ← windowDates_perm hwindows,
    ← propext (seenUsable_perm hwindows)]
  exact resolved blocked' windows' now key

/-! ## Dates that are spelled alike -/

/-- Of two dates that are spelled alike the later is found, of others the
earlier. -/
theorem laterText_eq {a b : Instant} (ha : IsDate a) (hb : IsDate b) :
    laterText a b
      = (if SpelledAlike a b then max a b else min a b).toISOString := by
  rw [laterText, Instant.compareUnits_toISOString ha hb]
  by_cases halike : SpelledAlike a b
  · rw [if_pos halike, if_pos halike]
    by_cases hgt : compare a b = .gt
    · rw [if_pos hgt, max_eq_left (compare_gt_iff_gt.mp hgt).le]
    · rw [if_neg hgt, max_eq_right (not_lt.mp (mt compare_gt_iff_gt.mpr hgt))]
  · rw [if_neg halike, if_neg halike]
    by_cases hgt : compare b a = .gt
    · rw [if_pos hgt, min_eq_left (compare_gt_iff_gt.mp hgt).le]
    · rw [if_neg hgt, min_eq_right (not_lt.mp (mt compare_gt_iff_gt.mpr hgt))]

/-- Every date of a row is one a `Date` can hold, so that its text can be read back. -/
structure ValidRows (blocked : List BlockedRunRow)
    (windows : List MeterWindowRow) : Prop where
  runs : ∀ run ∈ blocked, ∀ date ∈ run.dates, IsDate date
  windows : ∀ window ∈ windows, IsDate window.resetsAt

theorem ValidRows.isDate_block (h : ValidRows blocked windows) {t : Instant}
    (ht : t ∈ blockDates blocked now key) : IsDate t := by
  obtain ⟨-, run, hrun, -, -, hgreatest⟩ := ht
  exact h.runs run hrun t hgreatest.1

theorem ValidRows.isDate_window (h : ValidRows blocked windows) {t : Instant}
    (ht : t ∈ windowDates windows now key) : IsDate t := by
  obtain ⟨-, window, hwindow, -, -, rfl⟩ := ht
  exact h.windows window hwindow

/-- **When the position is what the two signals say**: exactly when the latest
date of the runner's quota blocks and the latest reset of its exhausted
windows, if it has both, are spelled alike. -/
theorem quota_position_iff (hvalid : ValidRows blocked windows) (now : Instant)
    (key : RunnerKey) :
    OneQuotaPosition blocked windows now key ↔
      ∀ a b, IsGreatest (blockDates blocked now key) a →
        IsGreatest (windowDates windows now key) b → SpelledAlike a b := by
  have hresolved := resolved blocked windows now key
  constructor
  · intro h a b ha hb
    by_contra halike
    obtain ⟨position, hposition, hexhausted⟩ :=
      h.exhausted.mpr ⟨a, Or.inl ha.1⟩
    obtain ⟨t, ht, hresumes⟩ := h.resumesAt position hposition hexhausted
    rw [hposition] at hresolved
    have hda := hvalid.isDate_block ha.1
    have hdb := hvalid.isDate_window hb.1
    rw [hresolved.resumesAt_of_both ha hb, laterText_eq hda hdb,
      if_neg halike, ht.unique (ha.union hb)] at hresumes
    -- the earlier date is the later one, so there is only one
    have hsame : min a b = max a b := by
      refine Instant.toISOString_injective ?_ ?_ (Option.some.inj hresumes)
      · obtain hmin | hmin := min_choice a b <;> rw [hmin] <;> assumption
      · obtain hmax | hmax := max_choice a b <;> rw [hmax] <;> assumption
    have hab : a = b := by
      refine le_antisymm ?_ ?_
      · exact (le_max_left a b).trans (hsame ▸ min_le_right a b)
      · exact (le_max_right a b).trans (hsame ▸ min_le_left a b)
    subst hab
    exact halike ⟨Iff.rfl, fun _ _ => rfl⟩
  · intro halike
    refine ⟨?_, ?_, ?_, hresolved.absent_iff, ?_⟩
    · exact Option.map_eq_some_iff.symm.trans hresolved.exhausted_iff
    · intro position hposition hexhausted
      rw [hposition] at hresolved
      refine hresolved.resumesAt_isGreatest hexhausted fun a b ha hb => ?_
      rw [laterText_eq (hvalid.isDate_block ha.1) (hvalid.isDate_window hb.1),
        if_pos (halike a b ha hb)]
    · exact Option.map_eq_some_iff.symm.trans hresolved.healthy_iff
    · intro blocked' windows' hblocked hwindows
      have hperm := @resolved_perm blocked blocked' windows windows' now key
        hblocked hwindows
      refine ⟨hresolved.exhausted_unique hperm, ?_⟩
      intro position position' hposition hposition' hexhausted
      rw [hposition] at hresolved
      rw [hposition'] at hperm
      exact hresolved.resumesAt_unique hperm hexhausted

/-! ## The tables -/

/-- Some date of a block is ahead just when the date it lifts at is. -/
theorem exists_liftsAt_iff {run : BlockedRunRow} :
    (∃ t, now < t ∧ run.LiftsAt t) ↔
      run.quotaReason.isSome ∧ ∃ date ∈ run.dates, now < date := by
  constructor
  · rintro ⟨t, ht, hreason, hgreatest⟩
    exact ⟨hreason, t, hgreatest.1, ht⟩
  · rintro ⟨hreason, date, hdate, hahead⟩
    obtain ⟨t, ht, hmax⟩ := Set.exists_max_image {date | date ∈ run.dates} id
      (List.finite_toSet _) ⟨date, hdate⟩
    exact ⟨t, hahead.trans_le (hmax date hdate), hreason, ht, hmax⟩

/-- **When routing takes a runner for exhausted**, by the tables it loads: one of
its runs is blocked for quota with a reset or a plan ahead, or one of its windows
is exhausted and has not rolled. -/
theorem exhausted_loaded_iff (table : Table WatchedRun)
    (windows : List MeterWindowRow) (now : Instant) (key : RunnerKey) :
    (∃ position, resolveQuota (loadQuotaBlocks table)
        (loadQuotaMeter windows now) now key = some position ∧
          position.exhausted = true) ↔
      (∃ watched ∈ table.rows, watched.isBlocked = true ∧
        watched.record.run.runnerKey = key ∧
        watched.blockedRow.quotaReason.isSome ∧
        ∃ date ∈ [watched.blockedState.resetAt,
          watched.blockedState.resumesAt].filterMap id, now < date) ∨
      ∃ window ∈ windows, window.runnerKey = key ∧
        window.pressure = .exhausted ∧ now < window.resetsAt := by
  rw [resolveQuota_loadQuotaMeter, ← Option.map_eq_some_iff,
    (resolved (loadQuotaBlocks table) windows now key).exhausted_iff,
    Set.union_nonempty]
  refine or_congr ⟨?_, ?_⟩ ⟨?_, ?_⟩
  · rintro ⟨t, ht, run, hrun, hkey, hlifts⟩
    obtain ⟨watched, hwatched, rfl⟩ := List.mem_map.mp hrun
    obtain ⟨hmem, hblocked⟩ := List.mem_filter.mp hwatched
    refine ⟨watched, hmem, hblocked, hkey, ?_⟩
    rw [← watched.dates_blockedRow]
    exact exists_liftsAt_iff.mp ⟨t, ht, hlifts⟩
  · rintro ⟨watched, hmem, hblocked, hkey, hahead⟩
    rw [← watched.dates_blockedRow] at hahead
    obtain ⟨t, ht, hlifts⟩ := exists_liftsAt_iff.mpr hahead
    exact ⟨t, ht, watched.blockedRow, List.mem_map_of_mem
      (List.mem_filter.mpr ⟨hmem, hblocked⟩), hkey, hlifts⟩
  · rintro ⟨t, ht, window, hmem, hkey, hpressure, rfl⟩
    exact ⟨window, hmem, hkey, hpressure, ht⟩
  · rintro ⟨window, hmem, hkey, hpressure, hahead⟩
    exact ⟨window.resetsAt, hahead, window, hmem, hkey, hpressure, rfl⟩

/-! ## A date past the year 9999 -/

/-- The key of the local runner. -/
def localKey : RunnerKey := ⟨"claude-code-local", RunnerKey.keyShape_claudeCodeLocal⟩

/-- A run that is blocked until noon. -/
def blockedUntilNoon : BlockedRunRow where
  runnerKey := localKey
  resumesAt := none
  events := [⟨1785664800000, some "rate-limit", some 1785672000000⟩]

/-- An exhausted window with a reset. -/
def exhaustedUntil (resetsAt : Instant) : MeterWindowRow where
  kind := "five_hour"
  resetsAt := resetsAt
  pressure := .exhausted
  lastObservedAt := 1785664800000
  runnerKey := localKey

/-- **The earlier date is taken**: a reset in milliseconds was read as seconds,
and the position promises noon although the window is exhausted for tens of
thousands of years more. -/
theorem far_window_hidden :
    ¬ OneQuotaPosition [blockedUntilNoon] [exhaustedUntil 1785672000000000]
      1785664800000 localKey := by
  intro h
  have hresolved : (resolveQuota [blockedUntilNoon]
      [exhaustedUntil 1785672000000000] 1785664800000 localKey).map
        (fun position => (position.exhausted, position.resumesAt))
      = some (true, some "2026-08-02T12:00:00.000Z") := by
    decide
  obtain ⟨position, hposition, hpair⟩ := Option.map_eq_some_iff.mp hresolved
  obtain ⟨hexhausted, hnoon⟩ := Prod.mk.inj hpair
  obtain ⟨t, ht, hresumes⟩ := h.resumesAt position hposition hexhausted
  rw [hnoon] at hresumes
  obtain hblock | hwindow := ht.1
  · obtain ⟨-, run, hrun, -, -, hgreatest⟩ := hblock
    rw [List.mem_singleton.mp hrun] at hgreatest
    have hnoon : t = 1785672000000 := List.mem_singleton.mp hgreatest.1
    have hfar : 1785672000000000 ≤ t := ht.2 (Or.inr ⟨by decide, _,
      List.mem_singleton_self _, rfl, rfl, rfl⟩)
    rw [hnoon] at hfar
    exact absurd hfar (by decide)
  · obtain ⟨-, window, hmem, -, -, rfl⟩ := hwindow
    rw [List.mem_singleton.mp hmem] at hresumes
    exact absurd hresumes (by decide)

/-- With both dates on one day the condition is met. -/
theorem quota_position_iff_near :
    OneQuotaPosition [blockedUntilNoon] [exhaustedUntil 1785675600000]
        1785664800000 localKey ↔
      ∀ a b, IsGreatest (blockDates [blockedUntilNoon] 1785664800000 localKey) a →
        IsGreatest (windowDates [exhaustedUntil 1785675600000] 1785664800000
          localKey) b → SpelledAlike a b :=
  quota_position_iff
    ⟨fun run hrun date hdate => by
      rw [List.mem_singleton.mp hrun] at hdate
      rw [show date = 1785672000000 from List.mem_singleton.mp hdate]
      exact ⟨by decide, by decide⟩,
    fun window hwindow => by
      rw [List.mem_singleton.mp hwindow]
      exact ⟨by decide, by decide⟩⟩ _ _

end Position

end Opifex
