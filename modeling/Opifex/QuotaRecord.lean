import Opifex.ClaudeCodeLocalRunner
import Opifex.Lib.Machine
import Opifex.QuotaPositions

/-!
# From what a runner sees to what routing reads

A poll hands over every sighting of a quota window since the last one. The
sightings are collapsed to one per window and written under the key of their
runner, which a foreign key ties to the runners that are registered; routing
looks the windows up under that key.

The local runner writes its tag on a sighting where the key belongs: the bare
key until the CLI's version has been observed, and `key@version` from then on.
No runner is registered under such a name, so the write is refused and the
refusal swallowed. A batch is recorded under the key routing looks up **exactly
if each of its sightings was made before the version was observed**
(`metered_iff`).
-/

namespace Opifex

open Instant (IsDate)
open Machine (run)
open Reduce (reduce later)

/-! ## Collapsing -/

/-- What a `quota_windows` row says of its window: the readings, when it was seen, and
how often. -/
structure QuotaWindow where
  /-- The latest reading. -/
  pressure : QuotaPressure
  /-- The worst reading. -/
  peakPressure : QuotaPressure
  firstObservedAt : Instant
  lastObservedAt : Instant
  observations : ℕ
deriving DecidableEq

/-- One window's worth of sightings, with the three columns that name the window. -/
structure CollapsedWindow extends QuotaWindow where
  runnerKey : String
  kind : String
  resetsAt : Instant
deriving DecidableEq

/-- What tells a window from another. -/
def windowText (runnerKey kind : String) (resetsAt : Instant) : String :=
  " ".intercalate [runnerKey, kind, resetsAt.toISOString]

/-- The window that a sighting is of, as its row is keyed. -/
def RunnerQuotaObservation.windowText (sighting : RunnerQuotaObservation) :
    String :=
  Opifex.windowText sighting.runnerKey sighting.kind sighting.resetsAt

/-- One more sighting of a window. The latest one is the current reading. -/
def CollapsedWindow.see (seen : Option CollapsedWindow)
    (sighting : RunnerQuotaObservation) : CollapsedWindow :=
  match seen with
  | none =>
    { runnerKey := sighting.runnerKey
      kind := sighting.kind
      resetsAt := sighting.resetsAt
      pressure := sighting.pressure
      peakPressure := sighting.pressure
      firstObservedAt := sighting.observedAt
      lastObservedAt := sighting.observedAt
      observations := 1 }
  | some seen =>
    { seen with
      observations := seen.observations + 1
      peakPressure := worsePressure seen.peakPressure sighting.pressure
      firstObservedAt :=
        if sighting.observedAt < seen.firstObservedAt then sighting.observedAt
        else seen.firstObservedAt
      lastObservedAt :=
        if sighting.observedAt < seen.lastObservedAt then seen.lastObservedAt
        else sighting.observedAt
      pressure :=
        if sighting.observedAt < seen.lastObservedAt then seen.pressure
        else sighting.pressure }

/-- **One window for all of its sightings.** -/
def collapseObservations (observations : List RunnerQuotaObservation) :
    List CollapsedWindow :=
  (KeyMap.group RunnerQuotaObservation.windowText CollapsedWindow.see
    observations).entries.map Prod.snd

/-! ## Recording -/

/-- The `quota_windows` table: one row for a runner's window of a kind with a
reset. -/
abbrev QuotaWindows := KeyMap (RunnerKey × String × Instant) QuotaWindow

/-- The rows, as routing reads them. -/
def QuotaWindows.rows (windows : QuotaWindows) : List MeterWindowRow :=
  windows.entries.map fun (key, window) =>
    { kind := key.2.1
      resetsAt := key.2.2
      pressure := window.pressure
      lastObservedAt := window.lastObservedAt
      runnerKey := key.1 }

/-- What the upsert writes over what is stored. The peak is the worst reading
ever. -/
def CollapsedWindow.upsert (window : CollapsedWindow) :
    Option QuotaWindow → QuotaWindow
  | none => window.toQuotaWindow
  | some stored =>
    { pressure := window.pressure
      peakPressure := worsePressure stored.peakPressure window.peakPressure
      firstObservedAt := stored.firstObservedAt
      lastObservedAt := window.lastObservedAt
      observations := stored.observations + window.observations }

/-- The row an upsert writes: the runner of a row is a registered one. -/
def CollapsedWindow.rowKey (registered : List RunnerKey)
    (window : CollapsedWindow) : Option (RunnerKey × String × Instant) :=
  (registered.find? fun key => key.val == window.runnerKey).map
    (·, window.kind, window.resetsAt)

/-- `upsert`, which the foreign key refuses for a runner nobody registered. -/
def QuotaWindows.upsert (registered : List RunnerKey) (windows : QuotaWindows)
    (window : CollapsedWindow) : Except String QuotaWindows :=
  match window.rowKey registered with
  | some key => .ok (windows.alter key window.upsert)
  | none => .error "Foreign key constraint violated"

/-- **Record the sightings a poll reported.** A window that cannot be written
is skipped. -/
def QuotaWindows.record (registered : List RunnerKey)
    (observations : List RunnerQuotaObservation) (windows : QuotaWindows) :
    ℕ × QuotaWindows :=
  (collapseObservations observations).foldl
    (fun (written, windows) window =>
      match windows.upsert registered window with
      | .ok windows => (written + 1, windows)
      | .error _ => (written, windows))
    (0, windows)

/-! ## What tells windows apart -/

theorem keyShape_chars {inSegment : Bool} {cs : List Char}
    (h : keyShape inSegment cs = true) :
    ∀ c ∈ cs, c = '-' ∨ isKeyChar c = true := by
  induction cs generalizing inSegment with
  | nil => exact fun c hc => absurd hc List.not_mem_nil
  | cons d cs ih =>
    intro c hc
    rw [keyShape] at h
    split at h
    · obtain rfl | hc := List.mem_cons.mp hc
      · exact Or.inl (by assumption)
      · exact ih (Bool.and_eq_true_iff.mp h).2 c hc
    · obtain ⟨hd, hrest⟩ := Bool.and_eq_true_iff.mp h
      obtain rfl | hc := List.mem_cons.mp hc
      · exact Or.inr hd
      · exact ih hrest c hc

theorem RunnerKey.blank_notMem (key : RunnerKey) : ' ' ∉ key.val.toList :=
  fun h => (keyShape_chars key.wellFormed ' ' h).elim (by decide) (by decide)

/-- The name a runner goes by: its key, alone or with a version. -/
def IsTag (key : RunnerKey) (tag : String) : Prop :=
  tag = key.val ∨ ∃ version, tag = key.val ++ "@" ++ version

theorem ClaudeCodeLocalRunner.isTag_runnerTag
    (runner : ClaudeCodeLocalRunner) :
    IsTag ClaudeCodeLocalRunner.key runner.runnerTag := by
  unfold runnerTag
  split
  · rename_i version _
    exact Or.inr ⟨version, rfl⟩
  · exact Or.inl rfl

theorem toList_windowText (runnerKey kind : String) (resetsAt : Instant) :
    (windowText runnerKey kind resetsAt).toList
      = (runnerKey.toList ++ ' ' :: kind.toList) ++
          ' ' :: resetsAt.toISOString.toList := by
  show (runnerKey ++ " " ++ kind ++ " " ++ resetsAt.toISOString).toList = _
  simp only [String.toList_append]
  show _ ++ [' '] ++ _ ++ [' '] ++ _ = _
  simp only [List.append_assoc, List.cons_append, List.nil_append]

/-- The date is what follows the last blank. -/
theorem append_date_inj {x y : List Char} {date date' : Instant}
    (hdate : IsDate date) (hdate' : IsDate date')
    (h : x ++ ' ' :: date.toISOString.toList
      = y ++ ' ' :: date'.toISOString.toList) :
    x = y ∧ date = date' := by
  have hreverse := congrArg List.reverse h
  rw [List.reverse_append, List.reverse_append, List.reverse_cons,
    List.reverse_cons, List.append_assoc, List.append_assoc] at hreverse
  have hblank : ∀ date : Instant, ' ' ∉ date.toISOString.toList.reverse :=
    fun date h =>
      Instant.blank_notMem_toISOString date (List.mem_reverse.mp h)
  obtain ⟨htext, hfront⟩ :=
    Text.append_mark_inj (hblank date) (hblank date') hreverse
  exact ⟨List.reverse_injective hfront,
    Instant.toISOString_injective hdate hdate'
      (String.toList_inj.mp (List.reverse_injective htext))⟩

/-- A name that a blank follows is the bare key if the bare key begins the
text. -/
theorem IsTag.append_inj {key : RunnerKey} {tag : String}
    {kind kind' : List Char} (htag : IsTag key tag)
    (h : tag.toList ++ ' ' :: kind = key.val.toList ++ ' ' :: kind') :
    tag = key.val ∧ kind = kind' := by
  obtain rfl | ⟨version, rfl⟩ := htag
  · exact ⟨rfl, (Text.append_mark_inj key.blank_notMem key.blank_notMem h).2⟩
  · -- after the key one has an at sign where the other has a blank
    rw [String.toList_append, String.toList_append, List.append_assoc,
      List.append_assoc] at h
    have hsign := List.append_cancel_left h
    rw [show "@".toList = ['@'] from rfl, List.cons_append,
      List.cons.injEq] at hsign
    exact absurd hsign.1 (by decide)

/-- **The text of a window under the bare key is that of no other window.** -/
theorem windowText_inj {key : RunnerKey} {tag kind kind' : String}
    {resetsAt resetsAt' : Instant} (htag : IsTag key tag)
    (hdate : IsDate resetsAt) (hdate' : IsDate resetsAt')
    (h : windowText tag kind resetsAt = windowText key.val kind' resetsAt') :
    tag = key.val ∧ kind = kind' ∧ resetsAt = resetsAt' := by
  have hlist := congrArg String.toList h
  rw [toList_windowText, toList_windowText] at hlist
  obtain ⟨hfront, hresetsAt⟩ := append_date_inj hdate hdate' hlist
  obtain ⟨hkey, hkind⟩ := htag.append_inj hfront
  exact ⟨hkey, String.toList_inj.mp hkind, hresetsAt⟩

/-! ## What a record leaves under a key -/

/-- The sighting is one of a runner's window. -/
def RunnerQuotaObservation.isOf (runnerKey kind : String) (resetsAt : Instant)
    (sighting : RunnerQuotaObservation) : Bool :=
  sighting.runnerKey == runnerKey && sighting.kind == kind &&
    sighting.resetsAt == resetsAt

theorem RunnerQuotaObservation.isOf_iff {runnerKey kind : String}
    {resetsAt : Instant} {sighting : RunnerQuotaObservation} :
    sighting.isOf runnerKey kind resetsAt = true ↔
      sighting.runnerKey = runnerKey ∧ sighting.kind = kind ∧
        sighting.resetsAt = resetsAt := by
  rw [isOf, Bool.and_eq_true, Bool.and_eq_true, beq_iff_eq, beq_iff_eq,
    beq_iff_eq, and_assoc]

section Gather

variable {sightings : List RunnerQuotaObservation} {window : CollapsedWindow}

theorem gather_eq_none :
    KeyMap.gather CollapsedWindow.see sightings = none ↔ sightings = [] := by
  induction sightings using List.reverseRecOn with
  | nil => exact iff_of_true rfl rfl
  | append_singleton sightings sighting _ =>
    rw [KeyMap.gather_concat]
    exact iff_of_false (Option.some_ne_none _)
      (List.append_ne_nil_of_right_ne_nil _ (List.cons_ne_nil _ _))

/-- What is told apart is not changed by another sighting. -/
theorem named_gather {runnerKey kind : String} {resetsAt : Instant}
    (hall : ∀ sighting ∈ sightings,
      sighting.isOf runnerKey kind resetsAt = true)
    (h : KeyMap.gather CollapsedWindow.see sightings = some window) :
    window.runnerKey = runnerKey ∧ window.kind = kind ∧
      window.resetsAt = resetsAt := by
  induction sightings using List.reverseRecOn generalizing window with
  | nil => cases h
  | append_singleton sightings sighting ih =>
    rw [KeyMap.gather_concat] at h
    rw [← Option.some.inj h]
    cases hseen : KeyMap.gather CollapsedWindow.see sightings with
    | none =>
      exact RunnerQuotaObservation.isOf_iff.mp
        (hall sighting (List.mem_append_right _ List.mem_cons_self))
    | some seen =>
      have hnamed := ih
        (fun other hother => hall other (List.mem_append_left _ hother)) hseen
      exact hnamed

/-- **A collapsed window counts its sightings and reads as the latest.** -/
theorem read_gather
    (h : KeyMap.gather CollapsedWindow.see sightings = some window) :
    window.observations = sightings.length ∧
      ∃ newest, reduce (later RunnerQuotaObservation.observedAt) sightings
          = some newest ∧
        window.pressure = newest.pressure ∧
          window.lastObservedAt = newest.observedAt := by
  induction sightings using List.reverseRecOn generalizing window with
  | nil => cases h
  | append_singleton sightings sighting ih =>
    rw [KeyMap.gather_concat] at h
    rw [← Option.some.inj h, Reduce.reduce_concat, List.length_append,
      List.length_singleton]
    cases hseen : KeyMap.gather CollapsedWindow.see sightings with
    | none =>
      rw [gather_eq_none.mp hseen]
      exact ⟨rfl, sighting, rfl, rfl, rfl⟩
    | some seen =>
      obtain ⟨hcount, newest, hnewest, hpressure, hlast⟩ := ih hseen
      rw [hnewest, Option.elim_some]
      refine ⟨congrArg (· + 1) hcount, _, rfl, ?_, ?_⟩
      · show (if _ then _ else _) = (later _ newest sighting).pressure
        unfold later
        rw [hlast]
        split
        · exact hpressure
        · rfl
      · show (if _ then _ else _) = (later _ newest sighting).observedAt
        unfold later
        rw [hlast]
        split <;> rfl

end Gather

section Record

variable {registered : List RunnerKey} {key : RunnerKey} {kind : String}
  {resetsAt : Instant} {batch : List RunnerQuotaObservation}
  {windows : QuotaWindows}

/-- A batch of one runner: every sighting is under its name, of a window with a
date. -/
def BatchOf (key : RunnerKey) (batch : List RunnerQuotaObservation) : Prop :=
  ∀ sighting ∈ batch, IsTag key sighting.runnerKey ∧ IsDate sighting.resetsAt

theorem rowKey_eq_some {window : CollapsedWindow}
    {row : RunnerKey × String × Instant}
    (h : window.rowKey registered = some row) :
    window.runnerKey = row.1.val ∧ window.kind = row.2.1 ∧
      window.resetsAt = row.2.2 := by
  obtain ⟨found, hfound, rfl⟩ := Option.map_eq_some_iff.mp h
  have hval := List.find?_some hfound
  exact ⟨(beq_iff_eq.mp hval).symm, rfl, rfl⟩

theorem rowKey_registered {window : CollapsedWindow} (hkey : key ∈ registered)
    (hrunner : window.runnerKey = key.val) :
    window.rowKey registered = some (key, window.kind, window.resetsAt) := by
  have hsome : (registered.find? fun other =>
      other.val == window.runnerKey).isSome = true := by
    rw [List.find?_isSome]
    exact ⟨key, hkey, beq_iff_eq.mpr hrunner.symm⟩
  obtain ⟨found, hfound⟩ := Option.isSome_iff_exists.mp hsome
  have hval := List.find?_some hfound
  rw [CollapsedWindow.rowKey, hfound, RunnerKey.val_injective
    ((beq_iff_eq.mp hval).trans hrunner)]
  rfl

/-- The text is what tells the window apart. -/
def CollapsedWindow.IsTold (text : String) (window : CollapsedWindow) : Prop :=
  windowText window.runnerKey window.kind window.resetsAt = text

theorem isTold_group :
    ∀ entry ∈ (KeyMap.group RunnerQuotaObservation.windowText
      CollapsedWindow.see batch).entries, entry.2.IsTold entry.1 :=
  KeyMap.entries_group (P := CollapsedWindow.IsTold) (fun _ => by
    rw [CollapsedWindow.IsTold, RunnerQuotaObservation.windowText]
    rfl) fun _ _ h => h

theorem text_of_rowKey {text : String} {window : CollapsedWindow}
    (htold : window.IsTold text)
    (h : window.rowKey registered = some (key, kind, resetsAt)) :
    text = windowText key.val kind resetsAt := by
  obtain ⟨hrunner, hkind, hreset⟩ := rowKey_eq_some h
  rw [CollapsedWindow.IsTold, hrunner, hkind, hreset] at htold
  exact htold.symm

/-- A record alters the row of each window that has one. -/
theorem record_eq :
    (windows.record registered batch).2
      = (collapseObservations batch).foldl
          (fun windows window => (window.rowKey registered).elim windows
            fun row => windows.alter row window.upsert) windows := by
  have hfold : ∀ (collapsed : List CollapsedWindow) (written : ℕ)
      (windows : QuotaWindows),
      (collapsed.foldl (fun (written, windows) window =>
          match QuotaWindows.upsert registered windows window with
          | .ok windows => (written + 1, windows)
          | .error _ => (written, windows)) (written, windows)).2
        = collapsed.foldl (fun windows window =>
            (window.rowKey registered).elim windows
              fun row => windows.alter row window.upsert) windows := by
    intro collapsed
    induction collapsed with
    | nil => exact fun _ _ => rfl
    | cons window collapsed ih =>
      intro written windows
      rw [List.foldl_cons, List.foldl_cons]
      unfold QuotaWindows.upsert
      cases window.rowKey registered with
      | none => exact ih _ _
      | some row => exact ih _ _
  exact hfold _ _ _

/-- **What a record leaves under a window of a runner** is made of the runner's
own sightings of that window. -/
theorem get_record (hkey : key ∈ registered) (hbatch : BatchOf key batch)
    (hdate : IsDate resetsAt) :
    (windows.record registered batch).2.get (key, kind, resetsAt)
      = match KeyMap.gather CollapsedWindow.see
          (batch.filter (·.isOf key.val kind resetsAt)) with
        | none => windows.get (key, kind, resetsAt)
        | some window =>
          some (window.upsert (windows.get (key, kind, resetsAt))) := by
  have hentries := KeyMap.filter_entries
    (m := KeyMap.group RunnerQuotaObservation.windowText CollapsedWindow.see
      batch)
    (p := fun window =>
      decide (window.rowKey registered = some (key, kind, resetsAt)))
    (k := windowText key.val kind resetsAt) (by
      intro entry hentry hrow
      exact text_of_rowKey (isTold_group entry hentry)
        (of_decide_eq_true hrow))
  have hsame : batch.filter (fun sighting =>
      sighting.windowText == windowText key.val kind resetsAt)
      = batch.filter (·.isOf key.val kind resetsAt) := by
    refine List.filter_congr fun sighting hsighting => ?_
    obtain ⟨htag, hreset⟩ := hbatch sighting hsighting
    rw [Bool.eq_iff_iff, beq_iff_eq, RunnerQuotaObservation.isOf_iff]
    constructor
    · exact windowText_inj htag hreset hdate
    · rintro ⟨hrunner, rfl, rfl⟩
      rw [RunnerQuotaObservation.windowText, hrunner]
  rw [record_eq, KeyMap.get_foldl_alter, collapseObservations, hentries,
    KeyMap.get_group, hsame]
  cases hgather : KeyMap.gather CollapsedWindow.see
      (batch.filter (·.isOf key.val kind resetsAt)) with
  | none => rfl
  | some window =>
    obtain ⟨hrunner, hkind, hreset⟩ := named_gather
      (fun sighting hsighting => (List.mem_filter.mp hsighting).2) hgather
    rw [Option.filter_some, if_pos]
    · rfl
    · rw [rowKey_registered hkey hrunner, hkind, hreset]
      exact decide_eq_true rfl

theorem observations_upsert {window : CollapsedWindow}
    {stored : Option QuotaWindow} :
    (window.upsert stored).observations
      = (stored.map (·.observations)).getD 0 + window.observations := by
  cases stored with
  | none => exact (Nat.zero_add _).symm
  | some stored => rfl

theorem pressure_upsert {window : CollapsedWindow}
    {stored : Option QuotaWindow} :
    (window.upsert stored).pressure = window.pressure := by
  cases stored <;> rfl

theorem lastObservedAt_upsert {window : CollapsedWindow}
    {stored : Option QuotaWindow} :
    (window.upsert stored).lastObservedAt = window.lastObservedAt := by
  cases stored <;> rfl

/-- A row that is stored is one routing reads. -/
theorem mem_rows {row : QuotaWindow}
    (h : windows.get (key, kind, resetsAt) = some row) :
    ∃ stored ∈ windows.rows, stored.runnerKey = key ∧
      stored.pressure = row.pressure ∧ stored.resetsAt = resetsAt := by
  obtain ⟨entry, hentry, rfl⟩ := Option.map_eq_some_iff.mp h
  have hkey : entry.1 = (key, kind, resetsAt) := by
    have hfound := List.find?_some hentry
    exact of_decide_eq_true hfound
  refine ⟨_, List.mem_map_of_mem (List.mem_of_find?_eq_some hentry), ?_, rfl,
    ?_⟩
  · exact congrArg Prod.fst hkey
  · exact congrArg (·.2.2) hkey

end Record

/-! ## The batch of a poll -/

/-- **A window is metered**: its row under the runner's key counts every
sighting of the batch and reads as the latest, and an exhausted reading makes
the runner's position exhausted until the window resets. -/
structure MeteredAs (key : RunnerKey) (before after : QuotaWindows)
    (kind : String) (resetsAt : Instant)
    (sightings : List RunnerQuotaObservation) (newest : RunnerQuotaObservation)
    (row : QuotaWindow) : Prop where
  latest : reduce (later RunnerQuotaObservation.observedAt) sightings
    = some newest
  stored : after.get (key, kind, resetsAt) = some row
  counted : row.observations
    = ((before.get (key, kind, resetsAt)).map (·.observations)).getD 0 +
        sightings.length
  pressure : row.pressure = newest.pressure
  lastObservedAt : row.lastObservedAt = newest.observedAt
  exhausted : newest.pressure = .exhausted →
    ∀ blocked now, now < resetsAt →
      (resolveQuota blocked after.rows now key).map (·.exhausted) = some true

/-- The sighting is of a window of the kind with the reset, whatever runner it
names. -/
def RunnerQuotaObservation.sees (kind : String) (resetsAt : Instant)
    (sighting : RunnerQuotaObservation) : Bool :=
  sighting.kind == kind && sighting.resetsAt == resetsAt

/-- What is asked of the record of a batch: each window the runner saw is
metered under the runner's key. -/
def Metered (key : RunnerKey) (registered : List RunnerKey)
    (windows : QuotaWindows) (batch : List RunnerQuotaObservation) : Prop :=
  ∀ sighting ∈ batch, ∃ newest row,
    MeteredAs key windows (windows.record registered batch).2 sighting.kind
      sighting.resetsAt
      (batch.filter (·.sees sighting.kind sighting.resetsAt)) newest row

section Batch

variable {registered : List RunnerKey} {key : RunnerKey}
  {batch : List RunnerQuotaObservation} {windows : QuotaWindows}

theorem filter_isOf (kind : String) (resetsAt : Instant) :
    batch.filter (·.isOf key.val kind resetsAt)
      = (batch.filter (·.sees kind resetsAt)).filter
          fun sighting => sighting.runnerKey == key.val := by
  rw [List.filter_filter]
  refine List.filter_congr fun sighting _ => ?_
  rw [RunnerQuotaObservation.isOf, RunnerQuotaObservation.sees, Bool.and_assoc]

/-- **A batch is metered exactly when every sighting is under the bare
key.** -/
theorem metered_iff_bare (hkey : key ∈ registered)
    (hbatch : BatchOf key batch) :
    Metered key registered windows batch ↔
      ∀ sighting ∈ batch, sighting.runnerKey = key.val := by
  constructor
  · intro h sighting hsighting
    obtain ⟨newest, row, hmetered⟩ := h sighting hsighting
    have hget := hmetered.stored
    have hcount := hmetered.counted
    rw [get_record hkey hbatch (hbatch sighting hsighting).2,
      filter_isOf] at hget
    have hlength : ((batch.filter
        (·.sees sighting.kind sighting.resetsAt)).filter
          fun other => other.runnerKey == key.val).length
        = (batch.filter
            (·.sees sighting.kind sighting.resetsAt)).length := by
      cases hgather : KeyMap.gather CollapsedWindow.see ((batch.filter
          (·.sees sighting.kind sighting.resetsAt)).filter
            fun other => other.runnerKey == key.val) with
      | none =>
        rw [hgather] at hget
        -- the row is the one that was there, and counts nothing new
        rw [show windows.get _ = some row from hget, Option.map_some,
          Option.getD_some] at hcount
        rw [gather_eq_none.mp hgather, List.length_nil]
        exact (Nat.left_eq_add.mp hcount).symm
      | some window =>
        rw [hgather] at hget
        rw [← Option.some.inj hget, observations_upsert,
          (read_gather hgather).1] at hcount
        exact Nat.add_left_cancel hcount
    have hall := List.length_filter_eq_length_iff.mp hlength sighting
      (List.mem_filter.mpr ⟨hsighting, by
        rw [RunnerQuotaObservation.sees, beq_self_eq_true, beq_self_eq_true]
        rfl⟩)
    exact beq_iff_eq.mp hall
  · intro hbare sighting hsighting
    have hsees : sighting ∈ batch.filter
        (·.sees sighting.kind sighting.resetsAt) :=
      List.mem_filter.mpr ⟨hsighting, by
        rw [RunnerQuotaObservation.sees, beq_self_eq_true, beq_self_eq_true]
        rfl⟩
    have hsame : batch.filter
        (·.isOf key.val sighting.kind sighting.resetsAt)
        = batch.filter (·.sees sighting.kind sighting.resetsAt) := by
      rw [filter_isOf, List.filter_eq_self]
      intro other hother
      exact beq_iff_eq.mpr (hbare other (List.mem_of_mem_filter hother))
    have hget := @get_record registered key sighting.kind sighting.resetsAt
      batch windows hkey hbatch (hbatch sighting hsighting).2
    rw [hsame] at hget
    cases hgather : KeyMap.gather CollapsedWindow.see (batch.filter
        (·.sees sighting.kind sighting.resetsAt)) with
    | none =>
      rw [gather_eq_none.mp hgather] at hsees
      exact absurd hsees List.not_mem_nil
    | some window =>
      rw [hgather] at hget
      obtain ⟨hcount, newest, hnewest, hpressure, hlast⟩ :=
        read_gather hgather
      refine ⟨newest, _, hnewest, hget, ?_, ?_, ?_, ?_⟩
      · rw [observations_upsert, hcount]
      · rw [← hpressure]
        exact pressure_upsert
      · rw [← hlast]
        exact lastObservedAt_upsert
      · intro hexhausted blocked now hlive
        obtain ⟨stored, hstored, hrunner, hreading, hreset⟩ := mem_rows hget
        rw [(resolved blocked _ now key).exhausted_iff]
        refine ⟨sighting.resetsAt, Or.inr ⟨hlive, stored, hstored, hrunner, ?_,
          hreset⟩⟩
        rw [hreading, pressure_upsert, hpressure]
        exact hexhausted

end Batch

end Opifex
