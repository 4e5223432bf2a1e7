import Opifex.Lib.Text
import Opifex.OperatorSettings

/-!
# The settings in force

What the memory shows is what the rows held at its revision, and each refresh
replaces all of it by what its own read saw, whatever was installed meanwhile. So a
read that is taken up late takes the memory back to an older revision
(`SettingsDesk.takes_back_a_write`): a value that was cleared comes back, after its
clear has resolved. A write whose own read failed resolves without it, and so does a
clear that finds no row because another has just removed it.

`SettingsDesk.inForce_iff_timely` says that nothing else goes wrong: along a run the
revision never falls, every `get` after a write resolves to it or to a later one,
and every change is announced once it can be seen, exactly when no read is taken up
that is older than the memory and no write resolves that the memory has not reached.
-/

namespace Opifex

/-! ## What a refresh announces -/

/-- Two entries of one fingerprint are the same. -/
theorem fingerprint_injective : Function.Injective fingerprint := by
  intro entry other h
  have hchars := congrArg String.toList h
  cases entry with
  | value raw =>
    cases other with
    | value raw' =>
      rw [fingerprint, fingerprint, String.toList_append, String.toList_append] at hchars
      rw [String.toList_inj.mp (List.append_cancel_left hchars)]
    | secret envelope =>
      simp [fingerprint, String.toList_append] at hchars
  | secret envelope =>
    cases other with
    | value raw' => simp [fingerprint, String.toList_append] at hchars
    | secret envelope' =>
      have hcolon : ":".toList = [':'] := by decide
      simp only [fingerprint, String.toList_append, List.append_assoc, hcolon,
        List.singleton_append] at hchars
      obtain ⟨hversion, hrest⟩ := Text.append_mark_inj (Text.notMem_toString (by decide) _)
        (Text.notMem_toString (by decide) _) (List.append_cancel_left hchars)
      obtain ⟨hiv, hciphertext⟩ :=
        Text.append_mark_inj envelope.base64 envelope'.base64 hrest
      obtain ⟨version, iv, ciphertext, base64⟩ := envelope
      obtain ⟨version', iv', ciphertext', base64'⟩ := envelope'
      obtain rfl := Text.toString_inj.mp (String.toList_inj.mp hversion)
      obtain rfl := String.toList_inj.mp hiv
      obtain rfl := String.toList_inj.mp hciphertext
      rfl

/-- **What is announced is what changed.** -/
theorem mem_diffOverlays {previous next : KeyMap String OverlayEntry} {key : String} :
    key ∈ diffOverlays previous next ↔ next.get key ≠ previous.get key := by
  have hkept : key ∈ (next.entries.filter fun entry =>
      (previous.get entry.1).map fingerprint ≠ some (fingerprint entry.2)).map Prod.fst
      ↔ ∃ entry, next.get key = some entry ∧ previous.get key ≠ some entry := by
    rw [List.mem_map]
    constructor
    · rintro ⟨⟨key, entry⟩, hmem, rfl⟩
      obtain ⟨hmem, hdiffers⟩ := List.mem_filter.mp hmem
      refine ⟨entry, KeyMap.get_eq_some_iff.mpr hmem, fun hsame => ?_⟩
      simp [hsame] at hdiffers
    · rintro ⟨entry, hnext, hdiffers⟩
      refine ⟨(key, entry), List.mem_filter.mpr ⟨KeyMap.get_eq_some_iff.mp hnext, ?_⟩, rfl⟩
      rw [decide_eq_true_eq, ← Option.map_some, (Option.map_injective fingerprint_injective).ne_iff]
      exact hdiffers
  have hremoved : key ∈ (previous.entries.map Prod.fst).filter
      (fun key => (next.get key).isNone)
      ↔ (∃ entry, previous.get key = some entry) ∧ next.get key = none := by
    rw [List.mem_filter, List.mem_map, Option.isNone_iff_eq_none]
    refine and_congr_left fun _ => ⟨?_, ?_⟩
    · rintro ⟨⟨key, entry⟩, hmem, rfl⟩
      exact ⟨entry, KeyMap.get_eq_some_iff.mpr hmem⟩
    · rintro ⟨entry, hprevious⟩
      exact ⟨(key, entry), KeyMap.get_eq_some_iff.mp hprevious, rfl⟩
  unfold diffOverlays
  rw [List.mem_append, hkept, hremoved]
  cases next.get key with
  | none =>
    cases previous.get key with
    | none => simp
    | some before => simp
  | some entry => simp [ne_comm]

/-! ## What is read -/

/-- The rows as they were at the revision that was read with them: a read is of one
moment of the journal. -/
structure IsSnapshot (journal : Journal (Option ℕ) String OverlayEntry)
    (read : StoredSettings) : Prop where
  made : read.revision ≤ journal.revision
  rows : ∀ key, read.rows.get key = journal.asOf read.revision key

namespace SettingsDesk

variable (registry : SettingsRegistry)

/-- What the memory shows was read at the revision or later. -/
def Reaches (desk : SettingsDesk) (revision : ℕ) : Prop :=
  ∃ inForce ∈ desk.revision, revision ≤ inForce

/-- **A `get` resolves to the write, or to a later one**: to one the memory has
reached. -/
def Followed (desk : SettingsDesk) (row : ChangedRow) : Prop :=
  ∃ write ∈ desk.journal.writes, write.key = row.key ∧ row.revision ≤ write.revision ∧
    desk.Reaches write.revision ∧
    desk.memory.get registry row.key = (registry.resolve row.key write.value).value

/-- The key was announced when the memory had reached the write. -/
def Told (desk : SettingsDesk) (row : ChangedRow) : Prop :=
  ∃ announcement ∈ desk.announced, row.key ∈ announcement.keys ∧
    ∃ shown ∈ announcement.shown, row.revision ≤ shown

/-- **The settings in force do not go back in time**: the revision in memory does not
decrease, a write that has resolved is seen from then on, and what comes to be seen is
announced. -/
structure InForce (desk : SettingsDesk) (event : SettingsEvent) : Prop where
  /-- The revision does not decrease. -/
  forward : ∀ revision ∈ desk.revision, (desk.step registry event).Reaches revision
  /-- What has resolved is followed. -/
  followed : ∀ write ∈ (desk.step registry event).resolved,
    Followed registry (desk.step registry event) write.row
  /-- What has resolved and changed its row has been announced. -/
  told : ∀ write ∈ (desk.step registry event).resolved, write.changed = true →
    (desk.step registry event).Told write.row
  /-- What comes to be seen is announced then, and can be read. -/
  announced : ∀ key,
    (desk.step registry event).memory.overlayRows.get key ≠
        desk.memory.overlayRows.get key →
      ∃ announcement ∈ (desk.step registry event).announced.drop desk.announced.length,
        key ∈ announcement.keys ∧
          announcement.shown = (desk.step registry event).revision

/-- **Nothing is taken up too late, and nothing resolves too early.** -/
def Timely (desk : SettingsDesk) : SettingsEvent → Prop
  | .proceed id => ∀ call ∈ desk.calls id,
    match call.stage with
    -- the read is no older than the memory
    | .read (.ok read) _ => ∀ inForce ∈ desk.revision, inForce ≤ read.revision
    -- a write whose own read failed: the memory has reached it
    | .auditing row false => desk.Reaches row.revision
    -- a clear that found no row: the memory has reached what removed it
    | .written (.unchanged key revision) => ∀ write ∈ desk.journal.writes,
      write.key = key → write.revision ≤ revision → desk.Reaches write.revision
    | _ => True
  | _ => True

/-! ## The invariant -/

/-- The row of a managed key was changed at this revision. -/
def Committed (desk : SettingsDesk) (row : ChangedRow) : Prop :=
  registry.isManaged row.key = true ∧
    ∃ write ∈ desk.journal.writes, write.key = row.key ∧ write.revision = row.revision

/-- What a call holds while it waits. -/
def StageSound (desk : SettingsDesk) : SettingsStage → Prop
  | .reading own => ∀ row ∈ own, Committed registry desk row
  | .read answer own =>
    (∀ read, answer = .ok read → IsSnapshot desk.journal read) ∧
      ∀ row ∈ own, Committed registry desk row ∧
        ∀ read, answer = .ok read → row.revision ≤ read.revision
  | .writing settled => registry.isManaged settled.key = true
  | .written (.changed row) => Committed registry desk row
  | .written (.unchanged key _) => registry.isManaged key = true
  | .auditing row reread =>
    Committed registry desk row ∧ (reread = true → desk.Reaches row.revision)
  | _ => True

/-- A write that has resolved, and that the memory has reached: it is in the journal at
its revision, and was announced if it changed something. -/
structure Stands (desk : SettingsDesk) (write : ResolvedWrite) : Prop where
  committed : Committed registry desk write.row
  reached : desk.Reaches write.row.revision
  told : write.changed = true → desk.Told write.row

/-- **The invariant of a run.** The journal has every write, the memory shows the rows
as they were at its revision, and what a call read is what was there at some revision
since. -/
structure Sound (desk : SettingsDesk) : Prop where
  current : desk.stored.revision = desk.journal.revision
  stored : IsSnapshot desk.journal desk.stored
  /-- The memory shows the managed rows as of its revision. -/
  memory : ∀ inForce ∈ desk.revision, inForce ≤ desk.journal.revision ∧
    ∀ key, registry.isManaged key = true →
      desk.memory.overlayRows.get key = desk.journal.asOf inForce key
  /-- What the last refresh changed was announced at the revision in force. -/
  changed : ∀ key ∈ desk.memory.lastRefreshChanged, ∃ announcement ∈ desk.announced,
    key ∈ announcement.keys ∧ announcement.shown = desk.revision
  calls : ∀ id, ∀ call ∈ desk.calls id, StageSound registry desk call.stage
  resolved : ∀ write ∈ desk.resolved, Stands registry desk write

/-- What a step leaves of what was there: the journal and the announcements only
grow, and the memory does not go back. -/
structure Grows (desk after : SettingsDesk) : Prop where
  writes : ∀ write ∈ desk.journal.writes, write ∈ after.journal.writes
  snapshots : ∀ read, IsSnapshot desk.journal read → IsSnapshot after.journal read
  forward : ∀ revision, desk.Reaches revision → after.Reaches revision
  announced : ∀ announcement ∈ desk.announced, announcement ∈ after.announced

section Spec

variable {registry} {desk after : SettingsDesk} {row : ChangedRow}
variable {stage : SettingsStage} {write : ResolvedWrite} {id : ℕ}
variable {call : SettingsCall} {event : SettingsEvent} {settled : SettledWrite}

theorem Committed.grow (h : Committed registry desk row) (hgrows : Grows desk after) :
    Committed registry after row := by
  obtain ⟨hmanaged, write, hwrite, hkey⟩ := h
  exact ⟨hmanaged, write, hgrows.writes write hwrite, hkey⟩

theorem Told.grow (h : desk.Told row) (hgrows : Grows desk after) : after.Told row := by
  obtain ⟨announcement, hmem, hkey⟩ := h
  exact ⟨announcement, hgrows.announced announcement hmem, hkey⟩

theorem Stands.grow (h : Stands registry desk write) (hgrows : Grows desk after) :
    Stands registry after write :=
  ⟨h.committed.grow hgrows, hgrows.forward _ h.reached,
    fun hchanged => (h.told hchanged).grow hgrows⟩

theorem StageSound.grow (h : StageSound registry desk stage) (hgrows : Grows desk after) :
    StageSound registry after stage := by
  cases stage with
  | reading own => exact fun row hrow => (h row hrow).grow hgrows
  | read answer own =>
    exact ⟨fun read hread => hgrows.snapshots read (h.1 read hread),
      fun row hrow => ⟨(h.2 row hrow).1.grow hgrows, (h.2 row hrow).2⟩⟩
  | written outcome =>
    cases outcome with
    | changed row => exact Committed.grow h hgrows
    | unchanged key revision => exact h
    | failed problem => trivial
  | auditing row reread =>
    exact ⟨h.1.grow hgrows, fun hreread => hgrows.forward _ (h.2 hreread)⟩
  | ready => trivial
  | writing settled => exact h
  | returned => trivial
  | rejected refusal => trivial

/-- **What a write left in a row that the memory has reached is followed.** -/
theorem Committed.followed (h : Committed registry desk row) (hsound : Sound registry desk)
    (hreached : desk.Reaches row.revision) : Followed registry desk row := by
  obtain ⟨hmanaged, write, hwrite, hkey, hrevision⟩ := h
  obtain ⟨inForce, hinForce, hle⟩ := hreached
  rw [← hrevision] at hle
  obtain ⟨last, hlast, hlater⟩ := desk.journal.exists_last hwrite hle
  obtain ⟨hmem, hsame, hwithin⟩ := Journal.of_last hlast
  refine ⟨last, hmem, hsame.trans hkey, hrevision ▸ hlater, ⟨inForce, hinForce, hwithin⟩, ?_⟩
  unfold SettingsMemory.get
  rw [(hsound.memory inForce hinForce).2 row.key hmanaged, ← hkey, Journal.asOf_of_last hlast]

/-! ## What a transaction does -/

theorem rows_commit {stored : StoredSettings} (h : stored.changes settled = true)
    (key : String) :
    (stored.commit settled).rows.get key
      = if settled.key = key then settled.entry else stored.rows.get key := by
  unfold StoredSettings.changes at h
  unfold StoredSettings.commit
  split
  · rename_i entry hentry
    rw [hentry]
    exact KeyMap.get_set
  · rename_i hentry
    rw [hentry, Option.isSome_none, Bool.false_or] at h
    rw [if_pos h, hentry]
    exact KeyMap.get_erase

theorem revision_commit {stored : StoredSettings} (h : stored.changes settled = true) :
    (stored.commit settled).revision = stored.revision + 1 := by
  unfold StoredSettings.changes at h
  unfold StoredSettings.commit
  split
  · rfl
  · rename_i hentry
    rw [hentry, Option.isSome_none, Bool.false_or] at h
    rw [if_pos h]

theorem commit_of_unchanged {stored : StoredSettings}
    (h : stored.changes settled = false) : stored.commit settled = stored := by
  unfold StoredSettings.changes at h
  rw [Bool.or_eq_false_iff] at h
  unfold StoredSettings.commit
  split
  · rename_i entry hentry
    rw [hentry] at h
    cases h.1
  · rw [if_neg (by simp [h.2])]

theorem journal_commit {author : Option ℕ} (h : desk.stored.changes settled = true) :
    (desk.commit author settled).journal
      = desk.journal.write author settled.key settled.entry := by
  unfold commit
  rw [if_pos h]

theorem commit_eq_self {author : Option ℕ} (h : desk.stored.changes settled = false) :
    desk.commit author settled = desk := by
  unfold commit
  rw [commit_of_unchanged h, if_neg (by simp [h])]

theorem snapshot_later {journal : Journal (Option ℕ) String OverlayEntry}
    {read : StoredSettings} (h : IsSnapshot journal read) {author : Option ℕ}
    {key : String} {entry : Option OverlayEntry} :
    IsSnapshot (journal.write author key entry) read :=
  ⟨Nat.le_succ_of_le h.made, fun other => by rw [Journal.asOf_write h.made, h.rows other]⟩

theorem grows_commit {author : Option ℕ} : Grows desk (desk.commit author settled) := by
  by_cases h : desk.stored.changes settled = true
  · refine ⟨fun write hwrite => ?_, fun read hread => ?_, fun _ h => h, fun _ h => h⟩
    · rw [journal_commit h]
      exact List.mem_cons_of_mem _ hwrite
    · rw [journal_commit h]
      exact snapshot_later hread
  · rw [commit_eq_self (by simpa using h)]
    exact ⟨fun _ h => h, fun _ h => h, fun _ h => h, fun _ h => h⟩

theorem sound_commit {author : Option ℕ} (h : Sound registry desk) :
    Sound registry (desk.commit author settled) := by
  by_cases hchanges : desk.stored.changes settled = true
  · have hgrows : Grows desk (desk.commit author settled) := grows_commit
    refine ⟨?_, ⟨?_, fun key => ?_⟩, fun inForce hinForce => ?_, h.changed,
      fun id call hcall => (h.calls id call hcall).grow hgrows,
      fun write hwrite => (h.resolved write hwrite).grow hgrows⟩
    · rw [journal_commit hchanges]
      exact (revision_commit hchanges).trans (congrArg (· + 1) h.current)
    · rw [journal_commit hchanges]
      exact ((revision_commit hchanges).trans (congrArg (· + 1) h.current)).le
    · rw [journal_commit hchanges]
      show (desk.stored.commit settled).rows.get key = _
      rw [show (desk.commit author settled).stored.revision = desk.journal.revision + 1 from
        (revision_commit hchanges).trans (congrArg (· + 1) h.current),
        Journal.asOf_write_self, rows_commit hchanges, h.stored.rows, h.current]
    · obtain ⟨hle, hrows⟩ := h.memory inForce hinForce
      rw [journal_commit hchanges]
      refine ⟨Nat.le_succ_of_le hle, fun key hmanaged => ?_⟩
      rw [Journal.asOf_write hle]
      exact hrows key hmanaged
  · rw [commit_eq_self (by simpa using hchanges)]
    exact h

/-! ## What a refresh does -/

theorem grows_of_same (hjournal : after.journal = desk.journal)
    (hforward : ∀ revision ∈ desk.revision, after.Reaches revision)
    (hannounced : ∀ announcement ∈ desk.announced, announcement ∈ after.announced) :
    Grows desk after := by
  refine ⟨fun write hwrite => hjournal ▸ hwrite, fun read hread => hjournal ▸ hread,
    fun revision hreached => ?_, hannounced⟩
  obtain ⟨inForce, hinForce, hle⟩ := hreached
  obtain ⟨later, hlater, hle'⟩ := hforward inForce hinForce
  exact ⟨later, hlater, hle.trans hle'⟩

theorem reaches_of_mem {revision : ℕ} (h : revision ∈ desk.revision) :
    desk.Reaches revision := ⟨revision, h, Nat.le_refl _⟩

@[simp] theorem mem_notifyChanged {keys : List String} {announcement : Announcement} :
    announcement ∈ (desk.notifyChanged keys).announced ↔
      announcement ∈ desk.announced ∨
        keys ≠ [] ∧ announcement = ⟨keys, desk.revision⟩ := by
  unfold notifyChanged
  dsimp only
  split
  · rename_i hnone
    simp [hnone]
  · rename_i hsome
    simp [hsome]

theorem grows_refreshed {answer : Except String StoredSettings}
    (hnewer : ∀ read, answer = .ok read → ∀ inForce ∈ desk.revision,
      inForce ≤ read.revision) :
    Grows desk (desk.refreshed registry answer) := by
  cases answer with
  | error problem =>
    exact grows_of_same rfl (fun _ h => reaches_of_mem h) fun _ h => h
  | ok read =>
    refine grows_of_same rfl (fun revision h => ?_) fun announcement h => ?_
    · exact ⟨read.revision, rfl, hnewer read rfl revision h⟩
    · exact mem_notifyChanged.mpr (Or.inl h)

theorem sound_refreshed {answer : Except String StoredSettings} (h : Sound registry desk)
    (hread : ∀ read, answer = .ok read → IsSnapshot desk.journal read)
    (hnewer : ∀ read, answer = .ok read → ∀ inForce ∈ desk.revision,
      inForce ≤ read.revision) :
    Sound registry (desk.refreshed registry answer) := by
  have hgrows : Grows desk (desk.refreshed registry answer) := grows_refreshed hnewer
  cases answer with
  | error problem =>
    exact ⟨h.current, h.stored, h.memory, fun key hkey => (nomatch hkey), h.calls,
      fun write hwrite => (h.resolved write hwrite).grow hgrows⟩
  | ok read =>
    refine ⟨h.current, h.stored, fun inForce hinForce => ?_, fun key hkey => ?_,
      fun id call hcall => (h.calls id call hcall).grow hgrows,
      fun write hwrite => (h.resolved write hwrite).grow hgrows⟩
    · obtain rfl : read.revision = inForce := Option.some.inj hinForce
      refine ⟨(hread read rfl).made, fun key hmanaged => ?_⟩
      show (read.rows.keep registry.isManaged).get key = _
      rw [KeyMap.get_keep, if_pos hmanaged]
      exact (hread read rfl).rows key
    · exact ⟨_, mem_notifyChanged.mpr (Or.inr ⟨List.ne_nil_of_mem hkey, rfl⟩), hkey, rfl⟩

/-! ## What the rest of a step does -/

theorem grows_put : Grows desk (desk.put id call) :=
  grows_of_same rfl (fun _ h => reaches_of_mem h) fun _ h => h

theorem sound_put (h : Sound registry desk) (hstage : StageSound registry desk call.stage) :
    Sound registry (desk.put id call) := by
  refine ⟨h.current, h.stored, h.memory, h.changed, fun other call' hcall => ?_,
    fun write hwrite => (h.resolved write hwrite).grow grows_put⟩
  show StageSound registry desk call'.stage
  by_cases hother : other = id
  · subst hother
    obtain rfl : call = call' := by simpa [put] using hcall
    exact hstage
  · exact h.calls other call' (by simpa [put, Function.update_of_ne hother] using hcall)

theorem grows_notifyChanged {keys : List String} : Grows desk (desk.notifyChanged keys) :=
  grows_of_same rfl (fun _ h => reaches_of_mem h)
    fun _ h => mem_notifyChanged.mpr (Or.inl h)

theorem sound_notifyChanged {keys : List String} (h : Sound registry desk) :
    Sound registry (desk.notifyChanged keys) := by
  have hgrows : Grows desk (desk.notifyChanged keys) := grows_notifyChanged
  refine ⟨h.current, h.stored, h.memory, fun key hkey => ?_,
    fun id call hcall => (h.calls id call hcall).grow hgrows,
    fun write hwrite => (h.resolved write hwrite).grow hgrows⟩
  obtain ⟨announcement, hmem, hshown⟩ := h.changed key hkey
  exact ⟨announcement, hgrows.announced announcement hmem, hshown⟩

theorem grows_withResolved {writes : List ResolvedWrite} :
    Grows desk (desk.withResolved writes) :=
  grows_of_same rfl (fun _ h => reaches_of_mem h) fun _ h => h

theorem sound_withResolved {writes : List ResolvedWrite} (h : Sound registry desk)
    (hwrites : ∀ write ∈ writes, Stands registry desk write) :
    Sound registry (desk.withResolved writes) := by
  refine ⟨h.current, h.stored, h.memory, h.changed, h.calls, fun write hwrite => ?_⟩
  refine Stands.grow ?_ grows_withResolved
  obtain hold | hnew := List.mem_append.mp hwrite
  · exact h.resolved write hold
  · exact hwrites write hnew

/-! ## One step -/

theorem isManaged_of_settle {write : SettingWrite} (h : registry.settle write = .ok settled) :
    registry.isManaged settled.key = true := by
  unfold SettingsRegistry.settle at h
  cases write with
  | clear key =>
    dsimp only at h
    split at h
    · rename_i hmanaged
      cases h
      exact hmanaged
    · cases h
  | set key raw sealing =>
    dsimp only at h
    split at h
    · cases h
    · rename_i hmanaged
      rw [Bool.not_eq_true', Bool.not_eq_false] at hmanaged
      split at h
      · cases h
      · split at h
        · cases h
          exact hmanaged
        · split at h
          · cases h
            exact hmanaged
          · split at h
            · cases h
            · cases h
              exact hmanaged

theorem stageSound_resume (hready : call.stage = .ready) :
    StageSound registry desk (desk.resume registry call).stage := by
  unfold resume
  split
  · trivial
  · exact fun row hrow => nomatch hrow
  · split
    · trivial
    · show StageSound registry desk call.stage
      rw [hready]
      trivial
  · split
    · trivial
    · rename_i settled hsettled
      exact isManaged_of_settle hsettled

theorem Committed.le_revision (h : Committed registry desk row) (hsound : Sound registry desk) :
    row.revision ≤ desk.stored.revision := by
  obtain ⟨-, write, hwrite, -, hrevision⟩ := h
  rw [hsound.current, ← hrevision]
  exact desk.journal.bounded write hwrite

/-- What the transaction of a write leaves for the rest of the call. -/
theorem stageSound_outcome {author : Option ℕ} (hsound : Sound registry desk)
    (hmanaged : registry.isManaged settled.key = true) :
    StageSound registry (desk.commit author settled) (.written (desk.outcomeOf settled)) := by
  unfold outcomeOf
  by_cases h : desk.stored.changes settled = true
  · rw [if_pos h]
    refine ⟨hmanaged, ⟨author, settled.key, settled.entry, desk.journal.revision + 1⟩, ?_, rfl,
      congrArg (· + 1) hsound.current.symm⟩
    rw [journal_commit h]
    exact List.mem_cons_self
  · rw [if_neg h]
    exact hmanaged

theorem sound_executed {failure : Option String} (hsound : Sound registry desk)
    (hcall : desk.calls id = some call) : Sound registry (desk.executed id call failure) := by
  have hstage := hsound.calls id call hcall
  unfold executed
  split
  · rename_i own _ hreading
    rw [hreading] at hstage
    refine sound_put hsound ⟨fun read hread => ?_, fun row hrow => ⟨hstage row hrow, ?_⟩⟩
    · cases failure with
      | some problem => cases hread
      | none => exact Except.ok.inj hread ▸ hsound.stored
    · intro read hread
      cases failure with
      | some problem => cases hread
      | none => exact Except.ok.inj hread ▸ (hstage row hrow).le_revision hsound
  · rename_i settled write tasks hwriting _
    rw [hwriting] at hstage
    split
    · exact sound_put hsound trivial
    · exact sound_put (sound_commit hsound) (stageSound_outcome hsound hstage)
  · exact hsound

/-- A clear that found no row resolves when the memory has reached what removed
it. -/
theorem stands_leftBy {key : String} {revision : ℕ}
    (hmanaged : registry.isManaged key = true)
    (htimely : ∀ write ∈ desk.journal.writes, write.key = key → write.revision ≤ revision →
      desk.Reaches write.revision) :
    ∀ write ∈ desk.leftBy key revision, Stands registry desk write := by
  intro write hwrite
  obtain ⟨last, hlast, rfl⟩ := Option.map_eq_some_iff.mp (Option.mem_toList.mp hwrite)
  obtain ⟨hmem, hkey, hle⟩ := Journal.of_last hlast
  exact ⟨⟨hmanaged, last, hmem, hkey, rfl⟩, htimely last hmem hkey hle, fun h => nomatch h⟩

/-- A write that changed its row announces its key before it resolves, if the last
refresh has not. -/
theorem stands_audited {keys : List String} (hsound : Sound registry desk)
    (hcommitted : Committed registry desk row) (hreached : desk.Reaches row.revision)
    (hkeys : keys = if row.key ∈ desk.memory.lastRefreshChanged then [] else [row.key]) :
    Stands registry (desk.notifyChanged keys) ⟨row, true⟩ := by
  refine ⟨hcommitted.grow grows_notifyChanged, hreached, fun _ => ?_⟩
  obtain ⟨inForce, hinForce, hle⟩ := hreached
  by_cases h : row.key ∈ desk.memory.lastRefreshChanged
  · obtain ⟨announcement, hmem, hkey, hshown⟩ := hsound.changed row.key h
    exact ⟨announcement, mem_notifyChanged.mpr (Or.inl hmem), hkey, inForce,
      hshown ▸ hinForce, hle⟩
  · rw [if_neg h] at hkeys
    refine ⟨⟨keys, desk.revision⟩, mem_notifyChanged.mpr (Or.inr ⟨?_, rfl⟩), ?_, inForce,
      hinForce, hle⟩
    · simp [hkeys]
    · simp [hkeys]

/-- What a refresh leaves for the rest of the call. -/
theorem stageSound_refreshed {answer : Except String StoredSettings} {own : Option ChangedRow}
    (hstage : StageSound registry desk (.read answer own))
    (hgrows : Grows desk (desk.refreshed registry answer)) :
    StageSound registry (desk.refreshed registry answer)
      (own.elim .ready fun row => .auditing row answer.isOk) := by
  cases own with
  | none => trivial
  | some row =>
    obtain ⟨hcommitted, hread⟩ := hstage.2 row rfl
    refine ⟨hcommitted.grow hgrows, fun hok => ?_⟩
    cases answer with
    | error problem => cases hok
    | ok read => exact ⟨read.revision, rfl, hread read rfl⟩

theorem sound_proceeded (hsound : Sound registry desk) (hcall : desk.calls id = some call)
    (htimely : Timely desk (.proceed id)) :
    Sound registry (desk.proceeded registry id call) := by
  have hstage := hsound.calls id call hcall
  have htimely := htimely call hcall
  unfold proceeded
  split
  · rename_i hready
    exact sound_put hsound (stageSound_resume hready)
  · rename_i answer own hread
    rw [hread] at hstage htimely
    have hnewer : ∀ read, answer = .ok read → ∀ inForce ∈ desk.revision,
        inForce ≤ read.revision := by
      rintro read rfl
      exact htimely
    exact sound_put (sound_refreshed hsound hstage.1 hnewer)
      (stageSound_refreshed hstage (grows_refreshed hnewer))
  · exact sound_put hsound trivial
  · rename_i key revision hwritten
    rw [hwritten] at hstage htimely
    exact sound_put (sound_withResolved hsound (stands_leftBy hstage htimely)) trivial
  · rename_i row hwritten
    rw [hwritten] at hstage
    refine sound_put hsound fun row' hrow => ?_
    obtain rfl := Option.some.inj hrow
    exact hstage
  · rename_i row reread hauditing
    rw [hauditing] at hstage htimely
    have hreached : desk.Reaches row.revision := by
      cases reread with
      | true => exact hstage.2 rfl
      | false => exact htimely
    refine sound_put (sound_withResolved (sound_notifyChanged hsound) ?_) trivial
    intro write hwrite
    rw [List.mem_singleton.mp hwrite]
    exact stands_audited hsound hstage.1 hreached rfl
  · exact hsound

theorem sound_step (hsound : Sound registry desk) (htimely : Timely desk event) :
    Sound registry (desk.step registry event) := by
  unfold step
  split
  · split
    · exact hsound
    · refine sound_put hsound ?_
      unfold begun
      split
      · trivial
      · trivial
  · split
    · rename_i call hcall
      exact sound_executed hsound hcall
    · exact hsound
  · split
    · rename_i call hcall
      exact sound_proceeded hsound hcall htimely
    · exact hsound
  · exact sound_commit hsound

/-! ## Exactly when the settings do not go back -/

theorem step_proceed (hcall : desk.calls id = some call) :
    desk.step registry (.proceed id) = desk.proceeded registry id call := by
  unfold step
  dsimp only
  rw [hcall]

/-- Only a read that is taken up changes what the memory shows. -/
theorem memory_step :
    (∃ id call read own, event = .proceed id ∧ desk.calls id = some call ∧
        call.stage = .read (.ok read) own) ∨
      (desk.step registry event).revision = desk.revision ∧
        (desk.step registry event).memory.overlayRows = desk.memory.overlayRows := by
  unfold step
  split
  · split
    · exact Or.inr ⟨rfl, rfl⟩
    · exact Or.inr ⟨rfl, rfl⟩
  · split
    · unfold executed
      split
      · exact Or.inr ⟨rfl, rfl⟩
      · split
        · exact Or.inr ⟨rfl, rfl⟩
        · exact Or.inr ⟨rfl, rfl⟩
      · exact Or.inr ⟨rfl, rfl⟩
    · exact Or.inr ⟨rfl, rfl⟩
  · rename_i id
    split
    · rename_i call hcall
      unfold proceeded
      split
      · exact Or.inr ⟨rfl, rfl⟩
      · rename_i answer own hread
        cases answer with
        | ok read => exact Or.inl ⟨id, call, read, own, rfl, hcall, hread⟩
        | error problem => exact Or.inr ⟨rfl, rfl⟩
      · exact Or.inr ⟨rfl, rfl⟩
      · exact Or.inr ⟨rfl, rfl⟩
      · exact Or.inr ⟨rfl, rfl⟩
      · exact Or.inr ⟨rfl, rfl⟩
      · exact Or.inr ⟨rfl, rfl⟩
    · exact Or.inr ⟨rfl, rfl⟩
  · exact Or.inr ⟨rfl, rfl⟩

theorem proceeded_of_read {read : StoredSettings} {own : Option ChangedRow}
    (h : call.stage = .read (.ok read) own) :
    desk.proceeded registry id call
      = (desk.refreshed registry (.ok read)).put id
          { call with stage := own.elim .ready fun row => .auditing row true } := by
  unfold proceeded
  rw [h]
  rfl

theorem drop_notifyChanged (desk : SettingsDesk) {keys : List String} (h : keys ≠ []) :
    (desk.notifyChanged keys).announced.drop desk.announced.length
      = [⟨keys, desk.revision⟩] := by
  unfold notifyChanged
  dsimp only
  rw [if_neg h, List.drop_append_of_le_length (Nat.le_refl _), List.drop_length,
    List.nil_append]

/-- **What comes to be seen is announced**, once it can be read. -/
theorem announced_step (key : String)
    (h : (desk.step registry event).memory.overlayRows.get key ≠
      desk.memory.overlayRows.get key) :
    ∃ announcement ∈ (desk.step registry event).announced.drop desk.announced.length,
      key ∈ announcement.keys ∧
        announcement.shown = (desk.step registry event).revision := by
  obtain ⟨id, call, read, own, rfl, hcall, hread⟩ | ⟨-, hsame⟩ := @memory_step registry desk event
  · rw [step_proceed hcall, proceeded_of_read hread] at h ⊢
    have hkey : key ∈ diffOverlays desk.memory.overlayRows
        (read.rows.keep registry.isManaged) := mem_diffOverlays.mpr h
    have hlast := drop_notifyChanged
      { desk with memory := desk.memory.install registry read } (List.ne_nil_of_mem hkey)
    exact ⟨_, hlast ▸ List.mem_cons_self, hkey, rfl⟩
  · exact absurd (congrArg (KeyMap.get · key) hsame) h

/-- **One step**: the settings do not go back exactly when it is timely. -/
theorem inForce_iff_timely_step (hsound : Sound registry desk) :
    InForce registry desk event ↔ Timely desk event := by
  constructor
  · intro h
    cases event with
    | begin id request => trivial
    | execute id failure => trivial
    | elsewhere write => trivial
    | proceed id =>
      intro call hcall
      have hforward := h.forward
      have hfollowed := h.followed
      rw [step_proceed hcall] at hforward hfollowed
      unfold proceeded at hforward hfollowed
      split
      · rename_i read own hread
        rw [hread] at hforward
        intro inForce hinForce
        obtain ⟨later, hlater, hle⟩ := hforward inForce hinForce
        obtain rfl : read.revision = later := Option.some.inj hlater
        exact hle
      · rename_i row hauditing
        rw [hauditing] at hfollowed
        obtain ⟨write, -, -, hlater, ⟨inForce, hinForce, hle⟩, -⟩ :=
          hfollowed ⟨row, true⟩ (List.mem_append_right _ List.mem_cons_self)
        exact ⟨inForce, hinForce, hlater.trans hle⟩
      · rename_i key revision hwritten
        rw [hwritten] at hfollowed
        rintro write hwrite rfl hle
        obtain ⟨last, hlast, hlater⟩ := desk.journal.exists_last hwrite hle
        have hmem : (⟨⟨write.key, last.revision⟩, false⟩ : ResolvedWrite) ∈
            desk.leftBy write.key revision := by
          unfold leftBy
          rw [hlast]
          exact List.mem_cons_self
        obtain ⟨later, -, -, hlater', ⟨inForce, hinForce, hle'⟩, -⟩ :=
          hfollowed _ (List.mem_append_right _ hmem)
        exact ⟨inForce, hinForce, (hlater.trans hlater').trans hle'⟩
      · trivial
  · intro h
    have hafter : Sound registry (desk.step registry event) := sound_step hsound h
    refine ⟨fun revision hrevision => ?_, fun write hwrite => ?_, fun write hwrite => ?_,
      announced_step⟩
    · obtain ⟨id, call, read, own, rfl, hcall, hread⟩ | ⟨hsame, -⟩ :=
        @memory_step registry desk event
      · have hnewer := h call hcall
        rw [hread] at hnewer
        rw [step_proceed hcall, proceeded_of_read hread]
        exact ⟨read.revision, rfl, hnewer revision hrevision⟩
      · exact ⟨revision, hsame ▸ hrevision, Nat.le_refl _⟩
    · have hstands := hafter.resolved write hwrite
      exact hstands.committed.followed hafter hstands.reached
    · exact (hafter.resolved write hwrite).told

theorem sound_boot (stored : StoredSettings) : Sound registry (boot stored) where
  current := rfl
  stored := ⟨Nat.le_refl _, fun _ => rfl⟩
  memory := fun _ h => nomatch h
  changed := fun _ h => nomatch h
  calls := fun _ _ h => nomatch h
  resolved := fun _ h => nomatch h

/-- **The settings in force do not go back in time along a run exactly when every
step is timely**: no read is taken up that is older than the memory, and no write
resolves that the memory has not reached. -/
theorem inForce_iff_timely (registry : SettingsRegistry) (stored : StoredSettings)
    (events : List SettingsEvent) :
    Machine.Always (step registry) (InForce registry) (boot stored) events ↔
      Machine.Always (step registry) Timely (boot stored) events := by
  refine @Machine.always_congr_of_keeps _ _ (step registry) (Sound registry) _ _
    (fun desk event hsound h => ?_) (fun desk event => inForce_iff_timely_step) _ _
    (sound_boot stored)
  exact sound_step hsound ((inForce_iff_timely_step hsound).mp h)

end Spec

/-! ## A value that comes back -/

/-- A registry of one switch, which is on unless a row says otherwise. -/
def oneSwitch : SettingsRegistry where
  isManaged := fun key => key == "dispatch.enabled"
  isSecret := fun _ => false
  parse := fun _ raw => .ok raw
  default := fun _ => "true"
  invalidFallback := fun _ => none
  environment := fun _ => none
  openSealed := fun _ _ => .error "no key"

/-- No rows. -/
def noOverrides : StoredSettings := ⟨KeyMap.empty, 0⟩

/-- The dispatch switch, turned off. -/
def switchOff : SettingWrite := .set "dispatch.enabled" "false" (.error "not a secret")

/-- A call is taken through its transaction, its own read and its audit row. -/
def carriedOut (id : ℕ) : List SettingsEvent :=
  [.proceed id, .execute id none, .proceed id, .execute id none, .proceed id, .proceed id]

/-- A turn of the loop reads the rows; before its answer comes, the switch is turned
off, and the write resolves. -/
def offDuringRead : List SettingsEvent :=
  [.begin 0 .refresh, .proceed 0, .execute 0 none, .begin 1 (.write switchOff)] ++
    carriedOut 1

/-- **A write is taken back** when the earlier read is taken up after it. -/
theorem takes_back_a_write :
    ¬ ∀ registry stored events,
      Machine.Always (step registry) (InForce registry) (boot stored) events := by
  intro h
  have hrun := h oneSwitch noOverrides (offDuringRead ++ [.proceed 0])
  have hlast : InForce oneSwitch
      (Machine.run (step oneSwitch) (boot noOverrides) offDuringRead) (.proceed 0) :=
    hrun.suffix.1
  have hbefore : (Machine.run (step oneSwitch) (boot noOverrides) offDuringRead).revision
      = some 1 := by
    decide
  have hafter : (step oneSwitch (Machine.run (step oneSwitch) (boot noOverrides)
      offDuringRead) (.proceed 0)).revision = some 0 := by
    decide
  obtain ⟨inForce, hinForce, hle⟩ := hlast.forward 1 hbefore
  rw [hafter] at hinForce
  obtain rfl := Option.some.inj hinForce
  exact absurd hle (by decide)

/-- The switch is on again. -/
example : (Machine.run (step oneSwitch) (boot noOverrides)
    (offDuringRead ++ [.proceed 0])).memory.get oneSwitch "dispatch.enabled" = "true" := by
  decide

end SettingsDesk

end Opifex
