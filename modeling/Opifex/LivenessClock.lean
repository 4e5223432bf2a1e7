import Opifex.GitLiveness
import Opifex.IngestInterleaving
import Opifex.LivenessVerdicts

/-!
# Two writers of one clock

`lastEventAt` is the clock the watchdog reads a run's silence from. A delivery
moves it through a guard that only ever moves it forward. The git watcher
compares what it found with the start of the run and not with what is stored,
so it moves the clock back whenever git's newest activity is older than the
newest event.

The statements of any number of deliveries and sweeps are interleaved here.
The clock never goes back, a run is never taken for silent that was just heard
from, and a redelivery never passes the guard again, **exactly if no sweep
writes an instant before the stored one**, and the watchdog does not look in
between the two statements of a delivery that stored an event and has not
moved the clock yet (`monotone_iff`).
-/

namespace Opifex

open HighWater (below raise)

/-- A call under way that writes the run: a delivery between two of its statements, or a
sweep of the git watcher before its update. -/
inductive LivenessCall where
  /-- A delivery, with the statements it has still to execute. -/
  | ingesting (batch : Batch) (progress : Progress)
      (left : List IngestStatement)
  /-- A sweep of the git watcher, with the events it has still to record. -/
  | recording (events : List RunEventPayload) (update : GitUpdate)
  | returned

/-- One run with the calls that write it. The list of batches is ghost: it says which
deliveries have moved the clock. -/
structure LivenessDesk where
  watched : WatchedRun
  calls : List LivenessCall := []
  /-- The batches whose delivery came to move the clock. -/
  clocked : List Batch := []

/-- What happens next: events arrive, the git watcher has read, one of them executes its
next statement, or the watchdog looks. -/
inductive LivenessTurn where
  /-- A batch is delivered. -/
  | deliver (batch : Batch)
  /-- The git watcher has read what git says of the run. -/
  | observe (observation : GitObservation) (now : Instant)
  /-- A call executes its next statement. -/
  | resume (call : ℕ)
  /-- The watchdog looks for silent runs. -/
  | judge (now : Instant)

namespace LivenessDesk

/-- What the git watcher knows of the run. -/
def gitWatched (watched : WatchedRun) (observation : GitObservation) :
    GitObservation :=
  { observation with
    run :=
      { observation.run with
        startedAt := watched.record.run.startedAt
        lastKnownHeadCommit := watched.record.run.headCommit
        pullRequestUrl := watched.record.run.pullRequestUrl } }

/-- The run with another record. -/
def withRecord (record : RunRecord) (watched : WatchedRun) : WatchedRun :=
  { watched with record := record }

/-- The next statement of a call. -/
def proceed (desk : LivenessDesk) (id : ℕ) : LivenessCall → LivenessDesk
  | .ingesting _ _ [] | .returned =>
    { desk with calls := desk.calls.set id .returned }
  | .ingesting batch progress (statement :: left) =>
    let executed := execute batch desk.watched.record progress statement
    { watched := withRecord executed.1 desk.watched
      calls := desk.calls.set id (.ingesting batch executed.2 left)
      clocked :=
        if statement = .lastEventAt then batch :: desk.clocked
        else desk.clocked }
  | .recording (event :: events) update =>
    { desk with
      watched := withRecord
        { desk.watched.record with
          events := createMany desk.watched.record.events [toRow event] }
        desk.watched
      calls := desk.calls.set id (.recording events update) }
  | .recording [] update =>
    { desk with
      watched := withRecord
        { desk.watched.record with
          run := desk.watched.record.run.gitUpdate update }
        desk.watched
      calls := desk.calls.set id .returned }

/-- One turn. The git watcher looks at live runs only. -/
def step (desk : LivenessDesk) : LivenessTurn → LivenessDesk
  | .deliver batch =>
    { desk with calls := desk.calls ++ [.ingesting batch {} program] }
  | .observe observation now =>
    if desk.watched.isLive then
      let observation := gitWatched desk.watched observation
      { desk with
        calls := desk.calls ++
          [.recording observation.derivedEvents (observation.update now)] }
    else desk
  | .resume id =>
    match desk.calls[id]? with
    | none => desk
    | some call => desk.proceed id call
  | .judge _ => desk

/-- The clock of the run. -/
def clock (desk : LivenessDesk) : Option Instant :=
  desk.watched.record.run.lastEventAt

/-! ## What is asked of the clock -/

section Properties

variable (fidelityOf : RunnerKey → Option StreamingFidelity)

/-- The run as the watchdog judges it. -/
def state (desk : LivenessDesk) : WatchedRunState :=
  desk.watched.liveState fidelityOf

/-- A stored event of the runner is within the threshold. -/
def IsYoung (desk : LivenessDesk) (now : Instant) (row : RunEventRow) : Prop :=
  row ∈ desk.watched.record.events ∧ row.source = .runnerReported
    ∧ now - row.occurredAt ≤ thresholdFor (desk.state fidelityOf).fidelity

/-- **The clock is one**: it never goes back, no run is taken for silent that
was heard from within its threshold, and a batch whose delivery came to the
guard does not pass it when it is delivered again. -/
structure Monotone (desk : LivenessDesk) (turn : LivenessTurn) : Prop where
  forward : ∀ current ∈ desk.clock, ∃ next ∈ (desk.step turn).clock,
    current ≤ next
  heard : ∀ now, turn = .judge now →
    ((desk.state fidelityOf).silence now).isSome →
      ∀ row, ¬ desk.IsYoung fidelityOf now row
  once : ∀ id batch progress left, turn = .resume id →
    desk.calls[id]? = some (.ingesting batch progress (.lastEventAt :: left)) →
      batch ∈ desk.clocked → below desk.clock batch.newest = false

/-- A delivery of the row has not moved the clock yet. -/
def Unclocked (desk : LivenessDesk) (row : RunEventRow) : Prop :=
  ∃ batch progress left,
    LivenessCall.ingesting batch progress left ∈ desk.calls
      ∧ .lastEventAt ∈ left ∧ row ∈ batch.events.map toRow

/-- Nothing disturbs the clock in this turn: a sweep of the git watcher writes
no instant before the stored one, and where the watchdog looks at a clock past
the threshold no delivery of a young event is about to move it. -/
structure Undisturbed (desk : LivenessDesk) (turn : LivenessTurn) : Prop where
  git : ∀ id update, turn = .resume id →
    desk.calls[id]? = some (.recording [] update) →
      ∀ activity ∈ update.writes, ∀ current ∈ desk.clock, current ≤ activity
  settled : ∀ now, turn = .judge now → (desk.state fidelityOf).isJudgeable →
    thresholdFor (desk.state fidelityOf).fidelity
        < now - (desk.state fidelityOf).quietSince →
      ∀ row, desk.IsYoung fidelityOf now row → ¬ desk.Unclocked row

end Properties

/-! ## The invariant -/

/-- Everything that was heard is on the clock, or is about to be: a delivery that has
stored its events has the statement still before it that moves the clock. -/
structure Sound (desk : LivenessDesk) : Prop where
  heard : ∀ row ∈ desk.watched.record.events, row.source = .runnerReported →
    (∃ current ∈ desk.clock, row.occurredAt ≤ current) ∨ desk.Unclocked row
  clocked : ∀ batch ∈ desk.clocked,
    ∃ current ∈ desk.clock, batch.newest ≤ current
  program : ∀ batch progress left,
    LivenessCall.ingesting batch progress left ∈ desk.calls →
      ∃ n, left = program.drop n
  derived : ∀ events update, LivenessCall.recording events update ∈ desk.calls →
    ∀ event ∈ events, event.source = .gitDerived

/-- A clock that is not behind another. -/
def NotBehind (before after : Option Instant) : Prop :=
  ∀ current ∈ before, ∃ next ∈ after, current ≤ next

theorem notBehind_refl (column : Option Instant) : NotBehind column column :=
  fun current h => ⟨current, h, le_rfl⟩

theorem NotBehind.of_le {before after : Option Instant}
    (h : NotBehind before after) {t : Instant}
    (ht : ∃ current ∈ before, t ≤ current) : ∃ next ∈ after, t ≤ next := by
  obtain ⟨current, hcurrent, hle⟩ := ht
  obtain ⟨next, hnext, hle'⟩ := h current hcurrent
  exact ⟨next, hnext, le_trans hle hle'⟩

theorem notBehind_raise (column : Option Instant) (value : Instant) :
    NotBehind column (raise column value)
      ∧ ∃ next ∈ raise column value, value ≤ next := by
  cases column with
  | none =>
    rw [HighWater.raise_none]
    exact ⟨fun _ h => (nomatch h), value, rfl, le_rfl⟩
  | some current =>
    rw [HighWater.raise_some]
    refine ⟨fun t ht => ⟨_, rfl, ?_⟩, _, rfl, le_max_right _ _⟩
    rw [← Option.some.inj ht]
    exact le_max_left _ _

theorem below_eq_false {column : Option Instant} {value : Instant} :
    below column value = false ↔ ∃ current ∈ column, value ≤ current := by
  cases column with
  | none => simp
  | some current => simp

theorem mem_set_of_ne {calls : List LivenessCall} {id : ℕ}
    {call other next : LivenessCall} (hcall : calls[id]? = some call)
    (hother : other ∈ calls) (hne : other ≠ call) :
    other ∈ calls.set id next := by
  obtain ⟨j, hj⟩ := List.mem_iff_getElem?.mp hother
  have hid : id ≠ j := by
    rintro rfl
    exact hne (Option.some.inj (hj.symm.trans hcall))
  exact List.mem_iff_getElem?.mpr ⟨j, (List.getElem?_set_ne hid).trans hj⟩

/-- Only the statements in their order: the one that stores comes first. -/
theorem left_of_createMany {left : List IngestStatement}
    (h : ∃ n, IngestStatement.createMany :: left = program.drop n) :
    .lastEventAt ∈ left := by
  obtain ⟨n, hn⟩ := h
  cases n with
  | zero =>
    injection hn with _ hrest
    rw [hrest]
    decide
  | succ n =>
    have hdrop : IngestStatement.createMany ∈ program.tail.drop n := by
      show _ ∈ program.drop (n + 1)
      rw [← hn]
      exact List.mem_cons_self
    exact absurd (List.mem_of_mem_drop hdrop) (by decide)

section Step

variable {fidelityOf : RunnerKey → Option StreamingFidelity}
  {desk : LivenessDesk} {turn : LivenessTurn}

/-- **What a statement of a delivery does to the clock.** -/
theorem clock_proceed_ingesting {id : ℕ} {batch : Batch} {progress : Progress}
    {statement : IngestStatement} {left : List IngestStatement} :
    (desk.proceed id (.ingesting batch progress (statement :: left))).clock
      = if statement = .lastEventAt then raise desk.clock batch.newest
        else desk.clock :=
  lastEventAt_execute batch progress statement

theorem clock_proceed_recording {id : ℕ} {update : GitUpdate} :
    (desk.proceed id (.recording [] update)).clock
      = update.writes.or desk.clock := rfl

/-- **An undisturbed turn moves the clock forward or not at all.** -/
theorem notBehind_step (h : desk.Undisturbed fidelityOf turn) :
    NotBehind desk.clock (desk.step turn).clock := by
  cases turn with
  | deliver batch => exact notBehind_refl _
  | observe observation now =>
    rw [step]
    split_ifs
    · exact notBehind_refl _
    · exact notBehind_refl _
  | judge now => exact notBehind_refl _
  | resume id =>
    rw [step]
    cases hcall : desk.calls[id]? with
    | none => exact notBehind_refl _
    | some call =>
      dsimp only
      cases call with
      | returned => exact notBehind_refl _
      | ingesting batch progress left =>
        cases left with
        | nil => exact notBehind_refl _
        | cons statement left =>
          rw [clock_proceed_ingesting]
          split_ifs
          · exact (notBehind_raise _ _).1
          · exact notBehind_refl _
      | recording events update =>
        cases events with
        | cons event events => exact notBehind_refl _
        | nil =>
          rw [clock_proceed_recording]
          intro current hcurrent
          cases hwrites : update.writes with
          | none => exact ⟨current, hcurrent, le_rfl⟩
          | some activity =>
            exact ⟨activity, rfl,
              h.git id update rfl hcall activity hwrites current hcurrent⟩

/-- A call that goes on leaves the rows that are about to be clocked so, but
for those of a delivery that moves the clock now. -/
theorem Unclocked.set {row : RunEventRow} {id : ℕ} {call next : LivenessCall}
    (hcall : desk.calls[id]? = some call) (h : desk.Unclocked row)
    {after : LivenessDesk} (hafter : after.calls = desk.calls.set id next)
    (hnext : ∀ batch progress left, call = .ingesting batch progress left →
      .lastEventAt ∈ left → row ∈ batch.events.map toRow →
        ∃ progress' left', next = .ingesting batch progress' left'
          ∧ .lastEventAt ∈ left') :
    after.Unclocked row := by
  obtain ⟨batch, progress, left, hmem, hleft, hrow⟩ := h
  by_cases hsame : LivenessCall.ingesting batch progress left = call
  · obtain ⟨progress', left', hnext', hleft'⟩ :=
      hnext batch progress left hsame.symm hleft hrow
    refine ⟨batch, progress', left', ?_, hleft', hrow⟩
    rw [hafter, ← hnext']
    have hlt : id < desk.calls.length :=
      (List.getElem?_eq_some_iff.mp hcall).1
    exact List.mem_set hlt next
  · refine ⟨batch, progress, left, ?_, hleft, hrow⟩
    rw [hafter]
    exact mem_set_of_ne hcall hmem hsame

/-- A delivery that is started is about to execute all of its statements. -/
theorem Sound.deliver (h : desk.Sound) (batch : Batch) :
    (desk.step (.deliver batch)).Sound := by
  refine ⟨fun row hrow hsource => ?_, h.clocked, ?_, ?_⟩
  · refine (h.heard row hrow hsource).imp id ?_
    rintro ⟨other, progress, left, hmem, hrest⟩
    exact ⟨other, progress, left, List.mem_append_left _ hmem, hrest⟩
  · intro other progress left hmem
    rcases List.mem_append.mp hmem with hmem | hmem
    · exact h.program other progress left hmem
    · injection List.mem_singleton.mp hmem with _ _ hleft
      exact ⟨0, hleft⟩
  · intro events update hmem
    rcases List.mem_append.mp hmem with hmem | hmem
    · exact h.derived events update hmem
    · cases List.mem_singleton.mp hmem

/-- A sweep that is started is about to record what it derived. -/
theorem Sound.observe (h : desk.Sound) (observation : GitObservation)
    (now : Instant) : (desk.step (.observe observation now)).Sound := by
  rw [step]
  split_ifs
  · refine ⟨fun row hrow hsource => ?_, h.clocked, ?_, ?_⟩
    · refine (h.heard row hrow hsource).imp id ?_
      rintro ⟨other, progress, left, hmem, hrest⟩
      exact ⟨other, progress, left, List.mem_append_left _ hmem, hrest⟩
    · intro other progress left hmem
      rcases List.mem_append.mp hmem with hmem | hmem
      · exact h.program other progress left hmem
      · cases List.mem_singleton.mp hmem
    · intro events update hmem event hevent
      rcases List.mem_append.mp hmem with hmem | hmem
      · exact h.derived events update hmem event hevent
      · injection List.mem_singleton.mp hmem with hevents _
        rw [hevents] at hevent
        exact source_derivedEvents hevent
  · exact h

/-- **A statement of a delivery keeps the invariant.** -/
theorem Sound.ingest (h : desk.Sound) {id : ℕ} {batch : Batch}
    {progress : Progress} {statement : IngestStatement}
    {left : List IngestStatement}
    (hcall : desk.calls[id]? = some (.ingesting batch progress
      (statement :: left))) :
    (desk.proceed id (.ingesting batch progress (statement :: left))).Sound := by
  generalize hafter : desk.proceed id
    (.ingesting batch progress (statement :: left)) = after
  have hclock : after.clock
      = if statement = .lastEventAt then raise desk.clock batch.newest
        else desk.clock := by
    rw [← hafter]
    exact clock_proceed_ingesting
  have hcalls : after.calls = desk.calls.set id (.ingesting batch
      (execute batch desk.watched.record progress statement).2 left) := by
    rw [← hafter]
    rfl
  have hevents : after.watched.record.events
      = if statement = .createMany then
          createMany desk.watched.record.events (batch.events.map toRow)
        else desk.watched.record.events := by
    rw [← hafter]
    exact events_execute batch progress statement
  have hforward : NotBehind desk.clock after.clock := by
    rw [hclock]
    split_ifs
    · exact (notBehind_raise _ _).1
    · exact notBehind_refl _
  have hmem : LivenessCall.ingesting batch progress (statement :: left)
      ∈ desk.calls := List.mem_of_getElem? hcall
  obtain ⟨n, hn⟩ := h.program _ _ _ hmem
  -- a row of the batch is on the clock once the clock was moved
  have hmoved : statement = .lastEventAt →
      ∀ row ∈ batch.events.map toRow, ∃ current ∈ after.clock,
        row.occurredAt ≤ current := by
    intro hstatement row hrow
    rw [hclock, if_pos hstatement]
    obtain ⟨event, hevent, rfl⟩ := List.mem_map.mp hrow
    obtain ⟨next, hnext, hle⟩ := (notBehind_raise desk.clock batch.newest).2
    exact ⟨next, hnext,
      le_trans ((newestOf_spec batch.newest_eq).2 event hevent) hle⟩
  have hkeep : ∀ row, (∃ current ∈ desk.clock, row.occurredAt ≤ current)
      ∨ desk.Unclocked row →
        (∃ current ∈ after.clock, row.occurredAt ≤ current)
          ∨ after.Unclocked row := by
    intro row hrow
    by_cases hlate : statement = .lastEventAt
        ∧ row ∈ batch.events.map toRow
    · exact Or.inl (hmoved hlate.1 row hlate.2)
    · refine hrow.imp hforward.of_le fun hunclocked => ?_
      refine hunclocked.set hcall hcalls ?_
      intro other progress' left' hother hleft' hrow'
      injection hother with hbatch hprogress hleft
      subst hbatch
      rw [← hleft] at hleft'
      refine ⟨_, left, rfl, ?_⟩
      rcases List.mem_cons.mp hleft' with hfirst | hrest
      · exact absurd ⟨hfirst.symm, hrow'⟩ hlate
      · exact hrest
  refine ⟨fun row hrow hsource => ?_, fun other hother => ?_, ?_, ?_⟩
  · rw [hevents] at hrow
    by_cases hstore : statement = .createMany
    · rw [if_pos hstore] at hrow
      rcases mem_createMany hrow with hrow | hrow
      · exact hkeep row (h.heard row hrow hsource)
      · -- stored just now, and the clock is moved next
        refine Or.inr ⟨batch,
          (execute batch desk.watched.record progress statement).2, left,
          ?_, ?_, hrow⟩
        · rw [hcalls]
          exact List.mem_set (List.getElem?_eq_some_iff.mp hcall).1 _
        · rw [hstore] at hn
          exact left_of_createMany ⟨n, hn⟩
    · rw [if_neg hstore] at hrow
      exact hkeep row (h.heard row hrow hsource)
  · have hclocked : after.clocked
        = if statement = .lastEventAt then batch :: desk.clocked
          else desk.clocked := by
      rw [← hafter]
      rfl
    rw [hclocked] at hother
    by_cases hstatement : statement = .lastEventAt
    · rw [if_pos hstatement] at hother
      rcases List.mem_cons.mp hother with rfl | hother
      · rw [hclock, if_pos hstatement]
        exact (notBehind_raise _ _).2
      · exact hforward.of_le (h.clocked other hother)
    · rw [if_neg hstatement] at hother
      exact hforward.of_le (h.clocked other hother)
  · intro other progress' left' hother
    rw [hcalls] at hother
    rcases List.mem_or_eq_of_mem_set hother with hother | hother
    · exact h.program other progress' left' hother
    · injection hother with _ _ hleft
      refine ⟨n + 1, ?_⟩
      rw [hleft, ← List.drop_drop, ← hn]
      rfl
  · intro events update hother
    rw [hcalls] at hother
    rcases List.mem_or_eq_of_mem_set hother with hother | hother
    · exact h.derived events update hother
    · cases hother

/-- **A statement of a sweep keeps the invariant** unless it moves the clock
back. -/
theorem Sound.record (h : desk.Sound) {id : ℕ} {events : List RunEventPayload}
    {update : GitUpdate}
    (hcall : desk.calls[id]? = some (.recording events update))
    (hforward : NotBehind desk.clock
      (desk.proceed id (.recording events update)).clock) :
    (desk.proceed id (.recording events update)).Sound := by
  have hmem : LivenessCall.recording events update ∈ desk.calls :=
    List.mem_of_getElem? hcall
  have hderived := h.derived events update hmem
  generalize hafter : desk.proceed id (.recording events update) = after
    at hforward ⊢
  have hcalls : ∃ next, after.calls = desk.calls.set id next
      ∧ (next = .returned
        ∨ ∃ rest, (∀ event ∈ rest, event ∈ events)
          ∧ next = .recording rest update) := by
    rw [← hafter]
    cases events with
    | nil => exact ⟨.returned, rfl, Or.inl rfl⟩
    | cons event events =>
      exact ⟨.recording events update, rfl, Or.inr ⟨events,
        fun other hother => List.mem_cons_of_mem event hother, rfl⟩⟩
  have hclocked : after.clocked = desk.clocked := by
    rw [← hafter]
    cases events with
    | nil => rfl
    | cons event events => rfl
  -- what git says is no word of the runner
  have hevents : ∀ row ∈ after.watched.record.events,
      row.source = .runnerReported → row ∈ desk.watched.record.events := by
    intro row hrow hsource
    rw [← hafter] at hrow
    cases events with
    | nil => exact hrow
    | cons event events =>
      rcases mem_createMany hrow with hrow | hrow
      · exact hrow
      · rw [List.mem_singleton.mp hrow] at hsource
        have hgit : event.source = .gitDerived :=
          hderived event List.mem_cons_self
        have hreported : event.source = .runnerReported := hsource
        rw [hgit] at hreported
        cases hreported
  obtain ⟨next, hcalls, hnext⟩ := hcalls
  have hkept : ∀ call ∈ after.calls, call ∈ desk.calls ∨ call = next := by
    intro call hmem'
    rw [hcalls] at hmem'
    exact List.mem_or_eq_of_mem_set hmem'
  refine ⟨fun row hrow hsource => ?_, fun batch hbatch => ?_, ?_, ?_⟩
  · refine (h.heard row (hevents row hrow hsource) hsource).imp
      hforward.of_le fun hunclocked => hunclocked.set hcall hcalls ?_
    intro batch progress left hother
    cases hother
  · rw [hclocked] at hbatch
    exact hforward.of_le (h.clocked batch hbatch)
  · intro batch progress left hother
    rcases hkept _ hother with hother | hother
    · exact h.program batch progress left hother
    · rcases hnext with hnext | ⟨rest, -, hnext⟩
      · cases hother.trans hnext
      · cases hother.trans hnext
  · intro others update' hother
    rcases hkept _ hother with hother | hother
    · exact h.derived others update' hother
    · rcases hnext with hnext | ⟨rest, hrest, hnext⟩
      · cases hother.trans hnext
      · injection hother.trans hnext with hothers _
        rw [hothers]
        exact fun event hevent => hderived event (hrest event hevent)

/-- A call that only returns keeps the invariant. -/
theorem Sound.returned (h : desk.Sound) {id : ℕ} {call : LivenessCall}
    (hcall : desk.calls[id]? = some call)
    (hdone : ∀ batch progress left, call = .ingesting batch progress left →
      left = []) :
    Sound { desk with calls := desk.calls.set id .returned } := by
  have hkept : ∀ other ∈ desk.calls.set id .returned,
      other ∈ desk.calls ∨ other = .returned := fun other hother =>
    List.mem_or_eq_of_mem_set hother
  refine ⟨fun row hrow hsource => ?_, h.clocked, ?_, ?_⟩
  · refine (h.heard row hrow hsource).imp (fun hclock => hclock)
      fun hunclocked => hunclocked.set hcall rfl ?_
    intro batch progress left hother hleft
    rw [hdone batch progress left hother] at hleft
    cases hleft
  · intro batch progress left hother
    rcases hkept _ hother with hother | hother
    · exact h.program batch progress left hother
    · cases hother
  · intro events update hother
    rcases hkept _ hother with hother | hother
    · exact h.derived events update hother
    · cases hother

/-- **Every undisturbed turn keeps the invariant.** -/
theorem sound_step (h : desk.Sound) (hund : desk.Undisturbed fidelityOf turn) :
    (desk.step turn).Sound := by
  have hforward := notBehind_step hund
  cases turn with
  | deliver batch => exact h.deliver batch
  | observe observation now => exact h.observe observation now
  | judge now => exact h
  | resume id =>
    rw [step] at hforward ⊢
    cases hcall : desk.calls[id]? with
    | none => exact h
    | some call =>
      rw [hcall] at hforward
      dsimp only at hforward ⊢
      cases call with
      | returned => exact h.returned hcall fun _ _ _ hother => nomatch hother
      | recording events update => exact h.record hcall hforward
      | ingesting batch progress left =>
        cases left with
        | nil =>
          refine h.returned hcall fun _ _ _ hother => ?_
          injection hother with _ _ hleft
          exact hleft.symm
        | cons statement left => exact h.ingest hcall

/-! ## The clock is monotone exactly where nothing disturbs it -/

/-- The runner was heard from no later than the clock says. -/
theorem quietSince_of_clock {current : Instant}
    (h : current ∈ desk.clock) :
    (desk.state fidelityOf).quietSince = current := by
  show desk.clock.getD _ = current
  rw [Option.mem_def.mp h]
  rfl

/-- **An undisturbed turn keeps to the clock.** -/
theorem monotone_of_undisturbed (h : desk.Sound)
    (hund : desk.Undisturbed fidelityOf turn) :
    desk.Monotone fidelityOf turn := by
  refine ⟨notBehind_step hund, ?_, ?_⟩
  · intro now hturn hsilent row hyoung
    obtain ⟨hjudgeable, hpast⟩ := isSome_silence.mp hsilent
    rcases h.heard row hyoung.1 hyoung.2.1 with ⟨current, hclock, hle⟩ | hunclocked
    · rw [quietSince_of_clock hclock] at hpast
      have hyoung' := hyoung.2.2
      linarith
    · exact hund.settled now hturn hjudgeable hpast row hyoung hunclocked
  · intro id batch progress left hturn hcall hclocked
    exact below_eq_false.mpr (h.clocked batch hclocked)

/-- **A turn that keeps to the clock is undisturbed.** -/
theorem undisturbed_of_monotone (h : desk.Monotone fidelityOf turn) :
    desk.Undisturbed fidelityOf turn := by
  refine ⟨?_, ?_⟩
  · rintro id update rfl hcall activity hactivity current hcurrent
    obtain ⟨next, hnext, hle⟩ := h.forward current hcurrent
    rw [step, hcall] at hnext
    dsimp only at hnext
    rw [clock_proceed_recording, Option.mem_def.mp hactivity] at hnext
    rwa [← Option.some.inj hnext] at hle
  · intro now hturn hjudgeable hpast row hyoung
    exact absurd hyoung
      (h.heard now hturn (isSome_silence.mpr ⟨hjudgeable, hpast⟩) row)

/-- **The clock is one exactly where nothing disturbs it**, whatever is
delivered, whatever git says, and however the statements of the calls are
interleaved. -/
theorem monotone_iff (watched : WatchedRun)
    (hheard : ∀ row ∈ watched.record.events, row.source = .runnerReported →
      ∃ current ∈ watched.record.run.lastEventAt, row.occurredAt ≤ current)
    (turns : List LivenessTurn) :
    Machine.Always step (Monotone fidelityOf) ⟨watched, [], []⟩ turns
      ↔ Machine.Always step (Undisturbed fidelityOf) ⟨watched, [], []⟩
        turns := by
  have hstart : Sound ⟨watched, [], []⟩ :=
    ⟨fun row hrow hsource => Or.inl (hheard row hrow hsource),
      (fun _ h => nomatch h), (fun _ _ _ h => nomatch h),
      (fun _ _ h => nomatch h)⟩
  constructor
  · exact @Machine.always_of_invariant _ _ step (fun _ => True) _ _
      (fun _ _ _ _ => trivial) (fun _ _ _ => undisturbed_of_monotone) _ turns
      trivial
  · exact Machine.always_of_invariant (fun _ _ => sound_step)
      (fun _ _ => monotone_of_undisturbed) hstart

end Step

/-- A run that was heard from at two seconds. -/
def heardFrom : WatchedRun where
  record := ⟨{ freshRun with lastEventAt := some 2000 }, [toRow beatEvent]⟩
  workOrderIdentity := "wo_app_7_a3f91c2_a1"
  repository := "acme/app"
  issueNumber := 7

/-- A heartbeat at a hundred seconds. -/
def lateBeat : Batch where
  events := [eventOf "e9" .heartbeat 100000]
  newest := 100000
  newest_eq := rfl

/-- A branch whose only commit is half as old. -/
def halfAsOld : GitObservation where
  run :=
    { runId := 1
      workOrderIdentity := "wo_app_7_a3f91c2_a1"
      owner := "acme"
      name := "app"
      branch := "feature"
      baseCommit := "0000000000"
      startedAt := 0
      lastKnownHeadCommit := none
      pullRequestUrl := none }
  commits := [⟨"a3f91c2b44", "Add the parser", 50000⟩]
  pullRequest := none
  checks := []

theorem monotone_iff_heardFrom :
    Machine.Always step (Monotone fun _ => some .full) ⟨heardFrom, [], []⟩
        [.deliver lateBeat, .judge 3000] := by
  refine (monotone_iff heardFrom ?_ _).mpr ⟨⟨?_, ?_⟩, ⟨?_, ?_⟩, trivial⟩
  · intro row hrow _
    rw [List.mem_singleton.mp hrow]
    exact ⟨2000, rfl, le_rfl⟩
  · exact fun _ _ hturn => nomatch hturn
  · exact fun _ hturn => nomatch hturn
  · exact fun _ _ hturn => nomatch hturn
  · intro now hturn _ hpast
    rw [← LivenessTurn.judge.inj hturn] at hpast
    exact absurd hpast (by decide)

/-- A delivery executes all of its statements, and then a sweep records what
it found: the clock goes back to the commit, and the run is taken for silent
whose heartbeat is ten seconds old. -/
def olderCommit : List LivenessTurn :=
  .deliver lateBeat :: List.replicate 8 (.resume 0) ++
    [.observe halfAsOld 105000, .resume 1]

theorem older_commit_wins :
    (Machine.run step ⟨heardFrom, [], []⟩ olderCommit).clock = some 100000
      ∧ (Machine.run step ⟨heardFrom, [], []⟩
          (olderCommit ++ [.resume 1])).clock = some 50000
      ∧ (((Machine.run step ⟨heardFrom, [], []⟩
          (olderCommit ++ [.resume 1])).state
            fun _ => some .full).silence 145000).isSome
      ∧ ¬ Machine.Always step (Monotone fun _ => some .full)
          ⟨heardFrom, [], []⟩ (olderCommit ++ [.resume 1]) := by
  have hbefore : (Machine.run step ⟨heardFrom, [], []⟩ olderCommit).clock
      = some 100000 := by decide
  have hafter : (Machine.run step ⟨heardFrom, [], []⟩
      (olderCommit ++ [.resume 1])).clock = some 50000 := by decide
  refine ⟨hbefore, hafter, by decide, fun h => ?_⟩
  obtain ⟨next, hnext, hle⟩ := h.suffix.1.forward 100000 hbefore
  rw [Machine.run_append, Machine.run_cons, Machine.run_nil,
    Option.mem_def.mp hnext] at hafter
  rw [Option.some.inj hafter] at hle
  exact absurd hle (by decide)

end LivenessDesk

end Opifex
