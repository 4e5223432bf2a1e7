import Opifex.SettingsPatch

/-!
# If-Match

The revision that `If-Match` names is compared with the one in memory, and then the
changes are written one after another; nothing holds the rows from the comparison to
the last change, and the memory that is compared is that of the last refresh which
succeeded. So a patch may be accepted over a change it has not seen, and one that
fails at a change leaves those before it (`overwrites_and_leaves_half`).

The patch's own refresh is what brings the memory to the rows. Where it succeeds,
nobody else commits from its read to the patch's last write, and no older read is
taken up before the comparison, what a patch that is accepted has overwritten is what
it named; and where no patch fails once it has changed a row, a patch that is refused
leaves nothing (`honoursIfMatch_of_respects`).
-/

namespace Opifex

namespace SettingsCall

/-- It is a patch that names a revision. -/
def names (call : SettingsCall) (expected : ℤ) : Prop :=
  ∃ maySetSecrets changes, call.request = .patch maySetSecrets (.revision expected) changes

/-- It has changed a row. -/
def hasCommitted (call : SettingsCall) : Prop :=
  call.carried.filterMap CarriedWrite.committed ≠ []

/-- Its own refresh has been taken up, and its check is next. -/
def awaitsCheck (call : SettingsCall) : Prop :=
  call.stage = .ready ∧ ∃ ifMatch tasks, call.tasks = .assertFresh ifMatch :: tasks

/-- **It relies on the rows as they are**: its own refresh has read them, and it has
not made its last write yet. -/
def relies (call : SettingsCall) : Prop :=
  (∃ answer, call.stage = .read answer none) ∨ call.awaitsCheck ∨
    call.passedAt ≠ none ∧ call.left ≠ [] ∧ call.stage.ended = false

end SettingsCall

namespace SettingsDesk

/-! ## What is asked -/

/-- A patch that named a revision and was accepted. -/
def accepted (desk : SettingsDesk) (id : ℕ) (expected : ℤ) : Bool :=
  (desk.calls id).any fun call =>
    match call.request, call.stage with
    | .patch _ (.revision named) _, .returned => named == expected
    | _, _ => false

/-- One that was refused, or failed. -/
def refused (desk : SettingsDesk) (id : ℕ) (expected : ℤ) : Bool :=
  (desk.calls id).any fun call =>
    match call.request, call.stage with
    | .patch _ (.revision named) _, .rejected _ => named == expected
    | _, _ => false

/-- No other writer committed between a revision and a write of the call. -/
def OverwritesNothing (desk : SettingsDesk) (id : ℕ) (expected : ℤ) : Prop :=
  ∀ own ∈ desk.journal.writes, own.author = some id →
    ∀ other ∈ desk.journal.writes, other.author ≠ some id →
      ¬ (expected < other.revision ∧ other.revision < own.revision)

instance (desk : SettingsDesk) (id : ℕ) (expected : ℤ) :
    Decidable (OverwritesNothing desk id expected) :=
  inferInstanceAs (Decidable (∀ own ∈ desk.journal.writes, own.author = some id →
    ∀ other ∈ desk.journal.writes, other.author ≠ some id →
      ¬ (expected < other.revision ∧ other.revision < own.revision)))

/-- No row is as the call left it. -/
def NothingInForce (desk : SettingsDesk) (id : ℕ) : Prop :=
  ∀ own ∈ desk.journal.writes, own.author = some id →
    desk.journal.last desk.journal.revision own.key ≠ some own

instance (desk : SettingsDesk) (id : ℕ) : Decidable (NothingInForce desk id) :=
  inferInstanceAs (Decidable (∀ own ∈ desk.journal.writes, own.author = some id →
    desk.journal.last desk.journal.revision own.key ≠ some own))

/-- **`If-Match` is honoured**: a patch that is accepted has overwritten nothing
unseen, and of one that is refused or fails nothing is in force. -/
structure HonoursIfMatch (desk : SettingsDesk) : Prop where
  accepted : ∀ id expected, accepted desk id expected = true →
    OverwritesNothing desk id expected
  refused : ∀ id expected, refused desk id expected = true → NothingInForce desk id

/-! ## What a schedule has to respect -/

/-- Who commits a change of a row at an event, if anybody does. -/
def committer (desk : SettingsDesk) : SettingsEvent → Option (Option ℕ)
  | .execute id none =>
    match desk.calls id with
    | some call =>
      match call.stage with
      | .writing settled => if desk.stored.changes settled then some (some id) else none
      | _ => none
    | none => none
  | .elsewhere settled => if desk.stored.changes settled then some none else none
  | _ => none

/-- **What a schedule has to respect** for `If-Match` to be honoured and a failed patch
to leave nothing. A condition on the event and the state before it. -/
structure Respects (registry : SettingsRegistry) (desk : SettingsDesk)
    (event : SettingsEvent) : Prop where
  /-- Nobody else commits while a patch relies on the rows. -/
  alone : ∀ author, desk.committer event = some author → ∀ id call expected,
    desk.calls id = some call → call.names expected → call.relies → author = some id
  /-- The refresh of a patch does not fail. -/
  read : ∀ id problem, event = .execute id (some problem) → ∀ call expected,
    desk.calls id = some call → call.names expected → call.stage ≠ .reading none
  /-- While a patch waits for its check, no read is taken up that is older than the
  memory. -/
  inOrder : ∀ id, event = .proceed id → ∀ call read own, desk.calls id = some call →
    call.stage = .read (.ok read) own → ∀ other waiting expected,
      desk.calls other = some waiting → waiting.names expected → waiting.awaitsCheck →
        ∀ inForce ∈ desk.revision, inForce ≤ read.revision
  /-- A patch that has changed a row is not refused a later change, -/
  settles : ∀ id, event = .proceed id → ∀ call expected, desk.calls id = some call →
    call.names expected → call.hasCommitted → ∀ change tasks,
      call.tasks = .write change :: tasks → ∃ settled, registry.settle change = .ok settled
  /-- and its transactions do not fail. -/
  commits : ∀ id problem, event = .execute id (some problem) → ∀ call expected,
    desk.calls id = some call → call.names expected → call.hasCommitted →
      ∀ settled, call.stage ≠ .writing settled

/-! ## What keeps it -/

/-- **What a patch relies on**, and what becomes of it: that the rows are still those of
the revision it named, from its refresh to its last write. -/
structure Relied (desk : SettingsDesk) (id : ℕ) (call : SettingsCall) (expected : ℤ) :
    Prop where
  /-- Before its check it is at its refresh, or ready, or it was refused. -/
  before : call.passedAt = none → call.stage = .ready ∨ call.stage = .reading none ∨
    (∃ answer, call.stage = .read answer none) ∨ ∃ refusal, call.stage = .rejected refusal
  /-- Its refresh has read the rows as they are. -/
  read : ∀ answer, call.stage = .read answer none →
    ∃ read, answer = .ok read ∧ read.revision = desk.stored.revision
  /-- So the memory is at their revision as it is compared. -/
  checked : call.awaitsCheck → desk.revision = some desk.stored.revision
  /-- Nobody else has committed since. -/
  ahead : call.passedAt ≠ none → call.left ≠ [] → call.stage.ended = false →
    ∀ other ∈ desk.journal.writes, other.author ≠ some id → (other.revision : ℤ) ≤ expected
  unseen : OverwritesNothing desk id expected
  /-- What fails has changed no row. -/
  whole : (∃ problem, call.stage = .written (.failed problem)) ∨
    (∃ refusal, call.stage = .rejected refusal) → ¬ call.hasCommitted

/-- **The invariant**, beside what the journal and the calls account for: reads are of
rows that were, and each patch has what it relies on. -/
structure Precise (registry : SettingsRegistry) (desk : SettingsDesk) : Prop where
  accounted : Accounted registry desk
  /-- No read is of rows that are still to come. -/
  reads : ∀ id call read own, desk.calls id = some call → call.stage = .read (.ok read) own →
    read.revision ≤ desk.stored.revision
  patches : ∀ id call expected, desk.calls id = some call → call.names expected →
    Relied desk id call expected

section Spec

variable {registry : SettingsRegistry} {desk : SettingsDesk} {id : ℕ} {call : SettingsCall}
variable {event : SettingsEvent} {settled : SettledWrite} {expected : ℤ}

/-- What was written was written by now. -/
theorem Precise.revision_le (h : Precise registry desk) :
    ∀ write ∈ desk.journal.writes, write.revision ≤ desk.stored.revision := by
  intro write hwrite
  rw [h.accounted.current]
  exact desk.journal.bounded write hwrite

/-- What is carried out before the check is nothing. -/
theorem Orderly.carried_of_unpassed (h : Orderly registry call) (hnames : call.names expected)
    (hnone : call.passedAt = none) : call.carried = [] := by
  obtain ⟨maySetSecrets, changes, hrequest⟩ := hnames
  obtain ⟨-, hleft⟩ := left_of_unpassed h hnone hrequest
  have horder := h.order
  rw [hrequest] at horder
  rw [hleft, show (SettingsRequest.patch maySetSecrets (.revision expected) changes).tasks
    = .refresh :: .assertFresh (.revision expected) :: changes.map .write from rfl] at horder
  have hnothing : call.carried.map (·.write) = [] :=
    List.self_eq_append_left.mp ((writes_of_changes changes).symm.trans horder)
  exact List.map_eq_nil_iff.mp hnothing

/-! ## Another call's step -/

/-- A patch does not see that another call goes on. -/
theorem Relied.put (h : Relied desk id call expected) {other : ℕ} {next : SettingsCall} :
    Relied (desk.put other next) id call expected :=
  ⟨h.before, h.read, h.checked, h.ahead, h.unseen, h.whole⟩

/-- A transaction of somebody else, on whose rows the patch does not rely. -/
theorem Relied.commit (h : Relied desk id call expected)
    (hrevision : ∀ write ∈ desk.journal.writes, write.revision ≤ desk.journal.revision)
    {author : Option ℕ}
    (hauthor : author ≠ some id)
    (halone : desk.stored.changes settled = true → ¬ call.relies) :
    Relied (desk.commit author settled) id call expected := by
  by_cases hchanges : desk.stored.changes settled = true
  · have hidle := halone hchanges
    refine ⟨h.before, fun answer hread => ?_, fun hawaits => ?_, fun hpassed hleft hended => ?_,
      ?_, h.whole⟩
    · exact absurd (Or.inl ⟨answer, hread⟩) hidle
    · exact absurd (Or.inr (Or.inl hawaits)) hidle
    · exact absurd (Or.inr (Or.inr ⟨hpassed, hleft, hended⟩)) hidle
    · -- what is written now comes after all of its own
      unfold OverwritesNothing
      rw [journal_commit hchanges, Journal.writes_write]
      intro own hown hself other hother hforeign
      obtain rfl | hown := List.mem_cons.mp hown
      · exact absurd hself hauthor
      obtain rfl | hother := List.mem_cons.mp hother
      · rintro ⟨-, hlt⟩
        exact absurd (hrevision own hown) (by dsimp only at hlt; omega)
      · exact h.unseen own hown hself other hother hforeign
  · rw [commit_eq_self (by simpa using hchanges)]
    exact h

/-- A read is taken up. -/
theorem Relied.refreshed (h : Relied desk id call expected)
    {answer : Except String StoredSettings}
    (hmade : ∀ read, answer = .ok read → read.revision ≤ desk.stored.revision)
    (hnewer : ∀ read, answer = .ok read → call.awaitsCheck → ∀ inForce ∈ desk.revision,
      inForce ≤ read.revision) :
    Relied (desk.refreshed registry answer) id call expected := by
  cases answer with
  | error problem => exact ⟨h.before, h.read, h.checked, h.ahead, h.unseen, h.whole⟩
  | ok read =>
    refine ⟨h.before, h.read, fun hawaits => ?_, h.ahead, h.unseen, h.whole⟩
    have hle := hnewer read rfl hawaits desk.stored.revision (h.checked hawaits)
    exact congrArg some (Nat.le_antisymm (hmade read rfl) hle)

/-! ## A call's own step -/

theorem notMem_of_commitsBy (h : desk.commitsBy id = []) :
    ∀ own ∈ desk.journal.writes, own.author ≠ some id := by
  intro own hown hself
  have hmem : own ∈ desk.journal.writes.filter (·.author = some id) :=
    List.mem_filter.mpr ⟨hown, by simpa using hself⟩
  have hnone := List.map_eq_nil_iff.mp (List.reverse_eq_nil_iff.mp h)
  rw [hnone] at hmem
  cases hmem

/-- A patch starts with its refresh. -/
theorem relied_begun {request : SettingsRequest} (h : Precise registry desk)
    (hnone : desk.calls id = none) (hnames : (begun registry request).names expected) :
    Relied desk id (begun registry request) expected := by
  have hwrites : desk.commitsBy id = [] := by
    rw [h.accounted.commits id, hnone]
    rfl
  have hunseen : OverwritesNothing desk id expected := fun own hown hself =>
    absurd hself (notMem_of_commitsBy hwrites own hown)
  unfold begun at hnames ⊢
  obtain ⟨maySetSecrets, changes, hrequest⟩ := hnames
  split at hrequest
  · obtain rfl : request = .patch maySetSecrets (.revision expected) changes := hrequest
    refine ⟨fun _ => Or.inl rfl, fun _ h => (by cases h), ?_, fun hpassed => absurd rfl hpassed,
      hunseen, ?_⟩
    · rintro ⟨-, ifMatch, tasks, htasks⟩
      cases htasks
    · rintro - hcommitted
      exact hcommitted rfl
  · refine ⟨fun _ => Or.inr (Or.inr (Or.inr ⟨_, rfl⟩)), fun _ h => (by cases h), ?_,
      fun hpassed => absurd rfl hpassed, hunseen, ?_⟩
    · rintro ⟨hready, -⟩
      cases hready
    · rintro - hcommitted
      exact hcommitted rfl

/-- Its refresh reads the rows as they are. -/
theorem Relied.answered (h : Relied desk id call expected) {own : Option ChangedRow}
    (hreading : call.stage = .reading own) {answer : Except String StoredSettings}
    (hread : own = none → answer = .ok desk.stored) :
    Relied desk id { call with stage := .read answer own } expected := by
  refine ⟨fun hnone => ?_, fun answer hanswer => ?_, fun hawaits => ?_, fun hpassed hleft _ => ?_,
    h.unseen, fun hfailed => ?_⟩
  · obtain hstage | hstage | ⟨answer, hstage⟩ | ⟨refusal, hstage⟩ := h.before hnone
    · rw [hreading] at hstage
      cases hstage
    · rw [hreading] at hstage
      obtain rfl := SettingsStage.reading.inj hstage
      exact Or.inr (Or.inr (Or.inl ⟨_, rfl⟩))
    · rw [hreading] at hstage
      cases hstage
    · rw [hreading] at hstage
      cases hstage
  · obtain ⟨rfl, rfl⟩ := SettingsStage.read.inj hanswer
    exact ⟨desk.stored, hread rfl, rfl⟩
  · cases hawaits.1
  · exact h.ahead hpassed hleft (by rw [hreading]; rfl)
  · obtain ⟨problem, hstage⟩ | ⟨refusal, hstage⟩ := hfailed
    · cases hstage
    · cases hstage

/-- Past its check, at a stage that is none of those before it. -/
theorem Relied.passedAt_ne_none (h : Relied desk id call expected)
    (hready : call.stage ≠ .ready) (hreading : call.stage ≠ .reading none)
    (hread : ∀ answer, call.stage ≠ .read answer none)
    (hrejected : ∀ refusal, call.stage ≠ .rejected refusal) : call.passedAt ≠ none := by
  intro hnone
  obtain hstage | hstage | ⟨answer, hstage⟩ | ⟨refusal, hstage⟩ := h.before hnone
  · exact hready hstage
  · exact hreading hstage
  · exact hread answer hstage
  · exact hrejected refusal hstage

/-- It goes on past its check, without a failure. -/
theorem Relied.to (h : Relied desk id call expected) (hpassed : call.passedAt ≠ none)
    (hrunning : call.stage.ended = false) {stage : SettingsStage}
    (hread : ∀ answer, stage ≠ .read answer none)
    (hfailed : ∀ problem, stage ≠ .written (.failed problem))
    (hrejected : ∀ refusal, stage ≠ .rejected refusal)
    (hchecking : ∀ ifMatch, SettingsTask.assertFresh ifMatch ∉ call.tasks) :
    Relied desk id { call with stage := stage } expected := by
  refine ⟨fun hnone => absurd hnone hpassed, fun answer hstage => absurd hstage (hread answer),
    fun hawaits => ?_, fun _ hleft _ => h.ahead hpassed hleft hrunning, h.unseen, ?_⟩
  · obtain ⟨-, ifMatch, tasks, htasks⟩ := hawaits
    have htasks : call.tasks = .assertFresh ifMatch :: tasks := htasks
    exact absurd (htasks ▸ List.mem_cons_self) (hchecking ifMatch)
  · rintro (⟨problem, hstage⟩ | ⟨refusal, hstage⟩)
    · exact absurd hstage (hfailed problem)
    · exact absurd hstage (hrejected refusal)

/-- Past its check there is none to come. -/
theorem Orderly.notMem_of_passed (h : Orderly registry call) (hpassed : call.passedAt ≠ none)
    (ifMatch : IfMatch) : SettingsTask.assertFresh ifMatch ∉ call.tasks :=
  fun hmem => hpassed (h.checking ifMatch hmem).1

/-- **It makes a write**, over nothing it has not seen. -/
theorem Relied.carried (h : Relied desk id call expected)
    (hwriting : call.stage = .writing settled)
    {write : SettingWrite} {tasks : List SettingsTask}
    (htasks : call.tasks = .write write :: tasks) {outcome : WriteOutcome}
    (hdone : ∀ problem, outcome ≠ .failed problem) :
    Relied (desk.commit (some id) settled) id
      { call with
        tasks := tasks
        stage := .written outcome
        carried := call.carried ++ [⟨write, settled, outcome⟩] } expected := by
  have hpassed : call.passedAt ≠ none :=
    h.passedAt_ne_none (by simp [hwriting]) (by simp [hwriting]) (by simp [hwriting])
      (by simp [hwriting])
  have hleft : call.left ≠ [] := by
    unfold SettingsCall.left
    rw [htasks]
    exact List.cons_ne_nil _ _
  have hahead := h.ahead hpassed hleft (by rw [hwriting]; rfl)
  have hforeign : ∀ other ∈ (desk.commit (some id) settled).journal.writes,
      other.author ≠ some id → (other.revision : ℤ) ≤ expected := by
    by_cases hchanges : desk.stored.changes settled = true
    · rw [journal_commit hchanges, Journal.writes_write]
      intro other hother hauthor
      obtain rfl | hother := List.mem_cons.mp hother
      · exact absurd rfl hauthor
      · exact hahead other hother hauthor
    · rw [commit_eq_self (by simpa using hchanges)]
      exact hahead
  refine ⟨fun hnone => absurd hnone hpassed, fun _ hstage => (by cases hstage),
    fun hawaits => (by cases hawaits.1), fun _ _ _ => hforeign, ?_, ?_⟩
  · rintro own - - other hother hauthor ⟨hlt, -⟩
    exact absurd (hforeign other hother hauthor) (not_le.mpr hlt)
  · rintro (⟨problem, hstage⟩ | ⟨refusal, hstage⟩)
    · exact absurd (SettingsStage.written.inj hstage) (hdone problem)
    · cases hstage

/-- It fails having changed no row. -/
theorem Relied.fail (h : Relied desk id call expected) {stage : SettingsStage}
    (hrunning : stage.ended = false → call.stage.ended = false)
    (hstage : (∃ refusal, stage = .rejected refusal) ∨
      call.passedAt ≠ none ∧ ∃ problem, stage = .written (.failed problem))
    (hwhole : ¬ call.hasCommitted) :
    Relied desk id { call with stage := stage } expected := by
  have hread : ∀ answer own, stage ≠ .read answer own := by
    rintro answer own rfl
    obtain ⟨refusal, hrefused⟩ | ⟨-, problem, hfailed⟩ := hstage
    · cases hrefused
    · cases hfailed
  have hready : stage ≠ .ready := by
    rintro rfl
    obtain ⟨refusal, hrefused⟩ | ⟨-, problem, hfailed⟩ := hstage
    · cases hrefused
    · cases hfailed
  refine ⟨fun hnone => ?_, fun answer hanswer => absurd hanswer (hread answer none),
    fun hawaits => absurd hawaits.1 hready,
    fun hpassed hleft hended => h.ahead hpassed hleft (hrunning hended), h.unseen,
    fun _ => hwhole⟩
  obtain hrefused | ⟨hpassed, -⟩ := hstage
  · exact Or.inr (Or.inr (Or.inr hrefused))
  · exact absurd hnone hpassed

/-- What it relies on is the rows, their history and the revision in memory. -/
theorem Relied.same (h : Relied desk id call expected) {after : SettingsDesk}
    (hstored : after.stored = desk.stored) (hjournal : after.journal = desk.journal)
    (hrevision : after.revision = desk.revision) : Relied after id call expected := by
  refine ⟨h.before, ?_, ?_, ?_, ?_, h.whole⟩
  · rw [hstored]
    exact h.read
  · rw [hstored, hrevision]
    exact h.checked
  · rw [hjournal]
    exact h.ahead
  · unfold OverwritesNothing
    rw [hjournal]
    exact h.unseen

/-- **It goes on to its next task.** -/
theorem Relied.resumed (h : Relied desk id call expected) (hprecise : Precise registry desk)
    (horderly : Orderly registry call) (hnames : call.names expected)
    (hready : call.stage = .ready)
    (hsettles : call.hasCommitted → ∀ change tasks, call.tasks = .write change :: tasks →
      ∃ settled, registry.settle change = .ok settled) :
    Relied desk id (desk.resume registry call) expected := by
  have hpatch := hnames
  obtain ⟨maySetSecrets, changes, hrequest⟩ := hpatch
  have hrunning : call.stage.ended = false := by
    rw [hready]
    rfl
  unfold resume
  split
  · rename_i htasks
    have hpassed : call.passedAt ≠ none := fun hnone =>
      (left_of_unpassed horderly hnone hrequest).1 htasks
    exact h.to hpassed hrunning (by simp) (by simp) (by simp)
      (horderly.notMem_of_passed hpassed)
  · rename_i tasks htasks
    refine ⟨fun _ => Or.inr (Or.inl rfl), fun _ hstage => (by cases hstage),
      fun hawaits => (by cases hawaits.1), fun hpassed hleft _ => h.ahead hpassed ?_ hrunning,
      h.unseen, ?_⟩
    · rw [left_of_tasks htasks rfl]
      exact hleft
    · rintro (⟨problem, hstage⟩ | ⟨refusal, hstage⟩)
      · cases hstage
      · cases hstage
  · rename_i ifMatch tasks htasks
    obtain ⟨hnone, maySetSecrets', changes', hrequest', rfl⟩ := horderly.check htasks
    obtain ⟨-, rfl, rfl⟩ := SettingsRequest.patch.inj (hrequest'.symm.trans hrequest)
    split
    · -- refused by the comparison, before anything of it was done
      refine h.fail (fun _ => hrunning) (Or.inl ⟨_, rfl⟩) fun hcommitted => ?_
      unfold SettingsCall.hasCommitted at hcommitted
      rw [horderly.carried_of_unpassed hnames hnone] at hcommitted
      exact hcommitted rfl
    · rename_i hfresh
      have hrevision := h.checked ⟨hready, _, _, htasks⟩
      have hnamed : (desk.stored.revision : ℤ) = expected := by
        rw [hrevision] at hfresh
        by_contra hother
        simp [assertFresh, hother] at hfresh
      have hahead : ∀ other ∈ desk.journal.writes, (other.revision : ℤ) ≤ expected :=
        fun other hother => hnamed ▸ Int.ofNat_le.mpr (hprecise.revision_le other hother)
      refine ⟨fun hpassed => (by cases hpassed), fun answer hstage => ?_, ?_,
        fun _ _ _ other hother _ => hahead other hother, h.unseen, ?_⟩
      · exact h.read answer hstage
      · rintro ⟨-, ifMatch, tasks, htasks⟩
        have hwrites : changes'.map SettingsTask.write = .assertFresh ifMatch :: tasks := htasks
        have hmem : SettingsTask.assertFresh ifMatch ∈ changes'.map SettingsTask.write :=
          hwrites ▸ List.mem_cons_self
        simp at hmem
      · exact h.whole
  · rename_i write tasks htasks
    have hpassed := horderly.passedAt_ne_none htasks hrequest
    split
    · rename_i refusal hrefused
      refine h.fail (fun _ => hrunning) (Or.inl ⟨_, rfl⟩) fun hcommitted => ?_
      obtain ⟨settled, hsettled⟩ := hsettles hcommitted write tasks htasks
      rw [hsettled] at hrefused
      cases hrefused
    · exact h.to hpassed hrunning (by simp) (by simp) (by simp)
        (horderly.notMem_of_passed hpassed)

/-- **Its own read is taken up.** -/
theorem Relied.takenUp (h : Relied desk id call expected) (horderly : Orderly registry call)
    {answer : Except String StoredSettings} {own : Option ChangedRow}
    (hstage : call.stage = .read answer own)
    (hmade : ∀ read, answer = .ok read → read.revision ≤ desk.stored.revision) :
    Relied (desk.refreshed registry answer) id
      { call with stage := own.elim .ready fun row => .auditing row answer.isOk } expected := by
  have hrunning : call.stage.ended = false := by
    rw [hstage]
    rfl
  have hafter : Relied (desk.refreshed registry answer) id call expected := by
    refine h.refreshed hmade fun read _ hawaits => ?_
    have hready := hawaits.1
    rw [hstage] at hready
    cases hready
  cases own with
  | some row =>
    have hpassed : call.passedAt ≠ none :=
      h.passedAt_ne_none (by simp [hstage]) (by simp [hstage]) (by simp [hstage])
        (by simp [hstage])
    exact hafter.to hpassed hrunning (by simp) (by simp) (by simp)
      (horderly.notMem_of_passed hpassed)
  | none =>
    obtain ⟨read, rfl, hnow⟩ := h.read answer hstage
    refine ⟨fun _ => Or.inl rfl, fun _ hread => (by cases hread), fun _ => congrArg some hnow,
      fun hpassed hleft _ => hafter.ahead hpassed hleft hrunning, hafter.unseen, ?_⟩
    rintro (⟨problem, hfailed⟩ | ⟨refusal, hrefused⟩)
    · cases hfailed
    · cases hrefused

theorem resume_names : (desk.resume registry call).names expected ↔ call.names expected := by
  have hsame : (desk.resume registry call).request = call.request := by
    unfold resume
    split
    · rfl
    · rfl
    · split
      · rfl
      · rfl
    · split
      · rfl
      · rfl
  unfold SettingsCall.names
  rw [hsame]

theorem resume_ne_read (hready : call.stage = .ready) {answer : Except String StoredSettings}
    {own : Option ChangedRow} : (desk.resume registry call).stage ≠ .read answer own := by
  unfold resume
  split
  · nofun
  · nofun
  · split
    · nofun
    · simp [hready]
  · split
    · nofun
    · nofun

/-! ## One event -/

/-- A call goes on, on a desk whose other calls are as they were. -/
theorem Precise.put (h : Precise registry desk) {after : SettingsDesk} {next : SettingsCall}
    (haccounted : Accounted registry (after.put id next)) (hcalls : after.calls = desk.calls)
    (hrevision : desk.stored.revision ≤ after.stored.revision)
    (hread : ∀ read own, next.stage = .read (.ok read) own →
      read.revision ≤ after.stored.revision)
    (hothers : ∀ other waiting expected, other ≠ id → desk.calls other = some waiting →
      waiting.names expected → Relied after other waiting expected)
    (hown : ∀ expected, next.names expected → Relied after id next expected) :
    Precise registry (after.put id next) := by
  have hother : ∀ other, other ≠ id → (after.put id next).calls other = desk.calls other :=
    fun other hne => (calls_put_of_ne hne).trans (congrFun hcalls other)
  have hself : (after.put id next).calls id = some next := Function.update_self _ _ _
  refine ⟨haccounted, fun other waiting read own hwaiting hstage => ?_,
    fun other waiting expected hwaiting hnames => ?_⟩
  · by_cases hne : other = id
    · subst hne
      obtain rfl := Option.some.inj (hself.symm.trans hwaiting)
      exact hread read own hstage
    · rw [hother other hne] at hwaiting
      exact (h.reads other waiting read own hwaiting hstage).trans hrevision
  · by_cases hne : other = id
    · subst hne
      obtain rfl := Option.some.inj (hself.symm.trans hwaiting)
      exact (hown expected hnames).put
    · rw [hother other hne] at hwaiting
      exact (hothers other waiting expected hne hwaiting hnames).put

/-- The same where the rows, their history and the memory stay. -/
theorem Precise.put_same (h : Precise registry desk) {next : SettingsCall}
    (haccounted : Accounted registry (desk.put id next))
    (hread : ∀ read own, next.stage = .read (.ok read) own →
      read.revision ≤ desk.stored.revision)
    (hown : ∀ expected, next.names expected → Relied desk id next expected) :
    Precise registry (desk.put id next) :=
  h.put haccounted rfl le_rfl hread (fun other waiting expected _ => h.patches other waiting expected)
    hown

theorem revision_le_commit : desk.stored.revision ≤ (desk.stored.commit settled).revision := by
  by_cases hchanges : desk.stored.changes settled = true
  · rw [revision_commit hchanges]
    exact Nat.le_succ _
  · have hsame : desk.commit none settled = desk := commit_eq_self (by simpa using hchanges)
    exact (congrArg (fun after => after.stored.revision) hsame).ge

/-- A transaction of another call, or of another process. -/
theorem Precise.relied_commit (h : Precise registry desk) {author : Option ℕ}
    (hcall : desk.calls id = some call) (hnames : call.names expected)
    (hauthor : author ≠ some id)
    (halone : desk.stored.changes settled = true → ¬ call.relies) :
    Relied (desk.commit author settled) id call expected :=
  (h.patches id call expected hcall hnames).commit desk.journal.bounded hauthor halone

/-- The database executes what a call waits for. -/
theorem precise_executed (h : Precise registry desk) {failure : Option String}
    (hcall : desk.calls id = some call)
    (hrespects : Respects registry desk (.execute id failure)) :
    Precise registry (desk.executed id call failure) := by
  have haccounted : Accounted registry (desk.executed id call failure) :=
    accounted_executed h.accounted hcall
  have hrelied := h.patches id call
  unfold executed at haccounted ⊢
  split at haccounted
  · rename_i own hreading
    refine h.put_same haccounted (fun read own hstage => ?_) fun expected hnames => ?_
    · cases failure with
      | some problem => cases hstage
      | none =>
        obtain ⟨hread, -⟩ := SettingsStage.read.inj hstage
        exact (congrArg StoredSettings.revision (Except.ok.inj hread)).ge
    · refine (hrelied expected hcall hnames).answered hreading ?_
      rintro rfl
      cases failure with
      | some problem =>
        exact absurd hreading (hrespects.read id problem rfl call expected hcall hnames)
      | none => rfl
  · rename_i settled write tasks hwriting htasks
    split at haccounted
    · rename_i problem
      refine h.put_same haccounted (fun _ _ hstage => (by cases hstage)) fun expected hnames => ?_
      have hpassed : call.passedAt ≠ none := (hrelied expected hcall hnames).passedAt_ne_none
        (by simp [hwriting]) (by simp [hwriting]) (by simp [hwriting]) (by simp [hwriting])
      refine (hrelied expected hcall hnames).fail (fun _ => ?_)
        (Or.inr ⟨hpassed, problem, rfl⟩) fun hcommitted => ?_
      · rw [hwriting]
        rfl
      · exact hrespects.commits id problem rfl call expected hcall hnames hcommitted
          settled hwriting
    · refine h.put haccounted rfl revision_le_commit (fun _ _ hstage => (by cases hstage))
        (fun other waiting expected hne hwaiting hnames => ?_) fun expected hnames => ?_
      · refine h.relied_commit hwaiting hnames (fun heq => hne (Option.some.inj heq).symm) ?_
        intro hchanges hrelies
        have hcommitter : desk.committer (.execute id none) = some (some id) := by
          simp [committer, hcall, hwriting, hchanges]
        exact hne (Option.some.inj
          (hrespects.alone _ hcommitter other waiting expected hwaiting hnames hrelies)).symm
      · exact (hrelied expected hcall hnames).carried hwriting htasks outcomeOf_ne_failed
  · exact h

/-- The process takes up what a call waits for. -/
theorem precise_proceeded (h : Precise registry desk) (hcall : desk.calls id = some call)
    (hrespects : Respects registry desk (.proceed id)) :
    Precise registry (desk.proceeded registry id call) := by
  have haccounted := accounted_proceeded h.accounted hcall
  have horderly := h.accounted.calls id call hcall
  have hrelied : ∀ expected, call.names expected → Relied desk id call expected :=
    fun expected => h.patches id call expected hcall
  unfold proceeded at haccounted ⊢
  split at haccounted
  · rename_i hready
    refine h.put_same haccounted (fun read own hstage => ?_) fun expected hnames => ?_
    · exact absurd hstage (resume_ne_read hready)
    · have hnames : call.names expected := resume_names.mp hnames
      exact (hrelied expected hnames).resumed h horderly hnames hready
        (hrespects.settles id rfl call expected hcall hnames)
  · rename_i answer own hstage
    have hmade : ∀ read, answer = .ok read → read.revision ≤ desk.stored.revision := by
      rintro read rfl
      exact h.reads id call read own hcall hstage
    have hrows : (desk.refreshed registry answer).calls = desk.calls ∧
        (desk.refreshed registry answer).stored = desk.stored := by
      cases answer with
      | ok read => exact ⟨rfl, rfl⟩
      | error problem => exact ⟨rfl, rfl⟩
    refine h.put haccounted hrows.1 (congrArg StoredSettings.revision hrows.2).ge
      (fun read row hread => ?_) (fun other waiting expected _ hwaiting hnames => ?_)
      fun expected hnames => (hrelied expected hnames).takenUp horderly hstage hmade
    · cases own with
      | none => cases hread
      | some row => cases hread
    · refine (h.patches other waiting expected hwaiting hnames).refreshed hmade ?_
      rintro read rfl hawaits
      exact hrespects.inOrder id rfl call read own hcall hstage other waiting expected hwaiting
        hnames hawaits
  · rename_i problem hfailed
    refine h.put_same haccounted (fun _ _ hstage => (by cases hstage)) fun expected hnames => ?_
    have hrelied := hrelied expected hnames
    refine hrelied.fail (fun _ => ?_) (Or.inl ⟨_, rfl⟩) (hrelied.whole (Or.inl ⟨problem, hfailed⟩))
    rw [hfailed]
    rfl
  · rename_i key revision hwritten
    refine h.put haccounted rfl le_rfl (fun _ _ hstage => (by cases hstage))
      (fun other waiting expected _ hwaiting hnames =>
        (h.patches other waiting expected hwaiting hnames).same rfl rfl rfl)
      fun expected hnames => ?_
    have hpassed := (hrelied expected hnames).passedAt_ne_none (by simp [hwritten])
      (by simp [hwritten]) (by simp [hwritten]) (by simp [hwritten])
    exact ((hrelied expected hnames).to hpassed (by rw [hwritten]; rfl) (by simp) (by simp)
      (by simp) (horderly.notMem_of_passed hpassed)).same rfl rfl rfl
  · rename_i row hwritten
    refine h.put_same haccounted (fun _ _ hstage => (by cases hstage)) fun expected hnames => ?_
    have hpassed := (hrelied expected hnames).passedAt_ne_none (by simp [hwritten])
      (by simp [hwritten]) (by simp [hwritten]) (by simp [hwritten])
    exact (hrelied expected hnames).to hpassed (by rw [hwritten]; rfl) (by simp) (by simp)
      (by simp) (horderly.notMem_of_passed hpassed)
  · rename_i row reread hauditing
    refine h.put haccounted rfl le_rfl (fun _ _ hstage => (by cases hstage))
      (fun other waiting expected _ hwaiting hnames =>
        (h.patches other waiting expected hwaiting hnames).same rfl rfl rfl)
      fun expected hnames => ?_
    have hpassed := (hrelied expected hnames).passedAt_ne_none (by simp [hauditing])
      (by simp [hauditing]) (by simp [hauditing]) (by simp [hauditing])
    exact ((hrelied expected hnames).to hpassed (by rw [hauditing]; rfl) (by simp) (by simp)
      (by simp) (horderly.notMem_of_passed hpassed)).same rfl rfl rfl
  · exact h

/-- **An event that respects what the patches rely on keeps the invariant.** -/
theorem precise_step (h : Precise registry desk) (hrespects : Respects registry desk event) :
    Precise registry (desk.step registry event) := by
  cases event with
  | begin id request =>
    have haccounted : Accounted registry (desk.step registry (.begin id request)) :=
      accounted_step h.accounted
    unfold step at haccounted ⊢
    dsimp only at haccounted ⊢
    split at haccounted
    · exact h
    · rename_i hnone
      refine h.put_same haccounted (fun read own hstage => ?_) fun expected hnames =>
        relied_begun h hnone hnames
      unfold begun at hstage
      split at hstage
      · cases hstage
      · cases hstage
  | execute id failure =>
    unfold step
    dsimp only
    split
    · rename_i call hcall
      exact precise_executed h hcall hrespects
    · exact h
  | proceed id =>
    unfold step
    dsimp only
    split
    · rename_i call hcall
      exact precise_proceeded h hcall hrespects
    · exact h
  | elsewhere settled =>
    refine ⟨accounted_elsewhere h.accounted, fun id call read own hcall hstage =>
      (h.reads id call read own hcall hstage).trans revision_le_commit,
      fun id call expected hcall hnames => ?_⟩
    refine h.relied_commit hcall hnames (by simp) fun hchanges hrelies => ?_
    have hcommitter : desk.committer (.elsewhere settled) = some none := by
      simp [committer, hchanges]
    have hself := hrespects.alone none hcommitter id call expected hcall hnames hrelies
    cases hself

theorem precise_boot (stored : StoredSettings) : Precise registry (boot stored) :=
  ⟨accounted_boot stored, fun _ _ _ _ hcall => (by cases hcall),
    fun _ _ _ hcall => (by cases hcall)⟩

/-- Where the invariant holds, `If-Match` is honoured. -/
theorem Precise.honoursIfMatch (h : Precise registry desk) : HonoursIfMatch desk := by
  refine ⟨fun id expected haccepted => ?_, fun id expected hrefused => ?_⟩
  · unfold accepted at haccepted
    cases hcall : desk.calls id with
    | none => simp [hcall] at haccepted
    | some call =>
      rw [hcall, Option.any_some] at haccepted
      split at haccepted
      · rename_i maySetSecrets named changes hrequest hstage
        obtain rfl := beq_iff_eq.mp haccepted
        exact (h.patches id call _ hcall ⟨maySetSecrets, changes, hrequest⟩).unseen
      · cases haccepted
  · unfold refused at hrefused
    cases hcall : desk.calls id with
    | none => simp [hcall] at hrefused
    | some call =>
      rw [hcall, Option.any_some] at hrefused
      split at hrefused
      · rename_i maySetSecrets named changes refusal hrequest hstage
        have hwhole := (h.patches id call _ hcall ⟨maySetSecrets, changes, hrequest⟩).whole
          (Or.inr ⟨refusal, hstage⟩)
        have hnothing : desk.commitsBy id = [] := by
          rw [h.accounted.commits id, hcall]
          exact of_not_not hwhole
        exact fun own hown hself => absurd hself (notMem_of_commitsBy hnothing own hown)
      · cases hrefused

end Spec

/-! ## A patch by itself -/

/-- A patch whose changes the registry takes, by itself and without a failure; others
commit before it begins. -/
def Uninterrupted (registry : SettingsRegistry) (id : ℕ) (desk : SettingsDesk) :
    SettingsEvent → Prop
  | .begin other request => other = id ∧ ∀ write, SettingsTask.write write ∈ request.tasks →
      ∃ settled, registry.settle write = .ok settled
  | .execute other failure => other = id ∧ failure = none
  | .proceed other => other = id
  | .elsewhere _ => desk.calls id = none

/-- It is the only call, and its changes are taken. A patch that runs by itself, after
whatever others have committed. -/
structure Single (registry : SettingsRegistry) (id : ℕ) (desk : SettingsDesk) : Prop where
  others : ∀ other call, desk.calls other = some call → other = id
  settles : ∀ call, desk.calls id = some call → ∀ write,
    SettingsTask.write write ∈ call.tasks → ∃ settled, registry.settle write = .ok settled

section Single

variable {registry : SettingsRegistry} {desk : SettingsDesk} {id : ℕ} {call : SettingsCall}
variable {event : SettingsEvent}

theorem Single.put (h : Single registry id desk) {after : SettingsDesk} {next : SettingsCall}
    (hcalls : after.calls = desk.calls)
    (hnext : ∀ write, SettingsTask.write write ∈ next.tasks →
      ∃ settled, registry.settle write = .ok settled) :
    Single registry id (after.put id next) := by
  refine ⟨fun other call hcall => ?_, fun call hcall => ?_⟩
  · by_contra hne
    rw [calls_put_of_ne hne, hcalls] at hcall
    exact hne (h.others other call hcall)
  · obtain rfl : next = call := by simpa [SettingsDesk.put] using hcall
    exact hnext

theorem resume_tasks_subset : (desk.resume registry call).tasks ⊆ call.tasks := by
  unfold resume
  split
  · exact List.Subset.refl _
  · rename_i htasks
    exact htasks ▸ List.subset_cons_self _ _
  · rename_i htasks
    split
    · exact List.Subset.refl _
    · exact htasks ▸ List.subset_cons_self _ _
  · split
    · exact List.Subset.refl _
    · exact List.Subset.refl _

theorem Single.step (h : Single registry id desk)
    (hevent : Uninterrupted registry id desk event) :
    Single registry id (desk.step registry event) := by
  unfold SettingsDesk.step
  cases event with
  | begin other request =>
    obtain ⟨rfl, hsettles⟩ := hevent
    dsimp only
    split
    · exact h
    · refine h.put rfl ?_
      unfold begun
      split
      · exact hsettles
      · exact hsettles
  | execute other failure =>
    obtain ⟨rfl, rfl⟩ := hevent
    dsimp only
    split
    · rename_i call hcall
      have hsettles := h.settles call hcall
      unfold executed
      split
      · exact h.put rfl hsettles
      · rename_i htasks
        exact h.put rfl fun write hmem =>
          hsettles write (htasks ▸ List.mem_cons_of_mem _ hmem)
      · exact h
    · exact h
  | proceed other =>
    obtain rfl := hevent
    dsimp only
    split
    · rename_i call hcall
      have hsettles := h.settles call hcall
      unfold proceeded
      split
      · exact h.put rfl fun write hmem => hsettles write (resume_tasks_subset hmem)
      · rename_i answer own _
        refine h.put ?_ hsettles
        cases answer with
        | ok read => rfl
        | error problem => rfl
      · exact h.put rfl hsettles
      · exact h.put rfl hsettles
      · exact h.put rfl hsettles
      · exact h.put rfl hsettles
      · exact h
    · exact h
  | elsewhere settled => exact ⟨h.others, h.settles⟩

theorem Single.respects (h : Single registry id desk)
    (hevent : Uninterrupted registry id desk event) : Respects registry desk event := by
  refine ⟨fun author hauthor other call expected hcall hnames hrelies => ?_, ?_, ?_, ?_, ?_⟩
  · obtain rfl := h.others other call hcall
    cases event with
    | begin starting request => cases hauthor
    | proceed going => cases hauthor
    | elsewhere settled =>
      rw [show desk.calls other = none from hevent] at hcall
      cases hcall
    | execute going failure =>
      obtain ⟨rfl, rfl⟩ := hevent
      unfold committer at hauthor
      dsimp only at hauthor
      rw [hcall] at hauthor
      dsimp only at hauthor
      split at hauthor
      · split at hauthor
        · exact (Option.some.inj hauthor).symm
        · cases hauthor
      · cases hauthor
  · rintro other problem rfl
    cases hevent.2
  · rintro going rfl call read own hcall hread other waiting expected hwaiting hnames hawaits
    obtain rfl := h.others going call hcall
    obtain rfl := h.others other waiting hwaiting
    obtain rfl := Option.some.inj (hcall.symm.trans hwaiting)
    have hready := hawaits.1
    rw [hread] at hready
    cases hready
  · rintro other rfl call expected hcall - - change tasks htasks
    obtain rfl := h.others other call hcall
    exact h.settles call hcall change (htasks ▸ List.mem_cons_self)
  · rintro other problem rfl
    cases hevent.2

/-- **A patch by itself respects what it relies on.** -/
theorem always_respects_of_uninterrupted {stored : StoredSettings}
    {events : List SettingsEvent}
    (h : Machine.Always (step registry) (Uninterrupted registry id) (boot stored) events) :
    Machine.Always (step registry) (Respects registry) (boot stored) events :=
  Machine.always_of_invariant (fun _ _ => Single.step) (fun _ _ => Single.respects)
    ⟨fun _ _ hcall => (by cases hcall), fun _ hcall => (by cases hcall)⟩ h

end Single

/-- **Where every event respects what the patches rely on, `If-Match` is honoured at
every moment of the run.** -/
theorem honoursIfMatch_of_respects (registry : SettingsRegistry) (stored : StoredSettings)
    (events : List SettingsEvent)
    (h : Machine.Always (step registry) (Respects registry) (boot stored) events) :
    ∀ reached, reached <+: events →
      HonoursIfMatch (Machine.run (step registry) (boot stored) reached) := by
  rintro reached ⟨rest, rfl⟩
  have hreached : Machine.Always (step registry) (Respects registry) (boot stored) reached :=
    h.prefix
  have hprecise : Precise registry (Machine.run (step registry) (boot stored) reached) :=
    Machine.run_invariant (fun _ _ => precise_step) (precise_boot stored) hreached
  exact hprecise.honoursIfMatch

/-- Two switches, which take no other values than on and off. -/
def twoSwitches : SettingsRegistry :=
  { oneSwitch with
    isManaged := fun key => key == "dispatch.enabled" || key == "reconciler.enabled"
    parse := fun _ raw =>
      if raw = "true" ∨ raw = "false" then .ok raw else .error "not a switch" }

/-- The refresh of a patch and its check. -/
def checked (id : ℕ) : List SettingsEvent :=
  [.proceed id, .execute id none, .proceed id, .proceed id]

/-- Another process commits a change, and a patch that names its revision makes
two. -/
def patchedInTurn : List SettingsEvent :=
  [.elsewhere ⟨"dispatch.enabled", some (.value "false")⟩,
    .begin 1 (.patch false (.revision 1)
      [.clear "dispatch.enabled",
        .set "reconciler.enabled" "false" (.error "not a secret")])] ++
    checked 1 ++ carriedOut 1 ++ carriedOut 1 ++ [.proceed 1]

theorem honoursIfMatch_of_respects_inTurn :
    accepted (Machine.run (step twoSwitches) (boot noOverrides) patchedInTurn) 1 1 = true ∧
      OverwritesNothing
        (Machine.run (step twoSwitches) (boot noOverrides) patchedInTurn) 1 1 := by
  have haccepted : accepted
      (Machine.run (step twoSwitches) (boot noOverrides) patchedInTurn) 1 1 = true := by
    decide
  have hsettles : ∀ write, SettingsTask.write write ∈ (SettingsRequest.patch false (.revision 1)
      [.clear "dispatch.enabled", .set "reconciler.enabled" "false" (.error "not a secret")]).tasks →
        ∃ settled, twoSwitches.settle write = .ok settled := by
    intro write hwrite
    simp only [SettingsRequest.tasks, List.map_cons, List.map_nil, List.mem_cons,
      reduceCtorEq, SettingsTask.write.injEq, List.not_mem_nil, or_false, false_or] at hwrite
    obtain rfl | rfl := hwrite
    · exact ⟨⟨"dispatch.enabled", none⟩, by decide⟩
    · exact ⟨⟨"reconciler.enabled", some (.value "false")⟩, by decide⟩
  have halone : Machine.Always (step twoSwitches) (Uninterrupted twoSwitches 1)
      (boot noOverrides) patchedInTurn := by
    simp only [patchedInTurn, checked, carriedOut, List.cons_append, List.nil_append,
      Machine.Always, Uninterrupted, boot, and_self, and_true, true_and]
    exact hsettles
  exact ⟨haccepted, (honoursIfMatch_of_respects twoSwitches noOverrides patchedInTurn
    (always_respects_of_uninterrupted halone) patchedInTurn
    (List.prefix_refl _)).accepted 1 1 haccepted⟩

/-- The memory is at the revision 0 when another process commits a change, and the
refresh of a patch that names 0 fails. -/
def refreshFailed : List SettingsEvent :=
  [.begin 1 .refresh, .proceed 1, .execute 1 none, .proceed 1, .proceed 1,
    .elsewhere ⟨"dispatch.enabled", some (.value "false")⟩,
    .begin 2 (.patch false (.revision 0) [.clear "dispatch.enabled"]),
    .proceed 2, .execute 2 (some "connection lost"), .proceed 2, .proceed 2] ++
    carriedOut 2 ++ [.proceed 2]

/-- Two patches of the revision 0 are checked, and then both are carried out. -/
def bothChecked : List SettingsEvent :=
  [.begin 1 (.patch false (.revision 0) [switchOff]),
    .begin 2 (.patch false (.revision 0) [.clear "dispatch.enabled"])] ++
    checked 1 ++ checked 2 ++ carriedOut 1 ++ [.proceed 1] ++ carriedOut 2 ++ [.proceed 2]

/-- A patch whose second change is no value of its switch. -/
def secondRejected : List SettingsEvent :=
  [.begin 1 (.patch false (.revision 0)
      [switchOff, .set "reconciler.enabled" "\"maybe\"" (.error "not a secret")])] ++
    checked 1 ++ carriedOut 1 ++ [.proceed 1]

/-- **A patch overwrites what it has not seen**, after a refresh that failed and
between its check and its write, **and a failed one leaves what it has done.** -/
theorem overwrites_and_leaves_half :
    (¬ ∀ registry stored events,
        HonoursIfMatch (Machine.run (step registry) (boot stored) events)) ∧
      (accepted (Machine.run (step twoSwitches) (boot noOverrides) refreshFailed) 2 0 = true ∧
        ¬ OverwritesNothing
          (Machine.run (step twoSwitches) (boot noOverrides) refreshFailed) 2 0) ∧
      (accepted (Machine.run (step twoSwitches) (boot noOverrides) bothChecked) 2 0 = true ∧
        ¬ OverwritesNothing
          (Machine.run (step twoSwitches) (boot noOverrides) bothChecked) 2 0) ∧
      refused (Machine.run (step twoSwitches) (boot noOverrides) secondRejected) 1 0 = true ∧
        ¬ NothingInForce
          (Machine.run (step twoSwitches) (boot noOverrides) secondRejected) 1 := by
  have hfailed : accepted
      (Machine.run (step twoSwitches) (boot noOverrides) refreshFailed) 2 0 = true ∧
        ¬ OverwritesNothing
          (Machine.run (step twoSwitches) (boot noOverrides) refreshFailed) 2 0 := by
    decide
  refine ⟨fun h => ?_, hfailed, by decide, by decide⟩
  exact hfailed.2 ((h twoSwitches noOverrides refreshFailed).accepted 2 0 hfailed.1)

end SettingsDesk

end Opifex
