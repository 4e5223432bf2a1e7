import Opifex.SettingsOverlay

/-!
# Settings patches

A `PATCH` compares the revision in memory with the one it was sent, and then makes
its changes one after another, each in a transaction of its own.

`SettingsDesk.carriedInOrder_run` is what every patch keeps, whatever else goes on:
it changes nothing unless the comparison held, and what it has committed at any time
is a beginning of its changes, in order, to which nothing is added once it has
failed.
-/

namespace Opifex

/-- The row a write left and the revision it made, if it changed one. -/
def CarriedWrite.committed (carried : CarriedWrite) :
    Option (String × Option OverlayEntry × ℕ) :=
  match carried.outcome with
  | .changed row => some (carried.settled.key, carried.settled.entry, row.revision)
  | _ => none

/-- The change that a part of a request makes, if it makes one. -/
def SettingsTask.write? : SettingsTask → Option SettingWrite
  | .write change => some change
  | _ => none

/-- The writes a call has still to make. -/
def SettingsCall.left (call : SettingsCall) : List SettingWrite :=
  call.tasks.filterMap SettingsTask.write?

/-- It has been answered. -/
def SettingsStage.ended : SettingsStage → Bool
  | .returned => true
  | .rejected _ => true
  | _ => false

namespace SettingsDesk

variable (registry : SettingsRegistry)

/-- What the transactions of a call have left, in their order. -/
def commitsBy (desk : SettingsDesk) (id : ℕ) :
    List (String × Option OverlayEntry × ℕ) :=
  ((desk.journal.writes.filter (·.author = some id)).map fun write =>
    (write.key, write.value, write.revision)).reverse

/-- **A patch is carried out in order**, and only past its check: what it has done is a
beginning of its changes, each in a transaction of its own, up to the one that failed.
-/
structure CarriedInOrder (desk : SettingsDesk) (id : ℕ) (call : SettingsCall)
    (ifMatch : IfMatch) (changes : List SettingWrite) : Prop where
  /-- It writes, or is accepted, only if the revision in memory was the one it
  named. -/
  fresh : call.carried ≠ [] ∨ call.stage = .returned →
    ∃ inMemory, call.passedAt = some inMemory ∧ assertFresh inMemory ifMatch = .ok ()
  /-- What it has carried out begins its changes. -/
  order : changes = call.carried.map (·.write) ++ call.left
  /-- Each was committed as it was asked for, in a transaction of its own. -/
  settled : ∀ carried ∈ call.carried, registry.settle carried.write = .ok carried.settled
  commits : desk.commitsBy id = call.carried.filterMap CarriedWrite.committed
  /-- Accepted, it has carried out all of them. -/
  accepted : call.stage = .returned → call.left = []
  /-- Failed past its check, it has carried out those before the one that failed. -/
  failed : ∀ refusal, call.stage = .rejected refusal → call.passedAt ≠ none →
    ∃ change rest, call.left = change :: rest ∧
      (registry.settle change = .error refusal ∨
        ∃ problem, refusal = .transactionFailed problem)
  /-- Nothing is added once it has been answered. -/
  final : call.stage.ended = true → ∀ more,
    (Machine.run (step registry) desk more).calls id = some call ∧
      (Machine.run (step registry) desk more).commitsBy id = desk.commitsBy id

/-- What a call has done so far, by itself: its tasks are carried out one after the
other, and it is at the one that comes next. -/
structure Orderly (call : SettingsCall) : Prop where
  order : call.request.tasks.filterMap SettingsTask.write?
    = call.carried.map (·.write) ++ call.left
  settled : ∀ carried ∈ call.carried, registry.settle carried.write = .ok carried.settled
  returned : call.stage = .returned → call.tasks = []
  /-- A transaction under way is that of the next write. -/
  writing : ∀ settled, call.stage = .writing settled → ∃ write tasks,
    call.tasks = .write write :: tasks ∧ registry.settle write = .ok settled
  failing : ∀ problem, call.stage = .written (.failed problem) → ∃ write tasks,
    call.tasks = .write write :: tasks
  passed : ∀ inMemory maySetSecrets ifMatch changes, call.passedAt = some inMemory →
    call.request = .patch maySetSecrets ifMatch changes →
      assertFresh inMemory ifMatch = .ok ()
  checking : ∀ ifMatch, SettingsTask.assertFresh ifMatch ∈ call.tasks →
    call.passedAt = none ∧
      ∃ maySetSecrets changes, call.request = .patch maySetSecrets ifMatch changes
  /-- Before the check nothing of it has been done. -/
  unpassed : ∀ maySetSecrets ifMatch changes, call.passedAt = none →
    call.request = .patch maySetSecrets ifMatch changes →
      call.tasks = .refresh :: .assertFresh ifMatch :: changes.map .write ∨
        call.tasks = .assertFresh ifMatch :: changes.map .write
  rejected : ∀ refusal, call.stage = .rejected refusal → call.passedAt ≠ none →
    ∃ change tasks, call.tasks = .write change :: tasks ∧
      (registry.settle change = .error refusal ∨
        ∃ problem, refusal = .transactionFailed problem)

/-- The journal holds what the calls have carried out, each under its call, and the
stored revision is the journal's. -/
structure Accounted (desk : SettingsDesk) : Prop where
  current : desk.stored.revision = desk.journal.revision
  commits : ∀ id, desk.commitsBy id
    = (desk.calls id).elim [] fun call => call.carried.filterMap CarriedWrite.committed
  calls : ∀ id, ∀ call ∈ desk.calls id, Orderly registry call

section Spec

variable {registry} {desk : SettingsDesk} {id : ℕ} {call : SettingsCall}
variable {event : SettingsEvent} {settled : SettledWrite}

/-! ## A call by itself -/

/-- A call that goes to a stage that says nothing about its tasks. -/
theorem Orderly.to (h : Orderly registry call) {stage : SettingsStage}
    (hreturned : stage ≠ .returned) (hwriting : ∀ settled, stage ≠ .writing settled)
    (hfailing : ∀ problem, stage ≠ .written (.failed problem))
    (hrejected : ∀ refusal, stage ≠ .rejected refusal) :
    Orderly registry { call with stage := stage } where
  order := h.order
  settled := h.settled
  returned := fun hstage => absurd hstage hreturned
  writing := fun settled hstage => absurd hstage (hwriting settled)
  failing := fun problem hstage => absurd hstage (hfailing problem)
  passed := h.passed
  checking := h.checking
  unpassed := h.unpassed
  rejected := fun refusal hstage => absurd hstage (hrejected refusal)

theorem orderly_begun (request : SettingsRequest) :
    Orderly registry (begun registry request) := by
  have hchecking : ∀ ifMatch, SettingsTask.assertFresh ifMatch ∈ request.tasks →
      (none : Option (Option ℕ)) = none ∧
        ∃ maySetSecrets changes, request = .patch maySetSecrets ifMatch changes := by
    intro ifMatch hmem
    refine ⟨rfl, ?_⟩
    cases request with
    | refresh => simp [SettingsRequest.tasks] at hmem
    | write write => simp [SettingsRequest.tasks] at hmem
    | patch maySetSecrets named changes =>
      obtain rfl : ifMatch = named := by simpa [SettingsRequest.tasks] using hmem
      exact ⟨maySetSecrets, changes, rfl⟩
  have hunpassed : ∀ maySetSecrets ifMatch changes,
      request = .patch maySetSecrets ifMatch changes →
        request.tasks = .refresh :: .assertFresh ifMatch :: changes.map .write := by
    rintro maySetSecrets ifMatch changes rfl
    rfl
  unfold begun
  split
  · exact ⟨rfl, fun _ h => (nomatch h), fun h => (nomatch h), fun _ h => (nomatch h),
      fun _ h => (nomatch h), fun _ _ _ _ h => (nomatch h), hchecking,
      fun _ _ _ _ h => Or.inl (hunpassed _ _ _ h), fun _ h => (nomatch h)⟩
  · exact ⟨rfl, fun _ h => (nomatch h), fun h => (nomatch h), fun _ h => (nomatch h),
      fun _ h => (nomatch h), fun _ _ _ _ h => (nomatch h), hchecking,
      fun _ _ _ _ h => Or.inl (hunpassed _ _ _ h), fun _ _ h => absurd rfl h⟩

/-- A call that has a write next is past its check. -/
theorem Orderly.passedAt_ne_none (h : Orderly registry call) {write : SettingWrite}
    {tasks : List SettingsTask} (htasks : call.tasks = .write write :: tasks)
    {maySetSecrets : Bool} {ifMatch : IfMatch} {changes : List SettingWrite}
    (hrequest : call.request = .patch maySetSecrets ifMatch changes) :
    call.passedAt ≠ none := by
  intro hnone
  obtain hbefore | hbefore := h.unpassed maySetSecrets ifMatch changes hnone hrequest
  · rw [htasks] at hbefore
    cases hbefore
  · rw [htasks] at hbefore
    cases hbefore

theorem left_of_tasks {task : SettingsTask} {tasks : List SettingsTask}
    (htasks : call.tasks = task :: tasks) (htask : task.write? = none) :
    call.left = tasks.filterMap SettingsTask.write? := by
  unfold SettingsCall.left
  rw [htasks, List.filterMap_cons_none htask]

/-- The check that a call comes to is its own, and the only one. -/
theorem Orderly.check (h : Orderly registry call) {ifMatch : IfMatch}
    {tasks : List SettingsTask} (htasks : call.tasks = .assertFresh ifMatch :: tasks) :
    call.passedAt = none ∧
      ∃ maySetSecrets changes, call.request = .patch maySetSecrets ifMatch changes ∧
        tasks = changes.map .write := by
  obtain ⟨hnone, maySetSecrets, changes, hrequest⟩ :=
    h.checking ifMatch (htasks ▸ List.mem_cons_self)
  refine ⟨hnone, maySetSecrets, changes, hrequest, ?_⟩
  obtain hbefore | hbefore := h.unpassed maySetSecrets ifMatch changes hnone hrequest
  · rw [htasks] at hbefore
    cases hbefore
  · rw [htasks] at hbefore
    exact (List.cons.inj hbefore).2

theorem orderly_resume (h : Orderly registry call) (hready : call.stage = .ready) :
    Orderly registry (desk.resume registry call) := by
  have hstays : ∀ stage, stage ≠ .ready → call.stage ≠ stage :=
    fun stage hstage hsame => hstage (hsame ▸ hready)
  unfold resume
  split
  · rename_i htasks
    exact ⟨h.order, h.settled, fun _ => htasks, fun _ h => (nomatch h), fun _ h => (nomatch h),
      h.passed, h.checking, h.unpassed, fun _ h => (nomatch h)⟩
  · rename_i tasks htasks
    refine ⟨h.order.trans (by rw [left_of_tasks htasks rfl]; rfl), h.settled,
      fun h => (nomatch h), fun _ h => (nomatch h), fun _ h => (nomatch h), h.passed,
      fun ifMatch hmem => h.checking ifMatch (htasks ▸ List.mem_cons_of_mem _ hmem), ?_,
      fun _ h => (nomatch h)⟩
    intro maySetSecrets ifMatch changes hnone hrequest
    obtain hbefore | hbefore := h.unpassed maySetSecrets ifMatch changes hnone hrequest
    · rw [htasks] at hbefore
      exact Or.inr (List.cons.inj hbefore).2
    · rw [htasks] at hbefore
      cases hbefore
  · rename_i ifMatch tasks htasks
    obtain ⟨hnone, maySetSecrets, changes, hrequest, rfl⟩ := h.check htasks
    split
    · exact ⟨h.order, h.settled, fun h => (nomatch h), fun _ h => (nomatch h),
        fun _ h => (nomatch h), h.passed, h.checking, h.unpassed,
        fun _ _ hpassed => absurd hnone hpassed⟩
    · rename_i hfresh
      refine ⟨h.order.trans (by rw [left_of_tasks htasks rfl]; rfl), h.settled,
        fun hstage => absurd hstage (hstays _ nofun),
        fun _ hstage => absurd hstage (hstays _ nofun),
        fun _ hstage => absurd hstage (hstays _ nofun), ?_, fun named hmem => ?_,
        fun _ _ _ hnone => (nomatch hnone),
        fun _ hstage => absurd hstage (hstays _ nofun)⟩
      · intro inMemory maySetSecrets' named changes' hpassed hpatch
        obtain rfl := Option.some.inj hpassed
        obtain ⟨-, rfl, -⟩ := SettingsRequest.patch.inj (hrequest.symm.trans hpatch)
        exact hfresh
      · simp at hmem
  · rename_i write tasks htasks
    split
    · rename_i refusal hrefused
      exact ⟨h.order, h.settled, fun h => (nomatch h), fun _ h => (nomatch h),
        fun _ h => (nomatch h), h.passed, h.checking, h.unpassed, fun _ hstage _ =>
          ⟨write, tasks, htasks, Or.inl (SettingsStage.rejected.inj hstage ▸ hrefused)⟩⟩
    · rename_i settled hsettled
      exact ⟨h.order, h.settled, fun h => (nomatch h),
        fun _ hstage => ⟨write, tasks, htasks, SettingsStage.writing.inj hstage ▸ hsettled⟩,
        fun _ h => (nomatch h), h.passed, h.checking, h.unpassed, fun _ h => (nomatch h)⟩

/-- A transaction has succeeded: the write is carried out. -/
theorem Orderly.carry (h : Orderly registry call) {write : SettingWrite}
    {tasks : List SettingsTask} (hwriting : call.stage = .writing settled)
    (htasks : call.tasks = .write write :: tasks) {outcome : WriteOutcome}
    (hdone : ∀ problem, outcome ≠ .failed problem) :
    Orderly registry
      { call with
        tasks := tasks
        stage := .written outcome
        carried := call.carried ++ [⟨write, settled, outcome⟩] } := by
  obtain ⟨write', tasks', htasks', hsettled⟩ := h.writing settled hwriting
  obtain ⟨rfl, rfl⟩ : write = write' ∧ tasks = tasks' := by
    rw [htasks] at htasks'
    obtain ⟨hwrite, hrest⟩ := List.cons.inj htasks'
    exact ⟨SettingsTask.write.inj hwrite, hrest⟩
  have hleft : call.left = write :: tasks.filterMap SettingsTask.write? := by
    unfold SettingsCall.left
    rw [htasks]
    rfl
  refine ⟨?_, fun carried hcarried => ?_, fun h => (nomatch h), fun _ h => (nomatch h),
    fun problem hstage => absurd (SettingsStage.written.inj hstage) (hdone problem),
    h.passed, fun ifMatch hmem => h.checking ifMatch (htasks ▸ List.mem_cons_of_mem _ hmem),
    fun maySetSecrets ifMatch changes hnone hrequest =>
      absurd hnone (h.passedAt_ne_none htasks hrequest), fun _ h => (nomatch h)⟩
  · rw [h.order, hleft]
    simp [SettingsCall.left]
  · obtain hcarried | hcarried := List.mem_append.mp hcarried
    · exact h.settled carried hcarried
    · rw [List.mem_singleton.mp hcarried]
      exact hsettled

/-! ## The journal and the calls -/

theorem commitsBy_commit {author : Option ℕ} :
    (desk.commit author settled).commitsBy id
      = desk.commitsBy id ++
          if desk.stored.changes settled = true ∧ author = some id then
            [(settled.key, settled.entry, desk.journal.revision + 1)]
          else [] := by
  unfold commitsBy
  by_cases h : desk.stored.changes settled = true
  · rw [journal_commit h, Journal.writes_write]
    by_cases hauthor : author = some id
    · rw [if_pos ⟨h, hauthor⟩, List.filter_cons_of_pos (by simpa using hauthor),
        List.map_cons, List.reverse_cons]
    · rw [if_neg (fun hboth => hauthor hboth.2),
        List.filter_cons_of_neg (by simpa using hauthor), List.append_nil]
  · rw [commit_eq_self (by simpa using h), if_neg (fun hboth => h hboth.1), List.append_nil]

/-- What touches neither the rows nor the calls. -/
theorem Accounted.same {after : SettingsDesk} (h : Accounted registry desk)
    (hstored : after.stored = desk.stored) (hjournal : after.journal = desk.journal)
    (hcalls : after.calls = desk.calls) : Accounted registry after := by
  refine ⟨?_, fun id => ?_, fun id call hcall => h.calls id call (hcalls ▸ hcall)⟩
  · rw [hstored, hjournal]
    exact h.current
  · unfold commitsBy
    rw [hjournal, hcalls]
    exact h.commits id

/-- A call goes on, and nothing has been carried out. -/
theorem Accounted.put (h : Accounted registry desk) {next : SettingsCall}
    (hnext : Orderly registry next)
    (hcarried : next.carried = (desk.calls id).elim [] SettingsCall.carried) :
    Accounted registry (desk.put id next) := by
  refine ⟨h.current, fun other => ?_, fun other call' hcall' => ?_⟩
  · show desk.commitsBy other = _
    rw [h.commits other]
    by_cases hother : other = id
    · subst hother
      cases hcall : desk.calls other with
      | none => simp [SettingsDesk.put, hcarried, hcall]
      | some call => simp [SettingsDesk.put, hcarried, hcall]
    · simp [SettingsDesk.put, Function.update_of_ne hother]
  · by_cases hother : other = id
    · subst hother
      obtain rfl : next = call' := by simpa [SettingsDesk.put] using hcall'
      exact hnext
    · exact h.calls other call' (by simpa [SettingsDesk.put, Function.update_of_ne hother] using hcall')

theorem accounted_elsewhere (h : Accounted registry desk) :
    Accounted registry (desk.commit none settled) := by
  refine ⟨?_, fun id => ?_, h.calls⟩
  · by_cases hchanges : desk.stored.changes settled = true
    · rw [journal_commit hchanges]
      exact (revision_commit hchanges).trans (congrArg (· + 1) h.current)
    · rw [commit_eq_self (by simpa using hchanges)]
      exact h.current
  · rw [commitsBy_commit, if_neg (by simp), List.append_nil]
    exact h.commits id

/-- What a transaction of a call adds to the journal is what the call has carried
out. -/
theorem accounted_carried (h : Accounted registry desk) (hcall : desk.calls id = some call)
    {next : SettingsCall} {write : SettingWrite} (hnext : Orderly registry next)
    (hcarried : next.carried = call.carried ++ [⟨write, settled, desk.outcomeOf settled⟩]) :
    Accounted registry ((desk.commit (some id) settled).put id next) := by
  refine ⟨?_, fun other => ?_, fun other call' hcall' => ?_⟩
  · by_cases hchanges : desk.stored.changes settled = true
    · show (desk.stored.commit settled).revision = (desk.commit (some id) settled).journal.revision
      rw [journal_commit hchanges]
      exact (revision_commit hchanges).trans (congrArg (· + 1) h.current)
    · rw [commit_eq_self (by simpa using hchanges)]
      exact h.current
  · show (desk.commit (some id) settled).commitsBy other = _
    rw [commitsBy_commit, h.commits other]
    by_cases hother : other = id
    · subst hother
      rw [hcall]
      simp only [SettingsDesk.put, Function.update_self, Option.elim_some, hcarried,
        List.filterMap_append]
      unfold outcomeOf
      by_cases hchanges : desk.stored.changes settled = true
      · simp [hchanges, CarriedWrite.committed, h.current]
      · simp [hchanges, CarriedWrite.committed]
    · rw [if_neg (fun hboth => hother (Option.some.inj hboth.2).symm), List.append_nil]
      simp [SettingsDesk.put, commit, Function.update_of_ne hother]
  · by_cases hother : other = id
    · subst hother
      obtain rfl : next = call' := by simpa [SettingsDesk.put] using hcall'
      exact hnext
    · exact h.calls other call'
        (by simpa [SettingsDesk.put, commit, Function.update_of_ne hother] using hcall')

theorem outcomeOf_ne_failed (problem : String) : desk.outcomeOf settled ≠ .failed problem := by
  unfold outcomeOf
  split
  · nofun
  · nofun

theorem accounted_executed {failure : Option String} (h : Accounted registry desk)
    (hcall : desk.calls id = some call) :
    Accounted registry (desk.executed id call failure) := by
  have horderly := h.calls id call hcall
  have hsame : call.carried = (desk.calls id).elim [] SettingsCall.carried := by
    rw [hcall]
    rfl
  unfold executed
  split
  · exact h.put (horderly.to nofun nofun nofun nofun) hsame
  · rename_i settled write tasks hwriting htasks
    split
    · refine h.put ?_ hsame
      exact ⟨horderly.order, horderly.settled, fun h => (nomatch h), fun _ h => (nomatch h),
        fun _ _ => ⟨write, tasks, htasks⟩, horderly.passed, horderly.checking,
        horderly.unpassed, fun _ h => (nomatch h)⟩
    · exact accounted_carried h hcall (horderly.carry hwriting htasks outcomeOf_ne_failed) rfl
  · exact h

theorem accounted_proceeded (h : Accounted registry desk) (hcall : desk.calls id = some call) :
    Accounted registry (desk.proceeded registry id call) := by
  have horderly := h.calls id call hcall
  have hready : Orderly registry { call with stage := .ready } :=
    horderly.to nofun nofun nofun nofun
  have hsame : call.carried = (desk.calls id).elim [] SettingsCall.carried := by
    rw [hcall]
    rfl
  unfold proceeded
  split
  · rename_i hstage
    refine h.put (orderly_resume horderly hstage) (Eq.trans ?_ hsame)
    unfold resume
    split
    · rfl
    · rfl
    · split
      · rfl
      · rfl
    · split
      · rfl
      · rfl
  · rename_i answer own hread
    have hafter : Accounted registry (desk.refreshed registry answer) ∧
        (desk.refreshed registry answer).calls = desk.calls := by
      cases answer with
      | ok read => exact ⟨h.same rfl rfl rfl, rfl⟩
      | error problem => exact ⟨h.same rfl rfl rfl, rfl⟩
    rw [← hafter.2] at hsame
    cases own with
    | none => exact hafter.1.put hready hsame
    | some row => exact hafter.1.put (horderly.to nofun nofun nofun nofun) hsame
  · rename_i problem hwritten
    obtain ⟨write, tasks, htasks⟩ := horderly.failing problem hwritten
    refine h.put ?_ hsame
    exact ⟨horderly.order, horderly.settled, fun h => (nomatch h), fun _ h => (nomatch h),
      fun _ h => (nomatch h), horderly.passed, horderly.checking, horderly.unpassed,
      fun _ hstage _ => ⟨write, tasks, htasks, Or.inr ⟨problem,
        (SettingsStage.rejected.inj hstage).symm⟩⟩⟩
  · rename_i key revision hwritten
    have hafter : Accounted registry (desk.withResolved (desk.leftBy key revision)) :=
      h.same rfl rfl rfl
    exact hafter.put hready hsame
  · exact h.put (horderly.to nofun nofun nofun nofun) hsame
  · rename_i row reread hauditing
    have hafter : Accounted registry ((desk.notifyChanged
        (if row.key ∈ desk.memory.lastRefreshChanged then [] else [row.key])).withResolved
          [⟨row, true⟩]) := h.same rfl rfl rfl
    exact hafter.put hready hsame
  · exact h

theorem accounted_step (h : Accounted registry desk) :
    Accounted registry (desk.step registry event) := by
  unfold step
  split
  · rename_i id request
    split
    · exact h
    · rename_i hnone
      refine h.put (orderly_begun request) ?_
      rw [hnone]
      unfold begun
      split
      · rfl
      · rfl
  · split
    · rename_i call hcall
      exact accounted_executed h hcall
    · exact h
  · split
    · rename_i call hcall
      exact accounted_proceeded h hcall
    · exact h
  · exact accounted_elsewhere h

/-! ## Runs -/

theorem accounted_boot (stored : StoredSettings) : Accounted registry (boot stored) :=
  ⟨rfl, fun _ => rfl, fun _ _ h => nomatch h⟩

theorem calls_put_of_ne {other : ℕ} (h : id ≠ other) :
    (desk.put other call).calls id = desk.calls id :=
  Function.update_of_ne h _ _

/-- **A call that has been answered stays as it is**, and so does what it has
committed. -/
theorem ended_step (hcall : desk.calls id = some call) (hended : call.stage.ended = true) :
    (desk.step registry event).calls id = some call ∧
      (desk.step registry event).commitsBy id = desk.commitsBy id := by
  unfold step
  split
  · rename_i other request
    split
    · exact ⟨hcall, rfl⟩
    · rename_i hnone
      have hother : id ≠ other := by
        rintro rfl
        rw [hcall] at hnone
        cases hnone
      exact ⟨(calls_put_of_ne hother).trans hcall, rfl⟩
  · rename_i other failure
    split
    · rename_i call' hcall'
      by_cases hother : id = other
      · subst hother
        obtain rfl : call = call' := Option.some.inj (hcall.symm.trans hcall')
        unfold executed
        split
        · rename_i hstage
          rw [hstage] at hended
          cases hended
        · rename_i hstage _
          rw [hstage] at hended
          cases hended
        · exact ⟨hcall, rfl⟩
      · unfold executed
        split
        · exact ⟨(calls_put_of_ne hother).trans hcall, rfl⟩
        · split
          · exact ⟨(calls_put_of_ne hother).trans hcall, rfl⟩
          · refine ⟨(calls_put_of_ne hother).trans hcall, ?_⟩
            refine commitsBy_commit.trans ?_
            rw [if_neg (fun hboth => hother (Option.some.inj hboth.2).symm), List.append_nil]
        · exact ⟨hcall, rfl⟩
    · exact ⟨hcall, rfl⟩
  · rename_i other
    split
    · rename_i call' hcall'
      by_cases hother : id = other
      · subst hother
        obtain rfl : call = call' := Option.some.inj (hcall.symm.trans hcall')
        unfold proceeded
        cases hstage : call.stage with
        | returned => exact ⟨hcall, rfl⟩
        | rejected refusal => exact ⟨hcall, rfl⟩
        | ready => exact absurd hended (by simp [hstage, SettingsStage.ended])
        | reading own => exact absurd hended (by simp [hstage, SettingsStage.ended])
        | read answer own => exact absurd hended (by simp [hstage, SettingsStage.ended])
        | writing settled => exact absurd hended (by simp [hstage, SettingsStage.ended])
        | written outcome => exact absurd hended (by simp [hstage, SettingsStage.ended])
        | auditing row reread => exact absurd hended (by simp [hstage, SettingsStage.ended])
      · unfold proceeded
        split
        · exact ⟨(calls_put_of_ne hother).trans hcall, rfl⟩
        · rename_i answer own _
          cases answer with
          | ok read => exact ⟨(calls_put_of_ne hother).trans hcall, rfl⟩
          | error problem => exact ⟨(calls_put_of_ne hother).trans hcall, rfl⟩
        · exact ⟨(calls_put_of_ne hother).trans hcall, rfl⟩
        · exact ⟨(calls_put_of_ne hother).trans hcall, rfl⟩
        · exact ⟨(calls_put_of_ne hother).trans hcall, rfl⟩
        · exact ⟨(calls_put_of_ne hother).trans hcall, rfl⟩
        · exact ⟨hcall, rfl⟩
    · exact ⟨hcall, rfl⟩
  · refine ⟨hcall, commitsBy_commit.trans ?_⟩
    rw [if_neg (by simp), List.append_nil]

theorem ended_run (hcall : desk.calls id = some call) (hended : call.stage.ended = true)
    (more : List SettingsEvent) :
    (Machine.run (step registry) desk more).calls id = some call ∧
      (Machine.run (step registry) desk more).commitsBy id = desk.commitsBy id := by
  have hstep : ∀ after event, after.calls id = some call ∧
      after.commitsBy id = desk.commitsBy id →
        (step registry after event).calls id = some call ∧
          (step registry after event).commitsBy id = desk.commitsBy id := by
    rintro after event ⟨hafter, hsame⟩
    obtain ⟨hcalls, hcommits⟩ := @ended_step registry after id call event hafter hended
    exact ⟨hcalls, hcommits.trans hsame⟩
  exact Machine.run_preserves hstep more ⟨hcall, rfl⟩

theorem writes_of_changes (changes : List SettingWrite) :
    (changes.map SettingsTask.write).filterMap SettingsTask.write? = changes := by
  rw [List.filterMap_map]
  exact List.filterMap_some

theorem left_of_unpassed (h : Orderly registry call) {maySetSecrets : Bool}
    {ifMatch : IfMatch} {changes : List SettingWrite} (hnone : call.passedAt = none)
    (hrequest : call.request = .patch maySetSecrets ifMatch changes) :
    call.tasks ≠ [] ∧ call.left = changes := by
  have hwrites := writes_of_changes changes
  unfold SettingsCall.left
  obtain htasks | htasks := h.unpassed maySetSecrets ifMatch changes hnone hrequest
  · rw [htasks]
    exact ⟨List.cons_ne_nil _ _, hwrites⟩
  · rw [htasks]
    exact ⟨List.cons_ne_nil _ _, hwrites⟩

theorem Accounted.carriedInOrder (h : Accounted registry desk)
    (hcall : desk.calls id = some call) {maySetSecrets : Bool} {ifMatch : IfMatch}
    {changes : List SettingWrite}
    (hrequest : call.request = .patch maySetSecrets ifMatch changes) :
    CarriedInOrder registry desk id call ifMatch changes := by
  have horderly := h.calls id call hcall
  have horder : changes = call.carried.map (·.write) ++ call.left := by
    rw [← horderly.order, hrequest]
    exact (writes_of_changes changes).symm
  refine ⟨fun hbegun => ?_, horder, horderly.settled, ?_, fun hreturned => ?_,
    fun refusal hrejected hpassed => ?_, ended_run hcall⟩
  · cases hpassedAt : call.passedAt with
    | some inMemory =>
      exact ⟨inMemory, rfl, horderly.passed inMemory _ _ _ hpassedAt hrequest⟩
    | none =>
      -- before its check all of its changes are left
      obtain ⟨htasks, hleft⟩ := left_of_unpassed horderly hpassedAt hrequest
      obtain hcarried | hreturned := hbegun
      · rw [hleft] at horder
        have hnone : call.carried.map (·.write) = [] := List.self_eq_append_left.mp horder
        exact absurd (List.map_eq_nil_iff.mp hnone) hcarried
      · exact absurd (horderly.returned hreturned) htasks
  · rw [h.commits id, hcall]
    rfl
  · unfold SettingsCall.left
    rw [horderly.returned hreturned]
    rfl
  · obtain ⟨change, tasks, htasks, hwhy⟩ := horderly.rejected refusal hrejected hpassed
    refine ⟨change, tasks.filterMap SettingsTask.write?, ?_, hwhy⟩
    unfold SettingsCall.left
    rw [htasks]
    rfl

end Spec

/-- **In every run, every patch is carried out in order.** -/
theorem carriedInOrder_run (registry : SettingsRegistry) (stored : StoredSettings)
    (events : List SettingsEvent) (id : ℕ) (call : SettingsCall) (maySetSecrets : Bool)
    (ifMatch : IfMatch) (changes : List SettingWrite)
    (hcall : (Machine.run (step registry) (boot stored) events).calls id = some call)
    (hrequest : call.request = .patch maySetSecrets ifMatch changes) :
    CarriedInOrder registry (Machine.run (step registry) (boot stored) events) id call
      ifMatch changes := by
  have haccounted : Accounted registry (Machine.run (step registry) (boot stored) events) :=
    Machine.run_preserves (fun _ _ h => accounted_step h) events (accounted_boot stored)
  exact haccounted.carriedInOrder hcall hrequest

end SettingsDesk

end Opifex
