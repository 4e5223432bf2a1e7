import Opifex.ReconcilerLoop
import Opifex.SubmissionSafety

/-!
# The hold, from the label to the queue

A hold lives on the issue and the queue reads the row, so the brake works only
if the sweep before a drain carries one to the other. It does when the pass
runs, and the pass runs only when some ready issue still needs a base commit
and the repository has one; and it finds the row only if no later row of the
same issue stands in front of it.

The status a row has after a sweep is computed exactly (`status_afterSweep`),
so the condition is not only enough but necessary.
-/

namespace Opifex

/-! ## One pass -/

/-- An issue of the pass moves the row with a key: it is the one known for the
issue, it is holdable, and its status disagrees with the label. -/
def moves (existingWorkOrders : List ExistingWorkOrder) (id : ℕ)
    (issue : NormalizedIssue) : Bool :=
  (knownWorkOrder existingWorkOrders issue.number).any fun existing =>
    existing.id == id && isHoldable existing.status &&
      (issue.carries .hold != (existing.status == .held))

/-- The other of the two statuses a hold moves between. -/
def flipHold : WorkOrderStatus → WorkOrderStatus
  | .held => .queued
  | _ => .held

section Pass

variable {input : ProjectionInput} {id : ℕ} {row : WorkOrderRow}

/-- Reconciling a hold updates the row it was given, or nothing. -/
theorem reconcileHold_db (now : Instant) (existing : ExistingWorkOrder)
    (issue : NormalizedIssue) (pass : ProjectionPass) :
    (reconcileHold now existing issue pass).db = pass.db ∨
      (reconcileHold now existing issue pass).db =
        pass.db.updateWorkOrder existing.id
          (holdUpdate (issue.carries .hold) now)
          (holdUpdate_id (issue.carries .hold) now) := by
  unfold reconcileHold
  dsimp only
  split
  · exact Or.inl rfl
  · exact Or.inr rfl

/-- What reconciling one known row does to the row with a key. -/
theorem find_reconcileHold {existing : ExistingWorkOrder}
    {issue : NormalizedIssue} {pass : ProjectionPass} {now : Instant}
    (hfind : pass.db.workOrders.find id = some row) :
    (reconcileHold now existing issue pass).db.workOrders.find id =
      some (if existing.id = id ∧
          issue.carries .hold ≠ (existing.status == .held) then
        holdUpdate (issue.carries .hold) now row else row) := by
  have hid : row.id = id := (Table.find_eq_some.mp hfind).2
  unfold reconcileHold
  dsimp only
  split
  next hsame => rw [hfind, if_neg fun h => h.2 hsame]
  next hdiffer =>
    show (pass.db.updateWorkOrder existing.id _
      (holdUpdate_id (issue.carries .hold) now)).workOrders.find id = _
    rw [Db.find_updateWorkOrder, hfind, Option.map_some, hid]
    by_cases hkey : id = existing.id
    · rw [if_pos (beq_iff_eq.mpr hkey), if_pos ⟨hkey.symm, hdiffer⟩]
    · rw [if_neg (by simpa using hkey), if_neg fun h => hkey h.1.symm]

/-- Inserting a row leaves the rows there are. -/
theorem find_insertWorkOrder {db : Db} {repositoryId : ℕ}
    {workOrder : GeneratedWorkOrder} {held : Bool} {now : Instant}
    (hfind : db.workOrders.find id = some row) :
    (insertWorkOrder db repositoryId workOrder held now).workOrders.find id =
      some row := by
  have hlt : id < db.workOrders.next := by
    obtain ⟨hmem, hid⟩ := Table.find_eq_some.mp hfind
    exact hid ▸ db.workOrders.bounded row hmem
  rw [← hfind]
  exact Table.find_insert_of_ne
    (createData_key repositoryId workOrder held now) (Nat.ne_of_lt hlt)

/-- **What one issue of a pass does to a row that exists.** -/
theorem find_projectNext (input : ProjectionInput) {pass : ProjectionPass}
    (hfind : pass.db.workOrders.find id = some row) (issue : NormalizedIssue) :
    (projectNext input pass issue).db.workOrders.find id =
      some (if moves input.existingWorkOrders id issue then
        holdUpdate (issue.carries .hold) input.now row else row) := by
  unfold moves
  rcases projectNext_db input pass issue with ⟨existing, hknown, hdb⟩ |
    ⟨hunknown, hdb⟩
  · rw [hknown, hdb, Option.any_some]
    split
    next hholdable =>
      rw [find_reconcileHold hfind]
      simp [hholdable]
    next hstuck => simp [hfind, hstuck]
  · rw [hunknown, Option.any_none, if_neg Bool.false_ne_true]
    rcases hdb with hsame | ⟨workOrder, held, hstored⟩
    · rw [hsame, hfind]
    · rw [hstored]
      exact find_insertWorkOrder hfind

theorem holdUpdate_repositoryId (shouldHold : Bool) (now : Instant)
    (row : WorkOrderRow) :
    (holdUpdate shouldHold now row).repositoryId = row.repositoryId := by
  cases shouldHold <;> rfl

/-- The work order known for an issue is one of those loaded, and the
issue's. -/
theorem knownWorkOrder_eq_some {existingWorkOrders : List ExistingWorkOrder}
    {issueNumber : ℕ} {existing : ExistingWorkOrder}
    (h : knownWorkOrder existingWorkOrders issueNumber = some existing) :
    existing ∈ existingWorkOrders ∧ existing.issueNumber = issueNumber :=
  ⟨List.mem_reverse.mp (List.mem_of_find?_eq_some h),
    by simpa using List.find?_some h⟩

theorem moves_iff {existingWorkOrders : List ExistingWorkOrder}
    {issue : NormalizedIssue} :
    moves existingWorkOrders id issue ↔
      ∃ existing,
        knownWorkOrder existingWorkOrders issue.number = some existing ∧
          existing.id = id ∧ isHoldable existing.status ∧
          issue.carries .hold ≠ (existing.status == .held) := by
  unfold moves
  cases knownWorkOrder existingWorkOrders issue.number with
  | none => simp
  | some existing => simp [and_assoc]

/-- The snapshot a pass was given agrees with a row's status. -/
def Snapshot (existingWorkOrders : List ExistingWorkOrder) (id : ℕ)
    (status : WorkOrderStatus) : Prop :=
  ∀ existing ∈ existingWorkOrders, existing.id = id →
    existing.status = status

/-- An issue that moves a row moves it to the other status. -/
theorem status_holdUpdate_of_moves
    {existingWorkOrders : List ExistingWorkOrder} {status : WorkOrderStatus}
    (hsnapshot : Snapshot existingWorkOrders id status)
    {issue : NormalizedIssue} (hmoves : moves existingWorkOrders id issue)
    (now : Instant) :
    (holdUpdate (issue.carries .hold) now row).status = flipHold status := by
  obtain ⟨existing, hknown, hid, hholdable, hdiffer⟩ := moves_iff.mp hmoves
  rw [hsnapshot existing (knownWorkOrder_eq_some hknown).1 hid]
    at hholdable hdiffer
  have hstatus : status = .queued ∨ status = .held := by
    simpa [isHoldable] using hholdable
  rcases hstatus with rfl | rfl
  · cases hcarries : issue.carries .hold with
    | true => rfl
    | false => exact absurd hcarries hdiffer
  · cases hcarries : issue.carries .hold with
    | true => exact absurd hcarries hdiffer
    | false => rfl

/-- **The status a row has after a pass**: the other one if some issue of the
pass moves it, else the one it had. -/
theorem status_run (input : ProjectionInput) {status : WorkOrderStatus}
    {repositoryId : ℕ}
    (hsnapshot : Snapshot input.existingWorkOrders id status) (issues : List NormalizedIssue) :
    ∀ (pass : ProjectionPass) (moved : Bool) (row : WorkOrderRow),
      pass.db.workOrders.find id = some row →
      row.repositoryId = repositoryId →
      row.status = (if moved then flipHold status else status) →
      ∃ row', (Machine.run (projectNext input) pass
          issues).db.workOrders.find id = some row' ∧
        row'.repositoryId = repositoryId ∧
        row'.status =
          if moved || issues.any (moves input.existingWorkOrders id) then
            flipHold status
          else status := by
  induction issues with
  | nil =>
    intro pass moved row hfind hrepository hstatus
    exact ⟨row, hfind, hrepository, by simpa using hstatus⟩
  | cons issue issues ih =>
    intro pass moved row hfind hrepository hstatus
    have hnext := find_projectNext input hfind issue
    by_cases hmoves : moves input.existingWorkOrders id issue
    · rw [if_pos hmoves] at hnext
      obtain ⟨row', hrun, hrepository', hstatus'⟩ := ih _ true _ hnext
        ((holdUpdate_repositoryId _ _ row).trans hrepository)
        (status_holdUpdate_of_moves hsnapshot hmoves _)
      exact ⟨row', hrun, hrepository', by simpa [hmoves] using hstatus'⟩
    · rw [if_neg hmoves] at hnext
      obtain ⟨row', hrun, hrepository', hstatus'⟩ :=
        ih _ moved row hnext hrepository hstatus
      exact ⟨row', hrun, hrepository', by simpa [hmoves] using hstatus'⟩

end Pass

/-! ## One repository of the sweep -/

section Sweep

variable {tick : TickInput} {db : Db} {repository : RepositoryRow} {id : ℕ}
  {row : WorkOrderRow} {repositoryId : ℕ}

theorem mem_loadWorkOrders {existing : ExistingWorkOrder} :
    existing ∈ db.loadWorkOrders repositoryId ↔
      ∃ row ∈ db.workOrders.rows, row.repositoryId = repositoryId ∧
        row.toExisting = existing := by
  simp [Db.loadWorkOrders, and_assoc]

/-- The work orders a tick loads agree with the table. -/
theorem snapshot_loadWorkOrders (hfind : db.workOrders.find id = some row)
    (repositoryId : ℕ) :
    Snapshot (db.loadWorkOrders repositoryId) id row.status := by
  rintro existing hexisting hid
  obtain ⟨other, hother, -, rfl⟩ := mem_loadWorkOrders.mp hexisting
  obtain ⟨hmem, hrow⟩ := Table.find_eq_some.mp hfind
  rw [Table.eq_of_key hmem hother (hrow.trans hid.symm)]
  rfl

/-- No issue of another repository moves the row. -/
theorem not_moves_of_ne (hfind : db.workOrders.find id = some row)
    (hne : row.repositoryId ≠ repositoryId) (issue : NormalizedIssue) :
    ¬ moves (db.loadWorkOrders repositoryId) id issue := by
  intro hmoves
  obtain ⟨existing, hknown, hid, -⟩ := moves_iff.mp hmoves
  obtain ⟨other, hother, hrepository, rfl⟩ :=
    mem_loadWorkOrders.mp (knownWorkOrder_eq_some hknown).1
  obtain ⟨hmem, hrow⟩ := Table.find_eq_some.mp hfind
  rw [Table.eq_of_key hmem hother (hrow.trans hid.symm)] at hne
  exact hne hrepository

/-- The pass does not run when no ready issue needs a base commit, or there is
none. -/
theorem projectWorkOrders_eq_self
    (h : needsBaseCommit (tick.issues repository)
        (db.loadWorkOrders repository.id) = false ∨
      tick.head repository = none) :
    projectWorkOrders tick repository db = db := by
  unfold projectWorkOrders
  dsimp only
  rcases h with hneeds | hhead
  · rw [if_pos (by rw [hneeds]; rfl)]
  · split
    · rfl
    · rw [hhead]

theorem projectWorkOrders_eq_project {baseCommit : String}
    (hneeds : needsBaseCommit (tick.issues repository)
      (db.loadWorkOrders repository.id) = true)
    (hhead : tick.head repository = some baseCommit) :
    projectWorkOrders tick repository db =
      (project ⟨repository, tick.issues repository,
        db.loadWorkOrders repository.id, baseCommit, tick.env.now⟩ db).db := by
  unfold projectWorkOrders
  dsimp only
  rw [if_neg (by rw [hneeds]; decide), hhead]

/-- The sweep of a repository moves the row: it is observed, its pass runs,
and an issue of the pass moves the row. -/
def TickInput.movesRow (tick : TickInput) (db : Db)
    (repository : RepositoryRow) (id : ℕ) : Bool :=
  let existingWorkOrders := db.loadWorkOrders repository.id
  tick.observes repository &&
    needsBaseCommit (tick.issues repository) existingWorkOrders &&
    (tick.head repository).isSome &&
    (tick.issues repository).any (moves existingWorkOrders id)

/-- **The status a row has after its repository was observed**, or after
another was. -/
theorem status_observeOne (tick : TickInput) (repository : RepositoryRow)
    (hfind : db.workOrders.find id = some row) :
    ∃ row', (observeOne tick db repository).workOrders.find id = some row' ∧
      row'.repositoryId = row.repositoryId ∧
      row'.status =
        if tick.movesRow db repository id then flipHold row.status
        else row.status := by
  unfold observeOne TickInput.movesRow
  cases tick.observes repository with
  | false => exact ⟨row, hfind, rfl, by simp⟩
  | true =>
    show ∃ row', (projectWorkOrders tick repository db).workOrders.find id =
      some row' ∧ _
    cases hneeds : needsBaseCommit (tick.issues repository)
        (db.loadWorkOrders repository.id) with
    | false =>
      rw [projectWorkOrders_eq_self (Or.inl hneeds)]
      exact ⟨row, hfind, rfl, by simp [hneeds]⟩
    | true =>
      cases hhead : tick.head repository with
      | none =>
        rw [projectWorkOrders_eq_self (Or.inr hhead)]
        exact ⟨row, hfind, rfl, by simp⟩
      | some baseCommit =>
        rw [projectWorkOrders_eq_project hneeds hhead]
        have hrun := status_run ⟨repository, tick.issues repository,
          db.loadWorkOrders repository.id, baseCommit, tick.env.now⟩
          (snapshot_loadWorkOrders hfind repository.id)
          (tick.issues repository) ⟨db, .none, []⟩ false row hfind rfl rfl
        simpa [project, hneeds] using hrun

/-- A hold of another repository's row leaves the rows loaded for this one. -/
theorem loadWorkOrders_updateWorkOrder (shouldHold : Bool) (now : Instant)
    (h : ∀ row ∈ db.workOrders.rows, row.id = id →
      row.repositoryId ≠ repositoryId) :
    (db.updateWorkOrder id (holdUpdate shouldHold now)
      (holdUpdate_id shouldHold now)).loadWorkOrders repositoryId =
        db.loadWorkOrders repositoryId := by
  show ((db.workOrders.rows.map fun row =>
    if row.id == id then holdUpdate shouldHold now row else row).filter
      fun row => row.repositoryId == repositoryId).map
        WorkOrderRow.toExisting = _
  have hkept : (fun row : WorkOrderRow => row.repositoryId == repositoryId) ∘
      (fun row => if row.id == id then holdUpdate shouldHold now row
        else row) = fun row => row.repositoryId == repositoryId := by
    funext row
    by_cases hid : row.id = id <;> simp [hid, holdUpdate_repositoryId]
  rw [List.filter_map, hkept, List.map_map]
  refine List.map_congr_left fun row hrow => ?_
  obtain ⟨hmem, hrepository⟩ := List.mem_filter.mp hrow
  have hne : row.id ≠ id := fun hid =>
    h row hmem hid (by simpa using hrepository)
  simp [hne]

/-- A hold changes neither the key nor the repository of a row. -/
theorem mem_holdUpdate {shouldHold : Bool} {now : Instant}
    (h : row ∈ (db.updateWorkOrder id (holdUpdate shouldHold now)
      (holdUpdate_id shouldHold now)).workOrders.rows) :
    ∃ old ∈ db.workOrders.rows, row.id = old.id ∧
      row.repositoryId = old.repositoryId := by
  obtain ⟨old, hold, rfl⟩ :=
    (Table.mem_modify (holdUpdate_id shouldHold now)).mp h
  refine ⟨old, hold, ?_⟩
  split_ifs
  · exact ⟨holdUpdate_id shouldHold now old,
      holdUpdate_repositoryId shouldHold now old⟩
  · exact ⟨rfl, rfl⟩

/-- A new row of another repository does too. -/
theorem loadWorkOrders_insertWorkOrder {other : ℕ}
    (hne : other ≠ repositoryId) (workOrder : GeneratedWorkOrder)
    (held : Bool) (now : Instant) :
    (insertWorkOrder db other workOrder held now).loadWorkOrders
        repositoryId = db.loadWorkOrders repositoryId := by
  simp [Db.loadWorkOrders, insertWorkOrder, Table.insert, createData, hne]

/-- A pass over another repository: its known work orders are not this
repository's, and the rows loaded for this one are what they were. -/
structure Elsewhere (input : ProjectionInput) (repositoryId : ℕ)
    (loaded : List ExistingWorkOrder) (pass : ProjectionPass) : Prop where
  foreign : ∀ existing ∈ input.existingWorkOrders,
    ∀ row ∈ pass.db.workOrders.rows, row.id = existing.id →
      row.repositoryId ≠ repositoryId
  loaded : pass.db.loadWorkOrders repositoryId = loaded

theorem projectNext_elsewhere {input : ProjectionInput}
    (hne : input.repository.id ≠ repositoryId)
    {loaded : List ExistingWorkOrder} (pass : ProjectionPass)
    (issue : NormalizedIssue) (h : Elsewhere input repositoryId loaded pass) :
    Elsewhere input repositoryId loaded (projectNext input pass issue) := by
  obtain ⟨hforeign, hloaded⟩ := h
  rcases projectNext_db input pass issue with ⟨existing, hknown, hdb⟩ |
    ⟨-, hsame | ⟨workOrder, held, hstored⟩⟩
  · have hmem := (knownWorkOrder_eq_some hknown).1
    have hcases := reconcileHold_db input.now existing issue pass
    split at hdb
    · rcases hcases with hkept | hheld
      · rw [hkept] at hdb
        exact ⟨hdb ▸ hforeign, hdb ▸ hloaded⟩
      · rw [hheld] at hdb
        refine ⟨?_, ?_⟩
        · rw [hdb]
          intro other hother row hrow hid
          obtain ⟨old, hold, hsame, hrepository⟩ := mem_holdUpdate hrow
          rw [hrepository]
          exact hforeign other hother old hold (hsame.symm.trans hid)
        · rw [hdb]
          exact (loadWorkOrders_updateWorkOrder _ _
            (hforeign existing hmem)).trans hloaded
    · exact ⟨hdb ▸ hforeign, hdb ▸ hloaded⟩
  · exact ⟨hsame ▸ hforeign, hsame ▸ hloaded⟩
  · refine ⟨?_, ?_⟩
    · rw [hstored]
      intro other hother row hrow hid
      rcases mem_insertWorkOrder.mp hrow with hold | rfl
      · exact hforeign other hother row hold hid
      · exact hne
    · rw [hstored, loadWorkOrders_insertWorkOrder hne, hloaded]

/-- Observing one repository leaves the rows loaded for another. -/
theorem loadWorkOrders_observeOne (hne : repository.id ≠ repositoryId) :
    (observeOne tick db repository).loadWorkOrders repositoryId =
      db.loadWorkOrders repositoryId := by
  unfold observeOne
  split
  · show (projectWorkOrders tick repository db).loadWorkOrders repositoryId = _
    cases hneeds : needsBaseCommit (tick.issues repository)
        (db.loadWorkOrders repository.id) with
    | false => rw [projectWorkOrders_eq_self (Or.inl hneeds)]
    | true =>
      cases hhead : tick.head repository with
      | none => rw [projectWorkOrders_eq_self (Or.inr hhead)]
      | some baseCommit =>
        rw [projectWorkOrders_eq_project hneeds hhead]
        refine (Machine.run_preserves (projectNext_elsewhere hne)
          (tick.issues repository) ⟨?_, rfl⟩).loaded
        intro existing hexisting row hrow hid
        obtain ⟨own, hown, hrepository, rfl⟩ :=
          mem_loadWorkOrders.mp hexisting
        rw [Table.eq_of_key hrow hown hid]
        exact fun h => hne (hrepository.symm.trans h)
  · rfl

/-- A row of a repository with a status, and the rows loaded for that
repository. -/
structure RowAt (id repositoryId : ℕ) (status : WorkOrderStatus)
    (loaded : List ExistingWorkOrder) (db : Db) : Prop where
  row : ∃ row, db.workOrders.find id = some row ∧
    row.repositoryId = repositoryId ∧ row.status = status
  loaded : db.loadWorkOrders repositoryId = loaded

/-- Observing another repository leaves them as they are. -/
theorem observeOne_rowAt {status : WorkOrderStatus}
    {loaded : List ExistingWorkOrder} (hne : repository.id ≠ repositoryId)
    (h : RowAt id repositoryId status loaded db) :
    RowAt id repositoryId status loaded (observeOne tick db repository) := by
  obtain ⟨⟨row, hfind, hrepository, hstatus⟩, hloaded⟩ := h
  obtain ⟨row', hfind', hrepository', hstatus'⟩ :=
    status_observeOne tick repository hfind
  have hother : row.repositoryId ≠ repository.id :=
    fun heq => hne (heq.symm.trans hrepository)
  have hstays : tick.movesRow db repository id = false := by
    have hnone : (tick.issues repository).any
        (moves (db.loadWorkOrders repository.id) id) = false := by
      rw [List.any_eq_false]
      exact fun issue _ => not_moves_of_ne hfind hother issue
    simp [TickInput.movesRow, hnone]
  rw [hstays, if_neg Bool.false_ne_true] at hstatus'
  exact ⟨⟨row', hfind', hrepository'.trans hrepository,
    hstatus'.trans hstatus⟩, (loadWorkOrders_observeOne hne).trans hloaded⟩

/-- The repositories of a sweep have distinct keys. -/
theorem nodup_sweeps (tick : TickInput) (db : Db) :
    ((tick.sweeps db).map RepositoryRow.id).Nodup := by
  unfold TickInput.sweeps
  split
  · have hperm : db.listObserved.Perm
        (db.repositories.rows.filter (·.observeEnabled)) :=
      Preference.rank_perm_self
    exact (hperm.map RepositoryRow.id).nodup_iff.mpr
      (db.repositories.nodup.sublist (List.filter_sublist.map _))
  · exact List.nodup_nil

/-- **The status a row has after the sweep.** Only its own repository's turn
can change it, and that turn finds the work orders the tick began with. -/
theorem status_observeAll (hswept : repository ∈ tick.sweeps db)
    (hfind : db.workOrders.find id = some row)
    (hrow : row.repositoryId = repository.id) :
    ∃ row', (observeAll tick db).workOrders.find id = some row' ∧
      row'.status =
        if tick.movesRow db repository id then flipHold row.status
        else row.status := by
  have hnodup := nodup_sweeps tick db
  unfold observeAll
  obtain ⟨before, after, hsplit⟩ := List.append_of_mem hswept
  rw [hsplit] at hnodup ⊢
  rw [List.map_append, List.map_cons, List.nodup_append] at hnodup
  obtain ⟨-, hafter, hbefore⟩ := hnodup
  rw [Machine.run_append, Machine.run_cons]
  have hfirst : RowAt id repository.id row.status
      (db.loadWorkOrders repository.id)
      (Machine.run (observeOne tick) db before) := by
    refine Machine.run_preserves_of_mem (fun other hother db' h => ?_)
      ⟨⟨row, hfind, hrow, rfl⟩, rfl⟩
    exact observeOne_rowAt (hbefore _ (List.mem_map_of_mem hother) _
      List.mem_cons_self) h
  obtain ⟨⟨row', hfind', hrow', hstatus'⟩, hloaded⟩ := hfirst
  obtain ⟨own, hown, hrepository, hstatus⟩ :=
    status_observeOne tick repository hfind'
  have hsame : tick.movesRow (Machine.run (observeOne tick) db before)
      repository id = tick.movesRow db repository id := by
    simp only [TickInput.movesRow, hloaded]
  rw [hsame, hstatus'] at hstatus
  have hlater : ∀ other ∈ after, other.id ≠ repository.id := by
    intro other hother heq
    refine (List.nodup_cons.mp hafter).1 ?_
    rw [← heq]
    exact List.mem_map_of_mem hother
  have hturn : RowAt id repository.id
      (if tick.movesRow db repository id then flipHold row.status
        else row.status)
      ((observeOne tick (Machine.run (observeOne tick) db before)
        repository).loadWorkOrders repository.id)
      (observeOne tick (Machine.run (observeOne tick) db before)
        repository) :=
    ⟨⟨own, hown, hrepository.trans hrow', hstatus⟩, rfl⟩
  obtain ⟨last, hlast, -, hstatus⟩ :=
    (Machine.run_preserves_of_mem (fun other hother db' h =>
      observeOne_rowAt (hlater other hother) h) hturn).row
  exact ⟨last, hlast, hstatus⟩

end Sweep

/-! ## The tick -/

section Tick

variable {tick : TickInput} {world : World} {repository : RepositoryRow}
  {row : WorkOrderRow} {issue : NormalizedIssue}

/-- A phase of a resume leaves the work orders as they are. -/
theorem workOrders_resumeNext (env : ExecutorEnv) (answers : Answers)
    (runId : ℕ) (state : ResumePhase × World) :
    (resumeNext env answers runId state).2.db.workOrders =
      state.2.db.workOrders := by
  obtain ⟨phase, world⟩ := state
  unfold resumeNext
  cases phase with
  | gate =>
    simp only [resumeStep]
    split <;> rfl
  | admission parked =>
    simp only [resumeStep]
    split
    · rfl
    · split <;> rfl
  | claim parked =>
    simp only [resumeStep]
    split <;> rfl
  | submit parked =>
    simp only [resumeStep]
    split <;> rfl
  | closeAttempts parked handle =>
    simp only [resumeStep]
    split <;> rfl
  | openAttempt parked handle =>
    simp only [resumeStep]
    split <;> rfl
  | track parked =>
    simp only [resumeStep]
    split <;> rfl
  | recover parked failure => cases failure <;> rfl
  | done result => rfl

/-- A resume leaves the work orders as they are. -/
theorem workOrders_resumeParkedRun (env : ExecutorEnv) (answers : Answers)
    (runId : ℕ) (world : World) :
    (resumeParkedRun env answers runId world).2.db.workOrders =
      world.db.workOrders := by
  unfold resumeParkedRun
  exact Function.Iterate.rec
    (fun state : ResumePhase × World =>
      state.2.db.workOrders = world.db.workOrders)
    rfl (fun _ h => (workOrders_resumeNext env answers runId _).trans h) 8

/-- The drain finds the work orders the sweep left. -/
theorem workOrders_beforeDrain (tick : TickInput) (world : World) :
    (beforeDrain tick world).db.workOrders =
      (observeAll tick world.db).workOrders := by
  have hkept : ∀ runId ∈ tick.resumes, ∀ world' : World,
      world'.db.workOrders = (observeAll tick world.db).workOrders →
      (resumeParkedRun tick.env (tick.resumeAnswers runId) runId
        world').2.db.workOrders = (observeAll tick world.db).workOrders :=
    fun runId _ world' h =>
      (workOrders_resumeParkedRun tick.env _ runId world').trans h
  exact Machine.run_preserves_of_mem hkept rfl

/-- A tick that runs observes the repository of a row, and an open issue of
the row. -/
structure Observed (tick : TickInput) (world : World)
    (repository : RepositoryRow) (row : WorkOrderRow)
    (issue : NormalizedIssue) : Prop where
  enabled : tick.enabled = true
  swept : repository ∈ tick.sweeps world.db
  observed : tick.observes repository = true
  stored : row ∈ world.db.workOrders.rows
  owned : row.repositoryId = repository.id
  listed : issue ∈ tick.issues repository
  number : issue.number = row.issueNumber
  isOpen : issue.state = .isOpen

/-- The drain of a tick finds the row under its key with a status. -/
def Drains (tick : TickInput) (world : World) (id : ℕ)
    (status : WorkOrderStatus) : Prop :=
  ∃ row, (beforeDrain tick world).db.workOrders.find id = some row ∧
    row.status = status

/-- **The brake works**: the drain of a tick finds held, and does not hand to
a runner, each queued work order whose open issue the tick saw held; and finds
queued each held one whose open issue it saw released. -/
def BrakeWorks (world : World) : LoopInput → Prop
  | .elsewhere _ => True
  | .tick tick =>
    ∀ repository row issue, Observed tick world repository row issue →
      (row.status = .queued → issue.carries .hold = true →
        Drains tick world row.id .held ∧
          (runOnce tick world).submissionsFor row.id =
            (beforeDrain tick world).submissionsFor row.id) ∧
      (row.status = .held → issue.carries .hold = false →
        Drains tick world row.id .queued)

/-- The label of an issue asks for the other of the two statuses a hold moves
between. -/
def Disagrees (status : WorkOrderStatus) (issue : NormalizedIssue) : Prop :=
  (status = .queued ∧ issue.carries .hold = true) ∨
    (status = .held ∧ issue.carries .hold = false)

/-- **The holds are reached**: where an open issue of a row disagrees with its
status, some open ready issue of the repository has no work order yet, the
repository has a head commit, and the row is the last loaded for its issue. -/
def ReachesHolds (world : World) : LoopInput → Prop
  | .elsewhere _ => True
  | .tick tick =>
    ∀ repository row issue, Observed tick world repository row issue →
      Disagrees row.status issue →
      needsBaseCommit (tick.issues repository)
          (world.db.loadWorkOrders repository.id) = true ∧
        (tick.head repository).isSome = true ∧
        knownWorkOrder (world.db.loadWorkOrders repository.id)
          row.issueNumber = some row.toExisting

/-- **The status the drain finds a row with.** -/
theorem drains_iff (hobserved : Observed tick world repository row issue)
    (status : WorkOrderStatus) :
    Drains tick world row.id status ↔
      (if tick.movesRow world.db repository row.id then flipHold row.status
        else row.status) = status := by
  have hstored : world.db.workOrders.find row.id = some row :=
    Table.find_key hobserved.stored
  obtain ⟨row', hfind, hstatus⟩ :=
    status_observeAll hobserved.swept hstored hobserved.owned
  unfold Drains
  rw [workOrders_beforeDrain, ← hstatus, hfind]
  constructor
  · rintro ⟨_, ⟨⟩, h⟩
    exact h
  · exact fun h => ⟨row', rfl, h⟩

/-- A status that a hold moves is not the one it is moved to. -/
theorem drains_flipHold_iff
    (hobserved : Observed tick world repository row issue)
    (hdisagrees : Disagrees row.status issue) :
    Drains tick world row.id (flipHold row.status) ↔
      tick.movesRow world.db repository row.id = true := by
  rw [drains_iff hobserved]
  have hne : row.status ≠ flipHold row.status := by
    rcases hdisagrees with ⟨hstatus, -⟩ | ⟨hstatus, -⟩ <;>
      · rw [hstatus]
        decide
  by_cases hmoves : tick.movesRow world.db repository row.id = true
  · simp [hmoves]
  · simp [hmoves, hne]

/-- **Exactly when the sweep moves a row that disagrees with its issue.** -/
theorem movesRow_iff (hobserved : Observed tick world repository row issue)
    (hdisagrees : Disagrees row.status issue) :
    tick.movesRow world.db repository row.id = true ↔
      needsBaseCommit (tick.issues repository)
          (world.db.loadWorkOrders repository.id) = true ∧
        (tick.head repository).isSome = true ∧
        knownWorkOrder (world.db.loadWorkOrders repository.id)
          row.issueNumber = some row.toExisting := by
  simp only [TickInput.movesRow, hobserved.observed, Bool.true_and,
    Bool.and_eq_true, and_assoc]
  refine and_congr_right fun _ => and_congr_right fun _ => ?_
  rw [List.any_eq_true]
  constructor
  · rintro ⟨mover, -, hmoves⟩
    obtain ⟨existing, hknown, hid, -⟩ := moves_iff.mp hmoves
    obtain ⟨hloaded, hnumber⟩ := knownWorkOrder_eq_some hknown
    obtain ⟨other, hother, -, rfl⟩ := mem_loadWorkOrders.mp hloaded
    have hsame : other = row := Table.eq_of_key hother hobserved.stored hid
    subst hsame
    rw [← hnumber] at hknown
    exact hknown
  · intro hknown
    refine ⟨issue, hobserved.listed, moves_iff.mpr
      ⟨row.toExisting, by rwa [hobserved.number], rfl, ?_⟩⟩
    show isHoldable row.status = true ∧ _ ≠ (row.status == .held)
    rcases hdisagrees with ⟨hstatus, hcarries⟩ | ⟨hstatus, hcarries⟩ <;>
      · rw [hstatus, hcarries]
        decide

/-- A row the drain finds held is not handed to a runner. -/
theorem submissionsFor_runOnce (henabled : tick.enabled = true) {id : ℕ}
    (hheld : Drains tick world id .held) :
    (runOnce tick world).submissionsFor id =
      (beforeDrain tick world).submissionsFor id := by
  unfold runOnce
  rw [if_pos henabled]
  refine submissionsFor_drain _ _ fun row hrow hid => ?_
  obtain ⟨held, hfind, hstatus⟩ := hheld
  obtain ⟨hmem, hkey⟩ := Table.find_eq_some.mp hfind
  rw [Table.eq_of_key hrow hmem (hid.trans hkey.symm), hstatus]
  decide

/-- The brake works in a step exactly when the step reaches the holds. -/
theorem brakeWorks_iff_reachesHolds (world : World) (step : LoopInput) :
    BrakeWorks world step ↔ ReachesHolds world step := by
  cases step with
  | elsewhere write => exact Iff.rfl
  | tick tick =>
    constructor
    · intro h repository row issue hobserved hdisagrees
      rw [← movesRow_iff hobserved hdisagrees,
        ← drains_flipHold_iff hobserved hdisagrees]
      obtain ⟨happlied, hlifted⟩ := h repository row issue hobserved
      rcases hdisagrees with ⟨hstatus, hcarries⟩ | ⟨hstatus, hcarries⟩
      · rw [hstatus]
        exact (happlied hstatus hcarries).1
      · rw [hstatus]
        exact hlifted hstatus hcarries
    · intro h repository row issue hobserved
      have hreached : Disagrees row.status issue →
          Drains tick world row.id (flipHold row.status) :=
        fun hdisagrees => (drains_flipHold_iff hobserved hdisagrees).mpr
          ((movesRow_iff hobserved hdisagrees).mpr
            (h repository row issue hobserved hdisagrees))
      refine ⟨fun hstatus hcarries => ?_, fun hstatus hcarries => ?_⟩
      · have hheld := hreached (Or.inl ⟨hstatus, hcarries⟩)
        rw [hstatus] at hheld
        exact ⟨hheld, submissionsFor_runOnce hobserved.enabled hheld⟩
      · have hqueued := hreached (Or.inr ⟨hstatus, hcarries⟩)
        rwa [hstatus] at hqueued

end Tick

/-! ## Every run of the loop -/

/-- **Exactly when the brake reaches the queue.** From any state, along any
sequence of ticks, whatever humans and other writers do in between: the brake
works in every tick if and only if every tick reaches the holds it observes to
disagree. -/
theorem brake_reaches_queue_iff (world : World) (steps : List LoopInput) :
    Machine.Always loopStep BrakeWorks world steps ↔
      Machine.Always loopStep ReachesHolds world steps :=
  Machine.always_congr brakeWorks_iff_reachesHolds

/-- A tick that finds the issue of the one stored work order ready and held,
and nothing else to project. -/
def holdTick : TickInput where
  env := localEnv
  enabled := true
  leaseAcquired := true
  canSpend := true
  canObserve := fun _ => true
  issues := fun _ => [{ exportIssue with inputLabels := [.ready, .hold] }]
  head := fun _ => some appHead
  answers := fun _ => allOk
  resumes := []
  resumeAnswers := fun _ => allOk

/-- **A held work order is handed to a runner**: with every ready issue
projected, the sweep does not look at the labels of the rows there are. -/
theorem hold_dispatched :
    ¬ ∀ (world : World) (steps : List LoopInput),
      Machine.Always loopStep BrakeWorks world steps := by
  intro h
  have hbrake : BrakeWorks queuedWorld (.tick holdTick) :=
    (h queuedWorld [.tick holdTick]).1
  have hobserved : Observed holdTick queuedWorld acmeApp
      (createData acmeApp.id exportOrder false 0 0)
      { exportIssue with inputLabels := [.ready, .hold] } :=
    { enabled := rfl
      swept := by decide
      observed := by decide
      stored := List.mem_singleton_self _
      owned := rfl
      listed := List.mem_singleton_self _
      number := rfl
      isOpen := rfl }
  have hkept := ((hbrake _ _ _ hobserved).1 rfl (by decide)).2
  exact absurd hkept (by decide +kernel)

end Opifex
