import Opifex.WorkOrderRoundTrip

/-!
# When two issues share a name

The identity leaves out the owner, slugs the repository and cuts the commit to
seven characters; the branch leaves the repository out as well. Two issues of
different repositories can therefore share one of the two, and both are unique
columns. `persist` answers `false` then, which the pass counts as a work order
that is already stored.

What a pass can do to the names in the table is said once
(`rowNames_projectNext`): it appends the name of one eligible issue that had
no work order, or leaves them alone. From there the two halves of
`landed_iff_unclaimed` are one induction over the issues each.
-/

namespace Opifex

/-! ## Names -/

/-- What a row is known by: its unique names, and the issue it is for. Two orders
collide where a unique name is the same and the issue is not. -/
structure RowName where
  identity : String
  branch : String
  repositoryId : ℕ
  issueNumber : ℕ
deriving DecidableEq

/-- What a row is named by, and which issue it is of. -/
def WorkOrderRow.rowName (row : WorkOrderRow) : RowName :=
  ⟨row.identity, row.branch, row.repositoryId, row.issueNumber⟩

/-- The names of all rows. -/
def Db.rowNames (db : Db) : List RowName :=
  db.workOrders.rows.map WorkOrderRow.rowName

/-- The name of the row a work order of a repository is written to. -/
def GeneratedWorkOrder.rowName (workOrder : GeneratedWorkOrder)
    (repositoryId : ℕ) : RowName :=
  ⟨workOrder.identity, workOrder.branch, repositoryId, workOrder.issueNumber⟩

/-- No row carries the identity or the branch of a work order. -/
def Unclaimed (db : Db) (workOrder : GeneratedWorkOrder) : Prop :=
  ∀ row ∈ db.workOrders.rows,
    row.identity ≠ workOrder.identity ∧ row.branch ≠ workOrder.branch

/-- The repository has a row for the issue. -/
def HasRow (db : Db) (repositoryId issueNumber : ℕ) : Prop :=
  ∃ row ∈ db.workOrders.rows,
    row.repositoryId = repositoryId ∧ row.issueNumber = issueNumber

instance (db : Db) (workOrder : GeneratedWorkOrder) :
    Decidable (Unclaimed db workOrder) :=
  inferInstanceAs (Decidable (∀ row ∈ db.workOrders.rows, _ ∧ _))

instance (db : Db) (repositoryId issueNumber : ℕ) :
    Decidable (HasRow db repositoryId issueNumber) :=
  inferInstanceAs (Decidable (∃ row ∈ db.workOrders.rows, _ ∧ _))

theorem unclaimed_iff {db : Db} {workOrder : GeneratedWorkOrder} :
    Unclaimed db workOrder ↔
      ∀ name ∈ db.rowNames, name.identity ≠ workOrder.identity ∧
        name.branch ≠ workOrder.branch := by
  simp [Unclaimed, Db.rowNames, WorkOrderRow.rowName]

theorem hasRow_iff {db : Db} {repositoryId issueNumber : ℕ} :
    HasRow db repositoryId issueNumber ↔
      ∃ name ∈ db.rowNames, name.repositoryId = repositoryId ∧
        name.issueNumber = issueNumber := by
  simp [HasRow, Db.rowNames, WorkOrderRow.rowName]

/-- Under one repository name, base commit and attempt, an identity names one
issue. -/
theorem identityOf_inj {repository baseCommit : String}
    {attempt number other : ℕ} :
    identityOf ⟨repository, number, baseCommit, attempt⟩ =
        identityOf ⟨repository, other, baseCommit, attempt⟩ ↔
      number = other := by
  simp only [identityOf, String.append_left_inj, String.append_right_inj, Text.toString_inj]

/-- And so does a branch. -/
theorem branchOf_inj {repository baseCommit : String}
    {attempt number other : ℕ} :
    branchOf ⟨repository, number, baseCommit, attempt⟩ =
        branchOf ⟨repository, other, baseCommit, attempt⟩ ↔
      number = other := by
  simp only [branchOf, String.append_left_inj, String.append_right_inj, Text.toString_inj]

/-! ## What a pass does to the names -/

/-- Reconciling a hold moves a status, never a name. -/
theorem rowNames_reconcileHold (now : Instant) (existing : ExistingWorkOrder)
    (issue : NormalizedIssue) (pass : ProjectionPass) :
    (reconcileHold now existing issue pass).db.rowNames =
      pass.db.rowNames := by
  unfold reconcileHold
  dsimp only
  split
  · rfl
  · show (pass.db.workOrders.rows.map _).map WorkOrderRow.rowName = _
    rw [List.map_map]
    refine List.map_congr_left fun row _ => ?_
    show WorkOrderRow.rowName (if _ then _ else row) = row.rowName
    split_ifs
    · cases issue.carries .hold <;> rfl
    · rfl

theorem log_reconcileHold (now : Instant) (existing : ExistingWorkOrder)
    (issue : NormalizedIssue) (pass : ProjectionPass) :
    (reconcileHold now existing issue pass).log = pass.log := by
  unfold reconcileHold
  dsimp only
  split <;> rfl

/-- `persist` refuses a work order one of whose names is taken. -/
theorem persist_claimed {db : Db} {repositoryId : ℕ}
    {workOrder : GeneratedWorkOrder} {held : Bool} {now : Instant}
    (h : ¬ Unclaimed db workOrder) :
    persist db repositoryId workOrder held now = (db, false) := by
  unfold persist
  split_ifs with hidentity hunique
  · rfl
  · rfl
  · refine absurd (fun row hrow => ⟨fun heq => ?_, fun heq => ?_⟩) h
    · exact hidentity (List.any_eq_true.mpr ⟨row, hrow, by simp [heq]⟩)
    · refine hunique (List.any_eq_true.mpr ⟨row, hrow, ?_⟩)
      simp [WorkOrderRow.violatesUnique, createData, heq]

/-- `persist` stores a work order whose names are free and whose issue has no
row. -/
theorem persist_unclaimed {db : Db} {repositoryId : ℕ}
    {workOrder : GeneratedWorkOrder} {held : Bool} {now : Instant}
    (h : Unclaimed db workOrder)
    (hnew : ¬ HasRow db repositoryId workOrder.issueNumber) :
    persist db repositoryId workOrder held now =
      (insertWorkOrder db repositoryId workOrder held now, true) := by
  unfold persist
  rw [if_neg, if_neg]
  · rw [List.any_eq_true]
    rintro ⟨row, hrow, hclash⟩
    simp only [WorkOrderRow.violatesUnique, createData, Bool.or_eq_true,
      Bool.and_eq_true, beq_iff_eq] at hclash
    rcases hclash with (heq | heq) | ⟨⟨⟨heq, hissue⟩, -⟩, -⟩
    · exact (h row hrow).1 heq.symm
    · exact (h row hrow).2 heq.symm
    · exact hnew ⟨row, hrow, heq.symm, hissue.symm⟩
  · rw [List.any_eq_true]
    rintro ⟨row, hrow, hclash⟩
    exact (h row hrow).1 (by simpa using hclash)

/-- `persist` leaves the table alone, or stores a work order whose names were
free. -/
theorem persist_cases (db : Db) (repositoryId : ℕ)
    (workOrder : GeneratedWorkOrder) (held : Bool) (now : Instant) :
    persist db repositoryId workOrder held now = (db, false) ∨
      Unclaimed db workOrder ∧
        persist db repositoryId workOrder held now =
          (insertWorkOrder db repositoryId workOrder held now, true) := by
  by_cases h : Unclaimed db workOrder
  · exact (persist_eq_or db repositoryId workOrder held now).imp_right
      fun hstored => ⟨h, hstored⟩
  · exact Or.inl (persist_claimed h)

theorem rowNames_insertWorkOrder (db : Db) (repositoryId : ℕ)
    (workOrder : GeneratedWorkOrder) (held : Bool) (now : Instant) :
    (insertWorkOrder db repositoryId workOrder held now).rowNames =
      db.rowNames ++ [workOrder.rowName repositoryId] := by
  simp [Db.rowNames, insertWorkOrder, Table.insert, createData,
    WorkOrderRow.rowName, GeneratedWorkOrder.rowName]

/-- **What one issue of a pass can do to the names and the log.** It leaves
them alone; it appends the name of an eligible issue whose names were free;
or it logs that projecting the issue threw. -/
theorem projectNext_cases (input : ProjectionInput) (pass : ProjectionPass)
    (issue : NormalizedIssue) :
    ((projectNext input pass issue).db.rowNames = pass.db.rowNames ∧
        (projectNext input pass issue).log = pass.log) ∨
      (∃ workOrder held,
        projectIssue (input.issueInput issue) =
            .ok (.eligible workOrder held) ∧
          Unclaimed pass.db workOrder ∧
          (projectNext input pass issue).db.rowNames =
            pass.db.rowNames ++ [workOrder.rowName input.repository.id] ∧
          (projectNext input pass issue).log = pass.log) ∨
      ∃ message,
        projectIssue (input.issueInput issue) = .error message ∧
          (projectNext input pass issue).db.rowNames = pass.db.rowNames ∧
          (projectNext input pass issue).log =
            pass.log ++
              [projectionFailure input.repository issue.number message] := by
  cases hknown : knownWorkOrder input.existingWorkOrders issue.number with
  | some existing =>
    rw [projectNext_of_known hknown]
    refine Or.inl ?_
    split
    · exact ⟨rowNames_reconcileHold input.now existing issue pass,
        log_reconcileHold input.now existing issue pass⟩
    · exact ⟨rfl, rfl⟩
  | none =>
    rcases projectNext_of_unknown hknown pass with ⟨hdb, hlog⟩ |
      ⟨workOrder, held, heligible, hnext⟩ | ⟨message, herror, hnext⟩
    · exact Or.inl ⟨by rw [hdb], hlog⟩
    · rw [hnext, storeProjected]
      rcases persist_cases pass.db input.repository.id workOrder held
          input.now with hkept | ⟨hfree, hstored⟩
      · rw [hkept]
        exact Or.inl ⟨rfl, rfl⟩
      · rw [hstored]
        exact Or.inr (Or.inl ⟨workOrder, held, heligible, hfree,
          rowNames_insertWorkOrder pass.db input.repository.id workOrder held
            input.now, rfl⟩)
    · rw [hnext]
      exact Or.inr (Or.inr ⟨message, herror, rfl, rfl⟩)

/-! ## The two halves -/

section Pass

/-- The pass has written the issue's row. -/
def Stored (input : ProjectionInput) (issue : NormalizedIssue)
    (pass : ProjectionPass) : Prop :=
  HasRow pass.db input.repository.id issue.number

/-- The pass has written the issue's row, or still can. -/
def Storable (input : ProjectionInput) (issue : NormalizedIssue)
    (workOrder : GeneratedWorkOrder) (pass : ProjectionPass) : Prop :=
  Stored input issue pass ∨ Unclaimed pass.db workOrder

/-- One of the issue's names is taken, and nothing tells of the issue. -/
def Dropped (input : ProjectionInput) (issue : NormalizedIssue)
    (workOrder : GeneratedWorkOrder) (pass : ProjectionPass) : Prop :=
  ¬ Unclaimed pass.db workOrder ∧
    ¬ HasRow pass.db input.repository.id issue.number ∧
    ∀ failure ∈ pass.log, failure.issueNumber ≠ issue.number

variable {input : ProjectionInput} {issue : NormalizedIssue}
  {workOrder : GeneratedWorkOrder} {held : Bool}

/-- What another eligible issue of the pass shares with this one: its names
exactly when its number. -/
theorem names_eq_iff
    (h : projectIssue (input.issueInput issue) =
      .ok (.eligible workOrder held))
    {other : NormalizedIssue} {otherOrder : GeneratedWorkOrder}
    {otherHeld : Bool}
    (hother : projectIssue (input.issueInput other) =
      .ok (.eligible otherOrder otherHeld)) :
    (otherOrder.identity = workOrder.identity ↔
        other.number = issue.number) ∧
      (otherOrder.branch = workOrder.branch ↔
        other.number = issue.number) ∧
      otherOrder.issueNumber = other.number := by
  obtain ⟨-, hidentity, hbranch, -⟩ := projectIssue_names h
  obtain ⟨-, hidentity', hbranch', hnumber'⟩ := projectIssue_names hother
  refine ⟨?_, ?_, hnumber'⟩
  · rw [hidentity, hidentity']
    exact identityOf_inj
  · rw [hbranch, hbranch']
    exact branchOf_inj

/-- A pass that finds a name taken keeps it taken, and neither writes a row
for the issue nor logs a failure for it. -/
theorem projectNext_dropped
    (h : projectIssue (input.issueInput issue) =
      .ok (.eligible workOrder held))
    (pass : ProjectionPass) (other : NormalizedIssue)
    (hdropped : Dropped input issue workOrder pass) :
    Dropped input issue workOrder (projectNext input pass other) := by
  obtain ⟨hclaimed, hrow, hlog⟩ := hdropped
  rw [unclaimed_iff] at hclaimed
  rw [hasRow_iff] at hrow
  rw [Dropped, unclaimed_iff, hasRow_iff]
  rcases projectNext_cases input pass other with ⟨hnames, hsame⟩ |
    ⟨otherOrder, otherHeld, hother, hfree, hnames, hsame⟩ |
    ⟨message, herror, hnames, hgrown⟩
  · rw [hnames, hsame]
    exact ⟨hclaimed, hrow, hlog⟩
  · obtain ⟨hidentity, hbranch, hnumber⟩ := names_eq_iff h hother
    -- An entry with this issue's number would have found the name taken.
    have hne : other.number ≠ issue.number := by
      intro heq
      rw [unclaimed_iff, hidentity.mpr heq, hbranch.mpr heq] at hfree
      exact hclaimed hfree
    rw [hnames, hsame]
    refine ⟨fun hall => hclaimed fun name hname =>
      hall name (List.mem_append_left _ hname), ?_, hlog⟩
    rintro ⟨name, hname, hid, hissue⟩
    rcases List.mem_append.mp hname with hold | hnew
    · exact hrow ⟨name, hold, hid, hissue⟩
    · rw [List.mem_singleton.mp hnew] at hissue
      exact hne (hnumber.symm.trans hissue)
  · have hne : other.number ≠ issue.number := by
      intro heq
      have hvalid := (projectIssue_names h).1
      have hinvalid := projectIssue_error herror
      simp only [ProjectIssueInput.coordinates, ProjectionInput.issueInput,
        heq] at hvalid hinvalid
      rw [hvalid] at hinvalid
      cases hinvalid
    rw [hnames, hgrown]
    refine ⟨hclaimed, hrow, fun failure hfailure => ?_⟩
    rcases List.mem_append.mp hfailure with hold | hnew
    · exact hlog failure hold
    · rw [List.mem_singleton.mp hnew]
      exact hne

/-- A row a pass has written stays. -/
theorem projectNext_stored (pass : ProjectionPass) (other : NormalizedIssue)
    (h : Stored input issue pass) :
    Stored input issue (projectNext input pass other) := by
  rw [Stored, hasRow_iff] at h ⊢
  obtain ⟨name, hname, hissue⟩ := h
  refine ⟨name, ?_, hissue⟩
  rcases projectNext_cases input pass other with ⟨hnames, -⟩ |
    ⟨_, _, _, _, hnames, -⟩ | ⟨_, _, hnames, -⟩
  · exact hnames ▸ hname
  · exact hnames ▸ List.mem_append_left _ hname
  · exact hnames ▸ hname

/-- As long as a pass has not written the issue's row, it leaves its names
free. -/
theorem projectNext_storable
    (h : projectIssue (input.issueInput issue) =
      .ok (.eligible workOrder held))
    (pass : ProjectionPass) (other : NormalizedIssue)
    (hopen : Storable input issue workOrder pass) :
    Storable input issue workOrder (projectNext input pass other) := by
  rcases hopen with hrow | hfree
  · exact Or.inl (projectNext_stored pass other hrow)
  · rw [unclaimed_iff] at hfree
    rw [Storable, Stored, unclaimed_iff, hasRow_iff]
    rcases projectNext_cases input pass other with ⟨hnames, -⟩ |
      ⟨otherOrder, otherHeld, hother, -, hnames, -⟩ | ⟨_, _, hnames, -⟩
    · exact Or.inr (hnames ▸ hfree)
    · obtain ⟨hidentity, hbranch, hnumber⟩ := names_eq_iff h hother
      rw [hnames]
      by_cases heq : other.number = issue.number
      · exact Or.inl ⟨otherOrder.rowName input.repository.id,
          List.mem_append_right _ (List.mem_singleton_self _), rfl,
          hnumber.trans heq⟩
      · refine Or.inr fun name hname => ?_
        rcases List.mem_append.mp hname with hold | hnew
        · exact hfree name hold
        · rw [List.mem_singleton.mp hnew]
          exact ⟨fun hid => heq (hidentity.mp hid),
            fun hbr => heq (hbranch.mp hbr)⟩
    · exact Or.inr (hnames ▸ hfree)

/-- An eligible issue without a work order gets its row when its turn comes,
unless one of its names is taken. -/
theorem projectNext_stores
    (h : projectIssue (input.issueInput issue) =
      .ok (.eligible workOrder held))
    (hknown : knownWorkOrder input.existingWorkOrders issue.number = none)
    {pass : ProjectionPass} (hopen : Storable input issue workOrder pass) :
    Stored input issue (projectNext input pass issue) := by
  by_cases hrow : HasRow pass.db input.repository.id issue.number
  · exact projectNext_stored pass issue hrow
  · have hfree : Unclaimed pass.db workOrder := hopen.resolve_left hrow
    have hnumber : workOrder.issueNumber = issue.number :=
      (projectIssue_names h).2.2.2
    have hnext : projectNext input pass issue =
        storeProjected input workOrder held pass := by
      simp [projectNext, projectOne, hknown, h, bind, Except.bind, pure,
        Except.pure]
    rw [hnext, storeProjected, persist_unclaimed hfree (hnumber ▸ hrow)]
    exact ⟨_, mem_insertWorkOrder.mpr (Or.inr rfl), rfl, hnumber⟩

end Pass

/-- **The issue did not get lost**: the repository has a row for it, or a
failure was logged for it. -/
def Landed (pass : ProjectionPass) (repositoryId issueNumber : ℕ) : Prop :=
  HasRow pass.db repositoryId issueNumber ∨
    ∃ failure ∈ pass.log, failure.issueNumber = issueNumber

instance (pass : ProjectionPass) (repositoryId issueNumber : ℕ) :
    Decidable (Landed pass repositoryId issueNumber) :=
  inferInstanceAs (Decidable (_ ∨ _))

/-- An issue without a row of its own is not known to the pass. -/
theorem knownWorkOrder_eq_none {db : Db} {repositoryId issueNumber : ℕ}
    (h : ¬ HasRow db repositoryId issueNumber) :
    knownWorkOrder (db.loadWorkOrders repositoryId) issueNumber = none := by
  unfold knownWorkOrder Db.loadWorkOrders
  rw [List.find?_eq_none]
  intro existing hexisting hnumber
  obtain ⟨row, hrow, rfl⟩ := List.mem_map.mp (List.mem_reverse.mp hexisting)
  obtain ⟨hmem, hrepository⟩ := List.mem_filter.mp hrow
  exact h ⟨row, hmem, beq_iff_eq.mp hrepository, beq_iff_eq.mp hnumber⟩

/-- **Exactly when an eligible issue is not dropped.** Whatever the stored
work orders of all repositories and the issues of the pass: an eligible issue
that has no work order of its own gets one, or a failure logged, if and only if
no stored row carries the identity or the branch its own work order has. -/
theorem landed_iff_unclaimed (db : Db) (repository : RepositoryRow)
    (issues : List NormalizedIssue) (baseCommit : String) (now : Instant)
    {issue : NormalizedIssue} (hissue : issue ∈ issues)
    {workOrder : GeneratedWorkOrder} {held : Bool}
    (heligible : projectIssue
      ((db.projectionInput repository issues baseCommit now).issueInput
        issue) = .ok (.eligible workOrder held))
    (hnew : ¬ HasRow db repository.id issue.number) :
    Landed (project (db.projectionInput repository issues baseCommit now) db)
        repository.id issue.number ↔
      Unclaimed db workOrder := by
  generalize hinput :
    db.projectionInput repository issues baseCommit now = input at heligible ⊢
  have hid : input.repository.id = repository.id := by rw [← hinput]; rfl
  have hissues : input.issues = issues := by rw [← hinput]; rfl
  have hunknown :
      knownWorkOrder input.existingWorkOrders issue.number = none := by
    rw [← hinput]
    exact knownWorkOrder_eq_none hnew
  rw [← hid] at hnew ⊢
  rw [project, hissues]
  constructor
  · intro hlanded
    by_contra hclaimed
    have hdropped : Dropped input issue workOrder
        (Machine.run (projectNext input) ⟨db, .none, []⟩ issues) :=
      Machine.run_preserves (projectNext_dropped heligible) issues
        ⟨hclaimed, hnew, by simp⟩
    rcases hlanded with hrow | ⟨failure, hfailure, hnumber⟩
    · exact hdropped.2.1 hrow
    · exact hdropped.2.2 failure hfailure hnumber
  · intro hfree
    obtain ⟨before, after, rfl⟩ := List.append_of_mem hissue
    rw [Machine.run_append, Machine.run_cons]
    have hbefore : Storable input issue workOrder
        (Machine.run (projectNext input) ⟨db, .none, []⟩ before) :=
      Machine.run_preserves (projectNext_storable heligible) before
        (Or.inr hfree)
    have hstored := projectNext_stores heligible hunknown hbefore
    exact Or.inl (Machine.run_preserves projectNext_stored after hstored)

/-- A fork of the repository, under another owner. -/
def acmeLabsApp : RepositoryRow :=
  { acmeApp with id := 2, owner := "acme-labs" }

/-- The work order of the fork's own issue 7, made at the same commit. -/
def forkOrder : GeneratedWorkOrder :=
  { exportOrder with
    repositoryOwner := "acme-labs"
    issueUrl := "https://github.com/acme-labs/app/issues/7" }

/-- Both repositories are watched, and nothing is stored yet. -/
def watchedDb : Db where
  repositories := ⟨[acmeApp, acmeLabsApp], 3, by decide, by decide⟩
  workOrders := .empty
  runs := .empty

/-- The fork's issue was projected first. -/
def forkFirstDb : Db :=
  insertWorkOrder watchedDb acmeLabsApp.id forkOrder false 0

/-- With nothing stored yet, the issue's row is written. -/
theorem landed_iff_unclaimed_watched :
    Landed (project (watchedDb.projectionInput acmeApp [exportIssue] appHead 0)
      watchedDb) acmeApp.id exportIssue.number ↔
        Unclaimed watchedDb exportOrder :=
  landed_iff_unclaimed watchedDb acmeApp [exportIssue] appHead 0
    (List.mem_singleton_self _) projectIssue_exportInput (by decide)

/-- **The second repository's issue is dropped.** It is eligible and has no
work order; the fork's row carries its identity; and the pass neither stores
it nor logs a failure. -/
theorem fork_dropped :
    ¬ ∀ (db : Db) (repository : RepositoryRow) (issues : List NormalizedIssue)
      (baseCommit : String) (now : Instant), ∀ issue ∈ issues,
      ∀ workOrder held,
        projectIssue
            ((db.projectionInput repository issues baseCommit now).issueInput
              issue) = .ok (.eligible workOrder held) →
          ¬ HasRow db repository.id issue.number →
          Landed
            (project (db.projectionInput repository issues baseCommit now) db)
            repository.id issue.number := by
  intro h
  have hlanded := h forkFirstDb acmeApp [exportIssue] appHead 0 exportIssue
    (List.mem_singleton_self _) exportOrder false projectIssue_exportInput
    (by decide)
  revert hlanded
  decide +kernel

end Opifex
