import Opifex.WorkOrderProjection

/-!
# The authorized thing is the stored thing

A work order that projection made is written to a row and rebuilt from it when
the queue is drained or a parked run resumes. Its coordinates derive the stored
names again, its needs and tier are read back from the names the columns hold,
and an absent tier stays absent. So the bytes the authorization committed are
the bytes the stored row still produces.

What may not be read back is a need that is none. The tables of routing labels
are object literals, and a label whose lower case is a key every object
inherits finds something in them. The value is carried along as a need, and the
row is refused. `serialize_rehydrated` says that **nothing else is lost**.
-/

namespace Opifex

open Record (Looked)

/-- The row a projected work order is written to derives the coordinates it
was generated from. -/
theorem createData_coordinates {input : GenerationInput}
    {repository : RepositoryRow}
    (hname : repository.name = input.issue.repositoryName)
    (identity branch : String) (held : Bool) (now : Instant) (id : ℕ) :
    (createData repository.id (assembleWorkOrder input identity branch) held
      now id).coordinates repository = input.coordinates := by
  simp [WorkOrderRow.coordinates, createData, assembleWorkOrder,
    GenerationInput.coordinates, hname]

/-- **A generated work order is rebuilt from its row as it was**, when what it
declares is of the vocabulary. -/
theorem rehydrateWorkOrder_createData {input : GenerationInput}
    {workOrder : GeneratedWorkOrder}
    (h : generateWorkOrder input = .ok (.generated workOrder))
    {repository : RepositoryRow}
    (howner : repository.owner = input.issue.repositoryOwner)
    (hname : repository.name = input.issue.repositoryName)
    {needs : List RunnerNeed} {tier : Option ModelTier}
    (hneeds : input.issue.needs = needs.map Looked.own)
    (htier : input.issue.modelTier = tier.map Looked.own)
    (held : Bool) (now : Instant) (id : ℕ) :
    rehydrateWorkOrder (createData repository.id workOrder held now id)
      repository = .ok workOrder := by
  obtain ⟨hproblems, hvalid, rfl⟩ := generateWorkOrder_generated h
  have hurl : Text.trim input.issue.issueUrl ≠ "" :=
    issueUrl_ne_empty hproblems
  have hreadNeeds : WorkOrderRow.readNeeds (createData repository.id
      (assembleWorkOrder input (identityOf input.coordinates)
        (branchOf input.coordinates)) held now id) = .ok needs := by
    refine readNeeds_of_own ?_
    rw [← hneeds]
    rfl
  have hreadTier : WorkOrderRow.readModelTier (createData repository.id
      (assembleWorkOrder input (identityOf input.coordinates)
        (branchOf input.coordinates)) held now id) = .ok tier := by
    refine readModelTier_of_own ?_
    rw [← htier]
    rfl
  unfold rehydrateWorkOrder
  simp only [createData_coordinates hname, derivedNames_of_validate hvalid,
    hreadNeeds, hreadTier, bind, Except.bind, pure, Except.pure, ← hneeds,
    ← htier]
  simp [createData, assembleWorkOrder, hurl, howner, hname]

/-- The rows of a table after `persist` are the rows it had, and the row the
work order was written to. -/
theorem mem_persist {db : Db} {repositoryId : ℕ}
    {workOrder : GeneratedWorkOrder} {held : Bool} {now : Instant}
    {row : WorkOrderRow}
    (h : row ∈ (persist db repositoryId workOrder held now).1.workOrders.rows) :
    row ∈ db.workOrders.rows ∨
      row = createData repositoryId workOrder held now row.id := by
  rcases persist_eq_or db repositoryId workOrder held now with hkept | hstored
  · rw [hkept] at h
    exact Or.inl h
  · rw [hstored] at h
    rcases mem_insertWorkOrder.mp h with hold | rfl
    · exact Or.inl hold
    · exact Or.inr rfl

/-- **What was authorized is what the row gives back**, exactly where no label
of the issue is an inherited key. Whatever issue, repository, base commit,
attempt and budget an eligible work order was projected from, each row
`persist` adds for it is then rebuilt without an error, into a work order with
the same bytes. -/
theorem serialize_rehydrated {input : ProjectIssueInput}
    {workOrder : GeneratedWorkOrder} {held : Bool}
    (h : projectIssue input = .ok (.eligible workOrder held))
    (repository : RepositoryRow)
    (howner : repository.owner = input.repositoryOwner)
    (hname : repository.name = input.repositoryName)
    (db : Db) (now : Instant) :
    ((∀ id, ∃ rebuilt,
      rehydrateWorkOrder (createData repository.id workOrder held now id)
          repository = .ok rebuilt ∧
        serializeWorkOrder rebuilt = serializeWorkOrder workOrder) ↔
      input.issue.NoInheritedLabel) ∧
      ∀ row ∈
        (persist db repository.id workOrder held now).1.workOrders.rows,
        row ∈ db.workOrders.rows ∨
          row = createData repository.id workOrder held now row.id := by
  obtain ⟨-, -, -, body, sections, taskSpec, criteria, hgenerated⟩ :=
    projectIssue_eligible h
  refine ⟨⟨fun hrebuilt label hlabel hkey => ?_, fun hlabels id => ?_⟩,
    fun row hrow => mem_persist hrow⟩
  · obtain ⟨rebuilt, hok, -⟩ := hrebuilt 0
    obtain ⟨needs, -, hread, -, -⟩ := rehydrateWorkOrder_own hok
    obtain ⟨-, -, hassembled⟩ := generateWorkOrder_generated hgenerated
    have hneeds : workOrder.needs = input.issue.readNeeds := by
      rw [hassembled]
      rfl
    obtain ⟨message, hrefused⟩ := readNeeds_of_inherited
      (show (createData repository.id workOrder held now 0).needs =
        workOrder.needs.map (·.map RunnerNeed.name) from rfl)
      (hneeds ▸ inherited_mem_readNeeds hlabel hkey)
    rw [hread] at hrefused
    exact nomatch hrefused
  · obtain ⟨needs, hneeds⟩ := readNeeds_eq_map_own hlabels
    obtain ⟨tier, htier⟩ := readModelTier_eq_map_own hlabels
    exact ⟨workOrder, rehydrateWorkOrder_createData hgenerated howner hname
      hneeds htier held now id, rfl⟩

/-- An issue that is ready to be built. -/
def exportIssue : NormalizedIssue where
  number := 7
  state := .isOpen
  title := "Export"
  body := some
    ("# Proposed solution\nExport it.\n# Acceptance criteria\n" ++
      "- Lists 3 runs")
  labels := ["tier:small"]
  inputLabels := [.ready]
  ignoredLabels := []

/-- The repository it was opened in. -/
def acmeApp : RepositoryRow where
  id := 1
  owner := "acme"
  name := "app"
  observeEnabled := true
  dispatchEnabled := true
  budgetCeilingUsd := some ⟨125000⟩
  wallClockTimeoutMinutes := none
  lastObservedAt := none

/-- Its HEAD. -/
def appHead : String := "a3f91c2000000000000000000000000000000000"

/-- The issue as it is projected on the first attempt, with a ceiling. -/
def exportInput : ProjectIssueInput where
  issue := exportIssue
  repositoryOwner := "acme"
  repositoryName := "app"
  baseCommit := appHead
  attempt := 1
  budgetCeilingUsd := some ⟨125000⟩
  wallClockTimeoutMinutes := none

/-- The work order that issue is turned into. -/
def exportOrder : GeneratedWorkOrder where
  identity := "wo_app_7_a3f91c2_a1"
  branch := "factory/7-a3f91c2-a1"
  coordinates := ⟨"app", 7, appHead, 1⟩
  repositoryOwner := "acme"
  repositoryName := "app"
  issueNumber := 7
  issueUrl := "https://github.com/acme/app/issues/7"
  issueTitle := some "Export"
  baseCommit := appHead
  attempt := 1
  taskSpec := "Export it."
  acceptanceCriteria := ["Lists 3 runs"]
  pathConstraints := []
  decisionRefs := []
  budgetCeilingUsd := some ⟨125000⟩
  wallClockTimeoutMinutes := none
  needs := []
  modelTier := some (.own .small)

theorem projectIssue_exportInput :
    projectIssue exportInput = .ok (.eligible exportOrder false) := by
  decide +kernel

/-- The row of that work order in an empty database. -/
theorem serialize_rehydrated_export :
    ∃ rebuilt,
      rehydrateWorkOrder (createData acmeApp.id exportOrder false 0 0)
          acmeApp = .ok rebuilt ∧
        serializeWorkOrder rebuilt = serializeWorkOrder exportOrder :=
  (serialize_rehydrated projectIssue_exportInput acmeApp rfl rfl
    ⟨.empty, .empty, .empty⟩ 0).1.mpr
    (show ∀ label ∈ ["tier:small"],
        Text.toLowerCase label ∉ Record.inheritedKeys by decide) 0

/-- The same issue with a label every object inherits a value under. -/
def constructorInput : ProjectIssueInput :=
  { exportInput with
    issue := { exportIssue with labels := ["constructor"] } }

/-- **Its row is refused**: the work order declares a need that is none. -/
theorem refuses_what_was_authorized :
    ∃ workOrder, projectIssue constructorInput =
        .ok (.eligible workOrder false) ∧
      rehydrateWorkOrder (createData acmeApp.id workOrder false 0 0) acmeApp =
        .error (.rehydration
          ("Work order wo_app_7_a3f91c2_a1 declares need(s) this build does " ++
            "not understand: function Object() \x7b [native code] \x7d. " ++
            "Refusing to route it as though it had not asked.")) := by
  refine ⟨{ exportOrder with
    needs := [.inherited "constructor"]
    modelTier := some (.inherited "constructor") }, ?_, ?_⟩
  · decide +kernel
  · decide +kernel

end Opifex
