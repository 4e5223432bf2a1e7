import Opifex.DiffEngine
import Opifex.Lib.Instant
import Opifex.Lib.Table
import Opifex.RunEvents

/-!
# Escalations

An escalation is a row: what is wrong with which run, and how far the news of
it has come. `raiseFrom` writes one for each `escalate` action whose run and
kind have none that a human has not dealt with yet. The other statements move
its status, and all but the automatic resolution do so by id, whatever the
status is by then.

The rows never go away and no statement changes what one is about, so the
history of a run and kind is the list of its rows.
-/

namespace Opifex

/-- The statuses of an escalation, in the order in which one goes through them. The
first three are unresolved; `failed` is one that no transport took or no device
confirmed. -/
inductive EscalationStatus where
  /-- Recorded, not yet handed to a transport. -/
  | raised
  /-- Handed to a transport, no receipt yet. -/
  | dispatched
  /-- The transport confirmed delivery. -/
  | delivered
  | failed
  /-- A human confirmed they saw it. -/
  | acknowledged
  /-- The underlying condition cleared before anyone acted. -/
  | resolved
deriving DecidableEq, Repr

/-- Statuses meaning that a human has not dealt with this yet: the dedupe
set. -/
def unresolved : List EscalationStatus :=
  [.raised, .dispatched, .delivered, .failed]

/-- The source as the enumerated column has it. -/
def RunEventSource.column : RunEventSource → String
  | .runnerReported => "runner"
  | .gitDerived => "git"
  | .controlPlaneSynthesized => "control_plane"

/-- The members of the enumerated column. -/
def RunEventSource.ofColumn (text : String) : Option RunEventSource :=
  [.runnerReported, .gitDerived, .controlPlaneSynthesized].find?
    fun source => source.column == text

/-- A row of the escalations: what is wrong, with which run, how it was detected, and
how far the news of it has come. -/
structure EscalationRow where
  id : ℕ
  /-- Null for an escalation about the control plane. -/
  runId : Option ℕ
  kind : EscalationKind
  status : EscalationStatus := .raised
  summary : String
  detail : Option String
  /-- When the run stopped making progress. -/
  progressStoppedAt : Option Instant
  detectionSource : Option RunEventSource
  detectLatencyMs : Option ℤ
  notifyLatencyMs : Option ℤ := none
  transport : Option String := none
  receiptId : Option ℕ := none
  failureReason : Option String := none
  deliveryAttempts : ℕ := 0
  raisedAt : Instant
  dispatchedAt : Option Instant := none
  deliveredAt : Option Instant := none
  acknowledgedAt : Option Instant := none
  acknowledgedById : Option ℕ := none
deriving DecidableEq

instance : Keyed EscalationRow := ⟨EscalationRow.id⟩

namespace EscalationRow

/-- A human has not dealt with it. -/
def isUnresolved (escalation : EscalationRow) : Bool :=
  unresolved.contains escalation.status

/-- It concerns this run, in this way. -/
def isAbout (runId : Option ℕ) (kind : EscalationKind)
    (escalation : EscalationRow) : Bool :=
  escalation.runId == runId && escalation.kind == kind

end EscalationRow

/-- Never negative. -/
def elapsed (start stop : Instant) : ℤ := max 0 (stop - start)

/-- A number the two latency columns hold: they are four bytes wide. -/
def fitsInteger (n : ℤ) : Bool := -2 ^ 31 ≤ n && n < 2 ^ 31

/-! ## Raising -/

/-- An action as `raiseFrom` finds it when it runs. A caller that casts its
argument can leave out any field. -/
structure HandedAction where
  type : ReconcileActionType
  repository : Option String
  issueNumber : Option ℕ
  reason : String
  evidence : Option ActionEvidence
  runId : Option ℕ
  escalationKind : Option EscalationKind
  /-- When the run stopped making progress. -/
  progressStoppedAt : Option Instant := none
  detectionSource : Option String := none
deriving DecidableEq

/-- Why an escalation is not written: the code throws while it makes up the row, or the
database refuses a value. -/
inductive RaiseError where
  | typeError (message : String)
  /-- The value of this column is refused. -/
  | invalidValue (column : String)
deriving DecidableEq, Repr

namespace HandedAction

/-- `action.escalationKind ?? 'system'`. -/
def kind (action : HandedAction) : EscalationKind :=
  action.escalationKind.getD .system

/-- `owner/name#number`. -/
def place (action : HandedAction) : String :=
  action.repository.getD "undefined" ++ "#" ++
    action.issueNumber.elim "undefined" toString

/-- One line, for a phone. -/
def summarize (action : HandedAction) : Except RaiseError String :=
  match action.evidence with
  | none =>
    .error (.typeError
      "Cannot read properties of undefined (reading 'workOrderIdentity')")
  | some evidence =>
    let what := evidence.workOrderIdentity.getD action.place
    .ok <| what ++
      (match action.escalationKind with
        | some .runStalled => " stalled ("
        | some .runLooping => " is looping ("
        | some .runFailed => " failed ("
        | some .quarantined => " quarantined ("
        | some .budgetExceeded => " hit its budget ceiling ("
        | _ => " needs attention (") ++ action.place ++ ")"

/-- How long the stop went unnoticed. -/
def detectLatencyMs (action : HandedAction) (raisedAt : Instant) : Option ℤ :=
  action.progressStoppedAt.map fun stoppedAt => elapsed stoppedAt raisedAt

/-- The source as the column has it, if the text names one. -/
def source (action : HandedAction) :
    Except RaiseError (Option RunEventSource) :=
  match action.detectionSource with
  | none => .ok none
  | some text =>
    match RunEventSource.ofColumn text with
    | some source => .ok (some source)
    | none => .error (.invalidValue "detectionSource")

/-- The `data` of `escalation.create`; the id is the table's. -/
def data (action : HandedAction) (raisedAt : Instant) (summary : String)
    (detectionSource : Option RunEventSource) : EscalationRow where
  id := 0
  runId := action.runId
  kind := action.kind
  summary := summary
  detail := some action.reason
  progressStoppedAt := action.progressStoppedAt
  detectionSource := detectionSource
  detectLatencyMs := action.detectLatencyMs raisedAt
  raisedAt := raisedAt

/-- The row `escalation.create` writes: the summary is worked out first, and
the database checks the rest. -/
def row (action : HandedAction) (raisedAt : Instant) :
    Except RaiseError EscalationRow :=
  match action.summarize, action.source with
  | .error error, _ => .error error
  | .ok _, .error error => .error error
  | .ok summary, .ok detectionSource =>
    if (action.detectLatencyMs raisedAt).all fitsInteger then
      .ok (action.data raisedAt summary detectionSource)
    else .error (.invalidValue "detectLatencyMs")

end HandedAction

/-- The escalation of a run and kind that no human has dealt with yet. -/
def existing (escalations : Table EscalationRow) (runId : Option ℕ)
    (kind : EscalationKind) : Option EscalationRow :=
  escalations.rows.find? fun escalation =>
    escalation.isAbout runId kind && escalation.isUnresolved

/-! ## Statements -/

/-- The `data` of an update by id. No update names the status it expects to find. -/
inductive EscalationUpdate where
  /-- A transport took the payload with this token. -/
  | dispatched (transport : String) (receiptId : ℕ) (dispatchedAt : Instant)
      (failureReason : Option String)
  /-- No transport took it. -/
  | refused (failureReason : String)
  /-- A transport took it, and no device confirmed it in time. -/
  | unconfirmed (failureReason : String)
  | delivered (transport : String) (receiptId : ℕ) (deliveredAt : Instant)
      (notifyLatencyMs : Option ℤ)
  | acknowledged (acknowledgedAt : Instant) (acknowledgedById : ℕ)
deriving DecidableEq

/-- What an update by id writes. -/
def EscalationUpdate.apply (update : EscalationUpdate)
    (escalation : EscalationRow) : EscalationRow :=
  match update with
  | .dispatched transport receiptId dispatchedAt failureReason =>
    { escalation with
      status := .dispatched
      transport := some transport
      receiptId := some receiptId
      dispatchedAt := some dispatchedAt
      -- only the fallback path writes why it was needed
      failureReason := failureReason.or escalation.failureReason
      deliveryAttempts := escalation.deliveryAttempts + 1 }
  | .refused failureReason =>
    { escalation with
      status := .failed
      failureReason := some failureReason
      deliveryAttempts := escalation.deliveryAttempts + 1 }
  | .unconfirmed failureReason =>
    { escalation with
      status := .failed
      failureReason := some failureReason }
  | .delivered transport receiptId deliveredAt notifyLatencyMs =>
    { escalation with
      status := .delivered
      transport := some transport
      receiptId := some receiptId
      deliveredAt := some deliveredAt
      notifyLatencyMs := notifyLatencyMs
      deliveryAttempts := escalation.deliveryAttempts + 1 }
  | .acknowledged acknowledgedAt acknowledgedById =>
    { escalation with
      status := .acknowledged
      acknowledgedAt := some acknowledgedAt
      acknowledgedById := some acknowledgedById }

/-- `data: { status: 'resolved' }`. -/
def EscalationRow.resolve (escalation : EscalationRow) : EscalationRow :=
  { escalation with status := .resolved }

/-- A row an automatic resolution takes: of one of these runs, and
outstanding. -/
def EscalationRow.isStale (runIds : List ℕ) (escalation : EscalationRow) :
    Bool :=
  (escalation.runId.any runIds.contains) && escalation.isUnresolved

/-- A statement that changes rows. Only `updateMany` has a condition on what it changes.
-/
inductive EscalationWrite where
  | create (escalation : EscalationRow)
  | update (id : ℕ) (data : EscalationUpdate)
  /-- `updateMany`: the outstanding escalations of some runs. -/
  | resolveStale (runIds : List ℕ)
deriving DecidableEq

theorem EscalationUpdate.key_apply (update : EscalationUpdate)
    (escalation : EscalationRow) :
    (update.apply escalation).id = escalation.id := by
  cases update <;> rfl

theorem EscalationRow.key_resolve (escalation : EscalationRow) :
    escalation.resolve.id = escalation.id := rfl

namespace EscalationWrite

/-- The table after the statement. -/
def onTable (escalations : Table EscalationRow) :
    EscalationWrite → Table EscalationRow
  | .create escalation =>
    escalations.insert (fun id => { escalation with id := id }) fun _ => rfl
  | .update id data =>
    escalations.modify (fun escalation => escalation.id == id) data.apply
      data.key_apply
  | .resolveStale runIds =>
    escalations.modify (EscalationRow.isStale runIds) EscalationRow.resolve
      EscalationRow.key_resolve

/-- A row after the statement. -/
def onRow (escalation : EscalationRow) : EscalationWrite → EscalationRow
  | .create _ => escalation
  | .update id data =>
    if escalation.id = id then data.apply escalation else escalation
  | .resolveStale runIds =>
    if escalation.isStale runIds then escalation.resolve else escalation

end EscalationWrite

/-! ## Raising a list of actions -/

/-- How far `raiseFrom` got: an error leaves what was written before it, with the counts
so far. -/
structure Raising where
  escalations : Table EscalationRow
  raised : ℕ := 0
  /-- Suppressed, because one of the run and kind is outstanding. -/
  deduplicated : ℕ := 0
  error : Option RaiseError := none

/-- Raise one action, unless an earlier one threw. -/
def raiseOne (raisedAt : Instant) (raising : Raising)
    (action : HandedAction) : Raising :=
  if raising.error.isSome then raising
  else
    match existing raising.escalations action.runId action.kind with
    | some _ => { raising with deduplicated := raising.deduplicated + 1 }
    | none =>
      match action.row raisedAt with
      | .ok escalation =>
        { raising with
          escalations :=
            (EscalationWrite.create escalation).onTable raising.escalations
          raised := raising.raised + 1 }
      | .error error => { raising with error := some error }

/-- Raise escalations for the `escalate` actions in a list. -/
def raiseFrom (escalations : Table EscalationRow) (raisedAt : Instant)
    (actions : List HandedAction) : Raising :=
  (actions.filter (·.type == .escalate)).foldl (raiseOne raisedAt)
    ⟨escalations, 0, 0, none⟩

/-- A row that is created is the action's. -/
theorem HandedAction.row_eq_ok {action : HandedAction} {raisedAt : Instant}
    {escalation : EscalationRow} (h : action.row raisedAt = .ok escalation) :
    ∃ summary detectionSource,
      escalation = action.data raisedAt summary detectionSource := by
  rw [HandedAction.row] at h
  cases hsummary : action.summarize with
  | error error =>
    rw [hsummary] at h
    cases h
  | ok summary =>
    cases hsource : action.source with
    | error error =>
      rw [hsummary, hsource] at h
      cases h
    | ok detectionSource =>
      rw [hsummary, hsource] at h
      dsimp only at h
      split_ifs at h
      exact ⟨summary, detectionSource, (Except.ok.inj h).symm⟩

section Statements

variable {escalations : Table EscalationRow} {escalation row : EscalationRow}
  {id : ℕ} {runId : Option ℕ} {kind : EscalationKind}

theorem mem_unresolved {status : EscalationStatus} :
    status ∈ unresolved ↔ status ≠ .acknowledged ∧ status ≠ .resolved := by
  cases status <;> decide

theorem EscalationRow.isUnresolved_iff :
    escalation.isUnresolved
      ↔ escalation.status ≠ .acknowledged ∧ escalation.status ≠ .resolved := by
  rw [EscalationRow.isUnresolved, List.contains_iff_mem, mem_unresolved]

theorem EscalationRow.isAbout_iff :
    escalation.isAbout runId kind
      ↔ escalation.runId = runId ∧ escalation.kind = kind := by
  rw [EscalationRow.isAbout, Bool.and_eq_true, beq_iff_eq, beq_iff_eq]

theorem key_onRow (write : EscalationWrite) :
    (write.onRow escalation).id = escalation.id := by
  cases write with
  | create row => rfl
  | update other data =>
    rw [EscalationWrite.onRow]
    split_ifs
    · exact data.key_apply escalation
    · rfl
  | resolveStale runIds =>
    rw [EscalationWrite.onRow]
    split_ifs <;> rfl

/-- **A statement acts on a stored row by itself.** -/
theorem find_onTable (write : EscalationWrite)
    (h : escalations.find id = some escalation) :
    (write.onTable escalations).find id = some (write.onRow escalation) := by
  obtain ⟨hmem, hid⟩ := Table.find_eq_some.mp h
  cases write with
  | create row =>
    have hne : id ≠ escalations.next := by
      rw [← hid]
      exact Nat.ne_of_lt (escalations.bounded escalation hmem)
    rw [EscalationWrite.onTable, Table.find_insert_of_ne _ hne, h,
      EscalationWrite.onRow]
  | update other data =>
    rw [EscalationWrite.onTable, Table.find_modify data.key_apply, h,
      EscalationWrite.onRow, Option.map_some]
    simp only [beq_iff_eq]
  | resolveStale runIds =>
    rw [EscalationWrite.onTable,
      Table.find_modify (f := EscalationRow.resolve) EscalationRow.key_resolve,
      h, EscalationWrite.onRow, Option.map_some]

/-- What a statement leaves is a row it found, or the one it created. -/
theorem mem_onTable (write : EscalationWrite)
    (h : row ∈ (write.onTable escalations).rows) :
    (∃ escalation ∈ escalations.rows, row = write.onRow escalation)
      ∨ ∃ created, write = .create created
          ∧ row = { created with id := escalations.next } := by
  cases write with
  | create created =>
    rcases (Table.mem_insert (fun _ => rfl)).mp h with h | h
    · exact Or.inl ⟨row, h, rfl⟩
    · exact Or.inr ⟨created, rfl, h⟩
  | update other data =>
    obtain ⟨escalation, hmem, hrow⟩ := (Table.mem_modify data.key_apply).mp h
    refine Or.inl ⟨escalation, hmem, ?_⟩
    rw [hrow, EscalationWrite.onRow]
    simp only [beq_iff_eq]
  | resolveStale runIds =>
    obtain ⟨escalation, hmem, hrow⟩ :=
      (Table.mem_modify (f := EscalationRow.resolve)
        EscalationRow.key_resolve).mp h
    exact Or.inl ⟨escalation, hmem, hrow⟩

/-- No statement changes what a row is about. -/
theorem isAbout_onRow (write : EscalationWrite) :
    (write.onRow escalation).isAbout runId kind
      = escalation.isAbout runId kind := by
  cases write with
  | create row => rfl
  | update other data =>
    rw [EscalationWrite.onRow]
    split_ifs
    · cases data <;> rfl
    · rfl
  | resolveStale runIds =>
    rw [EscalationWrite.onRow]
    split_ifs <;> rfl

theorem existing_eq_some (h : existing escalations runId kind = some row) :
    row ∈ escalations.rows ∧ row.isAbout runId kind ∧ row.isUnresolved := by
  rw [existing] at h
  have hrow := List.find?_some h
  rw [Bool.and_eq_true] at hrow
  exact ⟨List.mem_of_find?_eq_some h, hrow⟩

end Statements

end Opifex
