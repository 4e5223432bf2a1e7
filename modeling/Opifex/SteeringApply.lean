import Opifex.GitHubWrites
import Opifex.Lib.Halting
import Opifex.Lib.Instant
import Opifex.Lib.Preference
import Opifex.Lib.Rounding
import Opifex.Steering

/-!
# Carrying out a confirmed proposal

The operations are gone through in order. Each issue is read again; one that is
not registered, not found, closed, a pull request or drifted is skipped, the
others get their labels written one by one. What happened is audited by one row,
written after the last operation.

A read that fails otherwise, a label request that fails and the row itself can
each end the call. What GitHub did before that stays done.
-/

namespace Opifex

/-- The text of a label steering may write. -/
def SteerableLabel.name : SteerableLabel → String
  | .ready => InputLabel.ready.name
  | .hold => InputLabel.hold.name

/-- The two things done to a label. Each is a request of its own to GitHub. -/
inductive LabelOperation where
  | add
  | remove
deriving DecidableEq, Repr

/-- What comes of writing one label: whether it is sent at all, and what GitHub answers
to each attempt. -/
structure LabelAnswer where
  /-- The kill switch, as this write reads it. -/
  enabled : Bool
  /-- The retries the request is made with. -/
  retries : ℕ
  attempts : List WriteAttempt
  /-- A refusal says that the label is not on the issue. -/
  labelAbsent : Bool
deriving DecidableEq, Repr

namespace LabelAnswer

variable (answer : LabelAnswer)

/-- GitHub did what the write asks for. -/
def isDone : Bool :=
  answer.enabled && decide (0 < timesDone answer.retries answer.attempts)

/-- The request ended with a refusal that says the label is not there. -/
def isLabelNotPresent : Bool :=
  (attemptsMade answer.retries answer.attempts).getLast? == some .rejected &&
    answer.labelAbsent

/-- `addLabel` -/
def addLabel : Except RequestEnd WriteResult :=
  if !answer.enabled then .ok ⟨false, false⟩
  else
    match request answer.retries answer.attempts with
    | .answered => .ok ⟨true, false⟩
    | ended => .error ended

/-- `removeLabel` -/
def removeLabel : Except RequestEnd WriteResult :=
  if !answer.enabled then .ok ⟨false, false⟩
  else
    match request answer.retries answer.attempts with
    | .answered => .ok ⟨true, false⟩
    | ended =>
      if answer.isLabelNotPresent then .ok ⟨true, true⟩ else .error ended

/-- What GitHub answers to an operation: one answer for each of the two. -/
def write : LabelOperation → Except RequestEnd WriteResult
  | .add => answer.addLabel
  | .remove => answer.removeLabel

end LabelAnswer

/-- An operation of the request: the issue, the labels to add and to remove, and the
labels it carried when it was proposed. -/
structure ApplySteeringOperation where
  repo : RepositoryRef
  number : ℕ
  add : List SteerableLabel
  remove : List SteerableLabel
  /-- The baseline the proposal observed. -/
  observedInputLabels : List String
deriving DecidableEq

namespace ApplySteeringOperation

/-- How an operation names its issue. -/
def ref (operation : ApplySteeringOperation) : String :=
  issueRef operation.repo operation.number

/-- The labels in the order they are written: first those to add. -/
def labelWrites (operation : ApplySteeringOperation) :
    List (LabelOperation × SteerableLabel) :=
  operation.add.map (LabelOperation.add, ·) ++
    operation.remove.map (LabelOperation.remove, ·)

end ApplySteeringOperation

/-- The request that carries a proposal out. It brings the proposal with it, since none
is stored. -/
structure ApplySteering where
  proposalId : String
  proposedAt : String
  /-- What `proposedAt` reads as, if it is an instant. -/
  proposedInstant : Option Instant
  instruction : String
  operations : List ApplySteeringOperation
deriving DecidableEq

/-- A label that is not as the proposal saw it. An operation on an issue with one is not
carried out. -/
structure LabelDrift where
  label : String
  wasPresent : Bool
  isPresent : Bool
deriving DecidableEq

/-- What changed in an issue's input labels since the proposal was made. -/
def driftBetween (observed current : List String) : List LabelDrift :=
  ((Preference.rank Text.compareUnits (observed ++ current).eraseDups).filter
    fun label => observed.contains label != current.contains label).map
      fun label => ⟨label, observed.contains label, current.contains label⟩

/-- Nothing has drifted when the labels are the same. -/
theorem driftBetween_eq_nil_iff {observed current : List String} :
    driftBetween observed current = [] ↔
      ∀ label, label ∈ observed ↔ label ∈ current := by
  unfold driftBetween
  rw [List.map_eq_nil_iff, List.filter_eq_nil_iff]
  have hsame : ∀ label, ¬ (observed.contains label != current.contains label) = true ↔
      (label ∈ observed ↔ label ∈ current) := by
    intro label
    rw [bne_iff_ne, not_not, Bool.eq_iff_iff, List.contains_iff_mem,
      List.contains_iff_mem]
  simp only [Preference.mem_rank, List.mem_eraseDups, List.mem_append]
  constructor
  · intro h label
    by_cases hmem : label ∈ observed ∨ label ∈ current
    · exact (hsame label).mp (h label hmem)
    · rw [not_or] at hmem
      exact iff_of_false hmem.1 hmem.2
  · intro h label _
    exact (hsame label).mpr (h label)

/-- What is answered for one label: what was asked, and whether GitHub was written to.
-/
structure LabelWriteReport where
  label : SteerableLabel
  operation : LabelOperation
  performed : Bool
  noop : Bool
deriving DecidableEq

/-- An operation that was carried out, with the report of each of its labels, which may
not have been written. -/
structure AppliedOperation where
  ref : String
  add : List SteerableLabel
  remove : List SteerableLabel
  writes : List LabelWriteReport
deriving DecidableEq

/-- Why an operation was not carried out: the issue is not as the proposal saw it, or is
out of reach. -/
inductive SkippedReason where
  | drift
  | issueNotFound
  | issueClosed
  | isPullRequest
  | repositoryNotRegistered
deriving DecidableEq, Repr

/-- An operation that was not carried out, with the reason and, for a drift, the labels
that have changed. -/
structure SkippedOperation where
  ref : String
  reason : SkippedReason
  detail : String
  drift : List LabelDrift
deriving DecidableEq

/-- The counts of a result. A label that already was as asked is a write that was not
performed. -/
structure SteeringApplySummary where
  operationsRequested : ℕ
  operationsApplied : ℕ
  operationsSkipped : ℕ
  labelWrites : ℕ
  labelWritesPerformed : ℕ
deriving DecidableEq

/-- What is answered: each operation as applied or as skipped, and whether any label was
written at all. -/
structure SteeringApplyResult where
  proposalId : String
  applied : List AppliedOperation
  skipped : List SkippedOperation
  labelWritten : Bool
  writesEnabled : Bool
  reconciled : Bool
  effect : String
  summary : SteeringApplySummary
deriving DecidableEq

/-- The row that says what was done about an instruction. A call creates it once, after
all its operations. -/
structure SteeringAuditEvent where
  actorUserId : String
  action : String
  targetType : String
  targetId : String
  instruction : String
  proposedAt : String
  writesEnabled : Bool
  labelWritten : Bool
  summary : SteeringApplySummary
  /-- The reference of each operation that was applied, what it added and what
  it removed. -/
  applied : List (String × List SteerableLabel × List SteerableLabel)
  skipped : List (String × SkippedReason)
deriving DecidableEq

/-- How a call ends that does not return. The first two refuse the request; a read, a
label or the audit row may fail after a label was written. -/
inductive SteeringApplyError where
  | badRequest (message : String)
  | conflict (message : String)
  /-- The registry could not be read. -/
  | registry
  | read (message : String)
  | write (ended : RequestEnd)
  /-- The audit row was not written, or not answered for. -/
  | audit
deriving DecidableEq

/-- A label that GitHub put on or took off an issue, whether or not the answer came
back. -/
structure WrittenLabel where
  repo : RepositoryRef
  number : ℕ
  operation : LabelOperation
  label : SteerableLabel
deriving DecidableEq

/-- What the call is answered, by the position of the operation and of the
label. -/
structure ApplyAnswers where
  now : Instant
  registered : Option (List RegisteredRepository)
  getIssue : ℕ → Except GitHubReadError FetchedIssue
  write : ℕ → ℕ → LabelAnswer
  /-- The kill switch when the last operation is through. -/
  enabled : Bool
  /-- What comes of inserting the row, which is tried once. -/
  audit : WriteAttempt

namespace ApplySteering

variable (answers : ApplyAnswers) (registered : List RegisteredRepository)
  (dto : ApplySteering) (actorUserId : String)

/-- `PROPOSAL_TTL_MINUTES` -/
def proposalTtlMinutes : ℕ := 30

/-! ## The labels of one operation -/

/-- The labels of one operation so far: what is reported of each, and what GitHub did.
-/
structure Writing where
  writes : List LabelWriteReport
  written : List WrittenLabel

/-- What GitHub does about a label, whatever the request ends with. -/
def takenLabel (operation : ApplySteeringOperation) (index : ℕ)
    (item : (LabelOperation × SteerableLabel) × ℕ) : List WrittenLabel :=
  if (answers.write index item.2).isDone then
    [⟨operation.repo, operation.number, item.1.1, item.1.2⟩]
  else []

/-- One label of an operation. Its report is kept if GitHub answered; a write whose
answer was lost may have taken effect, and is remembered as such. -/
def writeLabel (operation : ApplySteeringOperation) (index : ℕ) (writing : Writing)
    (item : (LabelOperation × SteerableLabel) × ℕ) :
    Writing × Option SteeringApplyError :=
  let written := writing.written ++ takenLabel answers operation index item
  match (answers.write index item.2).write item.1.1 with
  | .ok result =>
    ({ writes := writing.writes ++
          [⟨item.1.2, item.1.1, result.performed, result.noop⟩]
       written := written }, none)
  | .error ended => ({ writing with written := written }, some (.write ended))

/-! ## The operations -/

/-- The operations so far, those that were carried out and those that were not. -/
structure Applying where
  applied : List AppliedOperation
  skipped : List SkippedOperation
  written : List WrittenLabel

/-- An operation is skipped, with the reason and the drift. -/
def Applying.skip (applying : Applying) (ref : String) (reason : SkippedReason)
    (detail : String) (drift : List LabelDrift) : Applying :=
  { applying with skipped := applying.skipped ++ [⟨ref, reason, detail, drift⟩] }

/-- One operation, with its position. -/
def applyOperation (applying : Applying) (item : ApplySteeringOperation × ℕ) :
    Applying × Option SteeringApplyError :=
  let operation := item.1
  let ref := operation.ref
  if !isRegistered operation.repo registered then
    (applying.skip ref .repositoryNotRegistered
      (operation.repo.slug ++ " is not a repository Opifex observes.") [], none)
  else
    match answers.getIssue item.2 with
    | .error (.other message) => (applying, some (.read message))
    | .error (.notFound message) =>
      (applying.skip ref .issueNotFound
        (ref ++ " could not be read: " ++ message) [], none)
    | .ok issue =>
      if issue.isPullRequest then
        (applying.skip ref .isPullRequest
          (ref ++ " is a pull request, not an issue.") [], none)
      else if issue.state ≠ .isOpen then
        (applying.skip ref .issueClosed
          (ref ++ " has been closed since the proposal was made.") [], none)
      else
        let drift := driftBetween operation.observedInputLabels
          (issue.inputLabels.map (·.name))
        if drift ≠ [] then
          (applying.skip ref .drift
            ("The factory labels on " ++ ref ++ " changed after the proposal was " ++
              "made, so this operation was not applied. Ask for a new proposal to " ++
              "see the current picture.") drift, none)
        else
          match Halting.run (writeLabel answers operation item.2)
              ⟨[], applying.written⟩ operation.labelWrites.zipIdx with
          | (writing, some failure) =>
            ({ applying with written := writing.written }, some failure)
          | (writing, none) =>
            ({ applying with
                applied := applying.applied ++
                  [⟨ref, operation.add, operation.remove, writing.writes⟩]
                written := writing.written }, none)

/-! ## The call -/

/-- Before the first operation: the age of the proposal, and the registry. -/
def admitted : Except SteeringApplyError (List RegisteredRepository) :=
  match dto.proposedInstant with
  | none => .error (.badRequest "proposedAt is not a valid instant")
  | some proposedAt =>
    let ageMinutes : ℚ := (answers.now - proposedAt : ℤ) / 60000
    if ageMinutes > proposalTtlMinutes then
      .error (.conflict ("This proposal was made " ++
        toString (Rounding.round ageMinutes) ++ " minutes ago and proposals expire " ++
        "after " ++ toString proposalTtlMinutes ++
        ". Ask for a new one — nothing has been written."))
    else
      match answers.registered with
      | none => .error .registry
      | some registered => .ok registered

/-- What is answered when the operations have been gone through. -/
def resultOf (applying : Applying) : SteeringApplyResult :=
  let writes := applying.applied.flatMap (·.writes)
  let performed := writes.countP (·.performed)
  { proposalId := dto.proposalId
    applied := applying.applied
    skipped := applying.skipped
    labelWritten := decide (0 < performed)
    writesEnabled := answers.enabled
    reconciled := false
    effect :=
      "The labels are the request. They take effect on the next reconciler tick."
    summary :=
      { operationsRequested := dto.operations.length
        operationsApplied := applying.applied.length
        operationsSkipped := applying.skipped.length
        labelWrites := writes.length
        labelWritesPerformed := performed } }

/-- The audit row of a result: the references of what was applied and of what was
skipped, without the reports. -/
def auditEventOf (result : SteeringApplyResult) : SteeringAuditEvent where
  actorUserId := actorUserId
  action := "steering.apply"
  targetType := "steering_proposal"
  targetId := dto.proposalId
  instruction := dto.instruction
  proposedAt := dto.proposedAt
  writesEnabled := result.writesEnabled
  labelWritten := result.labelWritten
  summary := result.summary
  applied := result.applied.map fun entry => (entry.ref, entry.add, entry.remove)
  skipped := result.skipped.map fun entry => (entry.ref, entry.reason)

/-- What a call leaves behind, and how it ends. GitHub's side of it is there also where
the call throws. -/
structure Applied where
  /-- What GitHub did. -/
  written : List WrittenLabel
  auditEvents : List SteeringAuditEvent
  ended : Except SteeringApplyError SteeringApplyResult

/-- All the operations of a call that was admitted. -/
def applyOperations : Applying × Option SteeringApplyError :=
  Halting.run (applyOperation answers registered) ⟨[], [], []⟩ dto.operations.zipIdx

/-- `apply` -/
def apply : Applied :=
  match admitted answers dto with
  | .error failure => ⟨[], [], .error failure⟩
  | .ok registered =>
    match applyOperations answers registered dto with
    | (applying, some failure) => ⟨applying.written, [], .error failure⟩
    | (applying, none) =>
      let result := resultOf answers dto applying
      { written := applying.written
        auditEvents :=
          if answers.audit.isDone then [auditEventOf dto actorUserId result] else []
        ended :=
          if answers.audit = .answered then .ok result else .error .audit }

end ApplySteering

end Opifex
