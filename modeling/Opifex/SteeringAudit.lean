import Opifex.SteeringApply

/-!
# What is on record of a carried-out proposal

A label is written only to an open issue of a registered repository whose input
labels are the confirmed ones, and a call that returns reports each operation
once. That the label is on record as well takes a call that comes to its end:
the row is written last, and a failure before it leaves the labels without one
(`ApplySteering.unrecorded_label`). `ApplySteering.steered_iff_uninterrupted`
says exactly when every label is on record.
-/

namespace Opifex

/-- The event says that the label was put on, or taken off, the issue. -/
def SteeringAuditEvent.Records (event : SteeringAuditEvent) (written : WrittenLabel) :
    Prop :=
  ∃ entry ∈ event.applied, entry.1 = issueRef written.repo written.number ∧
    match written.operation with
    | .add => written.label ∈ entry.2.1
    | .remove => written.label ∈ entry.2.2

namespace ApplySteering

variable (answers : ApplyAnswers) (registered : List RegisteredRepository)
  (dto : ApplySteering) (actorUserId : String)

/-- The label is one of an operation whose issue is as it was confirmed: open,
registered, and with the input labels that the operator was shown. -/
structure Confirmed (item : ApplySteeringOperation × ℕ) (written : WrittenLabel) :
    Prop where
  repo : written.repo = item.1.repo
  number : written.number = item.1.number
  asked : (written.operation, written.label) ∈ item.1.labelWrites
  registered : isRegistered item.1.repo registered = true
  undrifted : ∃ issue, answers.getIssue item.2 = .ok issue ∧
    issue.isPullRequest = false ∧ issue.state = .isOpen ∧
    ∀ label, label ∈ item.1.observedInputLabels ↔
      label ∈ issue.inputLabels.map (·.name)

/-- **A proposal is carried out in order and on record**: nothing is written that was
not confirmed, each operation is reported once, and every label written is in the audit
row. -/
structure Steered : Prop where
  /-- Every label written is a confirmed one. -/
  written : ∀ label ∈ (apply answers dto actorUserId).written,
    ∃ registered, answers.registered = some registered ∧
      ∃ item ∈ dto.operations.zipIdx, Confirmed answers registered item label
  /-- A call that returns reports each operation once. -/
  reported : ∀ result, (apply answers dto actorUserId).ended = .ok result →
    ∃ carriedOut : ApplySteeringOperation × ℕ → Bool,
      result.applied.map (·.ref)
          = (dto.operations.zipIdx.filter carriedOut).map (·.1.ref) ∧
        result.skipped.map (·.ref)
          = (dto.operations.zipIdx.filter fun item => !carriedOut item).map (·.1.ref)
  /-- Every label written is on record, however the call ends. -/
  audited : ∀ label ∈ (apply answers dto actorUserId).written,
    ∃ event ∈ (apply answers dto actorUserId).auditEvents, event.Records label

/-! ## The steps of a call -/

/-- A read, a label request, or the insertion of the row. A step may do something and
fail all the same. -/
structure ApplyStep where
  /-- The step fails, and the call with it. -/
  stops : Bool
  /-- GitHub puts a label on or takes one off, also where no answer comes. -/
  done : Bool
deriving DecidableEq

/-- An issue that is not found is skipped; any other failure is final. -/
def readStep (item : ApplySteeringOperation × ℕ) : ApplyStep where
  stops :=
    match answers.getIssue item.2 with
    | .error (.other _) => true
    | _ => false
  done := false

/-- A label of an operation, as a step: whether it stops the rest, and whether it took
effect. -/
def labelStep (index : ℕ) (item : (LabelOperation × SteerableLabel) × ℕ) :
    ApplyStep where
  stops :=
    match (answers.write index item.2).write item.1.1 with
    | .ok _ => false
    | .error _ => true
  done := (answers.write index item.2).isDone

/-- The issue of the operation is as it was confirmed. -/
def isWritable (item : ApplySteeringOperation × ℕ) : Bool :=
  match answers.getIssue item.2 with
  | .error _ => false
  | .ok issue =>
    !issue.isPullRequest && decide (issue.state = .isOpen) &&
      decide (driftBetween item.1.observedInputLabels
        (issue.inputLabels.map (·.name)) = [])

/-- The labels of the operation get written. -/
def carriedOut (item : ApplySteeringOperation × ℕ) : Bool :=
  isRegistered item.1.repo registered && isWritable answers item

/-- The steps of one operation, if none of them fails. -/
def operationSteps (item : ApplySteeringOperation × ℕ) : List ApplyStep :=
  if isRegistered item.1.repo registered then
    readStep answers item ::
      if isWritable answers item then
        item.1.labelWrites.zipIdx.map (labelStep answers item.2)
      else []
  else []

/-- The steps of a call, if none of them fails. -/
def applySteps : List ApplyStep :=
  match admitted answers dto with
  | .error _ => []
  | .ok registered =>
    dto.operations.zipIdx.flatMap (operationSteps answers registered) ++
      [⟨!answers.audit.isDone, false⟩]

/-- **Uninterrupted**: where a step fails, GitHub has written no label up to and
including the first that does. -/
def Uninterrupted : Prop :=
  (∃ step ∈ applySteps answers dto, step.stops = true) →
    ∀ step ∈ Halting.upTo (·.stops) (applySteps answers dto), step.done = false

/-! ## One operation -/

section Spec

variable {answers} {registered} {dto} {actorUserId}
variable {operation : ApplySteeringOperation} {index : ℕ}

theorem writeLabel_isSome (writing : Writing)
    (item : (LabelOperation × SteerableLabel) × ℕ) :
    (writeLabel answers operation index writing item).2.isSome
      = (labelStep answers index item).stops := by
  unfold writeLabel labelStep
  cases (answers.write index item.2).write item.1.1 with
  | ok result => rfl
  | error ended => rfl

theorem written_writeLabel (writing : Writing)
    (item : (LabelOperation × SteerableLabel) × ℕ) :
    (writeLabel answers operation index writing item).1.written
      = writing.written ++ takenLabel answers operation index item := by
  unfold writeLabel
  cases (answers.write index item.2).write item.1.1 with
  | ok result => rfl
  | error ended => rfl

variable (answers) in
/-- What GitHub takes of an operation whose labels get written. -/
def takenLabels (item : ApplySteeringOperation × ℕ) : List WrittenLabel :=
  (Halting.upTo (fun label => (labelStep answers item.2 label).stops)
    item.1.labelWrites.zipIdx).flatMap (takenLabel answers item.1 item.2)

variable (answers registered) in
/-- What GitHub takes of an operation. -/
def takenOf (item : ApplySteeringOperation × ℕ) : List WrittenLabel :=
  if carriedOut answers registered item then
    takenLabels answers item
  else []

/-- How an operation goes: it is skipped, its issue cannot be read, or its labels
are written. -/
theorem applyOperation_spec (applying : Applying)
    (item : ApplySteeringOperation × ℕ) :
    let result := applyOperation answers registered applying item
    (carriedOut answers registered item = false ∧ (operationSteps answers registered item).any (·.stops) = false ∧
      ∃ entry : SkippedOperation, entry.ref = item.1.ref ∧
        result = ({ applying with skipped := applying.skipped ++ [entry] }, none)) ∨
    (carriedOut answers registered item = false ∧ (operationSteps answers registered item).any (·.stops) = true ∧
      ∃ failure, result = (applying, some failure)) ∨
    (carriedOut answers registered item = true ∧ (readStep answers item).stops = false ∧
      result =
        match Halting.run (writeLabel answers item.1 item.2) ⟨[], applying.written⟩
            item.1.labelWrites.zipIdx with
        | (writing, some failure) =>
          ({ applying with written := writing.written }, some failure)
        | (writing, none) =>
          ({ applying with
              applied := applying.applied ++
                [⟨item.1.ref, item.1.add, item.1.remove, writing.writes⟩]
              written := writing.written }, none)) := by
  dsimp only
  unfold applyOperation operationSteps carriedOut isWritable readStep
  dsimp only
  by_cases hregistered : isRegistered item.1.repo registered = true
  · rw [hregistered]
    cases hread : answers.getIssue item.2 with
    | error error =>
      cases error with
      | notFound message =>
        exact Or.inl ⟨rfl, rfl, _, rfl, rfl⟩
      | other message => exact Or.inr (Or.inl ⟨rfl, rfl, _, rfl⟩)
    | ok issue =>
      dsimp only
      by_cases hpull : issue.isPullRequest = true
      · refine Or.inl ⟨by simp [hpull], by simp [hpull], ?_⟩
        rw [if_neg (by simp), if_pos hpull]
        exact ⟨_, rfl, rfl⟩
      · by_cases hopen : issue.state = .isOpen
        · by_cases hdrift : driftBetween item.1.observedInputLabels
              (issue.inputLabels.map (·.name)) = []
          · refine Or.inr (Or.inr ⟨by simp [hpull, hopen, hdrift], rfl, ?_⟩)
            rw [if_neg (by simp), if_neg hpull, if_neg (not_not.mpr hopen)]
            exact if_neg (not_not.mpr hdrift)
          · refine Or.inl ⟨by simp [hdrift], by simp [hdrift], ?_⟩
            rw [if_neg (by simp), if_neg hpull, if_neg (not_not.mpr hopen),
              if_pos hdrift]
            exact ⟨_, rfl, rfl⟩
        · refine Or.inl ⟨by simp [hopen], by simp [hopen], ?_⟩
          rw [if_neg (by simp), if_neg hpull, if_pos hopen]
          exact ⟨_, rfl, rfl⟩
  · rw [Bool.not_eq_true] at hregistered
    rw [hregistered]
    exact Or.inl ⟨rfl, rfl, _, rfl, rfl⟩

/-- The call ends at an operation exactly when one of its steps fails. -/
theorem applyOperation_isSome (applying : Applying)
    (item : ApplySteeringOperation × ℕ) :
    (applyOperation answers registered applying item).2.isSome
      = (operationSteps answers registered item).any (·.stops) := by
  obtain ⟨-, hsteps, entry, -, hresult⟩ | ⟨-, hsteps, failure, hresult⟩ |
    ⟨hout, hread, hresult⟩ := applyOperation_spec applying item
  · rw [hresult, hsteps]
    rfl
  · rw [hresult, hsteps]
    rfl
  · obtain ⟨hregistered, hwritable⟩ := Bool.and_eq_true_iff.mp hout
    have hlabels := Halting.run_isSome (@writeLabel_isSome answers item.1 item.2)
      ⟨[], applying.written⟩ item.1.labelWrites.zipIdx
    rw [hresult, operationSteps, if_pos hregistered, if_pos hwritable, List.any_cons,
      hread, Bool.false_or, List.any_map]
    refine Eq.trans ?_ hlabels
    cases hrun : Halting.run (writeLabel answers item.1 item.2) ⟨[], applying.written⟩
        item.1.labelWrites.zipIdx with
    | mk writing failure =>
      cases failure with
      | none => rfl
      | some failure => rfl

/-- What GitHub does about an operation. -/
theorem written_applyOperation (applying : Applying)
    (item : ApplySteeringOperation × ℕ) :
    (applyOperation answers registered applying item).1.written
      = applying.written ++ takenOf answers registered item := by
  unfold takenOf
  obtain ⟨hout, -, entry, -, hresult⟩ | ⟨hout, -, failure, hresult⟩ |
    ⟨hout, -, hresult⟩ := applyOperation_spec applying item
  · rw [hresult, hout, if_neg Bool.false_ne_true, List.append_nil]
  · rw [hresult, hout, if_neg Bool.false_ne_true, List.append_nil]
  · have hlog := @Halting.run_log _ _ _ _ _ _ Writing.written _
      (@writeLabel_isSome answers item.1 item.2) written_writeLabel ⟨[], applying.written⟩ item.1.labelWrites.zipIdx
    rw [hresult, hout, if_pos rfl]
    cases hrun : Halting.run (writeLabel answers item.1 item.2) ⟨[], applying.written⟩
        item.1.labelWrites.zipIdx with
    | mk writing failure =>
      rw [hrun] at hlog
      cases failure with
      | none => exact hlog
      | some failure => exact hlog

/-- What the row says of the applied operations. -/
def Applying.recorded (applying : Applying) :
    List (String × List SteerableLabel × List SteerableLabel) :=
  applying.applied.map fun entry => (entry.ref, entry.add, entry.remove)

/-- The references of what has been skipped. -/
def Applying.skippedRefs (applying : Applying) : List String :=
  applying.skipped.map (·.ref)

/-- An operation that comes to its end is reported as applied or as skipped. -/
theorem reported_applyOperation {applying next : Applying}
    {item : ApplySteeringOperation × ℕ}
    (h : applyOperation answers registered applying item = (next, none)) :
    next.recorded
      = applying.recorded ++
        (if carriedOut answers registered item then
          [(item.1.ref, item.1.add, item.1.remove)] else []) ∧
    next.skippedRefs
      = applying.skippedRefs ++
        (if carriedOut answers registered item then []
          else [item.1.ref]) := by
  obtain ⟨hout, -, entry, href, hresult⟩ | ⟨-, -, failure, hresult⟩ |
    ⟨hout, -, hresult⟩ := applyOperation_spec applying item
  · rw [hresult] at h
    obtain rfl := (Prod.ext_iff.mp h).1
    rw [hout, if_neg Bool.false_ne_true, if_neg Bool.false_ne_true,
      List.append_nil, ← href]
    exact ⟨rfl, List.map_append⟩
  · rw [hresult] at h
    cases (Prod.ext_iff.mp h).2
  · rw [hresult] at h
    rw [hout, if_pos rfl, if_pos rfl]
    cases hrun : Halting.run (writeLabel answers item.1 item.2) ⟨[], applying.written⟩
        item.1.labelWrites.zipIdx with
    | mk writing failure =>
      rw [hrun] at h
      cases failure with
      | some failure => cases (Prod.ext_iff.mp h).2
      | none =>
        obtain rfl := (Prod.ext_iff.mp h).1
        rw [List.append_nil]
        exact ⟨List.map_append, rfl⟩

theorem mem_takenLabel {item : (LabelOperation × SteerableLabel) × ℕ}
    {written : WrittenLabel} :
    written ∈ takenLabel answers operation index item ↔
      (labelStep answers index item).done = true ∧
        written = ⟨operation.repo, operation.number, item.1.1, item.1.2⟩ := by
  unfold takenLabel labelStep
  dsimp only
  by_cases hdone : (answers.write index item.2).isDone = true
  · rw [if_pos hdone, List.mem_singleton, and_iff_right hdone]
  · rw [if_neg hdone]
    exact iff_of_false List.not_mem_nil fun h => hdone h.1

/-- What GitHub takes of an operation is confirmed. -/
theorem confirmed_of_mem_takenOf {item : ApplySteeringOperation × ℕ}
    {written : WrittenLabel} (h : written ∈ takenOf answers registered item) :
    Confirmed answers registered item written := by
  unfold takenOf at h
  split at h
  · rename_i hout
    obtain ⟨hregistered, hwritable⟩ := Bool.and_eq_true_iff.mp hout
    obtain ⟨label, hlabel, htaken⟩ := List.mem_flatMap.mp h
    obtain ⟨-, rfl⟩ := mem_takenLabel.mp htaken
    refine ⟨rfl, rfl, ?_, hregistered, ?_⟩
    · have hmem : label.1 ∈ item.1.labelWrites.zipIdx.map Prod.fst :=
        List.mem_map_of_mem (Halting.mem_of_mem_upTo hlabel)
      rwa [List.zipIdx_map_fst] at hmem
    · unfold isWritable at hwritable
      cases hread : answers.getIssue item.2 with
      | error error =>
        rw [hread] at hwritable
        cases hwritable
      | ok issue =>
        rw [hread] at hwritable
        simp only [Bool.and_eq_true, Bool.not_eq_true', decide_eq_true_eq]
          at hwritable
        exact ⟨issue, rfl, hwritable.1.1, hwritable.1.2,
          driftBetween_eq_nil_iff.mp hwritable.2⟩
  · cases h

/-- GitHub takes nothing of an operation when no step it gets to is done. -/
theorem takenOf_eq_nil_iff {item : ApplySteeringOperation × ℕ} :
    takenOf answers registered item = [] ↔
      ∀ step ∈ Halting.upTo (·.stops) (operationSteps answers registered item),
        step.done = false := by
  unfold takenOf operationSteps
  by_cases hregistered : isRegistered item.1.repo registered = true
  · by_cases hwritable : isWritable answers item = true
    · have hread : (readStep answers item).stops = false := by
        unfold isWritable at hwritable
        unfold readStep
        cases hissue : answers.getIssue item.2 with
        | error error =>
          rw [hissue] at hwritable
          cases hwritable
        | ok issue => rfl
      have hout : carriedOut answers registered item = true :=
        Bool.and_eq_true_iff.mpr ⟨hregistered, hwritable⟩
      rw [if_pos hout, if_pos hregistered, if_pos hwritable, Halting.upTo, if_neg (by simp [hread]), Halting.upTo_map,
        List.forall_mem_cons, List.forall_mem_map, takenLabels,
        List.flatMap_eq_nil_iff,
        and_iff_right (show (readStep answers item).done = false from rfl)]
      refine forall₂_congr fun label _ => ?_
      rw [List.eq_nil_iff_forall_not_mem, ← Bool.not_eq_true]
      constructor
      · intro hnone hdone
        exact hnone _ (mem_takenLabel.mpr ⟨hdone, rfl⟩)
      · intro hdone written htaken
        exact hdone (mem_takenLabel.mp htaken).1
    · rw [if_neg (by simp [carriedOut, hwritable]), if_pos hregistered, if_neg hwritable]
      refine iff_of_true rfl fun step hstep => ?_
      obtain rfl := List.mem_singleton.mp (Halting.mem_of_mem_upTo hstep)
      rfl
  · rw [if_neg (by simp [carriedOut, hregistered]), if_neg hregistered]
    exact iff_of_true rfl fun step hstep => absurd hstep List.not_mem_nil

/-! ## All operations -/

theorem applyOperations_isSome :
    (applyOperations answers registered dto).2.isSome
      = (dto.operations.zipIdx.flatMap
          (operationSteps answers registered)).any (·.stops) := by
  unfold applyOperations
  rw [Halting.run_isSome applyOperation_isSome, List.any_flatMap]

theorem written_applyOperations :
    (applyOperations answers registered dto).1.written
      = (Halting.upTo
          (fun item => (operationSteps answers registered item).any (·.stops))
          dto.operations.zipIdx).flatMap (takenOf answers registered) := by
  have hlog := @Halting.run_log _ _ _ _ _ _ Applying.written _
    (@applyOperation_isSome answers registered) written_applyOperation ⟨[], [], []⟩ dto.operations.zipIdx
  exact hlog

/-- GitHub takes nothing of a call when no step it gets to is done. -/
theorem written_eq_nil_iff :
    (applyOperations answers registered dto).1.written = [] ↔
      ∀ step ∈ Halting.upTo (·.stops)
        (dto.operations.zipIdx.flatMap (operationSteps answers registered)),
        step.done = false := by
  rw [written_applyOperations, Halting.upTo_flatMap, List.flatMap_eq_nil_iff]
  simp only [takenOf_eq_nil_iff, List.mem_flatMap]
  constructor
  · rintro h step ⟨item, hitem, hstep⟩
    exact h item hitem step hstep
  · intro h item hitem step hstep
    exact h step ⟨item, hitem, hstep⟩

theorem flatMap_ite_singleton {α β : Type} {p : α → Bool} {f : α → β} {l : List α} :
    (l.flatMap fun a => if p a then [f a] else []) = (l.filter p).map f := by
  induction l with
  | nil => rfl
  | cons a l ih =>
    rw [List.flatMap_cons, ih, List.filter_cons]
    split
    · rfl
    · rfl

/-- What the operations of a call that came to their end are reported as. -/
theorem reported_applyOperations {applying : Applying}
    (h : applyOperations answers registered dto = (applying, none)) :
    applying.recorded
      = (dto.operations.zipIdx.filter (carriedOut answers registered)).map
          (fun item => (item.1.ref, item.1.add, item.1.remove)) ∧
    applying.skippedRefs
      = (dto.operations.zipIdx.filter fun item =>
          !carriedOut answers registered item).map
            (·.1.ref) := by
  constructor
  · have hstep : ∀ (applying : Applying) (item : ApplySteeringOperation × ℕ)
        (next : Applying),
        applyOperation answers registered applying item = (next, none) →
          next.recorded = applying.recorded ++
            if carriedOut answers registered item then
              [(item.1.ref, item.1.add, item.1.remove)] else [] :=
      fun _ _ _ hstep => (reported_applyOperation hstep).1
    rw [Halting.run_collect hstep h, flatMap_ite_singleton]
    rfl
  · have hstep : ∀ (applying : Applying) (item : ApplySteeringOperation × ℕ)
        (next : Applying),
        applyOperation answers registered applying item = (next, none) →
          next.skippedRefs = applying.skippedRefs ++
            if !carriedOut answers registered item then [item.1.ref] else [] := by
      intro applying item next hnext
      rw [(reported_applyOperation hnext).2]
      cases carriedOut answers registered item with
      | true => rfl
      | false => rfl
    rw [Halting.run_collect hstep h, flatMap_ite_singleton]
    rfl

/-- What GitHub took is of some operation. -/
theorem exists_takenOf {applying : Applying} {failure : Option SteeringApplyError}
    (h : applyOperations answers registered dto = (applying, failure))
    {written : WrittenLabel} (hwritten : written ∈ applying.written) :
    ∃ item ∈ dto.operations.zipIdx, written ∈ takenOf answers registered item := by
  have hall := @written_applyOperations answers registered dto
  rw [h] at hall
  dsimp only at hall
  rw [hall] at hwritten
  obtain ⟨item, hitem, htaken⟩ := List.mem_flatMap.mp hwritten
  exact ⟨item, Halting.mem_of_mem_upTo hitem, htaken⟩

/-- What GitHub took of a call whose operations came to their end is recorded. -/
theorem recorded_of_written {applying : Applying}
    (h : applyOperations answers registered dto = (applying, none))
    {written : WrittenLabel} (hwritten : written ∈ applying.written) :
    ∃ entry ∈ applying.recorded, entry.1 = issueRef written.repo written.number ∧
      match written.operation with
      | .add => written.label ∈ entry.2.1
      | .remove => written.label ∈ entry.2.2 := by
  obtain ⟨item, hitem, htaken⟩ := exists_takenOf h hwritten
  have hconfirmed := confirmed_of_mem_takenOf htaken
  have hout : carriedOut answers registered item = true := by
    by_contra hout
    rw [takenOf, if_neg hout] at htaken
    cases htaken
  refine ⟨(item.1.ref, item.1.add, item.1.remove), ?_, ?_, ?_⟩
  · rw [(reported_applyOperations h).1]
    exact List.mem_map_of_mem
      (List.mem_filter.mpr ⟨hitem, hout⟩)
  · rw [hconfirmed.repo, hconfirmed.number]
    rfl
  · have hasked := hconfirmed.asked
    unfold ApplySteeringOperation.labelWrites at hasked
    cases hoperation : written.operation with
    | add => simpa [hoperation] using hasked
    | remove => simpa [hoperation] using hasked

/-! ## The call -/

/-- How a call goes: it is refused, it fails at an operation, or its operations
come to their end. -/
theorem apply_spec :
    (∃ failure, admitted answers dto = .error failure ∧
      apply answers dto actorUserId = ⟨[], [], .error failure⟩) ∨
    (∃ registered applying failure, admitted answers dto = .ok registered ∧
      applyOperations answers registered dto = (applying, some failure) ∧
      apply answers dto actorUserId = ⟨applying.written, [], .error failure⟩) ∨
    ∃ registered applying, admitted answers dto = .ok registered ∧
      applyOperations answers registered dto = (applying, none) ∧
      apply answers dto actorUserId
        = ⟨applying.written,
            if answers.audit.isDone then
              [auditEventOf dto actorUserId (resultOf answers dto applying)] else [],
            if answers.audit = .answered then .ok (resultOf answers dto applying)
              else .error .audit⟩ := by
  unfold apply
  cases hadmitted : admitted answers dto with
  | error failure => exact Or.inl ⟨failure, rfl, rfl⟩
  | ok registered =>
    dsimp only
    cases hrun : applyOperations answers registered dto with
    | mk applying failure =>
      cases failure with
      | some failure =>
        exact Or.inr (Or.inl ⟨registered, applying, failure, rfl, hrun, rfl⟩)
      | none => exact Or.inr (Or.inr ⟨registered, applying, rfl, hrun, rfl⟩)

/-- Whoever is admitted has read the registry. -/
theorem registered_of_admitted (h : admitted answers dto = .ok registered) :
    answers.registered = some registered := by
  unfold admitted at h
  cases hproposed : dto.proposedInstant with
  | none =>
    rw [hproposed] at h
    cases h
  | some proposedAt =>
    rw [hproposed] at h
    dsimp only at h
    split at h
    · cases h
    · cases hregistered : answers.registered with
      | none =>
        rw [hregistered] at h
        cases h
      | some found =>
        rw [hregistered] at h
        rw [Except.ok.inj h]

/-- Every label a call writes is a confirmed one. -/
theorem confirmed_of_written {label : WrittenLabel}
    (h : label ∈ (apply answers dto actorUserId).written) :
    ∃ registered, answers.registered = some registered ∧
      ∃ item ∈ dto.operations.zipIdx, Confirmed answers registered item label := by
  have hof : ∀ registered applying failure,
      admitted answers dto = .ok registered →
      applyOperations answers registered dto = (applying, failure) →
      label ∈ applying.written →
      ∃ registered, answers.registered = some registered ∧
        ∃ item ∈ dto.operations.zipIdx, Confirmed answers registered item label := by
    intro registered applying failure hadmitted hrun hlabel
    obtain ⟨item, hitem, htaken⟩ := exists_takenOf hrun hlabel
    exact ⟨registered, registered_of_admitted hadmitted, item, hitem,
      confirmed_of_mem_takenOf htaken⟩
  obtain ⟨failure, -, happly⟩ | ⟨registered, applying, failure, hadmitted, hrun, happly⟩ |
    ⟨registered, applying, hadmitted, hrun, happly⟩ :=
    @apply_spec answers dto actorUserId
  · rw [happly] at h
    cases h
  · rw [happly] at h
    exact hof registered applying _ hadmitted hrun h
  · rw [happly] at h
    exact hof registered applying _ hadmitted hrun h

/-- A call that returns reports each operation once. -/
theorem reported_apply {result : SteeringApplyResult}
    (h : (apply answers dto actorUserId).ended = .ok result) :
    ∃ carriedOut : ApplySteeringOperation × ℕ → Bool,
      result.applied.map (·.ref)
          = (dto.operations.zipIdx.filter carriedOut).map (·.1.ref) ∧
        result.skipped.map (·.ref)
          = (dto.operations.zipIdx.filter fun item => !carriedOut item).map
              (·.1.ref) := by
  obtain ⟨failure, -, happly⟩ | ⟨registered, applying, failure, -, -, happly⟩ |
    ⟨registered, applying, -, hrun, happly⟩ := @apply_spec answers dto actorUserId
  · rw [happly] at h
    cases h
  · rw [happly] at h
    cases h
  · rw [happly] at h
    dsimp only at h
    split at h
    · rw [← Except.ok.inj h]
      obtain ⟨happlied, hskipped⟩ := reported_applyOperations hrun
      refine ⟨carriedOut answers registered, ?_, hskipped⟩
      have hrefs := congrArg (List.map Prod.fst) happlied
      rw [Applying.recorded, List.map_map, List.map_map] at hrefs
      exact hrefs
    · cases h

/-- A call that was admitted is uninterrupted when nothing was taken where an
operation or the row fails. -/
theorem uninterrupted_iff {applying : Applying} {failure : Option SteeringApplyError}
    (hadmitted : admitted answers dto = .ok registered)
    (hrun : applyOperations answers registered dto = (applying, failure)) :
    Uninterrupted answers dto ↔
      (failure.isSome = true ∨ answers.audit.isDone = false →
        applying.written = []) := by
  have hstops := @applyOperations_isSome answers registered dto
  have hnone := @written_eq_nil_iff answers registered dto
  rw [hrun] at hstops hnone
  dsimp only at hstops hnone
  unfold Uninterrupted applySteps
  rw [← List.any_eq_true, hadmitted, hnone]
  dsimp only
  refine imp_congr ?_ ?_
  · rw [List.any_append, ← hstops, Bool.or_eq_true, List.any_cons, List.any_nil,
      Bool.or_false, Bool.not_eq_true']
  · rw [Halting.upTo_append, List.forall_mem_append, and_iff_left_iff_imp]
    intro _ step hstep
    split at hstep
    · cases hstep
    · obtain rfl := List.mem_singleton.mp (Halting.mem_of_mem_upTo hstep)
      rfl

/-- **Every label is on record exactly when the call is uninterrupted.** -/
theorem audited_iff_uninterrupted :
    (∀ label ∈ (apply answers dto actorUserId).written,
      ∃ event ∈ (apply answers dto actorUserId).auditEvents, event.Records label) ↔
      Uninterrupted answers dto := by
  have hunrecorded : ∀ written : List WrittenLabel,
      (∀ label ∈ written, ∃ event ∈ ([] : List SteeringAuditEvent),
        event.Records label) ↔ written = [] := by
    intro written
    simp [List.eq_nil_iff_forall_not_mem]
  obtain ⟨failure, hadmitted, happly⟩ |
    ⟨registered, applying, failure, hadmitted, hrun, happly⟩ |
    ⟨registered, applying, hadmitted, hrun, happly⟩ :=
    @apply_spec answers dto actorUserId
  · rw [happly, Uninterrupted, applySteps, hadmitted]
    exact iff_of_true (fun label hlabel => nomatch hlabel)
      fun _ step hstep => nomatch hstep
  · rw [happly, uninterrupted_iff hadmitted hrun, hunrecorded]
    exact ⟨fun h _ => h, fun h => h (Or.inl rfl)⟩
  · rw [happly, uninterrupted_iff hadmitted hrun]
    by_cases hdone : answers.audit.isDone = true
    · rw [if_pos hdone, hdone]
      refine iff_of_true (fun label hlabel => ⟨_, List.mem_singleton_self _, ?_⟩)
        fun h => by simp at h
      exact recorded_of_written hrun hlabel
    · rw [if_neg hdone, hunrecorded]
      exact ⟨fun h _ => h, fun h => h (Or.inr (Bool.eq_false_iff.mpr hdone))⟩

/-- **A proposal is carried out on record exactly when no step fails after
GitHub has written a label.** -/
theorem steered_iff_uninterrupted :
    Steered answers dto actorUserId ↔ Uninterrupted answers dto := by
  rw [← @audited_iff_uninterrupted answers dto actorUserId]
  exact ⟨fun h => h.audited, fun h =>
    ⟨fun _ => confirmed_of_written, fun _ => reported_apply, h⟩⟩

end Spec

/-! ## A label that is on no record -/

/-- Two operations, each to take the hold off an issue. -/
def twoReleases : ApplySteering where
  proposalId := "p1"
  proposedAt := "1970-01-01T00:00:00.000Z"
  proposedInstant := some 0
  instruction := "release 7 and 12"
  operations :=
    [⟨⟨"acme", "app"⟩, 7, [], [.hold], ["factory:hold"]⟩,
      ⟨⟨"acme", "app"⟩, 12, [], [.hold], ["factory:hold"]⟩]

/-- The second issue cannot be read for the rate limit. -/
def limitedAfterOne : ApplyAnswers where
  now := 60000
  registered := some [⟨⟨"acme", "app"⟩, none⟩]
  getIssue := fun index =>
    if index = 0 then
      .ok
        { number := 7
          state := .isOpen
          title := "Export"
          body := none
          labels := ["factory:hold"]
          inputLabels := [.hold]
          ignoredLabels := []
          isPullRequest := false }
    else .error (.other "API rate limit exceeded")
  write := fun _ _ => ⟨true, 3, [.answered], false⟩
  enabled := true
  audit := .answered

/-- **A label that is on no record**: the read of the second issue ends the call
after the first has been released. -/
theorem unrecorded_label :
    ¬ ∀ (answers : ApplyAnswers) (dto : ApplySteering) (actorUserId : String),
      Steered answers dto actorUserId := by
  intro h
  have hwritten : ⟨⟨"acme", "app"⟩, 7, .remove, .hold⟩ ∈
      (apply limitedAfterOne twoReleases "operator").written := by decide +kernel
  have hevents : (apply limitedAfterOne twoReleases "operator").auditEvents = [] := by
    decide +kernel
  obtain ⟨event, hevent, -⟩ :=
    (h limitedAfterOne twoReleases "operator").audited _ hwritten
  rw [hevents] at hevent
  cases hevent

end ApplySteering

end Opifex
