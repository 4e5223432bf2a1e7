import Opifex.EscalationDispatcher

/-!
# The lifecycle of one escalation

An escalation a human acknowledged, or one that was resolved, is done with. The
updates of a delivery attempt, of the timeout sweep and of a receipt are by id:
one that lands on such a row makes it outstanding again, and one of an attempt
or of the sweep that lands after a receipt undoes the delivery. These are the
only ways back.

Each of these updates rests on a row its call read before. A pass loads what is
pending, the sweep what is overdue, and neither is closed or confirmed then; a
receipt is looked up without regard to the status. So the lifecycle moves
forward exactly where every such update still finds the row as its call read
it, and no receipt is looked up for a closed one (`forward_iff`).
-/

namespace Opifex

namespace EscalationRow

/-- A human has dealt with it, or nobody needs to any more. -/
def isClosed (escalation : EscalationRow) : Bool := !escalation.isUnresolved

/-- A device confirmed it. -/
def isNotified (escalation : EscalationRow) : Bool :=
  escalation.deliveredAt.isSome

/-- It has to go to a transport, or is with one. -/
def isOwed (escalation : EscalationRow) : Bool :=
  [EscalationStatus.raised, .dispatched, .failed].contains escalation.status

/-- It is with a transport, or has to go to one again. -/
def awaitsDelivery (escalation : EscalationRow) : Bool :=
  [EscalationStatus.dispatched, .failed].contains escalation.status

end EscalationRow

/-- The update leaves the escalation outstanding. -/
def EscalationUpdate.reopens : EscalationUpdate → Bool
  | .acknowledged .. => false
  | _ => true

/-- The update is one of an attempt, or of the timeout sweep. -/
def EscalationUpdate.isOfDelivery : EscalationUpdate → Bool
  | .dispatched .. | .refused _ | .unconfirmed _ => true
  | _ => false

/-- What is written after the sends is the update of an attempt. -/
theorem Attempt.isOfDelivery_update (attempt : Attempt) (receiptId : ℕ)
    (now : Instant) : (attempt.update receiptId now).isOfDelivery = true := by
  unfold Attempt.update
  split
  · rfl
  · dsimp only
    split <;> rfl

theorem EscalationUpdate.reopens_of_isOfDelivery {data : EscalationUpdate}
    (h : data.isOfDelivery = true) : data.reopens = true := by
  cases data with
  | acknowledged => cases h
  | _ => rfl

/-- The statement updates this escalation, by id, in such a way. -/
def EscalationWrite.updates (id : ℕ) (p : EscalationUpdate → Bool) :
    EscalationWrite → Bool
  | .update other data => other == id && p data
  | _ => false

/-! ## One statement -/

section Rows

variable {escalation : EscalationRow} {write : EscalationWrite}

theorem isClosed_apply (data : EscalationUpdate) :
    (data.apply escalation).isClosed = !data.reopens := by
  cases data <;> rfl

/-- No update takes a confirmation back. -/
theorem isNotified_apply (data : EscalationUpdate) (h : escalation.isNotified) :
    (data.apply escalation).isNotified := by
  cases data with
  | delivered => rfl
  | _ => exact h

/-- A closed row stays closed unless an update reopens it. -/
theorem isClosed_onRow (h : escalation.isClosed) :
    (write.onRow escalation).isClosed
      ↔ ¬ write.updates escalation.id EscalationUpdate.reopens := by
  cases write with
  | create row => exact iff_of_true h Bool.false_ne_true
  | update other data =>
    rw [EscalationWrite.onRow, EscalationWrite.updates]
    by_cases hid : escalation.id = other
    · rw [if_pos hid, isClosed_apply, hid, beq_self_eq_true, Bool.true_and,
        Bool.not_eq_true', Bool.not_eq_true]
    · rw [if_neg hid, beq_false_of_ne (Ne.symm hid), Bool.false_and]
      exact iff_of_true h Bool.false_ne_true
  | resolveStale runIds =>
    -- what is resolved is closed too
    refine iff_of_true ?_ Bool.false_ne_true
    rw [EscalationWrite.onRow]
    split_ifs
    · rfl
    · exact h

/-- No statement takes a confirmation back. -/
theorem isNotified_onRow (h : escalation.isNotified) :
    (write.onRow escalation).isNotified := by
  cases write with
  | create row => exact h
  | update other data =>
    rw [EscalationWrite.onRow]
    split_ifs
    · exact isNotified_apply data h
    · exact h
  | resolveStale runIds =>
    rw [EscalationWrite.onRow]
    split_ifs <;> exact h

/-- A confirmed row awaits delivery again after an attempt's update, or the
sweep's, and after nothing else. -/
theorem awaitsDelivery_apply (data : EscalationUpdate)
    (h : (data.apply escalation).isNotified) :
    (data.apply escalation).awaitsDelivery
      ↔ escalation.isNotified ∧ data.isOfDelivery := by
  cases data with
  | dispatched => exact iff_of_true rfl ⟨h, rfl⟩
  | refused => exact iff_of_true rfl ⟨h, rfl⟩
  | unconfirmed => exact iff_of_true rfl ⟨h, rfl⟩
  | delivered => exact iff_of_false Bool.false_ne_true fun h => nomatch h.2
  | acknowledged => exact iff_of_false Bool.false_ne_true fun h => nomatch h.2

theorem settled_onRow
    (h : escalation.isNotified → ¬ escalation.awaitsDelivery) :
    ((write.onRow escalation).isNotified →
        ¬ (write.onRow escalation).awaitsDelivery)
      ↔ (escalation.isNotified →
          ¬ write.updates escalation.id EscalationUpdate.isOfDelivery) := by
  cases write with
  | create row => exact iff_of_true h fun _ => Bool.false_ne_true
  | update other data =>
    rw [EscalationWrite.onRow, EscalationWrite.updates]
    by_cases hid : escalation.id = other
    · rw [if_pos hid, hid, beq_self_eq_true, Bool.true_and]
      constructor
      · intro hsettled hnotified hdelivery
        have hstill := isNotified_apply data hnotified
        exact hsettled hstill
          ((awaitsDelivery_apply data hstill).mpr ⟨hnotified, hdelivery⟩)
      · intro hkept hnotified hawaits
        obtain ⟨hbefore, hdelivery⟩ :=
          (awaitsDelivery_apply data hnotified).mp hawaits
        exact hkept hbefore hdelivery
    · rw [if_neg hid, beq_false_of_ne (Ne.symm hid), Bool.false_and]
      exact iff_of_true h fun _ => Bool.false_ne_true
  | resolveStale runIds =>
    refine iff_of_true ?_ fun _ => Bool.false_ne_true
    rw [EscalationWrite.onRow]
    split_ifs
    · exact fun _ => Bool.false_ne_true
    · exact h

/-- A confirmed row is owed to nobody, as long as no update of an attempt or of
the sweep lands on it. -/
theorem isOwed_onRow (h : escalation.isNotified → ¬ escalation.isOwed)
    (hkept : escalation.isNotified →
      ¬ write.updates escalation.id EscalationUpdate.isOfDelivery) :
    (write.onRow escalation).isNotified → ¬ (write.onRow escalation).isOwed := by
  cases write with
  | create row => exact h
  | update other data =>
    rw [EscalationWrite.updates] at hkept
    rw [EscalationWrite.onRow]
    by_cases hid : escalation.id = other
    · rw [if_pos hid]
      rw [hid, beq_self_eq_true, Bool.true_and] at hkept
      cases data with
      | delivered => exact fun _ => Bool.false_ne_true
      | acknowledged => exact fun _ => Bool.false_ne_true
      | dispatched => exact fun hnotified => absurd rfl (hkept hnotified)
      | refused => exact fun hnotified => absurd rfl (hkept hnotified)
      | unconfirmed => exact fun hnotified => absurd rfl (hkept hnotified)
    · rw [if_neg hid]
      exact h
  | resolveStale runIds =>
    rw [EscalationWrite.onRow]
    split_ifs
    · exact fun _ => Bool.false_ne_true
    · exact h

/-- What a pass loads is open. -/
theorem isClosed_of_isPending (h : escalation.isPending) :
    ¬ escalation.isClosed ∧ escalation.isOwed := by
  have hstatus := ((Bool.and_eq_true _ _).mp h).1
  rw [List.contains_iff_mem, List.mem_pair] at hstatus
  unfold EscalationRow.isClosed EscalationRow.isUnresolved EscalationRow.isOwed
  rcases hstatus with hstatus | hstatus
  · rw [hstatus]
    decide
  · rw [hstatus]
    decide

/-- What the sweep loads is open, and not confirmed. -/
theorem isClosed_of_isOverdue {cutoff : Instant}
    (h : escalation.isOverdue cutoff) :
    ¬ escalation.isClosed ∧ ¬ escalation.isNotified := by
  obtain ⟨hboth, -⟩ := (Bool.and_eq_true _ _).mp h
  obtain ⟨hstatus, hnone⟩ := (Bool.and_eq_true _ _).mp hboth
  unfold EscalationRow.isClosed EscalationRow.isUnresolved
    EscalationRow.isNotified
  rw [beq_iff_eq.mp hstatus, Option.isNone_iff_eq_none.mp hnone]
  decide

/-- A row is created without a confirmation. -/
theorem HandedAction.isNotified_row {action : HandedAction}
    {raisedAt : Instant} (h : action.row raisedAt = .ok escalation) :
    ¬ escalation.isNotified := by
  obtain ⟨summary, detectionSource, rfl⟩ := action.row_eq_ok h
  exact Bool.false_ne_true

end Rows

/-! ## One turn -/

namespace EscalationDesk

/-- The escalation is stored, and is such. -/
def has (id : ℕ) (p : EscalationRow → Bool) (desk : EscalationDesk) : Bool :=
  (desk.escalations.find id).any p

/-- The turn does not reopen the escalation, if it is closed. -/
def KeepsClosed (id : ℕ) (desk : EscalationDesk) (turn : EscalationTurn) :
    Prop :=
  desk.has id EscalationRow.isClosed →
    ¬ (desk.written turn).any
      (EscalationWrite.updates id EscalationUpdate.reopens)

/-- The turn is not the update of an attempt, or of the timeout sweep, on the
escalation, if a device confirmed it. -/
def KeepsNotified (id : ℕ) (desk : EscalationDesk) (turn : EscalationTurn) :
    Prop :=
  desk.has id EscalationRow.isNotified →
    ¬ (desk.written turn).any
      (EscalationWrite.updates id EscalationUpdate.isOfDelivery)

/-- **Done with**: it is closed, does not enter the queue of the dispatcher,
and does not suppress what is raised. -/
structure Over (id : ℕ) (desk : EscalationDesk) : Prop where
  closed : desk.has id EscalationRow.isClosed
  unsent : ∀ escalation ∈ loadPending desk.escalations, escalation.id ≠ id
  unsuppressing : ∀ runId kind escalation,
    existing desk.escalations runId kind = some escalation →
      escalation.id ≠ id

section Turn

variable {id : ℕ} {desk : EscalationDesk} {turn : EscalationTurn}
  {escalation : EscalationRow} {p : EscalationRow → Bool}

theorem has_of_find (h : desk.escalations.find id = some escalation) :
    desk.has id p = p escalation := by
  rw [has, h, Option.any_some]

theorem has_of_mem (h : escalation ∈ desk.escalations.rows) :
    desk.has escalation.id p = p escalation :=
  has_of_find (Table.find_key h)

/-- Being closed is all it takes. -/
theorem over_iff : Over id desk ↔ desk.has id EscalationRow.isClosed := by
  refine ⟨Over.closed, fun hclosed => ⟨hclosed, ?_, ?_⟩⟩
  · rintro escalation hpending rfl
    have hmem := List.mem_of_mem_take hpending
    rw [Preference.mem_rank, List.mem_filter] at hmem
    rw [has_of_mem hmem.1, EscalationRow.isClosed, Bool.not_eq_true'] at hclosed
    -- a pending escalation is raised or failed, and both are outstanding
    have hstatus := (Bool.and_eq_true _ _).mp hmem.2 |>.1
    rw [List.contains_iff_mem, List.mem_pair] at hstatus
    rw [EscalationRow.isUnresolved] at hclosed
    rcases hstatus with hstatus | hstatus <;>
      · rw [hstatus] at hclosed
        exact absurd hclosed (by decide)
  · rintro runId kind escalation hexisting rfl
    obtain ⟨hmem, -, hunresolved⟩ := existing_eq_some hexisting
    rw [has_of_mem hmem, EscalationRow.isClosed, hunresolved] at hclosed
    exact absurd hclosed (by decide)

/-- A row that appears is not confirmed. -/
theorem isNotified_of_appears (hnone : desk.escalations.find id = none)
    (h : (desk.step turn).escalations.find id = some escalation) :
    ¬ escalation.isNotified := by
  obtain ⟨hmem, hid⟩ := Table.find_eq_some.mp h
  replace hmem : escalation ∈ (desk.tableAfter turn).rows := hmem
  rw [tableAfter] at hmem
  cases hwritten : desk.written turn with
  | none =>
    rw [hwritten] at hmem
    exact absurd hid (Table.find_eq_none.mp hnone escalation hmem)
  | some write =>
    rw [hwritten] at hmem
    rcases mem_onTable write hmem with ⟨row, hrow, rfl⟩ | ⟨created, rfl, rfl⟩
    · exact absurd ((key_onRow write).symm.trans hid)
        (Table.find_eq_none.mp hnone row hrow)
    · obtain ⟨place, answer, call, -, -, hwrites⟩ := written_eq_some hwritten
      cases hwrites with
      | create hrow =>
        have hfresh := HandedAction.isNotified_row hrow
        exact hfresh

/-- A closed escalation stays closed exactly when the turn does not reopen
it. -/
theorem closed_step_iff :
    (desk.has id EscalationRow.isClosed →
        (desk.step turn).has id EscalationRow.isClosed)
      ↔ KeepsClosed id desk turn := by
  refine forall_congr' fun hclosed => ?_
  cases hfind : desk.escalations.find id with
  | none =>
    rw [has, hfind] at hclosed
    cases hclosed
  | some escalation =>
    rw [has_of_find hfind] at hclosed
    obtain rfl := (Table.find_eq_some.mp hfind).2
    rw [has_of_find (find_step hfind)]
    cases desk.written turn with
    | none => exact iff_of_true hclosed Bool.false_ne_true
    | some write => exact isClosed_onRow hclosed

theorem notified_step (h : desk.has id EscalationRow.isNotified) :
    (desk.step turn).has id EscalationRow.isNotified := by
  cases hfind : desk.escalations.find id with
  | none =>
    rw [has, hfind] at h
    cases h
  | some escalation =>
    rw [has_of_find hfind] at h
    rw [has_of_find (find_step hfind)]
    cases desk.written turn with
    | none => exact h
    | some write => exact isNotified_onRow h

theorem settled_step_iff
    (h : desk.has id EscalationRow.isNotified →
      ¬ desk.has id EscalationRow.awaitsDelivery) :
    ((desk.step turn).has id EscalationRow.isNotified →
        ¬ (desk.step turn).has id EscalationRow.awaitsDelivery)
      ↔ KeepsNotified id desk turn := by
  cases hfind : desk.escalations.find id with
  | none =>
    refine iff_of_true (fun hnotified => ?_) fun hnotified => ?_
    · cases hafter : (desk.step turn).escalations.find id with
      | none =>
        rw [has, hafter] at hnotified
        cases hnotified
      | some created =>
        rw [has_of_find hafter] at hnotified
        exact absurd hnotified (isNotified_of_appears hfind hafter)
    · rw [has, hfind] at hnotified
      cases hnotified
  | some escalation =>
    rw [has_of_find hfind, has_of_find hfind] at h
    obtain rfl := (Table.find_eq_some.mp hfind).2
    rw [has_of_find (find_step hfind), has_of_find (find_step hfind),
      KeepsNotified, has_of_find hfind]
    cases desk.written turn with
    | none => exact iff_of_true h fun _ => Bool.false_ne_true
    | some write => exact settled_onRow h

end Turn

/-! ## The rows that calls have read -/

end EscalationDesk

namespace EscalationCall

/-- The rows that a pass or the sweep has loaded and not yet written. -/
def held : EscalationCall → List EscalationRow
  | .delivering pending _ => pending
  | .storing escalation _ _ pending _ => escalation :: pending
  | .sweeping overdue _ => overdue
  | _ => []

/-- **The update a call writes next comes in order**: the row is still as the
call read it, neither closed nor confirmed since. A receipt, which is looked up
without regard to the status, was not looked up for a closed row, and the row
was not closed since. -/
def InOrder (now : EscalationRow) : EscalationCall → Prop
  | .storing read _ _ _ _ =>
    now.isClosed = read.isClosed ∧ now.isNotified = read.isNotified
  | .sweeping (read :: _) _ =>
    now.isClosed = read.isClosed ∧ now.isNotified = read.isNotified
  | .confirming read _ _ =>
    read.isClosed = false ∧ now.isClosed = read.isClosed
  | _ => True

end EscalationCall

namespace EscalationDesk

/-- Every update of the escalation by id comes in order. -/
def InOrder (id : ℕ) (desk : EscalationDesk) (turn : EscalationTurn) : Prop :=
  ∀ place answer call now, turn = .resume place answer →
    desk.calls[place]? = some call →
    (desk.written turn).any (EscalationWrite.updates id fun _ => true) →
    desk.escalations.find id = some now → call.InOrder now

/-- What calls have loaded of the escalation was open then and not confirmed,
and it is owed to nobody once it is confirmed; what a receipt looked up as
closed is closed. -/
structure ReadOpen (id : ℕ) (desk : EscalationDesk) : Prop where
  settled : desk.has id EscalationRow.isNotified →
    ¬ desk.has id EscalationRow.isOwed
  held : ∀ call ∈ desk.calls, ∀ read ∈ call.held, read.id = id →
    read.isClosed = false ∧ read.isNotified = false
  confirming : ∀ read receiptId deliveredAt,
    .confirming read receiptId deliveredAt ∈ desk.calls → read.id = id →
      read.isClosed → desk.has id EscalationRow.isClosed

section Order

variable {id : ℕ} {desk : EscalationDesk} {turn : EscalationTurn}

theorem readOpen_opened : ReadOpen id opened where
  settled := fun h => absurd h Bool.false_ne_true
  held := fun _ hcall => absurd hcall List.not_mem_nil
  confirming := fun _ _ _ hcall => absurd hcall List.not_mem_nil

/-- Which rows are there to be loaded. -/
theorem ReadOpen.of_mem (h : ReadOpen id desk) {read : EscalationRow}
    (hmem : read ∈ desk.escalations.rows) (hid : read.id = id)
    (howed : read.isOwed) : read.isNotified = false := by
  subst hid
  have hsettled := h.settled
  rw [has_of_mem hmem, has_of_mem hmem] at hsettled
  exact Bool.eq_false_iff.mpr fun hnotified => hsettled hnotified howed

/-- **What is loaded is open and not confirmed**, by the guards of the two
queries; what is carried on was loaded before. -/
theorem held_continues (h : ReadOpen id desk) {token : ℕ}
    {answer : DeskAnswer} {before after : EscalationCall}
    (hmem : before ∈ desk.calls)
    (hcontinues : EscalationCall.Continues desk.escalations token answer before
      after) {read : EscalationRow} (hread : read ∈ after.held)
    (hid : read.id = id) :
    read.isClosed = false ∧ read.isNotified = false := by
  have hcarried : read ∈ before.held →
      read.isClosed = false ∧ read.isNotified = false :=
    fun hbefore => h.held before hmem read hbefore hid
  cases hcontinues with
  | load now =>
    have hloaded := List.mem_of_mem_take hread
    rw [Preference.mem_rank, List.mem_filter] at hloaded
    obtain ⟨hopen, howed⟩ := isClosed_of_isPending hloaded.2
    exact ⟨Bool.eq_false_iff.mpr hopen, h.of_mem hloaded.1 hid howed⟩
  | sent now =>
    obtain ⟨-, hoverdue⟩ := List.mem_filter.mp hread
    obtain ⟨hopen, hunconfirmed⟩ := isClosed_of_isOverdue hoverdue
    exact ⟨Bool.eq_false_iff.mpr hopen, Bool.eq_false_iff.mpr hunconfirmed⟩
  | send escalation pending now => exact hcarried hread
  | stored escalation receiptId attempt pending now =>
    exact hcarried (List.mem_cons_of_mem _ hread)
  | swept escalation overdue timeoutMs =>
    exact hcarried (List.mem_cons_of_mem _ hread)
  | suppress => exact absurd hread List.not_mem_nil
  | create => exact absurd hread List.not_mem_nil
  | created => exact absurd hread List.not_mem_nil
  | found => exact absurd hread List.not_mem_nil
  | read => exact absurd hread List.not_mem_nil
  | acknowledging => exact absurd hread List.not_mem_nil

theorem readOpen_step (h : ReadOpen id desk)
    (hclosed : KeepsClosed id desk turn) (hkept : KeepsNotified id desk turn) :
    ReadOpen id (desk.step turn) where
  settled := by
    cases hfind : desk.escalations.find id with
    | none =>
      intro hnotified
      cases hafter : (desk.step turn).escalations.find id with
      | none =>
        rw [has, hafter] at hnotified
        cases hnotified
      | some created =>
        rw [has_of_find hafter] at hnotified
        exact absurd hnotified (isNotified_of_appears hfind hafter)
    | some escalation =>
      have hsettled := h.settled
      rw [has_of_find hfind, has_of_find hfind] at hsettled
      rw [KeepsNotified, has_of_find hfind] at hkept
      obtain rfl := (Table.find_eq_some.mp hfind).2
      rw [has_of_find (find_step hfind), has_of_find (find_step hfind)]
      cases hwritten : desk.written turn with
      | none => exact hsettled
      | some write =>
        rw [hwritten] at hkept
        exact isOwed_onRow hsettled hkept
  held call hcall read hread hid := by
    obtain hcall | ⟨request, -, rfl⟩ | ⟨place, answer, before, -, hbefore,
      hcontinues⟩ := mem_calls_step hcall
    · exact h.held call hcall read hread hid
    · cases request with
      | _ => exact absurd hread List.not_mem_nil
    · exact held_continues h (List.mem_of_getElem? hbefore) hcontinues hread hid
  confirming read receiptId deliveredAt hcall hid hread := by
    refine closed_step_iff.mpr hclosed ?_
    obtain hcall | ⟨request, -, hstarted⟩ | ⟨place, answer, before, -, hbefore,
      hcontinues⟩ := mem_calls_step hcall
    · exact h.confirming read receiptId deliveredAt hcall hid hread
    · cases request with
      | _ => cases hstarted
    · cases hcontinues with
      | read hfind hopen =>
        obtain rfl := (Table.find_eq_some.mp hfind).2
        subst hid
        exact (has_of_find hfind).trans hread

theorem updates_update {p : EscalationUpdate → Bool} {other : ℕ}
    {data : EscalationUpdate} :
    (EscalationWrite.update other data).updates id p = true
      ↔ other = id ∧ p data = true := by
  rw [EscalationWrite.updates, Bool.and_eq_true, beq_iff_eq]

/-- An update of an attempt or of the sweep keeps what is done with exactly
where the row is still as it was loaded. -/
theorem keeps_delivery_iff {now read : EscalationRow} {data : EscalationUpdate}
    (hread : read.isClosed = false ∧ read.isNotified = false)
    (hid : read.id = id) (hdata : data.isOfDelivery = true) :
    ((now.isClosed → ¬ (EscalationWrite.update read.id data).updates id
          EscalationUpdate.reopens)
        ∧ (now.isNotified → ¬ (EscalationWrite.update read.id data).updates id
          EscalationUpdate.isOfDelivery))
      ↔ now.isClosed = read.isClosed ∧ now.isNotified = read.isNotified := by
  rw [hread.1, hread.2, updates_update, updates_update]
  constructor
  · rintro ⟨hclosed, hnotified⟩
    exact ⟨Bool.eq_false_iff.mpr fun h => hclosed h
        ⟨hid, EscalationUpdate.reopens_of_isOfDelivery hdata⟩,
      Bool.eq_false_iff.mpr fun h => hnotified h ⟨hid, hdata⟩⟩
  · rintro ⟨hclosed, hnotified⟩
    rw [hclosed, hnotified]
    exact ⟨fun h => absurd h Bool.false_ne_true,
      fun h => absurd h Bool.false_ne_true⟩

/-- The update of a receipt keeps what is closed exactly where it was looked up
as open and was not closed since. -/
theorem keeps_receipt_iff {now read : EscalationRow} {receiptId : ℕ}
    {deliveredAt : Instant} {latency : Option ℤ} (hid : read.id = id)
    (hread : read.isClosed → now.isClosed) :
    ((now.isClosed → ¬ (EscalationWrite.update read.id
          (.delivered "push" receiptId deliveredAt latency)).updates id
            EscalationUpdate.reopens)
        ∧ (now.isNotified → ¬ (EscalationWrite.update read.id
          (.delivered "push" receiptId deliveredAt latency)).updates id
            EscalationUpdate.isOfDelivery))
      ↔ read.isClosed = false ∧ now.isClosed = read.isClosed := by
  rw [updates_update, updates_update]
  constructor
  · rintro ⟨hclosed, -⟩
    have hopen : now.isClosed = false :=
      Bool.eq_false_iff.mpr fun h => hclosed h ⟨hid, rfl⟩
    have hopen' : read.isClosed = false :=
      Bool.eq_false_iff.mpr fun h => by
        rw [hread h] at hopen
        cases hopen
    exact ⟨hopen', hopen.trans hopen'.symm⟩
  · rintro ⟨hopen, hsame⟩
    rw [hsame, hopen]
    exact ⟨fun h => absurd h Bool.false_ne_true, fun _ h => by cases h.2⟩

/-- **A turn keeps what is done with exactly when its update comes in order**,
given what its call had read. -/
theorem keeps_iff_inOrder (h : ReadOpen id desk) :
    KeepsClosed id desk turn ∧ KeepsNotified id desk turn
      ↔ InOrder id desk turn := by
  unfold KeepsClosed KeepsNotified InOrder
  cases hwritten : desk.written turn with
  | none =>
    exact iff_of_true ⟨fun _ => Bool.false_ne_true, fun _ => Bool.false_ne_true⟩
      fun _ _ _ _ _ _ hany => absurd hany Bool.false_ne_true
  | some write =>
    rw [Option.any_some, Option.any_some, Option.any_some]
    cases hfind : desk.escalations.find id with
    | none =>
      rw [has, has, hfind]
      exact iff_of_true ⟨fun h => absurd h Bool.false_ne_true,
        fun h => absurd h Bool.false_ne_true⟩
        fun _ _ _ _ _ _ _ hnow => absurd hnow.symm (Option.some_ne_none _)
    | some now =>
      rw [has_of_find hfind, has_of_find hfind]
      obtain ⟨place, answer, call, rfl, hcall, hwrites⟩ :=
        written_eq_some hwritten
      have hmem := List.mem_of_getElem? hcall
      -- what the turn writes is the update of the call it resumes
      have hresume : (∀ place' answer' call' now',
            EscalationTurn.resume place answer = .resume place' answer' →
            desk.calls[place']? = some call' →
            write.updates id (fun _ => true) = true →
            some now = some now' → call'.InOrder now')
          ↔ (write.updates id (fun _ => true) = true → call.InOrder now) := by
        constructor
        · exact fun h hupdates =>
            h place answer call now rfl hcall hupdates rfl
        · rintro h place' answer' call' now' hturn hcall' hupdates hnow
          cases hturn
          cases hnow
          rw [hcall] at hcall'
          cases hcall'
          exact h hupdates
      rw [hresume]
      cases hwrites with
      | resolve hrecovered =>
        exact iff_of_true ⟨fun _ => Bool.false_ne_true,
          fun _ => Bool.false_ne_true⟩ fun _ => trivial
      | create hrow actions recovered =>
        exact iff_of_true ⟨fun _ => Bool.false_ne_true,
          fun _ => Bool.false_ne_true⟩ fun _ => trivial
      | acknowledge other userId =>
        refine iff_of_true ⟨fun _ => ?_, fun _ => ?_⟩ fun _ => trivial
        · rw [updates_update]
          exact fun h => absurd h.2 Bool.false_ne_true
        · rw [updates_update]
          exact fun h => absurd h.2 Bool.false_ne_true
      | store read receiptId attempt pending moment =>
        by_cases hid : read.id = id
        · rw [keeps_delivery_iff
            (h.held _ hmem read List.mem_cons_self hid) hid
            (attempt.isOfDelivery_update receiptId moment), updates_update]
          exact ⟨fun horder _ => horder, fun horder => horder ⟨hid, rfl⟩⟩
        · rw [updates_update, updates_update, updates_update]
          exact iff_of_true ⟨fun _ h => hid h.1, fun _ h => hid h.1⟩
            fun h => absurd h.1 hid
      | sweep read overdue timeoutMs =>
        by_cases hid : read.id = id
        · rw [keeps_delivery_iff
            (h.held _ hmem read List.mem_cons_self hid) hid rfl,
            updates_update]
          exact ⟨fun horder _ => horder, fun horder => horder ⟨hid, rfl⟩⟩
        · rw [updates_update, updates_update, updates_update]
          exact iff_of_true ⟨fun _ h => hid h.1, fun _ h => hid h.1⟩
            fun h => absurd h.1 hid
      | confirm hfits receiptId =>
        rename_i read deliveredAt
        by_cases hid : read.id = id
        · have hread : read.isClosed → now.isClosed := by
            have hclosed := h.confirming read receiptId deliveredAt hmem hid
            rw [has_of_find hfind] at hclosed
            exact hclosed
          rw [keeps_receipt_iff hid hread, updates_update]
          exact ⟨fun horder _ => horder, fun horder => horder ⟨hid, rfl⟩⟩
        · rw [updates_update, updates_update, updates_update]
          exact iff_of_true ⟨fun _ h => hid h.1, fun _ h => hid h.1⟩
            fun h => absurd h.1 hid

end Order

/-! ## Runs -/

/-- **The lifecycle of an escalation never moves backwards**, in any state of a
run. -/
structure Forward (id : ℕ) (turns : List EscalationTurn) : Prop where
  closed : Machine.Thereafter step
    (fun desk => desk.has id EscalationRow.isClosed) (Over id) opened turns
  notified : Machine.Thereafter step
    (fun desk => desk.has id EscalationRow.isNotified)
    (fun desk => ¬ desk.has id EscalationRow.awaitsDelivery) opened turns

/-- The lifecycle moves forward exactly along the runs whose turns keep what is
done with. -/
theorem forward_iff_keeps (id : ℕ) (turns : List EscalationTurn) :
    Forward id turns
      ↔ Machine.Always step
          (fun desk turn => KeepsClosed id desk turn
            ∧ KeepsNotified id desk turn) opened turns := by
  have hclosed : Machine.Thereafter step
        (fun desk => desk.has id EscalationRow.isClosed) (Over id) opened turns
      ↔ Machine.Always step (KeepsClosed id) opened turns := by
    rw [show Over id = fun desk => (desk.has id EscalationRow.isClosed : Prop)
      from funext fun desk => propext over_iff, Machine.thereafter_self_iff]
    exact Machine.always_congr fun _ _ => closed_step_iff
  have hnotified : Machine.Thereafter step
        (fun desk => desk.has id EscalationRow.isNotified)
        (fun desk => ¬ desk.has id EscalationRow.awaitsDelivery) opened turns
      ↔ Machine.Always step (KeepsNotified id) opened turns := by
    have hopened : opened.has id EscalationRow.isNotified →
        ¬ opened.has id EscalationRow.awaitsDelivery := fun h => nomatch h
    rw [Machine.thereafter_iff_always fun _ _ => notified_step]
    exact (and_iff_right hopened).trans
      (Machine.always_iff_of_invariant
        (fun desk : EscalationDesk => desk.has id EscalationRow.isNotified →
          ¬ desk.has id EscalationRow.awaitsDelivery)
        (fun _ _ => settled_step_iff) hopened turns)
  rw [Machine.always_and_iff, ← hclosed, ← hnotified]
  exact ⟨fun h => ⟨h.closed, h.notified⟩, fun h => ⟨h.1, h.2⟩⟩

/-- **The lifecycle of an escalation moves forward in exactly the
interleavings** in which each update of an attempt, of the timeout sweep or of a
receipt finds the row as its call read it, and no receipt is looked up once it
is closed. -/
theorem forward_iff (id : ℕ) (turns : List EscalationTurn) :
    Forward id turns ↔ Machine.Always step (InOrder id) opened turns := by
  rw [forward_iff_keeps]
  exact Machine.always_congr_of_keeps
    (fun _ _ h hkeeps => readOpen_step h hkeeps.1 hkeeps.2)
    (fun _ _ h => keeps_iff_inOrder h) readOpen_opened

/-! ## A way back -/

/-- A run is found silent. -/
def stallFound : HandedAction where
  type := .escalate
  repository := some "acme/site"
  issueNumber := some 12
  reason := "no events for 95 minutes"
  evidence := some ⟨.running, [], some "WO-0012", none, [], []⟩
  runId := some 1
  escalationKind := some .runStalled
  progressStoppedAt := some 0
  detectionSource := some "runner"

/-- A tick raises what it found. -/
def raise (actions : List HandedAction) : List EscalationTurn :=
  .start (.raiseEscalations actions [1]) ::
    List.replicate (2 * actions.length + 1) (.resume 0 {})

/-- A push service takes the payload. -/
def took : DeskAnswer := { attempt := ⟨true, [⟨true, none, some 201⟩], none⟩ }

/-- A pass sends one escalation, and a push service takes it. -/
def sendOne (now : Instant) : List EscalationTurn :=
  [.start (.dispatchPending now), .resume 0 {}, .resume 0 took, .resume 0 {},
    .resume 0 {}, .resume 0 {}]

/-- An operator acknowledges the escalation, unhindered. -/
def acknowledgeOne : List EscalationTurn :=
  [.start (.acknowledge 0 7), .resume 0 {}, .resume 0 {}]

/-- A device posts this token, unhindered. -/
def receive (receiptId : ℕ) (arrivedAt : Instant) : List EscalationTurn :=
  [.start (.recordReceipt receiptId arrivedAt), .resume 0 {}, .resume 0 {},
    .resume 0 {}]

/-- **The phone shows the notification after the operator acknowledged it in
the cockpit**: the escalation is outstanding again. No two calls overlap
here. -/
theorem reopened_by_receipt :
    ¬ Forward 0 (raise [stallFound] ++ sendOne 1000 ++ acknowledgeOne
      ++ receive 0 2000) := by
  intro h
  have hover := h.closed (raise [stallFound] ++ sendOne 1000 ++ acknowledgeOne)
    (receive 0 2000) [] (List.append_nil _).symm (by decide)
  exact absurd hover.closed (by decide)

end EscalationDesk

end Opifex
