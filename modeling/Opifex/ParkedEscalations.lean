import Opifex.ApprovalDesk

/-!
# A parked request raises one escalation

Raising an escalation and pointing the request at it are two writes in two
tables, and the backfill repairs what is left between them: it looks for an
escalation that carries the request's marker, and raises one if there is none.
The look and the raise are two statements too, so an escalation that another
call raises in between is not seen, and the same question is asked twice.

The desk is watched here: next to it stands the list of the requests that
escalations were raised about while they were open. A request is told of once
along a run exactly when every raise finds its question as the call last saw
it, and a pass that completes without a failure leaves every request in its
window pointed at its escalation exactly when those over the limit have been
repaired in the meantime.
-/

namespace Opifex

/-- An escalation that a call is about to raise for a parked request, after it found
that there was none. -/
structure ParkedRaise where
  approvalId : ℕ
  /-- How many escalations there were when there was none for the request. -/
  seen : ℕ
  summary : String
  detail : String

namespace ApprovalCall

/-- What the next statement of a call raises. -/
def raise (idText : ℕ → String) : ApprovalCall → Option ParkedRaise
  | .escalating approvalId input noGrantDetail seen =>
    some
      { approvalId := approvalId
        seen := seen
        summary := "Approval parked, waiting on a human: " ++ input.summary
        detail :=
          parkedEscalationDetail idText approvalId input.reasoning
            input.blastRadius ("Grant: " ++ noGrantDetail ++ "\n") }
  | .reraising approval seen pass =>
    some
      { approvalId := approval.id
        seen := seen
        summary := "Approval parked, waiting on a human: " ++ approval.summary
        detail :=
          parkedEscalationDetail idText approval.id approval.reasoning
            approval.blastRadius (lateNotice approval.createdAt pass.now) }
  | _ => none

/-- The request the next statement of a call points at an escalation. -/
def links : ApprovalCall → Option (ℕ × ℕ)
  | .linking approvalId escalationId => some (approvalId, escalationId)
  | .relinking approval escalationId _ _ => some (approval.id, escalationId)
  | _ => none

end ApprovalCall

/-- The desk, with the requests that were told of while they were open. The list is
ghost: no row says when it was raised. -/
structure WatchedDesk extends ApprovalDesk where
  told : List ℕ := []

namespace WatchedDesk

section Properties

variable (idText : ℕ → String)

/-- The open requests whose marker an escalation carries. -/
def about (desk : ApprovalDesk) (escalation : EscalationRow) : List ℕ :=
  (desk.approvals.rows.filter fun row =>
    row.isOpen && escalation.carries idText row.id).map (·.id)

/-- One turn, and whom it told of. -/
def step (desk : WatchedDesk) (turn : ApprovalTurn) : WatchedDesk :=
  let after := desk.toApprovalDesk.step idText turn
  { toApprovalDesk := after
    told :=
      desk.told ++
        (after.escalations.rows.drop desk.escalations.rows.length).flatMap
          (about idText desk.toApprovalDesk) }

/-- A desk on which nothing has happened yet. -/
def opened (grants : Table TrustGrantRow) (escalations : Table EscalationRow) :
    WatchedDesk where
  toApprovalDesk := .opened grants escalations

/-- **Told of once**: after the turn, no request was told of twice while it was
open. -/
def ToldOnce (desk : WatchedDesk) (turn : ApprovalTurn) : Prop :=
  (desk.step idText turn).told.Nodup

/-- **Repaired**: a pass that completes without a failure leaves every request
that was in its window, and still waits for a person, pointed at an escalation
that carries its marker. -/
def Repaired (desk : WatchedDesk) (turn : ApprovalTurn) : Prop :=
  ∀ id error clock pass, turn = .resume id error clock →
    desk.calls[id]? = some (.lookingUp pass) → pass.left = [] →
      pass.result.failed = 0 → ∀ approval ∈ pass.stale,
        ∀ row ∈ desk.approvals.rows, row.id = approval.id →
          row.status = .parked → ∃ escalation ∈ desk.escalations.rows,
            row.escalationId = some escalation.id
              ∧ escalation.carries idText row.id

/-- **Undisturbed**: the escalation a statement raises is the first about its
request since the call found none, and quotes the marker of no other open
request that was told of. -/
def Undisturbed (desk : WatchedDesk) (turn : ApprovalTurn) : Prop :=
  ∀ id clock call raise, turn = .resume id none clock →
    desk.calls[id]? = some call → call.raise idText = some raise →
      ∀ row ∈ desk.approvals.rows, row.isOpen →
        if row.id = raise.approvalId then
          ∀ escalation ∈ desk.escalations.rows, raise.seen ≤ escalation.id →
            escalation.carries idText row.id = false
        else
          row.id ∈ desk.told →
            (systemEscalation raise.summary raise.detail clock
              desk.escalations.next).carries idText row.id = false

/-- **Within the limit**: when a pass completes without a failure, no request
that was over its limit waits without an escalation. -/
def WithinLimit (desk : WatchedDesk) (turn : ApprovalTurn) : Prop :=
  ∀ id error clock pass, turn = .resume id error clock →
    desk.calls[id]? = some (.lookingUp pass) → pass.left = [] →
      pass.result.failed = 0 →
        ∀ approval ∈ pass.stale.drop parkedBackfillBatchLimit,
          ∀ row ∈ desk.approvals.rows, row.id = approval.id →
            row.isUnescalated = false

end Properties

/-! ## What a statement raises -/

section Raising

variable {idText : ℕ → String} {desk : ApprovalDesk} {error : Option String}
  {clock : Instant} {call : ApprovalCall}

/-- What is raised carries the marker of the request it is about. -/
theorem carries_raise {raise : ParkedRaise}
    (h : call.raise idText = some raise) (clock : Instant) (id : ℕ) :
    (systemEscalation raise.summary raise.detail clock id).carries idText
      raise.approvalId := by
  have hdetail : ∃ intro : String, raise.detail
      = intro ++ parkedApprovalMarker idText raise.approvalId := by
    cases call with
    | escalating approvalId input noGrantDetail seen =>
      cases h
      exact ⟨_, rfl⟩
    | reraising approval seen pass =>
      cases h
      exact ⟨_, rfl⟩
    | _ => cases h
  obtain ⟨intro, hintro⟩ := hdetail
  show decide ((parkedApprovalMarker idText raise.approvalId).toList
    <:+: raise.detail.toList) = true
  rw [decide_eq_true_iff, hintro, String.toList_append]
  exact (List.suffix_append _ _).isInfix

/-- **What a statement of a call can do to the escalations**: raise the one it
is about to raise. -/
theorem escalations_proceed :
    (∃ raise, error = none ∧ call.raise idText = some raise
        ∧ (desk.proceed idText error clock call).1.escalations
          = desk.escalations.insert
            (systemEscalation raise.summary raise.detail clock) fun _ => rfl)
      ∨ (error ≠ none ∨ call.raise idText = none)
        ∧ (desk.proceed idText error clock call).1.escalations
          = desk.escalations := by
  cases call with
  | escalating approvalId input noGrantDetail seen =>
    cases error with
    | some error => exact Or.inr ⟨Or.inl nofun, rfl⟩
    | none => exact Or.inl ⟨_, rfl, rfl, rfl⟩
  | reraising approval seen pass =>
    cases error with
    | some error => exact Or.inr ⟨Or.inl nofun, rfl⟩
    | none => exact Or.inl ⟨_, rfl, rfl, rfl⟩
  | sweeping due now result =>
    refine Or.inr ⟨Or.inr rfl, ?_⟩
    cases due with
    | nil => rfl
    | cons due left =>
      dsimp only [ApprovalDesk.proceed]
      repeat' split
      all_goals rfl
  | done outcome => exact Or.inr ⟨Or.inr rfl, rfl⟩
  | _ =>
    refine Or.inr ⟨Or.inr rfl, ?_⟩
    dsimp only [ApprovalDesk.proceed]
    repeat' split
    all_goals rfl

end Raising

/-! ## What a statement does to a request -/

section Touching

variable {desk after : ApprovalDesk} {call : ApprovalCall}
  {row row' : ApprovalRow}

/-- No statement opens a request, takes its pointer away, or sets one that is
not the call's to set. -/
structure Touched (call : ApprovalCall) (row row' : ApprovalRow) : Prop where
  id : row'.id = row.id
  isOpen : row'.isOpen → row.isOpen
  isUnescalated : row'.isUnescalated → row.isUnescalated
  pointer : row'.escalationId = row.escalationId
    ∨ ∃ escalationId, call.links = some (row.id, escalationId)
      ∧ row'.escalationId = some escalationId

theorem touched_refl : Touched call row row :=
  ⟨rfl, fun h => h, fun h => h, Or.inl rfl⟩

theorem touched_answer (input : DecideApprovalInput) (now : Instant) :
    Touched call row (row.answer input now) := by
  unfold ApprovalRow.answer
  by_cases hopen : row.isOpen
  · rw [if_pos hopen]
    refine ⟨rfl, fun _ => hopen, fun h => ?_, Or.inl rfl⟩
    cases hdecision : input.decision with
    | approve =>
      rw [ApprovalRow.isUnescalated, hdecision] at h
      cases h
    | deny =>
      rw [ApprovalRow.isUnescalated, hdecision] at h
      cases h
  · rw [if_neg hopen]
    exact touched_refl

theorem touched_timeOut (due : ApprovalRow) (now : Instant) :
    Touched call row (due.timeOut now row) := by
  unfold ApprovalRow.timeOut
  by_cases hpending : row.status = .pending
  · rw [if_pos hpending]
    refine ⟨rfl, fun _ => ?_, fun h => ?_, Or.inl rfl⟩
    · rw [ApprovalRow.isOpen, hpending]
      rfl
    · cases hpolicy : due.timeoutPolicy <;>
      · rw [ApprovalRow.isUnescalated, hpolicy] at h
        cases h
  · rw [if_neg hpending]
    exact touched_refl

theorem touched_supersede (reason : String) (now : Instant) :
    Touched call row (row.supersede reason now) := by
  unfold ApprovalRow.supersede
  by_cases hopen : row.isOpen
  · rw [if_pos hopen]
    exact ⟨rfl, fun _ => hopen, fun h => (nomatch h), Or.inl rfl⟩
  · rw [if_neg hopen]
    exact touched_refl

theorem isUnescalated_link (escalationId : ℕ) :
    (row.link escalationId).isUnescalated = false := by
  unfold ApprovalRow.link
  by_cases h : row.isUnescalated
  · rw [if_pos h]
    exact Bool.and_false _
  · rw [if_neg h]
    exact Bool.eq_false_of_not_eq_true h

theorem touched_link {escalationId : ℕ}
    (h : call.links = some (row.id, escalationId)) :
    Touched call row (row.link escalationId) := by
  refine ⟨id_link _, fun hopen => ?_, fun hwaiting => ?_, ?_⟩
  · unfold ApprovalRow.link at hopen
    by_cases hwaiting : row.isUnescalated
    · rw [if_pos hwaiting] at hopen
      exact hopen
    · rw [if_neg hwaiting] at hopen
      exact hopen
  · rw [isUnescalated_link] at hwaiting
    cases hwaiting
  · unfold ApprovalRow.link
    by_cases hwaiting : row.isUnescalated
    · rw [if_pos hwaiting]
      exact Or.inr ⟨escalationId, h, rfl⟩
    · rw [if_neg hwaiting]
      exact Or.inl rfl

theorem touched_recordGrant (grantId : ℕ) :
    Touched call row (row.recordGrant grantId) :=
  ⟨rfl, fun h => h, fun h => h, Or.inl rfl⟩

/-- Where the rows of a table that one was updated in come from. -/
theorem origin_update {id : ℕ} {f : ApprovalRow → ApprovalRow}
    {hf : ∀ row, (f row).id = row.id}
    (h : after.approvals = (desk.update id f hf).approvals)
    (hf' : ∀ row ∈ desk.approvals.rows, row.id = id →
      Touched call row (f row)) (hrow' : row' ∈ after.approvals.rows) :
    ∃ row ∈ desk.approvals.rows, Touched call row row' := by
  rw [h] at hrow'
  obtain ⟨row, hrow, rfl⟩ := (Table.mem_modify hf).mp hrow'
  refine ⟨row, hrow, ?_⟩
  by_cases hid : row.id = id
  · rw [if_pos (beq_iff_eq.mpr hid)]
    exact hf' row hrow hid
  · rw [if_neg (by rw [beq_iff_eq]; exact hid)]
    exact touched_refl

/-- Where the rows of a table that one was inserted into come from. -/
theorem origin_insert {mk : ℕ → ApprovalRow} {hmk : ∀ n, (mk n).id = n}
    (h : after.approvals = desk.approvals.insert mk hmk)
    (hmkPointer : ∀ n, (mk n).escalationId = none)
    (hrow' : row' ∈ after.approvals.rows) :
    (∃ row ∈ desk.approvals.rows, Touched call row row')
      ∨ row'.id = desk.approvals.next ∧ row'.escalationId = none := by
  rw [h] at hrow'
  rcases (Table.mem_insert hmk).mp hrow' with hrow | rfl
  · exact Or.inl ⟨row', hrow, touched_refl⟩
  · exact Or.inr ⟨hmk _, hmkPointer _⟩

/-- **Where the requests come from after a statement.** -/
theorem origin_of_rowsWritten (h : ApprovalDesk.RowsWritten desk after call)
    (hrow' : row' ∈ after.approvals.rows) :
    (∃ row ∈ desk.approvals.rows, Touched call row row')
      ∨ row'.id = desk.approvals.next ∧ row'.escalationId = none := by
  cases h with
  | kept h =>
    rw [h] at hrow'
    exact Or.inl ⟨row', hrow', touched_refl⟩
  | authorized createdAt h => exact origin_insert h (fun _ => rfl) hrow'
  | asked createdAt h => exact origin_insert h (fun _ => rfl) hrow'
  | @linked approvalId escalationId h =>
    refine Or.inl (origin_update h (fun row _ hid => ?_) hrow')
    exact touched_link (by rw [hid]; rfl)
  | answered h =>
    exact Or.inl (origin_update h (fun _ _ _ => touched_answer _ _) hrow')
  | noted h =>
    exact Or.inl (origin_update h (fun _ _ _ => touched_recordGrant _) hrow')
  | timedOut hpolicy h =>
    exact Or.inl (origin_update h (fun _ _ _ => touched_timeOut _ _) hrow')
  | superseded h =>
    exact Or.inl (origin_update h (fun _ _ _ => touched_supersede _ _) hrow')
  | @relinked approval escalationId found pass h =>
    refine Or.inl (origin_update h (fun row _ hid => ?_) hrow')
    exact touched_link (by rw [hid]; rfl)

end Touching

/-! ## What the calls have seen -/

section Seen

variable (idText : ℕ → String)

/-- What was seen of a request's escalations: those raised since are about it
exactly when it was told of. -/
structure Unseen (desk : WatchedDesk) (approvalId seen : ℕ) : Prop where
  known : approvalId < desk.approvals.next
  seen_le : seen ≤ desk.escalations.next
  told : ∀ row ∈ desk.approvals.rows, row.id = approvalId → row.isOpen →
    ∀ escalation ∈ desk.escalations.rows, seen ≤ escalation.id →
      escalation.carries idText approvalId → approvalId ∈ desk.told
  of_told : approvalId ∈ desk.told → ∃ escalation ∈ desk.escalations.rows,
    seen ≤ escalation.id ∧ escalation.carries idText approvalId

/-- An escalation there is carries the request's marker. -/
def Carried (desk : WatchedDesk) (approvalId escalationId : ℕ) : Prop :=
  ∃ escalation ∈ desk.escalations.rows, escalation.id = escalationId
    ∧ escalation.carries idText approvalId

/-- A request that does not wait for its escalation any more. -/
def Settled (desk : WatchedDesk) (approvalId : ℕ) : Prop :=
  ∀ row ∈ desk.approvals.rows, row.id = approvalId → row.isUnescalated = false

/-- A pass that is at `current` has settled what it took up, but for what is
left and what failed. -/
structure Working (desk : WatchedDesk) (pass : BackfillPass)
    (current : Option ℕ) : Prop where
  known : ∀ approval ∈ pass.stale, approval.id < desk.approvals.next
  left : ∀ approval ∈ pass.left, approval ∈ pass.stale
  settled : pass.result.failed = 0 →
    ∀ approval ∈ pass.stale.take parkedBackfillBatchLimit,
      approval ∈ pass.left ∨ current = some approval.id
        ∨ desk.Settled approval.id

/-- What holds of a call wherever it is. -/
def Traced (desk : WatchedDesk) : ApprovalCall → Prop
  | .escalating approvalId _ _ seen => desk.Unseen idText approvalId seen
  | .linking approvalId escalationId =>
    desk.Carried idText approvalId escalationId
  | .lookingUp pass => desk.Working pass none
  | .reraising approval seen pass =>
    desk.Unseen idText approval.id seen ∧ desk.Working pass (some approval.id)
  | .relinking approval escalationId _ pass =>
    desk.Carried idText approval.id escalationId
      ∧ desk.Working pass (some approval.id)
  | _ => True

/-- Whoever was told of has an escalation that carries its marker, a pointer
points at one, and the calls are traced. -/
structure Sound (desk : WatchedDesk) : Prop where
  known : ∀ id ∈ desk.told, id < desk.approvals.next
  heard : ∀ id ∈ desk.told, ∃ escalation ∈ desk.escalations.rows,
    escalation.carries idText id
  pointing : ∀ row ∈ desk.approvals.rows, ∀ escalationId,
    row.escalationId = some escalationId →
      desk.Carried idText row.id escalationId
  traced : ∀ call ∈ desk.calls, desk.Traced idText call

/-- How the desk grows from one turn to the next: rows are added, none is taken away,
and an escalation of an open request means that it was told of. -/
structure Grows (desk after : WatchedDesk) : Prop where
  next : desk.approvals.next ≤ after.approvals.next
  escalationsNext : desk.escalations.next ≤ after.escalations.next
  escalations : ∀ escalation ∈ desk.escalations.rows,
    escalation ∈ after.escalations.rows
  raised : ∀ escalation ∈ after.escalations.rows,
    escalation ∈ desk.escalations.rows
      ∨ ∀ row ∈ desk.approvals.rows, row.isOpen →
        escalation.carries idText row.id → row.id ∈ after.told
  told : ∀ id ∈ desk.told, id ∈ after.told
  toldOf : ∀ id ∈ after.told, id ∈ desk.told ∨ id < desk.approvals.next
    ∧ ∃ escalation ∈ after.escalations.rows,
      desk.escalations.next ≤ escalation.id ∧ escalation.carries idText id
  rows : ∀ row' ∈ after.approvals.rows, row'.id < desk.approvals.next →
    ∃ row ∈ desk.approvals.rows, row.id = row'.id
      ∧ (row'.isOpen → row.isOpen)
      ∧ (row'.isUnescalated → row.isUnescalated)

end Seen

/-! ## What a turn keeps of it -/

section Growing

variable {idText : ℕ → String} {desk after : WatchedDesk}

theorem Grows.unseen (h : Grows idText desk after) {approvalId seen : ℕ}
    (hunseen : desk.Unseen idText approvalId seen) :
    after.Unseen idText approvalId seen where
  known := hunseen.known.trans_le h.next
  seen_le := hunseen.seen_le.trans h.escalationsNext
  told row' hrow' hid hopen escalation hescalation hseen hcarries := by
    obtain ⟨row, hrow, hsame, hopened, -⟩ :=
      h.rows row' hrow' (hid ▸ hunseen.known)
    rcases h.raised escalation hescalation with hold | hnew
    · exact h.told _ (hunseen.told row hrow (hsame.trans hid) (hopened hopen)
        escalation hold hseen hcarries)
    · have hrowId : row.id = approvalId := hsame.trans hid
      rw [← hrowId] at hcarries ⊢
      exact hnew row hrow (hopened hopen) hcarries
  of_told htold := by
    rcases h.toldOf approvalId htold with
      hold | ⟨-, escalation, hmem, hnext, hcarries⟩
    · obtain ⟨escalation, hmem, hseen, hcarries⟩ := hunseen.of_told hold
      exact ⟨escalation, h.escalations _ hmem, hseen, hcarries⟩
    · exact ⟨escalation, hmem, hunseen.seen_le.trans hnext, hcarries⟩

theorem Grows.carried (h : Grows idText desk after)
    {approvalId escalationId : ℕ}
    (hcarried : desk.Carried idText approvalId escalationId) :
    after.Carried idText approvalId escalationId := by
  obtain ⟨escalation, hmem, hcarried⟩ := hcarried
  exact ⟨escalation, h.escalations _ hmem, hcarried⟩

theorem Grows.settled (h : Grows idText desk after) {approvalId : ℕ}
    (hknown : approvalId < desk.approvals.next)
    (hsettled : desk.Settled approvalId) : after.Settled approvalId := by
  intro row' hrow' hid
  obtain ⟨row, hrow, hsame, -, hwaiting⟩ := h.rows row' hrow' (hid ▸ hknown)
  cases hunescalated : row'.isUnescalated with
  | false => rfl
  | true =>
    have hwas := hwaiting hunescalated
    rw [hsettled row hrow (hsame.trans hid)] at hwas
    cases hwas

theorem Grows.working (h : Grows idText desk after) {pass : BackfillPass}
    {current : Option ℕ} (hworking : desk.Working pass current) :
    after.Working pass current where
  known approval hmem := (hworking.known approval hmem).trans_le h.next
  left := hworking.left
  settled hfailed approval hmem := by
    rcases hworking.settled hfailed approval hmem with hleft | hcurrent | hdone
    · exact Or.inl hleft
    · exact Or.inr (Or.inl hcurrent)
    · have hknown := hworking.known approval (List.mem_of_mem_take hmem)
      exact Or.inr (Or.inr (h.settled hknown hdone))

/-- What was traced stays so. -/
theorem Grows.traced (h : Grows idText desk after) {call : ApprovalCall}
    (htraced : desk.Traced idText call) : after.Traced idText call := by
  cases call with
  | escalating approvalId input noGrantDetail seen => exact h.unseen htraced
  | linking approvalId escalationId => exact h.carried htraced
  | lookingUp pass => exact h.working htraced
  | reraising approval seen pass =>
    exact ⟨h.unseen htraced.1, h.working htraced.2⟩
  | relinking approval escalationId found pass =>
    exact ⟨h.carried htraced.1, h.working htraced.2⟩
  | _ => trivial

end Growing

/-! ## One turn -/

section Turn

variable {idText : ℕ → String} {desk : WatchedDesk} {error : Option String}
  {clock : Instant} {call : ApprovalCall} {id : ℕ}

theorem mem_about {desk : ApprovalDesk} {escalation : EscalationRow} :
    id ∈ about idText desk escalation ↔ ∃ row ∈ desk.approvals.rows,
      row.isOpen ∧ escalation.carries idText row.id ∧ row.id = id := by
  unfold about
  rw [List.mem_map]
  refine exists_congr fun row => ?_
  rw [List.mem_filter, Bool.and_eq_true, and_assoc, and_assoc]

/-- The desk after a statement of a call. -/
theorem step_resume (hcall : desk.calls[id]? = some call) :
    (desk.step idText (.resume id error clock)).approvals
        = (desk.proceed idText error clock call).1.approvals
      ∧ (desk.step idText (.resume id error clock)).escalations
        = (desk.proceed idText error clock call).1.escalations
      ∧ (desk.step idText (.resume id error clock)).calls
        = desk.calls.set id (desk.proceed idText error clock call).2 := by
  show (desk.toApprovalDesk.step idText _).approvals = _
    ∧ (desk.toApprovalDesk.step idText _).escalations = _
    ∧ (desk.toApprovalDesk.step idText _).calls = _
  dsimp only [ApprovalDesk.step]
  rw [hcall]
  exact ⟨rfl, rfl, rfl⟩

/-- Whom a turn tells of where it raises nothing. -/
theorem told_of_kept {turn : ApprovalTurn}
    (h : (desk.step idText turn).escalations = desk.escalations) :
    (desk.step idText turn).told = desk.told := by
  have h' : (desk.toApprovalDesk.step idText turn).escalations
      = desk.escalations := h
  show desk.told ++ ((desk.toApprovalDesk.step idText
    turn).escalations.rows.drop _).flatMap _ = desk.told
  rw [h', List.drop_length]
  exact List.append_nil _

/-- Whom a turn tells of where it raises an escalation. -/
theorem told_of_raised {turn : ApprovalTurn} {mk : ℕ → EscalationRow}
    {hmk : ∀ n, (mk n).id = n}
    (h : (desk.step idText turn).escalations
      = desk.escalations.insert mk hmk) :
    (desk.step idText turn).told
      = desk.told
        ++ about idText desk.toApprovalDesk (mk desk.escalations.next) := by
  have h' : (desk.toApprovalDesk.step idText turn).escalations
      = desk.escalations.insert mk hmk := h
  show desk.told ++ ((desk.toApprovalDesk.step idText
    turn).escalations.rows.drop _).flatMap _ = _
  rw [h']
  show desk.told ++ ((desk.escalations.rows ++ [_]).drop _).flatMap _ = _
  rw [List.drop_left, List.flatMap_singleton]

/-- A desk whose escalations are kept grows. -/
theorem grows_of_kept {after : WatchedDesk}
    (hescalations : after.escalations = desk.escalations)
    (htold : after.told = desk.told)
    (hnext : desk.approvals.next ≤ after.approvals.next)
    (hrows : ∀ row' ∈ after.approvals.rows, row'.id < desk.approvals.next →
      ∃ row ∈ desk.approvals.rows, row.id = row'.id
        ∧ (row'.isOpen → row.isOpen)
        ∧ (row'.isUnescalated → row.isUnescalated)) :
    Grows idText desk after where
  next := hnext
  escalationsNext := le_of_eq (by rw [hescalations])
  escalations escalation hmem := by
    rw [hescalations]
    exact hmem
  raised escalation hmem := by
    rw [hescalations] at hmem
    exact Or.inl hmem
  told id hid := by
    rw [htold]
    exact hid
  toldOf id hid := by
    rw [htold] at hid
    exact Or.inl hid
  rows := hrows

theorem grows_of_raised {after : WatchedDesk} {mk : ℕ → EscalationRow}
    {hmk : ∀ n, (mk n).id = n}
    (hescalations : after.escalations = desk.escalations.insert mk hmk)
    (htold : after.told = desk.told
      ++ about idText desk.toApprovalDesk (mk desk.escalations.next))
    (hnext : desk.approvals.next ≤ after.approvals.next)
    (hrows : ∀ row' ∈ after.approvals.rows, row'.id < desk.approvals.next →
      ∃ row ∈ desk.approvals.rows, row.id = row'.id
        ∧ (row'.isOpen → row.isOpen)
        ∧ (row'.isUnescalated → row.isUnescalated)) :
    Grows idText desk after where
  next := hnext
  escalationsNext := by
    rw [hescalations]
    exact Nat.le_succ _
  escalations escalation hmem := by
    rw [hescalations]
    exact (Table.mem_insert hmk).mpr (Or.inl hmem)
  raised escalation hmem := by
    rw [hescalations] at hmem
    rcases (Table.mem_insert hmk).mp hmem with hold | rfl
    · exact Or.inl hold
    · refine Or.inr fun row hrow hopen hcarries => ?_
      rw [htold]
      exact List.mem_append_right _
        (mem_about.mpr ⟨row, hrow, hopen, hcarries, rfl⟩)
  told id hid := by
    rw [htold]
    exact List.mem_append_left _ hid
  toldOf id hid := by
    rw [htold] at hid
    rcases List.mem_append.mp hid with hold | hnew
    · exact Or.inl hold
    · obtain ⟨row, hrow, -, hcarries, rfl⟩ := mem_about.mp hnew
      refine Or.inr ⟨desk.approvals.bounded row hrow,
        mk desk.escalations.next, ?_, (hmk _).ge, hcarries⟩
      rw [hescalations]
      exact (Table.mem_insert hmk).mpr (Or.inr rfl)
  rows := hrows

/-- The ids handed out stay so. -/
theorem next_le_of_rowsWritten {desk after : ApprovalDesk}
    (h : ApprovalDesk.RowsWritten desk after call) :
    desk.approvals.next ≤ after.approvals.next := by
  cases h with
  | authorized createdAt h =>
    rw [h]
    exact Nat.le_succ _
  | asked createdAt h =>
    rw [h]
    exact Nat.le_succ _
  | kept h | linked h | answered h | noted h | superseded h | relinked h =>
    exact (congrArg Table.next h).ge
  | timedOut hpolicy h => exact (congrArg Table.next h).ge

/-- **The desk grows.** -/
theorem grows_step (turn : ApprovalTurn) :
    Grows idText desk (desk.step idText turn) := by
  by_cases hresume : ∃ id error clock call, turn = .resume id error clock
      ∧ desk.calls[id]? = some call
  · obtain ⟨id, error, clock, call, rfl, hcall⟩ := hresume
    obtain ⟨happrovals, hescalations, -⟩ :=
      @step_resume idText desk error clock call id hcall
    have hwritten := @ApprovalDesk.rowsWritten_proceed idText
      desk.toApprovalDesk error clock call
    have hnext : desk.approvals.next
        ≤ (desk.step idText (.resume id error clock)).approvals.next := by
      rw [happrovals]
      exact next_le_of_rowsWritten hwritten
    have hrows : ∀ row' ∈
        (desk.step idText (.resume id error clock)).approvals.rows,
        row'.id < desk.approvals.next → ∃ row ∈ desk.approvals.rows,
          row.id = row'.id ∧ (row'.isOpen → row.isOpen)
            ∧ (row'.isUnescalated → row.isUnescalated) := by
      intro row' hrow' hknown
      rw [happrovals] at hrow'
      rcases origin_of_rowsWritten hwritten hrow' with
        ⟨row, hrow, htouched⟩ | ⟨hnew, -⟩
      · exact ⟨row, hrow, htouched.id.symm, htouched.isOpen,
          htouched.isUnescalated⟩
      · exact absurd hnew hknown.ne
    rcases @escalations_proceed idText desk.toApprovalDesk error clock call with
      ⟨raise, -, -, hraised⟩ | ⟨-, hkept⟩
    · have h := hescalations.trans hraised
      exact grows_of_raised h (told_of_raised h) hnext hrows
    · have h := hescalations.trans hkept
      exact grows_of_kept h (told_of_kept h) hnext hrows
  · have hsame : (desk.step idText turn).approvals = desk.approvals
        ∧ (desk.step idText turn).escalations = desk.escalations := by
      show (desk.toApprovalDesk.step idText turn).approvals = _
        ∧ (desk.toApprovalDesk.step idText turn).escalations = _
      cases turn with
      | resume id error clock =>
        dsimp only [ApprovalDesk.step]
        cases hcall : desk.calls[id]? with
        | none => exact ⟨rfl, rfl⟩
        | some call => exact absurd ⟨_, _, _, _, rfl, hcall⟩ hresume
      | _ => exact ⟨rfl, rfl⟩
    refine grows_of_kept hsame.2 (told_of_kept hsame.2) ?_ ?_
    · rw [hsame.1]
    · intro row hrow _
      rw [hsame.1] at hrow
      exact ⟨row, hrow, rfl, fun h => h, fun h => h⟩

/-- A pass that fails at one request goes on to the next. -/
theorem Working.failing {pass : BackfillPass} {current : Option ℕ}
    (h : desk.Working pass current) :
    desk.Working (ApprovalDesk.failing pass) none :=
  ⟨h.known, h.left, fun hfailed => absurd hfailed (Nat.succ_ne_zero _)⟩

/-- A pass takes up the next request. -/
theorem Working.takesUp {pass : BackfillPass} {approval : ApprovalRow}
    {left : List ApprovalRow} (h : desk.Working pass none)
    (hleft : pass.left = approval :: left) :
    desk.Working { pass with left } (some approval.id) where
  known := h.known
  left other hother :=
    h.left other (hleft ▸ List.mem_cons_of_mem approval hother)
  settled hfailed other hother := by
    rcases h.settled hfailed other hother with hmem | hnone | hdone
    · rw [hleft] at hmem
      rcases List.mem_cons.mp hmem with rfl | hmem
      · exact Or.inr (Or.inl rfl)
      · exact Or.inl hmem
    · cases hnone
    · exact Or.inr (Or.inr hdone)

/-- A pass that settled the request it is at goes on to the next. -/
theorem Working.counting {pass : BackfillPass} {approvalId : ℕ}
    (h : desk.Working pass (some approvalId)) (linked found : Bool)
    (hsettled : desk.Settled approvalId) :
    desk.Working (ApprovalDesk.counting pass linked found) none where
  known := h.known
  left := h.left
  settled hfailed other hother := by
    have hfailed' : pass.result.failed = 0 := by
      unfold ApprovalDesk.counting at hfailed
      dsimp only at hfailed
      split_ifs at hfailed
      · exact hfailed
      · exact hfailed
      · exact hfailed
    rcases h.settled hfailed' other hother with hmem | hcurrent | hdone
    · exact Or.inl hmem
    · cases hcurrent
      exact Or.inr (Or.inr hsettled)
    · exact Or.inr (Or.inr hdone)

/-- A statement that raises leaves an escalation that carries the marker. -/
theorem carried_step {raise : ParkedRaise} (hcall : desk.calls[id]? = some call)
    (hraise : call.raise idText = some raise) :
    (desk.step idText (.resume id none clock)).Carried idText raise.approvalId
      desk.escalations.next := by
  obtain ⟨-, hescalations, -⟩ := @step_resume idText desk none clock call id
    hcall
  rcases @escalations_proceed idText desk.toApprovalDesk none clock call with
    ⟨raise', -, hraise', hraised⟩ | ⟨hkept | hkept, -⟩
  · rw [hraise] at hraise'
    cases hraise'
    refine ⟨systemEscalation raise.summary raise.detail clock
      desk.escalations.next, ?_, rfl, carries_raise hraise clock _⟩
    rw [hescalations, hraised]
    exact (Table.mem_insert fun _ => rfl).mpr (Or.inr rfl)
  · exact absurd rfl hkept
  · rw [hkept] at hraise
    cases hraise

/-- What a call sees now: nothing was raised since. -/
theorem unseen_now {approvalId : ℕ} (hknown : approvalId < desk.approvals.next)
    (hunheard : approvalId ∉ desk.told) :
    desk.Unseen idText approvalId desk.escalations.next where
  known := hknown
  seen_le := le_rfl
  told _ _ _ _ escalation hmem hseen _ :=
    absurd (desk.escalations.bounded escalation hmem) (Nat.not_lt.mpr hseen)
  of_told htold := absurd htold hunheard

/-- Where no escalation carries the marker of a request, it was not told of. -/
theorem not_told_of_findEscalationFor (h : desk.Sound idText) {approvalId : ℕ}
    (hnone : findEscalationFor idText desk.escalations.rows approvalId = none) :
    approvalId ∉ desk.told := by
  intro htold
  obtain ⟨escalation, hmem, hcarries⟩ := h.heard approvalId htold
  have hempty := List.head?_eq_none_iff.mp hnone
  have hfilter := List.mem_filter.mpr ⟨hmem, hcarries⟩
  rw [← Preference.mem_rank, hempty] at hfilter
  cases hfilter

theorem carried_of_findEscalationFor {approvalId : ℕ}
    {escalation : EscalationRow}
    (h : findEscalationFor idText desk.escalations.rows approvalId
      = some escalation) :
    desk.Carried idText approvalId escalation.id := by
  have hrank := List.mem_of_mem_head? (Option.mem_def.mpr h)
  have hmem := List.mem_filter.mp (Preference.mem_rank.mp hrank)
  exact ⟨escalation, hmem.1, rfl, hmem.2⟩

/-- A pass that starts has all that it takes up before it. -/
theorem working_startPass (now : Instant) :
    desk.Working (desk.startPass now) none where
  known approval hmem :=
    desk.approvals.bounded approval
      (List.mem_of_mem_filter (Preference.mem_rank.mp hmem))
  left _ hmem := List.mem_of_mem_take hmem
  settled _ _ hmem := Or.inl hmem

/-- A request that was just linked does not wait. -/
theorem settled_of_linked {after : WatchedDesk} {approvalId escalationId : ℕ}
    (h : after.approvals = (desk.toApprovalDesk.update approvalId
      (·.link escalationId) fun _ => id_link _).approvals) :
    after.Settled approvalId := by
  intro row' hrow' hid
  rw [h] at hrow'
  obtain ⟨row, -, rfl⟩ := (Table.mem_modify fun _ => id_link _).mp hrow'
  by_cases hrow : row.id = approvalId
  · rw [if_pos (beq_iff_eq.mpr hrow)]
    exact isUnescalated_link escalationId
  · rw [if_neg (by rw [beq_iff_eq]; exact hrow)] at hid
    exact absurd hid hrow

/-- **What a call does next is traced.** -/
theorem traced_proceed (h : desk.Sound idText)
    (hcall : desk.calls[id]? = some call) :
    (desk.step idText (.resume id error clock)).Traced idText
      (desk.proceed idText error clock call).2 := by
  have htraced := h.traced call (List.mem_of_getElem? hcall)
  have hgrows := @grows_step idText desk (.resume id error clock)
  obtain ⟨happrovals, hescalations, -⟩ :=
    @step_resume idText desk error clock call id hcall
  cases call with
  | asking input now noGrantDetail =>
    cases error with
    | some error => trivial
    | none =>
      dsimp only [ApprovalDesk.proceed]
      by_cases hpark
        : resolveTimeoutPolicy input.actionClass = .parkAndEscalate
      · rw [if_pos hpark]
        have htold := told_of_kept hescalations
        refine ⟨?_, le_of_eq (congrArg Table.next hescalations).symm, ?_, ?_⟩
        · rw [happrovals]
          exact Nat.lt_succ_self _
        · intro _ _ _ _ escalation hmem hseen _
          rw [hescalations] at hmem
          exact absurd (desk.escalations.bounded escalation hmem)
            (Nat.not_lt.mpr hseen)
        · intro hmem
          rw [htold] at hmem
          exact absurd (h.known _ hmem) (Nat.lt_irrefl _)
      · rw [if_neg hpark]
        trivial
  | escalating approvalId input noGrantDetail seen =>
    cases error with
    | some error => trivial
    | none =>
      have hcarried := @carried_step idText desk clock _ id _ hcall rfl
      exact hcarried
  | selectingStale now =>
    cases error with
    | some error => trivial
    | none => exact hgrows.working (working_startPass now)
  | lookingUp pass =>
    have hworking : desk.Working pass none := htraced
    dsimp only [ApprovalDesk.proceed]
    cases hleft : pass.left with
    | nil => trivial
    | cons approval left =>
      have hnext := hworking.takesUp hleft
      cases error with
      | some error => exact hgrows.working hnext.failing
      | none =>
        dsimp only
        cases hfind : findEscalationFor idText desk.escalations.rows
            approval.id with
        | some existing =>
          exact ⟨hgrows.carried (carried_of_findEscalationFor hfind),
            hgrows.working hnext⟩
        | none =>
          have hknown : approval.id < desk.approvals.next :=
            hworking.known approval
              (hworking.left approval (hleft ▸ List.mem_cons_self))
          exact ⟨hgrows.unseen
              (unseen_now hknown (not_told_of_findEscalationFor h hfind)),
            hgrows.working hnext⟩
  | reraising approval seen pass =>
    cases error with
    | some error => exact hgrows.working htraced.2.failing
    | none =>
      have hcarried := @carried_step idText desk clock _ id _ hcall rfl
      exact ⟨hcarried, hgrows.working htraced.2⟩
  | relinking approval escalationId found pass =>
    cases error with
    | some error => exact hgrows.working htraced.2.failing
    | none =>
      exact (hgrows.working htraced.2).counting _ _
        (settled_of_linked happrovals)
  | sweeping due now result =>
    cases due with
    | nil => trivial
    | cons due left =>
      dsimp only [ApprovalDesk.proceed]
      repeat' split
      all_goals trivial
  | done outcome => trivial
  | _ =>
    dsimp only [ApprovalDesk.proceed, ApprovalDesk.afterVerdict,
      ApprovalDesk.mintFailed]
    repeat' split
    all_goals trivial

/-- A call that starts has seen nothing yet. -/
theorem traced_start {turn : ApprovalTurn}
    (h : call ∈ turn.call.toList) : desk.Traced idText call := by
  cases turn with
  | resume id error clock => cases h
  | _ =>
    rw [List.mem_singleton.mp h]
    trivial

/-- **Every turn keeps the invariant.** -/
theorem sound_step (h : desk.Sound idText) (turn : ApprovalTurn) :
    (desk.step idText turn).Sound idText := by
  have hgrows := @grows_step idText desk turn
  have hknown : ∀ id ∈ (desk.step idText turn).told,
      id < (desk.step idText turn).approvals.next := by
    intro id hid
    rcases hgrows.toldOf id hid with hold | ⟨hnew, -⟩
    · exact (h.known id hold).trans_le hgrows.next
    · exact hnew.trans_le hgrows.next
  have hheard : ∀ id ∈ (desk.step idText turn).told,
      ∃ escalation ∈ (desk.step idText turn).escalations.rows,
        escalation.carries idText id := by
    intro id hid
    rcases hgrows.toldOf id hid with hold | ⟨-, escalation, hmem, -, hcarries⟩
    · obtain ⟨escalation, hmem, hcarries⟩ := h.heard id hold
      exact ⟨escalation, hgrows.escalations _ hmem, hcarries⟩
    · exact ⟨escalation, hmem, hcarries⟩
  by_cases hresume : ∃ id error clock call, turn = .resume id error clock
      ∧ desk.calls[id]? = some call
  · obtain ⟨id, error, clock, call, rfl, hcall⟩ := hresume
    obtain ⟨happrovals, -, hcalls⟩ :=
      @step_resume idText desk error clock call id hcall
    have hmem : call ∈ desk.calls := List.mem_of_getElem? hcall
    refine ⟨hknown, hheard, fun row' hrow' escalationId hpointer => ?_,
      fun next hnext => ?_⟩
    · rw [happrovals] at hrow'
      rcases origin_of_rowsWritten ApprovalDesk.rowsWritten_proceed hrow' with
        ⟨row, hrow, htouched⟩ | ⟨-, hnew⟩
      · rw [htouched.id]
        refine hgrows.carried ?_
        rcases htouched.pointer with hsame | ⟨linked, hlinks, hpoints⟩
        · exact h.pointing row hrow escalationId (hsame ▸ hpointer)
        · -- the call points the request at what it found or raised
          have heq : linked = escalationId :=
            Option.some.inj (hpoints.symm.trans hpointer)
          subst heq
          have htraced := h.traced call hmem
          cases call with
          | linking approvalId escalationId' =>
            cases hlinks
            exact htraced
          | relinking approval escalationId' found pass =>
            have hpair := Prod.mk.inj (Option.some.inj hlinks)
            rw [← hpair.1, ← hpair.2]
            exact htraced.1
          | _ => cases hlinks
      · rw [hnew] at hpointer
        cases hpointer
    · rw [hcalls] at hnext
      rcases List.mem_or_eq_of_mem_set hnext with hold | rfl
      · exact hgrows.traced (h.traced next hold)
      · exact traced_proceed h hcall
  · have hsame : (desk.step idText turn).approvals = desk.approvals
        ∧ ∀ call ∈ (desk.step idText turn).calls,
          call ∈ desk.calls ∨ call ∈ turn.call.toList := by
      show (desk.toApprovalDesk.step idText turn).approvals = _
        ∧ ∀ call ∈ (desk.toApprovalDesk.step idText turn).calls, _
      cases turn with
      | resume id error clock =>
        dsimp only [ApprovalDesk.step]
        cases hcall : desk.calls[id]? with
        | none => exact ⟨rfl, fun call hcall => Or.inl hcall⟩
        | some call => exact absurd ⟨_, _, _, _, rfl, hcall⟩ hresume
      | _ => exact ⟨rfl, fun call hcall => List.mem_append.mp hcall⟩
    refine ⟨hknown, hheard, fun row hrow escalationId hpointer => ?_,
      fun call hcall => ?_⟩
    · rw [hsame.1] at hrow
      exact hgrows.carried (h.pointing row hrow escalationId hpointer)
    · rcases hsame.2 call hcall with hold | hnew
      · exact hgrows.traced (h.traced call hold)
      · exact traced_start hnew

end Turn

/-! ## Exactly when -/

section Exact

variable {idText : ℕ → String} {desk : WatchedDesk} {turn : ApprovalTurn}

/-- What a call that is about to raise has seen. -/
theorem unseen_of_raise (h : desk.Sound idText) {call : ApprovalCall}
    {raise : ParkedRaise} (hcall : call ∈ desk.calls)
    (hraise : call.raise idText = some raise) :
    desk.Unseen idText raise.approvalId raise.seen := by
  have htraced := h.traced call hcall
  cases call with
  | escalating approvalId input noGrantDetail seen =>
    cases hraise
    exact htraced
  | reraising approval seen pass =>
    cases hraise
    exact htraced.1
  | _ => cases hraise

theorem nodup_about (desk : ApprovalDesk) (escalation : EscalationRow) :
    (about idText desk escalation).Nodup :=
  desk.approvals.nodup.sublist (List.filter_sublist.map _)

/-- An escalation is the first about everyone it tells of exactly when the call
that raises it was not disturbed. -/
theorem disjoint_about_iff (h : desk.Sound idText) {call : ApprovalCall}
    {raise : ParkedRaise} (hcall : call ∈ desk.calls)
    (hraise : call.raise idText = some raise) (clock : Instant) :
    desk.told.Disjoint (about idText desk.toApprovalDesk
        (systemEscalation raise.summary raise.detail clock
          desk.escalations.next))
      ↔ ∀ row ∈ desk.approvals.rows, row.isOpen →
        if row.id = raise.approvalId then
          ∀ escalation ∈ desk.escalations.rows, raise.seen ≤ escalation.id →
            escalation.carries idText row.id = false
        else
          row.id ∈ desk.told →
            (systemEscalation raise.summary raise.detail clock
              desk.escalations.next).carries idText row.id = false := by
  have hunseen := unseen_of_raise h hcall hraise
  have hown := carries_raise hraise clock desk.escalations.next
  constructor
  · intro hdisjoint row hrow hopen
    have hnew : (systemEscalation raise.summary raise.detail clock
        desk.escalations.next).carries idText row.id → row.id ∉ desk.told :=
      fun hcarries htold =>
        hdisjoint htold (mem_about.mpr ⟨row, hrow, hopen, hcarries, rfl⟩)
    by_cases hid : row.id = raise.approvalId
    · rw [if_pos hid]
      intro escalation hmem hseen
      refine Bool.eq_false_of_not_eq_true fun hcarries => ?_
      rw [hid] at hnew hcarries
      exact hnew hown
        (hunseen.told row hrow hid hopen escalation hmem hseen hcarries)
    · rw [if_neg hid]
      exact fun htold =>
        Bool.eq_false_of_not_eq_true fun hcarries => hnew hcarries htold
  · intro hfirst id htold habout
    obtain ⟨row, hrow, hopen, hcarries, rfl⟩ := mem_about.mp habout
    have hrowFirst := hfirst row hrow hopen
    by_cases hid : row.id = raise.approvalId
    · rw [if_pos hid] at hrowFirst
      rw [hid] at htold hrowFirst
      obtain ⟨escalation, hmem, hseen, hc⟩ := hunseen.of_told htold
      rw [hrowFirst escalation hmem hseen] at hc
      cases hc
    · rw [if_neg hid] at hrowFirst
      rw [hrowFirst htold] at hcarries
      cases hcarries

/-- **A turn tells of nobody twice exactly when it is undisturbed.** -/
theorem toldOnce_iff (h : desk.Sound idText) (hnodup : desk.told.Nodup) :
    ToldOnce idText desk turn ↔ Undisturbed idText desk turn := by
  by_cases hraises : ∃ id clock call raise, turn = .resume id none clock
      ∧ desk.calls[id]? = some call ∧ call.raise idText = some raise
  · obtain ⟨id, clock, call, raise, rfl, hcall, hraise⟩ := hraises
    obtain ⟨-, hescalations, -⟩ := @step_resume idText desk none clock call id
      hcall
    rcases @escalations_proceed idText desk.toApprovalDesk none clock call with
      ⟨raise', -, hraise', hraised⟩ | ⟨hkept | hkept, -⟩
    · rw [hraise] at hraise'
      cases hraise'
      have hmem : call ∈ desk.calls := List.mem_of_getElem? hcall
      have hfirst := disjoint_about_iff h hmem hraise clock
      unfold ToldOnce
      rw [told_of_raised (hescalations.trans hraised), List.nodup_append']
      constructor
      · rintro ⟨-, -, hdisjoint⟩ id' clock' call' raise'' heq hcall' hraise''
        cases heq
        rw [hcall] at hcall'
        cases hcall'
        rw [hraise] at hraise''
        cases hraise''
        exact hfirst.mp hdisjoint
      · intro hundisturbed
        exact ⟨hnodup, nodup_about _ _, hfirst.mpr
          (hundisturbed id clock call raise rfl hcall hraise)⟩
    · exact absurd rfl hkept
    · rw [hkept] at hraise
      cases hraise
  · refine iff_of_true ?_ fun id clock call raise heq hcall hraise =>
      absurd ⟨id, clock, call, raise, heq, hcall, hraise⟩ hraises
    unfold ToldOnce
    rw [told_of_kept ?_]
    · exact hnodup
    · show (desk.toApprovalDesk.step idText turn).escalations = _
      cases turn with
      | resume id error clock =>
        dsimp only [ApprovalDesk.step]
        cases hcall : desk.calls[id]? with
        | none => rfl
        | some call =>
          rcases @escalations_proceed idText desk.toApprovalDesk error clock
            call with ⟨raise, rfl, hraise, -⟩ | ⟨-, hkept⟩
          · exact absurd ⟨id, clock, call, raise, rfl, hcall, hraise⟩ hraises
          · exact hkept
      | _ => rfl

/-- **A pass repairs its window exactly when it is within the limit.** -/
theorem repaired_iff_undisturbed (h : desk.Sound idText) :
    Repaired idText desk turn ↔ WithinLimit desk turn := by
  constructor
  · intro hrepaired id error clock pass hturn hcall hleft hfailed approval hmem
      row hrow hid
    refine Bool.eq_false_of_not_eq_true fun hwaiting => ?_
    obtain ⟨hparked, hnone⟩ := Bool.and_eq_true_iff.mp hwaiting
    obtain ⟨escalation, -, hpointer, -⟩ := hrepaired id error clock pass hturn
      hcall hleft hfailed approval (List.mem_of_mem_drop hmem) row hrow hid
      (beq_iff_eq.mp hparked)
    rw [hpointer] at hnone
    cases hnone
  · intro hwithin id error clock pass hturn hcall hleft hfailed approval hmem
      row hrow hid hparked
    have hworking : desk.Working pass none :=
      h.traced _ (List.mem_of_getElem? hcall)
    have hdone : row.isUnescalated = false := by
      rw [← List.take_append_drop parkedBackfillBatchLimit pass.stale] at hmem
      rcases List.mem_append.mp hmem with htaken | hover
      · rcases hworking.settled hfailed approval htaken with hin | hin | hin
        · rw [hleft] at hin
          cases hin
        · cases hin
        · exact hin row hrow hid
      · exact hwithin id error clock pass hturn hcall hleft hfailed approval
          hover row hrow hid
    cases hpointer : row.escalationId with
    | none =>
      rw [ApprovalRow.isUnescalated, hparked, hpointer] at hdone
      cases hdone
    | some escalationId =>
      obtain ⟨escalation, hmem, rfl, hcarries⟩ :=
        h.pointing row hrow escalationId hpointer
      exact ⟨escalation, hmem, rfl, hcarries⟩

end Exact

/-! ## Whole runs -/

section Runs

variable (idText : ℕ → String)

theorem sound_opened (grants : Table TrustGrantRow)
    (escalations : Table EscalationRow) :
    (opened grants escalations).Sound idText :=
  ⟨fun _ h => (nomatch h), fun _ h => (nomatch h), fun _ h => (nomatch h),
    fun _ h => (nomatch h)⟩

/-- **One escalation, exactly when.** Along a run of the gate, the backfill and
everything else that is done about requests, no request is told of twice while
it is open, and every pass that completes without a failure repairs its
window, exactly when every raise is undisturbed and every such pass within its
limit. -/
theorem raises_one_iff_undisturbed (grants : Table TrustGrantRow)
    (escalations : Table EscalationRow) (turns : List ApprovalTurn) :
    Machine.Always (step idText)
        (fun desk turn => ToldOnce idText desk turn ∧ Repaired idText desk turn)
        (opened grants escalations) turns
      ↔ Machine.Always (step idText)
        (fun desk turn => Undisturbed idText desk turn ∧ WithinLimit desk turn)
        (opened grants escalations) turns := by
  have hsound := sound_opened idText grants escalations
  have hpreserved : ∀ (desk : WatchedDesk) turn, desk.Sound idText →
      (desk.step idText turn).Sound idText :=
    fun desk turn h => sound_step h turn
  have hrepaired : Machine.Always (step idText) (Repaired idText)
        (opened grants escalations) turns
      ↔ Machine.Always (step idText) WithinLimit (opened grants escalations)
        turns :=
    Machine.always_congr_of_preserved hpreserved
      (fun _ _ h => repaired_iff_undisturbed h) hsound
  have htold : Machine.Always (step idText) (ToldOnce idText)
        (opened grants escalations) turns
      ↔ Machine.Always (step idText) (Undisturbed idText)
        (opened grants escalations) turns := by
    -- nobody was told of twice is part of the invariant of such a run
    have hexact := Machine.always_iff_of_invariant
      (fun desk : WatchedDesk => desk.Sound idText ∧ desk.told.Nodup)
      (fun desk turn h =>
        (and_iff_right (hpreserved desk turn h.1)).trans
          (toldOnce_iff h.1 h.2))
      ⟨hsound, List.nodup_nil⟩ turns
    rw [← hexact]
    exact Machine.always_congr_of_preserved hpreserved
      (fun desk turn h => (and_iff_right (hpreserved desk turn h)).symm) hsound
  rw [Machine.always_and_iff, Machine.always_and_iff, htold, hrepaired]

/-! ## A pass while the gate is raising -/

/-- A request of a class nobody registered. -/
def unregistered : RaiseApprovalInput where
  actionClass := "delete-branch"
  repositoryId := 0
  summary := "Delete the branch"
  reasoning := "It was merged."
  blastRadius := "one branch"

/-- A pass looks for the escalation of a request that the gate has written and
is about to tell of, and the gate tells of it. -/
def passWhileRaising : List ApprovalTurn :=
  [.gate unregistered 0, .resume 0 none 0, .resume 0 none 0,
    .backfillParkedEscalations 1, .resume 1 none 1, .resume 1 none 1,
    .resume 0 none 2]

/-- **The same question twice**: then the pass tells of it too. -/
theorem asked_twice_while_raising :
    ¬Machine.Always (step toString)
      (fun desk turn =>
        ToldOnce toString desk turn ∧ Repaired toString desk turn)
      (opened .empty .empty) (passWhileRaising ++ [.resume 1 none 3]) := by
  intro h
  let raising : WatchedDesk :=
    Machine.run (step toString) (opened .empty .empty) passWhileRaising
  have htold : ToldOnce toString raising (.resume 1 none 3) :=
    ((Machine.always_cons _ _ _ _ _).mp h.suffix).1.1
  have hsound : raising.Sound toString :=
    @Machine.run_preserves _ _ (step toString) (Sound toString)
      (fun _ turn h => sound_step h turn) _ _
      (sound_opened toString .empty .empty)
  have hnodup : raising.told.Nodup :=
    (List.nodup_append.mp (show (raising.told ++ _).Nodup from htold)).1
  -- the pass is about to raise, as if nobody had been told
  have hraise : (raising.calls[1]?.bind (·.raise toString)).map
      (fun raise => (raise.approvalId, raise.seen)) = some (0, 0) := by
    decide
  have hrows : raising.approvals.rows.map (fun row => (row.id, row.isOpen))
      = [(0, true)] := by
    decide
  -- the gate has told of it
  have hgate : ∃ (call : ApprovalCall) (raise : ParkedRaise),
      call.raise toString = some raise ∧ raise.approvalId = 0
        ∧ raising.escalations.rows
          = [systemEscalation raise.summary raise.detail 2 0] :=
    ⟨.escalating 0 unregistered _ 0, _, rfl, rfl, rfl⟩
  cases hcall : raising.calls[1]? with
  | none =>
    rw [hcall] at hraise
    cases hraise
  | some call =>
    rw [hcall, Option.bind_some] at hraise
    obtain ⟨raise, hcallRaise, hpair⟩ := Option.map_eq_some_iff.mp hraise
    obtain ⟨gate, raised, hgateRaise, hraisedId, hescalations⟩ := hgate
    obtain ⟨row, hrow, hrowPair⟩ := List.mem_map.mp
      (hrows.symm ▸ List.mem_singleton_self (0, true))
    have hid : row.id = raise.approvalId :=
      (congrArg Prod.fst hrowPair).trans (congrArg Prod.fst hpair).symm
    have hfirst := (toldOnce_iff hsound hnodup).mp htold 1 3 call raise rfl
      hcall hcallRaise row hrow (congrArg Prod.snd hrowPair)
    rw [if_pos hid] at hfirst
    have hmarker := hfirst (systemEscalation raised.summary raised.detail 2 0)
      (hescalations ▸ List.mem_singleton_self _)
      (congrArg Prod.snd hpair).le
    have hcarries := carries_raise hgateRaise 2 0
    rw [show row.id = 0 from congrArg Prod.fst hrowPair] at hmarker
    rw [hraisedId, hmarker] at hcarries
    cases hcarries

end Runs

end WatchedDesk

end Opifex
