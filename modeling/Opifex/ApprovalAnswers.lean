import Opifex.ApprovalDesk

/-!
# An approval is answered once

Whatever the calls and however their statements are interleaved, every write
that answers a request matches it only while it is open. So a request that is
answered stays as it was answered (`kept`), the answer is one of those a
person, the clock or a change of the world gives (`consistent`), the clock
gives none where it was promised that it would not, a call that comes second
is refused or does nothing (`refused`), and a verdict that is not the first
gives birth to no grant (`minted`).

Permission to mint goes to the call whose write answered the request, so
permissions and grants together are bounded by the answers.
-/

namespace Opifex

namespace ApprovalRow

/-- The columns an answer writes. -/
def answered (row : ApprovalRow) :
    ApprovalStatus × Option Instant × Option ℕ × Option ApprovalDecidedVia
      × Option String :=
  (row.status, row.decidedAt, row.decidedById, row.decidedVia,
    row.decisionNote)

/-- **A consistent answer**: a person's names the person, the clock's follows
the policy that was recorded and names nobody, a grant's names the grant, and
what was superseded nobody answered. -/
def IsConsistent (row : ApprovalRow) : Prop :=
  match row.status with
  | .pending =>
    row.decidedVia = none ∧ row.decidedById = none
      ∧ row.timeoutPolicy ≠ .parkAndEscalate
  | .parked =>
    row.decidedVia = none ∧ row.decidedById = none
      ∧ row.timeoutPolicy = .parkAndEscalate
  | .approved =>
    row.decidedVia = some .human ∧ row.decidedById.isSome
      ∨ row.decidedVia = some .grant ∧ row.decidedById = none
        ∧ row.grantId.isSome ∧ row.timeoutPolicy ≠ .parkAndEscalate
  | .denied => row.decidedVia = some .human ∧ row.decidedById.isSome
  | .autoApproved =>
    row.decidedVia = some .timeout ∧ row.decidedById = none
      ∧ row.timeoutPolicy = .autoApprove
  | .autoDenied =>
    row.decidedVia = some .timeout ∧ row.decidedById = none
      ∧ row.timeoutPolicy = .deny
  | .superseded => row.decidedVia = none ∧ row.decidedById = none

/-- What waits for a person nobody else answers consistently. -/
theorem IsConsistent.of_park {row : ApprovalRow} (h : row.IsConsistent)
    (hpark : row.timeoutPolicy = .parkAndEscalate) :
    row.status ≠ .autoApproved ∧ row.status ≠ .autoDenied
      ∧ row.decidedVia ≠ some .grant := by
  unfold IsConsistent at h
  cases hstatus : row.status with
  | pending =>
    rw [hstatus] at h
    exact absurd hpark h.2.2
  | parked =>
    rw [hstatus] at h
    exact ⟨nofun, nofun, by rw [h.1]; nofun⟩
  | approved =>
    rw [hstatus] at h
    rcases h with h | h
    · exact ⟨nofun, nofun, by rw [h.1]; nofun⟩
    · exact absurd hpark h.2.2.2
  | denied =>
    rw [hstatus] at h
    exact ⟨nofun, nofun, by rw [h.1]; nofun⟩
  | autoApproved =>
    rw [hstatus] at h
    exact nomatch hpark.symm.trans h.2.2
  | autoDenied =>
    rw [hstatus] at h
    exact nomatch hpark.symm.trans h.2.2
  | superseded =>
    rw [hstatus] at h
    exact ⟨nofun, nofun, by rw [h.1]; nofun⟩

end ApprovalRow

namespace ApprovalCall

/-- The call holds the permission to mint a grant for the request. -/
def isMinting (approvalId : ℕ) : ApprovalCall → Bool
  | .minting existing _ _ => existing.id == approvalId
  | _ => false

/-- The requests a sweep is still to resolve, as it read them. -/
def dueRows : ApprovalCall → List ApprovalRow
  | .sweeping due _ _ => due
  | _ => []

/-- The call neither sweeps nor holds a permission to mint. -/
def isPlain : ApprovalCall → Bool
  | .sweeping _ _ _ => false
  | .minting _ _ _ => false
  | _ => true

theorem dueRows_of_isPlain {call : ApprovalCall} (h : call.isPlain) :
    call.dueRows = [] := by
  cases call with
  | sweeping due now result => cases h
  | _ => rfl

theorem isMinting_of_isPlain {call : ApprovalCall} (h : call.isPlain)
    (approvalId : ℕ) : call.isMinting approvalId = false := by
  cases call with
  | minting existing input now => cases h
  | _ => rfl

/-- The call refused, or did nothing. -/
def isNoOp : ApprovalCall → Bool
  | .refusing _ => true
  | .sweeping _ _ _ => true
  | .done (.notPending _) => true
  | .done .notFound => true
  | .done .superseded => true
  | _ => false

/-- The request a call is about to answer. -/
def answers : ApprovalCall → Option ℕ
  | .deciding approvalId _ _ => some approvalId
  | .answering existing _ _ => some existing.id
  | .sweeping (due :: _) _ _ => some due.id
  | .superseding approvalId _ _ => some approvalId
  | _ => none

end ApprovalCall

/-! ## What is asked -/

namespace ApprovalDesk

section Properties

variable (idText : ℕ → String)

/-- **Answered once**, at every turn. A request that was answered keeps its answer
through whatever call runs, a second answer is told that it comes too late, and no row
is left half answered. -/
structure AnsweredOnce (desk : ApprovalDesk) (turn : ApprovalTurn) : Prop where
  /-- A request that is not open stays as it was answered. -/
  kept : ∀ row ∈ desk.approvals.rows, row.isOpen = false →
    ∃ row' ∈ (desk.step idText turn).approvals.rows,
      row'.id = row.id ∧ row'.answered = row.answered
  /-- A call that comes second is refused or does nothing. -/
  refused : ∀ id clock call approvalId row,
    turn = .resume id none clock → desk.calls[id]? = some call →
      call.answers = some approvalId → row ∈ desk.approvals.rows →
        row.id = approvalId → row.isOpen = false →
          (desk.proceed idText none clock call).2.isNoOp
            ∧ (desk.proceed idText none clock call).1.approvals.rows
              = desk.approvals.rows
  /-- Every answer is consistent. -/
  consistent : ∀ row ∈ (desk.step idText turn).approvals.rows,
    row.IsConsistent
  /-- The promise a request was raised with stays. -/
  promised : ∀ row ∈ desk.approvals.rows,
    ∃ row' ∈ (desk.step idText turn).approvals.rows,
      row'.id = row.id ∧ row'.timeoutPolicy = row.timeoutPolicy
  /-- What was promised to wait for a person is answered neither by the clock
  nor by a grant. -/
  parked : ∀ row ∈ (desk.step idText turn).approvals.rows,
    row.timeoutPolicy = .parkAndEscalate →
      row.status ≠ .autoApproved ∧ row.status ≠ .autoDenied
        ∧ row.decidedVia ≠ some .grant
  /-- A request has one grant minted for it at most. -/
  minted : ∀ approvalId,
    (desk.step idText turn).minted.countP (fun entry =>
      entry.1 == approvalId) ≤ 1

end Properties

/-! ## What one write does to a request -/

section Writes

variable {row due : ApprovalRow}

/-- What a statement makes of a request: it leaves its policy and, where it is
not open, its answer, and what was consistent stays so. -/
structure Writes (row row' : ApprovalRow) : Prop where
  id : row'.id = row.id
  policy : row'.timeoutPolicy = row.timeoutPolicy
  closed : row.isOpen = false → row'.answered = row.answered
  consistent : row.IsConsistent → row'.IsConsistent

theorem writes_refl (row : ApprovalRow) : Writes row row :=
  ⟨rfl, rfl, fun _ => rfl, fun h => h⟩

/-- A request whose columns are all kept but those of no answer. -/
theorem Writes.isOpen_eq {row' : ApprovalRow} (h : Writes row row')
    (hclosed : row.isOpen = false) : row'.isOpen = false := by
  have hstatus : row'.status = row.status :=
    congrArg Prod.fst (h.closed hclosed)
  unfold ApprovalRow.isOpen at hclosed ⊢
  rw [hstatus]
  exact hclosed

theorem writes_answer (input : DecideApprovalInput) (now : Instant) :
    Writes row (row.answer input now) := by
  unfold ApprovalRow.answer
  by_cases hopen : row.isOpen
  · rw [if_pos hopen]
    refine ⟨rfl, rfl, fun h => ?_, fun _ => ?_⟩
    · rw [hopen] at h
      cases h
    · cases hdecision : input.decision with
      | approve => exact Or.inl ⟨rfl, rfl⟩
      | deny => exact ⟨rfl, rfl⟩
  · rw [if_neg hopen]
    exact writes_refl row

theorem writes_supersede (reason : String) (now : Instant) :
    Writes row (row.supersede reason now) := by
  unfold ApprovalRow.supersede
  by_cases hopen : row.isOpen
  · rw [if_pos hopen]
    refine ⟨rfl, rfl, fun h => ?_, fun _ => ⟨rfl, rfl⟩⟩
    rw [hopen] at h
    cases h
  · rw [if_neg hopen]
    exact writes_refl row

/-- The clock answers as it read that it was promised to. -/
theorem writes_timeOut (now : Instant)
    (hpolicy : row.timeoutPolicy = due.timeoutPolicy)
    (hdue : due.timeoutPolicy ≠ .parkAndEscalate) :
    Writes row (due.timeOut now row) := by
  unfold ApprovalRow.timeOut
  by_cases hpending : row.status = .pending
  · rw [if_pos hpending]
    refine ⟨rfl, rfl, fun h => ?_, fun _ => ?_⟩
    · rw [ApprovalRow.isOpen, hpending] at h
      cases h
    · cases hduePolicy : due.timeoutPolicy with
      | autoApprove => exact ⟨rfl, rfl, hpolicy.trans hduePolicy⟩
      | deny => exact ⟨rfl, rfl, hpolicy.trans hduePolicy⟩
      | parkAndEscalate => exact absurd hduePolicy hdue
  · rw [if_neg hpending]
    exact writes_refl row

theorem writes_link (escalationId : ℕ) :
    Writes row (row.link escalationId) := by
  unfold ApprovalRow.link
  by_cases h : row.isUnescalated
  · rw [if_pos h]
    exact ⟨rfl, rfl, fun _ => rfl, fun h => h⟩
  · rw [if_neg h]
    exact writes_refl row

theorem writes_recordGrant (grantId : ℕ) :
    Writes row (row.recordGrant grantId) :=
  ⟨rfl, rfl, fun _ => rfl, fun h => h⟩

/-- What is raised is open, or a grant answered it. -/
theorem isConsistent_asked (input : RaiseApprovalInput)
    (now createdAt : Instant) (id : ℕ) :
    (input.asked now createdAt id).IsConsistent := by
  unfold RaiseApprovalInput.asked
  by_cases hpark : resolveTimeoutPolicy input.actionClass = .parkAndEscalate
  · simp only [hpark, if_true]
    exact ⟨rfl, rfl, rfl⟩
  · simp only [hpark, if_false]
    exact ⟨rfl, rfl, hpark⟩

/-- What a grant may authorise does not wait for a person. -/
theorem resolveTimeoutPolicy_ne_park {actionClass : String}
    (h : isAutonomyEligible actionClass) :
    resolveTimeoutPolicy actionClass ≠ .parkAndEscalate := by
  unfold isAutonomyEligible at h
  unfold resolveTimeoutPolicy
  cases hclass : getActionClass actionClass with
  | none =>
    rw [hclass] at h
    cases h
  | some registered =>
    have hmem : registered ∈ actionClasses := List.mem_of_find?_eq_some hclass
    -- nothing in the registry is irreversible
    have hreversible : ∀ registered ∈ actionClasses,
        registered.reversibility ≠ .irreversible := by
      decide
    dsimp only
    rw [if_neg (hreversible registered hmem)]
    split_ifs
    · exact fun h => nomatch h
    · exact fun h => nomatch h
    · exact fun h => nomatch h

theorem isConsistent_authorizedRow (input : RaiseApprovalInput)
    (grant : TrustGrantRow) (now createdAt : Instant) (id : ℕ)
    (h : isAutonomyEligible input.actionClass) :
    (input.authorizedRow grant now createdAt id).IsConsistent :=
  Or.inr ⟨rfl, rfl, rfl, resolveTimeoutPolicy_ne_park h⟩

end Writes

/-! ## What one statement does to the requests -/

/-- What a statement does to the table: every request is still there, and what
is new is consistent. -/
structure Proceeds (desk after : ApprovalDesk) : Prop where
  kept : ∀ row ∈ desk.approvals.rows, ∃ row' ∈ after.approvals.rows,
    Writes row row'
  origin : ∀ row' ∈ after.approvals.rows,
    (∃ row ∈ desk.approvals.rows, Writes row row') ∨ row'.IsConsistent

section Proceeding

variable {desk after : ApprovalDesk}

theorem proceeds_of_rows (h : after.approvals = desk.approvals) :
    Proceeds desk after := by
  refine ⟨fun row hrow => ⟨row, ?_, writes_refl row⟩,
    fun row hrow => Or.inl ⟨row, ?_, writes_refl row⟩⟩
  · rw [h]
    exact hrow
  · rw [← h]
    exact hrow

theorem proceeds_update {id : ℕ} {f : ApprovalRow → ApprovalRow}
    (hf : ∀ row, (f row).id = row.id)
    (hwrites : ∀ row ∈ desk.approvals.rows, row.id = id →
      Writes row (f row))
    (h : after.approvals = (desk.update id f hf).approvals) :
    Proceeds desk after := by
  have hrow : ∀ row ∈ desk.approvals.rows,
      Writes row (if row.id == id then f row else row) := by
    intro row hmem
    by_cases hid : row.id = id
    · rw [if_pos (beq_iff_eq.mpr hid)]
      exact hwrites row hmem hid
    · rw [if_neg (by rw [beq_iff_eq]; exact hid)]
      exact writes_refl row
  refine ⟨fun row hmem => ⟨_, ?_, hrow row hmem⟩,
    fun row' hmem => Or.inl ?_⟩
  · rw [h]
    exact (Table.mem_modify hf).mpr ⟨row, hmem, rfl⟩
  rw [h] at hmem
  obtain ⟨row, hold, rfl⟩ := (Table.mem_modify hf).mp hmem
  exact ⟨row, hold, hrow row hold⟩

theorem proceeds_insert {mk : ℕ → ApprovalRow} (hmk : ∀ n, (mk n).id = n)
    (hconsistent : (mk desk.approvals.next).IsConsistent)
    (h : after.approvals = desk.approvals.insert mk hmk) :
    Proceeds desk after := by
  refine ⟨fun row hmem => ⟨row, ?_, writes_refl row⟩, fun row' hmem => ?_⟩
  · rw [h]
    exact (Table.mem_insert hmk).mpr (Or.inl hmem)
  · rw [h] at hmem
    rcases (Table.mem_insert hmk).mp hmem with hmem | rfl
    · exact Or.inl ⟨row', hmem, writes_refl row'⟩
    · exact Or.inr hconsistent

/-- Whether a request with this id was answered. -/
def answeredCount (desk : ApprovalDesk) (approvalId : ℕ) : ℕ :=
  if (desk.approvals.find approvalId).any (!·.isOpen) then 1 else 0

theorem answeredCount_eq_one {row : ApprovalRow} {approvalId : ℕ}
    (hmem : row ∈ desk.approvals.rows) (hid : row.id = approvalId)
    (hclosed : row.isOpen = false) : desk.answeredCount approvalId = 1 := by
  have hfind : desk.approvals.find approvalId = some row :=
    Table.find_eq_some.mpr ⟨hmem, hid⟩
  rw [answeredCount, hfind]
  exact if_pos (by rw [Option.any_some, hclosed]; rfl)

theorem answeredCount_of_open {approvalId : ℕ}
    (h : (desk.approvals.find approvalId).any (·.isOpen)) :
    desk.answeredCount approvalId = 0 := by
  rw [answeredCount]
  cases hfind : desk.approvals.find approvalId with
  | none => rfl
  | some row =>
    rw [hfind, Option.any_some] at h
    rw [Option.any_some, h]
    rfl

/-- The write of a verdict answers an open request. -/
theorem answeredCount_update_answer {id approvalId : ℕ}
    {input : DecideApprovalInput} {now : Instant} (hid : id = approvalId)
    (h : (desk.approvals.find id).any (·.isOpen)) :
    (desk.update id (·.answer input now)
      fun _ => id_answer _ _).answeredCount approvalId = 1 := by
  subst hid
  cases hfind : desk.approvals.find id with
  | none =>
    rw [hfind] at h
    cases h
  | some row =>
    rw [hfind, Option.any_some] at h
    obtain ⟨hmem, hkey⟩ := Table.find_eq_some.mp hfind
    have hrow : row.id = id := hkey
    have hmem' : row.answer input now ∈ (desk.update id (·.answer input now)
        fun _ => id_answer _ _).approvals.rows := by
      refine (Table.mem_modify fun _ => id_answer _ _).mpr ⟨row, hmem, ?_⟩
      rw [if_pos (beq_iff_eq.mpr hrow)]
    refine answeredCount_eq_one hmem' ((id_answer input now).trans hrow) ?_
    unfold ApprovalRow.answer
    rw [if_pos h]
    cases hdecision : input.decision with
    | approve => rfl
    | deny => rfl

/-- What is answered stays answered. -/
theorem answeredCount_le (h : Proceeds desk after) (approvalId : ℕ) :
    desk.answeredCount approvalId ≤ after.answeredCount approvalId := by
  rw [answeredCount]
  cases hfind : desk.approvals.find approvalId with
  | none => exact Nat.zero_le _
  | some row =>
    obtain ⟨hmem, hkey⟩ := Table.find_eq_some.mp hfind
    have hid : row.id = approvalId := hkey
    obtain ⟨row', hmem', hwrites⟩ := h.kept row hmem
    cases hopen : row.isOpen with
    | true =>
      rw [Option.any_some, hopen]
      exact Nat.zero_le _
    | false =>
      rw [answeredCount_eq_one hmem' (hwrites.id.trans hid)
        (hwrites.isOpen_eq hopen), Option.any_some, hopen]
      exact le_rfl

end Proceeding

/-! ## The invariant -/

/-- **What a call has read is still so**: the policies of the requests it
sweeps, and that a grant may authorise the class it asked about. -/
structure Informed (desk : ApprovalDesk) (call : ApprovalCall) : Prop where
  due : ∀ due ∈ call.dueRows, ∃ row ∈ desk.approvals.rows,
    row.id = due.id ∧ row.timeoutPolicy = due.timeoutPolicy
  eligible : ∀ input grant now, call = .authorizing input grant now →
    isAutonomyEligible input.actionClass

/-- Every answer is consistent, every call is informed, and the grants that
were or may be minted for a request are no more than its answers. -/
structure Sound (desk : ApprovalDesk) : Prop where
  consistent : ∀ row ∈ desk.approvals.rows, row.IsConsistent
  informed : ∀ call ∈ desk.calls, desk.Informed call
  minted : ∀ approvalId,
    desk.calls.countP (·.isMinting approvalId)
        + desk.minted.countP (fun entry => entry.1 == approvalId)
      ≤ desk.answeredCount approvalId

section Statement

variable {idText : ℕ → String} {desk : ApprovalDesk} {error : Option String}
  {clock : Instant} {call : ApprovalCall}

/-- **What a statement does to the requests.** -/
theorem proceeds_proceed (h : desk.Informed call) :
    Proceeds desk (desk.proceed idText error clock call).1 := by
  cases @rowsWritten_proceed idText desk error clock call with
  | kept hrows => exact proceeds_of_rows hrows
  | authorized createdAt hrows =>
    exact proceeds_insert (fun _ => rfl)
      (isConsistent_authorizedRow _ _ _ _ _ (h.eligible _ _ _ rfl)) hrows
  | asked createdAt hrows =>
    exact proceeds_insert (fun _ => rfl) (isConsistent_asked _ _ _ _) hrows
  | linked hrows =>
    exact proceeds_update _ (fun _ _ _ => writes_link _) hrows
  | answered hrows =>
    exact proceeds_update _ (fun _ _ _ => writes_answer _ _) hrows
  | noted hrows =>
    exact proceeds_update _ (fun _ _ _ => writes_recordGrant _) hrows
  | @timedOut due left now result hpark hrows =>
    refine proceeds_update _ (fun row hmem hid => ?_) hrows
    obtain ⟨known, hmem', hid', hpolicy⟩ := h.due due List.mem_cons_self
    -- the request is the one whose policy was read
    have hsame : row = known :=
      Table.eq_of_key hmem hmem' (hid.trans hid'.symm)
    exact writes_timeOut now (by rw [hsame, hpolicy]) hpark
  | superseded hrows =>
    exact proceeds_update _ (fun _ _ _ => writes_supersede _ _) hrows
  | relinked hrows =>
    exact proceeds_update _ (fun _ _ _ => writes_link _) hrows

/-- Only a sweep goes on sweeping, and only a verdict that landed goes on to
mint. -/
theorem isPlain_proceed (hselecting : ∀ now, call ≠ .selectingDue now)
    (hsweeping : ∀ due now result, call ≠ .sweeping due now result)
    (hanswering : ∀ existing input now,
      call ≠ .answering existing input now) :
    (desk.proceed idText error clock call).2.isPlain := by
  cases call with
  | selectingDue now => exact absurd rfl (hselecting now)
  | sweeping due now result => exact absurd rfl (hsweeping due now result)
  | answering existing input now =>
    exact absurd rfl (hanswering existing input now)
  | done outcome => rfl
  | minting existing input now =>
    dsimp only [proceed]
    split
    · rfl
    · rfl
  | lookingUp pass =>
    dsimp only [proceed]
    split
    · rfl
    · cases error with
      | some error => rfl
      | none =>
        dsimp only
        split
        · rfl
        · rfl
  | gating input now =>
    cases error with
    | some error => rfl
    | none =>
      dsimp only [proceed]
      split
      · rfl
      · rfl
  | asking input now noGrantDetail =>
    cases error with
    | some error => rfl
    | none =>
      dsimp only [proceed]
      split_ifs
      · rfl
      · rfl
  | deciding approvalId input now =>
    cases error with
    | some error => rfl
    | none =>
      dsimp only [proceed]
      split
      · rfl
      · split_ifs
        · rfl
        · rfl
  | refusing approvalId =>
    cases error with
    | some error => rfl
    | none =>
      dsimp only [proceed]
      split
      · rfl
      · rfl
  | authorizing input grant now =>
    cases error with
    | some error => rfl
    | none => rfl
  | escalating approvalId input noGrantDetail seen =>
    cases error with
    | some error => rfl
    | none => rfl
  | linking approvalId escalationId =>
    cases error with
    | some error => rfl
    | none => rfl
  | noting existing grantId now =>
    cases error with
    | some error => rfl
    | none => rfl
  | superseding approvalId reason now =>
    cases error with
    | some error => rfl
    | none => rfl
  | selectingStale now =>
    cases error with
    | some error => rfl
    | none => rfl
  | reraising approval seen pass =>
    cases error with
    | some error => rfl
    | none => rfl
  | relinking approval escalationId found pass =>
    cases error with
    | some error => rfl
    | none => rfl

/-- A sweep that goes on is to resolve what it read, but for the first. -/
theorem dueRows_proceed (h : desk.Informed call) :
    ∀ due ∈ (desk.proceed idText error clock call).2.dueRows,
      ∃ row ∈ desk.approvals.rows,
        row.id = due.id ∧ row.timeoutPolicy = due.timeoutPolicy := by
  have hplain := fun h₁ h₂ h₃ => ApprovalCall.dueRows_of_isPlain
    (@isPlain_proceed idText desk error clock call h₁ h₂ h₃)
  cases call with
  | selectingDue now =>
    cases error with
    | some error => exact fun _ h => nomatch h
    | none =>
      intro due hdue
      have hrank := List.mem_of_mem_take
        (show due ∈ (Preference.rank _ _).take sweepBatchLimit from hdue)
      have hmem := List.mem_of_mem_filter (Preference.mem_rank.mp hrank)
      exact ⟨due, hmem, rfl, rfl⟩
  | sweeping due now result =>
    cases due with
    | nil => exact fun _ h => nomatch h
    | cons due left =>
      have hleft : ∀ other ∈ left, ∃ row ∈ desk.approvals.rows,
          row.id = other.id ∧ row.timeoutPolicy = other.timeoutPolicy :=
        fun other hother => h.due other (List.mem_cons_of_mem due hother)
      dsimp only [proceed]
      by_cases hpark : due.timeoutPolicy = .parkAndEscalate
      · rw [if_pos hpark]
        exact hleft
      · rw [if_neg hpark]
        cases error with
        | some error => exact fun _ h => nomatch h
        | none =>
          dsimp only
          by_cases hpending : (desk.approvals.find due.id).any
              (·.status == .pending)
          · rw [if_pos hpending]
            exact hleft
          · rw [if_neg hpending]
            exact hleft
  | answering existing input now =>
    cases error with
    | some error => exact fun _ h => nomatch h
    | none =>
      dsimp only [proceed]
      by_cases hopen : (desk.approvals.find existing.id).any (·.isOpen)
      · rw [if_pos hopen]
        dsimp only [afterVerdict]
        split_ifs
        · exact fun _ h => nomatch h
        · split
          · exact fun _ h => nomatch h
          · exact fun _ h => nomatch h
      · rw [if_neg hopen]
        exact fun _ h => nomatch h
  | _ =>
    rw [hplain (fun _ h => nomatch h) (fun _ _ _ h => nomatch h)
      (fun _ _ _ h => nomatch h)]
    exact fun _ h => nomatch h

/-- Only the gate's read goes on to an authorised row, and it asked whether a
grant may authorise the class. -/
theorem eligible_proceed {input : RaiseApprovalInput} {grant : TrustGrantRow}
    {now : Instant}
    (h : (desk.proceed idText error clock call).2
      = .authorizing input grant now) :
    isAutonomyEligible input.actionClass := by
  cases call with
  | gating input' now' =>
    cases error with
    | some error => cases h
    | none =>
      dsimp only [proceed] at h
      cases hauthorized : input'.authorization desk.grants.rows now' with
      | denied reason detail =>
        rw [hauthorized] at h
        cases h
      | authorized grant' =>
        rw [hauthorized] at h
        cases h
        exact (of_authorize_eq_authorized hauthorized).1
  | sweeping due now result =>
    cases due with
    | nil => cases h
    | cons due left =>
      dsimp only [proceed] at h
      repeat' split at h
      all_goals cases h
  | answering existing input now =>
    dsimp only [proceed, afterVerdict] at h
    repeat' split at h
    all_goals cases h
  | done outcome => cases h
  | minting existing input now =>
    dsimp only [proceed, mintFailed] at h
    repeat' split at h
    all_goals cases h
  | noting existing grantId now =>
    dsimp only [proceed, mintFailed] at h
    repeat' split at h
    all_goals cases h
  | _ =>
    dsimp only [proceed] at h
    repeat' split at h
    all_goals cases h

/-- Only the statement that mints is followed by a grant more. -/
theorem minted_eq_proceed (hminting : ∀ existing input now,
      call ≠ .minting existing input now) :
    (desk.proceed idText error clock call).1.minted = desk.minted := by
  cases call with
  | minting existing input now => exact absurd rfl (hminting existing input now)
  | sweeping due now result =>
    cases due with
    | nil => rfl
    | cons due left =>
      dsimp only [proceed]
      repeat' split
      all_goals rfl
  | done outcome => rfl
  | _ =>
    dsimp only [proceed]
    repeat' split
    all_goals rfl

/-- **Permissions and grants are bounded by answers**: a statement adds to
them no more than it adds to the answers. -/
theorem minted_proceed
    (hproceeds : Proceeds desk (desk.proceed idText error clock call).1)
    (approvalId : ℕ) :
    (if (desk.proceed idText error clock call).2.isMinting approvalId
          then 1 else 0)
        + (desk.proceed idText error clock call).1.minted.countP
          (fun entry => entry.1 == approvalId)
        + desk.answeredCount approvalId
      ≤ (if call.isMinting approvalId then 1 else 0)
        + desk.minted.countP (fun entry => entry.1 == approvalId)
        + (desk.proceed idText error clock call).1.answeredCount
          approvalId := by
  have hanswered := answeredCount_le hproceeds approvalId
  -- a call that holds no permission afterwards, and minted none
  have hnone : (desk.proceed idText error clock call).2.isMinting approvalId
        = false →
      (desk.proceed idText error clock call).1.minted = desk.minted →
      (if (desk.proceed idText error clock call).2.isMinting approvalId
            then 1 else 0)
          + (desk.proceed idText error clock call).1.minted.countP
            (fun entry => entry.1 == approvalId)
          + desk.answeredCount approvalId
        ≤ (if call.isMinting approvalId then 1 else 0)
          + desk.minted.countP (fun entry => entry.1 == approvalId)
          + (desk.proceed idText error clock call).1.answeredCount
            approvalId := by
    intro hnext hminted
    rw [hnext, hminted, if_neg Bool.false_ne_true]
    omega
  have hplain := fun h₁ h₂ h₃ => ApprovalCall.isMinting_of_isPlain
    (@isPlain_proceed idText desk error clock call h₁ h₂ h₃) approvalId
  have hkept := @minted_eq_proceed idText desk error clock call
  cases call with
  | answering existing input now =>
    refine (Decidable.em (existing.id = approvalId)).elim (fun hid => ?_)
      fun hid => ?_
    · cases error with
      | some error => exact hnone rfl rfl
      | none =>
        by_cases hopen : (desk.approvals.find existing.id).any (·.isOpen)
        · -- the request was open, and this call answered it
          have hbefore : desk.answeredCount approvalId = 0 :=
            answeredCount_of_open (hid ▸ hopen)
          have hafter : (desk.proceed idText none clock
              (.answering existing input now)).1.answeredCount approvalId
                = 1 := by
            dsimp only [proceed]
            rw [if_pos hopen]
            exact answeredCount_update_answer hid hopen
          rw [hbefore, hafter, hkept fun _ _ _ h => by cases h]
          have hle : (if (desk.proceed idText none clock (.answering existing
              input now)).2.isMinting approvalId then 1 else 0) ≤ 1 := by
            split_ifs
            · exact le_rfl
            · exact Nat.zero_le 1
          show _ ≤ 0 + _ + 1
          omega
        · refine hnone ?_ (hkept fun _ _ _ h => by cases h)
          dsimp only [proceed]
          rw [if_neg hopen]
          rfl
    · refine hnone ?_ (hkept fun _ _ _ h => by cases h)
      cases error with
      | some error => rfl
      | none =>
        dsimp only [proceed, afterVerdict]
        repeat' split
        all_goals first
          | rfl
          | exact beq_eq_false_iff_ne.mpr hid
  | minting existing input now =>
    cases hrefusal : error.or ((grantInput existing input now).refusal now) with
    | some refusal =>
      refine hnone ?_ ?_
      · dsimp only [proceed]
        rw [hrefusal]
        rfl
      · dsimp only [proceed]
        rw [hrefusal]
    | none =>
      -- the permission becomes a grant
      have hproceed : desk.proceed idText error clock
            (.minting existing input now)
          = ({ desk with
              grants :=
                desk.grants.insert ((grantInput existing input now).row clock)
                  fun _ => rfl
              minted := (existing.id, desk.grants.next) :: desk.minted },
            .noting existing desk.grants.next now) := by
        dsimp only [proceed]
        rw [hrefusal]
      rw [hproceed]
      show 0 + List.countP _ ((existing.id, _) :: desk.minted)
          + desk.answeredCount approvalId
        ≤ (if existing.id == approvalId then 1 else 0)
          + desk.minted.countP _ + desk.answeredCount approvalId
      rw [List.countP_cons]
      dsimp only
      omega
  | sweeping due now result =>
    refine hnone ?_ (hkept fun _ _ _ h => by cases h)
    cases due with
    | nil => rfl
    | cons due left =>
      dsimp only [proceed]
      repeat' split
      all_goals rfl
  | selectingDue now =>
    refine hnone ?_ (hkept fun _ _ _ h => by cases h)
    cases error with
    | some error => rfl
    | none => rfl
  | _ =>
    exact hnone (hplain (fun _ h => by cases h) (fun _ _ _ h => by cases h)
      fun _ _ _ h => by cases h) (hkept fun _ _ _ h => by cases h)

end Statement

/-! ## One turn and all of them -/

section Turn

variable {idText : ℕ → String} {desk : ApprovalDesk} {turn : ApprovalTurn}

/-- A turn that starts a call touches no table. -/
theorem step_start (h : ∀ id error clock, turn ≠ .resume id error clock) :
    desk.step idText turn
      = { desk with calls := desk.calls ++ turn.call.toList } := by
  cases turn with
  | resume id error clock => exact absurd rfl (h id error clock)
  | _ => rfl

/-- A call that starts has read nothing yet. -/
theorem isPlain_start {call : ApprovalCall} (h : call ∈ turn.call.toList) :
    call.isPlain := by
  cases turn with
  | resume id error clock => cases h
  | _ =>
    rw [List.mem_singleton.mp h]
    rfl

/-- **A turn does to the requests what one statement does.** -/
theorem proceeds_step (h : desk.Sound) :
    Proceeds desk (desk.step idText turn) := by
  cases turn with
  | resume id error clock =>
    dsimp only [step]
    cases hcall : desk.calls[id]? with
    | none => exact proceeds_of_rows rfl
    | some call =>
      have hproceeds := @proceeds_proceed idText desk error clock call
        (h.informed call (List.mem_of_getElem? hcall))
      exact ⟨hproceeds.kept, hproceeds.origin⟩
  | _ => exact proceeds_of_rows rfl

/-- What a call has read is still so after a turn. -/
theorem informed_step (hproceeds : Proceeds desk (desk.step idText turn))
    {call : ApprovalCall} (h : desk.Informed call) :
    (desk.step idText turn).Informed call := by
  refine ⟨fun due hdue => ?_, h.eligible⟩
  obtain ⟨row, hrow, hid, hpolicy⟩ := h.due due hdue
  obtain ⟨row', hrow', hwrites⟩ := hproceeds.kept row hrow
  exact ⟨row', hrow', hwrites.id.trans hid, hwrites.policy.trans hpolicy⟩

/-- A call that starts has read nothing yet. -/
theorem informed_start {call : ApprovalCall} (h : call ∈ turn.call.toList) :
    desk.Informed call := by
  refine ⟨fun due hdue => ?_, fun input grant now heq => ?_⟩
  · rw [ApprovalCall.dueRows_of_isPlain (isPlain_start h)] at hdue
    cases hdue
  · subst heq
    cases turn with
    | resume id error clock => cases h
    | _ => exact nomatch List.mem_singleton.mp h

/-- **Every turn keeps the invariant.** -/
theorem sound_step (h : desk.Sound) : (desk.step idText turn).Sound := by
  have hproceeds : Proceeds desk (desk.step idText turn) := proceeds_step h
  have hconsistent : ∀ row ∈ (desk.step idText turn).approvals.rows,
      row.IsConsistent := by
    intro row hrow
    rcases hproceeds.origin row hrow with ⟨old, hold, hwrites⟩ | hnew
    · exact hwrites.consistent (h.consistent old hold)
    · exact hnew
  by_cases hresume : ∃ id error clock, turn = .resume id error clock
  · obtain ⟨id, error, clock, rfl⟩ := hresume
    cases hcall : desk.calls[id]? with
    | none =>
      have hstep : desk.step idText (.resume id error clock) = desk := by
        dsimp only [step]
        rw [hcall]
      rw [hstep]
      exact h
    | some call =>
      have hstep : desk.step idText (.resume id error clock)
          = { (desk.proceed idText error clock call).1 with
              calls := desk.calls.set id
                (desk.proceed idText error clock call).2 } := by
        dsimp only [step]
        rw [hcall]
      have hmem : call ∈ desk.calls := List.mem_of_getElem? hcall
      obtain ⟨hid, hget⟩ := List.getElem?_eq_some_iff.mp hcall
      refine ⟨hconsistent, fun next hnext => ?_, fun approvalId => ?_⟩
      · refine informed_step hproceeds ?_
        rw [hstep] at hnext
        rcases List.mem_or_eq_of_mem_set hnext with hold | rfl
        · exact h.informed next hold
        · exact ⟨dueRows_proceed (h.informed call hmem),
            fun _ _ _ heq => eligible_proceed heq⟩
      · have hold := h.minted approvalId
        have hone := @minted_proceed idText desk error clock call
          (proceeds_proceed (h.informed call hmem)) approvalId
        have hcount := List.boole_getElem_le_countP
          (p := (·.isMinting approvalId)) hid
        rw [hget] at hcount
        rw [hstep]
        show (desk.calls.set id _).countP _
            + (desk.proceed idText error clock call).1.minted.countP _
          ≤ (desk.proceed idText error clock call).1.answeredCount approvalId
        rw [List.countP_set hid, hget]
        omega
  · have hstart : ∀ id error clock, turn ≠ .resume id error clock :=
      fun id error clock heq => hresume ⟨id, error, clock, heq⟩
    have hstep := @step_start idText desk turn hstart
    refine ⟨hconsistent, fun call hcall => ?_, fun approvalId => ?_⟩
    · refine informed_step hproceeds ?_
      rw [hstep] at hcall
      rcases List.mem_append.mp hcall with hold | hnew
      · exact h.informed call hold
      · exact informed_start hnew
    · have hnew : turn.call.toList.countP (·.isMinting approvalId) = 0 := by
        rw [List.countP_eq_zero]
        intro call hcall
        rw [ApprovalCall.isMinting_of_isPlain (isPlain_start hcall)]
        exact Bool.false_ne_true
      rw [hstep]
      show (desk.calls ++ _).countP _ + _ ≤ desk.answeredCount approvalId
      rw [List.countP_append, hnew]
      exact h.minted approvalId

end Turn

/-! ## Who comes second -/

section Second

variable {idText : ℕ → String} {desk : ApprovalDesk} {clock : Instant}
  {call : ApprovalCall} {row : ApprovalRow}

/-- An update that keeps the request it is about keeps the table. -/
theorem rows_update_eq_self {id : ℕ} {f : ApprovalRow → ApprovalRow}
    (hf : ∀ row, (f row).id = row.id)
    (h : ∀ row ∈ desk.approvals.rows, row.id = id → f row = row) :
    (desk.update id f hf).approvals.rows = desk.approvals.rows := by
  show desk.approvals.rows.map (fun row => if row.id == id then f row else row)
    = desk.approvals.rows
  conv_rhs => rw [← List.map_id desk.approvals.rows]
  refine List.map_congr_left fun row hrow => ?_
  by_cases hid : row.id = id
  · rw [if_pos (beq_iff_eq.mpr hid)]
    exact h row hrow hid
  · rw [if_neg (by rw [beq_iff_eq]; exact hid)]
    rfl

/-- **Who comes second is refused or does nothing.** -/
theorem isNoOp_proceed {approvalId : ℕ}
    (hanswers : call.answers = some approvalId) (hrow : row ∈ desk.approvals.rows) (hid : row.id = approvalId)
    (hclosed : row.isOpen = false) :
    (desk.proceed idText none clock call).2.isNoOp
      ∧ (desk.proceed idText none clock call).1.approvals.rows
        = desk.approvals.rows := by
  have hfind : desk.approvals.find approvalId = some row :=
    Table.find_eq_some.mpr ⟨hrow, hid⟩
  have hnotOpen : ¬row.isOpen = true := by
    rw [hclosed]
    exact Bool.false_ne_true
  cases call with
  | deciding approvalId' input now =>
    have heq : approvalId' = approvalId := Option.some.inj hanswers
    subst heq
    dsimp only [proceed]
    rw [hfind]
    dsimp only
    rw [if_neg hnotOpen]
    exact ⟨rfl, rfl⟩
  | answering existing input now =>
    have heq : existing.id = approvalId := Option.some.inj hanswers
    dsimp only [proceed]
    rw [heq, hfind, if_neg (by rw [Option.any_some]; exact hnotOpen)]
    exact ⟨rfl, rfl⟩
  | sweeping due now result =>
    cases due with
    | nil => cases hanswers
    | cons due left =>
      have heq : due.id = approvalId := Option.some.inj hanswers
      have hpending : ¬(desk.approvals.find due.id).any
          (·.status == .pending) = true := by
        rw [heq, hfind, Option.any_some]
        intro hstatus
        exact hnotOpen (by rw [ApprovalRow.isOpen, hstatus]; rfl)
      dsimp only [proceed]
      by_cases hpark : due.timeoutPolicy = .parkAndEscalate
      · rw [if_pos hpark]
        exact ⟨rfl, rfl⟩
      · rw [if_neg hpark, if_neg hpending]
        exact ⟨rfl, rfl⟩
  | superseding approvalId' reason now =>
    have heq : approvalId' = approvalId := Option.some.inj hanswers
    subst heq
    have hnext : (desk.proceed idText none clock
        (.superseding approvalId' reason now)).2 = .done .superseded := by
      dsimp only [proceed]
      rw [hfind]
      rfl
    refine ⟨by rw [hnext]; rfl,
      rows_update_eq_self _ fun other hother hid' => ?_⟩
    have hsame : other = row :=
      Table.eq_of_key hother hrow (hid'.trans hid.symm)
    rw [hsame, ApprovalRow.supersede, if_neg hnotOpen]
  | _ => cases hanswers

end Second

/-! ## Answered once -/

section Runs

variable (idText : ℕ → String)

/-- Of a sound desk every turn has the property. -/
theorem answeredOnce_of_sound {desk : ApprovalDesk} (h : desk.Sound)
    (turn : ApprovalTurn) : AnsweredOnce idText desk turn where
  kept row hrow hclosed := by
    obtain ⟨row', hrow', hwrites⟩ := (proceeds_step h).kept row hrow
    exact ⟨row', hrow', hwrites.id, hwrites.closed hclosed⟩
  refused _ _ _ _ _ _ _ hanswers hrow hid hclosed :=
    isNoOp_proceed hanswers hrow hid hclosed
  consistent := (sound_step h).consistent
  promised row hrow := by
    obtain ⟨row', hrow', hwrites⟩ := (proceeds_step h).kept row hrow
    exact ⟨row', hrow', hwrites.id, hwrites.policy⟩
  parked row hrow hpark :=
    ((sound_step h).consistent row hrow).of_park hpark
  minted approvalId := by
    have hminted := (@sound_step idText desk turn h).minted approvalId
    have hone : (desk.step idText turn).answeredCount approvalId ≤ 1 := by
      unfold answeredCount
      split_ifs
      · exact le_rfl
      · exact Nat.zero_le 1
    omega

/-- **An approval is answered once**, and an irreversible one only by a
person, whatever the calls, their times, their failures and the order of their
statements. -/
theorem answered_once (grants : Table TrustGrantRow)
    (escalations : Table EscalationRow) (turns : List ApprovalTurn) :
    Machine.Always (step idText) (AnsweredOnce idText)
      (opened grants escalations) turns := by
  have hopened : (opened grants escalations).Sound :=
    ⟨fun _ h => (nomatch h), fun _ h => (nomatch h),
      fun _ => Nat.zero_le _⟩
  exact @Machine.always_of_preserved _ _ (step idText) Sound
    (AnsweredOnce idText) (fun _ _ h => sound_step h)
    (fun _ turn h => answeredOnce_of_sound idText h turn) _ hopened turns

end Runs

end ApprovalDesk

end Opifex
