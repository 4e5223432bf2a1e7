import Opifex.DeviceReceipts

/-!
# One stall, one escalation

A tick that finds a run stalled looks for an outstanding escalation of the run
and kind, and creates one if there is none. Nothing else creates one, and as
long as no human acknowledges it and no tick resolves it the one that was
created stays outstanding, whatever becomes of its delivery; so the ticks that
find the same stall again create no second one (`raised_once`).
-/

namespace Opifex

/-- The action concerns this run, in this way. -/
def HandedAction.isAbout (runId : Option ℕ) (kind : EscalationKind)
    (action : HandedAction) : Bool :=
  action.runId == runId && action.kind == kind

/-- The call is about to create an escalation of the run and kind. -/
def EscalationCall.creates (runId : Option ℕ) (kind : EscalationKind) :
    EscalationCall → Bool
  | .creating action _ _ => action.isAbout runId kind
  | _ => false

namespace EscalationDesk

section Measures

variable (runId : Option ℕ) (kind : EscalationKind) (desk : EscalationDesk)

/-- How many escalations of the run and kind were created. -/
def created : ℕ := desk.escalations.rows.countP (EscalationRow.isAbout runId kind)

/-- One of them is outstanding. -/
def outstanding : Bool := (existing desk.escalations runId kind).isSome

/-- How many calls are about to create one. -/
def underWay : ℕ := desk.calls.countP (EscalationCall.creates runId kind)

end Measures

/-- The statement neither closes nor reopens an escalation of the run and
kind: it acknowledges none that is outstanding, moves none that is closed, and
is no resolution by a tick that judged the run and did not escalate it. -/
def WriteContinues (runId : Option ℕ) (kind : EscalationKind)
    (desk : EscalationDesk) : EscalationWrite → Prop
  | .create _ => True
  | .update id data =>
    ¬ desk.has id fun escalation =>
      escalation.isAbout runId kind &&
        if data.reopens then escalation.isClosed else escalation.isUnresolved
  | .resolveStale runIds => ¬ runId.any runIds.contains

/-- The lookup of an action of the run and kind that finds nothing is made when
no other call is about to create one. -/
def LooksAlone (runId : Option ℕ) (kind : EscalationKind)
    (desk : EscalationDesk) : EscalationCall → Prop
  | .raising (action :: _) _ =>
    action.isAbout runId kind → ¬ desk.outstanding runId kind →
      desk.underWay runId kind = 0
  | _ => True

/-- **The turn goes on with one stall.** -/
def Continues (runId : Option ℕ) (kind : EscalationKind)
    (desk : EscalationDesk) (turn : EscalationTurn) : Prop :=
  (∀ write ∈ desk.written turn, desk.WriteContinues runId kind write)
    ∧ ∀ call ∈ desk.callAt turn, desk.LooksAlone runId kind call

/-- A tick's raise of the run and kind goes through: it finds an outstanding
one, or creates one. -/
def Raises (runId : Option ℕ) (kind : EscalationKind) (desk : EscalationDesk)
    (turn : EscalationTurn) : Bool :=
  match desk.proceeding turn with
  | some (.raising (action :: _) _, _) =>
    action.isAbout runId kind && desk.outstanding runId kind
  | some (.creating action _ _, proceeding) =>
    action.isAbout runId kind && proceeding.write.isSome
  | _ => false

instance (runId : Option ℕ) (kind : EscalationKind) (desk : EscalationDesk) :
    ∀ write, Decidable (desk.WriteContinues runId kind write)
  | .create _ => isTrue trivial
  | .update .. | .resolveStale _ => inferInstanceAs (Decidable (¬ _))

instance (runId : Option ℕ) (kind : EscalationKind) (desk : EscalationDesk) :
    ∀ call, Decidable (desk.LooksAlone runId kind call)
  | .raising (action :: _) _ =>
    inferInstanceAs (Decidable (action.isAbout runId kind →
      ¬ desk.outstanding runId kind → desk.underWay runId kind = 0))
  | .raising [] _ | .creating .. | .loading _ | .delivering .. | .storing ..
  | .sweeping .. | .receipt .. | .marking .. | .confirming ..
  | .acknowledge .. | .acknowledging .. => isTrue trivial

instance (runId : Option ℕ) (kind : EscalationKind) (desk : EscalationDesk)
    (turn : EscalationTurn) : Decidable (desk.Continues runId kind turn) :=
  inferInstanceAs (Decidable (_ ∧ _))

/-! ## What a turn adds -/

section Turn

variable {runId : Option ℕ} {kind : EscalationKind} {desk : EscalationDesk}
  {turn : EscalationTurn} {escalation : EscalationRow}
  {write : EscalationWrite}

theorem outstanding_iff :
    desk.outstanding runId kind ↔ ∃ escalation ∈ desk.escalations.rows,
      escalation.isAbout runId kind ∧ escalation.isUnresolved := by
  rw [outstanding, existing, List.find?_isSome]
  simp only [Bool.and_eq_true]

/-- A statement that goes on with the stall leaves every escalation of it as
outstanding as it was. -/
theorem isUnresolved_onRow (hcontinues : desk.WriteContinues runId kind write)
    (hmem : escalation ∈ desk.escalations.rows)
    (habout : escalation.isAbout runId kind) :
    (write.onRow escalation).isUnresolved = escalation.isUnresolved := by
  cases write with
  | create created => rfl
  | resolveStale runIds =>
    rw [EscalationWrite.onRow, if_neg]
    rw [EscalationRow.isStale, (EscalationRow.isAbout_iff.mp habout).1,
      Bool.and_eq_true]
    exact fun hstale => hcontinues hstale.1
  | update id data =>
    rw [EscalationWrite.onRow]
    split_ifs with hid
    · subst hid
      have hafter : (data.apply escalation).isUnresolved = data.reopens :=
        Bool.not_inj (isClosed_apply data)
      rw [WriteContinues, has_of_mem hmem, habout, Bool.true_and] at hcontinues
      rw [hafter]
      cases hreopens : data.reopens with
      | true =>
        rw [hreopens, if_pos rfl, EscalationRow.isClosed, Bool.not_eq_true',
          Bool.not_eq_false] at hcontinues
        exact hcontinues.symm
      | false =>
        -- an acknowledgement of one that was closed already
        rw [hreopens, if_neg Bool.false_ne_true] at hcontinues
        exact ((Bool.not_eq_true _).mp hcontinues).symm
    · rfl

theorem created_onTable (escalations : Table EscalationRow)
    (write : EscalationWrite) :
    (write.onTable escalations).rows.countP (EscalationRow.isAbout runId kind)
      = escalations.rows.countP (EscalationRow.isAbout runId kind)
        + (match write with
          | .create escalation => if escalation.isAbout runId kind then 1 else 0
          | _ => 0) := by
  cases write with
  | create created =>
    show (escalations.rows ++ [_]).countP _ = _
    rw [List.countP_append, List.countP_singleton]
    rfl
  | update id data =>
    refine Table.countP_modify data.key_apply fun row => ?_
    cases data <;> rfl
  | resolveStale runIds =>
    exact Table.countP_modify (f := EscalationRow.resolve)
      EscalationRow.key_resolve fun row => rfl

/-- The turn creates an escalation of the run and kind. -/
def CreatesOne (runId : Option ℕ) (kind : EscalationKind)
    (desk : EscalationDesk) (turn : EscalationTurn) : Prop :=
  ∃ escalation, desk.written turn = some (.create escalation)
    ∧ escalation.isAbout runId kind

theorem created_step_of_creates (h : CreatesOne runId kind desk turn) :
    (desk.step turn).created runId kind = desk.created runId kind + 1 := by
  obtain ⟨escalation, hwritten, habout⟩ := h
  show (desk.tableAfter turn).rows.countP _ = _
  rw [tableAfter, hwritten, Option.elim_some, created_onTable]
  dsimp only
  rw [if_pos habout, created]

theorem created_step_of_not (h : ¬ CreatesOne runId kind desk turn) :
    (desk.step turn).created runId kind = desk.created runId kind := by
  show (desk.tableAfter turn).rows.countP _ = _
  rw [tableAfter]
  cases hwritten : desk.written turn with
  | none => rfl
  | some write =>
    rw [Option.elim_some, created_onTable]
    cases write with
    | create escalation =>
      have habout : ¬ escalation.isAbout runId kind :=
        fun habout => h ⟨escalation, hwritten, habout⟩
      dsimp only
      rw [if_neg habout]
      rfl
    | _ => rfl

/-- After such a turn one is outstanding. -/
theorem outstanding_step_of_creates (h : CreatesOne runId kind desk turn) :
    (desk.step turn).outstanding runId kind := by
  obtain ⟨escalation, hwritten, habout⟩ := h
  obtain ⟨place, answer, call, -, -, hwrites⟩ := written_eq_some hwritten
  cases hwrites with
  | create hrow =>
    obtain ⟨summary, source, hdata⟩ := HandedAction.row_eq_ok hrow
    refine outstanding_iff.mpr
      ⟨{ escalation with id := desk.escalations.next }, ?_, habout, ?_⟩
    · show _ ∈ (desk.tableAfter turn).rows
      rw [tableAfter, hwritten]
      exact List.mem_append_right _ (List.mem_singleton_self _)
    · rw [hdata]
      rfl

/-- **An outstanding escalation stays outstanding** while the stall goes on. -/
theorem outstanding_step (hcontinues : desk.Continues runId kind turn)
    (h : desk.outstanding runId kind) :
    (desk.step turn).outstanding runId kind := by
  obtain ⟨escalation, hmem, habout, hunresolved⟩ := outstanding_iff.mp h
  have hafter : (desk.step turn).escalations.find escalation.id = some _ :=
    find_step (Table.find_key hmem)
  refine outstanding_iff.mpr ⟨_, (Table.find_eq_some.mp hafter).1, ?_⟩
  cases hwritten : desk.written turn with
  | none => exact ⟨habout, hunresolved⟩
  | some write =>
    rw [Option.elim_some, isAbout_onRow,
      isUnresolved_onRow (hcontinues.1 write hwritten) hmem habout]
    exact ⟨habout, hunresolved⟩

/-- While the stall goes on, one becomes outstanding by being created. -/
theorem outstanding_of_step (hcontinues : desk.Continues runId kind turn)
    (h : (desk.step turn).outstanding runId kind)
    (hcreates : ¬ CreatesOne runId kind desk turn) :
    desk.outstanding runId kind := by
  obtain ⟨escalation, hmem, habout, hunresolved⟩ := outstanding_iff.mp h
  replace hmem : escalation ∈ (desk.tableAfter turn).rows := hmem
  rw [tableAfter] at hmem
  cases hwritten : desk.written turn with
  | none =>
    rw [hwritten] at hmem
    exact outstanding_iff.mpr ⟨escalation, hmem, habout, hunresolved⟩
  | some write =>
    rw [hwritten] at hmem
    rcases mem_onTable write hmem with ⟨row, hrow, rfl⟩ | ⟨created, rfl, rfl⟩
    · rw [isAbout_onRow] at habout
      rw [isUnresolved_onRow (hcontinues.1 write hwritten) hrow habout]
        at hunresolved
      exact outstanding_iff.mpr ⟨row, hrow, habout, hunresolved⟩
    · exact absurd ⟨created, hwritten, habout⟩ hcreates

/-- Taking a call out of the list takes out what it counts. -/
theorem countP_eraseIdx {α : Type*} {p : α → Bool} {l : List α} {n : ℕ} {a : α}
    (h : l[n]? = some a) :
    l.countP p = (l.eraseIdx n).countP p + if p a then 1 else 0 := by
  obtain ⟨hlt, rfl⟩ := List.getElem?_eq_some_iff.mp h
  rw [← (List.getElem_cons_eraseIdx_perm hlt).countP_eq, List.countP_cons]

/-- A call that is about to create one gets there by a lookup that found
nothing. -/
theorem creates_of_continues {escalations : Table EscalationRow} {token : ℕ}
    {answer : DeskAnswer} {call next : EscalationCall}
    (hnext : EscalationCall.Continues escalations token answer call next)
    (h : next.creates runId kind) :
    ∃ action actions recovered,
      call = .raising (action :: actions) recovered
        ∧ action.isAbout runId kind
        ∧ existing escalations runId kind = none := by
  cases hnext with
  | create hexisting actions recovered =>
    obtain ⟨hrun, hkind⟩ := (Bool.and_eq_true _ _).mp h
    rw [beq_iff_eq] at hrun hkind
    refine ⟨_, actions, recovered, rfl, h, ?_⟩
    rw [← hrun, ← hkind]
    exact hexisting
  | _ => cases h

/-- A turn that executes no statement leaves at most the calls there are. -/
theorem underWay_step_of_none (h : desk.proceeding turn = none) :
    (desk.step turn).underWay runId kind ≤ desk.underWay runId kind := by
  cases turn with
  | start request =>
    show (desk.calls ++ [_]).countP _ ≤ _
    rw [List.countP_append, List.countP_singleton]
    cases request <;> exact Nat.le_refl _
  | abandon place => exact (List.eraseIdx_sublist _ _).countP_le
  | resume place answer =>
    show (desk.calls.eraseIdx place ++ _).countP _ ≤ _
    rw [h, Option.bind_none, Option.toList_none, List.append_nil]
    exact (List.eraseIdx_sublist _ _).countP_le

/-- A statement takes its call out of the count, and puts in what the call
goes on with. -/
theorem underWay_step_of_some {call : EscalationCall} {proceeding : Proceeding}
    (h : desk.proceeding turn = some (call, proceeding)) :
    (desk.step turn).underWay runId kind
        + (if call.creates runId kind then 1 else 0)
      = desk.underWay runId kind
        + proceeding.next.toList.countP (EscalationCall.creates runId kind) := by
  obtain ⟨place, answer, rfl, hcall, -⟩ := proceeding_eq_some h
  show (desk.calls.eraseIdx place ++ _).countP _ + _ = desk.calls.countP _ + _
  rw [countP_eraseIdx hcall, List.countP_append, h, Option.bind_some]
  exact Nat.add_right_comm _ _ _

/-- While the stall goes on, a call gets about to create one when none is
outstanding and no other call is. -/
theorem underWay_step (hcontinues : desk.Continues runId kind turn) :
    (desk.step turn).underWay runId kind ≤ desk.underWay runId kind
      ∨ ¬ desk.outstanding runId kind
        ∧ (desk.step turn).underWay runId kind ≤ 1 := by
  cases hproceeding : desk.proceeding turn with
  | none => exact Or.inl (underWay_step_of_none hproceeding)
  | some proceeded =>
    obtain ⟨call, proceeding⟩ := proceeded
    have hcount : (desk.step turn).underWay runId kind + _
        = desk.underWay runId kind + _ := underWay_step_of_some hproceeding
    have hcall : call ∈ desk.callAt turn := by
      rw [callAt, hproceeding]
      rfl
    obtain ⟨place, answer, rfl, -, rfl⟩ := proceeding_eq_some hproceeding
    cases hnext :
        (call.proceed desk.escalations desk.drawn.length answer).next with
    | none =>
      rw [hnext, Option.toList_none, List.countP_nil] at hcount
      exact Or.inl (Nat.le_of_add_right_le (Nat.le_of_eq hcount))
    | some next =>
      rw [hnext, Option.toList_some, List.countP_singleton] at hcount
      by_cases hcreates : next.creates runId kind
      · obtain ⟨action, actions, recovered, rfl, habout, hexisting⟩ :=
          creates_of_continues (EscalationCall.continues_of_proceed hnext)
            hcreates
        have hnone : ¬ desk.outstanding runId kind := by
          rw [outstanding, hexisting]
          exact Bool.false_ne_true
        rw [hcontinues.2 _ hcall habout hnone, if_pos hcreates] at hcount
        exact Or.inr ⟨hnone, Nat.le_of_add_right_le (Nat.le_of_eq hcount)⟩
      · rw [if_neg hcreates] at hcount
        exact Or.inl (Nat.le_of_add_right_le (Nat.le_of_eq hcount))

/-- What a stretch with one stall has done so far: nothing was outstanding when
it began and nothing is yet, or one is outstanding, which was so when it began
or was created since. -/
inductive Episode (runId : Option ℕ) (kind : EscalationKind)
    (start desk : EscalationDesk) : Prop where
  | waiting (hstart : ¬ start.outstanding runId kind)
      (hnone : ¬ desk.outstanding runId kind)
      (hunderWay : desk.underWay runId kind ≤ 1)
      (hcreated : desk.created runId kind = start.created runId kind)
  | raised (houtstanding : desk.outstanding runId kind)
      (hunderWay : desk.underWay runId kind = 0)
      (hcreated : desk.created runId kind = start.created runId kind
        + if start.outstanding runId kind then 0 else 1)

/-- A call that creates one is counted until it does. -/
theorem underWay_step_of_creates (h : CreatesOne runId kind desk turn) :
    (desk.step turn).underWay runId kind + 1 = desk.underWay runId kind := by
  obtain ⟨escalation, hwritten, habout⟩ := h
  obtain ⟨⟨call, proceeding⟩, hproceeding, hwrite⟩ :=
    Option.bind_eq_some_iff.mp hwritten
  have hcount : (desk.step turn).underWay runId kind + _
      = desk.underWay runId kind + _ := underWay_step_of_some hproceeding
  obtain ⟨place, answer, rfl, hcall, rfl⟩ := proceeding_eq_some hproceeding
  cases EscalationCall.writes_of_proceed hwrite with
  | @create action _ hrow actions recovered =>
    obtain ⟨summary, source, rfl⟩ := HandedAction.row_eq_ok hrow
    rw [EscalationCall.proceed, hrow] at hcount
    rw [EscalationCall.creates, if_pos (show action.isAbout runId kind = true
      from habout)] at hcount
    exact hcount

/-- The escalation a stall is to have is created once. -/
theorem Episode.step {start : EscalationDesk}
    (h : Episode runId kind start desk)
    (hcontinues : desk.Continues runId kind turn) :
    Episode runId kind start (desk.step turn) := by
  by_cases hcreates : CreatesOne runId kind desk turn
  · have hcount := underWay_step_of_creates hcreates
    cases h with
    | raised houtstanding hunderWay hcreated =>
      rw [hunderWay] at hcount
      cases hcount
    | waiting hstart hnone hunderWay hcreated =>
      refine .raised (outstanding_step_of_creates hcreates) (by omega) ?_
      rw [created_step_of_creates hcreates, hcreated, if_neg hstart]
  · have hsame := created_step_of_not hcreates
    cases h with
    | raised houtstanding hunderWay hcreated =>
      refine .raised (outstanding_step hcontinues houtstanding) ?_
        (hsame.trans hcreated)
      rcases underWay_step hcontinues with hle | ⟨hnone, -⟩
      · rw [hunderWay] at hle
        exact Nat.le_zero.mp hle
      · exact absurd houtstanding hnone
    | waiting hstart hnone hunderWay hcreated =>
      refine .waiting hstart (fun h => hnone ?_) ?_ (hsame.trans hcreated)
      · exact outstanding_of_step hcontinues h hcreates
      · rcases underWay_step hcontinues with hle | ⟨-, hle⟩
        · exact hle.trans hunderWay
        · exact hle

/-- After a tick's raise went through one is outstanding. -/
theorem outstanding_step_of_raises (hcontinues : desk.Continues runId kind turn)
    (h : desk.Raises runId kind turn) :
    (desk.step turn).outstanding runId kind := by
  rw [Raises] at h
  split at h
  case h_1 action actions recovered proceeding hproceeding =>
    exact outstanding_step hcontinues ((Bool.and_eq_true _ _).mp h).2
  case h_2 action actions recovered proceeding hproceeding =>
    obtain ⟨habout, hsome⟩ := (Bool.and_eq_true _ _).mp h
    obtain ⟨write, hwrite⟩ := Option.isSome_iff_exists.mp hsome
    have hwritten : desk.written turn = some write := by
      rw [written, hproceeding, Option.bind_some]
      exact hwrite
    obtain ⟨place, answer, rfl, hcall, rfl⟩ := proceeding_eq_some hproceeding
    cases EscalationCall.writes_of_proceed hwrite with
    | create hrow =>
      obtain ⟨summary, source, rfl⟩ := HandedAction.row_eq_ok hrow
      exact outstanding_step_of_creates ⟨_, hwritten, habout⟩
  case h_3 => cases h

end Turn

/-! ## Runs -/

/-- **A stretch with one stall has one escalation**: at most one is created,
none if one was outstanding, and exactly one otherwise once a raise of it went
through. -/
structure OneEscalation (runId : Option ℕ) (kind : EscalationKind)
    (desk : EscalationDesk) (turns : List EscalationTurn) : Prop where
  atMost : (Machine.run step desk turns).created runId kind
    ≤ desk.created runId kind + if desk.outstanding runId kind then 0 else 1
  exactly : ¬ Machine.Always step
      (fun desk turn => ¬ desk.Raises runId kind turn) desk turns →
    (Machine.run step desk turns).created runId kind
      = desk.created runId kind + if desk.outstanding runId kind then 0 else 1

/-- **One continuous stall, one escalation.** From any desk with no raise of
the run and kind under way, along any interleaving that acknowledges no
outstanding escalation of it, in which every tick that judged the run escalated
it. -/
theorem raised_once (runId : Option ℕ) (kind : EscalationKind)
    (desk : EscalationDesk) (turns : List EscalationTurn)
    (hidle : desk.underWay runId kind = 0)
    (hcontinues : Machine.Always step (Continues runId kind) desk turns) :
    OneEscalation runId kind desk turns := by
  have hstart : Episode runId kind desk desk := by
    by_cases h : desk.outstanding runId kind
    · refine .raised h hidle ?_
      rw [if_pos h, Nat.add_zero]
    · exact .waiting h h (hidle ▸ Nat.zero_le 1) rfl
  have hend : Episode runId kind desk (Machine.run step desk turns) :=
    Machine.run_invariant (fun _ _ h hguard => h.step hguard) hstart hcontinues
  constructor
  · cases hend with
    | waiting hstart hnone hunderWay hcreated =>
      rw [hcreated]
      exact Nat.le_add_right _ _
    | raised houtstanding hunderWay hcreated => exact Nat.le_of_eq hcreated
  · intro hraises
    have hkeeps : ∀ desk turn, outstanding runId kind desk = true →
        Continues runId kind desk turn →
          outstanding runId kind (step desk turn) = true :=
      fun _ _ h hguard => outstanding_step hguard h
    have houtstanding : (Machine.run step desk turns).outstanding runId kind :=
      Machine.run_of_event hkeeps
        (fun _ _ hguard h => outstanding_step_of_raises hguard h) hcontinues
        hraises
    cases hend with
    | waiting hstart hnone hunderWay hcreated => exact absurd houtstanding hnone
    | raised hsome hunderWay hcreated => exact hcreated

/-- A stall raised, sent, timed out, sent again, confirmed by the device and
found again. -/
theorem raised_once_resent :
    OneEscalation (some 1) .runStalled opened
      (raise [stallFound] ++ sendOne 1000 ++ DeliveryHistory.timeOut 200000
        ++ sendOne 260000 ++ receive 1 270000 ++ raise [stallFound]) :=
  raised_once _ _ _ _ (by decide) (by decide)

/-- The statement is no resolution by a tick that judged the run and did not
escalate it. -/
def Spares (runId : Option ℕ) : EscalationWrite → Bool
  | .resolveStale runIds => !runId.any runIds.contains
  | _ => true

/-- **An operator acknowledges a stall that goes on**: the next tick raises it
again, though each tick escalated the run and none resolved anything. -/
theorem raised_again_after_acknowledgement :
    Machine.Always step
        (fun desk turn => ∀ write ∈ desk.written turn, Spares (some 1) write)
        opened (raise [stallFound] ++ acknowledgeOne ++ raise [stallFound])
      ∧ (Machine.run step opened
          (raise [stallFound] ++ acknowledgeOne
            ++ raise [stallFound])).created (some 1) .runStalled = 2 := by
  decide

end EscalationDesk

end Opifex
