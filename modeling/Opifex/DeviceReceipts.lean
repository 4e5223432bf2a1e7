import Opifex.EscalationLifecycle

/-!
# Receipts from devices

A device that shows a notification posts the token its payload carried. The
token is drawn for one attempt, and the row holds one: it is written after the
send, and the next attempt overwrites it. So a receipt is found when the last
token stored for its escalation is its own, which is how long an attempt is the
last one, once its update landed.

What a run did to tokens is kept beside the desk: which payloads transports
took, and which tokens were stored.
-/

namespace Opifex

/-- Measurable, raised, never delivered. -/
def EscalationRow.isAwaitingNotification (escalation : EscalationRow) : Bool :=
  escalation.progressStoppedAt.isSome && escalation.notifyLatencyMs.isNone

/-- The token the update stores. -/
def EscalationUpdate.token : EscalationUpdate → Option ℕ
  | .dispatched _ receiptId _ _ | .delivered _ receiptId _ _ => some receiptId
  | _ => none

/-- The token the statement stores, and for which escalation. -/
def EscalationWrite.token : EscalationWrite → Option (ℕ × ℕ)
  | .update id data => data.token.map (id, ·)
  | _ => none

namespace EscalationCall

/-- The escalations a pass has loaded and still has to send. -/
def toSend : EscalationCall → List ℕ
  | .delivering pending _ | .storing _ _ _ pending _ => pending.map (·.id)
  | _ => []

/-- The escalations a call will read or update by id. -/
def ids : EscalationCall → List ℕ
  | .delivering pending _ => pending.map (·.id)
  | .storing escalation _ _ pending _ =>
    escalation.id :: pending.map (·.id)
  | .marking id _ _ => [id]
  | .confirming escalation _ _ => [escalation.id]
  | _ => []

/-- The token a call will store, and for which escalation. -/
def token : EscalationCall → Option (ℕ × ℕ)
  | .storing escalation receiptId _ _ _ => some (escalation.id, receiptId)
  | .marking id receiptId _ => some (id, receiptId)
  | .confirming escalation receiptId _ => some (escalation.id, receiptId)
  | _ => none

/-- The token of the receipt the call records. -/
def receiptId : EscalationCall → Option ℕ
  | .receipt receiptId _ | .marking _ receiptId _ | .confirming _ receiptId _ =>
    some receiptId
  | _ => none

end EscalationCall

/-! ## Histories -/

namespace EscalationDesk

/-- The call a turn proceeds with. -/
def callAt (desk : EscalationDesk) (turn : EscalationTurn) :
    Option EscalationCall :=
  (desk.proceeding turn).map Prod.fst

/-- The token of the payload the turn's sends gave a transport. -/
def handed (desk : EscalationDesk) (turn : EscalationTurn) : Option ℕ :=
  (desk.proceeding turn).bind fun (_, proceeding) =>
    match proceeding.next with
    | some (.storing _ receiptId attempt _ _) =>
      if attempt.taken then some receiptId else none
    | _ => none

end EscalationDesk

/-- The desk, and what happened to tokens. The lists are ghost: they hold what the push
services took and what the rows were given, for the statements about receipts. -/
structure DeliveryHistory where
  desk : EscalationDesk
  /-- The tokens of the payloads a transport took. -/
  handed : List ℕ
  /-- The tokens that were stored, each with its escalation, latest first. -/
  stored : List (ℕ × ℕ)

namespace DeliveryHistory

/-- A history that starts with no escalations. -/
def opened : DeliveryHistory := ⟨.opened, [], []⟩

/-- One turn. -/
def step (history : DeliveryHistory) (turn : EscalationTurn) :
    DeliveryHistory where
  desk := history.desk.step turn
  handed := (history.desk.handed turn).toList ++ history.handed
  stored :=
    ((history.desk.written turn).bind EscalationWrite.token).toList ++
      history.stored

/-- The token that was stored last for an escalation. -/
def lastStored (history : DeliveryHistory) (id : ℕ) : Option ℕ :=
  (history.stored.find? fun entry => entry.1 == id).map Prod.snd

/-- An update leaves no confirmed escalation pending. -/
def LeavesFinal (history : DeliveryHistory) (id : ℕ)
    (data : EscalationUpdate) : Prop :=
  ∀ escalation ∈ history.desk.escalations.find id,
    escalation.isNotified → ¬ (data.apply escalation).isPending

/-- The next statement of a call is in time: the token of a receipt that is
looked up is the last one stored for its escalation; a delivery is written when
no pass has the escalation still to send, with a latency its column holds; and
no update of an attempt or of the sweep puts a confirmed escalation back in the
queue. -/
def CallTimely (history : DeliveryHistory) : EscalationCall → Prop
  | .receipt receiptId _ =>
    receiptId ∈ history.handed →
      ∀ id ∈ history.desk.drawn[receiptId]?,
        history.lastStored id = some receiptId
  | .confirming escalation _ deliveredAt =>
    (∀ call ∈ history.desk.calls, escalation.id ∉ call.toSend)
      ∧ (escalation.progressStoppedAt.map fun stoppedAt =>
          elapsed stoppedAt deliveredAt).all fitsInteger
  | .storing escalation receiptId attempt _ now =>
    history.LeavesFinal escalation.id (attempt.update receiptId now)
  | .sweeping (escalation :: _) timeoutMs =>
    history.LeavesFinal escalation.id
      (.unconfirmed (escalation.unconfirmedReason timeoutMs))
  | _ => True

/-- **The turn is in time.** -/
def Timely (history : DeliveryHistory) (turn : EscalationTurn) : Prop :=
  ∀ call ∈ history.desk.callAt turn, history.CallTimely call

instance (history : DeliveryHistory) (id : ℕ) (data : EscalationUpdate) :
    Decidable (history.LeavesFinal id data) :=
  inferInstanceAs (Decidable (∀ escalation ∈ history.desk.escalations.find id,
    escalation.isNotified → ¬ (data.apply escalation).isPending))

instance (history : DeliveryHistory) :
    ∀ call, Decidable (history.CallTimely call)
  | .receipt receiptId _ =>
    inferInstanceAs (Decidable (receiptId ∈ history.handed →
      ∀ id ∈ history.desk.drawn[receiptId]?,
        history.lastStored id = some receiptId))
  | .confirming .. => inferInstanceAs (Decidable (_ ∧ _))
  | .storing .. | .sweeping (_ :: _) _ =>
    inferInstanceAs (Decidable (history.LeavesFinal _ _))
  | .raising .. | .creating .. | .loading _ | .delivering .. | .sweeping [] _
  | .marking .. | .acknowledge .. | .acknowledging .. => isTrue trivial

instance (history : DeliveryHistory) (turn : EscalationTurn) :
    Decidable (history.Timely turn) :=
  inferInstanceAs (Decidable (∀ call ∈ history.desk.callAt turn,
    history.CallTimely call))

/-- **A receipt is never refused for a notification that was really sent**,
turn by turn. -/
structure Settles (history : DeliveryHistory) (turn : EscalationTurn) :
    Prop where
  /-- The lookup finds the escalation the payload was about. -/
  found : ∀ receiptId arrivedAt,
    history.desk.callAt turn = some (.receipt receiptId arrivedAt) →
      receiptId ∈ history.handed →
        ∃ escalation,
          history.desk.escalations.rows.find? (·.receiptId == some receiptId)
              = some escalation
            ∧ history.desk.drawn[receiptId]? = some escalation.id
  /-- When the call returns, the escalation is delivered. -/
  recorded : ∀ call proceeding receiptId,
    history.desk.proceeding turn = some (call, proceeding) →
      call.receiptId = some receiptId → receiptId ∈ history.handed →
        proceeding.next = none →
          ∃ id, history.desk.drawn[receiptId]? = some id
            ∧ (history.desk.step turn).has id EscalationRow.isNotified
  /-- An escalation that is delivered is not sent again. -/
  unsent : ∀ escalation pending now,
    history.desk.callAt turn
        = some (.delivering (escalation :: pending) now) →
      ¬ history.desk.has escalation.id EscalationRow.isNotified
  /-- Nor is it counted as never notified. -/
  counted : ∀ id, (history.desk.step turn).has id EscalationRow.isNotified →
    ¬ (history.desk.step turn).has id EscalationRow.isAwaitingNotification

/-! ## The invariant -/

/-- What a call has read is still so, for the parts nobody writes: its token was drawn
for its escalation, and the rows it has loaded are there with the moment their progress
stopped. -/
structure CallSound (desk : EscalationDesk) (call : EscalationCall) :
    Prop where
  drawn : ∀ id receiptId, call.token = some (id, receiptId) →
    desk.drawn[receiptId]? = some id
  stored : ∀ id ∈ call.ids, ∃ escalation,
    desk.escalations.find id = some escalation
  read : ∀ escalation receiptId deliveredAt,
    call = .confirming escalation receiptId deliveredAt →
      ∀ row, desk.escalations.find escalation.id = some row →
        row.progressStoppedAt = escalation.progressStoppedAt

/-- **The invariant of a history.** Tokens belong to one escalation each, the column of
a row holds the last that was stored, and a row that was notified or confirmed does not
come back to the queue. -/
structure Sound (history : DeliveryHistory) : Prop where
  /-- A token in a row was drawn for it. -/
  rows : ∀ escalation ∈ history.desk.escalations.rows, ∀ receiptId,
    escalation.receiptId = some receiptId →
      history.desk.drawn[receiptId]? = some escalation.id
  calls : ∀ call ∈ history.desk.calls, CallSound history.desk call
  handed : ∀ receiptId ∈ history.handed,
    ∃ id, history.desk.drawn[receiptId]? = some id
  /-- The row holds the token that was stored last. -/
  column : ∀ id receiptId, history.lastStored id = some receiptId →
    ∃ escalation, history.desk.escalations.find id = some escalation
      ∧ escalation.receiptId = some receiptId
  counted : ∀ id, history.desk.has id EscalationRow.isNotified →
    ¬ history.desk.has id EscalationRow.isAwaitingNotification
  /-- A confirmed escalation is out of the queue, and in no pass. -/
  final : ∀ id, history.desk.has id EscalationRow.isNotified →
    ¬ history.desk.has id EscalationRow.isPending
      ∧ ∀ call ∈ history.desk.calls, id ∉ call.toSend

/-! ## What a turn stores -/

section Stores

variable {escalation : EscalationRow} {write : EscalationWrite}
  {id receiptId : ℕ}

theorem receiptId_apply (data : EscalationUpdate) :
    (data.apply escalation).receiptId
      = data.token.or escalation.receiptId := by
  cases data <;> rfl

/-- A row holds the token a statement stored in it, and otherwise the one it
held. -/
theorem receiptId_onRow (write : EscalationWrite)
    (h : (write.onRow escalation).receiptId = some receiptId) :
    escalation.receiptId = some receiptId
      ∨ write.token = some (escalation.id, receiptId) := by
  cases write with
  | create row => exact Or.inl h
  | resolveStale runIds =>
    rw [EscalationWrite.onRow] at h
    split_ifs at h <;> exact Or.inl h
  | update other data =>
    rw [EscalationWrite.onRow] at h
    split_ifs at h with hid
    · rw [receiptId_apply] at h
      rw [EscalationWrite.token, hid]
      cases htoken : data.token with
      | none =>
        rw [htoken] at h
        exact Or.inl h
      | some stored =>
        rw [htoken] at h
        cases h
        exact Or.inr rfl
    · exact Or.inl h

theorem receiptId_onRow_of_token
    (h : write.token = some (escalation.id, receiptId)) :
    (write.onRow escalation).receiptId = some receiptId := by
  cases write with
  | create row => cases h
  | resolveStale runIds => cases h
  | update other data =>
    rw [EscalationWrite.token, Option.map_eq_some_iff] at h
    obtain ⟨stored, htoken, hentry⟩ := h
    cases hentry
    rw [EscalationWrite.onRow, if_pos rfl, receiptId_apply, htoken]
    rfl

theorem receiptId_onRow_of_ne
    (h : ∀ stored, write.token ≠ some (escalation.id, stored)) :
    (write.onRow escalation).receiptId = escalation.receiptId := by
  cases write with
  | create row => rfl
  | resolveStale runIds =>
    rw [EscalationWrite.onRow]
    split_ifs <;> rfl
  | update other data =>
    rw [EscalationWrite.onRow]
    split_ifs with hid
    · cases htoken : data.token with
      | none =>
        rw [receiptId_apply, htoken]
        rfl
      | some stored =>
        refine absurd ?_ (h stored)
        rw [EscalationWrite.token, htoken, hid]
        rfl
    · rfl

theorem progressStoppedAt_onRow (write : EscalationWrite) :
    (write.onRow escalation).progressStoppedAt
      = escalation.progressStoppedAt := by
  cases write with
  | create row => rfl
  | resolveStale runIds =>
    rw [EscalationWrite.onRow]
    split_ifs <;> rfl
  | update other data =>
    rw [EscalationWrite.onRow]
    split_ifs
    · cases data <;> rfl
    · rfl

/-- What an attempt stores is the token it was sent with. -/
theorem token_update {attempt : Attempt} {now : Instant} {token : ℕ}
    (h : (attempt.update token now).token = some receiptId) :
    receiptId = token := by
  rw [Attempt.update] at h
  split_ifs at h
  · exact (Option.some.inj h).symm
  · exact (Option.some.inj h).symm
  · cases h

theorem isOfDelivery_update (attempt : Attempt) (token : ℕ) (now : Instant) :
    (attempt.update token now).isOfDelivery = true := by
  rw [Attempt.update]
  split_ifs <;> rfl

/-- A delivery is written by the call that records a receipt. -/
theorem confirming_of_writes {answer : DeskAnswer} {call : EscalationCall}
    {transport : String} {deliveredAt : Instant} {latency : Option ℤ}
    (hwrites : EscalationCall.Writes answer call
      (.update id (.delivered transport receiptId deliveredAt latency))) :
    ∃ escalation, escalation.id = id
      ∧ call = .confirming escalation receiptId deliveredAt
      ∧ latency = escalation.progressStoppedAt.map fun stoppedAt =>
          elapsed stoppedAt deliveredAt := by
  generalize hwrite : EscalationWrite.update id _ = write at hwrites
  cases hwrites with
  | confirm hfits token =>
    cases hwrite
    exact ⟨_, rfl, rfl, rfl⟩
  | store escalation token attempt pending now =>
    have hdelivery := isOfDelivery_update attempt token now
    rw [← (EscalationWrite.update.inj hwrite).2] at hdelivery
    cases hdelivery
  | _ => cases hwrite

/-- A statement stores the token its call was to store. -/
theorem token_of_writes {answer : DeskAnswer} {call : EscalationCall}
    (hwrites : EscalationCall.Writes answer call write)
    (h : write.token = some (id, receiptId)) :
    call.token = some (id, receiptId) ∧ id ∈ call.ids := by
  cases hwrites with
  | store escalation token attempt pending now =>
    rw [EscalationWrite.token, Option.map_eq_some_iff] at h
    obtain ⟨stored, htoken, hentry⟩ := h
    cases hentry
    rw [token_update htoken]
    exact ⟨rfl, List.mem_cons_self⟩
  | confirm hfits token =>
    cases h
    exact ⟨rfl, List.mem_singleton_self _⟩
  | _ => cases h

end Stores

/-! ## What a turn keeps -/

section Keeps

variable {history : DeliveryHistory} {turn : EscalationTurn}
  {desk : EscalationDesk} {call next : EscalationCall} {id receiptId : ℕ}
  {escalation : EscalationRow}

/-- A token that was drawn stays drawn. -/
theorem drawn_step (h : desk.drawn[receiptId]? = some id) :
    (desk.step turn).drawn[receiptId]? = some id := by
  obtain ⟨hlt, -⟩ := List.getElem?_eq_some_iff.mp h
  show (desk.drawn ++ _)[receiptId]? = some id
  rw [List.getElem?_append_left hlt, h]

/-- No turn moves the stop of a stored escalation. -/
theorem progressStoppedAt_step {row : EscalationRow}
    (hfind : desk.escalations.find id = some escalation)
    (hrow : (desk.step turn).escalations.find id = some row) :
    row.progressStoppedAt = escalation.progressStoppedAt := by
  rw [find_step hfind] at hrow
  cases hrow
  cases desk.written turn with
  | none => rfl
  | some write => exact progressStoppedAt_onRow write

/-- What a call has read stays so. -/
theorem CallSound.step (h : CallSound desk call) :
    CallSound (desk.step turn) call where
  drawn id receiptId htoken := drawn_step (h.drawn id receiptId htoken)
  stored id hid := exists_find_step (h.stored id hid)
  read escalation receiptId deliveredAt hcall row hrow := by
    have hid : escalation.id ∈ call.ids := by
      rw [hcall]
      exact List.mem_singleton_self _
    obtain ⟨before, hbefore⟩ := h.stored escalation.id hid
    rw [progressStoppedAt_step hbefore hrow]
    exact h.read escalation receiptId deliveredAt hcall before hbefore

/-- A call that neither stores a token nor reads by id has nothing to keep. -/
theorem CallSound.of_none (htoken : call.token = none)
    (hids : call.ids = []) : CallSound desk call where
  drawn id receiptId h := by
    rw [htoken] at h
    cases h
  stored id hid := by
    rw [hids] at hid
    cases hid
  read escalation receiptId deliveredAt hcall := by
    rw [hcall] at htoken
    cases htoken

/-- What a call goes on with is sound after the turn. -/
theorem Sound.callSound_of_continues (h : Sound history) {place : ℕ}
    {answer : DeskAnswer} (hcall : history.desk.calls[place]? = some call)
    (hnext : EscalationCall.Continues history.desk.escalations
      history.desk.drawn.length answer call next) :
    CallSound (history.desk.step (.resume place answer)) next := by
  have hsound := h.calls call (List.mem_of_getElem? hcall)
  cases hnext with
  | suppress | create | created | sent | swept | acknowledging =>
    exact .of_none rfl rfl
  | load now =>
    refine ⟨fun id receiptId h => (nomatch h), fun id hid => ?_,
      fun escalation receiptId deliveredAt h => nomatch h⟩
    obtain ⟨escalation, hpending, rfl⟩ := List.mem_map.mp hid
    have hmem := List.mem_of_mem_take hpending
    rw [Preference.mem_rank, List.mem_filter] at hmem
    exact exists_find_step ⟨escalation, Table.find_key hmem.1⟩
  | send escalation pending now =>
    refine ⟨fun id receiptId htoken => ?_, fun id hid => ?_,
      fun escalation receiptId deliveredAt h => nomatch h⟩
    · cases htoken
      -- the token is drawn by this very statement
      show (history.desk.drawn ++ (history.desk.proceeding _).elim [] _)[_]? = _
      rw [EscalationDesk.proceeding, hcall,
        List.getElem?_append_right (Nat.le_refl _), Nat.sub_self]
      rfl
    · exact exists_find_step (hsound.stored id hid)
  | stored escalation token attempt pending now =>
    refine ⟨fun id receiptId h => (nomatch h), fun id hid => ?_,
      fun escalation receiptId deliveredAt h => nomatch h⟩
    exact exists_find_step (hsound.stored id (List.mem_cons_of_mem _ hid))
  | @found escalation token hfind hopen arrivedAt =>
    have hmem := List.mem_of_find?_eq_some hfind
    have htoken : escalation.receiptId = some token := by
      simpa using List.find?_some hfind
    refine ⟨fun id receiptId hstore => ?_, fun id hid => ?_,
      fun escalation receiptId deliveredAt h => nomatch h⟩
    · cases hstore
      exact drawn_step (h.rows escalation hmem token htoken)
    · rw [List.mem_singleton.mp hid]
      exact exists_find_step ⟨escalation, Table.find_key hmem⟩
  | @read escalation id hfind hopen token deliveredAt =>
    obtain ⟨hmem, rfl⟩ := Table.find_eq_some.mp hfind
    refine ⟨fun id receiptId hstore => ?_, fun id hid => ?_,
      fun escalation receiptId deliveredAt h row hrow => ?_⟩
    · cases hstore
      exact drawn_step (hsound.drawn _ _ rfl)
    · rw [List.mem_singleton.mp hid]
      exact exists_find_step ⟨escalation, Table.find_key hmem⟩
    · cases h
      exact progressStoppedAt_step (Table.find_key hmem) hrow

/-- A statement that stores a token stores one drawn for a stored row. -/
theorem Sound.token_of_written (h : Sound history) {write : EscalationWrite}
    (hwritten : history.desk.written turn = some write)
    (htoken : write.token = some (id, receiptId)) :
    history.desk.drawn[receiptId]? = some id
      ∧ ∃ escalation, history.desk.escalations.find id = some escalation := by
  obtain ⟨place, answer, call, -, hcall, hwrites⟩ := written_eq_some hwritten
  obtain ⟨hcalltoken, hid⟩ := token_of_writes hwrites htoken
  have hsound := h.calls call (List.mem_of_getElem? hcall)
  exact ⟨hsound.drawn id receiptId hcalltoken, hsound.stored id hid⟩

theorem Sound.rows_step (h : Sound history)
    (hmem : escalation ∈ (history.desk.step turn).escalations.rows)
    (hreceipt : escalation.receiptId = some receiptId) :
    (history.desk.step turn).drawn[receiptId]? = some escalation.id := by
  replace hmem : escalation ∈ (history.desk.tableAfter turn).rows := hmem
  rw [EscalationDesk.tableAfter] at hmem
  cases hwritten : history.desk.written turn with
  | none =>
    rw [hwritten] at hmem
    exact drawn_step (h.rows escalation hmem receiptId hreceipt)
  | some write =>
    rw [hwritten] at hmem
    rcases mem_onTable write hmem with ⟨row, hrow, rfl⟩ | ⟨created, rfl, rfl⟩
    · rw [key_onRow]
      rcases receiptId_onRow write hreceipt with hheld | htoken
      · exact drawn_step (h.rows row hrow receiptId hheld)
      · exact drawn_step (h.token_of_written hwritten htoken).1
    · -- a row is created without a token
      obtain ⟨place, answer, call, -, -, hwrites⟩ := written_eq_some hwritten
      cases hwrites with
      | create hrow =>
        obtain ⟨summary, source, rfl⟩ := HandedAction.row_eq_ok hrow
        cases hreceipt

theorem Sound.calls_step (h : Sound history)
    (hmem : call ∈ (history.desk.step turn).calls) :
    CallSound (history.desk.step turn) call := by
  rcases mem_calls_step hmem with hold | ⟨request, -, rfl⟩ |
    ⟨place, answer, before, rfl, hcall, hnext⟩
  · exact (h.calls call hold).step
  · cases request <;> exact .of_none rfl rfl
  · exact h.callSound_of_continues hcall hnext

/-- A payload is handed over with the token its statement draws. -/
theorem drawn_of_handed (hhanded : desk.handed turn = some receiptId) :
    ∃ id, (desk.step turn).drawn[receiptId]? = some id := by
  obtain ⟨⟨call, proceeding⟩, hproceeding, hnext⟩ :=
    Option.bind_eq_some_iff.mp hhanded
  obtain ⟨place, answer, rfl, hcall, rfl⟩ := proceeding_eq_some hproceeding
  dsimp only at hnext
  split at hnext
  case h_2 => cases hnext
  case h_1 escalation token attempt pending now hcontinues =>
    split_ifs at hnext
    cases hnext
    cases EscalationCall.continues_of_proceed hcontinues with
    | send =>
      refine ⟨escalation.id, ?_⟩
      show (desk.drawn ++ (desk.proceeding _).elim [] _)[_]? = _
      rw [hproceeding, List.getElem?_append_right (Nat.le_refl _),
        Nat.sub_self]
      rfl

theorem Sound.handed_step (h : Sound history)
    (hmem : receiptId ∈ (history.step turn).handed) :
    ∃ id, (history.desk.step turn).drawn[receiptId]? = some id := by
  rcases List.mem_append.mp hmem with hnew | hold
  · exact drawn_of_handed (Option.mem_toList.mp hnew)
  · obtain ⟨id, hid⟩ := h.handed receiptId hold
    exact ⟨id, drawn_step hid⟩

/-- The token stored last is the one this turn stores, if it stores one for
the escalation. -/
theorem lastStored_step :
    (history.step turn).lastStored id
      = (((history.desk.written turn).bind EscalationWrite.token).filter
          (·.1 == id)).elim (history.lastStored id) (some ·.2) := by
  rw [lastStored, step]
  cases (history.desk.written turn).bind EscalationWrite.token with
  | none => rfl
  | some entry =>
    rw [Option.toList_some, List.singleton_append, List.find?_cons,
      Option.filter_some]
    cases entry.1 == id <;> rfl

theorem Sound.column_step (h : Sound history)
    (hlast : (history.step turn).lastStored id = some receiptId) :
    ∃ escalation,
      (history.desk.step turn).escalations.find id = some escalation
        ∧ escalation.receiptId = some receiptId := by
  rw [lastStored_step] at hlast
  cases hstored : ((history.desk.written turn).bind
      EscalationWrite.token).filter (·.1 == id) with
  | some entry =>
    obtain ⟨other, token⟩ := entry
    rw [hstored] at hlast
    cases hlast
    obtain ⟨hentry, hid⟩ := Option.filter_eq_some_iff.mp hstored
    obtain ⟨write, hwritten, htoken⟩ := Option.bind_eq_some_iff.mp hentry
    obtain rfl : other = id := beq_iff_eq.mp hid
    obtain ⟨escalation, hfind⟩ := (h.token_of_written hwritten htoken).2
    obtain rfl := (Table.find_eq_some.mp hfind).2
    refine ⟨_, find_step hfind, ?_⟩
    rw [hwritten]
    exact receiptId_onRow_of_token htoken
  | none =>
    rw [hstored] at hlast
    obtain ⟨escalation, hfind, hreceipt⟩ := h.column id receiptId hlast
    refine ⟨_, find_step hfind, ?_⟩
    cases hwritten : history.desk.written turn with
    | none => exact hreceipt
    | some write =>
      rw [← hreceipt]
      refine receiptId_onRow_of_ne fun stored htoken => ?_
      obtain rfl := (Table.find_eq_some.mp hfind).2
      rw [hwritten, Option.bind_some, htoken, Option.filter_some,
        show (escalation.id == Keyed.key escalation) = true from
          beq_self_eq_true _] at hstored
      cases hstored

/-- A statement that confirms a row is the update of a receipt. -/
theorem isNotified_of_onRow {write : EscalationWrite}
    (h : (write.onRow escalation).isNotified) :
    escalation.isNotified ∨ ∃ transport token deliveredAt latency,
      write = .update escalation.id
        (.delivered transport token deliveredAt latency) := by
  cases write with
  | create row => exact Or.inl h
  | resolveStale runIds =>
    rw [EscalationWrite.onRow] at h
    split_ifs at h <;> exact Or.inl h
  | update other data =>
    rw [EscalationWrite.onRow] at h
    split_ifs at h with hid
    · cases data with
      | delivered transport token deliveredAt latency =>
        exact Or.inr ⟨transport, token, deliveredAt, latency, by rw [hid]⟩
      | _ => exact Or.inl h
    · exact Or.inl h

/-- The stop and the latency of a row are what they were, unless a receipt is
recorded. -/
theorem isAwaitingNotification_onRow {write : EscalationWrite} :
    (write.onRow escalation).isAwaitingNotification
        = escalation.isAwaitingNotification
      ∨ ∃ transport token deliveredAt latency,
          write = .update escalation.id
            (.delivered transport token deliveredAt latency) := by
  cases write with
  | create row => exact Or.inl rfl
  | resolveStale runIds =>
    rw [EscalationWrite.onRow]
    split_ifs <;> exact Or.inl rfl
  | update other data =>
    rw [EscalationWrite.onRow]
    split_ifs with hid
    · cases data with
      | delivered transport token deliveredAt latency =>
        exact Or.inr ⟨transport, token, deliveredAt, latency, by rw [hid]⟩
      | _ => exact Or.inl rfl
    · exact Or.inl rfl

/-- A confirmed escalation was stored before the turn. -/
theorem stored_of_notified
    (h : (desk.step turn).has id EscalationRow.isNotified) :
    ∃ escalation, desk.escalations.find id = some escalation := by
  cases hfind : desk.escalations.find id with
  | some escalation => exact ⟨escalation, rfl⟩
  | none =>
    cases hafter : (desk.step turn).escalations.find id with
    | none =>
      rw [EscalationDesk.has, hafter] at h
      cases h
    | some created =>
      rw [EscalationDesk.has_of_find hafter] at h
      exact absurd h (EscalationDesk.isNotified_of_appears hfind hafter)

/-- The delivery a turn writes has a latency if its escalation has a stop. -/
theorem Sound.latency_of_written (h : Sound history) {transport : String}
    {deliveredAt : Instant} {latency : Option ℤ}
    (hfind : history.desk.escalations.find id = some escalation)
    (hwritten : history.desk.written turn
      = some (.update id (.delivered transport receiptId deliveredAt latency))) :
    latency.isSome = escalation.progressStoppedAt.isSome := by
  obtain ⟨place, answer, call, -, hcall, hwrites⟩ := written_eq_some hwritten
  obtain ⟨read, rfl, rfl, rfl⟩ := confirming_of_writes hwrites
  have hread := (h.calls _ (List.mem_of_getElem? hcall)).read _ _ _ rfl
    escalation hfind
  rw [hread, Option.isSome_map]

theorem Sound.counted_step (h : Sound history)
    (hnotified : (history.desk.step turn).has id EscalationRow.isNotified) :
    ¬ (history.desk.step turn).has id EscalationRow.isAwaitingNotification := by
  obtain ⟨escalation, hfind⟩ := stored_of_notified hnotified
  obtain rfl := (Table.find_eq_some.mp hfind).2
  have hbefore := h.counted (Keyed.key escalation)
  rw [EscalationDesk.has_of_find hfind, EscalationDesk.has_of_find hfind]
    at hbefore
  rw [EscalationDesk.has_of_find (find_step hfind)] at hnotified ⊢
  cases hwritten : history.desk.written turn with
  | none =>
    rw [hwritten] at hnotified
    exact hbefore hnotified
  | some write =>
    rw [hwritten] at hnotified
    show ¬ (write.onRow escalation).isAwaitingNotification
    by_cases hdelivers : ∃ transport token deliveredAt latency,
        write = .update escalation.id
          (.delivered transport token deliveredAt latency)
    · obtain ⟨transport, token, deliveredAt, latency, rfl⟩ := hdelivers
      have hlatency := h.latency_of_written hfind hwritten
      rw [EscalationWrite.onRow, if_pos rfl]
      show ¬ (escalation.progressStoppedAt.isSome && latency.isNone) = true
      rw [← hlatency]
      cases latency <;> exact Bool.false_ne_true
    · rw [isAwaitingNotification_onRow.resolve_right hdelivers]
      exact hbefore ((isNotified_of_onRow hnotified).resolve_right hdelivers)

/-- What a pass still has to send it had to send before, or it has just loaded
it. -/
theorem toSend_of_continues {escalations : Table EscalationRow} {token : ℕ}
    {answer : DeskAnswer}
    (hnext : EscalationCall.Continues escalations token answer call next)
    (h : id ∈ next.toSend) :
    id ∈ call.toSend ∨ ∃ escalation ∈ escalations.rows,
      escalation.id = id ∧ escalation.isPending := by
  cases hnext with
  | load now =>
    obtain ⟨escalation, hpending, rfl⟩ := List.mem_map.mp h
    have hmem := List.mem_of_mem_take hpending
    rw [Preference.mem_rank, List.mem_filter] at hmem
    exact Or.inr ⟨escalation, hmem.1, rfl, hmem.2⟩
  | send escalation pending now => exact Or.inl (List.mem_cons_of_mem _ h)
  | stored escalation token attempt pending now => exact Or.inl h
  | _ => cases h

/-- An escalation that is confirmed and out of every pass gets into none. -/
theorem toSend_step (hout : ∀ call ∈ desk.calls, id ∉ call.toSend)
    (hpending : ∀ escalation ∈ desk.escalations.rows, escalation.id = id →
      ¬ escalation.isPending)
    (hmem : call ∈ (desk.step turn).calls) : id ∉ call.toSend := by
  rcases mem_calls_step hmem with hold | ⟨request, -, rfl⟩ |
    ⟨place, answer, before, rfl, hcall, hnext⟩
  · exact hout call hold
  · cases request <;> exact List.not_mem_nil
  · intro hsend
    rcases toSend_of_continues hnext hsend with hbefore |
      ⟨escalation, hrow, hid, hloaded⟩
    · exact hout before (List.mem_of_getElem? hcall) hbefore
    · exact hpending escalation hrow hid hloaded

/-- In time, no update puts a confirmed escalation back in the queue. -/
theorem not_isPending_onRow (htimely : history.Timely turn)
    {write : EscalationWrite}
    (hwritten : history.desk.written turn = some write)
    (hfind : history.desk.escalations.find escalation.id = some escalation)
    (hnotified : escalation.isNotified) (h : ¬ escalation.isPending) :
    ¬ (write.onRow escalation).isPending := by
  obtain ⟨place, answer, call, rfl, hcall, hwrites⟩ := written_eq_some hwritten
  have hin : history.CallTimely call := by
    refine htimely call ?_
    rw [EscalationDesk.callAt, EscalationDesk.proceeding, hcall]
    rfl
  cases hwrites with
  | create => exact h
  | resolve =>
    rw [EscalationWrite.onRow]
    split_ifs
    · exact Bool.false_ne_true
    · exact h
  | store sent token attempt pending now =>
    rw [EscalationWrite.onRow]
    split_ifs with hid
    · exact hin escalation (hid ▸ hfind) hnotified
    · exact h
  | sweep overdue rest timeoutMs =>
    rw [EscalationWrite.onRow]
    split_ifs with hid
    · exact hin escalation (hid ▸ hfind) hnotified
    · exact h
  | confirm | acknowledge =>
    -- neither status is one the dispatcher loads
    rw [EscalationWrite.onRow]
    split_ifs
    · exact Bool.false_ne_true
    · exact h

theorem Sound.final_step (h : Sound history) (htimely : history.Timely turn)
    (hnotified : (history.desk.step turn).has id EscalationRow.isNotified) :
    ¬ (history.desk.step turn).has id EscalationRow.isPending
      ∧ ∀ call ∈ (history.desk.step turn).calls, id ∉ call.toSend := by
  obtain ⟨escalation, hfind⟩ := stored_of_notified hnotified
  obtain ⟨hrow, rfl⟩ := Table.find_eq_some.mp hfind
  have hrest : ∀ other ∈ history.desk.escalations.rows,
      other.id = escalation.id → other = escalation := by
    intro other hother hid
    exact Table.eq_of_key hother hrow hid
  rw [EscalationDesk.has_of_find (find_step hfind)] at hnotified ⊢
  by_cases hbefore : escalation.isNotified
  · obtain ⟨hpending, hout⟩ := h.final (Keyed.key escalation)
      (by rw [EscalationDesk.has_of_find hfind]; exact hbefore)
    rw [EscalationDesk.has_of_find hfind] at hpending
    refine ⟨?_, fun call hcall => toSend_step hout ?_ hcall⟩
    · cases hwritten : history.desk.written turn with
      | none => exact hpending
      | some write =>
        exact not_isPending_onRow htimely hwritten hfind hbefore hpending
    · intro other hother hid
      rw [hrest other hother hid]
      exact hpending
  · -- the turn confirms it
    cases hwritten : history.desk.written turn with
    | none =>
      rw [hwritten] at hnotified
      exact absurd hnotified hbefore
    | some write =>
      rw [hwritten] at hnotified
      obtain ⟨transport, token, deliveredAt, latency, rfl⟩ :=
        (isNotified_of_onRow hnotified).resolve_left hbefore
      obtain ⟨place, answer, call, rfl, hcall, hwrites⟩ :=
        written_eq_some hwritten
      obtain ⟨read, hid, rfl, -⟩ := confirming_of_writes hwrites
      have hin : history.CallTimely (.confirming read token deliveredAt) := by
        refine htimely _ ?_
        rw [EscalationDesk.callAt, EscalationDesk.proceeding, hcall]
        rfl
      refine ⟨?_, fun next hnext hsend => ?_⟩
      · rw [Option.elim_some, EscalationWrite.onRow, if_pos rfl]
        exact Bool.false_ne_true
      · rcases mem_calls_step hnext with hold | ⟨request, hturn, -⟩ |
          ⟨place', answer', before, hturn, hcall', hcontinues⟩
        · exact hin.1 next hold (hid ▸ hsend)
        · cases hturn
        · -- and its call returns
          cases hturn
          rw [hcall] at hcall'
          cases hcall'
          cases hcontinues

/-- **Every turn in time keeps the invariant.** -/
theorem Sound.step (h : Sound history) (htimely : history.Timely turn) :
    Sound (history.step turn) where
  rows _ hmem _ hreceipt := h.rows_step hmem hreceipt
  calls _ hmem := h.calls_step hmem
  handed _ hmem := h.handed_step hmem
  column _ _ hlast := h.column_step hlast
  counted _ hnotified := h.counted_step hnotified
  final _ hnotified := h.final_step htimely hnotified

end Keeps

/-- The empty desk. -/
theorem sound_opened : Sound opened where
  rows _ hmem := nomatch hmem
  calls _ hmem := nomatch hmem
  handed _ hmem := nomatch hmem
  column _ _ hlast := nomatch hlast
  counted _ h := nomatch h
  final _ h := nomatch h

/-! ## What a turn in time does -/

section Timely

variable {history : DeliveryHistory} {turn : EscalationTurn}

/-- The last token stored for an escalation is found, and found there. -/
theorem Sound.find_receipt (h : Sound history) {id receiptId : ℕ}
    (hlast : history.lastStored id = some receiptId) :
    ∃ escalation,
      history.desk.escalations.rows.find? (·.receiptId == some receiptId)
          = some escalation
        ∧ history.desk.drawn[receiptId]? = some escalation.id := by
  obtain ⟨row, hfind, hreceipt⟩ := h.column id receiptId hlast
  have hsome : (history.desk.escalations.rows.find?
      (·.receiptId == some receiptId)).isSome := by
    rw [List.find?_isSome]
    exact ⟨row, (Table.find_eq_some.mp hfind).1, beq_iff_eq.mpr hreceipt⟩
  obtain ⟨escalation, hfound⟩ := Option.isSome_iff_exists.mp hsome
  refine ⟨escalation, hfound, h.rows escalation
    (List.mem_of_find?_eq_some hfound) receiptId ?_⟩
  simpa using List.find?_some hfound

/-- **A turn in time refuses no receipt of a notification that was sent.** -/
theorem Sound.settles (h : Sound history) (htimely : history.Timely turn) :
    Settles history turn := by
  have hfound : ∀ receiptId arrivedAt,
      history.desk.callAt turn = some (.receipt receiptId arrivedAt) →
        receiptId ∈ history.handed → ∃ escalation,
          history.desk.escalations.rows.find? (·.receiptId == some receiptId)
              = some escalation
            ∧ history.desk.drawn[receiptId]? = some escalation.id := by
    intro receiptId arrivedAt hcall hhanded
    obtain ⟨id, hid⟩ := h.handed receiptId hhanded
    exact h.find_receipt (htimely _ hcall hhanded id hid)
  refine ⟨hfound, ?_, ?_, fun id => (h.step htimely).counted id⟩
  · intro call proceeding receiptId hproceeding hreceipt hhanded hnext
    have hcallAt : history.desk.callAt turn = some call := by
      rw [EscalationDesk.callAt, hproceeding]
      rfl
    obtain ⟨place, answer, rfl, hcall, rfl⟩ := proceeding_eq_some hproceeding
    have hsound := h.calls call (List.mem_of_getElem? hcall)
    cases call with
    | receipt token arrivedAt =>
      cases hreceipt
      obtain ⟨escalation, hfind, hdrawn⟩ :=
        hfound receiptId arrivedAt hcallAt hhanded
      rw [EscalationCall.proceed, hfind] at hnext
      dsimp only at hnext
      split_ifs at hnext with hdelivered
      refine ⟨escalation.id, hdrawn, EscalationDesk.notified_step ?_⟩
      rw [EscalationDesk.has_of_mem (List.mem_of_find?_eq_some hfind)]
      exact hdelivered
    | marking id token deliveredAt =>
      cases hreceipt
      obtain ⟨escalation, hfind⟩ :=
        hsound.stored id (List.mem_singleton_self id)
      rw [EscalationCall.proceed, hfind] at hnext
      dsimp only at hnext
      split_ifs at hnext with hdelivered
      refine ⟨id, hsound.drawn id receiptId rfl,
        EscalationDesk.notified_step ?_⟩
      rw [EscalationDesk.has_of_find hfind]
      exact hdelivered
    | confirming escalation token deliveredAt =>
      cases hreceipt
      obtain ⟨row, hfind⟩ :=
        hsound.stored escalation.id (List.mem_singleton_self _)
      have hid : row.id = escalation.id := (Table.find_eq_some.mp hfind).2
      refine ⟨escalation.id, hsound.drawn _ receiptId rfl, ?_⟩
      rw [EscalationDesk.has_of_find (find_step hfind),
        EscalationDesk.written, hproceeding, Option.bind_some]
      dsimp only
      rw [EscalationCall.proceed, if_pos (htimely _ hcallAt).2,
        Option.elim_some, EscalationWrite.onRow, if_pos hid]
      rfl
    | _ => cases hreceipt
  · intro escalation pending now hcall hnotified
    obtain ⟨⟨call, proceeding⟩, hproceeding, rfl⟩ :=
      Option.map_eq_some_iff.mp hcall
    obtain ⟨place, answer, rfl, hplace, rfl⟩ := proceeding_eq_some hproceeding
    exact (h.final escalation.id hnotified).2 _ (List.mem_of_getElem? hplace)
      List.mem_cons_self

end Timely

/-- **A receipt is never refused for a notification that was really sent**, in
any history whose turns are all in time. -/
theorem settles_of_timely (turns : List EscalationTurn)
    (h : Machine.Always step Timely opened turns) :
    Machine.Always step Settles opened turns :=
  Machine.always_of_invariant (fun _ _ hsound => hsound.step)
    (fun _ _ hsound => hsound.settles) sound_opened h

/-- A stall is raised, sent, and confirmed by the device. -/
theorem settles_of_timely_confirmed :
    Machine.Always step Settles opened
      (EscalationDesk.raise [EscalationDesk.stallFound]
        ++ EscalationDesk.sendOne 1000 ++ EscalationDesk.receive 0 2000) :=
  settles_of_timely _ (by decide)

/-- A pass finds the escalation overdue, and fails it. -/
def timeOut (now : Instant) : List EscalationTurn :=
  .start (.dispatchPending now) :: List.replicate 4 (.resume 0 {})

/-- **The device comes back online after a retry**: the retry has stored its
token, and the receipt of the first payload is refused. No two calls overlap
here. -/
theorem refused_after_retry :
    ¬ Machine.Always step Settles opened
      (EscalationDesk.raise [EscalationDesk.stallFound]
        ++ EscalationDesk.sendOne 1000 ++ timeOut 200000
        ++ EscalationDesk.sendOne 260000
        ++ EscalationDesk.receive 0 270000) := by
  intro h
  have hlookup := h.suffix.2.1.found 0 270000 rfl (by decide)
  revert hlookup
  decide

end DeliveryHistory

end Opifex
