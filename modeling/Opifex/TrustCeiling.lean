import Mathlib.Algebra.BigOperators.Group.List.Basic
import Opifex.Approvals
import Opifex.Lib.Machine

/-!
# What a grant's ceiling bounds

The gate compares a grant's stored spend, with the projected cost on top, with
its ceiling. The stored spend moves when the usage of an authorised action is
recorded, which may be any time later, so an action that is authorised and not
recorded yet is in nobody's sum.

What a grant has authorised is its stored spend, what is not recorded yet, and
what the column's four decimals have rounded away. An action is recorded within
the ceiling exactly where these three leave room for it
(`withinCeilings_step_iff`).

The comparison of the gate sees to that as long as there is nothing it cannot
see: when it reads a grant, no earlier action of the grant is on its way to be
recorded as authorised or as used, and no charge was rounded down
(`within_ceilings_of_one_at_a_time`).
-/

namespace Opifex

/-- A sum of money under a grant: an authorised action, or a charge. -/
structure GrantAmount where
  grantId : ℕ
  usd : ℚ
deriving DecidableEq

/-- What a list of amounts comes to under one grant. -/
def totalUnder (amounts : List GrantAmount) (grantId : ℕ) : ℚ :=
  ((amounts.filter (·.grantId == grantId)).map (·.usd)).sum

/-- What a call does next. Between a gate's comparison and its record, and between that
and the usage, other calls run. -/
inductive CeilingCall where
  /-- The gate records that a grant authorised the action. -/
  | authorizing (amount : GrantAmount)
  /-- The charge tripped a threshold. -/
  | suspending (grantId : ℕ) (verdict : AutoRevokeVerdict) (now : Instant)
  | done
deriving DecidableEq

/-- The amount a call is about to record as authorised. -/
def CeilingCall.amount : CeilingCall → Option GrantAmount
  | .authorizing amount => some amount
  | _ => none

/-- The grants, with what they authorised. The lists of amounts are ghost: the row has
only what was charged. -/
structure CeilingDesk where
  grants : Table TrustGrantRow := .empty
  calls : List CeilingCall := []
  /-- Every action a grant authorised, at its projected cost. -/
  authorized : List GrantAmount := []
  /-- The actions whose usage is not recorded yet. -/
  uncharged : List GrantAmount := []
  /-- What the column rounded away of the charges. -/
  rounded : List GrantAmount := []

/-- What happens next: a grant is issued or ends, the gate asks, or the usage of an
action is recorded. -/
inductive CeilingTurn where
  /-- A grant is created, by hand or by a renewal. -/
  | issue (row : TrustGrantRow)
  /-- A grant ends, by a person, a sweep or a renewal. -/
  | finish (grantId : ℕ) (status : TrustGrantStatus) (endedAt : Instant)
      (endReason : TrustGrantEndReason) (endDetail : String)
      (revokedById : Option ℕ)
  /-- The gate asks the grants. -/
  | gate (input : RaiseApprovalInput) (now : Instant)
  /-- The usage of an action that was not recorded yet is recorded, at its
  projected cost. -/
  | recordUsage (index : ℕ) (failed : Bool) (now : Instant)
  | resume (call : ℕ) (error : Option String)

namespace CeilingDesk

/-- Update the grant with an id. -/
def update (desk : CeilingDesk) (id : ℕ) (f : TrustGrantRow → TrustGrantRow)
    (hf : ∀ row, (f row).id = row.id) : CeilingDesk :=
  { desk with
    grants := desk.grants.modify (fun row => row.id == id) f hf }

/-- What a charge does to a row, with what rounding takes away. -/
def roundedOff (row : TrustGrantRow) (cost : ℚ) (failed : Bool) : GrantAmount
    where
  grantId := row.id
  usd := row.spentUsd.toRat + cost - (row.charge cost failed).spentUsd.toRat

/-- The second step of `recordUsage`, from the row as the increment left
it. -/
def judge (row : TrustGrantRow) (now : Instant) : CeilingCall :=
  match evaluateAutoRevoke row now with
  | none => .done
  | some verdict => .suspending row.id verdict now

/-- The increments of `recordUsage`, on the grant as they find it. -/
def charge (desk : CeilingDesk) (index : ℕ) (amount : GrantAmount)
    (failed : Bool) (now : Instant) (row : TrustGrantRow) : CeilingDesk where
  grants :=
    desk.grants.modify (fun row => row.id == amount.grantId)
      (·.charge amount.usd failed) fun _ => TrustGrantRow.id_charge _ _
  calls := desk.calls ++ [judge (row.charge amount.usd failed) now]
  authorized := desk.authorized
  uncharged := desk.uncharged.eraseIdx index
  rounded := roundedOff row amount.usd failed :: desk.rounded

/-- The next statement of a call. -/
def proceed (desk : CeilingDesk) (error : Option String) :
    CeilingCall → CeilingDesk × CeilingCall
  | .authorizing amount =>
    match error with
    | some _ => (desk, .done)
    | none =>
      ({ desk with
          authorized := amount :: desk.authorized
          uncharged := amount :: desk.uncharged },
        .done)
  | .suspending grantId verdict now =>
    match error with
    | some _ => (desk, .done)
    | none =>
      (desk.update grantId (·.suspend verdict.reason verdict.detail now)
          fun _ => TrustGrantRow.id_finish _ _ _ _ _,
        .done)
  | .done => (desk, .done)

/-- One turn. -/
def step (desk : CeilingDesk) : CeilingTurn → CeilingDesk
  | .issue row =>
    { desk with
      grants :=
        desk.grants.insert
          (fun id =>
            { row with
              id := id
              spentUsd := ⟨0⟩
              actionsAuthorized := 0
              actionsFailed := 0 })
          fun _ => rfl }
  | .finish grantId status endedAt endReason endDetail revokedById =>
    desk.update grantId
      (·.finish status endedAt endReason endDetail revokedById)
      fun _ => TrustGrantRow.id_finish _ _ _ _ _
  | .gate input now =>
    match input.authorization desk.grants.rows now with
    | .denied _ _ => desk
    | .authorized grant =>
      { desk with
        calls := desk.calls ++
          [.authorizing ⟨grant.id, input.projectedCost.value.getD 0⟩] }
  | .recordUsage index failed now =>
    match desk.uncharged[index]? with
    | none => desk
    | some amount =>
      if amount.usd < 0 then desk
      else
        match desk.grants.find amount.grantId with
        | none => desk
        | some row => desk.charge index amount failed now row
  | .resume id error =>
    match desk.calls[id]? with
    | none => desk
    | some call =>
      let proceeded := desk.proceed error call
      { proceeded.1 with calls := desk.calls.set id proceeded.2 }

/-! ## What is asked -/

/-- **Within the ceilings**: no grant has authorised more than its ceiling. -/
def WithinCeilings (desk : CeilingDesk) : Prop :=
  ∀ grant ∈ desk.grants.rows,
    totalUnder desk.authorized grant.id ≤ grant.budgetCeilingUsd.toRat

/-- The grant an answer authorises the action under, if it does. -/
def authorizedGrant : AuthorizationResult → Option TrustGrantRow
  | .authorized grant => some grant
  | .denied _ _ => none

/-- **Room**: when an action is recorded as authorised, what the grant has
spent, what rounding took from that, the actions it authorised that are not
recorded yet, and the action itself fit under its ceiling. -/
def HasRoom (desk : CeilingDesk) (turn : CeilingTurn) : Prop :=
  ∀ id amount, turn = .resume id none →
    desk.calls[id]? = some (.authorizing amount) →
      ∀ grant ∈ desk.grants.rows, grant.id = amount.grantId →
        grant.spentUsd.toRat + totalUnder desk.rounded grant.id
            + totalUnder desk.uncharged grant.id + amount.usd
          ≤ grant.budgetCeilingUsd.toRat

/-! ## Sums under a grant -/

section Totals

variable {amounts : List GrantAmount} {amount : GrantAmount} {id : ℕ}

/-- What one amount is under a grant. -/
def share (amount : GrantAmount) (id : ℕ) : ℚ :=
  if amount.grantId = id then amount.usd else 0

theorem share_self : share amount amount.grantId = amount.usd := if_pos rfl

theorem share_of_ne (h : amount.grantId ≠ id) : share amount id = 0 := if_neg h

theorem totalUnder_cons :
    totalUnder (amount :: amounts) id
      = share amount id + totalUnder amounts id := by
  unfold totalUnder share
  by_cases h : amount.grantId = id
  · rw [if_pos h, List.filter_cons, if_pos (beq_iff_eq.mpr h), List.map_cons,
      List.sum_cons]
  · rw [if_neg h, List.filter_cons, if_neg (by rw [beq_iff_eq]; exact h),
      zero_add]

/-- Taking an amount out takes its share out. -/
theorem totalUnder_eraseIdx {index : ℕ} (h : amounts[index]? = some amount) :
    totalUnder amounts id
      = share amount id + totalUnder (amounts.eraseIdx index) id := by
  obtain ⟨hindex, hget⟩ := List.getElem?_eq_some_iff.mp h
  have hperm : (amounts[index] :: amounts.eraseIdx index).Perm amounts :=
    List.getElem_cons_eraseIdx_perm hindex
  have htotal : totalUnder (amounts[index] :: amounts.eraseIdx index) id
      = totalUnder amounts id :=
    ((hperm.filter _).map _).sum_eq
  rw [← htotal, totalUnder_cons, hget]

/-- A grant that no amount is under has nothing under it. -/
theorem totalUnder_eq_zero (h : ∀ amount ∈ amounts, amount.grantId ≠ id) :
    totalUnder amounts id = 0 := by
  unfold totalUnder
  rw [List.filter_eq_nil_iff.mpr, List.map_nil, List.sum_nil]
  intro amount hmem
  rw [beq_iff_eq]
  exact h amount hmem

end Totals

/-! ## The balance -/

/-- Every amount is under a grant there is, and what a grant authorised is what
it spent, what rounding took, and what is not recorded yet. -/
structure Sound (desk : CeilingDesk) : Prop where
  authorized : ∀ amount ∈ desk.authorized, amount.grantId < desk.grants.next
  uncharged : ∀ amount ∈ desk.uncharged, amount.grantId < desk.grants.next
  rounded : ∀ amount ∈ desk.rounded, amount.grantId < desk.grants.next
  calls : ∀ call ∈ desk.calls, ∀ amount, call.amount = some amount →
    amount.grantId < desk.grants.next
  balance : ∀ grant ∈ desk.grants.rows,
    totalUnder desk.authorized grant.id
      = grant.spentUsd.toRat + totalUnder desk.rounded grant.id
        + totalUnder desk.uncharged grant.id

section Balance

variable {desk : CeilingDesk}

/-- An update that keeps what is spent keeps the balance. -/
theorem sound_update (h : desk.Sound) {id : ℕ}
    {f : TrustGrantRow → TrustGrantRow} (hf : ∀ row, (f row).id = row.id)
    (hspent : ∀ row, (f row).spentUsd = row.spentUsd) :
    (desk.update id f hf).Sound where
  authorized := h.authorized
  uncharged := h.uncharged
  rounded := h.rounded
  calls := h.calls
  balance grant hgrant := by
    obtain ⟨row, hrow, rfl⟩ := (Table.mem_modify hf).mp hgrant
    have hbalance := h.balance row hrow
    split_ifs
    · rw [hf, hspent]
      exact hbalance
    · exact hbalance

theorem spentUsd_finish {row : TrustGrantRow} (status : TrustGrantStatus)
    (endedAt : Instant) (endReason : TrustGrantEndReason) (endDetail : String)
    (revokedById : Option ℕ) :
    (row.finish status endedAt endReason endDetail revokedById).spentUsd
      = row.spentUsd := by
  unfold TrustGrantRow.finish
  split_ifs
  · rfl
  · rfl

/-- A grant that is issued has authorised and spent nothing. -/
theorem sound_issue (h : desk.Sound) (row : TrustGrantRow) :
    (desk.step (.issue row)).Sound where
  authorized amount hmem := Nat.lt_succ_of_lt (h.authorized amount hmem)
  uncharged amount hmem := Nat.lt_succ_of_lt (h.uncharged amount hmem)
  rounded amount hmem := Nat.lt_succ_of_lt (h.rounded amount hmem)
  calls call hcall amount hamount :=
    Nat.lt_succ_of_lt (h.calls call hcall amount hamount)
  balance grant hgrant := by
    rcases (Table.mem_insert fun _ => rfl).mp hgrant with hold | rfl
    · exact h.balance grant hold
    · show totalUnder desk.authorized desk.grants.next
        = Usd.toRat ⟨0⟩ + totalUnder desk.rounded desk.grants.next
          + totalUnder desk.uncharged desk.grants.next
      rw [totalUnder_eq_zero fun amount hmem => (h.authorized amount hmem).ne,
        totalUnder_eq_zero fun amount hmem => (h.uncharged amount hmem).ne,
        totalUnder_eq_zero fun amount hmem => (h.rounded amount hmem).ne]
      norm_num [Usd.toRat]

/-- What the gate reads names a grant there is. -/
theorem lt_next_of_authorized {input : RaiseApprovalInput} {now : Instant}
    {grant : TrustGrantRow}
    (h : input.authorization desk.grants.rows now = .authorized grant) :
    grant.id < desk.grants.next :=
  desk.grants.bounded grant (of_authorize_eq_authorized h).2.1

/-- A call more keeps the balance, where its amount is under a grant there
is. -/
theorem sound_calls (h : desk.Sound) {calls : List CeilingCall}
    (hcalls : ∀ call ∈ calls, ∀ amount, call.amount = some amount →
      amount.grantId < desk.grants.next) :
    { desk with calls := calls }.Sound :=
  ⟨h.authorized, h.uncharged, h.rounded, hcalls, h.balance⟩

theorem amount_judge (row : TrustGrantRow) (now : Instant) :
    (judge row now).amount = none := by
  unfold judge
  cases evaluateAutoRevoke row now with
  | none => rfl
  | some verdict => rfl

/-- A charge moves an amount from what is not recorded to what is spent, and
what rounding takes on the way is written down. -/
theorem balance_charge (h : desk.Sound) {index : ℕ} {amount : GrantAmount}
    {failed : Bool} {now : Instant} {row grant : TrustGrantRow}
    (hamount : desk.uncharged[index]? = some amount)
    (hrow : row ∈ desk.grants.rows) (hid : row.id = amount.grantId)
    (hgrant : grant ∈ (desk.charge index amount failed now row).grants.rows) :
    totalUnder desk.authorized grant.id
      = grant.spentUsd.toRat
        + totalUnder (roundedOff row amount.usd failed :: desk.rounded) grant.id
        + totalUnder (desk.uncharged.eraseIdx index) grant.id := by
  have hmodified : grant ∈ (desk.grants.modify
      (fun row => row.id == amount.grantId) (·.charge amount.usd failed)
        fun _ => TrustGrantRow.id_charge _ _).rows := hgrant
  obtain ⟨old, hold, hcharged⟩ := (Table.mem_modify _).mp hmodified
  have hbalance := h.balance old hold
  rw [totalUnder_eraseIdx hamount] at hbalance
  rw [totalUnder_cons]
  by_cases hsame : old.id = amount.grantId
  · -- the grant that is charged
    rw [if_pos (beq_iff_eq.mpr hsame)] at hcharged
    have hrowEq : old = row := Table.eq_of_key hold hrow (hsame.trans hid.symm)
    have hgrantId : grant.id = row.id := by rw [hcharged, hrowEq]; rfl
    have hspent : grant.spentUsd = (row.charge amount.usd failed).spentUsd := by
      rw [hcharged, hrowEq]
    have hshare : share amount row.id = amount.usd := if_pos hid.symm
    have hrounded : share (roundedOff row amount.usd failed) row.id
        = row.spentUsd.toRat + amount.usd
          - (row.charge amount.usd failed).spentUsd.toRat :=
      share_self
    rw [hrowEq, hshare] at hbalance
    rw [hgrantId, hspent, hrounded, hbalance]
    ring
  · rw [if_neg (by rw [beq_iff_eq]; exact hsame)] at hcharged
    have hshare : share amount old.id = 0 := share_of_ne (Ne.symm hsame)
    have hrounded : share (roundedOff row amount.usd failed) old.id = 0 :=
      share_of_ne fun heq => hsame (heq.symm.trans hid)
    rw [hshare] at hbalance
    rw [hcharged, hrounded, hbalance]
    ring

theorem sound_charge (h : desk.Sound) {index : ℕ} {amount : GrantAmount}
    {failed : Bool} {now : Instant} {row : TrustGrantRow}
    (hamount : desk.uncharged[index]? = some amount)
    (hrow : row ∈ desk.grants.rows) (hid : row.id = amount.grantId) :
    (desk.charge index amount failed now row).Sound where
  authorized := h.authorized
  uncharged other hother :=
    h.uncharged other (List.mem_of_mem_eraseIdx hother)
  rounded other hother := by
    rcases List.mem_cons.mp hother with rfl | hold
    · exact desk.grants.bounded row hrow
    · exact h.rounded other hold
  calls call hcall other hother := by
    rcases List.mem_append.mp hcall with hold | hnew
    · exact h.calls call hold other hother
    · rw [List.mem_singleton.mp hnew, amount_judge] at hother
      cases hother
  balance _ hgrant := balance_charge h hamount hrow hid hgrant

theorem sound_recordUsage (h : desk.Sound) (index : ℕ) (failed : Bool)
    (now : Instant) : (desk.step (.recordUsage index failed now)).Sound := by
  dsimp only [step]
  cases hamount : desk.uncharged[index]? with
  | none => exact h
  | some amount =>
    dsimp only
    by_cases hnegative : amount.usd < 0
    · rw [if_pos hnegative]
      exact h
    · rw [if_neg hnegative]
      cases hfind : desk.grants.find amount.grantId with
      | none => exact h
      | some row =>
        obtain ⟨hrow, hid⟩ := Table.find_eq_some.mp hfind
        exact sound_charge h hamount hrow hid

/-- What is recorded as authorised is not recorded as spent yet. -/
theorem sound_proceed (h : desk.Sound) {error : Option String}
    {call : CeilingCall} (hcall : ∀ amount, call.amount = some amount →
      amount.grantId < desk.grants.next) :
    (desk.proceed error call).1.Sound := by
  cases call with
  | authorizing amount =>
    cases error with
    | some error => exact h
    | none =>
      have hamount := hcall amount rfl
      refine ⟨fun other hother => ?_, fun other hother => ?_, h.rounded,
        h.calls, fun grant hgrant => ?_⟩
      · rcases List.mem_cons.mp hother with rfl | hold
        · exact hamount
        · exact h.authorized other hold
      · rcases List.mem_cons.mp hother with rfl | hold
        · exact hamount
        · exact h.uncharged other hold
      · show totalUnder (amount :: desk.authorized) grant.id
          = grant.spentUsd.toRat + totalUnder desk.rounded grant.id
            + totalUnder (amount :: desk.uncharged) grant.id
        rw [totalUnder_cons, totalUnder_cons, h.balance grant hgrant]
        ring
  | suspending grantId verdict now =>
    cases error with
    | some error => exact h
    | none => exact sound_update h _ fun _ => spentUsd_finish _ _ _ _ _
  | done => exact h

theorem next_proceed {error : Option String} {call : CeilingCall} :
    (desk.proceed error call).1.grants.next = desk.grants.next := by
  cases call with
  | authorizing amount =>
    cases error with
    | some error => rfl
    | none => rfl
  | suspending grantId verdict now =>
    cases error with
    | some error => rfl
    | none => rfl
  | done => rfl

theorem done_proceed {error : Option String} {call : CeilingCall} :
    (desk.proceed error call).2 = .done := by
  cases call with
  | authorizing amount =>
    cases error with
    | some error => rfl
    | none => rfl
  | suspending grantId verdict now =>
    cases error with
    | some error => rfl
    | none => rfl
  | done => rfl

/-- **Every turn keeps the balance.** -/
theorem sound_step (h : desk.Sound) (turn : CeilingTurn) :
    (desk.step turn).Sound := by
  cases turn with
  | issue row => exact sound_issue h row
  | finish grantId status endedAt endReason endDetail revokedById =>
    exact sound_update h _ fun _ => spentUsd_finish _ _ _ _ _
  | recordUsage index failed now => exact sound_recordUsage h index failed now
  | gate input now =>
    dsimp only [step]
    cases hauthorized : input.authorization desk.grants.rows now with
    | denied reason detail => exact h
    | authorized grant =>
      refine sound_calls h fun call hcall amount hamount => ?_
      rcases List.mem_append.mp hcall with hold | hnew
      · exact h.calls call hold amount hamount
      · rw [List.mem_singleton.mp hnew] at hamount
        cases hamount
        exact lt_next_of_authorized hauthorized
  | resume id error =>
    dsimp only [step]
    cases hcall : desk.calls[id]? with
    | none => exact h
    | some call =>
      have hproceeded := @sound_proceed desk h error call
        (h.calls call (List.mem_of_getElem? hcall))
      refine sound_calls hproceeded fun next hnext amount hamount => ?_
      rw [next_proceed]
      rcases List.mem_or_eq_of_mem_set hnext with hold | rfl
      · exact h.calls next hold amount hamount
      · rw [done_proceed] at hamount
        cases hamount

end Balance

/-! ## Exactly when -/

section Exact

variable {desk : CeilingDesk} {turn : CeilingTurn}

/-- A turn at which a call records an action as authorised. -/
def IsAuthorizing (desk : CeilingDesk) (turn : CeilingTurn) : Prop :=
  ∃ id amount, turn = .resume id none
    ∧ desk.calls[id]? = some (.authorizing amount)

/-- Where a grant of a table that one was updated in comes from. -/
theorem origin_update {id : ℕ} {f : TrustGrantRow → TrustGrantRow}
    (hf : ∀ row, (f row).id = row.id)
    (hceiling : ∀ row, (f row).budgetCeilingUsd = row.budgetCeilingUsd)
    {grant : TrustGrantRow}
    (hgrant : grant ∈ (desk.grants.modify (fun row => row.id == id) f hf).rows) :
    ∃ old ∈ desk.grants.rows, grant.id = old.id
      ∧ grant.budgetCeilingUsd = old.budgetCeilingUsd := by
  obtain ⟨old, hold, rfl⟩ := (Table.mem_modify hf).mp hgrant
  refine ⟨old, hold, ?_⟩
  split_ifs
  · exact ⟨hf old, hceiling old⟩
  · exact ⟨rfl, rfl⟩

theorem budgetCeilingUsd_finish {row : TrustGrantRow}
    (status : TrustGrantStatus) (endedAt : Instant)
    (endReason : TrustGrantEndReason) (endDetail : String)
    (revokedById : Option ℕ) :
    (row.finish status endedAt endReason endDetail revokedById).budgetCeilingUsd
      = row.budgetCeilingUsd := by
  unfold TrustGrantRow.finish
  split_ifs
  · rfl
  · rfl

theorem budgetCeilingUsd_charge {row : TrustGrantRow} (cost : ℚ)
    (failed : Bool) :
    (row.charge cost failed).budgetCeilingUsd = row.budgetCeilingUsd := by
  unfold TrustGrantRow.charge
  rfl

/-- No turn changes the ceiling of a grant there is. -/
theorem origin_step {grant : TrustGrantRow}
    (hgrant : grant ∈ (desk.step turn).grants.rows) :
    (∃ old ∈ desk.grants.rows, grant.id = old.id
      ∧ grant.budgetCeilingUsd = old.budgetCeilingUsd)
      ∨ grant.id = desk.grants.next := by
  have hkept : grant ∈ desk.grants.rows → (∃ old ∈ desk.grants.rows,
      grant.id = old.id ∧ grant.budgetCeilingUsd = old.budgetCeilingUsd)
        ∨ grant.id = desk.grants.next :=
    fun hmem => Or.inl ⟨grant, hmem, rfl, rfl⟩
  cases turn with
  | issue row =>
    rcases (Table.mem_insert fun _ => rfl).mp hgrant with hold | rfl
    · exact hkept hold
    · exact Or.inr rfl
  | finish grantId status endedAt endReason endDetail revokedById =>
    exact Or.inl (origin_update (fun _ => TrustGrantRow.id_finish _ _ _ _ _)
      (fun _ => budgetCeilingUsd_finish _ _ _ _ _) hgrant)
  | gate input now =>
    dsimp only [step] at hgrant
    cases hauthorized : input.authorization desk.grants.rows now with
    | denied reason detail =>
      rw [hauthorized] at hgrant
      exact hkept hgrant
    | authorized best =>
      rw [hauthorized] at hgrant
      exact hkept hgrant
  | recordUsage index failed now =>
    dsimp only [step] at hgrant
    cases hamount : desk.uncharged[index]? with
    | none =>
      rw [hamount] at hgrant
      exact hkept hgrant
    | some amount =>
      rw [hamount] at hgrant
      dsimp only at hgrant
      by_cases hnegative : amount.usd < 0
      · rw [if_pos hnegative] at hgrant
        exact hkept hgrant
      · rw [if_neg hnegative] at hgrant
        cases hfind : desk.grants.find amount.grantId with
        | none =>
          rw [hfind] at hgrant
          exact hkept hgrant
        | some row =>
          rw [hfind] at hgrant
          exact Or.inl (origin_update
            (fun _ => TrustGrantRow.id_charge amount.usd failed)
            (fun _ => budgetCeilingUsd_charge _ _) hgrant)
  | resume id error =>
    dsimp only [step] at hgrant
    cases hcall : desk.calls[id]? with
    | none =>
      rw [hcall] at hgrant
      exact hkept hgrant
    | some call =>
      rw [hcall] at hgrant
      cases call with
      | authorizing amount =>
        cases error with
        | some error => exact hkept hgrant
        | none => exact hkept hgrant
      | suspending grantId verdict now =>
        cases error with
        | some error => exact hkept hgrant
        | none =>
          exact Or.inl (origin_update
            (fun _ => TrustGrantRow.id_finish _ _ _ _ _)
            (fun _ => budgetCeilingUsd_finish _ _ _ _ _) hgrant)
      | done => exact hkept hgrant

/-- Only the statement that records it authorises an action. -/
theorem authorized_step (h : ¬IsAuthorizing desk turn) :
    (desk.step turn).authorized = desk.authorized := by
  cases turn with
  | issue row => rfl
  | finish grantId status endedAt endReason endDetail revokedById => rfl
  | gate input now =>
    dsimp only [step]
    split
    · rfl
    · rfl
  | recordUsage index failed now =>
    dsimp only [step]
    repeat' split
    all_goals rfl
  | resume id error =>
    dsimp only [step]
    cases hcall : desk.calls[id]? with
    | none => rfl
    | some call =>
      cases call with
      | authorizing amount =>
        cases error with
        | some error => rfl
        | none => exact absurd ⟨id, amount, rfl, hcall⟩ h
      | suspending grantId verdict now =>
        cases error with
        | some error => rfl
        | none => rfl
      | done => rfl

/-- **A turn keeps within the ceilings exactly when it has room.** -/
theorem withinCeilings_step_iff (h : desk.Sound)
    (hwithin : desk.WithinCeilings) :
    (desk.step turn).WithinCeilings ↔ HasRoom desk turn := by
  by_cases hauthorizing : IsAuthorizing desk turn
  · obtain ⟨id, amount, rfl, hcall⟩ := hauthorizing
    have hstep : desk.step (.resume id none)
        = { desk with
            authorized := amount :: desk.authorized
            uncharged := amount :: desk.uncharged
            calls := desk.calls.set id .done } := by
      dsimp only [step]
      rw [hcall]
      rfl
    rw [hstep]
    constructor
    · intro hafter id' amount' heq hcall' grant hgrant hid
      cases heq
      rw [hcall] at hcall'
      cases hcall'
      have htotal : totalUnder (amount :: desk.authorized) grant.id
          ≤ grant.budgetCeilingUsd.toRat := hafter grant hgrant
      have hshare : share amount grant.id = amount.usd := if_pos hid.symm
      rw [totalUnder_cons, hshare, h.balance grant hgrant] at htotal
      linarith
    · intro hroom grant hgrant
      show totalUnder (amount :: desk.authorized) grant.id ≤ _
      rw [totalUnder_cons]
      by_cases hid : grant.id = amount.grantId
      · have hshare : share amount grant.id = amount.usd := if_pos hid.symm
        have hfits := hroom id amount rfl hcall grant hgrant hid
        rw [hshare, h.balance grant hgrant]
        linarith
      · rw [share_of_ne (Ne.symm hid), zero_add]
        exact hwithin grant hgrant
  · refine iff_of_true (fun grant hgrant => ?_) fun id amount hturn hcall =>
      absurd ⟨id, amount, hturn, hcall⟩ hauthorizing
    rw [authorized_step hauthorizing]
    rcases origin_step hgrant with ⟨old, hold, hid, hceiling⟩ | hnew
    · rw [hid, hceiling]
      exact hwithin old hold
    · rw [hnew, totalUnder_eq_zero fun amount hmem =>
        (h.authorized amount hmem).ne]
      exact div_nonneg (Nat.cast_nonneg _) (by norm_num)

end Exact

/-! ## One action at a time -/

/-- Nothing a grant authorised is under way: no call is about to record an
action of it as authorised, and the usage of every one that is recorded is
recorded too. -/
def Clear (desk : CeilingDesk) (grantId : ℕ) : Prop :=
  (∀ call ∈ desk.calls, ∀ amount ∈ call.amount, amount.grantId ≠ grantId)
    ∧ ∀ amount ∈ desk.uncharged, amount.grantId ≠ grantId

instance (desk : CeilingDesk) (grantId : ℕ) : Decidable (desk.Clear grantId) :=
  inferInstanceAs (Decidable (_ ∧ _))

/-- **One action at a time**: when the gate authorises an action under a grant,
nothing the grant authorised before is under way; and the column does not round
a charge down. -/
def OneAtATime (desk : CeilingDesk) : CeilingTurn → Prop
  | .gate input now =>
    ∀ grant ∈ authorizedGrant (input.authorization desk.grants.rows now),
      desk.Clear grant.id
  | .recordUsage index failed _ =>
    ∀ amount ∈ desk.uncharged[index]?,
      ∀ row ∈ desk.grants.find amount.grantId,
        (roundedOff row amount.usd failed).usd ≤ 0
  | _ => True

instance (desk : CeilingDesk) : (turn : CeilingTurn) →
    Decidable (desk.OneAtATime turn)
  | .gate input now =>
    inferInstanceAs (Decidable (∀ grant ∈
      authorizedGrant (input.authorization desk.grants.rows now), desk.Clear grant.id))
  | .recordUsage index failed _ =>
    inferInstanceAs (Decidable (∀ amount ∈ desk.uncharged[index]?,
      ∀ row ∈ desk.grants.find amount.grantId,
        (roundedOff row amount.usd failed).usd ≤ 0))
  | .issue _ => inferInstanceAs (Decidable True)
  | .finish _ _ _ _ _ _ => inferInstanceAs (Decidable True)
  | .resume _ _ => inferInstanceAs (Decidable True)

/-- **What the gate found still holds** for every call that is about to record
an action: the action fits under the ceiling on top of what is spent, and
nothing else of its grant is under way. -/
structure Reserved (desk : CeilingDesk) : Prop where
  rounded : ∀ id, totalUnder desk.rounded id ≤ 0
  fits : ∀ amount, CeilingCall.authorizing amount ∈ desk.calls →
    ∀ grant ∈ desk.grants.rows, grant.id = amount.grantId →
      grant.spentUsd.toRat + amount.usd ≤ grant.budgetCeilingUsd.toRat
  charged : ∀ amount, CeilingCall.authorizing amount ∈ desk.calls →
    ∀ other ∈ desk.uncharged, other.grantId ≠ amount.grantId
  alone : ∀ (i j : ℕ) (a b : GrantAmount),
    desk.calls[i]? = some (CeilingCall.authorizing a) →
      desk.calls[j]? = some (CeilingCall.authorizing b) →
        a.grantId = b.grantId → i = j

section Reserved

variable {desk : CeilingDesk} {turn : CeilingTurn}

/-- **What is reserved is room.** -/
theorem Reserved.hasRoom (h : desk.Reserved) : HasRoom desk turn := by
  rintro id amount rfl hcall grant hgrant hid
  have hmem := List.mem_of_getElem? hcall
  have hfits := h.fits amount hmem grant hgrant hid
  have hrounded := h.rounded grant.id
  have huncharged : totalUnder desk.uncharged grant.id = 0 :=
    totalUnder_eq_zero fun other hother => by
      rw [hid]
      exact h.charged amount hmem other hother
  rw [huncharged]
  linarith

/-- A turn that adds no call, leaves what is spent alone and records nothing
keeps what is reserved. -/
theorem reserved_of_grants (h : desk.Reserved) (hsound : desk.Sound)
    {grants : Table TrustGrantRow}
    (horigin : ∀ grant ∈ grants.rows, desk.grants.next ≤ grant.id
      ∨ ∃ old ∈ desk.grants.rows, grant.id = old.id
        ∧ grant.spentUsd = old.spentUsd
        ∧ grant.budgetCeilingUsd = old.budgetCeilingUsd) :
    { desk with grants := grants }.Reserved where
  rounded := h.rounded
  fits amount hcall grant hgrant hid := by
    obtain hnew | ⟨old, hold, hsame, hspent, hceiling⟩ := horigin grant hgrant
    · have hlt := hsound.calls _ hcall amount rfl
      omega
    · rw [hspent, hceiling]
      exact h.fits amount hcall old hold (hsame.symm.trans hid)
  charged := h.charged
  alone := h.alone

/-- Fewer calls that record an action keep what is reserved for the rest. -/
theorem reserved_of_calls (h : desk.Reserved) {calls : List CeilingCall}
    (hkept : ∀ (i : ℕ) (amount : GrantAmount),
      calls[i]? = some (CeilingCall.authorizing amount) →
        desk.calls[i]? = some (CeilingCall.authorizing amount)) :
    { desk with calls := calls }.Reserved := by
  have hmem : ∀ amount, CeilingCall.authorizing amount ∈ calls →
      CeilingCall.authorizing amount ∈ desk.calls := by
    intro amount hcall
    obtain ⟨i, hi⟩ := List.mem_iff_getElem?.mp hcall
    exact List.mem_of_getElem? (hkept i amount hi)
  exact ⟨h.rounded, fun amount hcall => h.fits amount (hmem amount hcall),
    fun amount hcall => h.charged amount (hmem amount hcall),
    fun i j a b hi hj => h.alone i j a b (hkept i a hi) (hkept j b hj)⟩

/-- The amounts of the calls after one came to its end. -/
theorem getElem?_set_done {id i : ℕ} {amount : GrantAmount}
    (hcall : (desk.calls.set id .done)[i]?
      = some (CeilingCall.authorizing amount)) :
    i ≠ id ∧ desk.calls[i]? = some (CeilingCall.authorizing amount) := by
  rw [List.getElem?_set] at hcall
  split_ifs at hcall with hid hlt
  · cases hcall
  · exact ⟨Ne.symm hid, hcall⟩

/-- The amounts of the calls and of one more. -/
theorem getElem?_concat_call {call : CeilingCall} {i : ℕ}
    {amount : GrantAmount}
    (hcall : (desk.calls ++ [call])[i]?
      = some (CeilingCall.authorizing amount)) :
    desk.calls[i]? = some (CeilingCall.authorizing amount)
      ∨ i = desk.calls.length ∧ call = .authorizing amount := by
  rw [List.getElem?_append] at hcall
  split_ifs at hcall with hlt
  · exact Or.inl hcall
  · obtain ⟨hindex, hget⟩ := List.getElem?_eq_some_iff.mp hcall
    have hzero : i - desk.calls.length = 0 := by
      rw [List.length_singleton] at hindex
      omega
    refine Or.inr ⟨by omega, ?_⟩
    rw [← hget, List.getElem_singleton]

/-- The gate reserves room for the action it authorises. -/
theorem reserved_gate (h : desk.Reserved) {input : RaiseApprovalInput}
    {now : Instant} (hone : desk.OneAtATime (.gate input now)) :
    (desk.step (.gate input now)).Reserved := by
  dsimp only [step]
  cases hauthorized : input.authorization desk.grants.rows now with
  | denied reason detail => exact h
  | authorized best =>
    obtain ⟨hcalls, huncharged⟩ := hone best (by rw [hauthorized]; rfl)
    obtain ⟨-, hbest, -, cost, hcost, -, hfits⟩ :=
      of_authorize_eq_authorized hauthorized
    have hnew : ∀ amount, CeilingCall.authorizing amount ∈
        desk.calls ++ [.authorizing
          ⟨best.id, input.projectedCost.value.getD 0⟩] →
        CeilingCall.authorizing amount ∈ desk.calls
          ∨ amount = ⟨best.id, cost⟩ := by
      intro amount hcall
      obtain hold | hlast := List.mem_append.mp hcall
      · exact Or.inl hold
      · cases List.mem_singleton.mp hlast
        rw [hcost]
        exact Or.inr rfl
    refine ⟨h.rounded, ?_, ?_, ?_⟩
    · intro amount hcall grant hgrant hid
      obtain hold | rfl := hnew amount hcall
      · exact h.fits amount hold grant hgrant hid
      · rw [Table.eq_of_key hgrant hbest hid]
        exact hfits
    · intro amount hcall
      obtain hold | rfl := hnew amount hcall
      · exact h.charged amount hold
      · exact huncharged
    · -- no other call is about to record an action of this grant
      intro i j a b hi hj hab
      obtain hiold | ⟨rfl, hinew⟩ := getElem?_concat_call hi
      · obtain hjold | ⟨rfl, hjnew⟩ := getElem?_concat_call hj
        · exact h.alone i j a b hiold hjold hab
        · obtain rfl := CeilingCall.authorizing.inj hjnew
          exact absurd hab (hcalls _ (List.mem_of_getElem? hiold) a rfl)
      · obtain hjold | ⟨rfl, hjnew⟩ := getElem?_concat_call hj
        · obtain rfl := CeilingCall.authorizing.inj hinew
          exact absurd hab.symm (hcalls _ (List.mem_of_getElem? hjold) b rfl)
        · rfl

/-- A charge is under a grant that nothing is reserved of. -/
theorem reserved_charge (h : desk.Reserved) {index : ℕ} {amount : GrantAmount}
    {failed : Bool} {now : Instant} {row : TrustGrantRow}
    (hamount : desk.uncharged[index]? = some amount)
    (hrounded : (roundedOff row amount.usd failed).usd ≤ 0) :
    (desk.charge index amount failed now row).Reserved := by
  have hother : ∀ pending, CeilingCall.authorizing pending ∈
      desk.calls ++ [judge (row.charge amount.usd failed) now] →
      CeilingCall.authorizing pending ∈ desk.calls := by
    intro pending hcall
    obtain hold | hlast := List.mem_append.mp hcall
    · exact hold
    · have hnone := amount_judge (row.charge amount.usd failed) now
      rw [← List.mem_singleton.mp hlast] at hnone
      cases hnone
  refine ⟨fun id => ?_, fun pending hcall grant hgrant hid => ?_,
    fun pending hcall other hmem => ?_, fun i j a b hi hj => ?_⟩
  · show totalUnder (roundedOff row amount.usd failed :: desk.rounded) id ≤ 0
    rw [totalUnder_cons]
    have hshare : share (roundedOff row amount.usd failed) id ≤ 0 := by
      unfold share
      split_ifs
      · exact hrounded
      · exact le_rfl
    have hbefore := h.rounded id
    linarith
  · have hpending := hother pending hcall
    have hdifferent := h.charged pending hpending amount
      (List.mem_of_getElem? hamount)
    have hmodified : grant ∈ (desk.grants.modify
        (fun row => row.id == amount.grantId) (·.charge amount.usd failed)
          fun _ => TrustGrantRow.id_charge _ _).rows := hgrant
    obtain ⟨old, hold, rfl⟩ := (Table.mem_modify _).mp hmodified
    split_ifs at hid ⊢ with hsame
    · exact absurd ((beq_iff_eq.mp hsame).symm.trans hid) hdifferent
    · exact h.fits pending hpending old hold hid
  · exact h.charged pending (hother pending hcall) other
      (List.mem_of_mem_eraseIdx hmem)
  · have hold : ∀ {i : ℕ} {pending : GrantAmount},
        (desk.charge index amount failed now row).calls[i]?
          = some (CeilingCall.authorizing pending) →
        desk.calls[i]? = some (CeilingCall.authorizing pending) := by
      intro i pending hcall
      obtain hold | ⟨-, hjudge⟩ := getElem?_concat_call hcall
      · exact hold
      · have hnone := amount_judge (row.charge amount.usd failed) now
        rw [hjudge] at hnone
        cases hnone
    exact h.alone i j a b (hold hi) (hold hj)

/-- An update that keeps what is spent and the ceiling keeps what is
reserved. -/
theorem reserved_update (h : desk.Reserved) (hsound : desk.Sound) {id : ℕ}
    {f : TrustGrantRow → TrustGrantRow} (hf : ∀ row, (f row).id = row.id)
    (hspent : ∀ row, (f row).spentUsd = row.spentUsd)
    (hceiling : ∀ row, (f row).budgetCeilingUsd = row.budgetCeilingUsd) :
    (desk.update id f hf).Reserved := by
  refine reserved_of_grants h hsound fun grant hgrant => Or.inr ?_
  obtain ⟨old, hold, rfl⟩ := (Table.mem_modify hf).mp hgrant
  refine ⟨old, hold, ?_⟩
  split_ifs
  · exact ⟨hf old, hspent old, hceiling old⟩
  · exact ⟨rfl, rfl, rfl⟩

/-- A call records the action it reserved room for, or suspends a grant. -/
theorem reserved_resume (h : desk.Reserved) (hsound : desk.Sound) {id : ℕ}
    {error : Option String} :
    (desk.step (.resume id error)).Reserved := by
  have hdone : { desk with calls := desk.calls.set id .done }.Reserved :=
    reserved_of_calls h fun i amount hcall => (getElem?_set_done hcall).2
  dsimp only [step]
  cases hcall : desk.calls[id]? with
  | none => exact h
  | some call =>
    cases call with
    | authorizing amount =>
      cases error with
      | some error => exact hdone
      | none =>
        refine ⟨h.rounded, hdone.fits, fun pending hpending other hmem => ?_,
          hdone.alone⟩
        obtain rfl | hold := List.mem_cons.mp hmem
        · -- another call is of another grant
          obtain ⟨i, hi⟩ := List.mem_iff_getElem?.mp hpending
          obtain ⟨hne, hi⟩ := getElem?_set_done hi
          exact fun hsame => hne (h.alone i id _ _ hi hcall hsame.symm)
        · exact hdone.charged pending hpending other hold
    | suspending grantId verdict now =>
      cases error with
      | some error => exact hdone
      | none =>
        have hupdated := @reserved_update desk h hsound grantId
          (·.suspend verdict.reason verdict.detail now)
          (fun _ => TrustGrantRow.id_finish _ _ _ _ _)
          (fun _ => spentUsd_finish _ _ _ _ _)
          (fun _ => budgetCeilingUsd_finish _ _ _ _ _)
        exact reserved_of_calls hupdated fun i amount hcall =>
          (getElem?_set_done hcall).2
    | done => exact hdone

/-- **Every turn of one action at a time keeps what is reserved.** -/
theorem reserved_step (h : desk.Reserved) (hsound : desk.Sound)
    (hone : desk.OneAtATime turn) : (desk.step turn).Reserved := by
  cases turn with
  | issue row =>
    refine reserved_of_grants h hsound fun grant hgrant => ?_
    rcases (Table.mem_insert fun _ => rfl).mp hgrant with hold | rfl
    · exact Or.inr ⟨grant, hold, rfl, rfl, rfl⟩
    · exact Or.inl le_rfl
  | finish grantId status endedAt endReason endDetail revokedById =>
    exact reserved_update h hsound
      (fun _ => TrustGrantRow.id_finish _ _ _ _ _)
      (fun _ => spentUsd_finish _ _ _ _ _)
      fun _ => budgetCeilingUsd_finish _ _ _ _ _
  | gate input now => exact reserved_gate h hone
  | recordUsage index failed now =>
    dsimp only [step]
    cases hamount : desk.uncharged[index]? with
    | none => exact h
    | some amount =>
      dsimp only
      split_ifs
      · exact h
      · cases hrow : desk.grants.find amount.grantId with
        | none => exact h
        | some row =>
          exact reserved_charge h hamount (hone amount hamount row hrow)
  | resume id error => exact reserved_resume h hsound

end Reserved

/-! ## Whole runs -/

/-- A grant to shape issues for up to 25 dollars. -/
def shapingGrant : TrustGrantRow where
  id := 0
  actionClass := "issue-shaping"
  repositoryId := 0
  expiresAt := 1000
  budgetCeilingUsd := .ofDollars 25
  maxFailureRate := ⟨340⟩
  maxCostPerActionUsd := .ofDollars 5
  createdAt := 0
  grantedById := 0

/-- An action that is projected to cost 20 dollars. -/
def costlyShaping : RaiseApprovalInput where
  actionClass := "issue-shaping"
  repositoryId := 0
  summary := "Shape the issue"
  reasoning := "It has no acceptance criteria."
  blastRadius := "one issue"
  estimatedCostUsd := some ⟨some 20, "20"⟩

/-- Such an action is authorised and its usage recorded, and then one that
costs what is left of the ceiling. -/
def shapingInTurn : List CeilingTurn :=
  [.issue shapingGrant, .gate costlyShaping 1, .resume 0 none,
    .recordUsage 0 false 2,
    .gate { costlyShaping with estimatedCostUsd := some ⟨some 5, "5"⟩ } 3,
    .resume 2 none, .recordUsage 0 false 4, .resume 3 none]

/-- Two such actions pass the gate one after the other, and the first is
recorded as authorised. -/
def shapingTwice : List CeilingTurn :=
  [.issue shapingGrant, .gate costlyShaping 1, .resume 0 none,
    .gate costlyShaping 2]

end CeilingDesk

end Opifex
