import Opifex.DemotionDesk
import Opifex.RenewalChain

/-!
# A demotion disarms the class

The rung is written first, and what the demotion covers is taken away grant by
grant afterwards. Later evaluations act on a rung that changes, so what a
demotion leaves alive nothing takes away again.

While a demotion goes on, all that it covers and that is alive waits in its
call to be suspended: that is the invariant, and it holds as long as no
statement of the demotion fails or is cut off, and no grant is renewed between
the reading of the list and its own suspension, which would put a successor in
its place that is on no list.
-/

namespace Opifex

open Relation (ReflTransGen)

namespace GrantDesk

/-! ## What a turn does to the grants -/

/-- There is a grant with this key, of this class. -/
def HasClass (desk : GrantDesk) (id : ℕ) (actionClass : String) : Prop :=
  ∃ row ∈ desk.grants.rows, row.id = id ∧ row.actionClass = actionClass

/-- There is a grant with this key, and it has not ended. -/
def IsLive (desk : GrantDesk) (id : ℕ) : Prop :=
  ∃ row ∈ desk.grants.rows, row.id = id ∧ row.status = .active

/-- **What a turn brings about**: grants end, or one is written, or one that
its call commits takes the place of another. -/
inductive Change (desk after : GrantDesk) (commits : TrustGrantRow → Prop) :
    Prop where
  | keeps (hrenewals : after.renewals = desk.renewals)
    (hnext : desk.grants.next ≤ after.grants.next)
    (hlive : ∀ id, after.IsLive id → desk.IsLive id ∨ id = desk.grants.next)
  | renews (old : TrustGrantRow) (hold : desk.IsLive old.id)
    (hcommits : commits old)
    (hrenewals : after.renewals = (old.id, desk.grants.next) :: desk.renewals)
    (hnext : desk.grants.next ≤ after.grants.next)
    (hclass : after.HasClass desk.grants.next old.actionClass)
    (hlive : ∀ id, after.IsLive id → desk.IsLive id ∨ id = desk.grants.next)

section Change

variable {desk after : GrantDesk} {commits : TrustGrantRow → Prop}

theorem isLive_of_update {id : ℕ} {f : TrustGrantRow → TrustGrantRow}
    (hf : ∀ row, (f row).id = row.id) (hkeeps : ∀ row, Keeps row (f row))
    {other : ℕ} (h : (desk.update id f hf).IsLive other) :
    desk.IsLive other := by
  obtain ⟨row', hrow', hid, hactive⟩ := h
  obtain ⟨row, hrow, rfl⟩ := (Table.mem_modify hf).mp hrow'
  refine ⟨row, hrow, ?_, ?_⟩
  · split_ifs at hid with hmatch
    · rw [← hid, hf]
    · exact hid
  · by_contra hended
    split_ifs at hactive with hmatch
    · exact (hkeeps row).notActive hended hactive
    · exact hended hactive

theorem change_update {id : ℕ} {f : TrustGrantRow → TrustGrantRow}
    (hf : ∀ row, (f row).id = row.id) (hkeeps : ∀ row, Keeps row (f row)) :
    Change desk (desk.update id f hf) commits :=
  .keeps rfl le_rfl fun _ h => Or.inl (isLive_of_update hf hkeeps h)

theorem isLive_of_insert {mk : ℕ → TrustGrantRow} (hmk : ∀ n, (mk n).id = n)
    {id : ℕ}
    (h : IsLive { desk with grants := desk.grants.insert mk hmk } id) :
    desk.IsLive id ∨ id = desk.grants.next := by
  obtain ⟨row, hrow, hid, hactive⟩ := h
  rcases (Table.mem_insert hmk).mp hrow with hold | rfl
  · exact Or.inl ⟨row, hold, hid, hactive⟩
  · exact Or.inr (hid.symm.trans (hmk _))

/-- A renewal's transaction puts a grant in the place of a live one. -/
theorem change_commit {old : TrustGrantRow} {actorUserId : ℕ}
    {note : Option String} {now : Instant}
    (hcommits : commits old) (hold : desk.IsLive old.id) :
    Change desk (desk.commit old actorUserId note now) commits := by
  let created := old.successor actorUserId note now desk.clock
  let inserted : GrantDesk :=
    { desk with grants := desk.grants.insert created fun _ => rfl }
  let supersede :=
    old.supersede (created desk.grants.next) actorUserId now
  have hsupersede : ∀ row, (supersede row).id = row.id :=
    fun _ => TrustGrantRow.id_finish _ _ _ _ _
  have hkeeps : ∀ row, Keeps row (supersede row) :=
    fun _ => keeps_finish _ _ _ _ _
  refine .renews old hold hcommits rfl (Nat.le_succ _) ?_ ?_
  · have hcreated : created desk.grants.next ∈ inserted.grants.rows :=
      (Table.mem_insert fun _ => rfl).mpr (Or.inr rfl)
    refine ⟨_, (Table.mem_modify hsupersede).mpr
      ⟨created desk.grants.next, hcreated, rfl⟩, ?_, ?_⟩
    · split_ifs
      · exact hsupersede _
      · rfl
    · split_ifs
      · have hterms := (hkeeps (created desk.grants.next)).terms
        exact congrArg (fun terms => terms.2.1) hterms
      · rfl
  · intro id h
    have hlive : inserted.IsLive id :=
      @isLive_of_update inserted old.id supersede hsupersede hkeeps id h
    exact isLive_of_insert (fun _ => rfl) hlive

theorem change_refl : Change desk desk commits :=
  .keeps rfl le_rfl fun _ => Or.inl

theorem change_execute {call : GrantCall}
    (hcommits : ∀ old actorUserId note now,
      call = .committing old actorUserId note now → commits old) :
    Change desk (desk.execute call).1 commits := by
  cases call with
  | inserting input =>
    exact .keeps rfl (Nat.le_succ _) fun _ => isLive_of_insert fun _ => rfl
  | reading grantId actorUserId note now =>
    dsimp only [execute]
    cases desk.grants.find grantId with
    | none => exact change_refl
    | some old =>
      dsimp only
      split_ifs
      · exact change_refl
      · exact change_refl
  | committing old actorUserId note now =>
    dsimp only [execute]
    split_ifs with hactive
    · refine change_commit (hcommits old actorUserId note now rfl) ?_
      obtain ⟨row, hfind, hstatus⟩ := Option.any_eq_true _ _ |>.mp hactive
      obtain ⟨hrow, hid⟩ := Table.find_eq_some.mp hfind
      exact ⟨row, hrow, hid, beq_iff_eq.mp hstatus⟩
    · exact change_refl
  | charging grantId usage now =>
    dsimp only [execute]
    split
    · exact change_update _ fun _ => keeps_charge _ _
    · exact change_refl
  | suspending grantId reason detail now =>
    exact change_update _ fun _ => keeps_finish _ _ _ _ _
  | revoking grantId actorUserId note now =>
    exact change_update _ fun _ => keeps_finish _ _ _ _ _
  | selectingLapsed now => exact change_refl
  | expiring lapsed now =>
    cases lapsed with
    | nil => exact change_refl
    | cons lapsed left => exact change_update _ fun _ => keeps_finish _ _ _ _ _
  | done => exact change_refl

theorem change_of_grants (hgrants : after.grants = desk.grants)
    (hrenewals : after.renewals = desk.renewals) :
    Change desk after commits := by
  refine .keeps hrenewals (by rw [hgrants]) fun id h => Or.inl ?_
  unfold IsLive at h ⊢
  rwa [hgrants] at h

theorem change_step (turn : GrantTurn) :
    Change desk (desk.step turn) fun old => ∃ id actorUserId note now,
      turn = .resume id none
        ∧ desk.calls[id]? = some (.committing old actorUserId note now) := by
  cases turn with
  | tick ms => exact change_of_grants rfl rfl
  | resume id error =>
    dsimp only [step]
    cases hcall : desk.calls[id]? with
    | none => exact change_refl
    | some call =>
      cases error with
      | some error => exact change_of_grants rfl rfl
      | none =>
        have hchange := @change_execute desk (fun old => ∃ id' actor text moment,
            GrantTurn.resume id none = .resume id' none
              ∧ desk.calls[id']? = some (.committing old actor text moment))
          call fun old actor text moment heq =>
            ⟨id, actor, text, moment, rfl, by rw [hcall, heq]⟩
        cases hchange with
        | keeps hrenewals hnext hlive => exact .keeps hrenewals hnext hlive
        | renews old hold hcommits hrenewals hnext hclass hlive =>
          exact .renews old hold hcommits hrenewals hnext hclass hlive
  | _ => exact change_of_grants rfl rfl

/-- A grant keeps its class. -/
theorem HasClass.grows {id : ℕ} {actionClass : String}
    (h : desk.HasClass id actionClass) (hgrows : Grows desk after) :
    after.HasClass id actionClass := by
  obtain ⟨row, hrow, hid, hclass⟩ := h
  obtain ⟨row', hrow', hkeeps⟩ := hgrows.kept row hrow
  refine ⟨row', hrow', hkeeps.id.trans hid, ?_⟩
  have hterms := congrArg (fun terms => terms.2.1) hkeeps.terms
  exact hterms.trans hclass

theorem HasClass.lt_next {id : ℕ} {actionClass : String}
    (h : desk.HasClass id actionClass) : id < desk.grants.next := by
  obtain ⟨row, hrow, rfl, -⟩ := h
  exact desk.grants.bounded row hrow

/-- A statement that goes on to commit a renewal has read the grant. -/
theorem hasClass_of_execute {call : GrantCall} {old : TrustGrantRow}
    {actorUserId : ℕ} {note : Option String} {now : Instant}
    (h : (desk.execute call).2 = .committing old actorUserId note now) :
    desk.HasClass old.id old.actionClass := by
  cases call with
  | reading grantId actor text moment =>
    dsimp only [execute] at h
    cases hfind : desk.grants.find grantId with
    | none =>
      rw [hfind] at h
      cases h
    | some row =>
      rw [hfind] at h
      dsimp only at h
      split_ifs at h
      cases h
      exact ⟨old, (Table.find_eq_some.mp hfind).1, rfl, rfl⟩
  | committing row actor text moment =>
    dsimp only [execute] at h
    split_ifs at h
  | charging grantId usage moment =>
    dsimp only [execute] at h
    split at h
    · unfold judge at h
      split at h
      · cases h
      · cases h
    · cases h
  | expiring lapsed moment => cases lapsed <;> cases h
  | _ => cases h

/-- A renewal is committed on a grant that was read. -/
theorem reads_step (turn : GrantTurn)
    (h : ∀ old actorUserId note now,
      .committing old actorUserId note now ∈ desk.calls →
        desk.HasClass old.id old.actionClass) :
    ∀ old actorUserId note now,
      .committing old actorUserId note now ∈ (desk.step turn).calls →
        (desk.step turn).HasClass old.id old.actionClass := by
  intro old actorUserId note now hcall
  refine HasClass.grows ?_ (grows_step turn)
  have hstart : ∀ turn : GrantTurn,
      desk.start turn ≠ some (.committing old actorUserId note now) := by
    intro turn
    cases turn <;> dsimp only [start] <;> (try split_ifs) <;> nofun
  cases turn with
  | tick ms => exact h old actorUserId note now hcall
  | resume id error =>
    dsimp only [step] at hcall
    cases hread : desk.calls[id]? with
    | none =>
      rw [hread] at hcall
      exact h old actorUserId note now hcall
    | some call =>
      rw [hread] at hcall
      cases error with
      | some error =>
        rcases List.mem_or_eq_of_mem_set hcall with hbefore | heq
        · exact h old actorUserId note now hbefore
        · cases heq
      | none =>
        rcases List.mem_or_eq_of_mem_set hcall with hbefore | heq
        · exact h old actorUserId note now hbefore
        · exact hasClass_of_execute heq.symm
  | _ =>
    rcases List.mem_append.mp hcall with hbefore | hnew
    · exact h old actorUserId note now hbefore
    · exact absurd (Option.mem_toList.mp hnew) (hstart _)

end Change

end GrantDesk

namespace DemotionDesk

/-! ## What is asked -/

/-- **A grant a demotion covers**: one there was when the rung was written, or
one that was made by renewing such a grant, in however many steps, before the
demotion was over. -/
def Covers (desk : DemotionDesk) (demotion : Demotion) (id : ℕ) : Prop :=
  (∃ first ∈ demotion.existing, ReflTransGen desk.grantDesk.Renews first id)
    ∧ ∀ bound, demotion.ended = some bound → id < bound

/-- **Disarmed**: an evaluation that began after a demotion was over and came
to its end without a failure finds no grant alive that the demotion covers, as
long as the class is off the promoted rung. -/
def Disarmed (desk : DemotionDesk) : Prop :=
  ∀ pass, .completed pass ∈ desk.calls → pass.clean →
    ∀ number ∈ pass.since, ∀ demotion,
      desk.demotions[number]? = some demotion →
        rungOf (desk.states demotion.actionClass) ≠ .promoted →
          ∀ grant ∈ desk.grantDesk.grants.rows,
            desk.Covers demotion grant.id → grant.status ≠ .active

/-- The statements that take grants away. -/
def LadderCall.disarms : LadderCall → Bool
  | .listing _ => true
  | .suspending _ _ _ => true
  | _ => false

/-- The grants a call has still to suspend. -/
def LadderCall.waiting : LadderCall → List ℕ
  | .suspending _ grantId left => grantId :: left
  | _ => []

/-- **Undisturbed**: no statement that takes grants away fails or is cut off,
and no grant is renewed while a demotion that listed it waits to suspend it. -/
structure Undisturbed (desk : DemotionDesk) (turn : DemotionTurn) : Prop where
  succeeds : ∀ id error, turn = .resume id (some error) →
    ∀ call, desk.calls[id]? = some call → LadderCall.disarms call = false
  finishes : ∀ id, turn = .cutOff id →
    ∀ call, desk.calls[id]? = some call → LadderCall.disarms call = false
  unrenewed : ∀ id, turn = .grant (.resume id none) →
    ∀ old actorUserId note now,
      desk.grantDesk.calls[id]? = some (.committing old actorUserId note now) →
        desk.grantDesk.IsLive old.id →
          ∀ call ∈ desk.calls, old.id ∉ LadderCall.waiting call

/-! ## The invariant -/

/-- A live grant that a demotion covers. -/
def IsArmed (desk : DemotionDesk) (demotion : Demotion) (id : ℕ) : Prop :=
  desk.Covers demotion id ∧ desk.grantDesk.IsLive id

/-- The demotion with this number is over. -/
def IsOver (desk : DemotionDesk) (number : ℕ) : Prop :=
  ∃ demotion, desk.demotions[number]? = some demotion ∧ demotion.ended.isSome

/-- What a demotion on its way resumes began after others were over. -/
def Resumes (desk : DemotionDesk) (job : Disarming) : Prop :=
  ∀ pass left, job.resumes = some (pass, left) →
    ∀ number ∈ pass.since, desk.IsOver number

/-- What a call has done is as it takes it to be. -/
def Ready (desk : DemotionDesk) : LadderCall → Prop
  | .readingStates _ _ _ since => ∀ number ∈ since, desk.IsOver number
  | .writing pass _ _ _ => ∀ number ∈ pass.since, desk.IsOver number
  | .listing job =>
    (∃ demotion, desk.demotions[job.demotion]? = some demotion
      ∧ demotion.actionClass = job.actionClass) ∧ desk.Resumes job
  | .suspending job grantId left =>
    (∃ demotion, desk.demotions[job.demotion]? = some demotion
      ∧ ∀ id, desk.IsArmed demotion id → id ∈ grantId :: left)
      ∧ desk.Resumes job
  | .completed pass => ∀ number ∈ pass.since, desk.IsOver number
  | _ => True

/-- Grants are renewed within their class, a demotion that is over has
disarmed, and the calls are ready. -/
structure Sound (desk : DemotionDesk) : Prop where
  lineage : ∀ a b, desk.grantDesk.Renews a b → ∃ actionClass,
    desk.grantDesk.HasClass a actionClass ∧ desk.grantDesk.HasClass b actionClass
  existing : ∀ demotion ∈ desk.demotions, ∀ id ∈ demotion.existing,
    desk.grantDesk.HasClass id demotion.actionClass
  bound : ∀ demotion ∈ desk.demotions, ∀ bound, demotion.ended = some bound →
    bound ≤ desk.grantDesk.grants.next
  reads : ∀ old actorUserId note now,
    .committing old actorUserId note now ∈ desk.grantDesk.calls →
      desk.grantDesk.HasClass old.id old.actionClass
  ended : ∀ demotion ∈ desk.demotions, demotion.ended.isSome →
    ∀ id, ¬desk.IsArmed demotion id
  ready : ∀ call ∈ desk.calls, desk.Ready call

theorem sound_opened (clock : Instant) (grants : Table TrustGrantRow)
    (states : PromotionTable) : (opened clock grants states).Sound where
  lineage := fun _ _ h => nomatch h
  existing := fun _ h => nomatch h
  bound := fun _ h => nomatch h
  reads := fun _ _ _ _ h => nomatch h
  ended := fun _ h => nomatch h
  ready := fun _ h => nomatch h

/-- What is over has disarmed. -/
theorem Sound.disarmed {desk : DemotionDesk} (h : desk.Sound) :
    desk.Disarmed := by
  intro pass hpass _ number hnumber demotion hdemotion _ grant hgrant hcovers
  obtain ⟨demotion', hdemotion', hover⟩ := h.ready _ hpass number hnumber
  obtain rfl : demotion = demotion' :=
    Option.some.inj (hdemotion.symm.trans hdemotion')
  intro hactive
  exact h.ended demotion (List.mem_of_getElem? hdemotion) hover grant.id
    ⟨hcovers, grant, hgrant, rfl, hactive⟩

/-! ## What a turn keeps -/

section Continuing

variable {desk after : DemotionDesk} {demotion : Demotion}

/-- What is over stays so, and no grant is armed again. -/
def Continues (desk after : DemotionDesk) : Prop :=
  ∀ (number : ℕ) (demotion : Demotion),
    desk.demotions[number]? = some demotion →
      ∃ demotion', after.demotions[number]? = some demotion'
        ∧ demotion'.actionClass = demotion.actionClass
        ∧ (demotion.ended.isSome → demotion'.ended.isSome)
        ∧ ∀ id, after.IsArmed demotion' id → desk.IsArmed demotion id

theorem Continues.isOver (h : Continues desk after) {number : ℕ}
    (hover : desk.IsOver number) : after.IsOver number := by
  obtain ⟨demotion, hdemotion, hover⟩ := hover
  obtain ⟨demotion', hdemotion', -, hkept, -⟩ := h number demotion hdemotion
  exact ⟨demotion', hdemotion', hkept hover⟩

theorem Continues.resumes (h : Continues desk after) {job : Disarming}
    (hresumes : desk.Resumes job) : after.Resumes job :=
  fun pass left hjob number hnumber =>
    h.isOver (hresumes pass left hjob number hnumber)

theorem Continues.ready (h : Continues desk after) {call : LadderCall}
    (hready : desk.Ready call) : after.Ready call := by
  cases call with
  | readingStates evidence paused now since =>
    exact fun number hnumber => h.isOver (hready number hnumber)
  | writing pass item change left =>
    exact fun number hnumber => h.isOver (hready number hnumber)
  | completed pass => exact fun number hnumber => h.isOver (hready number hnumber)
  | listing job =>
    obtain ⟨⟨demotion, hdemotion, hclass⟩, hresumes⟩ := hready
    obtain ⟨demotion', hdemotion', hclass', -, -⟩ := h _ demotion hdemotion
    exact ⟨⟨demotion', hdemotion', hclass'.trans hclass⟩, h.resumes hresumes⟩
  | suspending job grantId left =>
    obtain ⟨⟨demotion, hdemotion, harmed⟩, hresumes⟩ := hready
    obtain ⟨demotion', hdemotion', -, -, hkept⟩ := h _ demotion hdemotion
    exact ⟨⟨demotion', hdemotion', fun id hid => harmed id (hkept id hid)⟩,
      h.resumes hresumes⟩
  | _ => trivial

/-- A grant that is covered is there, and of the class. -/
theorem Sound.hasClass_of_covers (h : desk.Sound)
    (hdemotion : demotion ∈ desk.demotions) {id : ℕ}
    (hcovers : desk.Covers demotion id) :
    desk.grantDesk.HasClass id demotion.actionClass := by
  obtain ⟨⟨first, hfirst, hchain⟩, -⟩ := hcovers
  induction hchain with
  | refl => exact h.existing demotion hdemotion first hfirst
  | tail _ hrenews ih =>
    obtain ⟨actionClass, ⟨old, hold, holdId, holdClass⟩, hnew⟩ :=
      h.lineage _ _ hrenews
    obtain ⟨row, hrow, hrowId, hrowClass⟩ := ih
    have hid : Keyed.key row = Keyed.key old := hrowId.trans holdId.symm
    obtain rfl : row = old := Table.eq_of_key hrow hold hid
    rwa [← holdClass, hrowClass] at hnew

/-- A grant that is not there yet is not armed by what renews nothing. -/
theorem Sound.isArmed_of_kept (h : desk.Sound)
    (hdemotion : demotion ∈ desk.demotions)
    (hrenewals : after.grantDesk.renewals = desk.grantDesk.renewals)
    (hlive : ∀ id, after.grantDesk.IsLive id →
      desk.grantDesk.IsLive id ∨ id = desk.grantDesk.grants.next)
    {id : ℕ} (harmed : after.IsArmed demotion id) :
    desk.IsArmed demotion id := by
  have hcovers : desk.Covers demotion id := by
    obtain ⟨⟨first, hfirst, hchain⟩, hbound⟩ := harmed.1
    unfold GrantDesk.Renews at hchain
    rw [hrenewals] at hchain
    exact ⟨⟨first, hfirst, hchain⟩, hbound⟩
  rcases hlive id harmed.2 with hbefore | rfl
  · exact ⟨hcovers, hbefore⟩
  · exact absurd (h.hasClass_of_covers hdemotion hcovers).lt_next (lt_irrefl _)

/-- What a renewal arms took the place of what was armed. -/
theorem Sound.isArmed_of_renewed (h : desk.Sound)
    (hdemotion : demotion ∈ desk.demotions) {old : ℕ}
    (hold : desk.grantDesk.IsLive old)
    (hrenewals : after.grantDesk.renewals
      = (old, desk.grantDesk.grants.next) :: desk.grantDesk.renewals)
    (hlive : ∀ id, after.grantDesk.IsLive id →
      desk.grantDesk.IsLive id ∨ id = desk.grantDesk.grants.next)
    {id : ℕ} (harmed : after.IsArmed demotion id) :
    desk.IsArmed demotion id
      ∨ id = desk.grantDesk.grants.next ∧ desk.IsArmed demotion old := by
  have hbefore : ∀ a b, desk.grantDesk.Renews a b →
      a < desk.grantDesk.grants.next := by
    intro a b hrenews
    obtain ⟨actionClass, ha, -⟩ := h.lineage a b hrenews
    exact ha.lt_next
  have holdNext : old < desk.grantDesk.grants.next := by
    obtain ⟨row, hrow, rfl, -⟩ := hold
    exact desk.grantDesk.grants.bounded row hrow
  obtain ⟨⟨first, hfirst, hchain⟩, hbound⟩ := harmed.1
  -- the new link is the last one of a chain, or not in it
  have hsplit : ReflTransGen desk.grantDesk.Renews first id
      ∨ id = desk.grantDesk.grants.next
        ∧ ReflTransGen desk.grantDesk.Renews first old := by
    clear harmed hbound
    induction hchain with
    | refl => exact Or.inl .refl
    | @tail middle last _ hrenews ih =>
      unfold GrantDesk.Renews at hrenews
      rw [hrenewals] at hrenews
      rcases List.mem_cons.mp hrenews with hnew | hlink
      · obtain ⟨rfl, rfl⟩ := Prod.mk.inj hnew
        rcases ih with hchain | ⟨hmiddle, -⟩
        · exact Or.inr ⟨rfl, hchain⟩
        · exact absurd hmiddle holdNext.ne
      · rcases ih with hchain | ⟨hmiddle, -⟩
        · exact Or.inl (hchain.tail hlink)
        · exact absurd hmiddle (hbefore _ _ hlink).ne
  have hcovers : ReflTransGen desk.grantDesk.Renews first id →
      desk.Covers demotion id :=
    fun hchain => ⟨⟨first, hfirst, hchain⟩, hbound⟩
  rcases hsplit with hchain | ⟨hid, hchain⟩
  · rcases hlive id harmed.2 with hlive | hid
    · exact Or.inl ⟨hcovers hchain, hlive⟩
    · rw [hid] at hcovers hchain
      have hclass := h.hasClass_of_covers hdemotion (hcovers hchain)
      exact absurd hclass.lt_next (lt_irrefl _)
  · refine Or.inr ⟨hid, ⟨⟨first, hfirst, hchain⟩, fun bound hover => ?_⟩, hold⟩
    rw [hid] at hbound
    exact holdNext.trans (hbound bound hover)

theorem continues_calls (calls : List LadderCall) :
    Continues desk { desk with calls := calls } :=
  fun _ demotion hdemotion => ⟨demotion, hdemotion, rfl, id, fun _ h => h⟩

/-- A statement that only ends grants, or writes one that renews nothing. -/
theorem continues_of_kept (h : desk.Sound)
    (hdemotions : after.demotions = desk.demotions)
    (hrenewals : after.grantDesk.renewals = desk.grantDesk.renewals)
    (hlive : ∀ id, after.grantDesk.IsLive id →
      desk.grantDesk.IsLive id ∨ id = desk.grantDesk.grants.next) :
    Continues desk after := by
  intro number demotion hdemotion
  refine ⟨demotion, by rw [hdemotions]; exact hdemotion, rfl, id, ?_⟩
  exact fun id harmed => h.isArmed_of_kept (List.mem_of_getElem? hdemotion)
    hrenewals hlive harmed

/-- The rest of what makes a desk sound, where the demotions are the same. -/
theorem Sound.of_grants (h : desk.Sound)
    (hdemotions : after.demotions = desk.demotions)
    (hcalls : after.calls = desk.calls)
    (hgrows : GrantDesk.Grows desk.grantDesk after.grantDesk)
    (hnext : desk.grantDesk.grants.next ≤ after.grantDesk.grants.next)
    (hlineage : ∀ a b, after.grantDesk.Renews a b →
      desk.grantDesk.Renews a b ∨ ∃ actionClass,
        after.grantDesk.HasClass a actionClass
          ∧ after.grantDesk.HasClass b actionClass)
    (hreads : ∀ old actorUserId note now,
      .committing old actorUserId note now ∈ after.grantDesk.calls →
        after.grantDesk.HasClass old.id old.actionClass)
    (hover : ∀ demotion ∈ desk.demotions, demotion.ended.isSome →
      ∀ id, ¬after.IsArmed demotion id)
    (hready : ∀ call ∈ desk.calls, after.Ready call) : after.Sound where
  lineage a b hrenews := by
    rcases hlineage a b hrenews with hbefore | hnew
    · obtain ⟨actionClass, ha, hb⟩ := h.lineage a b hbefore
      exact ⟨actionClass, ha.grows hgrows, hb.grows hgrows⟩
    · exact hnew
  existing demotion hdemotion id hid := by
    rw [hdemotions] at hdemotion
    exact (h.existing demotion hdemotion id hid).grows hgrows
  bound demotion hdemotion bound hbound := by
    rw [hdemotions] at hdemotion
    exact (h.bound demotion hdemotion bound hbound).trans hnext
  reads := hreads
  ended demotion hdemotion := by
    rw [hdemotions] at hdemotion
    exact hover demotion hdemotion
  ready call hcall := by
    rw [hcalls] at hcall
    exact hready call hcall

/-- **A turn of the grants keeps the desk sound**, where nothing is renewed
that a demotion waits to suspend. -/
theorem Sound.grant (h : desk.Sound) {turn : GrantTurn}
    (hundisturbed : desk.Undisturbed (.grant turn)) :
    (desk.step (.grant turn)).Sound := by
  have hgrows := @GrantDesk.grows_step desk.grantDesk turn
  have hreads := GrantDesk.reads_step turn h.reads
  cases @GrantDesk.change_step desk.grantDesk turn with
  | keeps hrenewals hnext hlive =>
    have hcontinues : Continues desk (desk.step (.grant turn)) :=
      continues_of_kept h rfl hrenewals hlive
    refine h.of_grants rfl rfl hgrows hnext (fun a b hrenews => ?_) hreads
      (fun demotion hdemotion hover id harmed => ?_)
      fun call hcall => hcontinues.ready (h.ready call hcall)
    · unfold GrantDesk.Renews at hrenews ⊢
      rw [← hrenewals]
      exact Or.inl hrenews
    · exact h.ended demotion hdemotion hover id
        (h.isArmed_of_kept hdemotion hrenewals hlive harmed)
  | renews old hold hcommits hrenewals hnext hclass hlive =>
    obtain ⟨id, actorUserId, note, now, rfl, hcall⟩ := hcommits
    have hread := h.reads old actorUserId note now (List.mem_of_getElem? hcall)
    refine h.of_grants rfl rfl hgrows hnext (fun a b hlink => ?_) hreads
      (fun demotion hdemotion hover id' harmed => ?_) fun call hmem => ?_
    · unfold GrantDesk.Renews at hlink
      rw [show (desk.step (.grant (.resume id none))).grantDesk.renewals = _
        from hrenewals] at hlink
      rcases List.mem_cons.mp hlink with hnew | hbefore
      · obtain ⟨rfl, rfl⟩ := Prod.mk.inj hnew
        exact Or.inr ⟨old.actionClass, hread.grows hgrows, hclass⟩
      · exact Or.inl hbefore
    · rcases h.isArmed_of_renewed hdemotion hold hrenewals hlive harmed
        with hbefore | ⟨-, hbefore⟩
      · exact h.ended demotion hdemotion hover id' hbefore
      · exact h.ended demotion hdemotion hover old.id hbefore
    · have hready := h.ready call hmem
      cases call with
      | suspending job grantId left =>
        obtain ⟨⟨demotion, hdemotion, hwaiting⟩, hresumes⟩ := hready
        refine ⟨⟨demotion, hdemotion, fun id' harmed => ?_⟩, hresumes⟩
        rcases h.isArmed_of_renewed (List.mem_of_getElem? hdemotion) hold
          hrenewals hlive harmed with hbefore | ⟨-, hbefore⟩
        · exact hwaiting id' hbefore
        · -- the grant was renewed under the demotion's hands
          exact absurd (hwaiting old.id hbefore) (hundisturbed.unrenewed id rfl
            old actorUserId note now hcall hold _ hmem)
      | _ => exact hready

/-! ## The statements of a demotion -/

/-- A grant that is suspended is not alive. -/
theorem not_isLive_suspend {grants : GrantDesk} {grantId : ℕ}
    {reason : TrustGrantEndReason} {detail : String} {now : Instant} :
    ¬(grants.update grantId (·.suspend reason detail now)
      fun _ => TrustGrantRow.id_finish _ _ _ _ _).IsLive grantId := by
  rintro ⟨row', hrow', hid, hactive⟩
  have hsuspend : ∀ row : TrustGrantRow,
      (row.suspend reason detail now).id = row.id :=
    fun _ => TrustGrantRow.id_finish _ _ _ _ _
  obtain ⟨row, -, rfl⟩ := (Table.mem_modify hsuspend).mp hrow'
  split_ifs at hid hactive with hmatch
  · unfold TrustGrantRow.suspend TrustGrantRow.finish at hactive
    split_ifs at hactive with hwas
    exact hwas hactive
  · exact hmatch (beq_iff_eq.mpr hid)

/-- A grant is suspended. -/
theorem Sound.suspend (h : desk.Sound) (grantId : ℕ)
    (reason : TrustGrantEndReason) (detail : String) (now : Instant) :
    Sound { desk with
      grantDesk :=
        desk.grantDesk.update grantId (·.suspend reason detail now)
          fun _ => TrustGrantRow.id_finish _ _ _ _ _ } := by
  let grants := desk.grantDesk.update grantId (·.suspend reason detail now)
    fun _ => TrustGrantRow.id_finish _ _ _ _ _
  let after : DemotionDesk := { desk with grantDesk := grants }
  have hgrows : GrantDesk.Grows desk.grantDesk grants :=
    GrantDesk.grows_update _ fun _ => GrantDesk.keeps_finish _ _ _ _ _
  have hlive : ∀ id, grants.IsLive id →
      desk.grantDesk.IsLive id ∨ id = desk.grantDesk.grants.next :=
    fun id hid => Or.inl (GrantDesk.isLive_of_update _
      (fun _ => GrantDesk.keeps_finish _ _ _ _ _) hid)
  refine h.of_grants rfl rfl hgrows le_rfl (fun a b hlink => Or.inl hlink)
    (fun old actorUserId note moment hcall =>
      (h.reads old actorUserId note moment hcall).grows hgrows)
    (fun demotion hdemotion hover id harmed => ?_) fun call hcall => ?_
  · exact h.ended demotion hdemotion hover id
      (@Sound.isArmed_of_kept desk after demotion h hdemotion rfl hlive id harmed)
  · exact (@continues_of_kept desk after h rfl rfl hlive).ready
      (h.ready call hcall)

theorem getElem?_conclude (number number' : ℕ) :
    (desk.conclude number).demotions[number']?
      = desk.demotions[number']?.map fun demotion =>
        if number = number' then
          Demotion.concluded demotion desk.grantDesk.grants.next
        else demotion := by
  show (desk.demotions.modify number _)[number']? = _
  rw [List.getElem?_modify]
  by_cases hsame : number = number'
  · simp only [if_pos hsame]
    rfl
  · simp only [if_neg hsame]
    cases desk.demotions[number']? with
    | none => rfl
    | some demotion => rfl

/-- A demotion that is over covers no more than it did. -/
theorem isArmed_of_concluded {number next id : ℕ}
    (harmed : (desk.conclude number).IsArmed
      (Demotion.concluded demotion next) id) : desk.IsArmed demotion id := by
  refine ⟨⟨harmed.1.1, fun bound hbound => ?_⟩, harmed.2⟩
  refine harmed.1.2 bound ?_
  show demotion.ended.or next = some bound
  rw [hbound]
  rfl

theorem continues_conclude (number : ℕ) :
    Continues desk (desk.conclude number) := by
  intro number' demotion hdemotion
  have hget := @getElem?_conclude desk number number'
  rw [hdemotion, Option.map_some] at hget
  refine ⟨_, hget, ?_, ?_, ?_⟩
  · split_ifs
    · rfl
    · rfl
  · intro hover
    split_ifs
    · show (demotion.ended.or _).isSome
      rw [Option.isSome_or, hover]
      rfl
    · exact hover
  · intro id harmed
    split_ifs at harmed
    · exact isArmed_of_concluded harmed
    · exact harmed

/-- A demotion that left nothing armed is over. -/
theorem Sound.conclude (h : desk.Sound) {number : ℕ}
    (hdone : ∀ demotion, desk.demotions[number]? = some demotion →
      ∀ id, ¬desk.IsArmed demotion id) : (desk.conclude number).Sound := by
  have hmem : ∀ demotion' ∈ (desk.conclude number).demotions,
      ∃ demotion ∈ desk.demotions, demotion'.existing = demotion.existing
        ∧ demotion'.actionClass = demotion.actionClass
        ∧ (demotion' = demotion ∨ desk.demotions[number]? = some demotion
          ∧ demotion'
            = Demotion.concluded demotion desk.grantDesk.grants.next) := by
    intro demotion' hdemotion'
    obtain ⟨number', hnumber'⟩ := List.mem_iff_getElem?.mp hdemotion'
    rw [getElem?_conclude] at hnumber'
    obtain ⟨demotion, hdemotion, rfl⟩ := Option.map_eq_some_iff.mp hnumber'
    refine ⟨demotion, List.mem_of_getElem? hdemotion, ?_⟩
    split_ifs with hsame
    · rw [hsame]
      exact ⟨rfl, rfl, Or.inr ⟨hdemotion, rfl⟩⟩
    · exact ⟨rfl, rfl, Or.inl rfl⟩
  constructor
  · exact h.lineage
  · intro demotion' hdemotion' id hid
    obtain ⟨demotion, hdemotion, hexisting, hclass, -⟩ := hmem _ hdemotion'
    rw [hclass]
    rw [hexisting] at hid
    exact h.existing demotion hdemotion id hid
  · intro demotion' hdemotion' bound hbound
    obtain ⟨demotion, hdemotion, -, -, rfl | ⟨-, rfl⟩⟩ := hmem _ hdemotion'
    · exact h.bound _ hdemotion bound hbound
    · replace hbound : demotion.ended.or desk.grantDesk.grants.next
        = some bound := hbound
      cases hover : demotion.ended with
      | none =>
        rw [hover] at hbound
        exact (Option.some.inj hbound).ge
      | some first =>
        rw [hover] at hbound
        rw [← Option.some.inj hbound]
        exact h.bound demotion hdemotion first hover
  · exact h.reads
  · intro demotion' hdemotion' hover id harmed
    obtain ⟨demotion, hdemotion, -, -, rfl | ⟨hnumber, rfl⟩⟩ :=
      hmem _ hdemotion'
    · exact h.ended _ hdemotion hover id harmed
    · exact hdone demotion hnumber id (isArmed_of_concluded harmed)
  · exact fun call hcall => (continues_conclude number).ready (h.ready call hcall)

/-! ## The statements of a call -/

theorem ready_advance {pass : EvaluationPass}
    (h : ∀ number ∈ pass.since, desk.IsOver number)
    (items : List ClassEvidence) : desk.Ready (pass.advance items) := by
  induction items with
  | nil => exact h
  | cons item left ih =>
    unfold EvaluationPass.advance
    cases settle (pass.states item.actionClass) pass.paused pass.now item with
    | none => exact ih
    | some change => exact h

theorem ready_next {job : Disarming} (h : desk.Resumes job) :
    desk.Ready job.next := by
  unfold Disarming.next
  cases hresumes : job.resumes with
  | none => trivial
  | some resumes => exact ready_advance (h resumes.1 resumes.2 hresumes) _

/-- Where all that is armed is left to suspend, a demotion goes on with it, or
is over. -/
theorem Sound.disarm (h : desk.Sound) {job : Disarming} {left : List ℕ}
    {demotion : Demotion}
    (hdemotion : desk.demotions[job.demotion]? = some demotion)
    (hresumes : desk.Resumes job)
    (harmed : ∀ id, desk.IsArmed demotion id → id ∈ left) :
    (desk.disarm job left).1.Sound
      ∧ (desk.disarm job left).1.Ready (desk.disarm job left).2
      ∧ (desk.disarm job left).1.calls = desk.calls := by
  cases left with
  | nil =>
    refine ⟨h.conclude fun other hother id hid => ?_,
      ready_next ((continues_conclude job.demotion).resumes hresumes), rfl⟩
    obtain rfl : demotion = other :=
      Option.some.inj (hdemotion.symm.trans hother)
    exact absurd (harmed id hid) List.not_mem_nil
  | cons grantId left =>
    exact ⟨h, ⟨⟨demotion, hdemotion, harmed⟩, hresumes⟩, rfl⟩

/-- A rung is written, and the demotion that begins covers grants there are. -/
theorem Sound.write (h : desk.Sound) (item : ClassEvidence)
    (existing : Option PromotionState) (change : LadderChange) (now : Instant)
    (human : Option (ℕ × Instant)) :
    (desk.write item existing change now human).Sound
      ∧ Continues desk (desk.write item existing change now human) := by
  let after := desk.write item existing change now human
  have hcontinues : Continues desk after := by
    intro number demotion hdemotion
    refine ⟨demotion, ?_, rfl, id, fun _ h => h⟩
    obtain ⟨hlt, -⟩ := List.getElem?_eq_some_iff.mp hdemotion
    show (desk.demotions ++ _)[number]? = some demotion
    rw [List.getElem?_append_left hlt, hdemotion]
  have hmem : ∀ demotion ∈ after.demotions, demotion ∈ desk.demotions
      ∨ demotion.ended = none ∧ demotion.existing
        = (desk.grantDesk.grants.rows.filter
          (·.actionClass == demotion.actionClass)).map (·.id) := by
    intro demotion hdemotion
    rcases List.mem_append.mp hdemotion with hbefore | hnew
    · exact Or.inl hbefore
    · split_ifs at hnew
      · rw [List.mem_singleton.mp hnew]
        exact Or.inr ⟨rfl, rfl⟩
      · exact absurd hnew List.not_mem_nil
  refine ⟨?_, hcontinues⟩
  constructor
  · exact h.lineage
  · intro demotion hdemotion id hid
    rcases hmem demotion hdemotion with hbefore | ⟨-, hexisting⟩
    · exact h.existing demotion hbefore id hid
    · rw [hexisting] at hid
      obtain ⟨row, hrow, rfl⟩ := List.mem_map.mp hid
      obtain ⟨hrow, hclass⟩ := List.mem_filter.mp hrow
      exact ⟨row, hrow, rfl, beq_iff_eq.mp hclass⟩
  · intro demotion hdemotion bound hbound
    rcases hmem demotion hdemotion with hbefore | ⟨hnone, -⟩
    · exact h.bound demotion hbefore bound hbound
    · rw [hnone] at hbound
      cases hbound
  · exact h.reads
  · intro demotion hdemotion hover id harmed
    rcases hmem demotion hdemotion with hbefore | ⟨hnone, -⟩
    · exact h.ended demotion hbefore hover id harmed
    · rw [hnone] at hover
      cases hover
  · exact fun call hcall => hcontinues.ready (h.ready call hcall)

/-- What follows the write of a rung is ready. -/
theorem ready_follow {item : ClassEvidence}
    {existing : Option PromotionState} {change : LadderChange} {now : Instant}
    {human : Option (ℕ × Instant)}
    {resumes : Option (EvaluationPass × List ClassEvidence)}
    (hresumes : ∀ pass left, resumes = some (pass, left) →
      ∀ number ∈ pass.since,
        (desk.write item existing change now human).IsOver number) :
    (desk.write item existing change now human).Ready
      (desk.follow item change now resumes) := by
  unfold follow
  dsimp only
  by_cases hdemotes : change.reason.any (·.isDemotion)
  · rw [if_pos hdemotes]
    let begun : Demotion :=
      { actionClass := item.actionClass
        existing :=
          (desk.grantDesk.grants.rows.filter
            (·.actionClass == item.actionClass)).map (·.id) }
    refine ⟨⟨begun, ?_, rfl⟩, hresumes⟩
    show (desk.demotions ++ if change.reason.any (·.isDemotion) then [begun]
      else [])[desk.demotions.length]? = some begun
    rw [if_pos hdemotes]
    exact List.getElem?_concat_length
  · rw [if_neg hdemotes]
    exact ready_next hresumes

/-- **A statement keeps the desk sound**, where none that takes grants away
fails. -/
theorem Sound.execute (h : desk.Sound) {call : LadderCall}
    {error : Option String} (hcall : call ∈ desk.calls)
    (hsucceeds : LadderCall.disarms call → error = none) :
    (desk.execute error call).1.Sound
      ∧ (desk.execute error call).1.Ready (desk.execute error call).2
      ∧ (desk.execute error call).1.calls = desk.calls := by
  have hready := h.ready call hcall
  cases call with
  | readingStates evidence paused now since =>
    cases error with
    | some error => exact ⟨h, trivial, rfl⟩
    | none =>
      exact ⟨h, @ready_advance desk ⟨desk.states, paused, now, since, true⟩
        hready _, rfl⟩
  | writing pass item change left =>
    cases error with
    | some error => exact ⟨h, trivial, rfl⟩
    | none =>
      obtain ⟨hsound, hcontinues⟩ := h.write item
        (pass.states item.actionClass) change pass.now none
      refine ⟨hsound, ready_follow fun pass' left' heq number hnumber => ?_, rfl⟩
      obtain ⟨rfl, -⟩ := Prod.mk.inj (Option.some.inj heq)
      exact hcontinues.isOver (hready number hnumber)
  | readingRow actionClass actorUserId note evidence now =>
    dsimp only [DemotionDesk.execute]
    split
    · split_ifs
      · exact ⟨h, trivial, rfl⟩
      · exact ⟨h, trivial, rfl⟩
    · exact ⟨h, trivial, rfl⟩
  | writingByHand existing item change actorUserId now =>
    cases error with
    | some error => exact ⟨h, trivial, rfl⟩
    | none =>
      obtain ⟨hsound, -⟩ := h.write item existing change now
        (some (actorUserId, now + manualHoldMs))
      exact ⟨hsound, ready_follow (fun _ _ heq => nomatch heq), rfl⟩
  | listing job =>
    obtain rfl := hsucceeds rfl
    obtain ⟨⟨demotion, hdemotion, hclass⟩, hresumes⟩ := hready
    refine h.disarm hdemotion hresumes fun id harmed => ?_
    obtain ⟨row, hrow, hid, hactive⟩ := harmed.2
    obtain ⟨row', hrow', hid', hclass'⟩ := h.hasClass_of_covers
      (List.mem_of_getElem? hdemotion) harmed.1
    have hsame : Keyed.key row = Keyed.key row' := hid.trans hid'.symm
    obtain rfl : row = row' := Table.eq_of_key hrow hrow' hsame
    rw [← hid]
    refine List.mem_map.mpr ⟨row, List.mem_filter.mpr ⟨hrow, ?_⟩, rfl⟩
    rw [Bool.and_eq_true, beq_iff_eq, beq_iff_eq]
    exact ⟨hclass'.trans hclass, hactive⟩
  | suspending job grantId left =>
    obtain rfl := hsucceeds rfl
    obtain ⟨⟨demotion, hdemotion, hwaiting⟩, hresumes⟩ := hready
    refine (h.suspend grantId _ _ _).disarm hdemotion hresumes fun id harmed => ?_
    have hne : id ≠ grantId := by
      rintro rfl
      exact not_isLive_suspend harmed.2
    have hbefore : desk.IsArmed demotion id :=
      ⟨harmed.1, GrantDesk.isLive_of_update _
        (fun _ => GrantDesk.keeps_finish _ _ _ _ _) harmed.2⟩
    rcases List.mem_cons.mp (hwaiting id hbefore) with heq | hleft
    · exact absurd heq hne
    · exact hleft
  | completed pass => exact ⟨h, hready, rfl⟩
  | done => exact ⟨h, trivial, rfl⟩

theorem Sound.calls (h : desk.Sound) {calls : List LadderCall}
    (hcalls : ∀ call ∈ calls, desk.Ready call) :
    Sound { desk with calls := calls } :=
  ⟨h.lineage, h.existing, h.bound, h.reads, h.ended,
    fun call hcall => (continues_calls calls).ready (hcalls call hcall)⟩

/-- What is counted as over is over. -/
theorem isOver_of_settled {number : ℕ}
    (h : number ∈ desk.settledDemotions) : desk.IsOver number := by
  obtain ⟨-, hover⟩ := List.mem_filter.mp h
  obtain ⟨bound, hbound⟩ := Option.isSome_iff_exists.mp hover
  obtain ⟨demotion, hdemotion, hover⟩ := Option.bind_eq_some_iff.mp hbound
  exact ⟨demotion, hdemotion, by rw [hover]; rfl⟩

/-- **An undisturbed turn keeps the desk sound.** -/
theorem Sound.step (h : desk.Sound) {turn : DemotionTurn}
    (hundisturbed : desk.Undisturbed turn) : (desk.step turn).Sound := by
  cases turn with
  | grant turn => exact h.grant hundisturbed
  | evaluate evidence paused =>
    refine h.calls fun call hcall => ?_
    rcases List.mem_append.mp hcall with hbefore | hnew
    · exact h.ready call hbefore
    · rw [List.mem_singleton.mp hnew]
      exact fun number hnumber => isOver_of_settled hnumber
  | demoteManually actionClass actorUserId note evidence =>
    refine h.calls fun call hcall => ?_
    rcases List.mem_append.mp hcall with hbefore | hnew
    · exact h.ready call hbefore
    · rw [List.mem_singleton.mp hnew]
      trivial
  | resume id error =>
    dsimp only [DemotionDesk.step]
    cases hcall : desk.calls[id]? with
    | none => exact h
    | some call =>
      have hsucceeds : LadderCall.disarms call → error = none := by
        intro hdisarms
        cases error with
        | none => rfl
        | some error =>
          have hnot := hundisturbed.succeeds id error rfl call hcall
          exact absurd (hdisarms.symm.trans hnot) nofun
      obtain ⟨hsound, hready, hcalls⟩ :=
        h.execute (List.mem_of_getElem? hcall) hsucceeds
      refine hsound.calls fun other hother => ?_
      rcases List.mem_or_eq_of_mem_set hother with hbefore | rfl
      · exact hsound.ready other (by rw [hcalls]; exact hbefore)
      · exact hready
  | cutOff id =>
    dsimp only [DemotionDesk.step]
    cases hcall : desk.calls[id]? with
    | none => exact h
    | some call =>
      have hnot := hundisturbed.finishes id rfl call hcall
      have hsame : desk.abandon call = desk := by
        cases call with
        | listing job => cases hnot
        | suspending job grantId left => cases hnot
        | _ => rfl
      dsimp only
      rw [hsame]
      refine h.calls fun other hother => ?_
      rcases List.mem_or_eq_of_mem_set hother with hbefore | rfl
      · exact h.ready other hbefore
      · trivial

end Continuing

/-- **Undisturbed demotions disarm their classes**, in every state of every
run. -/
theorem disarmed_of_undisturbed (clock : Instant) (grants : Table TrustGrantRow)
    (states : PromotionTable) (turns : List DemotionTurn)
    (h : Machine.Always step Undisturbed (opened clock grants states) turns) :
    Machine.Always step (fun desk turn => (desk.step turn).Disarmed)
      (opened clock grants states) turns :=
  Machine.always_of_invariant (fun _ _ hsound hturn => Sound.step hsound hturn)
    (fun _ _ hsound hturn => (Sound.step hsound hturn).disarmed)
    (sound_opened clock grants states) h

/-! ## Two demotions by hand -/

/-- One live grant. -/
def oneGrant : Table TrustGrantRow :=
  Table.empty.insert (fun id =>
    { id := id
      actionClass := "issue-shaping"
      repositoryId := 0
      expiresAt := 1000
      budgetCeilingUsd := .ofDollars 25
      maxFailureRate := ⟨340⟩
      maxCostPerActionUsd := .ofDollars 5
      createdAt := 0
      grantedById := 0 }) fun _ => rfl

/-- A class on the promoted rung. -/
def onePromoted : PromotionTable :=
  Function.update (fun _ => none) "issue-shaping"
    (some
      { rung := .promoted
        changedAt := 0
        changeReason := some .promotedOnEvidence
        changeDetail := none
        changedById := none
        evidence := none
        manualHoldUntil := none
        promotedAt := some 0
        demotedAt := none
        demotionCount := 0 })

/-- An evaluation that finds nothing on record of the one class. -/
def noEvidence : GatheredEvidence :=
  ⟨[emptyEvidence "issue-shaping"], List.nodup_singleton _⟩

/-- A demotion by hand whose suspension comes out like this, and the next
evaluation. -/
def demotionByHand (suspension : Option String) : List DemotionTurn :=
  [.demoteManually "issue-shaping" 7 none noEvidence, .resume 0 none,
    .resume 0 none, .resume 0 none, .resume 0 suspension,
    .evaluate noEvidence false]

/-- It disarms, where the grant is suspended. -/
theorem disarmed_demotionByHand :
    Machine.Always step (fun desk turn => (desk.step turn).Disarmed)
      (opened 0 oneGrant onePromoted)
      (demotionByHand none ++ [.resume 1 none]) := by
  have hquiet : ∀ desk id, Undisturbed desk (.resume id none) :=
    fun _ _ => ⟨nofun, nofun, nofun⟩
  have hstart : ∀ desk, Undisturbed desk
      (.demoteManually "issue-shaping" 7 none noEvidence) :=
    fun _ => ⟨nofun, nofun, nofun⟩
  have hevaluate : ∀ desk, Undisturbed desk (.evaluate noEvidence false) :=
    fun _ => ⟨nofun, nofun, nofun⟩
  exact disarmed_of_undisturbed 0 oneGrant onePromoted _
    ⟨hstart _, hquiet _ _, hquiet _ _, hquiet _ _, hquiet _ _, hevaluate _,
      hquiet _ _, trivial⟩

/-- **A grant survives its class**: the statement that suspends it times out,
and the next evaluation, which fails nowhere, leaves it alive. -/
theorem armed_after_failed_suspension :
    ¬Machine.Always step (fun desk turn => (desk.step turn).Disarmed)
      (opened 0 oneGrant onePromoted)
      (demotionByHand (some "timeout") ++ [.resume 1 none]) := by
  intro h
  have hlast := ((Machine.always_cons _ _ _ _ _).mp h.suffix).1
  let desk := (Machine.run step (opened 0 oneGrant onePromoted)
    (demotionByHand (some "timeout"))).step (.resume 1 none)
  have hcalls : desk.calls.any (fun call =>
      match call with
      | .completed pass => pass.clean && pass.since == [0]
      | _ => false) = true := by
    decide
  obtain ⟨call, hcall, hcompleted⟩ := List.any_eq_true.mp hcalls
  have hdemotion : desk.demotions[0]?
      = some ⟨"issue-shaping", [0], some 1⟩ := by
    decide
  have hrung : rungOf (desk.states "issue-shaping") ≠ .promoted := by
    decide
  have hgrant : ∃ grant ∈ desk.grantDesk.grants.rows,
      grant.id = 0 ∧ grant.status = .active := by
    decide
  obtain ⟨grant, hgrant, hid, hactive⟩ := hgrant
  cases call with
  | completed pass =>
    obtain ⟨hclean, hsince⟩ := (Bool.and_eq_true _ _).mp hcompleted
    refine hlast pass hcall hclean 0 ?_ _ hdemotion hrung grant hgrant ?_ hactive
    · rw [beq_iff_eq.mp hsince]
      exact List.mem_cons_self
    · rw [hid]
      refine ⟨⟨0, List.mem_cons_self, .refl⟩, fun bound hbound => ?_⟩
      rw [← Option.some.inj hbound]
      exact Nat.one_pos
  | _ => exact absurd hcompleted Bool.false_ne_true

end DemotionDesk

end Opifex
