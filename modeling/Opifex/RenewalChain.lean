import Mathlib.Logic.Relation
import Opifex.GrantDesk

/-!
# Trust only narrows

Whatever is done to grants and however it is interleaved, every write that
ends a grant matches it only while it is active, and nothing writes it active
again. A renewal creates a successor only together with ending the grant it
succeeds, so no grant has two, and of a chain of renewals at most the last is
active.

A successor's terms are the default ones, each narrowed by the old grant's.
The expiry is narrowed as a length, and what a length is measured from is
written when the row is: as the old grant was there when the renewal began,
and had not lapsed, its length is positive, and the successor's is no longer.
-/

namespace Opifex

open Relation (TransGen ReflTransGen)

namespace TrustGrantRow

/-- How long a grant was given. -/
def length (row : TrustGrantRow) : ℤ := row.expiresAt - row.createdAt

/-- The terms of a grant, which no statement changes. -/
def terms (row : TrustGrantRow) :
    ℕ × String × ℕ × Instant × Instant × Usd × FailureRate × Usd × ℕ :=
  (row.id, row.actionClass, row.repositoryId, row.createdAt, row.expiresAt,
    row.budgetCeilingUsd, row.maxFailureRate, row.maxCostPerActionUsd,
    row.minActionsBeforeAutoRevoke)

/-- How a grant ended, or that it has not. -/
def ending (row : TrustGrantRow) :
    TrustGrantStatus × Option Instant × Option TrustGrantEndReason :=
  (row.status, row.endedAt, row.endReason)

/-- **No wider**: of the same scope, and not larger in any attribute. A preorder, so it
holds along a chain of renewals. -/
structure IsNarrower (old row : TrustGrantRow) : Prop where
  actionClass : row.actionClass = old.actionClass
  repositoryId : row.repositoryId = old.repositoryId
  budgetCeilingUsd : row.budgetCeilingUsd ≤ old.budgetCeilingUsd
  maxFailureRate : row.maxFailureRate ≤ old.maxFailureRate
  maxCostPerActionUsd : row.maxCostPerActionUsd ≤ old.maxCostPerActionUsd
  minActionsBeforeAutoRevoke :
    row.minActionsBeforeAutoRevoke ≤ old.minActionsBeforeAutoRevoke
  length : row.length ≤ old.length

/-- Not larger in any attribute than the default of its time, which is what the first
grant of a chain is bounded by. -/
structure IsWithinDefaults (row : TrustGrantRow) : Prop where
  budgetCeilingUsd : row.budgetCeilingUsd
    ≤ (defaultGrantAttributes row.createdAt).budgetCeilingUsd
  maxFailureRate : row.maxFailureRate
    ≤ (defaultGrantAttributes row.createdAt).maxFailureRate
  maxCostPerActionUsd : row.maxCostPerActionUsd
    ≤ (defaultGrantAttributes row.createdAt).maxCostPerActionUsd
  minActionsBeforeAutoRevoke : row.minActionsBeforeAutoRevoke
    ≤ (defaultGrantAttributes row.createdAt).minActionsBeforeAutoRevoke
  expiresAt : row.expiresAt ≤ (defaultGrantAttributes row.createdAt).expiresAt

theorem IsNarrower.trans {a b c : TrustGrantRow} (hab : a.IsNarrower b)
    (hbc : b.IsNarrower c) : a.IsNarrower c where
  actionClass := hbc.actionClass.trans hab.actionClass
  repositoryId := hbc.repositoryId.trans hab.repositoryId
  budgetCeilingUsd := hbc.budgetCeilingUsd.trans hab.budgetCeilingUsd
  maxFailureRate := hbc.maxFailureRate.trans hab.maxFailureRate
  maxCostPerActionUsd := hbc.maxCostPerActionUsd.trans hab.maxCostPerActionUsd
  minActionsBeforeAutoRevoke :=
    hbc.minActionsBeforeAutoRevoke.trans hab.minActionsBeforeAutoRevoke
  length := hbc.length.trans hab.length

/-- What narrowing compares is in the terms. -/
theorem IsNarrower.congr {a a' b b' : TrustGrantRow} (ha : a'.terms = a.terms)
    (hb : b'.terms = b.terms) (h : a.IsNarrower b) : a'.IsNarrower b' := by
  simp only [terms, Prod.mk.injEq] at ha hb
  obtain ⟨-, haClass, haRepo, haFrom, haTo, haBudget, haRate, haCost, haMin⟩ :=
    ha
  obtain ⟨-, hbClass, hbRepo, hbFrom, hbTo, hbBudget, hbRate, hbCost, hbMin⟩ :=
    hb
  refine ⟨?_, ?_, ?_, ?_, ?_, ?_, ?_⟩
  · rw [haClass, hbClass]
    exact h.actionClass
  · rw [haRepo, hbRepo]
    exact h.repositoryId
  · rw [haBudget, hbBudget]
    exact h.budgetCeilingUsd
  · rw [haRate, hbRate]
    exact h.maxFailureRate
  · rw [haCost, hbCost]
    exact h.maxCostPerActionUsd
  · rw [haMin, hbMin]
    exact h.minActionsBeforeAutoRevoke
  · unfold TrustGrantRow.length
    rw [haFrom, haTo, hbFrom, hbTo]
    exact h.length

theorem IsWithinDefaults.congr {a a' : TrustGrantRow}
    (ha : a'.terms = a.terms) (h : a.IsWithinDefaults) :
    a'.IsWithinDefaults := by
  simp only [terms, Prod.mk.injEq] at ha
  obtain ⟨-, -, -, hfrom, hto, hbudget, hrate, hcost, hmin⟩ := ha
  refine ⟨?_, ?_, ?_, ?_, ?_⟩
  · rw [hbudget, hfrom]
    exact h.budgetCeilingUsd
  · rw [hrate, hfrom]
    exact h.maxFailureRate
  · rw [hcost, hfrom]
    exact h.maxCostPerActionUsd
  · rw [hmin, hfrom]
    exact h.minActionsBeforeAutoRevoke
  · rw [hto, hfrom]
    exact h.expiresAt

section Successor

variable {old : TrustGrantRow} {actorUserId : ℕ} {note : Option String}
  {now createdAt : Instant} {id : ℕ}

/-- **A successor is no wider than the grant it succeeds**, as long as that one
had a length, and the successor was written no earlier than it was decided
on. -/
theorem isNarrower_successor (hlength : 0 < old.length)
    (hnow : now ≤ createdAt) :
    old.IsNarrower (old.successor actorUserId note now createdAt id) where
  actionClass := rfl
  repositoryId := rfl
  budgetCeilingUsd := min_le_left _ _
  maxFailureRate := min_le_left _ _
  maxCostPerActionUsd := min_le_left _ _
  minActionsBeforeAutoRevoke := min_le_left _ _
  length := by
    show now + min _ (if 0 < old.length then old.length else _) - createdAt
      ≤ old.length
    rw [if_pos hlength]
    have hmin := min_le_right
      ((defaultGrantAttributes now).expiresAt - now) old.length
    linarith

theorem isWithinDefaults_successor (hnow : now ≤ createdAt) :
    (old.successor actorUserId note now createdAt id).IsWithinDefaults where
  budgetCeilingUsd := min_le_right _ _
  maxFailureRate := min_le_right _ _
  maxCostPerActionUsd := min_le_right _ _
  minActionsBeforeAutoRevoke := min_le_right _ _
  expiresAt := by
    show now + min (now + defaultGrantDurationMs - now) _
      ≤ createdAt + defaultGrantDurationMs
    have hmin := fun length => min_le_left
      (now + defaultGrantDurationMs - now) length
    refine le_trans (add_le_add_right (hmin _) now) ?_
    linarith

end Successor

end TrustGrantRow

/-! ## What is asked -/

namespace GrantDesk

/-- A grant that a renewal ended, and the one it created. -/
def Renews (desk : GrantDesk) (old new : ℕ) : Prop := (old, new) ∈ desk.renewals

/-- **Trust only narrows**, at every turn: a grant that has ended stays ended and
authorises nothing, a grant is renewed once at most, and a renewal is no wider. -/
structure OnlyNarrows (desk : GrantDesk) (turn : GrantTurn) : Prop where
  /-- A grant that has ended stays as it ended. -/
  ended : ∀ row ∈ desk.grants.rows, row.status ≠ .active →
    ∃ row' ∈ (desk.step turn).grants.rows,
      row'.id = row.id ∧ row'.ending = row.ending
  /-- And never authorises anything. -/
  refused : ∀ row ∈ (desk.step turn).grants.rows, row.status ≠ .active →
    ∀ actionClass repositoryId projectedCostUsd now,
      authorize (desk.step turn).grants.rows actionClass repositoryId
        projectedCostUsd now ≠ .authorized row
  /-- A grant has one successor at most. -/
  successor : Relator.RightUnique (desk.step turn).Renews
  /-- What is reached by renewals is no wider than what they started from, and
  within the defaults. -/
  narrows : ∀ old ∈ (desk.step turn).grants.rows,
    ∀ row ∈ (desk.step turn).grants.rows,
      TransGen (desk.step turn).Renews old.id row.id →
        old.IsNarrower row ∧ row.IsWithinDefaults
  /-- Of a chain one grant authorises at most. -/
  single : ∀ first, ∀ a ∈ (desk.step turn).grants.rows,
    ∀ b ∈ (desk.step turn).grants.rows,
      ReflTransGen (desk.step turn).Renews first a.id →
        ReflTransGen (desk.step turn).Renews first b.id →
          a.status = .active → b.status = .active → a = b

/-! ## What a statement does to the grants -/

section Growing

variable {desk middle after : GrantDesk} {row row' : TrustGrantRow}

/-- No statement changes a grant's terms, or how it ended. What it was charged with
moves, and that it ends. -/
structure Keeps (row row' : TrustGrantRow) : Prop where
  terms : row'.terms = row.terms
  ended : row.status ≠ .active → row'.ending = row.ending

theorem keeps_refl (row : TrustGrantRow) : Keeps row row :=
  ⟨rfl, fun _ => rfl⟩

theorem Keeps.id (h : Keeps row row') : row'.id = row.id :=
  congrArg Prod.fst h.terms

theorem Keeps.createdAt (h : Keeps row row') :
    row'.createdAt = row.createdAt :=
  congrArg (fun terms => terms.2.2.2.1) h.terms

theorem Keeps.notActive (h : Keeps row row') (hended : row.status ≠ .active) :
    row'.status ≠ .active := by
  have hstatus : row'.status = row.status := congrArg Prod.fst (h.ended hended)
  rw [hstatus]
  exact hended

theorem Keeps.trans {row'' : TrustGrantRow} (h : Keeps row row')
    (h' : Keeps row' row'') : Keeps row row'' :=
  ⟨h'.terms.trans h.terms, fun hended =>
    (h'.ended (h.notActive hended)).trans (h.ended hended)⟩

theorem keeps_charge (cost : ℚ) (failed : Bool) :
    Keeps row (row.charge cost failed) := by
  unfold TrustGrantRow.charge
  exact ⟨rfl, fun _ => rfl⟩

/-- A grant ends only once. -/
theorem keeps_finish (status : TrustGrantStatus) (endedAt : Instant)
    (endReason : TrustGrantEndReason) (endDetail : String)
    (revokedById : Option ℕ) :
    Keeps row (row.finish status endedAt endReason endDetail revokedById) := by
  unfold TrustGrantRow.finish
  by_cases hactive : row.status = .active
  · rw [if_pos hactive]
    exact ⟨rfl, fun hended => absurd hactive hended⟩
  · rw [if_neg hactive]
    exact keeps_refl row

/-- How the desk grows from one turn to the next: every grant stays, with its terms, and
a new one is of this moment. -/
structure Grows (desk after : GrantDesk) : Prop where
  clock : desk.clock ≤ after.clock
  kept : ∀ row ∈ desk.grants.rows, ∃ row' ∈ after.grants.rows, Keeps row row'
  origin : ∀ row' ∈ after.grants.rows,
    (∃ row ∈ desk.grants.rows, Keeps row row') ∨ row'.createdAt ≤ after.clock

theorem grows_of_grants (hgrants : after.grants = desk.grants)
    (hclock : desk.clock ≤ after.clock) : Grows desk after := by
  refine ⟨hclock, fun row hrow => ⟨row, ?_, keeps_refl row⟩,
    fun row hrow => Or.inl ⟨row, ?_, keeps_refl row⟩⟩
  · rw [hgrants]
    exact hrow
  · rw [← hgrants]
    exact hrow

theorem grows_insert {mk : ℕ → TrustGrantRow} (hmk : ∀ n, (mk n).id = n)
    (hcreatedAt : ∀ n, (mk n).createdAt = desk.clock) :
    Grows desk { desk with grants := desk.grants.insert mk hmk } := by
  refine ⟨le_rfl, fun row hrow => ⟨row, ?_, keeps_refl row⟩,
    fun row' hrow' => ?_⟩
  · exact (Table.mem_insert hmk).mpr (Or.inl hrow)
  · rcases (Table.mem_insert hmk).mp hrow' with hold | rfl
    · exact Or.inl ⟨row', hold, keeps_refl row'⟩
    · exact Or.inr (hcreatedAt _).le

theorem grows_update {id : ℕ} {f : TrustGrantRow → TrustGrantRow}
    (hf : ∀ row, (f row).id = row.id) (hkeeps : ∀ row, Keeps row (f row)) :
    Grows desk (desk.update id f hf) := by
  have hrow : ∀ row : TrustGrantRow,
      Keeps row (if row.id == id then f row else row) := by
    intro row
    split_ifs
    · exact hkeeps row
    · exact keeps_refl row
  refine ⟨le_rfl, fun row hmem => ⟨_, ?_, hrow row⟩,
    fun row' hmem => Or.inl ?_⟩
  · exact (Table.mem_modify hf).mpr ⟨row, hmem, rfl⟩
  · obtain ⟨row, hold, rfl⟩ := (Table.mem_modify hf).mp hmem
    exact ⟨row, hold, hrow row⟩

theorem Grows.trans (h : Grows desk middle) (h' : Grows middle after) :
    Grows desk after := by
  refine ⟨h.clock.trans h'.clock, fun row hrow => ?_, fun row' hrow' => ?_⟩
  · obtain ⟨between, hbetween, hkeeps⟩ := h.kept row hrow
    obtain ⟨last, hlast, hkeeps'⟩ := h'.kept between hbetween
    exact ⟨last, hlast, hkeeps.trans hkeeps'⟩
  · rcases h'.origin row' hrow' with ⟨between, hbetween, hkeeps⟩ | hnew
    · rcases h.origin between hbetween with ⟨row, hrow, hkeeps'⟩ | hnew
      · exact Or.inl ⟨row, hrow, hkeeps'.trans hkeeps⟩
      · rw [hkeeps.createdAt]
        exact Or.inr (hnew.trans h'.clock)
    · exact Or.inr hnew

/-- A renewal's transaction inserts a grant and ends one. -/
theorem grows_commit (old : TrustGrantRow) (actorUserId : ℕ)
    (note : Option String) (now : Instant) :
    Grows desk (desk.commit old actorUserId note now) := by
  let created := old.successor actorUserId note now desk.clock
  let inserted : GrantDesk :=
    { desk with grants := desk.grants.insert created fun _ => rfl }
  have hinserted : Grows desk inserted :=
    grows_insert (fun _ => rfl) fun _ => rfl
  have hended : Grows inserted (inserted.update old.id
      (old.supersede (created desk.grants.next) actorUserId now)
        fun _ => TrustGrantRow.id_finish _ _ _ _ _) :=
    grows_update _ fun _ => keeps_finish _ _ _ _ _
  have hgrows := hinserted.trans hended
  exact ⟨hgrows.clock, hgrows.kept, hgrows.origin⟩

/-- **A statement only lets the desk grow.** -/
theorem grows_execute (call : GrantCall) :
    Grows desk (desk.execute call).1 := by
  cases call with
  | inserting input => exact grows_insert (fun _ => rfl) fun _ => rfl
  | reading grantId actorUserId note now =>
    dsimp only [execute]
    cases desk.grants.find grantId with
    | none => exact grows_of_grants rfl le_rfl
    | some old =>
      dsimp only
      split_ifs
      · exact grows_of_grants rfl le_rfl
      · exact grows_of_grants rfl le_rfl
  | committing old actorUserId note now =>
    dsimp only [execute]
    split_ifs
    · exact grows_commit old actorUserId note now
    · exact grows_of_grants rfl le_rfl
  | charging grantId usage now =>
    dsimp only [execute]
    split
    · exact grows_update _ fun _ => keeps_charge _ _
    · exact grows_of_grants rfl le_rfl
  | suspending grantId reason detail now =>
    exact grows_update _ fun _ => keeps_finish _ _ _ _ _
  | revoking grantId actorUserId note now =>
    exact grows_update _ fun _ => keeps_finish _ _ _ _ _
  | selectingLapsed now => exact grows_of_grants rfl le_rfl
  | expiring lapsed now =>
    cases lapsed with
    | nil => exact grows_of_grants rfl le_rfl
    | cons lapsed left =>
      exact grows_update _ fun _ => keeps_finish _ _ _ _ _
  | done => exact grows_of_grants rfl le_rfl

/-- **A turn only lets the desk grow.** -/
theorem grows_step (turn : GrantTurn) : Grows desk (desk.step turn) := by
  cases turn with
  | tick ms =>
    exact grows_of_grants rfl (le_add_of_nonneg_right (Nat.cast_nonneg ms))
  | resume id error =>
    dsimp only [step]
    cases desk.calls[id]? with
    | none => exact grows_of_grants rfl le_rfl
    | some call =>
      cases error with
      | some error => exact grows_of_grants rfl le_rfl
      | none =>
        have hgrows := @grows_execute desk call
        exact ⟨hgrows.clock, hgrows.kept, hgrows.origin⟩
  | _ => exact grows_of_grants rfl le_rfl

end Growing

/-! ## The invariant -/

/-- What a call has read is still so. -/
def Informed (desk : GrantDesk) : GrantCall → Prop
  | .reading grantId _ _ now =>
    now ≤ desk.clock
      ∧ ∃ row ∈ desk.grants.rows, row.id = grantId ∧ row.createdAt ≤ now
  | .committing old _ _ now =>
    now ≤ desk.clock ∧ old.createdAt ≤ now ∧ now < old.expiresAt
      ∧ ∃ row ∈ desk.grants.rows, row.terms = old.terms
  | _ => True

/-- Every renewal ended the old grant and created a narrower one, no grant was
renewed twice, and the calls are informed. -/
structure Sound (desk : GrantDesk) : Prop where
  clock : ∀ row ∈ desk.grants.rows, row.createdAt ≤ desk.clock
  renewed : ∀ a b, desk.Renews a b → ∃ old ∈ desk.grants.rows,
    ∃ row ∈ desk.grants.rows, old.id = a ∧ row.id = b ∧ old.status ≠ .active
      ∧ old.IsNarrower row ∧ row.IsWithinDefaults
  successor : Relator.RightUnique desk.Renews
  informed : ∀ call ∈ desk.calls, desk.Informed call

section Invariant

variable {desk after : GrantDesk} {row : TrustGrantRow}

/-- What a call was informed of it still is. -/
theorem Grows.informed (h : Grows desk after) {call : GrantCall}
    (hinformed : desk.Informed call) : after.Informed call := by
  cases call with
  | reading grantId actorUserId note now =>
    obtain ⟨hnow, row, hrow, hid, hcreated⟩ := hinformed
    obtain ⟨row', hrow', hkeeps⟩ := h.kept row hrow
    exact ⟨hnow.trans h.clock, row', hrow', hkeeps.id.trans hid,
      hkeeps.createdAt.le.trans hcreated⟩
  | committing old actorUserId note now =>
    obtain ⟨hnow, hcreated, hlapses, row, hrow, hterms⟩ := hinformed
    obtain ⟨row', hrow', hkeeps⟩ := h.kept row hrow
    exact ⟨hnow.trans h.clock, hcreated, hlapses, row', hrow',
      hkeeps.terms.trans hterms⟩
  | _ => trivial

theorem Grows.createdAt (h : Grows desk after)
    (hclock : ∀ row ∈ desk.grants.rows, row.createdAt ≤ desk.clock) :
    ∀ row ∈ after.grants.rows, row.createdAt ≤ after.clock := by
  intro row' hrow'
  rcases h.origin row' hrow' with ⟨row, hrow, hkeeps⟩ | hnew
  · exact hkeeps.createdAt.le.trans ((hclock row hrow).trans h.clock)
  · exact hnew

/-- A renewal stays one. -/
theorem Grows.renewed (h : Grows desk after) {a b : ℕ}
    (hrenewed : ∃ old ∈ desk.grants.rows, ∃ row ∈ desk.grants.rows,
      old.id = a ∧ row.id = b ∧ old.status ≠ .active
        ∧ old.IsNarrower row ∧ row.IsWithinDefaults) :
    ∃ old ∈ after.grants.rows, ∃ row ∈ after.grants.rows,
      old.id = a ∧ row.id = b ∧ old.status ≠ .active
        ∧ old.IsNarrower row ∧ row.IsWithinDefaults := by
  obtain ⟨old, hold, row, hrow, ha, hb, hended, hnarrower, hdefaults⟩ :=
    hrenewed
  obtain ⟨old', hold', hkeepsOld⟩ := h.kept old hold
  obtain ⟨row', hrow', hkeepsRow⟩ := h.kept row hrow
  exact ⟨old', hold', row', hrow', hkeepsOld.id.trans ha,
    hkeepsRow.id.trans hb, hkeepsOld.notActive hended,
    hnarrower.congr hkeepsOld.terms hkeepsRow.terms,
    hdefaults.congr hkeepsRow.terms⟩

/-- The invariant is kept by what renews nothing. -/
theorem Grows.sound (h : Grows desk after) (hsound : desk.Sound)
    (hrenewals : after.renewals = desk.renewals)
    (hinformed : ∀ call ∈ after.calls, after.Informed call) : after.Sound := by
  have hrenews : after.Renews = desk.Renews := by
    funext a b
    unfold Renews
    rw [hrenewals]
  refine ⟨h.createdAt hsound.clock, fun a b hab => ?_, ?_, hinformed⟩
  · rw [hrenews] at hab
    exact h.renewed (hsound.renewed a b hab)
  · rw [hrenews]
    exact hsound.successor

/-- What the transaction of a renewal leaves of the grant it is about. -/
theorem mem_commit {old : TrustGrantRow} {actorUserId : ℕ}
    {note : Option String} {now : Instant} (hrow : row ∈ desk.grants.rows)
    (hid : row.id = old.id) :
    old.supersede (old.successor actorUserId note now desk.clock
        desk.grants.next) actorUserId now row
      ∈ (desk.commit old actorUserId note now).grants.rows := by
  refine (Table.mem_modify fun _ => TrustGrantRow.id_finish _ _ _ _ _).mpr
    ⟨row, (Table.mem_insert fun _ => rfl).mpr (Or.inl hrow), ?_⟩
  rw [if_pos (beq_iff_eq.mpr hid)]

/-- And the successor it creates. -/
theorem mem_commit_successor {old : TrustGrantRow} {actorUserId : ℕ}
    {note : Option String} {now : Instant} (hid : old.id < desk.grants.next) :
    old.successor actorUserId note now desk.clock desk.grants.next
      ∈ (desk.commit old actorUserId note now).grants.rows := by
  refine (Table.mem_modify fun _ => TrustGrantRow.id_finish _ _ _ _ _).mpr
    ⟨_, (Table.mem_insert fun _ => rfl).mpr (Or.inr rfl), ?_⟩
  rw [if_neg]
  rw [beq_iff_eq]
  exact hid.ne'

/-- **A renewal keeps the invariant**: it renews a grant that is active, so one
that was not renewed yet. -/
theorem sound_commit (h : desk.Sound) {old : TrustGrantRow} {actorUserId : ℕ}
    {note : Option String} {now : Instant}
    (hinformed : desk.Informed (.committing old actorUserId note now))
    (hactive : (desk.grants.find old.id).any (·.status == .active)) :
    (desk.commit old actorUserId note now).Sound := by
  obtain ⟨hnow, hcreated, hlapses, row, hrow, hterms⟩ := hinformed
  have hid : row.id = old.id := congrArg Prod.fst hterms
  have hrowActive : row.status = .active := by
    rw [Table.find_eq_some.mpr ⟨hrow, hid⟩, Option.any_some,
      beq_iff_eq] at hactive
    exact hactive
  have hgrows := @grows_commit desk old actorUserId note now
  have hknown : old.id < desk.grants.next :=
    hid ▸ desk.grants.bounded row hrow
  -- nothing has taken the place of an active grant
  have hfirst : ∀ b, ¬desk.Renews old.id b := by
    intro b hb
    obtain ⟨ended, hended, -, -, hendedId, -, hnotActive, -⟩ :=
      h.renewed old.id b hb
    have hsame : ended = row :=
      Table.eq_of_key hended hrow (hendedId.trans hid.symm)
    exact hnotActive (hsame ▸ hrowActive)
  refine ⟨hgrows.createdAt h.clock, fun a b hab => ?_,
    fun a b c hab hac => ?_, fun call hcall => ?_⟩
  · rcases List.mem_cons.mp hab with hnew | hold
    · cases hnew
      have hlength : 0 < old.length := sub_pos.mpr (hcreated.trans_lt hlapses)
      have hsuperseded : (old.supersede (old.successor actorUserId note now
          desk.clock desk.grants.next) actorUserId now row).status
            = .revoked := by
        unfold TrustGrantRow.supersede TrustGrantRow.finish
        rw [if_pos hrowActive]
      have hkeeps : Keeps row (old.supersede (old.successor actorUserId note
          now desk.clock desk.grants.next) actorUserId now row) :=
        keeps_finish _ _ _ _ _
      refine ⟨_, mem_commit hrow hid, _, mem_commit_successor hknown,
        hkeeps.id.trans hid, rfl, ?_, ?_,
        TrustGrantRow.isWithinDefaults_successor hnow⟩
      · rw [hsuperseded]
        exact nofun
      · exact (TrustGrantRow.isNarrower_successor hlength hnow).congr
          (hkeeps.terms.trans hterms) rfl
    · exact hgrows.renewed (h.renewed a b hold)
  · rcases List.mem_cons.mp hab with hab | hab
    · rcases List.mem_cons.mp hac with hac | hac
      · exact (congrArg Prod.snd hab).trans (congrArg Prod.snd hac).symm
      · have ha : a = old.id := congrArg Prod.fst hab
        exact absurd (ha ▸ hac) (hfirst c)
    · rcases List.mem_cons.mp hac with hac | hac
      · have ha : a = old.id := congrArg Prod.fst hac
        exact absurd (ha ▸ hab) (hfirst b)
      · exact h.successor hab hac
  · exact hgrows.informed (h.informed call hcall)

/-- What can be renewed is active and has not lapsed. -/
theorem of_notRenewable_eq_none {old : TrustGrantRow} {now : Instant}
    (h : old.notRenewable now = none) :
    old.status = .active ∧ now < old.expiresAt := by
  unfold TrustGrantRow.notRenewable at h
  split_ifs at h with hclass hlapsed
  cases hstatus : old.status with
  | active =>
    exact ⟨rfl, not_le.mp fun hle => hlapsed ⟨hstatus, hle⟩⟩
  | expired =>
    rw [hstatus] at h
    cases h
  | revoked =>
    rw [hstatus] at h
    cases h
  | suspended =>
    rw [hstatus] at h
    cases h

/-- What a call does next it is informed of. -/
theorem informed_execute {call : GrantCall} (h : desk.Informed call) :
    desk.Informed (desk.execute call).2 := by
  cases call with
  | reading grantId actorUserId note now =>
    obtain ⟨hnow, row, hrow, hid, hcreated⟩ := h
    dsimp only [execute]
    cases hfind : desk.grants.find grantId with
    | none => trivial
    | some old =>
      dsimp only
      by_cases hrefused : (old.notRenewable now).isSome
      · rw [if_pos hrefused]
        trivial
      · rw [if_neg hrefused]
        obtain ⟨hmem, hkey⟩ := Table.find_eq_some.mp hfind
        have hsame : old = row := Table.eq_of_key hmem hrow (hkey.trans hid.symm)
        have hrenewable := of_notRenewable_eq_none
          (Option.not_isSome_iff_eq_none.mp hrefused)
        exact ⟨hnow, hsame ▸ hcreated, hrenewable.2, old, hmem, rfl⟩
  | committing old actorUserId note now =>
    dsimp only [execute]
    split_ifs
    · trivial
    · trivial
  | charging grantId usage now =>
    dsimp only [execute]
    split
    · dsimp only [judge]
      split
      · trivial
      · trivial
    · trivial
  | expiring lapsed now =>
    cases lapsed with
    | nil => trivial
    | cons lapsed left => trivial
  | _ => trivial

/-- A call that starts is informed of the grant it names. -/
theorem informed_start (hclock : ∀ row ∈ desk.grants.rows,
      row.createdAt ≤ desk.clock) {turn : GrantTurn} {call : GrantCall}
    (hcall : desk.start turn = some call) : desk.Informed call := by
  cases turn with
  | renew grantId actorUserId note =>
    dsimp only [start] at hcall
    split_ifs at hcall with hfind
    cases hcall
    obtain ⟨row, hrow⟩ := Option.isSome_iff_exists.mp hfind
    obtain ⟨hmem, hid⟩ := Table.find_eq_some.mp hrow
    exact ⟨le_rfl, row, hmem, hid, hclock row hmem⟩
  | create input repositoryExists =>
    dsimp only [start] at hcall
    split_ifs at hcall
    cases hcall
    trivial
  | tick ms => cases hcall
  | resume id error => cases hcall
  | _ =>
    cases hcall
    trivial

/-- **A statement keeps the invariant.** -/
theorem sound_execute (h : desk.Sound) {call : GrantCall}
    (hcall : desk.Informed call) : (desk.execute call).1.Sound := by
  have hgrows := @grows_execute desk call
  have hkept : (desk.execute call).1.renewals = desk.renewals →
      (desk.execute call).1.calls = desk.calls →
        (desk.execute call).1.Sound := by
    intro hrenewals hcalls
    refine hgrows.sound h hrenewals fun other hother => ?_
    rw [hcalls] at hother
    exact hgrows.informed (h.informed other hother)
  cases call with
  | committing old actorUserId note now =>
    dsimp only [execute]
    by_cases hactive : (desk.grants.find old.id).any (·.status == .active)
    · rw [if_pos hactive]
      exact sound_commit h hcall hactive
    · rw [if_neg hactive]
      exact h
  | reading grantId actorUserId note now =>
    refine hkept ?_ ?_
    · dsimp only [execute]
      repeat' split
      all_goals rfl
    · dsimp only [execute]
      repeat' split
      all_goals rfl
  | charging grantId usage now =>
    refine hkept ?_ ?_
    · dsimp only [execute]
      split
      · rfl
      · rfl
    · dsimp only [execute]
      split
      · rfl
      · rfl
  | expiring lapsed now =>
    cases lapsed with
    | nil => exact hkept rfl rfl
    | cons lapsed left => exact hkept rfl rfl
  | _ => exact hkept rfl rfl

/-- **Every turn keeps the invariant.** -/
theorem sound_step (h : desk.Sound) (turn : GrantTurn) :
    (desk.step turn).Sound := by
  have hgrows := @grows_step desk turn
  cases turn with
  | tick ms =>
    exact hgrows.sound h rfl fun call hcall =>
      hgrows.informed (h.informed call hcall)
  | resume id error =>
    cases hcall : desk.calls[id]? with
    | none =>
      have hstep : desk.step (.resume id error) = desk := by
        dsimp only [step]
        rw [hcall]
      rw [hstep]
      exact h
    | some call =>
      have hinformed := h.informed call (List.mem_of_getElem? hcall)
      cases error with
      | some error =>
        have hstep : desk.step (.resume id (some error))
            = { desk with calls := desk.calls.set id .done } := by
          dsimp only [step]
          rw [hcall]
        rw [hstep] at hgrows ⊢
        refine hgrows.sound h rfl fun next hnext => ?_
        rcases List.mem_or_eq_of_mem_set hnext with hold | rfl
        · exact hgrows.informed (h.informed next hold)
        · trivial
      | none =>
        have hstep : desk.step (.resume id none)
            = { (desk.execute call).1 with
                calls := desk.calls.set id (desk.execute call).2 } := by
          dsimp only [step]
          rw [hcall]
        have hexecuted := sound_execute h hinformed
        rw [hstep] at hgrows ⊢
        refine ⟨hexecuted.clock, hexecuted.renewed, hexecuted.successor,
          fun next hnext => ?_⟩
        rcases List.mem_or_eq_of_mem_set hnext with hold | rfl
        · exact hgrows.informed (h.informed next hold)
        · exact hgrows.informed (informed_execute hinformed)
  | _ =>
    refine hgrows.sound h rfl fun call hcall => hgrows.informed ?_
    rcases List.mem_append.mp hcall with hold | hnew
    · exact h.informed call hold
    · exact informed_start h.clock (Option.mem_toList.mp hnew)

end Invariant

/-! ## Chains -/

section Chains

variable {desk : GrantDesk}

/-- What is reached by renewals is no wider than what they started from. -/
theorem Sound.narrows (h : desk.Sound) {a b : ℕ}
    (hchain : TransGen desk.Renews a b) :
    ∃ old ∈ desk.grants.rows, ∃ row ∈ desk.grants.rows,
      old.id = a ∧ row.id = b ∧ old.IsNarrower row ∧ row.IsWithinDefaults := by
  induction hchain with
  | single hab =>
    obtain ⟨old, hold, row, hrow, ha, hb, -, hnarrower⟩ := h.renewed _ _ hab
    exact ⟨old, hold, row, hrow, ha, hb, hnarrower⟩
  | tail _ hbc ih =>
    obtain ⟨old, hold, between, hbetween, ha, hb, hnarrower, -⟩ := ih
    obtain ⟨between', hbetween', row, hrow, hb', hc, -, hnarrower', hdefaults⟩ :=
      h.renewed _ _ hbc
    have hsame : between' = between :=
      Table.eq_of_key hbetween' hbetween (hb'.trans hb.symm)
    rw [hsame] at hnarrower'
    exact ⟨old, hold, row, hrow, ha, hc, hnarrower.trans hnarrower', hdefaults⟩

/-- What was renewed is not active. -/
theorem Sound.id_eq_of_active (h : desk.Sound) {row : TrustGrantRow} {b : ℕ}
    (hrow : row ∈ desk.grants.rows) (hactive : row.status = .active)
    (hchain : ReflTransGen desk.Renews row.id b) : row.id = b := by
  rcases hchain.cases_head with heq | ⟨next, hnext, -⟩
  · exact heq
  · obtain ⟨old, hold, -, -, hid, -, hended, -⟩ := h.renewed _ _ hnext
    have hsame : old = row := Table.eq_of_key hold hrow hid
    exact absurd (hsame ▸ hactive) hended

/-- Of a chain at most one is active. -/
theorem Sound.single (h : desk.Sound) {first : ℕ} {a b : TrustGrantRow}
    (ha : a ∈ desk.grants.rows) (hb : b ∈ desk.grants.rows)
    (hfirstA : ReflTransGen desk.Renews first a.id)
    (hfirstB : ReflTransGen desk.Renews first b.id)
    (hactiveA : a.status = .active) (hactiveB : b.status = .active) :
    a = b := by
  refine Table.eq_of_key ha hb ?_
  rcases ReflTransGen.total_of_right_unique h.successor hfirstA hfirstB with
    hab | hba
  · exact h.id_eq_of_active ha hactiveA hab
  · exact (h.id_eq_of_active hb hactiveB hba).symm

/-- Of a sound desk every turn only narrows. -/
theorem onlyNarrows_of_sound (h : desk.Sound) (turn : GrantTurn) :
    OnlyNarrows desk turn where
  ended row hrow hended := by
    obtain ⟨row', hrow', hkeeps⟩ := (grows_step turn).kept row hrow
    exact ⟨row', hrow', hkeeps.id, hkeeps.ended hended⟩
  refused row _ hended actionClass repositoryId projectedCostUsd now
      hauthorized := by
    have hcandidate := (of_authorize_eq_authorized hauthorized).2.2.1
    unfold TrustGrantRow.isCandidate at hcandidate
    simp only [Bool.and_eq_true, beq_iff_eq] at hcandidate
    exact hended hcandidate.1.2
  successor := (sound_step h turn).successor
  narrows old hold row hrow hchain := by
    obtain ⟨old', hold', row', hrow', hid, hid', hnarrows⟩ :=
      (sound_step h turn).narrows hchain
    have hsame : old' = old := Table.eq_of_key hold' hold hid
    have hsame' : row' = row := Table.eq_of_key hrow' hrow hid'
    rw [hsame, hsame'] at hnarrows
    exact hnarrows
  single _ _ ha _ hb hfirstA hfirstB hactiveA hactiveB :=
    (sound_step h turn).single ha hb hfirstA hfirstB hactiveA hactiveB

end Chains

/-- **Trust only narrows, and an ended grant stays ended**, whatever is done to
grants and in whatever order. -/
theorem trust_only_narrows (clock : Instant) (turns : List GrantTurn) :
    Machine.Always step OnlyNarrows { clock := clock } turns := by
  have hsound : ({ clock := clock } : GrantDesk).Sound :=
    ⟨fun _ h => (nomatch h), fun _ _ h => (nomatch h),
      fun _ _ _ h => (nomatch h), fun _ h => (nomatch h)⟩
  exact @Machine.always_of_preserved _ _ step Sound OnlyNarrows
    (fun _ turn h => sound_step h turn)
    (fun _ turn h => onlyNarrows_of_sound h turn) _ hsound turns

end GrantDesk

end Opifex
