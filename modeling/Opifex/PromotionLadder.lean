import Mathlib.Data.List.Dedup
import Mathlib.Logic.Function.Basic
import Opifex.Lib.Machine
import Opifex.Lib.Preference
import Opifex.PromotionPolicy

/-!
# The promotion ladder

The rung of every class, as an evaluation of the ladder and a demotion by hand
write it. An evaluation reads all rows once and settles one class after the
other; as the classes are distinct, it settles each by its own row and its own
evidence (`evaluate_apply`), and what holds of the ladder is proved of one row.

A class that is settled is settled: the rung it is put on is one that the same
evidence leaves it on. While a hand-demotion holds, no evaluation promotes, and
the hold of a row only moves forward.
-/

namespace Opifex

open Preference (rank)

/-! ## Rows -/

/-- The row of a class: its rung, the last change, and what holds it there. A class
without a row is on the first rung. -/
structure PromotionState where
  rung : PromotionRung
  changedAt : Instant
  changeReason : Option PromotionChangeReason
  changeDetail : Option String
  changedById : Option ℕ
  evidence : Option ClassEvidence
  manualHoldUntil : Option Instant
  promotedAt : Option Instant
  demotedAt : Option Instant
  demotionCount : ℕ
deriving DecidableEq

/-- The rows, by their action class. -/
abbrev PromotionTable := String → Option PromotionState

/-- The rung a class stands on; one without a row is on the first. -/
def rungOf (row : Option PromotionState) : PromotionRung :=
  (row.map (·.rung)).getD .observe

/-- How often a class has been demoted. One without a row never was. -/
def demotionCountOf (row : Option PromotionState) : ℕ :=
  (row.map (·.demotionCount)).getD 0

/-- **`activeHold`**: the hold of a row, if it is strictly in the future. -/
def activeHold (row : Option PromotionState) (now : Instant) :
    Option ManualHold :=
  match row.bind (·.manualHoldUntil) with
  | none => none
  | some heldUntil =>
    if heldUntil ≤ now then none
    else some ⟨heldUntil, row.bind (·.changedById)⟩

/-! ## The evidence of a tick -/

/-- What the decision log says of a class: how many of its proposals a human would have
let through. -/
structure ProposalRates where
  actionClass : String
  wouldApprove : ℕ
  wouldReject : ℕ
deriving DecidableEq

/-- What the approval requests say of a class: how many were approved, and how many
denied, by a human. -/
structure ApprovalRates where
  actionClass : String
  approved : ℕ
  denied : ℕ
deriving DecidableEq

/-- The evidence of a tick: one record a class. That no class has two is part of the
value. -/
structure GatheredEvidence where
  items : List ClassEvidence
  nodup : (items.map (·.actionClass)).Nodup

/-- A count of the rows of one class, summed. -/
def countsOf {α : Type} (rows : List α) (classOf : α → String) (count : α → ℕ)
    (actionClass : String) : ℕ :=
  ((rows.filter (classOf · == actionClass)).map count).sum

/-- **`gatherEvidence`**: both sources, summed, for every registered class and
every other one in the history, in the order of the host's collation. -/
def gatherEvidence (localeCompare : String → String → Ordering)
    (lifetimeProposals recentProposals : List ProposalRates)
    (lifetimeApprovals recentApprovals : List ApprovalRates) :
    GatheredEvidence :=
  let classes :=
    (actionClasses.map (·.id.name) ++ lifetimeProposals.map (·.actionClass)
      ++ lifetimeApprovals.map (·.actionClass)
      ++ recentProposals.map (·.actionClass)
      ++ recentApprovals.map (·.actionClass)).dedup
  let record (actionClass : String) : ClassEvidence :=
    let wouldApprove :=
      countsOf lifetimeProposals (·.actionClass) (·.wouldApprove) actionClass
    let wouldReject :=
      countsOf lifetimeProposals (·.actionClass) (·.wouldReject) actionClass
    let approved :=
      countsOf lifetimeApprovals (·.actionClass) (·.approved) actionClass
    let denied := countsOf lifetimeApprovals (·.actionClass) (·.denied) actionClass
    let recentApproved :=
      countsOf recentProposals (·.actionClass) (·.wouldApprove) actionClass
        + countsOf recentApprovals (·.actionClass) (·.approved) actionClass
    let recentRejected :=
      countsOf recentProposals (·.actionClass) (·.wouldReject) actionClass
        + countsOf recentApprovals (·.actionClass) (·.denied) actionClass
    { actionClass := actionClass
      approved := wouldApprove + approved
      rejected := wouldReject + denied
      sample := wouldApprove + approved + (wouldReject + denied)
      rate := rateOf (wouldApprove + approved) (wouldReject + denied)
      recentApproved := recentApproved
      recentRejected := recentRejected
      recentSample := recentApproved + recentRejected
      recentRate := rateOf recentApproved recentRejected
      fromProposals := wouldApprove + wouldReject
      fromApprovals := approved + denied }
  { items :=
      rank (fun a b => localeCompare a.actionClass b.actionClass)
        (classes.map record)
    nodup := by
      have hperm := (@Preference.rank_perm_self _ (fun a b : ClassEvidence =>
        localeCompare a.actionClass b.actionClass) (classes.map record)).map
          (·.actionClass)
      rw [hperm.nodup_iff, List.map_map]
      show (classes.map id).Nodup
      rw [List.map_id]
      exact List.nodup_dedup _ }

/-! ## Writing a row -/

/-- What an evaluation or a human makes of a class: the rung it is on from now on, and
why. -/
structure LadderChange where
  rung : PromotionRung
  reason : Option PromotionChangeReason
  detail : String
deriving DecidableEq

/-- **`persist`**: the row that is written over `row`, where `existing` was
read. The hold is only ever set, and a demotion is counted. -/
def persistRow (row existing : Option PromotionState) (evidence : ClassEvidence)
    (change : LadderChange) (now : Instant) (human : Option (ℕ × Instant)) :
    PromotionState :=
  let demoting := change.reason.any (·.isDemotion)
  let promoting := change.reason = some .promotedOnEvidence
  { rung := change.rung
    changedAt := now
    changeReason := change.reason
    changeDetail := some change.detail
    changedById := human.map Prod.fst
    evidence := some evidence
    manualHoldUntil := (human.map Prod.snd).or (row.bind (·.manualHoldUntil))
    promotedAt := if promoting then some now else row.bind (·.promotedAt)
    demotedAt := if demoting then some now else row.bind (·.demotedAt)
    demotionCount :=
      match row with
      | none => if demoting then 1 else 0
      | some row =>
        if demoting then demotionCountOf existing + 1
        else row.demotionCount }

/-- What an evaluation makes of a class, if anything. -/
def settle (existing : Option PromotionState) (paused : Bool) (now : Instant)
    (item : ClassEvidence) : Option LadderChange :=
  let current := rungOf existing
  match evaluateLadder current item (isAutonomyEligible item.actionClass)
      paused (activeHold existing now) with
  | .promote reason =>
    some ⟨rungFor true item, some .promotedOnEvidence, reason⟩
  | .demote reason detail => some ⟨rungFor false item, some reason, detail⟩
  | .hold detail =>
    let target := rungFor (current = .promoted) item
    -- the first judgement of a class moves it, and decides nothing
    if target = current then none else some ⟨target, none, detail⟩

/-- **`evaluate`**: every class is settled by the row that was read. -/
def evaluate (states : PromotionTable) (evidence : List ClassEvidence)
    (paused : Bool) (now : Instant) : PromotionTable :=
  evidence.foldl (fun after item =>
    match settle (states item.actionClass) paused now item with
    | none => after
    | some change =>
      Function.update after item.actionClass
        (some (persistRow (after item.actionClass) (states item.actionClass)
          item change now none))) states

/-- How long a demotion by hand holds. -/
def manualHoldMs : ℤ := manualHoldDays * Instant.dayMs

/-- What a hand-demotion says of itself. -/
def manualDemotionDetail (evidence : ClassEvidence) (actorUserId : ℕ)
    (note : Option String) (now : Instant) : String :=
  "Demoted by hand at " ++ Instant.toISOString now ++ " by user " ++
    toString actorUserId ++ ", not by the ladder. The record was " ++
    toString evidence.approved ++ "/" ++ toString evidence.sample ++
    " approved lifetime (" ++ pct evidence.rate ++ "), " ++
    toString evidence.recentApproved ++ "/" ++
    toString evidence.recentSample ++ " in the last " ++
    toString regressionWindowDays ++ " days (" ++ pct evidence.recentRate ++
    ") — which is to say the ladder itself had not concluded anything was " ++
    "wrong." ++ ((note.filter (· ≠ "")).map (" Reason given: " ++ ·)).getD
      " No reason was given." ++
    " The ladder may not promote this class back until " ++
    Instant.toISOString (now + manualHoldMs) ++ " (" ++
    toString manualHoldDays ++ " days, the regression window), after which " ++
    "it is judged on the numbers again; demoting it again places a fresh hold."

/-- What the record says of a class. -/
def GatheredEvidence.of (evidence : GatheredEvidence) (actionClass : String) :
    ClassEvidence :=
  (evidence.items.find? (·.actionClass == actionClass)).getD
    (emptyEvidence actionClass)

/-- **`demoteManually`**: a promoted class is taken off the rung and held. -/
def demoteManually (states : PromotionTable) (actionClass : String)
    (actorUserId : ℕ) (note : Option String) (evidence : GatheredEvidence)
    (now : Instant) : PromotionTable :=
  if rungOf (states actionClass) = .promoted then
    let item := evidence.of actionClass
    Function.update states actionClass
      (some (persistRow (states actionClass) (states actionClass) item
        ⟨rungFor false item, some .demotedManually,
          manualDemotionDetail item actorUserId note now⟩
        now (some (actorUserId, now + manualHoldMs))))
  else states

/-! ## One row -/

section Rows

variable {row existing : Option PromotionState} {item : ClassEvidence}
  {change : LadderChange} {paused : Bool} {now later : Instant}
  {human : Option (ℕ × Instant)}

@[simp] theorem rungOf_persistRow :
    rungOf (some (persistRow row existing item change now human))
      = change.rung := rfl

/-- A hold that is not placed anew is the one that was there. -/
@[simp] theorem manualHoldUntil_persistRow :
    (persistRow row existing item change now none).manualHoldUntil
      = row.bind (·.manualHoldUntil) := rfl

theorem demotionCountOf_persistRow :
    demotionCountOf (some (persistRow row row item change now human))
      = demotionCountOf row
        + if change.reason.any (·.isDemotion) then 1 else 0 := by
  by_cases hdemoting : change.reason.any (·.isDemotion)
  all_goals cases row <;> simp [demotionCountOf, persistRow, hdemoting]

/-- Whether a hold stands is read off the hold of the row alone. -/
theorem isSome_activeHold :
    (activeHold row now).isSome
      = (row.bind (·.manualHoldUntil)).any (now < ·) := by
  unfold activeHold
  cases row.bind (·.manualHoldUntil) with
  | none => rfl
  | some heldUntil =>
    show (if heldUntil ≤ now then none else some _).isSome
      = decide (now < heldUntil)
    by_cases hlapsed : heldUntil ≤ now
    · rw [if_pos hlapsed, decide_eq_false (not_lt.mpr hlapsed)]
      rfl
    · rw [if_neg hlapsed, decide_eq_true (not_le.mp hlapsed)]
      rfl

/-- No rule moves a class from this rung. It is what the rule that moved it there has to
leave. -/
structure Steady (current : PromotionRung) (item : ClassEvidence)
    (paused held : Bool) : Prop where
  stays : current = .promoted →
    isAutonomyEligible item.actionClass ∧ (paused ∨ ¬item.isRegressing)
  waits : current ≠ .promoted → ¬isAutonomyEligible item.actionClass ∨ paused
    ∨ held ∨ ¬item.clearsBar ∨ item.isRegressing
  /-- And it is the rung of a class that was judged as often. -/
  judged : rungFor (current = .promoted) item = current

/-- **What settling a class does**, by the rule that matched, one constructor for each.
After it, the class is where the same evidence would leave it. -/
inductive Settlement (row : Option PromotionState) (item : ClassEvidence)
    (paused : Bool) (now : Instant) : Option LadderChange → Prop where
  | promotes (detail : String) (heligible : isAutonomyEligible item.actionClass)
    (hfree : activeHold row now = none) (hcurrent : rungOf row ≠ .promoted)
    (hsteady : Steady .promoted item paused false) :
    Settlement row item paused now
      (some ⟨.promoted, some .promotedOnEvidence, detail⟩)
  | demotes (reason : PromotionChangeReason) (detail : String)
    (hreason : reason.isDemotion) (hcurrent : rungOf row = .promoted)
    (hsteady : Steady (rungFor false item) item paused
      (activeHold row now).isSome) :
    Settlement row item paused now
      (some ⟨rungFor false item, some reason, detail⟩)
  | moves (detail : String) (hcurrent : rungOf row ≠ .promoted)
    (hsteady : Steady (rungFor false item) item paused
      (activeHold row now).isSome) :
    Settlement row item paused now (some ⟨rungFor false item, none, detail⟩)
  | stays (hsteady : Steady (rungOf row) item paused
      (activeHold row now).isSome) :
    Settlement row item paused now none

theorem rungFor_false_ne_promoted : rungFor false item ≠ .promoted := by
  unfold rungFor
  rw [if_neg Bool.false_ne_true]
  split <;> nofun

/-- A rung that was found by counting is the one that counting finds. -/
theorem rungFor_rungFor_false :
    rungFor (rungFor false item = .promoted) item = rungFor false item := by
  rw [decide_eq_false rungFor_false_ne_promoted]

theorem settlement_settle : Settlement row item paused now
    (settle row paused now item) := by
  have hrule := @ladderRule_evaluateLadder (rungOf row) item
    (isAutonomyEligible item.actionClass) paused (activeHold row now)
  unfold settle
  dsimp only
  cases hverdict : evaluateLadder (rungOf row) item
      (isAutonomyEligible item.actionClass) paused (activeHold row now) with
  | promote detail =>
    rw [hverdict] at hrule
    cases hrule with
    | promotes _ heligible hpaused hhold hcurrent hclears hfine =>
      exact .promotes detail heligible hhold hcurrent
        { stays := fun _ => ⟨heligible, Or.inr hfine⟩
          waits := fun h => absurd rfl h
          judged := rfl }
  | demote reason detail =>
    rw [hverdict] at hrule
    cases hrule with
    | demotes _ _ hreason hcurrent hwhy =>
      refine .demotes reason detail hreason hcurrent
        { stays := fun h => absurd h rungFor_false_ne_promoted
          waits := fun _ => ?_
          judged := rungFor_rungFor_false }
      rcases hwhy with hineligible | ⟨-, hregresses⟩
      · exact Or.inl hineligible
      · exact Or.inr (Or.inr (Or.inr (Or.inr hregresses)))
  | hold detail =>
    rw [hverdict] at hrule
    cases hrule with
    | holds _ hstays hwaits =>
      dsimp only
      by_cases htarget : rungFor (rungOf row = .promoted) item = rungOf row
      · rw [if_pos htarget]
        exact .stays ⟨hstays, hwaits, htarget⟩
      · rw [if_neg htarget]
        have hcurrent : rungOf row ≠ .promoted := by
          intro hcurrent
          rw [hcurrent] at htarget
          exact htarget rfl
        rw [decide_eq_false hcurrent]
        exact .moves detail hcurrent
          { stays := fun h => absurd h rungFor_false_ne_promoted
            waits := fun _ => hwaits hcurrent
            judged := rungFor_rungFor_false }

/-- A class on a steady rung is left as it is. -/
theorem settle_eq_none (hsteady : Steady (rungOf row) item paused
    (activeHold row now).isSome) : settle row paused now item = none := by
  have hrule := @ladderRule_evaluateLadder (rungOf row) item
    (isAutonomyEligible item.actionClass) paused (activeHold row now)
  unfold settle
  dsimp only
  cases hverdict : evaluateLadder (rungOf row) item
      (isAutonomyEligible item.actionClass) paused (activeHold row now) with
  | promote detail =>
    rw [hverdict] at hrule
    cases hrule with
    | promotes _ heligible hpaused hhold hcurrent hclears hfine =>
      rcases hsteady.waits hcurrent with h | h | h | h | h
      · exact absurd heligible h
      · exact absurd h hpaused
      · rw [hhold] at h
        exact absurd h Bool.false_ne_true
      · exact absurd hclears h
      · exact absurd h hfine
  | demote reason detail =>
    rw [hverdict] at hrule
    cases hrule with
    | demotes _ _ hreason hcurrent hwhy =>
      obtain ⟨heligible, hfine⟩ := hsteady.stays hcurrent
      rcases hwhy with hineligible | ⟨hpaused, hregresses⟩
      · exact absurd heligible hineligible
      · exact absurd hfine (not_or.mpr ⟨hpaused, not_not.mpr hregresses⟩)
  | hold detail => exact if_pos hsteady.judged

/-- What settling a class makes of its row. -/
def settled (row : Option PromotionState) (paused : Bool) (now : Instant)
    (item : ClassEvidence) : Option PromotionState :=
  match settle row paused now item with
  | none => row
  | some change => some (persistRow row row item change now none)

theorem settled_eq_self (h : settle row paused now item = none) :
    settled row paused now item = row := by
  unfold settled
  rw [h]

/-- Settling a class leaves its hold alone. -/
theorem manualHoldUntil_settled :
    (settled row paused now item).bind (·.manualHoldUntil)
      = row.bind (·.manualHoldUntil) := by
  unfold settled
  cases settle row paused now item with
  | none => rfl
  | some change => rfl

/-- **A class that is settled is on a steady rung.** -/
theorem steady_settled : Steady (rungOf (settled row paused now item)) item
    paused (activeHold row now).isSome := by
  have hsettles := @settlement_settle row item paused now
  unfold settled
  cases hchange : settle row paused now item with
  | none =>
    rw [hchange] at hsettles
    cases hsettles with
    | stays hsteady => exact hsteady
  | some change =>
    rw [hchange] at hsettles
    show Steady change.rung item paused (activeHold row now).isSome
    cases hsettles with
    | promotes _ _ hfree _ hsteady => rwa [hfree]
    | demotes _ _ _ _ hsteady => exact hsteady
    | moves _ _ hsteady => exact hsteady

/-- Settling it again, under the same hold, changes nothing. -/
theorem settled_settled (hsame :
    (activeHold (settled row paused now item) later).isSome
      = (activeHold (settled row paused now item) now).isSome) :
    settled (settled row paused now item) paused later item
      = settled row paused now item := by
  have hheld : (activeHold (settled row paused now item) later).isSome
      = (activeHold row now).isSome := by
    rw [hsame, isSome_activeHold, manualHoldUntil_settled, isSome_activeHold]
  have hsteady := @steady_settled row item paused now
  rw [← hheld] at hsteady
  exact settled_eq_self (settle_eq_none hsteady)

/-- Nothing is promoted under a hold, or that may not be granted. -/
theorem promoted_of_settled
    (h : rungOf (settled row paused now item) = .promoted) :
    rungOf row = .promoted
      ∨ isAutonomyEligible item.actionClass ∧ activeHold row now = none := by
  have hsettles := @settlement_settle row item paused now
  unfold settled at h
  cases hchange : settle row paused now item with
  | none =>
    rw [hchange] at h
    exact Or.inl h
  | some change =>
    rw [hchange] at h hsettles
    replace h : change.rung = .promoted := h
    cases hsettles with
    | promotes _ heligible hfree _ _ => exact Or.inr ⟨heligible, hfree⟩
    | demotes _ _ _ _ _ => exact absurd h rungFor_false_ne_promoted
    | moves _ _ _ => exact absurd h rungFor_false_ne_promoted

/-- Whether a class comes off the promoted rung, as a count. -/
def demotedBetween (before after : Option PromotionState) : ℕ :=
  if rungOf before = .promoted ∧ rungOf after ≠ .promoted then 1 else 0

@[simp] theorem demotedBetween_self : demotedBetween row row = 0 :=
  if_neg fun h => h.2 h.1

/-- A write that says of itself whether it demotes counts it. -/
theorem demotionCountOf_persistRow_eq
    (h : change.reason.any (·.isDemotion)
      ↔ rungOf row = .promoted ∧ change.rung ≠ .promoted) :
    demotionCountOf (some (persistRow row row item change now human))
      = demotionCountOf row
        + demotedBetween row
          (some (persistRow row row item change now human)) := by
  rw [demotionCountOf_persistRow]
  unfold demotedBetween
  rw [rungOf_persistRow]
  simp only [h]

/-- A demotion is counted when a class comes off the promoted rung, and only
then. -/
theorem demotionCountOf_settled :
    demotionCountOf (settled row paused now item)
      = demotionCountOf row
        + demotedBetween row (settled row paused now item) := by
  have hsettles := @settlement_settle row item paused now
  cases hchange : settle row paused now item with
  | none => rw [settled_eq_self hchange, demotedBetween_self, Nat.add_zero]
  | some change =>
    rw [hchange] at hsettles
    unfold settled
    rw [hchange]
    apply demotionCountOf_persistRow_eq
    cases hsettles with
    | promotes _ _ _ hcurrent _ =>
      exact iff_of_false nofun fun h => hcurrent h.1
    | demotes reason _ hreason hcurrent _ =>
      exact iff_of_true hreason ⟨hcurrent, rungFor_false_ne_promoted⟩
    | moves _ hcurrent _ => exact iff_of_false nofun fun h => hcurrent h.1

end Rows

/-! ## All rows -/

section Tables

variable {states : PromotionTable} {paused : Bool} {now later : Instant}

/-- The evaluation of a list of classes none of which is this one. -/
theorem foldl_settle_apply_of_forall_ne {items : List ClassEvidence}
    {actionClass : String}
    (h : ∀ item ∈ items, item.actionClass ≠ actionClass)
    (after : PromotionTable) :
    items.foldl (fun after item =>
      match settle (states item.actionClass) paused now item with
      | none => after
      | some change =>
        Function.update after item.actionClass
          (some (persistRow (after item.actionClass) (states item.actionClass)
            item change now none))) after actionClass
      = after actionClass := by
  induction items generalizing after with
  | nil => rfl
  | cons item items ih =>
    rw [List.foldl_cons, ih fun item' h' => h item' (List.mem_cons_of_mem _ h')]
    have hne : actionClass ≠ item.actionClass :=
      (h item List.mem_cons_self).symm
    cases settle (states item.actionClass) paused now item with
    | none => rfl
    | some change => exact Function.update_of_ne hne _ _

/-- **`evaluate_apply`**: an evaluation settles each class by its own row. -/
theorem evaluate_apply {items : List ClassEvidence}
    (hnodup : (items.map (·.actionClass)).Nodup) {item : ClassEvidence}
    (hitem : item ∈ items) :
    evaluate states items paused now item.actionClass
      = settled (states item.actionClass) paused now item := by
  unfold evaluate
  obtain ⟨before, behind, rfl⟩ := List.append_of_mem hitem
  rw [List.map_append, List.map_cons, List.nodup_middle, List.nodup_cons,
    List.mem_append, not_or] at hnodup
  obtain ⟨⟨hbefore, hbehind⟩, -⟩ := hnodup
  have hfirst := @foldl_settle_apply_of_forall_ne states paused now before
    item.actionClass
    (fun item' h' h => hbefore (List.mem_map.mpr ⟨item', h', h⟩)) states
  rw [List.foldl_append, List.foldl_cons, foldl_settle_apply_of_forall_ne
    fun item' h' h => hbehind (List.mem_map.mpr ⟨item', h', h⟩)]
  unfold settled
  cases hchange : settle (states item.actionClass) paused now item with
  | none => exact hfirst
  | some change =>
    dsimp only
    rw [Function.update_self, hfirst]

theorem evaluate_apply_of_forall_ne {items : List ClassEvidence}
    {actionClass : String}
    (h : ∀ item ∈ items, item.actionClass ≠ actionClass) :
    evaluate states items paused now actionClass = states actionClass :=
  foldl_settle_apply_of_forall_ne h states

/-- A class is left alone, or settled by the evidence on it. -/
theorem evaluate_cases (evidence : GatheredEvidence) (actionClass : String) :
    evaluate states evidence.items paused now actionClass = states actionClass
      ∨ ∃ item ∈ evidence.items, item.actionClass = actionClass
        ∧ evaluate states evidence.items paused now actionClass
          = settled (states actionClass) paused now item := by
  by_cases h : ∃ item ∈ evidence.items, item.actionClass = actionClass
  · obtain ⟨item, hitem, rfl⟩ := h
    exact Or.inr ⟨item, hitem, rfl, evaluate_apply evidence.nodup hitem⟩
  · exact Or.inl (evaluate_apply_of_forall_ne
      fun item hitem hclass => h ⟨item, hitem, hclass⟩)

/-- **An evaluation settles the ladder**: another, over the same evidence and
under the same holds, changes nothing. -/
theorem evaluate_evaluate (evidence : GatheredEvidence)
    (hsame : ∀ actionClass,
      (activeHold (evaluate states evidence.items paused now actionClass)
          later).isSome
        = (activeHold (evaluate states evidence.items paused now actionClass)
          now).isSome) :
    evaluate (evaluate states evidence.items paused now) evidence.items paused
        later
      = evaluate states evidence.items paused now := by
  funext actionClass
  by_cases h : ∃ item ∈ evidence.items, item.actionClass = actionClass
  · obtain ⟨item, hitem, rfl⟩ := h
    have hsame' := hsame item.actionClass
    rw [evaluate_apply evidence.nodup hitem] at hsame'
    rw [evaluate_apply evidence.nodup hitem,
      evaluate_apply evidence.nodup hitem]
    exact settled_settled hsame'
  · exact evaluate_apply_of_forall_ne
      fun item hitem hclass => h ⟨item, hitem, hclass⟩

variable {actionClass other : String} {actorUserId : ℕ} {note : Option String}
  {evidence : GatheredEvidence}

theorem demoteManually_apply_of_ne (h : other ≠ actionClass) :
    demoteManually states actionClass actorUserId note evidence now other
      = states other := by
  unfold demoteManually
  split
  · exact Function.update_of_ne h _ _
  · rfl

theorem demoteManually_eq_self (h : rungOf (states actionClass) ≠ .promoted) :
    demoteManually states actionClass actorUserId note evidence now
      = states :=
  if_neg h

/-- **What a demotion by hand writes**: the class is off the rung, held, and
the demotion counted. -/
theorem demoteManually_apply_self
    (h : rungOf (states actionClass) = .promoted) :
    ∃ row, demoteManually states actionClass actorUserId note evidence now
          actionClass = some row
      ∧ row.rung ≠ .promoted
      ∧ row.manualHoldUntil = some (now + manualHoldMs)
      ∧ demotionCountOf (some row) = demotionCountOf (states actionClass)
        + demotedBetween (states actionClass) (some row) := by
  unfold demoteManually
  rw [if_pos h, Function.update_self]
  refine ⟨_, rfl, rungFor_false_ne_promoted, rfl, ?_⟩
  exact demotionCountOf_persistRow_eq
    (iff_of_true rfl ⟨h, rungFor_false_ne_promoted⟩)

end Tables

/-! ## The ladder over time -/

/-- The rows, with what was done by hand and how often each class was taken off
the promoted rung. -/
structure Ladder where
  clock : Instant
  states : PromotionTable
  /-- The classes demoted by hand, with when each hold lifts. -/
  handDemotions : List (String × Instant) := []
  /-- The demotions of each class. -/
  demotions : String → ℕ

/-- What happens, and how long after what happened last: an evaluation of all classes,
or a person who demotes one. -/
inductive LadderTurn where
  | evaluate (elapsed : ℕ) (evidence : GatheredEvidence) (paused : Bool)
  | demoteManually (elapsed : ℕ) (actionClass : String) (actorUserId : ℕ)
      (note : Option String) (evidence : GatheredEvidence)

namespace Ladder

/-- The rows a turn leaves, and when. -/
def next (ladder : Ladder) : LadderTurn → Instant × PromotionTable
  | .evaluate elapsed evidence paused =>
    let now := ladder.clock + elapsed
    (now, Opifex.evaluate ladder.states evidence.items paused now)
  | .demoteManually elapsed actionClass actorUserId note evidence =>
    let now := ladder.clock + elapsed
    (now, Opifex.demoteManually ladder.states actionClass actorUserId note
      evidence now)

/-- The hold a turn places. -/
def placed (ladder : Ladder) : LadderTurn → List (String × Instant)
  | .evaluate _ _ _ => []
  | .demoteManually elapsed actionClass _ _ _ =>
    if rungOf (ladder.states actionClass) = .promoted then
      [(actionClass, ladder.clock + elapsed + manualHoldMs)]
    else []

/-- One turn. -/
def step (ladder : Ladder) (turn : LadderTurn) : Ladder :=
  let after := ladder.next turn
  { clock := after.1
    states := after.2
    handDemotions := ladder.placed turn ++ ladder.handDemotions
    demotions := fun actionClass =>
      ladder.demotions actionClass
        + demotedBetween (ladder.states actionClass) (after.2 actionClass) }

/-- A ladder with what its rows have on record. -/
def opened (clock : Instant) (states : PromotionTable) : Ladder where
  clock := clock
  states := states
  demotions := fun actionClass => demotionCountOf (states actionClass)

/-- **The ladder settles, and respects a human**, at every turn: what is evaluated once
more does not move, and what a person demoted is not promoted while the hold stands. -/
structure Settles (ladder : Ladder) (turn : LadderTurn) : Prop where
  /-- An evaluation over the same evidence, while the same holds stand, changes
  nothing more. -/
  settled : ∀ elapsed evidence paused, turn = .evaluate elapsed evidence paused →
    ∀ wait : ℕ, (∀ actionClass,
      (activeHold ((ladder.step turn).states actionClass)
          ((ladder.step turn).clock + wait)).isSome
        = (activeHold ((ladder.step turn).states actionClass)
          (ladder.step turn).clock).isSome) →
      ((ladder.step turn).step (.evaluate wait evidence paused)).states
        = (ladder.step turn).states
  /-- Until its hold lifts, a class demoted by hand is not on the promoted
  rung. -/
  held : ∀ hold ∈ (ladder.step turn).handDemotions,
    (ladder.step turn).clock < hold.2 →
      rungOf ((ladder.step turn).states hold.1) ≠ .promoted
  /-- A class that may not be granted is not promoted. -/
  ineligible : ∀ actionClass, isAutonomyEligible actionClass = false →
    rungOf ((ladder.step turn).states actionClass) = .promoted →
      rungOf (ladder.states actionClass) = .promoted
  /-- Every demotion is counted, and nothing else. -/
  counted : ∀ actionClass,
    demotionCountOf ((ladder.step turn).states actionClass)
      = (ladder.step turn).demotions actionClass

/-- What the rows show of the holds that were placed: none is lost or moved back by a
later change of the class. -/
structure Respects (ladder : Ladder) : Prop where
  /-- The hold of a row is never moved back. -/
  recorded : ∀ hold ∈ ladder.handDemotions, ∃ heldUntil,
    (ladder.states hold.1).bind (·.manualHoldUntil) = some heldUntil
      ∧ hold.2 ≤ heldUntil
  /-- So that one placed now outlasts those placed before. -/
  bounded : ∀ hold ∈ ladder.handDemotions,
    hold.2 ≤ ladder.clock + manualHoldMs
  held : ∀ hold ∈ ladder.handDemotions, ladder.clock < hold.2 →
    rungOf (ladder.states hold.1) ≠ .promoted
  counted : ∀ actionClass,
    demotionCountOf (ladder.states actionClass) = ladder.demotions actionClass

theorem respects_opened (clock : Instant) (states : PromotionTable) :
    (opened clock states).Respects where
  recorded := fun _ h => nomatch h
  bounded := fun _ h => nomatch h
  held := fun _ h => nomatch h
  counted := fun _ => rfl

variable {ladder : Ladder}

theorem clock_le_step (turn : LadderTurn) :
    ladder.clock ≤ (ladder.step turn).clock := by
  cases turn <;> exact le_add_of_nonneg_right (Int.natCast_nonneg _)

theorem Respects.bounded_step (h : ladder.Respects) (turn : LadderTurn) :
    ∀ hold ∈ ladder.handDemotions,
      hold.2 ≤ (ladder.step turn).clock + manualHoldMs :=
  fun hold hhold => (h.bounded hold hhold).trans
    (add_le_add_left (clock_le_step turn) manualHoldMs)

/-- An evaluation respects the holds. -/
theorem Respects.evaluate (h : ladder.Respects) (elapsed : ℕ)
    (evidence : GatheredEvidence) (paused : Bool) :
    (ladder.step (.evaluate elapsed evidence paused)).Respects := by
  have hlater : ladder.clock ≤ ladder.clock + elapsed :=
    le_add_of_nonneg_right (Int.natCast_nonneg elapsed)
  constructor
  · intro hold hhold
    obtain ⟨heldUntil, hrow, hle⟩ := h.recorded hold hhold
    refine ⟨heldUntil, ?_, hle⟩
    show (Opifex.evaluate ladder.states evidence.items paused
      (ladder.clock + elapsed) hold.1).bind (·.manualHoldUntil)
        = some heldUntil
    rcases evaluate_cases evidence hold.1 with hrest | ⟨item, -, -, hsettled⟩
    · rw [hrest, hrow]
    · rw [hsettled, manualHoldUntil_settled, hrow]
  · exact h.bounded_step (.evaluate elapsed evidence paused)
  · intro hold hhold hstands hpromoted
    replace hstands : ladder.clock + elapsed < hold.2 := hstands
    replace hpromoted : rungOf (Opifex.evaluate ladder.states evidence.items
      paused (ladder.clock + elapsed) hold.1) = .promoted := hpromoted
    have hbefore := h.held hold hhold (hlater.trans_lt hstands)
    rcases evaluate_cases evidence hold.1 with hrest | ⟨item, -, -, hsettled⟩
    · rw [hrest] at hpromoted
      exact hbefore hpromoted
    · rw [hsettled] at hpromoted
      rcases promoted_of_settled hpromoted with hwas | ⟨-, hfree⟩
      · exact hbefore hwas
      · -- the hold of the row stands as well
        obtain ⟨heldUntil, hrow, hle⟩ := h.recorded hold hhold
        have hstands' := @isSome_activeHold (ladder.states hold.1)
          (ladder.clock + elapsed)
        rw [hfree, hrow] at hstands'
        exact Bool.false_ne_true (hstands'.trans
          (decide_eq_true (hstands.trans_le hle)))
  · intro actionClass
    show demotionCountOf (Opifex.evaluate ladder.states evidence.items paused
        (ladder.clock + elapsed) actionClass)
      = ladder.demotions actionClass + demotedBetween (ladder.states actionClass)
        (Opifex.evaluate ladder.states evidence.items paused
          (ladder.clock + elapsed) actionClass)
    rcases evaluate_cases evidence actionClass with hrest | ⟨item, -, -, hsettled⟩
    · rw [hrest, demotedBetween_self, h.counted, Nat.add_zero]
    · rw [hsettled, demotionCountOf_settled, h.counted]

/-- A demotion by hand respects the holds before it, and its own. -/
theorem Respects.demoteManually (h : ladder.Respects) (elapsed : ℕ)
    (actionClass : String) (actorUserId : ℕ) (note : Option String)
    (evidence : GatheredEvidence) :
    (ladder.step (.demoteManually elapsed actionClass actorUserId note
      evidence)).Respects := by
  have hbounded := h.bounded_step
    (.demoteManually elapsed actionClass actorUserId note evidence)
  have hlater : ladder.clock ≤ ladder.clock + elapsed :=
    le_add_of_nonneg_right (Int.natCast_nonneg elapsed)
  let after := Opifex.demoteManually ladder.states actionClass actorUserId note
    evidence (ladder.clock + elapsed)
  have hplaced : (ladder.step (.demoteManually elapsed actionClass actorUserId
      note evidence)).handDemotions
    = (if rungOf (ladder.states actionClass) = .promoted then
        [(actionClass, ladder.clock + elapsed + manualHoldMs)]
      else []) ++ ladder.handDemotions := rfl
  by_cases hpromoted : rungOf (ladder.states actionClass) = .promoted
  · obtain ⟨row, hrow, hrung, huntil, hcount⟩ :=
      @demoteManually_apply_self ladder.states (ladder.clock + elapsed)
        actionClass actorUserId note evidence hpromoted
    replace hrow : after actionClass = some row := hrow
    have hother : ∀ other, other ≠ actionClass →
        after other = ladder.states other :=
      fun other hne => demoteManually_apply_of_ne hne
    rw [if_pos hpromoted] at hplaced
    constructor
    · intro hold hhold
      show ∃ heldUntil, (after hold.1).bind (·.manualHoldUntil) = some heldUntil
        ∧ hold.2 ≤ heldUntil
      rw [hplaced] at hhold
      rcases List.mem_cons.mp hhold with rfl | hhold
      · exact ⟨_, by rw [hrow]; exact huntil, le_rfl⟩
      · by_cases hclass : hold.1 = actionClass
        · refine ⟨_, by rw [hclass, hrow]; exact huntil, ?_⟩
          exact hbounded hold hhold
        · rw [hother _ hclass]
          exact h.recorded hold hhold
    · intro hold hhold
      rw [hplaced] at hhold
      rcases List.mem_cons.mp hhold with rfl | hhold
      · exact le_rfl
      · exact hbounded hold hhold
    · intro hold hhold hstands
      replace hstands : ladder.clock + elapsed < hold.2 := hstands
      show rungOf (after hold.1) ≠ .promoted
      rw [hplaced] at hhold
      by_cases hclass : hold.1 = actionClass
      · rw [hclass, hrow]
        exact hrung
      · rw [hother _ hclass]
        rcases List.mem_cons.mp hhold with rfl | hhold
        · exact absurd rfl hclass
        · exact h.held hold hhold (hlater.trans_lt hstands)
    · intro other
      show demotionCountOf (after other) = ladder.demotions other
        + demotedBetween (ladder.states other) (after other)
      by_cases hclass : other = actionClass
      · rw [hclass, hrow, hcount, h.counted]
      · rw [hother _ hclass, demotedBetween_self, h.counted, Nat.add_zero]
  · have hafter : after = ladder.states := demoteManually_eq_self hpromoted
    rw [if_neg hpromoted, List.nil_append] at hplaced
    constructor
    · intro hold hhold
      rw [hplaced] at hhold
      show ∃ heldUntil, (after hold.1).bind (·.manualHoldUntil) = some heldUntil
        ∧ hold.2 ≤ heldUntil
      rw [hafter]
      exact h.recorded hold hhold
    · rw [hplaced]
      exact hbounded
    · intro hold hhold hstands
      rw [hplaced] at hhold
      show rungOf (after hold.1) ≠ .promoted
      rw [hafter]
      exact h.held hold hhold (hlater.trans_lt hstands)
    · intro other
      show demotionCountOf (after other) = ladder.demotions other
        + demotedBetween (ladder.states other) (after other)
      rw [hafter, demotedBetween_self, h.counted, Nat.add_zero]

/-- Every turn respects the holds. -/
theorem Respects.step (h : ladder.Respects) :
    ∀ turn, (ladder.step turn).Respects
  | .evaluate elapsed evidence paused => h.evaluate elapsed evidence paused
  | .demoteManually elapsed actionClass actorUserId note evidence =>
    h.demoteManually elapsed actionClass actorUserId note evidence

/-- A class that may not be granted is promoted by no turn. -/
theorem promoted_of_step {turn : LadderTurn} {actionClass : String}
    (hineligible : isAutonomyEligible actionClass = false)
    (h : rungOf ((ladder.step turn).states actionClass) = .promoted) :
    rungOf (ladder.states actionClass) = .promoted := by
  cases turn with
  | evaluate elapsed evidence paused =>
    replace h : rungOf (Opifex.evaluate ladder.states evidence.items paused
      (ladder.clock + elapsed) actionClass) = .promoted := h
    rcases evaluate_cases evidence actionClass
      with hrest | ⟨item, -, rfl, hsettled⟩
    · rwa [hrest] at h
    · rw [hsettled] at h
      rcases promoted_of_settled h with hwas | ⟨heligible, -⟩
      · exact hwas
      · exact absurd heligible (by rw [hineligible]; exact Bool.false_ne_true)
  | demoteManually elapsed other actorUserId note evidence =>
    replace h : rungOf (Opifex.demoteManually ladder.states other actorUserId
      note evidence (ladder.clock + elapsed) actionClass) = .promoted := h
    by_cases hclass : actionClass = other
    · by_cases hpromoted : rungOf (ladder.states other) = .promoted
      · rwa [hclass]
      · rwa [demoteManually_eq_self hpromoted] at h
    · rwa [demoteManually_apply_of_ne hclass] at h

/-- **The ladder settles in one step and respects a human**, over every
sequence of evaluations and demotions by hand. -/
theorem settles_and_respects (clock : Instant) (states : PromotionTable)
    (turns : List LadderTurn) :
    Machine.Always Ladder.step Ladder.Settles (opened clock states) turns := by
  refine @Machine.always_of_preserved _ _ Ladder.step Respects Settles
    (fun _ turn h => h.step turn) ?_ _ (respects_opened clock states) turns
  intro ladder turn h
  constructor
  · rintro elapsed evidence paused rfl wait hsame
    exact evaluate_evaluate evidence hsame
  · exact (h.step turn).held
  · exact fun actionClass hineligible => promoted_of_step hineligible
  · exact (h.step turn).counted

end Ladder

end Opifex
