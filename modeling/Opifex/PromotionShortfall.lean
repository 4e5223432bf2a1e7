import Opifex.PromotionLadder

/-!
# How far a class is from promotion

The sentence on a held class names a number of approvals. It is the number the
rule asks for: **added to the record, that many approvals promote and fewer do
not**, as long as no more than `2 ^ 53 / 30` rejections are on record.

Both sides of this are computed with doubles. The test is that of the exact
rate as long as ten times the rejections stay below a third of `2 ^ 53`: a rate
below nine tenths is then too far below to be rounded up to the threshold. And
the estimate, which starts from a threshold a little above nine tenths, is then
at most one too high, which is what the loop that starts one below it can make
good. It makes good any estimate that is too low. One rejection more, and the
test passes one approval earlier than the count.
-/

namespace Opifex

open Double (nearest)
open Text (toDouble)

/-! ## The rate -/

theorem promotionRate_eq : promotionRate = 8106479329266893 / 2 ^ 53 := by
  decide +kernel

theorem nearest_one_sub_promotionRate :
    nearest (1 - promotionRate) = 900719925474099 / 2 ^ 53 := by
  decide +kernel

section Rate

variable {approved rejected : ℕ}

/-- A rate of nine tenths is not rounded below the threshold. -/
theorem promotionRate_le_nearest {total : ℚ} (hpos : 0 < total)
    (h : 9 * total ≤ 10 * approved) :
    promotionRate ≤ nearest (approved / total) := by
  refine Double.nearest_le_nearest (by norm_num) ?_
  rw [le_div_iff₀ hpos]
  linarith

/-- A rate below nine tenths by enough is not rounded up to it: half a unit
below the threshold the even digit is the lower. -/
theorem nearest_lt_promotionRate {x : ℚ} (hx : 0 ≤ x)
    (h : x ≤ 16212958658533785 / 2 ^ 54) : nearest x < promotionRate := by
  have htie : nearest (16212958658533785 / 2 ^ 54) = 8106479329266892 / 2 ^ 53 := by
    decide +kernel
  calc nearest x ≤ nearest (16212958658533785 / 2 ^ 54) :=
        Double.nearest_le_nearest hx h
    _ = 8106479329266892 / 2 ^ 53 := htie
    _ < promotionRate := by
        rw [promotionRate_eq]
        norm_num

/-- **The test is that of the exact rate.** -/
theorem meetsPromotionRate_iff (hbound : 30 * rejected ≤ 2 ^ 53) :
    meetsPromotionRate approved rejected ↔
      9 * rejected ≤ approved ∧ 0 < approved + rejected := by
  unfold meetsPromotionRate rateOf
  by_cases hzero : approved + rejected = 0
  · simp [hzero]
  rw [if_neg hzero, Option.any_some, decide_eq_true_iff]
  have hpos := Nat.pos_of_ne_zero hzero
  simp only [hpos, and_true]
  constructor
  · intro hmeets
    by_contra hfew
    rw [not_le] at hfew
    have hsmall : approved + rejected ≤ 2 ^ 53 := by omega
    rw [Double.nearest_natCast hsmall] at hmeets
    refine absurd hmeets (not_le.mpr (nearest_lt_promotionRate (by positivity) ?_))
    rw [div_le_div_iff₀ (by exact_mod_cast hpos) (by norm_num)]
    have hfew' : (approved : ℚ) + 1 ≤ 9 * rejected := by exact_mod_cast hfew
    have hbound' : (30 : ℚ) * rejected ≤ 2 ^ 53 := by exact_mod_cast hbound
    push_cast
    linarith
  · intro henough
    have henough' : (9 : ℚ) * rejected ≤ approved := by exact_mod_cast henough
    obtain hsmall | hlarge := le_or_gt (approved + rejected) (2 ^ 53)
    · rw [Double.nearest_natCast hsmall]
      refine promotionRate_le_nearest (by exact_mod_cast hpos) ?_
      push_cast
      linarith
    · have hlarge' : (2 : ℚ) ^ 53 < approved + rejected := by exact_mod_cast hlarge
      have hbound' : (30 : ℚ) * rejected ≤ 2 ^ 53 := by exact_mod_cast hbound
      have herror := abs_le.mp (Double.abs_nearest_sub_le_mul
        (show (0 : ℚ) ≤ (approved + rejected : ℕ) from Nat.cast_nonneg _))
      have hcast : ((approved + rejected : ℕ) : ℚ) = approved + rejected :=
        Nat.cast_add _ _
      rw [hcast] at herror ⊢
      refine promotionRate_le_nearest ?_ ?_
      · linarith [herror.1]
      · linarith [herror.2]

end Rate

/-! ## The estimate -/

section Estimate

variable {approved rejected : ℕ}

/-- The share of the rejections, rounded. -/
def rejectedShare (rejected : ℕ) : ℚ := nearest (promotionRate * rejected)

/-- The share of the approvals, rounded. -/
def approvedShare (approved : ℕ) : ℚ :=
  nearest (900719925474099 / 2 ^ 53 * approved)

theorem rejectedShare_le :
    rejectedShare rejected
      ≤ 8106479329266893 / 2 ^ 53 * rejected * (1 + 1 / 2 ^ 53) := by
  have hnonneg : (0 : ℚ) ≤ 8106479329266893 / 2 ^ 53 * rejected := by positivity
  have herror := (abs_le.mp (Double.abs_nearest_sub_le_mul hnonneg)).2
  rw [rejectedShare, promotionRate_eq]
  linarith

theorem le_approvedShare :
    900719925474099 / 2 ^ 53 * approved * (1 - 1 / 2 ^ 53)
      ≤ approvedShare approved := by
  have hnonneg : (0 : ℚ) ≤ 900719925474099 / 2 ^ 53 * approved := by positivity
  have herror := (abs_le.mp (Double.abs_nearest_sub_le_mul hnonneg)).1
  rw [approvedShare]
  linarith

/-- Nine approvals have no greater share than one rejection. -/
theorem approvedShare_le_rejectedShare (hshort : approved ≤ 9 * rejected) :
    approvedShare approved ≤ rejectedShare rejected := by
  have hshort' : (approved : ℚ) ≤ 9 * rejected := by exact_mod_cast hshort
  refine Double.nearest_le_nearest (by positivity) ?_
  rw [promotionRate_eq]
  linarith

/-- The difference is rounded at its own last digit. -/
theorem nearest_sub_le (hshort : approved ≤ 9 * rejected) :
    nearest (rejectedShare rejected - approvedShare approved)
      ≤ (rejectedShare rejected - approvedShare approved) * (1 + 1 / 2 ^ 53) := by
  have hnonneg := sub_nonneg.mpr (approvedShare_le_rejectedShare hshort)
  have herror := (abs_le.mp (Double.abs_nearest_sub_le_mul hnonneg)).2
  linarith

/-- Where the rejections are few the errors, as fractions of what is rounded,
come to less than one approval. -/
theorem nearest_sub_le_of_few (hbound : 39 * rejected ≤ 2 ^ 53)
    (hshort : approved ≤ 9 * rejected) :
    nearest (rejectedShare rejected - approvedShare approved)
      ≤ 900719925474099 / 2 ^ 53 * (9 * rejected - approved + 1) := by
  have hbound' : (39 : ℚ) * rejected ≤ 2 ^ 53 := by exact_mod_cast hbound
  have hshort' : (approved : ℚ) ≤ 9 * rejected := by exact_mod_cast hshort
  have hrejected := @rejectedShare_le rejected
  have happroved := @le_approvedShare approved
  have hsub := nearest_sub_le hshort
  linarith

section Many

variable (hbound : 30 * rejected ≤ 2 ^ 53) (hshort : approved ≤ 9 * rejected)
include hbound

/-- As many rejections as the bound allows have a share below `2 ^ 48`, which
is rounded at the fifth binary place. -/
theorem rejectedShare_le_of_many :
    rejectedShare rejected ≤ 8106479329266893 / 2 ^ 53 * rejected + 1 / 2 ^ 6 := by
  have hbound' : (30 : ℚ) * rejected ≤ 2 ^ 53 := by exact_mod_cast hbound
  have herror := (abs_le.mp (@Double.abs_nearest_sub_le_zpow
    (8106479329266893 / 2 ^ 53 * rejected) 47 (by positivity)
      (by norm_num at hbound' ⊢; linarith))).2
  rw [rejectedShare, promotionRate_eq]
  norm_num at herror ⊢
  linarith

include hshort

theorem le_approvedShare_of_many :
    900719925474099 / 2 ^ 53 * approved - 1 / 2 ^ 6 ≤ approvedShare approved := by
  have hbound' : (30 : ℚ) * rejected ≤ 2 ^ 53 := by exact_mod_cast hbound
  have hshort' : (approved : ℚ) ≤ 9 * rejected := by exact_mod_cast hshort
  have herror := (abs_le.mp (@Double.abs_nearest_sub_le_zpow
    (900719925474099 / 2 ^ 53 * approved) 47 (by positivity)
      (by norm_num at hbound' ⊢; linarith))).1
  rw [approvedShare]
  norm_num at herror ⊢
  linarith

/-- Where the shares are within a factor of two their difference is exact. -/
theorem nearest_sub_le_of_close
    (hclose : rejectedShare rejected ≤ 2 * approvedShare approved) :
    nearest (rejectedShare rejected - approvedShare approved)
      ≤ 900719925474099 / 2 ^ 53 * (9 * rejected - approved + 1) := by
  have hle := approvedShare_le_rejectedShare hshort
  have hdouble : Double.IsDouble
      (rejectedShare rejected - approvedShare approved) := by
    refine Double.IsDouble.sub ?_ ?_ hle hclose
    · exact Double.isDouble_nearest (by rw [promotionRate_eq]; positivity)
    · exact Double.isDouble_nearest (by positivity)
  refine (Double.nearest_le (sub_nonneg.mpr hle) hdouble le_rfl).trans ?_
  have hbound' : (30 : ℚ) * rejected ≤ 2 ^ 53 := by exact_mod_cast hbound
  have hrejected := rejectedShare_le_of_many hbound
  have happroved := le_approvedShare_of_many hbound hshort
  linarith

/-- Where they are not, the approvals have a share below `2 ^ 47`, which is
rounded at the sixth binary place. -/
theorem nearest_sub_lt_of_far
    (hfar : 2 * approvedShare approved < rejectedShare rejected) :
    nearest (rejectedShare rejected - approvedShare approved)
      < 900719925474099 / 2 ^ 53 * (9 * rejected - approved + 1 + 1 / 2 ^ 4) := by
  have hbound' : (30 : ℚ) * rejected ≤ 2 ^ 53 := by exact_mod_cast hbound
  have hrejected := rejectedShare_le_of_many hbound
  have hsmall : 900719925474099 / 2 ^ 53 * (approved : ℚ) < 2 ^ (46 + 1 : ℤ) := by
    by_contra hlarge
    have hpower := Double.le_nearest (Double.isDouble_zpow (46 + 1))
      (not_lt.mp hlarge) (lt_of_lt_of_le (by positivity) (not_lt.mp hlarge))
    rw [← approvedShare] at hpower
    norm_num at hpower hrejected
    linarith
  have happroved := (abs_le.mp (Double.abs_nearest_sub_le_zpow
    (by positivity) hsmall)).1
  rw [← approvedShare] at happroved
  have hdiff : rejectedShare rejected - approvedShare approved < 2 ^ (47 + 1 : ℤ) := by
    have hnonneg : 0 ≤ approvedShare approved :=
      Double.nearest_nonneg (by positivity)
    norm_num at hbound' hrejected ⊢
    linarith
  have hsub := (abs_le.mp (Double.abs_nearest_sub_le_zpow
    (sub_nonneg.mpr (approvedShare_le_rejectedShare hshort)) hdiff)).2
  norm_num at happroved hsub hrejected ⊢
  linarith

/-- **The estimate is at most one too high**, where the record is short of the
rate. -/
theorem quotient_le_of_short :
    nearest (nearest (rejectedShare rejected - approvedShare approved)
        / (900719925474099 / 2 ^ 53))
      ≤ (9 * rejected - approved + 1 : ℕ) := by
  have hsmall : 9 * rejected - approved + 1 ≤ 2 ^ 53 := by omega
  have hcast : ((9 * rejected - approved + 1 : ℕ) : ℚ)
      = 9 * rejected - approved + 1 := by
    push_cast [Nat.cast_sub hshort]
    ring
  have hsub : 0 ≤ rejectedShare rejected - approvedShare approved :=
    sub_nonneg.mpr (approvedShare_le_rejectedShare hshort)
  have hexact : nearest (rejectedShare rejected - approvedShare approved)
        ≤ 900719925474099 / 2 ^ 53 * (9 * rejected - approved + 1) →
      nearest (nearest (rejectedShare rejected - approvedShare approved)
          / (900719925474099 / 2 ^ 53))
        ≤ (9 * rejected - approved + 1 : ℕ) := by
    intro h
    refine Double.nearest_le (div_nonneg (Double.nearest_nonneg hsub)
      (by norm_num)) (Double.isDouble_natCast hsmall) ?_
    rw [hcast, div_le_iff₀ (by norm_num)]
    linarith
  obtain hfew | hmany := le_or_gt (39 * rejected) (2 ^ 53)
  · exact hexact (nearest_sub_le_of_few hfew hshort)
  obtain hclose | hfar := le_or_gt (rejectedShare rejected)
    (2 * approvedShare approved)
  · exact hexact (nearest_sub_le_of_close hbound hshort hclose)
  -- the shares are far apart and large, and so is the quotient
  have hmany' : (2 : ℚ) ^ 53 < 39 * rejected := by exact_mod_cast hmany
  have hshare : (2 : ℚ) ^ (47 : ℤ) ≤ rejectedShare rejected := by
    refine Double.le_nearest (Double.isDouble_zpow 47) ?_ ?_ <;>
    · rw [promotionRate_eq]
      norm_num at hmany' ⊢
      linarith
  have hdiff : (2 : ℚ) ^ (46 : ℤ)
      ≤ nearest (rejectedShare rejected - approvedShare approved) := by
    refine Double.le_nearest (Double.isDouble_zpow 46) ?_ ?_ <;>
    · norm_num at hshare ⊢
      linarith
  have hlt := nearest_sub_lt_of_far hbound hshort hfar
  refine Double.nearest_le_of_lt hsmall (show 49 ≤ 52 by norm_num) ?_ ?_
  · rw [le_div_iff₀ (by norm_num)]
    norm_num at hdiff ⊢
    linarith
  · rw [hcast, div_lt_iff₀ (by norm_num)]
    norm_num at hlt ⊢
    linarith

omit hshort in
/-- And where it is not. -/
theorem quotient_le :
    nearest (nearest (rejectedShare rejected - approvedShare approved)
        / (900719925474099 / 2 ^ 53))
      ≤ (9 * rejected - approved + 1 : ℕ) := by
  obtain hshort | hlong := le_or_gt approved (9 * rejected)
  · exact quotient_le_of_short hbound hshort
  have hlong' : ((9 * rejected : ℕ) : ℚ) ≤ approved := by exact_mod_cast hlong.le
  have hone := quotient_le_of_short hbound (le_refl (9 * rejected))
  have hshares : approvedShare (9 * rejected) ≤ approvedShare approved :=
    Double.nearest_le_nearest (by positivity)
      (mul_le_mul_of_nonneg_left hlong' (by norm_num))
  rw [Nat.sub_eq_zero_of_le hlong.le]
  rw [Nat.sub_self] at hone
  obtain hneg | hpos := le_or_gt
    (rejectedShare rejected - approvedShare approved) 0
  · have hquotient : nearest (nearest (rejectedShare rejected
        - approvedShare approved) / (900719925474099 / 2 ^ 53)) ≤ 0 :=
      Double.nearest_nonpos (div_nonpos_of_nonpos_of_nonneg
        (Double.nearest_nonpos hneg) (by norm_num))
    exact hquotient.trans (Nat.cast_nonneg _)
  · refine le_trans (Double.nearest_le_nearest (div_nonneg
      (Double.nearest_nonneg hpos.le) (by norm_num)) ?_) hone
    exact div_le_div_of_nonneg_right
      (Double.nearest_le_nearest hpos.le (by linarith)) (by norm_num)

omit hshort in
theorem estimateShortfall_le :
    estimateShortfall approved rejected
      ≤ (9 * rejected - approved + 1 : ℕ) := by
  unfold estimateShortfall
  dsimp only
  rw [nearest_one_sub_promotionRate, Int.ceil_le, Int.cast_natCast]
  exact quotient_le hbound

end Many

end Estimate

/-! ## The count -/

section Count

variable {approved rejected : ℕ}

/-- What the loop looks for: the exact shortfall, and one approval where there
is nothing on record. -/
def leastShortfall (approved rejected : ℕ) : ℕ :=
  if approved + rejected = 0 then 1 else 9 * rejected - approved

/-- The least count that meets the rate. -/
theorem meetsPromotionRate_add_iff (hbound : 30 * rejected ≤ 2 ^ 53) (n : ℕ) :
    meetsPromotionRate (approved + n) rejected
      ↔ leastShortfall approved rejected ≤ n := by
  rw [meetsPromotionRate_iff hbound, leastShortfall]
  by_cases hzero : approved + rejected = 0
  · rw [if_pos hzero]
    omega
  · rw [if_neg hzero]
    omega

/-- The test of the loop, which adds as doubles are added. -/
theorem meetsPromotionRate_toDouble_iff (hbound : 30 * rejected ≤ 2 ^ 53)
    (n : ℕ) :
    meetsPromotionRate (toDouble (approved + n)) rejected
      ↔ leastShortfall approved rejected ≤ n := by
  obtain hsmall | hlarge := lt_or_ge (approved + n) (2 ^ 53)
  · rw [Text.toDouble_eq hsmall]
    exact meetsPromotionRate_add_iff hbound n
  · have htotal := Text.le_toDouble hlarge
    rw [meetsPromotionRate_iff hbound, leastShortfall]
    refine ⟨fun _ => ?_, fun _ => ⟨by omega, by omega⟩⟩
    by_cases hzero : approved + rejected = 0
    · rw [if_pos hzero]
      omega
    · rw [if_neg hzero]
      omega

theorem leastShortfall_le (approved rejected : ℕ) :
    leastShortfall approved rejected ≤ 9 * rejected + 1 := by
  unfold leastShortfall
  by_cases hzero : approved + rejected = 0
  · rw [if_pos hzero]
    omega
  · rw [if_neg hzero]
    omega

/-- The loop climbs to the least count. -/
theorem correctShortfall_eq (hbound : 30 * rejected ≤ 2 ^ 53) {rounds needed : ℕ}
    (hle : needed ≤ leastShortfall approved rejected)
    (hrounds : leastShortfall approved rejected < needed + rounds) :
    correctShortfall approved rejected rounds needed
      = some (leastShortfall approved rejected) := by
  induction rounds generalizing needed with
  | zero => omega
  | succ rounds ih =>
    unfold correctShortfall
    by_cases hmeets : leastShortfall approved rejected ≤ needed
    · rw [if_pos ((meetsPromotionRate_toDouble_iff hbound needed).mpr hmeets),
        le_antisymm hle hmeets]
    · have hleast := leastShortfall_le approved rejected
      rw [if_neg fun h => hmeets
          ((meetsPromotionRate_toDouble_iff hbound needed).mp h),
        Text.toDouble_eq (by omega)]
      exact ih (by omega) (by omega)

/-- **The call returns the least count** as soon as it is given the rounds to
climb to it. -/
theorem shortfallWithin_eq {evidence : ClassEvidence}
    (hbound : 30 * evidence.rejected ≤ 2 ^ 53) {rounds : ℕ}
    (hrounds : 9 * evidence.rejected + 2 ≤ rounds) :
    shortfallWithin rounds evidence
      = some (leastShortfall evidence.approved evidence.rejected) := by
  have hestimate := @estimateShortfall_le evidence.approved evidence.rejected
    hbound
  have hleast := leastShortfall_le evidence.approved evidence.rejected
  have hstart : (max 0 (estimateShortfall evidence.approved evidence.rejected
      - 1)).toNat ≤ 9 * evidence.rejected - evidence.approved := by omega
  unfold shortfallWithin
  dsimp only
  rw [Text.toDouble_eq (by omega)]
  refine correctShortfall_eq hbound (hstart.trans ?_) (by omega)
  unfold leastShortfall
  by_cases hzero : evidence.approved + evidence.rejected = 0
  · rw [if_pos hzero]
    omega
  · rw [if_neg hzero]

theorem shortfallCount_eq {evidence : ClassEvidence}
    (hbound : 30 * evidence.rejected ≤ 2 ^ 53) :
    shortfallCount evidence
      = leastShortfall evidence.approved evidence.rejected := by
  rw [shortfallCount, shortfallWithin_eq hbound le_rfl, Option.getD_some]

end Count

/-! ## The advice and the rule -/

/-- The counts that an evidence is made of: all decisions on a class, the recent ones,
and where they were asked for. -/
structure DecisionCounts where
  actionClass : String
  approved : ℕ := 0
  rejected : ℕ := 0
  recentApproved : ℕ := 0
  recentRejected : ℕ := 0
  fromProposals : ℕ := 0
  fromApprovals : ℕ := 0
deriving DecidableEq

namespace DecisionCounts

/-- The evidence, its samples and rates filled in. -/
def evidence (counts : DecisionCounts) : ClassEvidence where
  actionClass := counts.actionClass
  approved := counts.approved
  rejected := counts.rejected
  sample := counts.approved + counts.rejected
  rate := rateOf counts.approved counts.rejected
  recentApproved := counts.recentApproved
  recentRejected := counts.recentRejected
  recentSample := counts.recentApproved + counts.recentRejected
  recentRate := rateOf counts.recentApproved counts.recentRejected
  fromProposals := counts.fromProposals
  fromApprovals := counts.fromApprovals

/-- So many approvals more, all of them recent. -/
def approve (counts : DecisionCounts) (n : ℕ) : DecisionCounts :=
  { counts with
    approved := counts.approved + n
    recentApproved := counts.recentApproved + n
    fromApprovals := counts.fromApprovals + n }

end DecisionCounts

/-- When a class is promoted. -/
theorem promotes_iff {current : PromotionRung} {evidence : ClassEvidence}
    (hcurrent : current ≠ .promoted) :
    (∃ reason, evaluateLadder current evidence true false none
        = .promote reason) ↔
      evidence.clearsBar ∧ ¬evidence.isRegressing := by
  have hrule := @ladderRule_evaluateLadder current evidence true false none
  constructor
  · rintro ⟨reason, h⟩
    rw [h] at hrule
    cases hrule with
    | promotes _ _ _ _ _ hclears hfine => exact ⟨hclears, hfine⟩
  · rintro ⟨hclears, hfine⟩
    cases h : evaluateLadder current evidence true false none with
    | promote reason => exact ⟨reason, rfl⟩
    | demote reason detail =>
      rw [h] at hrule
      cases hrule with
      | demotes _ _ _ hpromoted => exact absurd hpromoted hcurrent
    | hold detail =>
      rw [h] at hrule
      cases hrule with
      | holds _ _ hwaits =>
        obtain h | h | h | h | h := hwaits hcurrent
        · exact absurd rfl h
        · contradiction
        · contradiction
        · exact absurd hclears h
        · exact absurd h hfine

/-- So many approvals more promote a class as soon as there are as many as
advised. -/
theorem promotes_approve_iff {counts : DecisionCounts}
    (hbound : 30 * counts.rejected ≤ 2 ^ 53)
    (hsample : minSample ≤ counts.evidence.sample) {current : PromotionRung}
    (hcurrent : current ≠ .promoted) (n : ℕ) :
    (∃ reason, evaluateLadder current (counts.approve n).evidence true false none
        = .promote reason) ↔
      shortfallCount counts.evidence ≤ n
        ∧ ¬(counts.approve n).evidence.isRegressing := by
  rw [shortfallCount_eq hbound, promotes_iff hcurrent]
  have henough : minSample ≤ counts.approved + n + counts.rejected := by
    have : minSample ≤ counts.approved + counts.rejected := hsample
    omega
  have hclears : (counts.approve n).evidence.clearsBar ↔
      leastShortfall counts.approved counts.rejected ≤ n := by
    rw [← meetsPromotionRate_add_iff hbound n]
    show (decide (minSample ≤ counts.approved + n + counts.rejected)
      && meetsPromotionRate (counts.approved + n) counts.rejected) = true ↔ _
    rw [decide_eq_true henough, Bool.true_and]
  rw [hclears]
  rfl

/-- **The advice is the rule.** With at most `2 ^ 53 / 30` rejections the count
is returned, and so many approvals more promote a class that is not on the
promoted rung, or any greater number, unless its recent window still fails;
fewer do not. -/
theorem shortfallCount_exact {counts : DecisionCounts}
    (hbound : 30 * counts.rejected ≤ 2 ^ 53) :
    (∃ enough, ∀ rounds ≥ enough, shortfallWithin rounds counts.evidence
        = some (shortfallCount counts.evidence))
      ∧ (minSample ≤ counts.evidence.sample →
        ∀ current ≠ PromotionRung.promoted, ∀ n,
          (∃ reason, evaluateLadder current (counts.approve n).evidence true
              false none = .promote reason) ↔
            shortfallCount counts.evidence ≤ n
              ∧ ¬(counts.approve n).evidence.isRegressing) := by
  refine ⟨⟨9 * counts.rejected + 2, fun rounds hrounds => ?_⟩,
    fun hsample current hcurrent n => promotes_approve_iff hbound hsample hcurrent n⟩
  rw [shortfallCount_eq hbound]
  exact shortfallWithin_eq hbound hrounds

/-- A class with 18 approvals and 12 rejections is told the number that
promotes it, and a class without a record is told one. -/
theorem shortfallCount_exact_short :
    let counts : DecisionCounts :=
      { actionClass := "re-dispatch", approved := 18, rejected := 12 }
    (∃ enough, ∀ rounds ≥ enough, shortfallWithin rounds counts.evidence
        = some (shortfallCount counts.evidence))
      ∧ ∀ n, (∃ reason, evaluateLadder .measure (counts.approve n).evidence true
            false none = .promote reason) ↔
          shortfallCount counts.evidence ≤ n
            ∧ ¬(counts.approve n).evidence.isRegressing := by
  have hexact := @shortfallCount_exact
    { actionClass := "re-dispatch", approved := 18, rejected := 12 } (by norm_num)
  exact ⟨hexact.1, hexact.2 (by decide) .measure (by decide)⟩

/-! ## The record that is gathered -/

section Record

variable {localeCompare : String → String → Ordering}
  {lifetimeProposals recentProposals : List ProposalRates}
  {lifetimeApprovals recentApprovals : List ApprovalRates} {item : ClassEvidence}

theorem countsOf_concat {α : Type} (rows : List α) (row : α) (classOf : α → String)
    (count : α → ℕ) :
    countsOf (rows ++ [row]) classOf count (classOf row)
      = countsOf rows classOf count (classOf row) + count row := by
  simp [countsOf]

/-- **Approvals that come in are counted as the advice counts them**: gathered with
so many more of them, all recent, the record of a class is the record with as many
more approvals. -/
theorem gatherEvidence_approve
    (hitem : item ∈ (gatherEvidence localeCompare lifetimeProposals
      recentProposals lifetimeApprovals recentApprovals).items) :
    ∃ counts : DecisionCounts, item = counts.evidence ∧ ∀ n,
      (counts.approve n).evidence ∈ (gatherEvidence localeCompare
        lifetimeProposals recentProposals
        (lifetimeApprovals ++ [⟨item.actionClass, n, 0⟩])
        (recentApprovals ++ [⟨item.actionClass, n, 0⟩])).items := by
  unfold gatherEvidence at hitem ⊢
  dsimp only at hitem ⊢
  rw [Preference.mem_rank, List.mem_map] at hitem
  obtain ⟨actionClass, hclass, rfl⟩ := hitem
  refine ⟨{ actionClass := actionClass
            approved := _
            rejected := _
            recentApproved := _
            recentRejected := _
            fromProposals := _
            fromApprovals := _ }, rfl, fun n => ?_⟩
  rw [Preference.mem_rank, List.mem_map]
  refine ⟨actionClass, ?_, ?_⟩
  · rw [List.mem_dedup] at hclass ⊢
    simp only [List.map_append, List.mem_append] at hclass ⊢
    tauto
  · have hcount : ∀ (rows : List ApprovalRates) (count : ApprovalRates → ℕ),
        countsOf (rows ++ [⟨actionClass, n, 0⟩]) (·.actionClass) count actionClass
          = countsOf rows (·.actionClass) count actionClass
            + count ⟨actionClass, n, 0⟩ :=
      fun rows count => countsOf_concat rows ⟨actionClass, n, 0⟩ (·.actionClass) count
    simp only [hcount, DecisionCounts.evidence, DecisionCounts.approve, Nat.add_zero,
      Nat.add_assoc, Nat.add_right_comm _ n]

/-- **The advice on a gathered record is the rule**: with so many approvals more in
the history, the class is promoted as soon as there are as many as advised, unless
its recent window still fails. -/
theorem promotes_gathered
    (hitem : item ∈ (gatherEvidence localeCompare lifetimeProposals
      recentProposals lifetimeApprovals recentApprovals).items)
    (hbound : 30 * item.rejected ≤ 2 ^ 53) (hsample : minSample ≤ item.sample)
    {current : PromotionRung} (hcurrent : current ≠ .promoted) (n : ℕ) :
    ∃ later ∈ (gatherEvidence localeCompare lifetimeProposals recentProposals
        (lifetimeApprovals ++ [⟨item.actionClass, n, 0⟩])
        (recentApprovals ++ [⟨item.actionClass, n, 0⟩])).items,
      later.actionClass = item.actionClass
        ∧ ((∃ reason, evaluateLadder current later true false none
            = .promote reason) ↔
          shortfallCount item ≤ n ∧ ¬later.isRegressing) := by
  obtain ⟨counts, rfl, hlater⟩ := gatherEvidence_approve hitem
  exact ⟨(counts.approve n).evidence, hlater n, rfl,
    promotes_approve_iff hbound hsample hcurrent n⟩

end Record

/-- The first count of rejections at which the number is one too high. -/
def manyRejections : DecisionCounts where
  actionClass := "re-dispatch"
  rejected := 300239975158034

/-- **One approval fewer than advised promotes** where the rejections are one
more than `2 ^ 53 / 30`. -/
theorem promotes_below_shortfall :
    ¬∀ counts : DecisionCounts, minSample ≤ counts.evidence.sample →
      ∀ current ≠ PromotionRung.promoted, ∀ n,
        (∃ reason, evaluateLadder current (counts.approve n).evidence true false
            none = .promote reason) →
          shortfallCount counts.evidence ≤ n := by
  intro h
  have hcount : shortfallCount manyRejections.evidence = 2702159776422306 := by
    decide +kernel
  have hpromotes : ∃ reason, evaluateLadder .measure
      (manyRejections.approve 2702159776422305).evidence true false none
        = .promote reason := by
    rw [promotes_iff (by decide)]
    decide +kernel
  have hle := h manyRejections (by decide) .measure (by decide) _ hpromotes
  rw [hcount] at hle
  omega

end Opifex
