import Opifex.ActionClasses
import Opifex.Lib.Double
import Opifex.Lib.Instant
import Opifex.Lib.Rounding
import Opifex.Lib.Text

/-!
# The promotion policy

What the ladder concludes about a class from the human decisions on record:
six rules, of which the first that matches decides. A promotion reads the
lifetime record, a demotion the recent window, and a promotion is not made
where the recent window would demote. Nothing here reads a clock or a table.

Rates and thresholds are doubles: a quotient, and 0.9 and 0.7 themselves, are
what the nearest double makes of them.
-/

namespace Opifex

open Double (nearest)
open Text (toDouble)

/-! ## The thresholds -/

/-- How many human decisions a promotion rests on. -/
def minSample : ℕ := 20

/-- The approval rate that a class is promoted at: the double nearest to nine tenths. -/
def promotionRate : ℚ := nearest (9 / 10)

/-- The rate below which a class is demoted: the double nearest to seven tenths. Between
the two rates nothing changes. -/
def demotionRate : ℚ := nearest (7 / 10)

/-- How many recent decisions a demotion rests on. -/
def demotionMinSample : ℕ := 5

/-- How far back the recent decisions reach. -/
def regressionWindowDays : ℕ := 14

/-- How long a demotion by hand keeps a class from being promoted again. -/
def manualHoldDays : ℕ := regressionWindowDays

/-! ## The evidence -/

/-- What is on record about one class. A rate is none where nothing was
decided. -/
structure ClassEvidence where
  actionClass : String
  approved : ℕ := 0
  rejected : ℕ := 0
  sample : ℕ := 0
  rate : Option ℚ := none
  recentApproved : ℕ := 0
  recentRejected : ℕ := 0
  recentSample : ℕ := 0
  recentRate : Option ℚ := none
  fromProposals : ℕ := 0
  fromApprovals : ℕ := 0
deriving DecidableEq

/-- A class of which nothing is on record. -/
def emptyEvidence (actionClass : String) : ClassEvidence := { actionClass }

/-- The share of approvals among the decisions, as the division of doubles gives it.
There is none without decisions. -/
def rateOf (approved rejected : ℕ) : Option ℚ :=
  if approved + rejected = 0 then none
  else some (nearest (approved / nearest (approved + rejected : ℕ)))

/-! ## The verdict -/

/-- The rungs of the ladder. Only on the last does a class act without a human; on the
first there is too little to judge it by. -/
inductive PromotionRung where
  | observe
  | measure
  | promoted
deriving DecidableEq, Repr

/-- The rung as its column spells it. -/
def PromotionRung.name : PromotionRung → String
  | .observe => "observe"
  | .measure => "measure"
  | .promoted => "promoted"

/-- Why a class changed its rung, as the row of the change records it. All but the first
are demotions. -/
inductive PromotionChangeReason where
  | promotedOnEvidence
  | demotedOnRegression
  | demotedIneligible
  | demotedManually
deriving DecidableEq, Repr

/-- `reason.startsWith('demoted')`. -/
def PromotionChangeReason.isDemotion : PromotionChangeReason → Bool
  | .promotedOnEvidence => false
  | _ => true

/-- What the policy concludes: a change of the rung with its reason, or none with what
it waits for. -/
inductive LadderVerdict where
  | promote (reason : String)
  | demote (reason : PromotionChangeReason) (detail : String)
  | hold (detail : String)
deriving DecidableEq

/-- A hand-demotion's hold that is standing: until when, and who placed it. -/
structure ManualHold where
  heldUntil : Instant
  heldById : Option ℕ
deriving DecidableEq

namespace ClassEvidence

/-- **`isRegressing`**: the recent window says that the class is failing. -/
def isRegressing (evidence : ClassEvidence) : Bool :=
  demotionMinSample ≤ evidence.recentSample &&
    evidence.recentRate.any (· < demotionRate)

/-- The lifetime record clears the bar. -/
def clearsBar (evidence : ClassEvidence) : Bool :=
  minSample ≤ evidence.sample && evidence.rate.any (promotionRate ≤ ·)

end ClassEvidence

/-! ## The sentences -/

/-- A number of tenths as JavaScript prints it. -/
def tenths (n : ℤ) : String :=
  (if n < 0 then "-" else "") ++ toString (n.natAbs / 10) ++
    if n.natAbs % 10 = 0 then "" else "." ++ toString (n.natAbs % 10)

/-- A rate in per cent with one decimal, as the sentences of the policy print it. -/
def pct : Option ℚ → String
  | none => "no evidence"
  | some rate => tenths (Rounding.round (nearest (rate * 1000))) ++ "%"

/-- The promotion test of a record. -/
def meetsPromotionRate (approved rejected : ℕ) : Bool :=
  (rateOf approved rejected).any (promotionRate ≤ ·)

/-- The correction of an estimate against the test itself, none where the
rounds given do not end it. -/
def correctShortfall (approved rejected : ℕ) : ℕ → ℕ → Option ℕ
  | 0, _ => none
  | rounds + 1, needed =>
    if meetsPromotionRate (toDouble (approved + needed)) rejected then
      some needed
    else correctShortfall approved rejected rounds (toDouble (needed + 1))

/-- The closed form for the shortfall, rounded at every operation. -/
def estimateShortfall (approved rejected : ℕ) : ℤ :=
  let rest := nearest (1 - promotionRate)
  ⌈nearest
    (nearest (nearest (promotionRate * rejected) - nearest (rest * approved))
      / rest)⌉

/-- **`shortfallCount`**: how many approvals more would reach the promotion
rate, counted up from one below the estimate for as many rounds as given. -/
def shortfallWithin (rounds : ℕ) (evidence : ClassEvidence) : Option ℕ :=
  let estimate := estimateShortfall evidence.approved evidence.rejected
  let needed := toDouble (max 0 (estimate - 1)).toNat
  correctShortfall evidence.approved evidence.rejected rounds needed

/-- What `shortfallCount` returns, of the rounds that reach the rate at the
latest. -/
def shortfallCount (evidence : ClassEvidence) : ℕ :=
  (shortfallWithin (9 * evidence.rejected + 2) evidence).getD 0

/-- **`holdDetail`**: what would be needed to promote, or what keeps a promoted
class where it is. -/
def holdDetail (current : PromotionRung) (evidence : ClassEvidence) : String :=
  let window := toString regressionWindowDays
  if current = .promoted then
    if evidence.recentSample < demotionMinSample then
      "Promoted, and holding: only " ++ toString evidence.recentSample ++
        " human decision(s) in the last " ++ window ++ " days, below the " ++
          toString demotionMinSample ++ " a demotion must rest on. Too " ++
            "little recent evidence is not evidence of good behaviour — it " ++
              "is a class nobody has checked lately."
    else
      "Promoted, and holding: recent rate " ++ pct evidence.recentRate ++
        " over " ++ toString evidence.recentSample ++ " decision(s) is at " ++
          "or above the " ++ pct (some demotionRate) ++ " demotion threshold."
  else if evidence.sample = 0 then
    "No human has judged a single decision of this class, so it has NO " ++
      "evidence — which is not the same as bad evidence. " ++
        toString minSample ++ " human decision(s) at " ++
          pct (some promotionRate) ++ " or better are needed to promote."
  else if evidence.sample < minSample then
    toString evidence.sample ++ " of " ++ toString minSample ++
      " samples, rate " ++ pct evidence.rate ++ ": " ++
        toString (minSample - evidence.sample) ++ " more needed" ++
          if evidence.rate.any (· < promotionRate) then
            ", and the rate must also reach " ++ pct (some promotionRate) ++ "."
          else "."
  else
    toString evidence.sample ++ " of " ++ toString minSample ++
      " samples, rate " ++ pct evidence.rate ++ ": the sample is sufficient " ++
        "but the rate is below the " ++ pct (some promotionRate) ++
          " promotion threshold. " ++ toString (shortfallCount evidence) ++
            " more approval(s) at the current rejection count would reach it."

/-- What the ladder says of a class that is held by hand. -/
def manualHoldDetail (current : PromotionRung) (evidence : ClassEvidence)
    (hold : ManualHold) : String :=
  "\"" ++ evidence.actionClass ++ "\" was demoted BY HAND" ++
    ((hold.heldById.map fun heldById => " by user " ++ toString heldById).getD
      "") ++ ", and the ladder may not promote it back until " ++
    Instant.toISOString hold.heldUntil ++ ". The hold runs for " ++
    toString manualHoldDays ++ " days, the same window a regression is " ++
    "measured over: an operator demotes a class because they know something " ++
    "its record does not yet contain, and that is how long the record takes " ++
    "to contain it. When the hold lifts the class is judged again on the " ++
    "numbers, with no memory of this — so if the concern was real it will " ++
    "show up as a regression by then, and if it was not the class promotes. " ++
    "Demoting it again places a fresh hold; doing nothing lets this one " ++
    "lapse. Note that the hold governs the RUNG only — the trust grants " ++
    "suspended by the demotion stay suspended either way, and nothing " ++
    "recreates one but a human tapping \"always approve this class\". " ++
    "Underlying position: " ++ holdDetail current evidence

/-! ## The rules -/

/-- **`evaluateLadder`**: the rules in order, the first that matches. -/
def evaluateLadder (current : PromotionRung) (evidence : ClassEvidence)
    (eligible paused : Bool) (hold : Option ManualHold) : LadderVerdict :=
  let record :=
    toString evidence.approved ++ "/" ++ toString evidence.sample
  let window := toString regressionWindowDays
  if !eligible then
    if current = .promoted then
      .demote .demotedIneligible
        ("\"" ++ evidence.actionClass ++ "\" is not autonomy-eligible in the " ++
          "action-class registry (ADR-0011) and must not stand on the " ++
            "promoted rung. Its record (" ++ record ++ " approved) is " ++
              "irrelevant to this: ineligibility is a declaration about what " ++
                "may ever run unattended, not an assessment of how well it " ++
                  "has done so far.")
    else
      .hold
        ("\"" ++ evidence.actionClass ++ "\" is not autonomy-eligible and " ++
          "can never be promoted, whatever its record. Nothing it " ++
            "accumulates changes that.")
  else if paused then
    .hold
      ("The promotion ladder is paused (PROMOTION_LADDER_ENABLED is not " ++
        "true). \"" ++ evidence.actionClass ++ "\" stays on the " ++
          current.name ++ " rung: a pause suspends the ladder, not the " ++
            "grants it has already justified.")
  else if current = .promoted ∧ evidence.isRegressing then
    .demote .demotedOnRegression
      ("Recent approval rate " ++ pct evidence.recentRate ++ " over " ++
        toString evidence.recentSample ++ " human decision(s) in the last " ++
          window ++ " days (" ++ toString evidence.recentApproved ++
            " approved, " ++ toString evidence.recentRejected ++
              " rejected) is below the " ++ pct (some demotionRate) ++
                " demotion threshold. Lifetime rate is " ++
                  pct evidence.rate ++ " over " ++ toString evidence.sample ++
                    ", which is why this is measured on the window: a " ++
                      "lifetime average would hide a recent regression " ++
                        "behind old successes.")
  else
    match hold with
    | some hold => .hold (manualHoldDetail current evidence hold)
    | none =>
      if current ≠ .promoted ∧ evidence.clearsBar then
        -- never promote into an immediate demotion
        if evidence.isRegressing then
          .hold
            ("Lifetime rate " ++ pct evidence.rate ++ " over " ++
              toString evidence.sample ++ " decision(s) clears the " ++
                pct (some promotionRate) ++ " promotion threshold, but " ++
                  "recent rate " ++ pct evidence.recentRate ++ " over " ++
                    toString evidence.recentSample ++ " decision(s) in the " ++
                      "last " ++ window ++ " days is below the " ++
                        pct (some demotionRate) ++ " demotion threshold. " ++
                          "Promoting would be undone by the next " ++
                            "evaluation, so the good lifetime record is " ++
                              "being held against a class that is getting " ++
                                "worse right now.")
        else
          .promote
            ("Approval rate " ++ pct evidence.rate ++ " over " ++
              toString evidence.sample ++ " human decision(s) (" ++
                toString evidence.approved ++ " approved, " ++
                  toString evidence.rejected ++ " rejected; " ++
                    toString evidence.fromProposals ++ " from the review " ++
                      "queue, " ++ toString evidence.fromApprovals ++
                        " from the approval gate) clears the " ++
                          pct (some promotionRate) ++ " threshold at or " ++
                            "above the " ++ toString minSample ++
                              "-decision minimum. Recent rate is " ++
                                pct evidence.recentRate ++ " over " ++
                                  toString evidence.recentSample ++
                                    " in the last " ++ window ++ " days.")
      else .hold (holdDetail current evidence)

/-- **`rungFor`**: where a class belongs, from whether it is promoted and
whether anybody has judged it. -/
def rungFor (promoted : Bool) (evidence : ClassEvidence) : PromotionRung :=
  if promoted then .promoted
  else if 0 < evidence.sample then .measure
  else .observe

/-! ## What the rules come to -/

section Verdicts

variable {current : PromotionRung} {evidence : ClassEvidence}
  {eligible paused : Bool} {hold : Option ManualHold}

/-- **What each rule concludes**, the first that matches. The conditions of a rule
include that those before it did not match. -/
inductive LadderRule (current : PromotionRung) (evidence : ClassEvidence)
    (eligible paused : Bool) (hold : Option ManualHold) :
    LadderVerdict → Prop where
  | promotes (reason : String) (heligible : eligible) (hpaused : ¬paused)
    (hhold : hold = none) (hcurrent : current ≠ .promoted)
    (hclears : evidence.clearsBar) (hfine : ¬evidence.isRegressing) :
    LadderRule current evidence eligible paused hold (.promote reason)
  | demotes (reason : PromotionChangeReason) (detail : String)
    (hreason : reason.isDemotion) (hcurrent : current = .promoted)
    (hwhy : ¬eligible ∨ ¬paused ∧ evidence.isRegressing) :
    LadderRule current evidence eligible paused hold (.demote reason detail)
  | holds (detail : String)
    (hstays : current = .promoted →
      eligible ∧ (paused ∨ ¬evidence.isRegressing))
    (hwaits : current ≠ .promoted → ¬eligible ∨ paused ∨ hold.isSome
      ∨ ¬evidence.clearsBar ∨ evidence.isRegressing) :
    LadderRule current evidence eligible paused hold (.hold detail)

theorem ladderRule_evaluateLadder :
    LadderRule current evidence eligible paused hold
      (evaluateLadder current evidence eligible paused hold) := by
  unfold evaluateLadder
  dsimp only
  by_cases heligible : eligible
  · rw [if_neg (by simpa using heligible)]
    by_cases hpaused : paused
    · rw [if_pos hpaused]
      exact .holds _ (fun _ => ⟨heligible, Or.inl hpaused⟩)
        fun _ => Or.inr (Or.inl hpaused)
    rw [if_neg hpaused]
    by_cases hregresses : current = .promoted ∧ evidence.isRegressing
    · rw [if_pos hregresses]
      exact .demotes _ _ rfl hregresses.1 (Or.inr ⟨hpaused, hregresses.2⟩)
    rw [if_neg hregresses]
    have hstays : current = .promoted →
        eligible ∧ (paused ∨ ¬evidence.isRegressing) :=
      fun hcurrent => ⟨heligible, Or.inr fun h => hregresses ⟨hcurrent, h⟩⟩
    cases hold with
    | some hold =>
      exact .holds _ hstays fun _ => Or.inr (Or.inr (Or.inl rfl))
    | none =>
      dsimp only
      by_cases hclears : current ≠ .promoted ∧ evidence.clearsBar
      · rw [if_pos hclears]
        by_cases hfailing : evidence.isRegressing
        · rw [if_pos hfailing]
          exact .holds _ hstays
            fun _ => Or.inr (Or.inr (Or.inr (Or.inr hfailing)))
        · rw [if_neg hfailing]
          exact .promotes _ heligible hpaused rfl hclears.1 hclears.2 hfailing
      · rw [if_neg hclears]
        refine .holds _ hstays fun hcurrent => ?_
        exact Or.inr (Or.inr (Or.inr (Or.inl fun h => hclears ⟨hcurrent, h⟩)))
  · rw [if_pos (by simpa using heligible)]
    by_cases hcurrent : current = .promoted
    · rw [if_pos hcurrent]
      exact .demotes _ _ rfl hcurrent (Or.inl heligible)
    · rw [if_neg hcurrent]
      exact .holds _ (fun h => absurd h hcurrent) fun _ => Or.inl heligible

end Verdicts

end Opifex
