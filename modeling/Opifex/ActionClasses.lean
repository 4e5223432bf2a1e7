import Mathlib.Data.List.Nodup

/-!
# The action classes

The closed registry of what a supervisor may propose. A class is looked up by
its id as it stands in a row or a request, so an id that names no class can
reach every one of these functions.
-/

namespace Opifex

/-- How far the effect of an action can be taken back. The timeout policy of an approval
asks for it. -/
inductive ActionReversibility where
  | reversible
  | reversibleWithEffort
  | irreversible
deriving DecidableEq, Repr

/-- The ids of the registry. Rows and requests carry an id as a text, which need not be
one of these. -/
inductive ActionClassId where
  | runDiagnosis
  | reDispatch
  | decomposition
  | issueShaping
  | specQualityFeedback
  | dailyBrief
  | quarantineDecision
deriving DecidableEq, Repr

/-- The id as rows and requests write it. No two classes have one name. -/
def ActionClassId.name : ActionClassId → String
  | .runDiagnosis => "run-diagnosis"
  | .reDispatch => "re-dispatch"
  | .decomposition => "decomposition"
  | .issueShaping => "issue-shaping"
  | .specQualityFeedback => "spec-quality-feedback"
  | .dailyBrief => "daily-brief"
  | .quarantineDecision => "quarantine-decision"

/-- What the registry says of a class. `autonomyEligible` is whether the class may ever
act without a human; `hasProposer` is whether anything proposes it; `spendsMoney` is
whether its approved effect costs more than the invocation that proposed it. -/
structure ActionClass where
  id : ActionClassId
  reversibility : ActionReversibility
  autonomyEligible : Bool
  hasProposer : Bool
  spendsMoney : Bool
deriving DecidableEq

/-- **The registry**, in the order of the source. Every question about a class is
answered from here. -/
def actionClasses : List ActionClass :=
  [⟨.runDiagnosis, .reversible, true, true, false⟩,
    ⟨.reDispatch, .reversibleWithEffort, true, false, true⟩,
    ⟨.decomposition, .reversibleWithEffort, true, true, true⟩,
    ⟨.issueShaping, .reversibleWithEffort, true, true, true⟩,
    ⟨.specQualityFeedback, .reversible, true, true, false⟩,
    ⟨.dailyBrief, .reversible, true, true, false⟩,
    ⟨.quarantineDecision, .reversibleWithEffort, false, false, false⟩]

/-- The registry entry for an id, if one is registered. The id is any text. -/
def getActionClass (id : String) : Option ActionClass :=
  actionClasses.find? fun registered => registered.id.name == id

/-- Whether an id is registered. -/
def isActionClass (id : String) : Bool := (getActionClass id).isSome

/-- Whether a class may act without a human. What is not registered may not. -/
def isAutonomyEligible (id : String) : Bool :=
  (getActionClass id).any (·.autonomyEligible)

/-- Whether the approved effect of a class spends money. What is not registered does
not. -/
def spendsMoney (id : String) : Bool := (getActionClass id).any (·.spendsMoney)

end Opifex
