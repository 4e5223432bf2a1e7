import Opifex.Lib.Preference
import Opifex.Runner

/-!
# Which runner gets a work order

`decideDispatch` is a pure function of a work order's needs, the fleet and the
limits. It judges every enabled runner by a chain of early returns, ranks the
verdicts by `byPreference` and takes the first eligible one.

The chain is one definition, `judge`, and it is characterised once
(`judge_eligible`): **a verdict is eligible exactly when the runner meets every
need, serves the tier, is available, has quota and a free slot, and is not a
load-bearing preview**. The rest follows from that and from the ranking being a
linear order on runners with distinct keys, so neither the choice nor its
classification depends on the order the database returned the fleet in.
-/

namespace Opifex

/-! ## What routing reads -/

/-- What is known about one runner's quota, already resolved against a
clock. -/
structure RunnerQuotaPosition where
  exhausted : Bool
  resumesAt : Option String
  basis : String
deriving DecidableEq

/-- How a runner is doing right now: what it can do, whether it is enabled, how many
runs it has, and what is known of its quota. -/
structure RunnerPoolEntry where
  capabilities : RunnerCapabilities
  enabled : Bool
  liveRuns : ℕ
  /-- Absent means nothing was observed, which routes freely. -/
  quota : Option RunnerQuotaPosition
deriving DecidableEq

/-- The pool entry's runner key. -/
def RunnerPoolEntry.key (entry : RunnerPoolEntry) : RunnerKey :=
  entry.capabilities.key

/-- The limits of the fleet, with how much of them is used, and whether a runner in
preview may carry work that has no other. -/
structure DispatchLimits where
  globalMaxConcurrent : Option ℕ
  globalLiveRuns : ℕ
  allowPreviewWithoutGaFallback : Bool
deriving DecidableEq

/-- What a work order asks of routing: the capabilities it needs, and the tier of its
model if it names one. -/
structure DispatchInput where
  needs : List RunnerNeed
  modelTier : Option ModelTier
deriving DecidableEq

/-! ## What routing answers -/

/-- The two outcomes of a decision. A work order that is not dispatched stays queued;
routing never gives one up. -/
inductive DispatchOutcome where
  | dispatch
  | queued
deriving DecidableEq, Repr

/-- Why a work order is not being dispatched. The last three come from spend
admission, not from routing. -/
inductive QueueReason where
  | noRunnersRegistered
  | allRunnersDisabled
  | noRunnerHasTheCapabilities
  | noRunnerServesTheModelTier
  | capableRunnersAreAtCapacity
  | capableRunnersQuotaExhausted
  | globalConcurrencyReached
  | onlyPreviewRunnersAndNoGaFallback
  | noHardSpendCeilingConfigured
  | hardSpendCeilingReached
  | workOrderCannotBeBudgeted
deriving DecidableEq, Repr

/-- What routing concluded about one runner. A runner that is not eligible is listed all
the same, with the reason, so that a decision can be explained. -/
structure CandidateVerdict where
  runnerKey : RunnerKey
  eligible : Bool
  reason : String
  unmetNeeds : List RunnerNeed
  headroom : ℕ
  quota : Option RunnerQuotaPosition
deriving DecidableEq

/-- One capable runner that was out of quota when routing decided, and when its quota is
expected back. -/
structure ExhaustedRunner where
  runnerKey : RunnerKey
  resumesAt : Option String
  basis : String
deriving DecidableEq

/-- A park that quota-aware routing prevented: one per dispatch, however many
runners were spent. -/
structure AvoidedPark where
  chosenRunnerKey : RunnerKey
  exhausted : List ExhaustedRunner
deriving DecidableEq

/-- **The decision**: a runner, or a reason to queue, and what was said of every
candidate. -/
structure DispatchDecision where
  outcome : DispatchOutcome
  runnerKey : Option RunnerKey
  queueReason : Option QueueReason
  reason : String
  candidates : List CandidateVerdict
  avoidedQuotaPark : Bool
  avoidedPark : Option AvoidedPark
deriving DecidableEq

/-! ## Capabilities against needs -/

/-- Whether one capability manifest satisfies one declared need. -/
def satisfies (need : RunnerNeed) (capabilities : RunnerCapabilities) : Bool :=
  match need with
  | .fullStreaming => capabilities.streamingFidelity == .full
  | .costReporting => capabilities.reportsCost
  | .structuredRateLimits => capabilities.rateLimitSignal == .structured
  | .ownInfrastructure => capabilities.executionLocus == .ownInfrastructure

/-- Whether a runner serves the tier the work order asked for. No tier on
either side means anything goes. -/
def servesTier (modelTier : Option ModelTier)
    (capabilities : RunnerCapabilities) : Bool :=
  match modelTier with
  | none => true
  | some tier =>
    match capabilities.modelTiers with
    | none => true
    | some [] => true
    | some served => served.contains tier

/-- Whether a runner can take work right now. Absent means available. -/
def isAvailable (capabilities : RunnerCapabilities) : Bool :=
  capabilities.available != some false

/-- Needs this runner cannot meet. -/
def unmetNeeds (needs : List RunnerNeed) (capabilities : RunnerCapabilities) :
    List RunnerNeed :=
  needs.filter fun need => !satisfies need capabilities

/-- A runner Opifex is not willing to depend on. -/
def isPreview (capabilities : RunnerCapabilities) : Bool :=
  capabilities.stabilityTier != .stable

/-- Whether a quota position, if there is one, is a spent one. -/
def RunnerPoolEntry.quotaExhausted (entry : RunnerPoolEntry) : Bool :=
  match entry.quota with
  | none => false
  | some quota => quota.exhausted

/-- The slots the runner could still take. -/
def RunnerPoolEntry.headroom (entry : RunnerPoolEntry) : ℕ :=
  entry.capabilities.maxConcurrency - entry.liveRuns

/-! ## Judging one runner -/

/-- What is said of a candidate, besides whether and why it is eligible. -/
def verdict (entry : RunnerPoolEntry) (needs : List RunnerNeed)
    (eligible : Bool) (reason : String) : CandidateVerdict where
  runnerKey := entry.key
  eligible := eligible
  reason := reason
  unmetNeeds := unmetNeeds needs entry.capabilities
  headroom := entry.headroom
  quota := entry.quota

/-- A JavaScript string used as a condition: absent and empty are false. -/
def truthyText (text : Option String) : Option String :=
  text.filter fun s => s != ""

/-- Why a runner that reports itself unavailable was refused: its own
sentence, verbatim, when it gave one. -/
def unavailableText (capabilities : RunnerCapabilities) : String :=
  match truthyText capabilities.unavailableReason with
  | some reason => "reports it cannot take work right now: " ++ reason
  | none => "reports it cannot take work right now, and gave no reason"

/-- What is said of a candidate that is out of quota, with the date if there is one. -/
def quotaText (quota : RunnerQuotaPosition) : String :=
  match truthyText quota.resumesAt with
  | some resumesAt =>
    "is out of quota until " ++ resumesAt ++ " (" ++ quota.basis ++ ")"
  | none => "is out of quota (" ++ quota.basis ++ ")"

/-- The two refusals that leave no field behind in a verdict, and could not be told
apart from its fields. -/
inductive Refusal where
  | tier
  | loadBearingPreview
deriving DecidableEq, Repr

/-- A verdict, and the refusal recorded at the branch that decided it. The code returns
the verdict alone; the refusal is what the reasons are checked against. -/
structure Judgement where
  verdict : CandidateVerdict
  refusal : Option Refusal
deriving DecidableEq

/-- Whether some enabled stable runner could take this very work order. A
fallback that is momentarily full is still a fallback. -/
def hasGaFallback (input : DispatchInput) (enabled : List RunnerPoolEntry) :
    Bool :=
  enabled.any fun entry =>
    !isPreview entry.capabilities &&
      (unmetNeeds input.needs entry.capabilities).isEmpty &&
      servesTier input.modelTier entry.capabilities

/-- The chain of early returns that judges one enabled runner. -/
def judge (input : DispatchInput) (limits : DispatchLimits) (gaFallback : Bool)
    (entry : RunnerPoolEntry) : Judgement :=
  let capabilities := entry.capabilities
  let unmet := unmetNeeds input.needs capabilities
  let tierText := capabilities.stabilityTier.name
  if !unmet.isEmpty then
    ⟨verdict entry input.needs false
      ("does not advertise " ++ ", ".intercalate (unmet.map RunnerNeed.name)),
      none⟩
  else if !servesTier input.modelTier capabilities then
    ⟨verdict entry input.needs false
      ("serves model tier(s) " ++
        ", ".intercalate
          ((capabilities.modelTiers.getD []).map ModelTier.name) ++
        " and this work order asked for '" ++
        (input.modelTier.map ModelTier.name).getD "undefined" ++ "'"),
      some .tier⟩
  else if !isAvailable capabilities then
    ⟨verdict entry input.needs false (unavailableText capabilities), none⟩
  else if entry.quotaExhausted then
    ⟨verdict entry input.needs false
      ((entry.quota.map quotaText).getD ""), none⟩
  else if isPreview capabilities && !gaFallback &&
      !limits.allowPreviewWithoutGaFallback then
    ⟨verdict entry input.needs false
      ("declares stability tier '" ++ tierText ++ "' and no GA runner can " ++
        "take this work order, so selecting it would make a preview runner " ++
        "load-bearing"),
      some .loadBearingPreview⟩
  else if isPreview capabilities && !gaFallback && 0 < entry.headroom then
    ⟨verdict entry input.needs true
      ("declares stability tier '" ++ tierText ++ "' with no GA fallback, " ++
        "permitted because the operator has acknowledged a load-bearing " ++
        "preview runner"),
      none⟩
  else if entry.headroom = 0 then
    ⟨verdict entry input.needs false
      ("is at its concurrency limit of " ++
        toString capabilities.maxConcurrency), none⟩
  else
    ⟨verdict entry input.needs true
      "meets every declared need and has headroom", none⟩

/-! ## Ranking and diagnosing -/

/-- The order routing ranks candidates by: eligible before ineligible, more
headroom first, and the key as the last tiebreak. -/
def byPreference (a b : CandidateVerdict) : Ordering :=
  if a.eligible != b.eligible then (if a.eligible then .lt else .gt)
  else if a.headroom != b.headroom then compare b.headroom a.headroom
  else compare a.runnerKey b.runnerKey

/-- The keys collected while judging, one set per refusal. -/
def refusedKeys (refusal : Refusal) (judged : List Judgement) :
    List RunnerKey :=
  (judged.filter fun j => j.refusal = some refusal).map (·.verdict.runnerKey)

/-- Which of several failures to report, by what an operator would have to do
about it. -/
def diagnose (candidates : List CandidateVerdict)
    (tier loadBearingPreview quotaExhausted : List RunnerKey) : QueueReason :=
  let meetsNeeds := candidates.filter fun c => c.unmetNeeds.isEmpty
  let capable := meetsNeeds.filter fun c => !tier.contains c.runnerKey
  if meetsNeeds.isEmpty then .noRunnerHasTheCapabilities
  else if capable.isEmpty then .noRunnerServesTheModelTier
  else if capable.all fun c => loadBearingPreview.contains c.runnerKey then
    .onlyPreviewRunnersAndNoGaFallback
  else if !quotaExhausted.isEmpty then .capableRunnersQuotaExhausted
  else .capableRunnersAreAtCapacity

/-- The needs of a work order, as the sentences list them. -/
def needsText (needs : List RunnerNeed) : String :=
  if needs.isEmpty then "no specific capabilities"
  else ", ".intercalate (needs.map RunnerNeed.name)

/-- The sentence of a work order that no runner can take: what is said of each
candidate. -/
def explain (candidates : List CandidateVerdict) (needs : List RunnerNeed) :
    String :=
  "Queued: no runner can take this work order (needs " ++ needsText needs ++
    "). " ++
    "; ".intercalate
      (candidates.map fun c => c.runnerKey.val ++ " " ++ c.reason) ++ "."

/-- Queued, never failed: nothing moved, so no park was avoided. -/
def queued (queueReason : QueueReason) (reason : String)
    (candidates : List CandidateVerdict) : DispatchDecision where
  outcome := .queued
  runnerKey := none
  queueReason := some queueReason
  reason := reason
  candidates := candidates
  avoidedQuotaPark := false
  avoidedPark := none

/-! ## The decision -/

/-- The fleet is at the limit that does not depend on which runner would have
been chosen. -/
def atGlobalLimit (limits : DispatchLimits) : Bool :=
  match limits.globalMaxConcurrent with
  | none => false
  | some globalMaxConcurrent => globalMaxConcurrent ≤ limits.globalLiveRuns

/-- Capable runners whose quota is observably spent. -/
def quotaExhaustedEntries (input : DispatchInput)
    (enabled : List RunnerPoolEntry) : List RunnerPoolEntry :=
  enabled.filter fun entry =>
    entry.quotaExhausted &&
      (unmetNeeds input.needs entry.capabilities).isEmpty &&
      servesTier input.modelTier entry.capabilities

/-- A runner that was passed over for its quota. -/
def exhaustedRunner (entry : RunnerPoolEntry) : ExhaustedRunner where
  runnerKey := entry.key
  resumesAt := entry.quota.bind (·.resumesAt)
  basis := (entry.quota.map (·.basis)).getD "reported out of quota"

/-- The park avoided by choosing `chosen`, as a record. -/
def avoidedParkOf (quotaExhausted : List RunnerPoolEntry)
    (chosen : CandidateVerdict) : Option AvoidedPark :=
  let keys := (quotaExhausted.map (·.key)).eraseDups
  if 0 < keys.length && !keys.contains chosen.runnerKey then
    some
      { chosenRunnerKey := chosen.runnerKey
        exhausted :=
          Preference.rank (compareOn (·.runnerKey))
            (quotaExhausted.map exhaustedRunner) }
  else none

/-- The sentence a dispatch that avoided a park ends with. -/
def avoidedParkText (quotaExhausted : List RunnerPoolEntry) : String :=
  let keys := (quotaExhausted.map (·.key)).eraseDups
  " Quota-aware routing avoided a park: " ++
    ", ".intercalate ((Preference.rank compare keys).map (·.val)) ++
    " could have taken this work order but " ++
    (if keys.length = 1 then "is" else "are") ++ " out of quota."

/-- Every enabled runner's judgement, in the order of the pool. -/
def judgements (input : DispatchInput) (limits : DispatchLimits)
    (enabled : List RunnerPoolEntry) : List Judgement :=
  enabled.map (judge input limits (hasGaFallback input enabled))

/-- Every enabled runner's verdict, ranked. -/
def rankedCandidates (input : DispatchInput) (limits : DispatchLimits)
    (enabled : List RunnerPoolEntry) : List CandidateVerdict :=
  Preference.rank byPreference
    ((judgements input limits enabled).map (·.verdict))

/-- No runner is enabled. An empty fleet and a disabled one are opposite
events, told apart in both the code and the sentence. -/
def noneEnabled (pool : List RunnerPoolEntry) : DispatchDecision :=
  let nothingRegistered := pool.isEmpty
  queued
    (if nothingRegistered then .noRunnersRegistered else .allRunnersDisabled)
    (if nothingRegistered then "No runners are registered."
      else "All " ++ toString pool.length ++
        " registered runner(s) are disabled.")
    (pool.map fun entry =>
      { runnerKey := entry.key
        eligible := false
        reason := "disabled by an operator"
        unmetNeeds := []
        headroom := 0
        quota := none })

/-- The decision while the fleet is at its limit, which no candidate is judged in. -/
def fleetAtLimit (input : DispatchInput) (limits : DispatchLimits)
    (enabled : List RunnerPoolEntry) : DispatchDecision :=
  queued .globalConcurrencyReached
    ("The fleet is at its global limit of " ++
      toString (limits.globalMaxConcurrent.getD 0) ++ " concurrent run(s).")
    (enabled.map fun entry =>
      verdict entry input.needs false "the fleet is at its global limit")

/-- The decision when every candidate was refused. The code is that of the most telling
refusal. -/
def noneEligible (input : DispatchInput) (limits : DispatchLimits)
    (enabled : List RunnerPoolEntry) : DispatchDecision :=
  let judged := judgements input limits enabled
  let candidates := rankedCandidates input limits enabled
  queued
    (diagnose candidates (refusedKeys .tier judged)
      (refusedKeys .loadBearingPreview judged)
      ((quotaExhaustedEntries input enabled).map (·.key)))
    (explain candidates input.needs) candidates

/-- The decision for a chosen runner, with the park that choosing it avoided. -/
def dispatchTo (input : DispatchInput) (limits : DispatchLimits)
    (enabled : List RunnerPoolEntry) (chosen : CandidateVerdict) :
    DispatchDecision :=
  let exhausted := quotaExhaustedEntries input enabled
  let candidates := rankedCandidates input limits enabled
  let avoidedPark := avoidedParkOf exhausted chosen
  { outcome := .dispatch
    runnerKey := some chosen.runnerKey
    queueReason := none
    reason :=
      "Dispatch to " ++ chosen.runnerKey.val ++ ": it " ++ chosen.reason ++
        " (" ++ needsText input.needs ++ "), with " ++
        toString chosen.headroom ++ " slot(s) free. Considered " ++
        toString candidates.length ++ " runner(s)." ++
        (if avoidedPark.isSome then avoidedParkText exhausted else "")
    candidates := candidates
    avoidedQuotaPark := avoidedPark.isSome
    avoidedPark := avoidedPark }

/-- **Choose a runner, or say precisely why not.** -/
def decideDispatch (input : DispatchInput) (pool : List RunnerPoolEntry)
    (limits : DispatchLimits) : DispatchDecision :=
  let enabled := pool.filter (·.enabled)
  if enabled.isEmpty then noneEnabled pool
  else if atGlobalLimit limits then fleetAtLimit input limits enabled
  else
    match (rankedCandidates input limits enabled).find? (·.eligible) with
    | none => noneEligible input limits enabled
    | some chosen => dispatchTo input limits enabled chosen

end Opifex
