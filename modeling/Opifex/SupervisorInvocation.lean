import Opifex.ActionClasses
import Opifex.Lib.DecimalText
import Opifex.SpendAdmission

/-!
# One supervisor invocation

An invocation asks whether there is room under the supervisor's own ceiling,
once before it begins and again before every proposer but the first, and writes
one row to the decision log when it ends. What it has spent so far is known to
its meter alone until that row is written.

Everything outside is an input of the tick: the switches, the failures, what
each proposer asks and answers, and whether the log could be written.

A model call is priced in millionths of a dollar, the column of the log keeps
ten-thousandths, and the gate compares cents. In between the source adds
doubles, so every total here is a running total of doubles, in the order in
which the responses came or the rows are read. What was received in truth is
kept beside them, as the list of the prices.
-/

namespace Opifex

/-! ## The gate -/

/-- What the rows of a window add up to: the cents, and how many calls are not in them
for want of a price. -/
structure SupervisorSpendTally where
  reportedUsd : ℚ
  /-- Above zero, the figure is a floor and not a total. -/
  unpricedCalls : ℕ
  invocations : ℕ
  days : ℕ
deriving DecidableEq

/-- The tally of a window without invocations. -/
def noSupervisorSpendTally (days : ℕ) : SupervisorSpendTally :=
  ⟨0, 0, 0, days⟩

/-- Why the ceiling refuses: none is configured, or it is reached. No ceiling blocks
rather than permits. -/
inductive SupervisorSpendRefusal where
  | noSupervisorSpendCeilingConfigured
  | supervisorSpendCeilingReached
deriving DecidableEq, Repr

/-- The answer of the ceiling, with the sentence that the row records. It is asked
before each proposer. -/
inductive SupervisorSpendVerdict where
  | admitted (headroomUsd : ℚ) (reason : String)
  | refuse (refusal : SupervisorSpendRefusal) (reason : String)
deriving DecidableEq

/-- Whether the answer lets an invocation through. -/
def SupervisorSpendVerdict.admits : SupervisorSpendVerdict → Bool
  | .admitted _ _ => true
  | .refuse _ _ => false

/-- The variable that the refusal names. -/
def supervisorSpendCeilingEnv : String := "SUPERVISOR_HARD_SPEND_CEILING_USD"

/-- The spend figure, saying what kind of figure it is. -/
def describeSupervisorSpend (tally : SupervisorSpendTally) : String :=
  let measured :=
    "spent " ++ usd tally.reportedUsd ++ " across " ++
      toString tally.invocations ++ " invocation(s)"
  if tally.unpricedCalls = 0 then measured
  else
    measured ++ ", plus an unknown amount across " ++
      toString tally.unpricedCalls ++ " model call(s) the price table has no " ++
      "rate for — so this figure is a floor, not a total"

/-- **May the supervisor spend anything right now?** -/
def assessSupervisorSpend (ceiling : HardCeiling)
    (tally : SupervisorSpendTally) : SupervisorSpendVerdict :=
  let window := toString tally.days ++ "d"
  match ceiling.malformed, ceiling.limitUsd with
  | some malformed, _ =>
    .refuse .noSupervisorSpendCeilingConfigured
      (supervisorSpendCeilingEnv ++ " is set to " ++ Json.quote malformed ++
        ", which is not a non-negative number. The supervisor refuses to " ++
        "spend against a ceiling that cannot be read.")
  | none, none =>
    .refuse .noSupervisorSpendCeilingConfigured
      ("No supervisor spend ceiling is configured. Set " ++
        supervisorSpendCeilingEnv ++ " to the most you are willing to spend " ++
        "on supervision per " ++ window ++ ". It is separate from " ++
        hardSpendCeilingEnv ++ ", which bounds what dispatch spends on runs.")
  | none, some limit =>
    let spent := describeSupervisorSpend tally
    if limit ≤ tally.reportedUsd then
      .refuse .supervisorSpendCeilingReached
        ("Supervisor spend ceiling reached: " ++ spent ++ " against a " ++
          window ++ " ceiling of " ++ usd limit ++ ". " ++ whoRaisesIt)
    else
      let headroom := cents (Double.nearest (limit - tally.reportedUsd))
      .admitted headroom
        (usd headroom ++ " of headroom under the " ++ window ++
          " supervisor ceiling of " ++ usd limit ++ " (" ++ spent ++ ").")

/-- **`withTickSpend`**: the tally plus what this tick has spent so far. -/
def SupervisorSpendTally.withTickSpend (tally : SupervisorSpendTally)
    (spentThisTickUsd : ℚ) (unpricedThisTick : ℕ) : SupervisorSpendTally :=
  { tally with
    reportedUsd := cents (Double.plus tally.reportedUsd spentThisTickUsd)
    unpricedCalls := tally.unpricedCalls + unpricedThisTick }

theorem assessSupervisorSpend_admits {ceiling : HardCeiling}
    {tally : SupervisorSpendTally} :
    (assessSupervisorSpend ceiling tally).admits
      ↔ ceiling.malformed = none
        ∧ ∃ limit, ceiling.limitUsd = some limit ∧ tally.reportedUsd < limit := by
  unfold assessSupervisorSpend
  cases hmalformed : ceiling.malformed with
  | some malformed => simp [SupervisorSpendVerdict.admits]
  | none =>
    cases hlimit : ceiling.limitUsd with
    | none => simp [SupervisorSpendVerdict.admits]
    | some limit =>
      by_cases hreached : limit ≤ tally.reportedUsd
      · simp [SupervisorSpendVerdict.admits, hreached]
      · simp [SupervisorSpendVerdict.admits, hreached, lt_of_not_ge hreached]

/-! ## The decision log -/

/-- How an invocation ended, as its row has it. A skipped one has a row too, so that a
supervisor that does nothing can be seen to. -/
inductive InvocationOutcome where
  | completed
  /-- It ran, and not everything in it completed. -/
  | endedEarly
  | failed
  | skippedDisabled
  | skippedQuota
  | skippedBudget
deriving DecidableEq, Repr

/-- The outcome as its column spells it. -/
def InvocationOutcome.name : InvocationOutcome → String
  | .completed => "completed"
  | .endedEarly => "partial"
  | .failed => "failed"
  | .skippedDisabled => "skipped_disabled"
  | .skippedQuota => "skipped_quota"
  | .skippedBudget => "skipped_budget"

/-- What an invocation has to say of itself. The column then rounds the cost to
ten-thousandths. -/
structure InvocationDraft where
  startedAt : Instant
  outcome : InvocationOutcome
  /-- The number the meter came to. -/
  costUsd : Option ℚ := none
  unpricedCalls : ℕ := 0
  tokensInput : Option ℕ := none
  tokensOutput : Option ℕ := none
  failureReason : Option String
deriving DecidableEq

/-- A row of the invocations: when it started, how it ended, and what it cost, rounded
into the column. -/
structure InvocationRow where
  startedAt : Instant
  outcome : InvocationOutcome
  costUsd : Option Usd
  unpricedCalls : ℕ
  tokensInput : Option ℕ
  tokensOutput : Option ℕ
  failureReason : Option String
deriving DecidableEq

/-- The amount a column keeps of a number, which reaches it in the digits the
number is printed with. -/
def Usd.ofNumber (number : ℚ) : Usd := Usd.ofRat (Double.decimal number)

/-- The row of a draft. -/
def InvocationDraft.row (draft : InvocationDraft) : InvocationRow where
  startedAt := draft.startedAt
  outcome := draft.outcome
  costUsd := draft.costUsd.map Usd.ofNumber
  unpricedCalls := draft.unpricedCalls
  tokensInput := draft.tokensInput
  tokensOutput := draft.tokensOutput
  failureReason := draft.failureReason

/-- **`record`**: the row is written with its proposals, by their action
classes, or not at all. -/
def recordInvocation (rows : List InvocationRow) (draft : InvocationDraft)
    (proposals : List String) (written : Bool) : List InvocationRow :=
  if proposals.all isActionClass && written then draft.row :: rows else rows

/-- What started inside the trailing window. -/
def startedWithin (days : ℕ) (now startedAt : Instant) : Bool :=
  now - days * Instant.dayMs ≤ startedAt && startedAt ≤ now

/-- What a row says was spent. -/
def InvocationRow.recorded (row : InvocationRow) : Usd := row.costUsd.getD ⟨0⟩

/-- What the rows of the window say was spent, in full. -/
def recordedWithin (days : ℕ) (now : Instant) (rows : List InvocationRow) : ℚ :=
  ((rows.filter (startedWithin days now ·.startedAt)).map
    (·.recorded.toRat)).sum

/-- **`tally`**: what the supervisor has spent on itself over the trailing
days, added up as the rows are read. A row without a cost adds `0`. -/
def supervisorTally (days : ℕ) (now : Instant) (rows : List InvocationRow) :
    SupervisorSpendTally :=
  let invocations := rows.filter (startedWithin days now ·.startedAt)
  { reportedUsd :=
      cents (Double.total (invocations.map (·.recorded.toNumber)))
    unpricedCalls := (invocations.map (·.unpricedCalls)).sum
    invocations := invocations.length
    days := days }

/-! ## The meter -/

/-- What a model call cost, as `priceUsd` rounds it: a number of millionths of
a dollar. -/
structure Price where
  millionths : ℕ
deriving DecidableEq

/-- The price in dollars. -/
def Price.toRat (price : Price) : ℚ := price.millionths / 1000000

/-- The number `priceUsd` returns. -/
def Price.toNumber (price : Price) : ℚ := Double.nearest price.toRat

theorem Price.toRat_nonneg (price : Price) : 0 ≤ price.toRat :=
  div_nonneg (Nat.cast_nonneg _) (by norm_num)

/-- What a list of prices comes to, in full. -/
def totalPrice (prices : List Price) : ℚ := (prices.map (·.toRat)).sum

theorem totalPrice_append (before after : List Price) :
    totalPrice (before ++ after) = totalPrice before + totalPrice after := by
  unfold totalPrice
  rw [List.map_append, List.sum_append]

/-- What a response of the model reports of itself. A price may be missing, and then so
is its part of the total. -/
structure ModelResponse where
  costUsd : Option Price
  tokensInput : Option ℕ
  tokensOutput : Option ℕ
deriving DecidableEq

/-- **`add`**: a reported number on a running total, of which nothing reported
is no total. -/
def addReported {α : Type} (plus : α → α → α) (zero : α)
    (total value : Option α) : Option α :=
  match value with
  | none => total
  | some value => some (plus (total.getD zero) value)

/-- What the responses of a tick add up to. Calls without a price are counted apart, and
a figure with one of them is a floor. -/
structure TickMeter where
  costUsd : Option ℚ := none
  unpricedCalls : ℕ := 0
  tokensInput : Option ℕ := none
  tokensOutput : Option ℕ := none
deriving DecidableEq

/-- **`meter`**: every response is counted, before its proposer sees it. -/
def TickMeter.onResponse (meter : TickMeter) (response : ModelResponse) :
    TickMeter where
  costUsd :=
    addReported Double.plus 0 meter.costUsd
      (response.costUsd.map Price.toNumber)
  unpricedCalls :=
    meter.unpricedCalls + if response.costUsd.isNone then 1 else 0
  tokensInput := addReported (· + ·) 0 meter.tokensInput response.tokensInput
  tokensOutput := addReported (· + ·) 0 meter.tokensOutput response.tokensOutput

/-- The meter counts every cost, in the order in which they come. -/
theorem costUsd_foldl_onResponse (responses : List ModelResponse) :
    ∀ meter : TickMeter,
      (responses.foldl TickMeter.onResponse meter).costUsd.getD 0
        = ((responses.filterMap (·.costUsd)).map Price.toNumber).foldl
            Double.plus (meter.costUsd.getD 0) := by
  induction responses with
  | nil => exact fun _ => rfl
  | cons response rest ih =>
    intro meter
    rw [List.foldl_cons, ih, List.filterMap_cons]
    unfold TickMeter.onResponse addReported
    cases response.costUsd with
    | none => rfl
    | some cost => rfl

/-! ## The proposers -/

/-- What a proposer does when it is started: the model calls it makes, and what it comes
to. -/
structure ProposerTurn where
  /-- What the model answers it. -/
  responses : List ModelResponse
  /-- The action classes of its drafts, or none where it fails. -/
  drafts : Option (List String)
deriving DecidableEq

/-- What its calls cost. -/
def ProposerTurn.calls (proposer : ProposerTurn) : List Price :=
  proposer.responses.filterMap (·.costUsd)

/-- A proposer that was started, with what had been received before it and what its own
calls cost. -/
structure ProposerStart where
  /-- The costs this tick had received before. -/
  received : List Price
  calls : List Price
deriving DecidableEq

/-- How far the proposers of a tick have come. `received` and `starts` are remembered of
the run and are no state of the code's. -/
structure TickProgress where
  meter : TickMeter := {}
  proposals : List String := []
  anyFailed : Bool := false
  proposersRun : ℕ := 0
  stoppedForSpend : Option String := none
  /-- The costs of the responses so far. -/
  received : List Price := []
  starts : List ProposerStart := []
deriving DecidableEq

/-- A proposer is started, and comes to its end. -/
def TickProgress.start (progress : TickProgress) (proposer : ProposerTurn) :
    TickProgress :=
  { progress with
    meter := proposer.responses.foldl TickMeter.onResponse progress.meter
    proposals := progress.proposals ++ proposer.drafts.getD []
    anyFailed := progress.anyFailed || proposer.drafts.isNone
    proposersRun := progress.proposersRun + 1
    received := progress.received ++ proposer.calls
    starts := progress.starts ++ [⟨progress.received, proposer.calls⟩] }

/-- Why the next proposer is not started: never for the first. -/
def TickProgress.stop (progress : TickProgress) (ceiling : HardCeiling)
    (tally : SupervisorSpendTally) (registered : ℕ) : Option String :=
  if progress.proposersRun = 0 then none
  else
    match assessSupervisorSpend ceiling
        (tally.withTickSpend (progress.meter.costUsd.getD 0)
          progress.meter.unpricedCalls) with
    | .admitted _ _ => none
    | .refuse _ reason =>
      some ("Stopped after " ++ toString progress.proposersRun ++ " of " ++
        toString registered ++ " proposer(s): " ++ reason)

/-- The proposers, one after the other. -/
def runProposers (ceiling : HardCeiling) (tally : SupervisorSpendTally)
    (registered : ℕ) : TickProgress → List ProposerTurn → TickProgress
  | progress, [] => progress
  | progress, proposer :: rest =>
    match progress.stop ceiling tally registered with
    | some reason => { progress with stoppedForSpend := some reason }
    | none =>
      runProposers ceiling tally registered (progress.start proposer) rest

/-- What the proposers keep, each started where nothing stops it. -/
theorem runProposers_invariant {ceiling : HardCeiling}
    {tally : SupervisorSpendTally} {registered : ℕ}
    {Inv : TickProgress → Prop} {proposers : List ProposerTurn}
    (hstart : ∀ proposer ∈ proposers, ∀ progress,
      progress.stop ceiling tally registered = none → Inv progress →
        Inv (progress.start proposer))
    (hstop : ∀ progress reason, Inv progress →
      Inv { progress with stoppedForSpend := some reason }) :
    ∀ progress, Inv progress →
      Inv (runProposers ceiling tally registered progress proposers) := by
  induction proposers with
  | nil => exact fun _ h => h
  | cons proposer rest ih =>
    intro progress h
    unfold runProposers
    cases hnext : progress.stop ceiling tally registered with
    | some reason => exact hstop progress reason h
    | none =>
      refine ih (fun later hlater => hstart later (List.mem_cons_of_mem _ hlater))
        _ ?_
      exact hstart proposer List.mem_cons_self progress hnext h

/-- Nothing stops the first proposer, and a later one is not stopped where the
gate admits what was spent so far. -/
theorem TickProgress.stop_eq_none {progress : TickProgress}
    {ceiling : HardCeiling} {tally : SupervisorSpendTally} {registered : ℕ} :
    progress.stop ceiling tally registered = none
      ↔ progress.proposersRun = 0
        ∨ (assessSupervisorSpend ceiling
          (tally.withTickSpend (progress.meter.costUsd.getD 0)
            progress.meter.unpricedCalls)).admits := by
  unfold TickProgress.stop
  by_cases hfirst : progress.proposersRun = 0
  · rw [if_pos hfirst]
    exact iff_of_true rfl (Or.inl hfirst)
  · rw [if_neg hfirst]
    cases assessSupervisorSpend ceiling
      (tally.withTickSpend (progress.meter.costUsd.getD 0)
        progress.meter.unpricedCalls) with
    | admitted headroom reason => exact iff_of_true rfl (Or.inr rfl)
    | refuse refusal reason =>
      exact iff_of_false nofun (not_or.mpr ⟨hfirst, nofun⟩)

/-- Why the invocation ended early. -/
def describeEnding (stoppedForSpend : Option String) (anyFailed : Bool) :
    Option String :=
  match stoppedForSpend with
  | some reason =>
    if anyFailed then some (reason ++ " At least one proposer also failed.")
    else some reason
  | none => if anyFailed then some "At least one proposer failed." else none

/-- **`assessQuota`**: why to stand down, if runs are parked. -/
def assessQuota (runsBlocked : ℕ) (standDownWhenBlocked : Bool) :
    Option String :=
  if standDownWhenBlocked ∧ 0 < runsBlocked then
    some (toString runsBlocked ++ " run(s) are parked on a rate limit. " ++
      "Diagnosis is worth less than execution, so the supervisor stands " ++
      "down until they resume.")
  else none

theorem assessQuota_eq_none {runsBlocked : ℕ} {standDownWhenBlocked : Bool} :
    assessQuota runsBlocked standDownWhenBlocked = none
      ↔ ¬(standDownWhenBlocked ∧ 0 < runsBlocked) := by
  unfold assessQuota
  split
  · next h => exact iff_of_false nofun (not_not.mpr h)
  · next h => exact iff_of_true rfl h

/-! ## The invocation -/

/-- What an invocation finds outside: the switches, what can be read, the proposers, and
whether its row is written in the end. -/
structure SupervisorTick where
  /-- The time since the last one. -/
  elapsed : ℕ
  enabled : Bool := true
  /-- The ledger cannot be read. -/
  tallyError : Option String := none
  /-- The state cannot be read. -/
  collectError : Option String := none
  runsBlocked : ℕ := 0
  standDownWhenBlocked : Bool := true
  proposers : List ProposerTurn
  /-- The decision log is written. -/
  written : Bool := true
deriving DecidableEq

/-- Nothing but the ceiling keeps a tick from its proposers: it is enabled, it can read
what it needs, and it does not stand down for blocked runs. -/
structure SupervisorTick.Ready (tick : SupervisorTick) : Prop where
  enabled : tick.enabled
  tallied : tick.tallyError = none
  collected : tick.collectError = none
  moving : ¬(tick.standDownWhenBlocked ∧ 0 < tick.runsBlocked)

/-- What was received by an invocation, in truth: the row may say less, or be lost. -/
structure ReceivedCost where
  startedAt : Instant
  usd : ℚ
deriving DecidableEq

/-- The decision log, with what was spent in truth. The code sees the rows alone; the
list beside them is ghost. -/
structure SupervisorDesk where
  clock : Instant
  rows : List InvocationRow := []
  /-- The costs that were received, an entry for each invocation. -/
  received : List ReceivedCost := []
deriving DecidableEq

/-- What was received by the invocations of the window. -/
def SupervisorDesk.receivedWithin (desk : SupervisorDesk) (days : ℕ)
    (now : Instant) : ℚ :=
  ((desk.received.filter (startedWithin days now ·.startedAt)).map (·.usd)).sum

/-- What is settled before the proposers: the tick is skipped, or goes on with what the
window has cost so far. -/
inductive Preflight where
  | skip (outcome : InvocationOutcome) (reason : String)
  | proceed (tally : SupervisorSpendTally)
deriving DecidableEq

namespace SupervisorDesk

/-- The tally of a tick; without a limit, no query is worth making. -/
def readTally (desk : SupervisorDesk) (ceiling : HardCeiling)
    (tick : SupervisorTick) : Except String SupervisorSpendTally :=
  match ceiling.limitUsd, tick.tallyError with
  | none, _ => .ok (noSupervisorSpendTally ceiling.windowDays)
  | some _, some error => .error error
  | some _, none =>
    .ok (supervisorTally ceiling.windowDays (desk.clock + tick.elapsed)
      desk.rows)

/-- The first half of `invoke`. -/
def preflight (desk : SupervisorDesk) (ceiling : HardCeiling)
    (tick : SupervisorTick) : Preflight :=
  if !tick.enabled then
    .skip .skippedDisabled "SUPERVISOR_ENABLED is not true."
  else
    match desk.readTally ceiling tick with
    | .error error =>
      .skip .failed ("Could not read supervisor spend: " ++ error)
    | .ok tally =>
      match assessSupervisorSpend ceiling tally with
      | .refuse _ reason => .skip .skippedBudget reason
      | .admitted _ _ =>
        match tick.collectError with
        | some error => .skip .failed ("Could not read state: " ++ error)
        | none =>
          match assessQuota tick.runsBlocked tick.standDownWhenBlocked with
          | some reason => .skip .skippedQuota reason
          | none => .proceed tally

/-- How the proposers of a tick come out. -/
def progress (ceiling : HardCeiling) (tally : SupervisorSpendTally)
    (tick : SupervisorTick) : TickProgress :=
  runProposers ceiling tally tick.proposers.length {} tick.proposers

/-- What is recorded of a tick that ran. -/
def draft (startedAt : Instant) (progress : TickProgress) : InvocationDraft
    where
  startedAt := startedAt
  outcome :=
    if progress.anyFailed || progress.stoppedForSpend.isSome then .endedEarly
    else .completed
  costUsd := progress.meter.costUsd
  unpricedCalls := progress.meter.unpricedCalls
  tokensInput := progress.meter.tokensInput
  tokensOutput := progress.meter.tokensOutput
  failureReason := describeEnding progress.stoppedForSpend progress.anyFailed

section Preflight

variable {desk : SupervisorDesk} {ceiling : HardCeiling} {tick : SupervisorTick}
  {tally : SupervisorSpendTally}

theorem readTally_eq_ok {limit : ℚ} (hlimit : ceiling.limitUsd = some limit) :
    desk.readTally ceiling tick = .ok tally
      ↔ tick.tallyError = none
        ∧ tally = supervisorTally ceiling.windowDays
          (desk.clock + tick.elapsed) desk.rows := by
  unfold readTally
  rw [hlimit]
  cases tick.tallyError with
  | some error => exact iff_of_false nofun fun h => nomatch h.1
  | none =>
    show Except.ok _ = Except.ok tally ↔ _
    rw [Except.ok.injEq]
    exact ⟨fun h => ⟨rfl, h.symm⟩, fun h => h.2.symm⟩

/-- **What gets to the proposers**: everything outside is in order, and the
rows of the window are below the limit. -/
theorem preflight_eq_proceed :
    desk.preflight ceiling tick = .proceed tally
      ↔ tick.Ready ∧ ceiling.malformed = none
        ∧ (∃ limit, ceiling.limitUsd = some limit ∧ tally.reportedUsd < limit)
        ∧ tally = supervisorTally ceiling.windowDays
          (desk.clock + tick.elapsed) desk.rows := by
  unfold preflight
  constructor
  · intro h
    by_cases henabled : tick.enabled
    · rw [if_neg (by rw [henabled]; exact Bool.false_ne_true)] at h
      cases hread : desk.readTally ceiling tick with
      | error error =>
        rw [hread] at h
        cases h
      | ok read =>
        rw [hread] at h
        dsimp only at h
        cases hspend : assessSupervisorSpend ceiling read with
        | refuse refusal reason =>
          rw [hspend] at h
          cases h
        | admitted headroom reason =>
          rw [hspend] at h
          cases hcollect : tick.collectError with
          | some error =>
            rw [hcollect] at h
            cases h
          | none =>
            rw [hcollect] at h
            cases hquota : assessQuota tick.runsBlocked
                tick.standDownWhenBlocked with
            | some reason =>
              rw [hquota] at h
              cases h
            | none =>
              rw [hquota] at h
              obtain rfl : read = tally := Preflight.proceed.inj h
              have hadmits : (assessSupervisorSpend ceiling read).admits := by
                rw [hspend]
                rfl
              obtain ⟨hmalformed, limit, hlimit, hbelow⟩ :=
                assessSupervisorSpend_admits.mp hadmits
              obtain ⟨htallied, hread⟩ := (readTally_eq_ok hlimit).mp hread
              exact ⟨⟨henabled, htallied, hcollect,
                assessQuota_eq_none.mp hquota⟩, hmalformed,
                ⟨limit, hlimit, hbelow⟩, hread⟩
    · rw [if_pos (by simpa using henabled)] at h
      cases h
  · rintro ⟨hready, hmalformed, ⟨limit, hlimit, hbelow⟩, htally⟩
    rw [if_neg (by rw [hready.enabled]; exact Bool.false_ne_true),
      (readTally_eq_ok hlimit).mpr ⟨hready.tallied, htally⟩]
    dsimp only
    cases hspend : assessSupervisorSpend ceiling tally with
    | refuse refusal reason =>
      have hadmits := assessSupervisorSpend_admits.mpr
        ⟨hmalformed, limit, hlimit, hbelow⟩
      rw [hspend] at hadmits
      cases hadmits
    | admitted headroom reason =>
      rw [hready.collected, assessQuota_eq_none.mpr hready.moving]

end Preflight

/-- **`invoke`**: one invocation, and what it leaves behind. -/
def invoke (ceiling : HardCeiling) (desk : SupervisorDesk)
    (tick : SupervisorTick) : SupervisorDesk :=
  let now := desk.clock + tick.elapsed
  match desk.preflight ceiling tick with
  | .skip outcome reason =>
    { clock := now
      rows := recordInvocation desk.rows
        { startedAt := now, outcome := outcome, failureReason := some reason }
        [] tick.written
      received := desk.received }
  | .proceed tally =>
    let progress := progress ceiling tally tick
    { clock := now
      rows := recordInvocation desk.rows (draft now progress)
        progress.proposals tick.written
      received := ⟨now, totalPrice progress.received⟩ :: desk.received }

end SupervisorDesk

end Opifex
