import Opifex.Issue
import Opifex.Vocabulary

/-!
# What should be true, computed from scratch

`projectDesiredState` performs no I/O and never consults the previous tick:
everything it needs was observed beforehand. For each open issue it takes the
newest work order that still counts and decides one intent, in a fixed order
of precedence: hold, quarantine, live run, ready, ignore. The report on ignored
labels is orthogonal to the intent and is added afterwards.
-/

namespace Opifex

/-- What CI says about a pull request's head commit. A commit without checks has no
verdict, which is a case of its own. -/
inductive CheckVerdict where
  | passing
  | failing
  | pending
deriving DecidableEq, Repr

/-- What the projection reads of the run of a work order: its status, what it has spent,
and how far its pull request is. -/
structure ObservedRun where
  status : RunStatus
  /-- Cumulative spend, or null when the runner reports no cost at all. -/
  costUsd : Option Usd
  /-- Set once the run has opened a pull request. -/
  pullRequestUrl : Option String
  checks : Option CheckVerdict
deriving DecidableEq

/-- A work order as the projection needs to see it, with its newest run if it has one.
The attempt is what the retry ceiling is compared with. -/
structure ObservedWorkOrder where
  identity : String
  issueNumber : ℕ
  attempt : ℕ
  status : WorkOrderStatus
  run : Option ObservedRun
deriving DecidableEq

/-- What the projection reads of a repository: its name, whether the factory may
dispatch there, and its own spend ceiling. -/
structure ObservedRepository where
  owner : String
  name : String
  dispatchEnabled : Bool
  budgetCeilingUsd : Option Usd
deriving DecidableEq

/-- Everything one tick observed, as plain data. The projection is a function of it: it
reads neither a clock nor a table. -/
structure ObservedState where
  repository : ObservedRepository
  issues : List NormalizedIssue
  workOrders : List ObservedWorkOrder
  /-- Issues where a human currently has the clear-quarantine label on. -/
  humanClearedQuarantine : List ℕ
  /-- How many attempts a work order gets before quarantine. -/
  retryCeiling : ℕ
deriving DecidableEq

/-- What the factory should be doing about an issue. Every issue has exactly one intent,
and the diff engine asks for actions from it. -/
inductive IssueIntent where
  | ignore
  | hold
  | dispatch
  | running
  | blocked
  | quarantined
  | review
  | awaitingChecks
deriving DecidableEq, Repr

/-- The intent as actions and messages write it. -/
def IssueIntent.name : IssueIntent → String
  | .ignore => "ignore"
  | .hold => "hold"
  | .dispatch => "dispatch"
  | .running => "running"
  | .blocked => "blocked"
  | .quarantined => "quarantined"
  | .review => "review"
  | .awaitingChecks => "awaiting-checks"

/-- What one issue should look like: what the factory means to do with it and why, the
labels it reads and the labels it should show. -/
structure DesiredIssueState where
  issueNumber : ℕ
  intent : IssueIntent
  /-- Why, naming the observed inputs. -/
  reason : String
  inputLabels : List InputLabel
  desiredMirrorLabels : List MirrorLabel
deriving DecidableEq

/-- The desired state of a repository, an entry for each issue, in the order they were
observed. -/
structure DesiredState where
  repository : String
  issues : List DesiredIssueState
deriving DecidableEq

/-! ## The newest work order of an issue -/

/-- Superseded and cancelled work orders say nothing about the current state
of an issue. -/
def ObservedWorkOrder.counts (workOrder : ObservedWorkOrder) : Bool :=
  workOrder.status != .superseded && workOrder.status != .cancelled

/-- `byIssue.set(issueNumber, …)` on a map kept as a list of entries. -/
def setIssue (byIssue : List (ℕ × ObservedWorkOrder))
    (workOrder : ObservedWorkOrder) : List (ℕ × ObservedWorkOrder) :=
  (workOrder.issueNumber, workOrder) ::
    byIssue.filter fun entry => entry.1 != workOrder.issueNumber

/-- One turn of the loop that groups work orders by issue. -/
def groupStep (byIssue : List (ℕ × ObservedWorkOrder))
    (workOrder : ObservedWorkOrder) : List (ℕ × ObservedWorkOrder) :=
  if !workOrder.counts then byIssue
  else
    match byIssue.lookup workOrder.issueNumber with
    | none => setIssue byIssue workOrder
    | some existing =>
      if existing.attempt < workOrder.attempt then setIssue byIssue workOrder
      else byIssue

/-- The newest work order per issue, by attempt. -/
def groupWorkOrdersByIssue (workOrders : List ObservedWorkOrder) :
    List (ℕ × ObservedWorkOrder) :=
  workOrders.foldl groupStep []

/-- What this work order has spent, or null when nothing was reported. -/
def totalSpend (workOrder : Option ObservedWorkOrder) : Option Usd :=
  workOrder.bind fun w => w.run.bind (·.costUsd)

/-! ## The intent -/

/-- The intent of an issue whose newest work order is quarantined. The label
being present is not enough to clear it. -/
def quarantineIntent (issue : NormalizedIssue) (workOrder : ObservedWorkOrder)
    (observed : ObservedState) : DesiredIssueState :=
  if observed.humanClearedQuarantine.contains issue.number then
    { issueNumber := issue.number
      intent := .dispatch
      reason :=
        "dispatch: quarantine on " ++ workOrder.identity ++
          " cleared by a human applying " ++ InputLabel.clearQuarantine.name
      inputLabels := issue.inputLabels
      desiredMirrorLabels := [.dispatched] }
  else
    { issueNumber := issue.number
      intent := .quarantined
      reason :=
        if issue.carries .clearQuarantine then
          "quarantined: " ++ workOrder.identity ++ " carries " ++
            InputLabel.clearQuarantine.name ++ " but no human applied it"
        else "quarantined: " ++ workOrder.identity ++ " awaits a human"
      inputLabels := issue.inputLabels
      desiredMirrorLabels := [.quarantine] }

/-- The intent a run imposes, or none when the issue is decided by its labels:
there is no run, or it ended without a pull request, or its checks fail. -/
def runIntent (issue : NormalizedIssue) (workOrder : ObservedWorkOrder) :
    Option DesiredIssueState :=
  match workOrder.run with
  | none => none
  | some run =>
    match run.status with
    | .running | .stalled =>
      some
        { issueNumber := issue.number
          intent := .running
          reason :=
            "running: " ++ workOrder.identity ++ " has a live run (" ++
              run.status.name ++ ")"
          inputLabels := issue.inputLabels
          desiredMirrorLabels := [.dispatched] }
    | .blocked =>
      some
        { issueNumber := issue.number
          intent := .blocked
          reason :=
            "blocked: " ++ workOrder.identity ++
              " is parked and resumes without a human"
          inputLabels := issue.inputLabels
          desiredMirrorLabels := [.blocked] }
    | .succeeded =>
      match run.pullRequestUrl.filter (· != ""), run.checks with
      | none, _ => none
      | some url, some .passing =>
        some
          { issueNumber := issue.number
            intent := .review
            reason :=
              "review: " ++ workOrder.identity ++ " opened " ++ url ++
                " and CI is green"
            inputLabels := issue.inputLabels
            desiredMirrorLabels := [.review] }
      -- red CI falls through to the ready branch, where the retry ceiling
      -- decides
      | some _, some .failing => none
      | some url, _ =>
        some
          { issueNumber := issue.number
            intent := .awaitingChecks
            reason :=
              "awaiting-checks: " ++ workOrder.identity ++ " opened " ++ url ++
                " and CI has not reported a verdict yet"
            inputLabels := issue.inputLabels
            desiredMirrorLabels := [] }
    | .failed | .quarantined => none

/-- Spend has reached the repository's ceiling. Unknown spend never has. -/
def spendReached (observed : ObservedState)
    (workOrder : Option ObservedWorkOrder) : Option (Usd × Usd) :=
  match observed.repository.budgetCeilingUsd, totalSpend workOrder with
  | some ceiling, some spent =>
    if ceiling.tenThousandths ≤ spent.tenThousandths then
      some (spent, ceiling)
    else none
  | _, _ => none

/-- Why a work order out of attempts is quarantined, naming red CI when that
is what brought it here. -/
def outOfAttemptsText (workOrder : ObservedWorkOrder) (retryCeiling : ℕ) :
    String :=
  "quarantined: " ++ workOrder.identity ++ " has used all " ++
    toString retryCeiling ++ " " ++
    match workOrder.run with
    | some ⟨_, _, url, some .failing⟩ =>
      "attempts; its last pull request " ++ url.getD "null" ++
        " has failing checks"
    | _ => "attempts without producing a reviewable pull request"

/-- The intent of an issue that carries the ready label and whose newest work
order has no live run. -/
def readyIntent (issue : NormalizedIssue)
    (workOrder : Option ObservedWorkOrder) (observed : ObservedState) :
    DesiredIssueState :=
  if !observed.repository.dispatchEnabled then
    { issueNumber := issue.number
      intent := .ignore
      reason :=
        "ignored: " ++ InputLabel.ready.name ++
          " is set but dispatch is disabled for this repository"
      inputLabels := issue.inputLabels
      desiredMirrorLabels := [] }
  else
    match spendReached observed workOrder with
    | some (spent, ceiling) =>
      { issueNumber := issue.number
        intent := .quarantined
        reason :=
          "quarantined: spend " ++ spent.text ++
            " has reached the repository ceiling " ++ ceiling.text
        inputLabels := issue.inputLabels
        desiredMirrorLabels := [.quarantine] }
    | none =>
      match workOrder.filter fun w => observed.retryCeiling ≤ w.attempt with
      | some w =>
        { issueNumber := issue.number
          intent := .quarantined
          reason := outOfAttemptsText w observed.retryCeiling
          inputLabels := issue.inputLabels
          desiredMirrorLabels := [.quarantine] }
      | none =>
        { issueNumber := issue.number
          intent := .dispatch
          reason :=
            "dispatch: " ++ InputLabel.ready.name ++ " is set and " ++
              match workOrder with
              | some w => w.identity ++ " has no live run"
              | none => "no work order exists yet"
          inputLabels := issue.inputLabels
          desiredMirrorLabels := [.dispatched] }

/-- **What should be true for one issue**, first match wins. -/
def projectIntent (issue : NormalizedIssue)
    (workOrder : Option ObservedWorkOrder) (observed : ObservedState) :
    DesiredIssueState :=
  if issue.carries .hold then
    { issueNumber := issue.number
      intent := .hold
      reason := "held: a human applied " ++ InputLabel.hold.name
      inputLabels := issue.inputLabels
      desiredMirrorLabels := [] }
  else
    match workOrder.filter fun w => w.status = .quarantined with
    | some w => quarantineIntent issue w observed
    | none =>
      match workOrder.bind (runIntent issue) with
      | some state => state
      | none =>
        if issue.carries .ready then readyIntent issue workOrder observed
        else
          { issueNumber := issue.number
            intent := .ignore
            reason := "ignored: no " ++ InputLabel.ready.name ++ " label"
            inputLabels := issue.inputLabels
            desiredMirrorLabels := [] }

/-- Add the advisory mirror label when a declaration was ignored. It never
changes the intent. -/
def reportIgnoredLabels (issue : NormalizedIssue) (state : DesiredIssueState) :
    DesiredIssueState :=
  if issue.ignoredLabels.isEmpty then state
  else
    { state with
      reason :=
        state.reason ++ " (" ++ describeIgnoredLabels issue.ignoredLabels ++ ")"
      desiredMirrorLabels := state.desiredMirrorLabels ++ [.labelIgnored] }

/-- The desired state of one issue of an observed state. -/
def projectIssueState (observed : ObservedState) (issue : NormalizedIssue) :
    DesiredIssueState :=
  reportIgnoredLabels issue
    (projectIntent issue
      ((groupWorkOrdersByIssue observed.workOrders).lookup issue.number)
      observed)

/-- **Compute what should be true, from scratch.** -/
def projectDesiredState (observed : ObservedState) : DesiredState where
  repository :=
    observed.repository.owner ++ "/" ++ observed.repository.name
  issues := observed.issues.map (projectIssueState observed)

/-! ## The projection of an issue is about that issue -/

section IssueNumber

variable {issue : NormalizedIssue} {observed : ObservedState}
  {workOrder : ObservedWorkOrder} {newest : Option ObservedWorkOrder}
  {state : DesiredIssueState}

@[simp] theorem issueNumber_quarantineIntent :
    (quarantineIntent issue workOrder observed).issueNumber = issue.number := by
  unfold quarantineIntent
  split <;> rfl

theorem issueNumber_runIntent (h : runIntent issue workOrder = some state) :
    state.issueNumber = issue.number := by
  unfold runIntent at h
  repeat' split at h
  all_goals cases h <;> rfl

@[simp] theorem issueNumber_readyIntent :
    (readyIntent issue newest observed).issueNumber = issue.number := by
  unfold readyIntent
  repeat' split
  all_goals rfl

@[simp] theorem issueNumber_projectIntent :
    (projectIntent issue newest observed).issueNumber = issue.number := by
  unfold projectIntent
  split
  · rfl
  · split
    · exact issueNumber_quarantineIntent
    · split
      case h_1 state hrun =>
        obtain ⟨w, -, hw⟩ := Option.bind_eq_some_iff.mp hrun
        exact issueNumber_runIntent hw
      case h_2 =>
        split
        · exact issueNumber_readyIntent
        · rfl

@[simp] theorem issueNumber_projectIssueState :
    (projectIssueState observed issue).issueNumber = issue.number := by
  rw [projectIssueState, reportIgnoredLabels]
  split
  · exact issueNumber_projectIntent
  · exact issueNumber_projectIntent

end IssueNumber

end Opifex
