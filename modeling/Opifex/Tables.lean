import Opifex.DispatchPolicy
import Opifex.Lib.Instant
import Opifex.Lib.Record
import Opifex.Lib.Table
import Opifex.Vocabulary

/-!
# The control plane's tables

The rows the dispatch path reads and writes. Primary keys are numbers a table
hands out; a run's attempts and the park its dispatch avoided are rows that
are deleted with it, and are kept inside it. Columns nothing below reads are
left out.
-/

namespace Opifex

open Record (Looked)

/-- A registered repository: whether it is observed and dispatched to, its ceilings, and
when it was last observed. -/
structure RepositoryRow where
  id : ℕ
  owner : String
  name : String
  observeEnabled : Bool
  dispatchEnabled : Bool
  budgetCeilingUsd : Option Usd
  wallClockTimeoutMinutes : Option ℕ
  lastObservedAt : Option Instant
deriving DecidableEq

/-- `owner/name`. -/
def RepositoryRow.fullName (repository : RepositoryRow) : String :=
  repository.owner ++ "/" ++ repository.name

/-- A work order as it is stored. `identity` and `branch` are unique
columns. -/
structure WorkOrderRow where
  id : ℕ
  identity : String
  repositoryId : ℕ
  issueNumber : ℕ
  issueUrl : String
  issueTitle : Option String
  baseCommit : String
  attempt : ℕ
  branch : String
  status : WorkOrderStatus
  /-- Orders the dispatch queue; null while held. -/
  queuedAt : Option Instant
  holdReason : Option String
  taskSpec : String
  acceptanceCriteria : List String
  pathConstraints : List String
  decisionRefs : List String
  /-- Free values at the column, which gives back what was stored; a closed
  union at the boundary. -/
  needs : List (Looked String)
  modelTier : Option (Looked String)
  budgetCeilingUsd : Option Usd
  wallClockTimeoutMinutes : Option ℕ
deriving DecidableEq

/-- How an attempt at a run ended, or that it has not. A run that is resumed has another
attempt. -/
inductive RunAttemptOutcome where
  | running
  | succeeded
  | failed
  | killed
  | blocked
deriving DecidableEq, Repr

/-- One invocation of a runner inside a run, from its submission to the moment it ended
or was given up. -/
structure RunAttemptRow where
  number : ℕ
  outcome : RunAttemptOutcome
  runnerRunId : Option String
  startedAt : Instant
  endedAt : Option Instant
  stopReason : Option String
  blockedUntil : Option Instant
deriving DecidableEq

/-- A park that routing avoided when the run was dispatched: the runners that were out
of quota, and the one that was taken instead. -/
structure AvoidedParkRow where
  occurredAt : Instant
  chosenRunnerKey : RunnerKey
  exhaustedRunnerKeys : List RunnerKey
  resumesAt : Option Instant
  basis : List String
deriving DecidableEq

/-- The block event a parked run was parked on: when it was reported, and until when it
says. -/
structure BlockEvent where
  occurredAt : Instant
  blockedReason : Option String
  blockedUntil : Option Instant
deriving DecidableEq

/-- A run: its runner and status, its attempts, and what it has cost so far. Dispatch,
ingestion, the poller and the watchdog all write to it. -/
structure RunRow where
  id : ℕ
  workOrderId : ℕ
  runnerKey : RunnerKey
  runnerVersion : String
  status : RunStatus
  startedAt : Instant
  endedAt : Option Instant
  /-- The planned resume of a parked run. -/
  resumesAt : Option Instant
  attentionReason : Option String
  /-- 1 on dispatch, incremented by each resume. -/
  attemptCount : ℕ
  costUsd : Option Usd
  attempts : List RunAttemptRow
  avoidedPark : Option AvoidedParkRow
  /-- The newest block event, if the run was ever blocked. -/
  lastBlock : Option BlockEvent
  /-- When the newest reported event happened. -/
  lastEventAt : Option Instant := none
  tokensInput : Option ℕ := none
  tokensOutput : Option ℕ := none
  headCommit : Option String := none
  pullRequestUrl : Option String := none
  pullRequestNumber : Option ℕ := none
deriving DecidableEq

instance : Keyed WorkOrderRow := ⟨WorkOrderRow.id⟩

instance : Keyed RunRow := ⟨RunRow.id⟩

instance : Keyed RepositoryRow := ⟨RepositoryRow.id⟩

/-- **The database**, as far as dispatch reads and writes it. Every statement of the
model is a function of it. -/
structure Db where
  repositories : Table RepositoryRow
  workOrders : Table WorkOrderRow
  runs : Table RunRow

namespace Db

/-- Two databases hold the same rows. -/
def SameRows (a b : Db) : Prop :=
  a.repositories.rows = b.repositories.rows ∧
    a.workOrders.rows = b.workOrders.rows ∧ a.runs.rows = b.runs.rows

/-- Statuses that occupy a runner's concurrency. -/
def occupies (run : RunRow) : Bool := run.status.isLive

/-- Live runs across the fleet. -/
def countLiveRuns (db : Db) : ℕ := db.runs.rows.countP occupies

/-- Live runs of one runner. -/
def liveRunsOf (db : Db) (key : RunnerKey) : ℕ :=
  db.runs.rows.countP fun run => occupies run && run.runnerKey == key

/-- Update one work order. -/
def updateWorkOrder (db : Db) (id : ℕ) (f : WorkOrderRow → WorkOrderRow)
    (hf : ∀ r, (f r).id = r.id) : Db :=
  { db with workOrders := db.workOrders.modify (fun r => r.id == id) f hf }

theorem find_updateWorkOrder (db : Db) (id other : ℕ)
    (f : WorkOrderRow → WorkOrderRow) (hf : ∀ r, (f r).id = r.id) :
    (db.updateWorkOrder id f hf).workOrders.find other =
      (db.workOrders.find other).map fun r => if r.id == id then f r else r :=
  Table.find_modify hf

/-- `updateMany` over runs with an id and a status. -/
def updateRun (db : Db) (id : ℕ) (status : RunStatus) (f : RunRow → RunRow)
    (hf : ∀ r, (f r).id = r.id) : Db :=
  { db with
    runs := db.runs.modify (fun r => r.id == id && r.status == status) f hf }

end Db

end Opifex
