import Opifex.RunEvents

/-!
# Runs as the control loops read them

The watchdog and the poller join a run with its work order and the repository
of that. Each run is one row here, and both loops write the same rows.
-/

namespace Opifex

/-- A run with its events, and what is joined from its work order. The watchdog and the
poller judge a run by this. -/
structure WatchedRun where
  record : RunRecord
  workOrderIdentity : String
  /-- `owner/name`. -/
  repository : String
  issueNumber : ℕ
  budgetCeilingUsd : Option Usd := none
  wallClockTimeoutMinutes : Option ℕ := none
deriving DecidableEq

instance : Keyed WatchedRun := ⟨fun watched => watched.record.run.id⟩

namespace WatchedRun

/-- Whether the row says that the run is blocked. -/
def isBlocked (watched : WatchedRun) : Bool :=
  watched.record.run.status == .blocked

/-- Whether the row says that the run is live. -/
def isLive (watched : WatchedRun) : Bool :=
  watched.record.run.status.isLive

/-- `data: { resumesAt }`. -/
def planned (plan : Instant) (watched : WatchedRun) : WatchedRun :=
  { watched with
    record :=
      { watched.record with
        run := { watched.record.run with resumesAt := some plan } } }

theorem key_planned (plan : Instant) (watched : WatchedRun) :
    Keyed.key (watched.planned plan) = Keyed.key watched := rfl

/-- The run after a batch was ingested for it. -/
def delivered (events : List RunEventPayload) (watched : WatchedRun) :
    WatchedRun :=
  { watched with record := (watched.record.persist events).1 }

end WatchedRun

end Opifex
