import Opifex.DispatchQueue
import Opifex.WorkOrderProjection

/-!
# The reconciler loop

One tick observes every watched repository, turns eligible issues into rows
and reconciles the holds of the rows that exist, resumes the parked runs it was
told to, and drains the queue. The sweep runs under the lease; a tick that did
not get it resumes and drains all the same.

What a tick reads from GitHub is its input, so a run of the loop is a run over
every way humans may edit issues in between. Reads succeed. The desired state,
the actions and the log a sweep computes are not executed by it and do not
reach the tables; they are left out.
-/

namespace Opifex

/-- What a tick is given: the settings, what GitHub answers, and what the
phases of its dispatches and resumes are answered. -/
structure TickInput where
  env : ExecutorEnv
  /-- `reconciler.enabled`. -/
  enabled : Bool
  /-- The lease was free. -/
  leaseAcquired : Bool
  /-- `http.canSpend()`: before the lease is taken. -/
  canSpend : Bool
  /-- And again before each repository. -/
  canObserve : RepositoryRow → Bool
  /-- The open issues of a repository. -/
  issues : RepositoryRow → List NormalizedIssue
  /-- The tip of a repository's default branch, if it has a commit. -/
  head : RepositoryRow → Option String
  answers : ℕ → Answers
  /-- The parked runs the tick was told to resume. -/
  resumes : List ℕ
  resumeAnswers : ℕ → Answers

/-! ## The sweep -/

/-- `orderBy: { lastObservedAt: 'asc', nulls: 'first' }`. -/
def byLastObservedAt (a b : RepositoryRow) : Ordering :=
  match a.lastObservedAt, b.lastObservedAt with
  | some x, some y => compare x y
  | some _, none => .gt
  | none, some _ => .lt
  | none, none => .eq

/-- The repositories a sweep observes. -/
def Db.listObserved (db : Db) : List RepositoryRow :=
  Preference.rank byLastObservedAt
    (db.repositories.rows.filter (·.observeEnabled))

/-- Turn a repository's eligible issues into work orders, and reconcile the
holds of those that exist: **if some ready issue needs a base commit, and
there is one**. -/
def projectWorkOrders (tick : TickInput) (repository : RepositoryRow)
    (db : Db) : Db :=
  let issues := tick.issues repository
  let existingWorkOrders := db.loadWorkOrders repository.id
  if !needsBaseCommit issues existingWorkOrders then db
  else
    match tick.head repository with
    | none => db
    | some baseCommit =>
      (project
        ⟨repository, issues, existingWorkOrders, baseCommit, tick.env.now⟩
        db).db

/-- Record that a repository was observed. -/
def Db.touchRepository (db : Db) (id : ℕ) (now : Instant) : Db :=
  { db with
    repositories :=
      db.repositories.modify (fun r => r.id == id)
        (fun r => { r with lastObservedAt := some now }) fun _ => rfl }

/-- A repository is observed when the reserve allows it and no mirror label
reached its issues. -/
def TickInput.observes (tick : TickInput) (repository : RepositoryRow) :
    Bool :=
  tick.canObserve repository &&
    (assertNoMirrorLabelsObserved (tick.issues repository)).isNone

/-- Observe one repository of the sweep. One that fails does not stop the
ones behind it. -/
def observeOne (tick : TickInput) (db : Db) (repository : RepositoryRow) :
    Db :=
  if tick.observes repository then
    (projectWorkOrders tick repository db).touchRepository repository.id
      tick.env.now
  else db

/-- The repositories a tick sweeps: none unless it is allowed to, and gets the
lease. -/
def TickInput.sweeps (tick : TickInput) (db : Db) : List RepositoryRow :=
  if tick.canSpend && tick.leaseAcquired then db.listObserved else []

/-- The database after the sweep. -/
def observeAll (tick : TickInput) (db : Db) : Db :=
  Machine.run (observeOne tick) db (tick.sweeps db)

/-! ## The tick -/

/-- The world once the tick has observed. -/
def afterSweep (tick : TickInput) (world : World) : World :=
  { world with db := observeAll tick world.db }

/-- Resume the parked runs, in order. -/
def resumeParkedRuns (tick : TickInput) (world : World) : World :=
  Machine.run (fun world runId =>
    (resumeParkedRun tick.env (tick.resumeAnswers runId) runId world).2)
    world tick.resumes

/-- The world the drain of a tick selects from. -/
def beforeDrain (tick : TickInput) (world : World) : World :=
  resumeParkedRuns tick (afterSweep tick world)

/-- **`runOnce`**: observe, resume, drain; nothing when the reconciler is
disabled. -/
def runOnce (tick : TickInput) (world : World) : World :=
  if tick.enabled then
    (drain tick.env tick.answers (beforeDrain tick world)).1
  else world

/-- What moves the loop: a tick, or a write to the tables from elsewhere (a
runner's events, the watchdog, an operator). -/
inductive LoopInput where
  | tick (tick : TickInput)
  | elsewhere (write : World → World)

/-- A turn: a tick of the loop, or a write by anybody else. -/
def loopStep (world : World) : LoopInput → World
  | .tick tick => runOnce tick world
  | .elsewhere write => write world

end Opifex
