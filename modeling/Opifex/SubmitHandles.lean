import Opifex.ClaudeCodeLocalRunner
import Opifex.Lib.Machine

/-!
# What a handle is a handle of

A submit that finds a run of its identity in the map returns that run's
handle. The map keeps runs that have ended, and runs of other attempts, under
the identity that a resume and a second dispatch submit again. So a handle is
that of a live process working for the run that was asked for **exactly when
the submit finds no such leftover** (`submits_work_iff`), and what dispatch and
resume report is as good as the handle they were given.
-/

namespace Opifex

open Machine (Always run)

namespace ClaudeCodeLocalRunner

variable {env : MapperEnv} {runner : ClaudeCodeLocalRunner}
  {handle : RunHandle} {spec : WorkOrderSpec} {i : Step}

/-- The external identifier of the process a step starts, if it starts
one. -/
def launches (runner : ClaudeCodeLocalRunner) : Step → Option String
  | .provisioned _ call (.ok _) launch =>
    (runner.submitting.find call).map fun call =>
      call.spec.identity ++ ":" ++ launch.handleId
  | _ => none

/-- **The handle is one of a live process that was given the run**, and
polling it, now and until another process is started under it, reports events
of that run. -/
structure WorksFor (env : MapperEnv) (spec : WorkOrderSpec)
    (handle : RunHandle) (runner : ClaudeCodeLocalRunner) : Prop where
  process : ∃ started, runner.held handle = some started ∧
    started.isAlive = true ∧ started.run.runId = spec.runId
  reports : ∀ steps,
    Always (step env) (fun runner i =>
      launches runner i ≠ some handle.externalId) runner steps →
      ∀ event ∈ ((run (step env) runner steps).poll handle).events,
        event.runId = spec.runId

/-- What is asked of a step: a submit that returns a handle in it returns one
that works for the run. -/
def SubmitWorks (env : MapperEnv) (runner : ClaudeCodeLocalRunner) (i : Step) :
    Prop :=
  ∀ spec handle, returned runner i = some (spec, .ok handle) →
    WorksFor env spec handle (step env runner i)

/-- A submit finds what another one left: a run of its identity that has
ended, or that was given another run. -/
def FindsLeftover (runner : ClaudeCodeLocalRunner) : Step → Prop
  | .submit _ spec now =>
    ∃ existing, (runner.reapFinishedRuns now).find spec.identity
        = some existing ∧
      ¬ (existing.isAlive = true ∧ existing.run.runId = spec.runId)
  | _ => False

/-! ## What a handle names -/

/-- The run a handle names is of the run with an id, if it names one. -/
def Names (runId : ℕ) (handle : RunHandle) (runner : ClaudeCodeLocalRunner) :
    Prop :=
  ∀ started, runner.held handle = some started → started.run.runId = runId

theorem names_of_find {after : ClaudeCodeLocalRunner} {runId : ℕ}
    (h : runner.Names runId handle)
    (hfind : ∀ started,
      after.find handle.workOrderIdentity = some started →
        ∃ before, runner.find handle.workOrderIdentity = some before ∧
          started.run.handle = before.run.handle ∧
          started.run.runId = before.run.runId) :
    after.Names runId handle := by
  intro started hheld
  obtain ⟨hfound, hexternal⟩ := held_eq_some.mp hheld
  obtain ⟨before, hbefore, hhandle, hrunId⟩ := hfind started hfound
  rw [hrunId]
  refine h before (held_eq_some.mpr ⟨hbefore, ?_⟩)
  rw [← hhandle]
  exact hexternal

theorem names_modify {runId id : ℕ} {f : StartedRun → StartedRun}
    {hid : ∀ run, (f run).id = run.id}
    {hidentity : ∀ run, (f run).run.identity = run.run.identity}
    (h : runner.Names runId handle)
    (hf : ∀ run, (f run).run.handle = run.run.handle ∧
      (f run).run.runId = run.run.runId) :
    (runner.modify id f hid hidentity).Names runId handle := by
  refine names_of_find h fun started hfound => ?_
  rw [find_modify] at hfound
  obtain ⟨before, hbefore, rfl⟩ := Option.map_eq_some_iff.mp hfound
  refine ⟨before, hbefore, ?_⟩
  split
  · exact hf before
  · exact ⟨rfl, rfl⟩

theorem names_observe {runId id : ℕ} {input : RunnerInput}
    (h : runner.Names runId handle) :
    (runner.observe env id input).Names runId handle :=
  names_modify h fun _ =>
    ⟨LocalRun.observe_static.1, LocalRun.runId_observe⟩

/-- **A handle goes on naming what it names**, until a process is started under
it. -/
theorem names_step {runId : ℕ} (h : runner.Names runId handle)
    (hfresh : launches runner i ≠ some handle.externalId) :
    (step env runner i).Names runId handle := by
  cases i with
  | submit settings spec now =>
    refine names_of_find h fun started hfound => ?_
    rw [show step env runner (.submit settings spec now)
        = (runner.submit settings spec now).1 from rfl, find_submit,
      find_reapFinishedRuns] at hfound
    exact ⟨started, (Option.filter_eq_some_iff.mp hfound).1, rfl, rfl⟩
  | provisioned settings id workspace launch =>
    cases hcall : runner.submitting.find id with
    | none =>
      rw [step, hcall]
      exact h
    | some call =>
      cases workspace with
      | error message =>
        rw [step, hcall]
        exact h
      | ok reused =>
        rw [step_provisioned_ok env hcall]
        intro started hheld
        obtain ⟨hfound, hexternal⟩ := held_eq_some.mp hheld
        rw [find_start] at hfound
        split_ifs at hfound
        · -- the handle of the process that was just started is another one
          refine absurd ?_ hfresh
          rw [launches, hcall, ← hexternal, ← Option.some.inj hfound]
          rfl
        · exact h started (held_eq_some.mpr ⟨hfound, hexternal⟩)
  | line id parsed now randomId => exact names_observe h
  | exit id outcome stderr now randomId => exact names_observe h
  | deadline id => exact names_observe h
  | poll polled =>
    rw [step, drain]
    split
    · exact h
    · exact names_modify h fun _ => ⟨rfl, rfl⟩
  | cancel cancelled =>
    rw [step, cancel]
    split
    · exact h
    · exact names_observe h
  | probed version => exact h

/-- What a poll of a handle reports is of the run it names. -/
theorem runId_of_poll {runId : ℕ} (h : runner.Names runId handle) :
    ∀ event ∈ (runner.poll handle).events, event.runId = runId := by
  intro event hevent
  unfold poll at hevent
  split at hevent
  · exact absurd hevent List.not_mem_nil
  · rename_i started hheld
    rw [← h started hheld]
    exact started.own event hevent

/-- A handle works for the run if its process is up and was given it. -/
theorem worksFor_iff {started : StartedRun}
    (hheld : runner.held handle = some started) :
    runner.WorksFor env spec handle ↔
      started.isAlive = true ∧ started.run.runId = spec.runId := by
  constructor
  · intro ⟨⟨other, hother, hworks⟩, _⟩
    rw [hheld] at hother
    rw [Option.some.inj hother]
    exact hworks
  · intro hworks
    refine ⟨⟨started, hheld, hworks⟩, fun steps hsteps => ?_⟩
    have hnames : runner.Names spec.runId handle := by
      intro other hother
      rw [hheld] at hother
      rw [← Option.some.inj hother]
      exact hworks.2
    exact runId_of_poll (Machine.run_invariant
      (fun _ _ => names_step) hnames hsteps)

/-! ## What a submit returns -/

/-- What a submit returns at once is the handle it found. -/
theorem returned_submit {settings : LocalRunnerSettings} {asked : WorkOrderSpec}
    {now : Instant} :
    returned runner (.submit settings asked now) = some (spec, .ok handle) ↔
      asked = spec ∧ ∃ existing,
        (runner.reapFinishedRuns now).find asked.identity = some existing ∧
          existing.run.handle = handle := by
  rw [returned, Option.map_eq_some_iff]
  unfold submit
  dsimp only
  cases hfind : (runner.reapFinishedRuns now).find asked.identity with
  | none =>
    constructor
    · rintro ⟨answer, hanswer, hpair⟩
      dsimp only at hanswer
      split at hanswer
      · rw [← Option.some.inj hanswer] at hpair
        cases hpair
      · exact absurd hanswer.symm (Option.some_ne_none answer)
    · rintro ⟨-, existing, hexisting, -⟩
      exact absurd hexisting.symm (Option.some_ne_none existing)
  | some existing =>
    constructor
    · rintro ⟨answer, hanswer, hpair⟩
      rw [← Option.some.inj hanswer] at hpair
      cases hpair
      exact ⟨rfl, existing, rfl, rfl⟩
    · rintro ⟨rfl, other, hother, rfl⟩
      cases hother
      exact ⟨_, rfl, rfl⟩

/-- **A submit that starts a process returns a handle of it.** -/
theorem worksFor_provisioned {settings : LocalRunnerSettings} {id : ℕ}
    {workspace : Except String Bool} {launch : Launch}
    (h : returned runner (.provisioned settings id workspace launch)
      = some (spec, .ok handle)) :
    WorksFor env spec handle
      (step env runner (.provisioned settings id workspace launch)) := by
  obtain ⟨call, hcall, hpair⟩ := Option.map_eq_some_iff.mp h
  obtain ⟨hspec, hanswer⟩ := Prod.mk.inj hpair
  cases workspace with
  | error message => cases hanswer
  | ok reused =>
    rw [step_provisioned_ok env hcall, ← hspec, ← Except.ok.inj hanswer]
    have hheld : ((runner.release call).start settings call reused launch).held
        (launchedRun settings call reused launch
          (runner.release call).runnerTag).handle
        = some (launched settings call reused launch
          (runner.release call).runnerTag (runner.release call).started.next) :=
      held_eq_some.mpr ⟨find_start.trans (if_pos rfl), rfl⟩
    exact (worksFor_iff hheld).mpr ⟨rfl, rfl⟩

/-- **A submit works exactly when it finds no leftover.** -/
theorem submitWorks_iff (env : MapperEnv) (runner : ClaudeCodeLocalRunner)
    (i : Step) : SubmitWorks env runner i ↔ ¬ FindsLeftover runner i := by
  cases i with
  | submit settings asked now =>
    have hheld : ∀ {existing : StartedRun},
        (runner.reapFinishedRuns now).find asked.identity = some existing →
          (step env runner (.submit settings asked now)).held
            existing.run.handle = some existing :=
      fun hfind => held_of_find (find_submit.trans hfind)
    constructor
    · rintro h ⟨existing, hfind, hleft⟩
      have hworks := h asked existing.run.handle
        (returned_submit.mpr ⟨rfl, existing, hfind, rfl⟩)
      exact hleft ((worksFor_iff (hheld hfind)).mp hworks)
    · intro h spec handle hreturned
      obtain ⟨rfl, existing, hfind, rfl⟩ := returned_submit.mp hreturned
      refine (worksFor_iff (hheld hfind)).mpr ?_
      by_contra hleft
      exact h ⟨existing, hfind, hleft⟩
  | provisioned settings id workspace launch =>
    exact iff_of_true (fun _ _ => worksFor_provisioned) not_false
  | _ =>
    exact iff_of_true (fun _ _ h => absurd h.symm (Option.some_ne_none _))
      not_false

end ClaudeCodeLocalRunner

/-! ## What dispatch and resume report -/

section Reports

variable {executor : ExecutorEnv} {answers : Answers}

/-- What a phase of a dispatch knows of its submit. -/
def DispatchPhase.Knows (answers : Answers) (input : DispatchWorkOrderInput) :
    DispatchPhase × World → Prop
  | (.track runId _, world) | (.update runId _, world)
  | (.done (.dispatched runId _ _), world) =>
    (∃ handle, answers.submit = .ok handle) ∧
      ⟨input.workOrderId, toSpec input.workOrder runId⟩ ∈ world.submissions
  | _ => True

/-- What a phase of a resume knows of its submit. -/
def ResumePhase.Knows (executor : ExecutorEnv) (answers : Answers) (runId : ℕ)
    (before : World) : ResumePhase × World → Prop
  | (.gate, world) => world = before
  | (.admission parked, _) | (.claim parked, _) | (.submit parked, _) =>
    resumeGate executor before.db runId = .ok parked
  | (.closeAttempts parked _, world) | (.openAttempt parked _, world)
  | (.track parked, world) =>
    resumeGate executor before.db runId = .ok parked ∧
      (∃ handle, answers.submit = .ok handle) ∧
        ⟨parked.row.id, toSpec parked.workOrder runId⟩ ∈ world.submissions
  | (.done (.resumed _ _ _ _), world) =>
    ∃ parked, resumeGate executor before.db runId = .ok parked ∧
      (∃ handle, answers.submit = .ok handle) ∧
        ⟨parked.row.id, toSpec parked.workOrder runId⟩ ∈ world.submissions
  | _ => True

theorem knows_dispatchNext {input : DispatchWorkOrderInput}
    (s : DispatchPhase × World) (h : DispatchPhase.Knows answers input s) :
    DispatchPhase.Knows answers input (dispatchNext executor answers input s) := by
  obtain ⟨phase, world⟩ := s
  unfold dispatchNext
  cases phase with
  | decide =>
    rw [dispatchStep]
    dsimp only
    split
    · split <;> trivial
    · trivial
  | admission decision runnerKey =>
    rw [dispatchStep]
    split
    · trivial
    · split <;> trivial
  | create decision runnerKey => trivial
  | write runId runnerKey =>
    rw [dispatchStep]
    split <;> trivial
  | submit runId runnerKey =>
    rw [dispatchStep]
    split
    · rename_i handle hanswer
      exact ⟨⟨handle, hanswer⟩, List.mem_append_right _ List.mem_cons_self⟩
    · trivial
  | track runId runnerKey =>
    rw [dispatchStep]
    split
    · exact h
    · trivial
  | update runId runnerKey =>
    rw [dispatchStep]
    split
    · exact h
    · trivial
  | recover runId failure => cases failure <;> trivial
  | done result => exact h

/-- A dispatch is reported when its submit was answered with a handle. -/
theorem submitted_of_dispatched {input : DispatchWorkOrderInput}
    {world : World} {runId : ℕ} {runnerKey : RunnerKey} {reason : String}
    (h : (dispatchWorkOrder executor answers input world).1
      = .done (.dispatched runId runnerKey reason)) :
    (∃ handle, answers.submit = .ok handle) ∧
      ⟨input.workOrderId, toSpec input.workOrder runId⟩
        ∈ (dispatchWorkOrder executor answers input world).2.submissions := by
  have hknows : DispatchPhase.Knows answers input
      (dispatchWorkOrder executor answers input world) :=
    Function.Iterate.rec (DispatchPhase.Knows answers input)
      (show DispatchPhase.Knows answers input (.decide, world) from trivial)
      knows_dispatchNext 8
  generalize dispatchWorkOrder executor answers input world = after at h hknows ⊢
  obtain ⟨phase, after⟩ := after
  rw [show phase = _ from h] at hknows
  exact hknows

/-- No gate of a resume reports a resume. -/
theorem resumeGate_ne_resumed {db : Db} {runId r : ℕ} {runnerKey : RunnerKey}
    {attempt : ℕ} {reason : String} :
    resumeGate executor db runId
      ≠ .error (.resumed r runnerKey attempt reason) := by
  intro h
  unfold resumeGate at h
  split at h
  · cases h
  · split at h
    · cases h
    · split at h
      · cases h
      · unfold rebuildParked at h
        split at h
        · cases h
        · cases h
        · split at h
          · cases h
          · cases h

theorem knows_resumeNext {runId : ℕ} {before : World}
    (s : ResumePhase × World)
    (h : ResumePhase.Knows executor answers runId before s) :
    ResumePhase.Knows executor answers runId before
      (resumeNext executor answers runId s) := by
  obtain ⟨phase, world⟩ := s
  unfold resumeNext
  cases phase with
  | gate =>
    rw [resumeStep]
    dsimp only
    rw [show world = before from h]
    split
    · rename_i result hgate
      cases result with
      | resumed r runnerKey attempt reason =>
        exact absurd hgate resumeGate_ne_resumed
      | _ => trivial
    · rename_i parked hgate
      exact hgate
  | admission parked =>
    rw [resumeStep]
    split
    · trivial
    · split
      · exact h
      · trivial
  | claim parked =>
    rw [resumeStep]
    split
    · exact h
    · trivial
  | submit parked =>
    rw [resumeStep]
    split
    · rename_i handle hanswer
      exact ⟨h, ⟨handle, hanswer⟩, List.mem_append_right _ List.mem_cons_self⟩
    · trivial
  | closeAttempts parked handle =>
    rw [resumeStep]
    split
    · exact h
    · trivial
  | openAttempt parked handle =>
    rw [resumeStep]
    split
    · exact h
    · trivial
  | track parked =>
    rw [resumeStep]
    split
    · exact ⟨parked, h⟩
    · trivial
  | recover parked failure => cases failure <;> trivial
  | done result => exact h

/-- A resume is reported when its submit was answered with a handle. -/
theorem submitted_of_resumed {world : World} {runId r : ℕ}
    {runnerKey : RunnerKey} {attempt : ℕ} {reason : String}
    (h : (resumeParkedRun executor answers runId world).1
      = .done (.resumed r runnerKey attempt reason)) :
    ∃ parked, resumeGate executor world.db runId = .ok parked ∧
      (∃ handle, answers.submit = .ok handle) ∧
        ⟨parked.row.id, toSpec parked.workOrder runId⟩
          ∈ (resumeParkedRun executor answers runId world).2.submissions := by
  have hknows : ResumePhase.Knows executor answers runId world
      (resumeParkedRun executor answers runId world) :=
    Function.Iterate.rec (ResumePhase.Knows executor answers runId world)
      (show ResumePhase.Knows executor answers runId world (.gate, world)
        from rfl) knows_resumeNext 8
  generalize resumeParkedRun executor answers runId world = after at h hknows ⊢
  obtain ⟨phase, after⟩ := after
  rw [show phase = _ from h] at hknows
  exact hknows

end Reports

open ClaudeCodeLocalRunner (SubmitWorks FindsLeftover WorksFor returned step
  submitWorks_iff)

/-- What a reported start rests on: its submit, answered by the runner in a
step, returned a handle that works for the run. -/
def Backed (env : MapperEnv) (spec : WorkOrderSpec)
    (answer : Except Failure RunHandle) (runner : ClaudeCodeLocalRunner)
    (i : ClaudeCodeLocalRunner.Step) : Prop :=
  ∃ handle, answer = .ok handle ∧ WorksFor env spec handle (step env runner i)

theorem backed_iff {env : MapperEnv} {spec : WorkOrderSpec}
    {answer : Except Failure RunHandle} {runner : ClaudeCodeLocalRunner}
    {i : ClaudeCodeLocalRunner.Step} (hanswer : ∃ handle, answer = .ok handle)
    (hreturned : returned runner i = some (spec, answer)) :
    Backed env spec answer runner i ↔ ¬ FindsLeftover runner i := by
  obtain ⟨handle, rfl⟩ := hanswer
  rw [← submitWorks_iff env]
  constructor
  · rintro ⟨other, hother, hworks⟩ asked given hgiven
    rw [hreturned] at hgiven
    obtain ⟨hasked, hhandle⟩ := Prod.mk.inj (Option.some.inj hgiven)
    rw [← hasked, ← Except.ok.inj hhandle, Except.ok.inj hother]
    exact hworks
  · exact fun h => ⟨handle, rfl, h spec handle hreturned⟩

/-- **When a handle is one of a live process working for the run**: along any
run of the runner every submit that returns a handle returns such a one exactly
if none finds a leftover. And a dispatch or a resume that is reported rests on
such a handle exactly if its own submit found none. -/
theorem submits_work_iff (env : MapperEnv) :
    (∀ runner steps, Always (step env) (SubmitWorks env) runner steps ↔
      Always (step env) (fun runner i => ¬ FindsLeftover runner i) runner
        steps) ∧
    (∀ executor answers input world runId runnerKey reason,
      (dispatchWorkOrder executor answers input world).1
        = .done (.dispatched runId runnerKey reason) →
      ∀ runner i,
        returned runner i
          = some (toSpec input.workOrder runId, answers.submit) →
        (Backed env (toSpec input.workOrder runId) answers.submit runner i ↔
          ¬ FindsLeftover runner i)) ∧
    ∀ executor answers runId world r runnerKey attempt reason,
      (resumeParkedRun executor answers runId world).1
        = .done (.resumed r runnerKey attempt reason) →
      ∃ parked, resumeGate executor world.db runId = .ok parked ∧
        ∀ runner i,
          returned runner i
            = some (toSpec parked.workOrder runId, answers.submit) →
          (Backed env (toSpec parked.workOrder runId) answers.submit runner i ↔
            ¬ FindsLeftover runner i) := by
  refine ⟨fun runner steps => ?_, ?_, ?_⟩
  · exact Machine.always_congr (submitWorks_iff env)
  · intro executor answers input world runId runnerKey reason hdone runner i
    exact backed_iff (submitted_of_dispatched hdone).1
  · intro executor answers runId world r runnerKey attempt reason hdone
    obtain ⟨parked, hgate, hanswer, -⟩ := submitted_of_resumed hdone
    exact ⟨parked, hgate, fun runner i => backed_iff hanswer⟩

/-! ## A run that ended before it was resumed -/

/-- A work order as it is submitted. -/
def askedSpec : WorkOrderSpec where
  identity := "wo_app_7_a3f91c2_a1"
  runId := 1
  repositoryOwner := "acme"
  repositoryName := "app"
  baseCommit := "a3f91c2"
  branch := "factory/7-a1"
  taskSpec := "Fix the build."
  acceptanceCriteria := ["The build passes."]
  pathConstraints := []
  budgetCeilingUsd := none
  wallClockTimeoutMinutes := none
  needs := []
  modelTier := none

/-- A runner with room for two runs. -/
def localSettings : LocalRunnerSettings where
  binary := "claude"
  maxConcurrency := 2
  defaultTimeoutMinutes := some 60
  model := fun _ => ""

/-- The work order is submitted, its process exits on a rate limit, and a
minute later the run is resumed. -/
def resubmitted : List ClaudeCodeLocalRunner.Step :=
  [.submit localSettings askedSpec 0,
   .provisioned localSettings 0 (.ok false) ⟨0, "h1", "e1"⟩,
   .exit 0 (.exited 1) "" 600000 "e2",
   .submit localSettings askedSpec 660000]

/-- **The handle of an ended process is returned.** -/
theorem ended_run_returned :
    ¬ Always (step plainEnv) (SubmitWorks plainEnv)
      ClaudeCodeLocalRunner.boot resubmitted := by
  intro h
  obtain ⟨-, -, -, hworks, -⟩ := h
  refine (submitWorks_iff plainEnv _ _).mp hworks ⟨_, rfl, ?_⟩
  exact fun hlive => absurd hlive.1 (by decide)

/-- The first three steps find nothing, and their submit works. -/
theorem submits_work_iff_once :
    Always (step plainEnv) (SubmitWorks plainEnv) ClaudeCodeLocalRunner.boot
      (resubmitted.take 3) :=
  ((submits_work_iff plainEnv).1 _ _).mpr
    ⟨fun ⟨_, h, _⟩ => absurd h.symm (Option.some_ne_none _), not_false,
      not_false, trivial⟩

end Opifex
