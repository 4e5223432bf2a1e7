import Opifex.SubmitHandles

/-!
# The runner's own backstops

The runner counts its live runs and looks for a run of the same identity before
it waits for a workspace, and writes its map after. In between other submits
pass the same checks. A start therefore keeps the ceiling, one process to an
identity, and the reach of the map exactly where there is still room for it
(`backstops_start`), and that the checks found room says so only as long as
nothing else was started.

So the backstops hold in every state of a run in which no process is started
between the checks of a submit and the start of its own
(`backstops_of_starts_alone`). For every submit that waits, the run is cut where
it was made: since then processes have only ended, and the room the checks found
is still there.
-/

namespace Opifex

open Machine (Always run)

namespace ClaudeCodeLocalRunner

variable {env : MapperEnv} {runner : ClaudeCodeLocalRunner} {ceiling : ℕ}

/-- How many of the processes that were started are alive. -/
def liveProcesses (runner : ClaudeCodeLocalRunner) : ℕ :=
  runner.started.rows.countP StartedRun.isAlive

/-- No process of an identity is alive. -/
def Vacant (identity : String) (runner : ClaudeCodeLocalRunner) : Prop :=
  ∀ run ∈ runner.started.rows, run.isAlive = true →
    run.run.identity ≠ identity

/-- **What the runner promises of the processes it started**: no more than the
ceiling are alive, no two of one identity, and each is found under its
handle. -/
structure Backstops (ceiling : ℕ) (runner : ClaudeCodeLocalRunner) :
    Prop where
  within : runner.liveProcesses ≤ ceiling
  single : ∀ a ∈ runner.started.rows, ∀ b ∈ runner.started.rows,
    a.isAlive = true → b.isAlive = true →
      a.run.identity = b.run.identity → a = b
  reachable : ∀ run ∈ runner.started.rows, run.isAlive = true →
    runner.held run.run.handle = some run

/-- A process is only started where there is room for it: the ceiling is not
reached and no process of its identity is alive. -/
def HasRoom (ceiling : ℕ) (runner : ClaudeCodeLocalRunner) : Step → Prop
  | .provisioned _ id (.ok _) _ =>
    ∀ call, runner.submitting.find id = some call →
      runner.liveProcesses < ceiling ∧ runner.Vacant call.spec.identity
  | _ => True

/-! ## Steps that start nothing -/

/-- A step that starts nothing revives nothing. -/
theorem isAlive_of_observe {input : RunnerInput} {run : StartedRun}
    (h : (run.observe env input).isAlive = true) : run.isAlive = true := by
  have hnone : (run.run.observe env input).outcome = none :=
    Option.isNone_iff_eq_none.mp h
  exact Option.isNone_iff_eq_none.mpr (LocalRun.outcome_of_observe hnone)

theorem backstops_modify {id : ℕ} {f : StartedRun → StartedRun}
    {hid : ∀ run, (f run).id = run.id}
    {hidentity : ∀ run, (f run).run.identity = run.run.identity}
    (h : Backstops ceiling runner)
    (halive : ∀ run, (f run).isAlive = true → run.isAlive = true) :
    Backstops ceiling (runner.modify id f hid hidentity) := by
  have halive' : ∀ run : StartedRun,
      (if run.id == id then f run else run).isAlive = true →
        run.isAlive = true := by
    intro run
    split
    · exact halive run
    · exact fun h => h
  have hidentity' : ∀ run : StartedRun,
      (if run.id == id then f run else run).run.identity
        = run.run.identity := by
    intro run
    split
    · exact hidentity run
    · rfl
  refine ⟨?_, ?_, ?_⟩
  · show (runner.started.rows.map _).countP StartedRun.isAlive ≤ ceiling
    rw [List.countP_map]
    exact (List.countP_mono_left fun run _ => halive' run).trans h.within
  · intro a ha b hb ha' hb' hab
    obtain ⟨a, hamem, rfl⟩ := (Table.mem_modify hid).mp ha
    obtain ⟨b, hbmem, rfl⟩ := (Table.mem_modify hid).mp hb
    rw [hidentity', hidentity'] at hab
    rw [h.single a hamem b hbmem (halive' a ha') (halive' b hb') hab]
  · intro a ha ha'
    obtain ⟨a, hamem, rfl⟩ := (Table.mem_modify hid).mp ha
    obtain ⟨hfind, -⟩ := held_eq_some.mp (h.reachable a hamem (halive' a ha'))
    refine held_eq_some.mpr ⟨?_, rfl⟩
    rw [StartedRun.named, hidentity', ← a.named, find_modify, hfind]
    rfl

theorem backstops_observe {id : ℕ} {input : RunnerInput}
    (h : Backstops ceiling runner) :
    Backstops ceiling (runner.observe env id input) :=
  backstops_modify h fun _ => isAlive_of_observe

/-- A submit starts no process. -/
theorem started_submit {settings : LocalRunnerSettings} {spec : WorkOrderSpec}
    {now : Instant} :
    (runner.submit settings spec now).1.started = runner.started := by
  unfold submit
  dsimp only
  split
  · rfl
  · split <;> rfl

/-- A submit drops no live run from the map. -/
theorem backstops_submit {settings : LocalRunnerSettings}
    {spec : WorkOrderSpec} {now : Instant} (h : Backstops ceiling runner) :
    Backstops ceiling (runner.submit settings spec now).1 := by
  refine ⟨?_, ?_, ?_⟩
  · rw [liveProcesses, started_submit]
    exact h.within
  · rw [started_submit]
    exact h.single
  · rw [started_submit]
    intro run hrun halive
    obtain ⟨hfind, -⟩ := held_eq_some.mp (h.reachable run hrun halive)
    refine held_eq_some.mpr ⟨?_, rfl⟩
    rw [find_submit, find_reapFinishedRuns, hfind, Option.filter_some, if_pos]
    rw [Bool.not_eq_true']
    by_contra hreapable
    rw [Bool.not_eq_false] at hreapable
    rw [StartedRun.not_isAlive_of_isReapable hreapable] at halive
    exact Bool.false_ne_true halive

/-! ## A start -/

section Start

variable {settings : LocalRunnerSettings} {call : SubmitCall} {reused : Bool}
  {launch : Launch}

/-- What a start adds is alive. -/
theorem liveProcesses_start :
    (runner.start settings call reused launch).liveProcesses
      = runner.liveProcesses + 1 := by
  show (runner.started.rows ++ [_]).countP StartedRun.isAlive = _
  rw [List.countP_append]
  rfl

theorem mem_start {run : StartedRun} :
    run ∈ (runner.start settings call reused launch).started.rows ↔
      run ∈ runner.started.rows ∨
        run = launched settings call reused launch runner.runnerTag
          runner.started.next :=
  Table.mem_insert (key_launched settings call reused launch runner.runnerTag)

/-- A run that is there is not the one that is started next. -/
theorem ne_launched {run : StartedRun} (h : run ∈ runner.started.rows) :
    run ≠ launched settings call reused launch runner.runnerTag
      runner.started.next := by
  rintro rfl
  exact (runner.started.bounded _ h).ne rfl

/-- **A start keeps the promise exactly when there is room.** -/
theorem backstops_start (h : Backstops ceiling runner) :
    Backstops ceiling (runner.start settings call reused launch) ↔
      runner.liveProcesses < ceiling ∧ runner.Vacant call.spec.identity := by
  constructor
  · intro hafter
    refine ⟨?_, ?_⟩
    · have hwithin := hafter.within
      rw [liveProcesses_start] at hwithin
      exact hwithin
    · intro run hrun halive hsame
      -- the start takes the place of a live run of its identity
      exact ne_launched hrun (hafter.single run (mem_start.mpr (Or.inl hrun)) _
        (mem_start.mpr (Or.inr rfl)) halive rfl hsame)
  · rintro ⟨hroom, hvacant⟩
    refine ⟨?_, ?_, ?_⟩
    · rw [liveProcesses_start]
      exact hroom
    · intro a ha b hb ha' hb' hab
      obtain ha | rfl := mem_start.mp ha
      · obtain hb | rfl := mem_start.mp hb
        · exact h.single a ha b hb ha' hb' hab
        · exact absurd hab (hvacant a ha ha')
      · obtain hb | rfl := mem_start.mp hb
        · exact absurd hab.symm (hvacant b hb hb')
        · rfl
    · intro run hrun halive
      obtain hrun | rfl := mem_start.mp hrun
      · obtain ⟨hfind, -⟩ := held_eq_some.mp (h.reachable run hrun halive)
        refine held_eq_some.mpr ⟨?_, rfl⟩
        rw [find_start, if_neg]
        · exact hfind
        · rw [run.named]
          exact (hvacant run hrun halive).symm
      · exact held_eq_some.mpr ⟨find_start.trans (if_pos rfl), rfl⟩

end Start

theorem backstops_step (runner : ClaudeCodeLocalRunner) (i : Step)
    (h : Backstops ceiling runner) :
    Backstops ceiling (step env runner i) ↔ HasRoom ceiling runner i := by
  cases i with
  | submit settings spec now => exact iff_of_true (backstops_submit h) trivial
  | provisioned settings id workspace launch =>
    cases hcall : runner.submitting.find id with
    | none =>
      rw [step, hcall]
      refine iff_of_true h ?_
      cases workspace with
      | error message => trivial
      | ok reused =>
        intro call hfind
        rw [hcall] at hfind
        exact absurd hfind.symm (Option.some_ne_none call)
    | some call =>
      cases workspace with
      | error message =>
        rw [step, hcall]
        exact iff_of_true ⟨h.within, h.single, h.reachable⟩ trivial
      | ok reused =>
        have hrelease : Backstops ceiling (runner.release call) :=
          ⟨h.within, h.single, h.reachable⟩
        rw [step_provisioned_ok env hcall, backstops_start hrelease]
        constructor
        · intro hroom other hother
          rw [hcall] at hother
          rw [← Option.some.inj hother]
          exact hroom
        · exact fun hroom => hroom call hcall
  | line id parsed now randomId => exact iff_of_true (backstops_observe h) trivial
  | exit id outcome stderr now randomId =>
    exact iff_of_true (backstops_observe h) trivial
  | deadline id => exact iff_of_true (backstops_observe h) trivial
  | poll handle =>
    refine iff_of_true ?_ trivial
    rw [step, drain]
    split
    · exact h
    · exact backstops_modify h fun _ h => h
  | cancel handle =>
    refine iff_of_true ?_ trivial
    rw [step, cancel]
    split
    · exact h
    · exact backstops_observe h
  | probed version =>
    exact iff_of_true ⟨h.within, h.single, h.reachable⟩ trivial

theorem backstops_boot : Backstops ceiling boot where
  within := Nat.zero_le ceiling
  single := fun _ h => absurd h List.not_mem_nil
  reachable := fun _ h => absurd h List.not_mem_nil

/-! ## What the checks find -/

/-- Every live process is counted. -/
theorem liveProcesses_le_liveRunCount (h : Backstops ceiling runner) :
    runner.liveProcesses ≤ runner.liveRunCount := by
  rw [liveProcesses, liveRunCount, List.countP_eq_length_filter,
    List.countP_eq_length_filter,
    ← List.length_map (fun run : StartedRun => run.run.identity),
    ← List.length_map (Prod.fst : String × ℕ → String)]
  refine (List.subperm_of_subset ?_ ?_).length_le
  · refine List.Nodup.map_on ?_ ((runner.started.nodup.of_map _).filter _)
    intro a ha b hb hab
    obtain ⟨ha, ha'⟩ := List.mem_filter.mp ha
    obtain ⟨hb, hb'⟩ := List.mem_filter.mp hb
    exact h.single a ha b hb ha' hb' hab
  · intro identity hidentity
    obtain ⟨run, hrun, rfl⟩ := List.mem_map.mp hidentity
    obtain ⟨hrun, halive⟩ := List.mem_filter.mp hrun
    -- the map has an entry for the run
    obtain ⟨hfind, -⟩ := held_eq_some.mp (h.reachable run hrun halive)
    rw [run.named] at hfind
    obtain ⟨id, hget, hid⟩ := Option.bind_eq_some_iff.mp hfind
    obtain ⟨entry, hentry, rfl⟩ := Option.map_eq_some_iff.mp hget
    refine List.mem_map.mpr ⟨entry, List.mem_filter.mpr
      ⟨List.mem_of_find?_eq_some hentry, ?_⟩, ?_⟩
    · rw [hid]
      exact halive
    · have hkey := List.find?_some hentry
      exact beq_iff_eq.mp hkey

/-- An identity that the map does not know is vacant. -/
theorem vacant_of_find {identity : String} (h : Backstops ceiling runner)
    (hfind : runner.find identity = none) : runner.Vacant identity := by
  rintro run hrun halive rfl
  obtain ⟨hheld, -⟩ := held_eq_some.mp (h.reachable run hrun halive)
  rw [run.named, hfind] at hheld
  exact Option.some_ne_none run hheld.symm

/-- How many processes were started. -/
def startCount (runner : ClaudeCodeLocalRunner) : ℕ :=
  runner.started.rows.length

/-- A submit waits for its workspace. -/
def Waiting (id : ℕ) (runner : ClaudeCodeLocalRunner) : Prop :=
  ∃ call, runner.submitting.find id = some call

/-- **Nothing was started**: processes may only have ended, so what a submit's checks
found is still so. -/
structure Quiet (before after : ClaudeCodeLocalRunner) : Prop where
  started : after.startCount = before.startCount
  fewer : after.liveProcesses ≤ before.liveProcesses
  vacant : ∀ identity, before.Vacant identity → after.Vacant identity

theorem quiet_of_started {before after : ClaudeCodeLocalRunner}
    (h : after.started = before.started) : Quiet before after where
  started := congrArg (fun table => table.rows.length) h
  fewer := by
    unfold liveProcesses
    rw [h]
  vacant identity hvacant := by
    unfold Vacant
    rw [h]
    exact hvacant

theorem quiet_modify {id : ℕ} {f : StartedRun → StartedRun}
    {hid : ∀ run, (f run).id = run.id}
    {hidentity : ∀ run, (f run).run.identity = run.run.identity}
    (halive : ∀ run, (f run).isAlive = true → run.isAlive = true) :
    Quiet runner (runner.modify id f hid hidentity) := by
  have halive' : ∀ run : StartedRun,
      (if run.id == id then f run else run).isAlive = true →
        run.isAlive = true := by
    intro run
    split
    · exact halive run
    · exact fun h => h
  refine ⟨List.length_map _, ?_, ?_⟩
  · show (runner.started.rows.map _).countP StartedRun.isAlive ≤ _
    rw [List.countP_map]
    exact List.countP_mono_left fun run _ => halive' run
  · intro identity hvacant run hrun hrunning
    obtain ⟨run, hmem, rfl⟩ := (Table.mem_modify hid).mp hrun
    have hother := hvacant run hmem (halive' run hrunning)
    split
    · rw [hidentity]
      exact hother
    · exact hother

theorem quiet_observe {id : ℕ} {input : RunnerInput} :
    Quiet runner (runner.observe env id input) :=
  quiet_modify fun _ => isAlive_of_observe

/-- **What a step can do to the processes**: start that of a submit that
waits, or start none. -/
theorem step_cases (env : MapperEnv) (runner : ClaudeCodeLocalRunner)
    (i : Step) :
    (∃ settings id reused launch call,
      i = .provisioned settings id (.ok reused) launch
        ∧ runner.submitting.find id = some call
        ∧ step env runner i
          = (runner.release call).start settings call reused launch)
      ∨ Quiet runner (step env runner i) := by
  cases i with
  | submit settings spec now => exact Or.inr (quiet_of_started started_submit)
  | provisioned settings id workspace launch =>
    cases hcall : runner.submitting.find id with
    | none =>
      rw [step, hcall]
      exact Or.inr (quiet_of_started rfl)
    | some call =>
      cases workspace with
      | error message =>
        rw [step, hcall]
        exact Or.inr (quiet_of_started rfl)
      | ok reused =>
        exact Or.inl ⟨settings, id, reused, launch, call, rfl, hcall,
          step_provisioned_ok env hcall⟩
  | line id parsed now randomId =>
    exact Or.inr quiet_observe
  | exit id outcome stderr now randomId =>
    exact Or.inr quiet_observe
  | deadline id => exact Or.inr quiet_observe
  | poll handle =>
    rw [step, drain]
    split
    · exact Or.inr (quiet_of_started rfl)
    · exact Or.inr (quiet_modify fun _ h => h)
  | cancel handle =>
    rw [step, cancel]
    split
    · exact Or.inr (quiet_of_started rfl)
    · exact Or.inr quiet_observe
  | probed version => exact Or.inr (quiet_of_started rfl)

/-- **Which submits wait after a step**: those that waited, and one that has
just passed both checks. -/
theorem submitting_step {i : Step} {call : SubmitCall}
    (h : call ∈ (step env runner i).submitting.rows) :
    call ∈ runner.submitting.rows
      ∨ ∃ settings spec now, i = .submit settings spec now
        ∧ call = submitCall settings spec runner.submitting.next
        ∧ (runner.reapFinishedRuns now).find spec.identity = none
        ∧ (runner.reapFinishedRuns now).liveRunCount
          < settings.maxConcurrency := by
  cases i with
  | submit settings spec now =>
    rw [step] at h
    unfold submit at h
    dsimp only at h
    cases hfind : (runner.reapFinishedRuns now).find spec.identity with
    | some existing =>
      rw [hfind] at h
      exact Or.inl h
    | none =>
      rw [hfind] at h
      dsimp only at h
      by_cases hfull :
          settings.maxConcurrency ≤ (runner.reapFinishedRuns now).liveRunCount
      · rw [if_pos hfull] at h
        exact Or.inl h
      · rw [if_neg hfull] at h
        obtain h | h :=
          (Table.mem_insert (key_submitCall settings spec)).mp h
        · exact Or.inl h
        · exact Or.inr ⟨settings, spec, now, rfl, h, hfind, not_le.mp hfull⟩
  | provisioned settings id workspace launch =>
    rw [step] at h
    split at h
    · exact Or.inl h
    · unfold provisioned at h
      cases workspace with
      | error message => exact Or.inl (Table.mem_delete.mp h).1
      | ok reused => exact Or.inl (Table.mem_delete.mp h).1
  | line id parsed now randomId => exact Or.inl h
  | exit id outcome stderr now randomId => exact Or.inl h
  | deadline id => exact Or.inl h
  | poll handle =>
    rw [step, drain] at h
    split at h
    · exact Or.inl h
    · exact Or.inl h
  | cancel handle =>
    rw [step, cancel] at h
    split at h
    · exact Or.inl h
    · exact Or.inl h
  | probed version => exact Or.inl h

/-- **The checks of a submit find room.** -/
theorem room_of_checks {identity : String} {now : Instant}
    (h : Backstops ceiling (runner.reapFinishedRuns now))
    (hfind : (runner.reapFinishedRuns now).find identity = none)
    (hroom : (runner.reapFinishedRuns now).liveRunCount < ceiling) :
    runner.liveProcesses < ceiling ∧ runner.Vacant identity := by
  have hvacant := vacant_of_find h hfind
  exact ⟨(liveProcesses_le_liveRunCount h).trans_lt hroom, hvacant⟩

/-! ## Along a run -/

/-- Submits read the fixed ceiling. -/
def ReadsCeiling (ceiling : ℕ) : Step → Prop
  | .submit settings _ _ => settings.maxConcurrency = ceiling
  | _ => True

/-- **No process is started between the checks of a submit and its own
start**: wherever a submit goes on to wait in a run, and a later step has its
workspace ready, as many processes were started by then as at the checks. -/
def StartsAlone (env : MapperEnv) (steps : List Step) : Prop :=
  ∀ before settings spec now between settings' id reused launch after,
    steps = before ++ .submit settings spec now ::
      (between ++ .provisioned settings' id (.ok reused) launch :: after) →
    let asked := run (step env) boot before
    let checked := step env asked (.submit settings spec now)
    let ready := run (step env) checked between
    ¬ asked.Waiting id → checked.Waiting id → ready.Waiting id →
      ready.startCount = checked.startCount

/-- A submit that waits in a run: where it was made, and that the room it
found is there as long as nothing was started. -/
def RoomSince (env : MapperEnv) (ceiling : ℕ) (steps : List Step)
    (call : SubmitCall) : Prop :=
  ∃ before settings spec now between,
    steps = before ++ .submit settings spec now :: between
      ∧ ¬ (run (step env) boot before).Waiting call.id
      ∧ (step env (run (step env) boot before)
          (.submit settings spec now)).Waiting call.id
      ∧ (step env (run (step env) boot before)
          (.submit settings spec now)).startCount
        ≤ (run (step env) boot steps).startCount
      ∧ ((run (step env) boot steps).startCount
          = (step env (run (step env) boot before)
            (.submit settings spec now)).startCount →
        (run (step env) boot steps).liveProcesses < ceiling
          ∧ (run (step env) boot steps).Vacant call.spec.identity)

/-- The backstops hold at the end of a run, and every submit that waits there
has the room it found unless something was started. -/
structure RoomKept (env : MapperEnv) (ceiling : ℕ) (steps : List Step) :
    Prop where
  backstops : Backstops ceiling (run (step env) boot steps)
  room : ∀ call ∈ (run (step env) boot steps).submitting.rows,
    RoomSince env ceiling steps call

/-- Another step leaves the room of a submit that goes on to wait, or starts a
process. -/
theorem roomSince_concat {steps : List Step} {call : SubmitCall}
    (h : RoomSince env ceiling steps call) (i : Step) :
    RoomSince env ceiling (steps ++ [i]) call := by
  obtain ⟨before, settings, spec, now, between, hsteps, hnot, hwaits, hle,
    hroom⟩ := h
  refine ⟨before, settings, spec, now, between ++ [i], ?_, hnot, hwaits, ?_⟩
  · rw [hsteps, List.append_assoc, List.cons_append]
  rw [Machine.run_concat]
  obtain ⟨settings', id, reused, launch, started, -, -, hstep⟩ | hquiet :=
    step_cases env (run (step env) boot steps) i
  · have hcount : (step env (run (step env) boot steps) i).startCount
        = (run (step env) boot steps).startCount + 1 := by
      rw [hstep]
      exact List.length_append
    rw [hcount]
    exact ⟨hle.trans (Nat.le_succ _), fun heq => absurd heq (by omega)⟩
  · rw [hquiet.started]
    refine ⟨hle, fun heq => ?_⟩
    obtain ⟨hfewer, hvacant⟩ := hroom heq
    exact ⟨hquiet.fewer.trans_lt hfewer, hquiet.vacant _ hvacant⟩

/-- A submit that goes on to wait has found room. -/
theorem roomSince_submit {steps : List Step} {settings : LocalRunnerSettings}
    {spec : WorkOrderSpec} {now : Instant}
    (h : Backstops ceiling
      (run (step env) boot (steps ++ [.submit settings spec now])))
    (hceiling : settings.maxConcurrency = ceiling)
    (hmem : submitCall settings spec
        (run (step env) boot steps).submitting.next
      ∈ (run (step env) boot
        (steps ++ [.submit settings spec now])).submitting.rows)
    (hfind : ((run (step env) boot steps).reapFinishedRuns now).find
      spec.identity = none)
    (hroom : ((run (step env) boot steps).reapFinishedRuns now).liveRunCount
      < settings.maxConcurrency) :
    RoomSince env ceiling (steps ++ [.submit settings spec now])
      (submitCall settings spec
        (run (step env) boot steps).submitting.next) := by
  rw [Machine.run_concat] at h hmem
  have hreaped : Backstops ceiling
      ((run (step env) boot steps).reapFinishedRuns now) := by
    rw [step] at h
    unfold submit at h
    dsimp only at h
    rw [hfind] at h
    dsimp only at h
    rw [if_neg (not_le.mpr hroom)] at h
    exact ⟨h.within, h.single, h.reachable⟩
  have hquiet : Quiet (run (step env) boot steps)
      (step env (run (step env) boot steps) (.submit settings spec now)) :=
    quiet_of_started started_submit
  obtain ⟨hfewer, hvacant⟩ := room_of_checks hreaped hfind (hceiling ▸ hroom)
  refine ⟨steps, settings, spec, now, [], rfl, ?_, ?_, ?_⟩
  · rintro ⟨other, hother⟩
    rw [show (submitCall settings spec
      (run (step env) boot steps).submitting.next).id
        = (run (step env) boot steps).submitting.next from rfl,
      Table.find_next] at hother
    cases hother
  · exact ⟨_, Table.find_eq_some.mpr ⟨hmem, rfl⟩⟩
  · rw [Machine.run_concat]
    exact ⟨le_rfl, fun _ =>
      ⟨hquiet.fewer.trans_lt hfewer, hquiet.vacant _ hvacant⟩⟩

/-- **A step that finds room keeps it** for every submit that waits. -/
theorem roomKept_concat {steps : List Step} {i : Step}
    (h : RoomKept env ceiling steps) (hceiling : ReadsCeiling ceiling i)
    (hroom : HasRoom ceiling (run (step env) boot steps) i) :
    RoomKept env ceiling (steps ++ [i]) := by
  have hbackstops : Backstops ceiling (run (step env) boot (steps ++ [i])) := by
    rw [Machine.run_concat]
    exact (backstops_step _ i h.backstops).mpr hroom
  refine ⟨hbackstops, fun call hcall => ?_⟩
  have hcall' := hcall
  rw [Machine.run_concat] at hcall'
  obtain hbefore | ⟨settings, spec, now, rfl, rfl, hfind, hlt⟩ :=
    submitting_step hcall'
  · exact roomSince_concat (h.room call hbefore) i
  · exact roomSince_submit hbackstops hceiling hcall hfind hlt

/-- A start that comes alone finds the room its submit found. -/
theorem hasRoom_of_starts_alone {before : List Step} {i : Step}
    {after : List Step} (halone : StartsAlone env (before ++ i :: after))
    (h : RoomKept env ceiling before) :
    HasRoom ceiling (run (step env) boot before) i := by
  cases i with
  | provisioned settings id workspace launch =>
    cases workspace with
    | error message => trivial
    | ok reused =>
      intro call hcall
      obtain ⟨hmem, rfl⟩ := Table.find_eq_some.mp hcall
      obtain ⟨first, settings', spec, now, between, hsteps, hnot, hwaits, -,
        hroom⟩ := h.room call hmem
      have hready : run (step env) boot before
          = run (step env) (step env (run (step env) boot first)
            (.submit settings' spec now)) between := by
        rw [hsteps, Machine.run_append, Machine.run_cons]
      refine hroom ?_
      rw [hready]
      refine halone first settings' spec now between settings _ reused launch
        after ?_ hnot hwaits ?_
      · rw [hsteps, List.append_assoc, List.cons_append]
        rfl
      · rw [← hready]
        exact ⟨call, hcall⟩
  | submit settings spec now => trivial
  | line id parsed now randomId => trivial
  | exit id outcome stderr now randomId => trivial
  | deadline id => trivial
  | poll handle => trivial
  | cancel handle => trivial
  | probed version => trivial

/-- **The backstops hold in every state of a run in which no process is started
between the checks of a submit and its own start.** -/
theorem backstops_of_starts_alone (env : MapperEnv) (ceiling : ℕ)
    (steps : List Step) (hceiling : ∀ i ∈ steps, ReadsCeiling ceiling i)
    (halone : StartsAlone env steps) :
    Always (step env) (fun runner i => Backstops ceiling (step env runner i))
      boot steps := by
  have hkept : ∀ before after, steps = before ++ after →
      RoomKept env ceiling before := by
    intro before
    induction before using List.reverseRecOn with
    | nil =>
      exact fun after _ =>
        ⟨backstops_boot, fun call hcall => absurd hcall List.not_mem_nil⟩
    | append_singleton before i ih =>
      intro after hsteps
      rw [List.append_assoc, List.singleton_append] at hsteps
      have hbefore := ih (i :: after) hsteps
      refine roomKept_concat hbefore (hceiling i ?_) ?_
      · rw [hsteps]
        exact List.mem_append_right _ List.mem_cons_self
      · exact hasRoom_of_starts_alone (hsteps ▸ halone) hbefore
  refine Machine.always_of_split fun before i after hsteps => ?_
  have hstep := (hkept (before ++ [i]) after (by
    rw [hsteps, List.append_assoc, List.singleton_append])).backstops
  rwa [Machine.run_concat] at hstep

/-! ## Two submits that wait together -/

/-- Another work order. -/
def otherSpec : WorkOrderSpec :=
  { askedSpec with identity := "wo_app_8_a3f91c2_a1", branch := "factory/8-a1" }

/-- Two submits wait together, and the workspace of one cannot be made. -/
def startedOnce : List Step :=
  [.submit localSettings askedSpec 0,
   .submit localSettings otherSpec 1,
   .provisioned localSettings 0 (.error "no space left") ⟨2, "h1", "e1"⟩,
   .provisioned localSettings 1 (.ok false) ⟨3, "h2", "e2"⟩]

/-- The other one is started with the room its checks found. -/
theorem backstops_startedOnce :
    Always (step plainEnv)
      (fun runner i => Backstops 2 (step plainEnv runner i)) boot
      startedOnce := by
  refine backstops_of_starts_alone plainEnv 2 startedOnce ?_ ?_
  · intro i hi
    simp only [startedOnce, List.mem_cons, List.not_mem_nil, or_false] at hi
    rcases hi with rfl | rfl | rfl | rfl
    · exact rfl
    · exact rfl
    · exact trivial
    · exact trivial
  · intro before settings spec now between settings' id reused launch after hsteps
    unfold startedOnce at hsteps
    rcases before with _ | ⟨first, _ | ⟨second, _ | ⟨third, rest⟩⟩⟩
    · -- the first submit does not wait under the identifier of the second
      rcases between with _ | ⟨first, _ | ⟨second, _ | ⟨third, rest⟩⟩⟩ <;>
        simp at hsteps
      obtain ⟨⟨rfl, rfl, rfl⟩, -, -, ⟨-, rfl, -, -⟩, -⟩ := hsteps
      rintro asked checked ready - ⟨call, hcall⟩ -
      have hnone : checked.submitting.find 1 = none := rfl
      rw [hnone] at hcall
      cases hcall
    · rcases between with _ | ⟨second, _ | ⟨third, rest⟩⟩ <;> simp at hsteps
      obtain ⟨rfl, ⟨rfl, rfl, rfl⟩, rfl, -, -⟩ := hsteps
      exact fun _ _ _ => rfl
    · simp at hsteps
    · rcases rest with _ | ⟨fourth, rest⟩ <;> simp at hsteps

/-- Two submits of one work order pass the checks before either has its
workspace. -/
def submittedTwice : List Step :=
  [.submit localSettings askedSpec 0,
   .submit localSettings askedSpec 1,
   .provisioned localSettings 0 (.ok false) ⟨2, "h1", "e1"⟩,
   .provisioned localSettings 1 (.ok true) ⟨3, "h2", "e2"⟩]

/-- **Two processes work on one branch**, and the first one can be neither
polled nor cancelled. -/
theorem two_processes_of_one_identity :
    ¬ Always (step plainEnv)
      (fun runner i => Backstops 2 (step plainEnv runner i)) boot
      submittedTwice := by
  intro h
  obtain ⟨-, -, hone, htwo, -⟩ := h
  have hroom := (backstops_step _ _ hone).mp htwo
  exact (hroom _ rfl).2 _ List.mem_cons_self rfl rfl

end ClaudeCodeLocalRunner

end Opifex
