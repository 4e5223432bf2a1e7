import Opifex.QuotaExit
import Opifex.QuotaRecord
import Opifex.SubmitHandles

/-!
# When the local runner's sightings are metered

Every sighting a poll hands over was made on a line the runner consumed at some
point of its life, under the tag it had then. With that, what the record of a
poll's batch leaves is a question of when the lines came.
-/

namespace Opifex

open Machine (run)
open Relay (rejectedLine)

namespace ClaudeCodeLocalRunner

variable {env : MapperEnv} {runner : ClaudeCodeLocalRunner} {i : Step}
  {sighting : RunnerQuotaObservation}

/-- The step consumes a line on which the sighting is made. -/
def Sights (env : MapperEnv) (runner : ClaudeCodeLocalRunner) (i : Step)
    (sighting : RunnerQuotaObservation) : Prop :=
  ∃ id line now randomId started, i = .line id (some line) now randomId ∧
    runner.started.find id = some started ∧
      ∃ mapping, env.mapStreamLine line
          (started.run.context (runner.moment now randomId)) = .ok mapping ∧
        mapping.quota? = some sighting

/-- A sighting is the runner's, under the tag it has when it is made. -/
theorem sighted_of_sights (h : Sights env runner i sighting) :
    MapperEnv.Sighted runner.runnerTag sighting := by
  obtain ⟨id, line, now, randomId, started, -, -, mapping, hmapping, hquota⟩ := h
  exact (MapperEnv.mapStreamLine_eq_ok hmapping).2 sighting hquota

/-- Some run holds the sighting until it is polled. -/
def Holds (sighting : RunnerQuotaObservation)
    (runner : ClaudeCodeLocalRunner) : Prop :=
  ∃ started ∈ runner.started.rows, sighting ∈ started.run.pendingQuota

theorem holds_modify {id : ℕ} {f : StartedRun → StartedRun}
    {hid : ∀ run, (f run).id = run.id}
    {hidentity : ∀ run, (f run).run.identity = run.run.identity}
    (h : (runner.modify id f hid hidentity).Holds sighting)
    (hf : ∀ run, sighting ∈ (f run).run.pendingQuota →
      sighting ∈ run.run.pendingQuota) :
    runner.Holds sighting := by
  obtain ⟨started, hmem, hpending⟩ := h
  obtain ⟨before, hbefore, rfl⟩ := (Table.mem_modify hid).mp hmem
  refine ⟨before, hbefore, ?_⟩
  split at hpending
  · exact hf before hpending
  · exact hpending

/-- Only a line queues a sighting. -/
theorem pendingQuota_observe {started : StartedRun} {input : RunnerInput}
    (h : sighting ∈ (started.observe env input).run.pendingQuota) :
    sighting ∈ started.run.pendingQuota ∨
      ∃ line moment mapping, input = .line (some line) moment ∧
        env.mapStreamLine line (started.run.context moment) = .ok mapping ∧
          mapping.quota? = some sighting := by
  cases input with
  | line parsed moment =>
    obtain ⟨-, hquota⟩ | ⟨line, mapping, rfl, hmapping, -, hquota⟩ :=
      @LocalRun.consumeLine_cases env started.run parsed moment
    · left
      rw [← hquota]
      exact h
    · have hmem : sighting ∈ started.run.pendingQuota ++ mapping.quota?.toList := by
        rw [← hquota]
        exact h
      obtain hmem | hmem := List.mem_append.mp hmem
      · exact Or.inl hmem
      · exact Or.inr ⟨line, moment, mapping, rfl, hmapping,
          Option.mem_toList.mp hmem⟩
  | exit outcome stderr moment =>
    left
    have hsame : (started.run.exit outcome stderr moment).pendingQuota
        = started.run.pendingQuota := by
      unfold LocalRun.exit LocalRun.settle
      split
      · rfl
      · split <;> rfl
    rw [← hsame]
    exact h
  | cancel => exact Or.inl h
  | deadline =>
    left
    have hsame : (started.run.observe env .deadline).pendingQuota
        = started.run.pendingQuota := by
      rw [LocalRun.observe]
      split <;> rfl
    rw [← hsame]
    exact h

theorem holds_observe {id : ℕ} {input : RunnerInput}
    (h : (runner.observe env id input).Holds sighting) :
    runner.Holds sighting ∨
      ∃ started line moment mapping,
        runner.started.find id = some started ∧
        input = .line (some line) moment ∧
        env.mapStreamLine line (started.run.context moment) = .ok mapping ∧
          mapping.quota? = some sighting := by
  obtain ⟨started, hmem, hpending⟩ := h
  obtain ⟨before, hbefore, rfl⟩ :=
    (Table.mem_modify (f := StartedRun.observe env input) fun _ => rfl).mp hmem
  split at hpending
  · rename_i hid
    obtain hold | ⟨line, moment, mapping, hinput, hmapping, hquota⟩ :=
      pendingQuota_observe hpending
    · exact Or.inl ⟨before, hbefore, hold⟩
    · exact Or.inr ⟨before, line, moment, mapping,
        Table.find_eq_some.mpr ⟨hbefore, beq_iff_eq.mp hid⟩, hinput, hmapping,
        hquota⟩
  · exact Or.inl ⟨before, hbefore, hpending⟩

/-- What a process does besides writing a line queues no sighting. -/
theorem holds_of_observe {id : ℕ} {input : RunnerInput}
    (hinput : ∀ line moment, input ≠ .line (some line) moment)
    (h : (runner.observe env id input).Holds sighting) :
    runner.Holds sighting := by
  obtain h | ⟨_, line, moment, _, _, hline, _⟩ := holds_observe h
  · exact h
  · exact absurd hline (hinput line moment)

/-- **A sighting that is held was held before, or is made in the step.** -/
theorem holds_step (h : (step env runner i).Holds sighting) :
    runner.Holds sighting ∨ Sights env runner i sighting := by
  cases i with
  | submit settings spec now =>
    left
    have hstarted : (runner.submit settings spec now).1.started
        = runner.started := by
      unfold submit
      dsimp only
      split
      · rfl
      · split <;> rfl
    obtain ⟨started, hmem, hpending⟩ := h
    refine ⟨started, ?_, hpending⟩
    rw [← hstarted]
    exact hmem
  | provisioned settings id workspace launch =>
    left
    cases hcall : runner.submitting.find id with
    | none =>
      rw [step, hcall] at h
      exact h
    | some call =>
      cases workspace with
      | error message =>
        rw [step, hcall] at h
        exact h
      | ok reused =>
        rw [step_provisioned_ok env hcall] at h
        obtain ⟨started, hmem, hpending⟩ := h
        obtain hmem | rfl := (Table.mem_insert (key_launched settings call
          reused launch _)).mp hmem
        · exact ⟨started, hmem, hpending⟩
        · exact absurd hpending List.not_mem_nil
  | line id parsed now randomId =>
    obtain h | ⟨started, line, moment, mapping, hfind, hinput, hmapping,
        hquota⟩ := holds_observe h
    · exact Or.inl h
    · cases hinput
      exact Or.inr ⟨id, line, now, randomId, started, rfl, hfind, mapping,
        hmapping, hquota⟩
  | exit id outcome stderr now randomId =>
    exact Or.inl (holds_of_observe (fun _ _ h => by cases h) h)
  | deadline id => exact Or.inl (holds_of_observe (fun _ _ h => by cases h) h)
  | poll handle =>
    left
    rw [step, drain] at h
    split at h
    · exact h
    · exact holds_modify h fun _ hpending => absurd hpending List.not_mem_nil
  | cancel handle =>
    left
    rw [step, cancel] at h
    split at h
    · exact h
    · exact holds_of_observe (fun _ _ h => by cases h) h
  | probed version => exact Or.inl h

/-- The sighting was made in the run, in a step that satisfies the
condition. -/
def SightedIn (env : MapperEnv) (P : ClaudeCodeLocalRunner → Prop)
    (steps : List Step) (sighting : RunnerQuotaObservation) : Prop :=
  ∃ before i after, steps = before ++ i :: after ∧
    Sights env (run (step env) boot before) i sighting ∧
      P (run (step env) boot before)

/-- **Every sighting that is held was made on a line of the run.** -/
theorem sightedIn_of_holds {steps : List Step}
    (h : (run (step env) boot steps).Holds sighting) :
    SightedIn env (fun _ => True) steps sighting := by
  induction steps using List.reverseRecOn with
  | nil =>
    obtain ⟨started, hmem, -⟩ := h
    exact absurd hmem List.not_mem_nil
  | append_singleton steps i ih =>
    rw [Machine.run_append] at h
    obtain h | h := holds_step h
    · obtain ⟨before, j, after, rfl, hsights, -⟩ := ih h
      exact ⟨before, j, after ++ [i], by
        rw [List.append_assoc, List.cons_append], hsights, trivial⟩
    · exact ⟨steps, i, [], rfl, h, trivial⟩

/-- What a poll hands over is held. -/
theorem holds_of_poll {handle : RunHandle}
    (h : sighting ∈ (runner.poll handle).quota) : runner.Holds sighting := by
  unfold poll at h
  split at h
  · exact absurd h List.not_mem_nil
  · rename_i started hheld
    obtain ⟨hfind, -⟩ := held_eq_some.mp hheld
    obtain ⟨id, -, hid⟩ := Option.bind_eq_some_iff.mp hfind
    exact ⟨started, (Table.find_eq_some.mp hid).1, h⟩

/-- The CLI has not been asked for its version yet, or has not answered. -/
def Unobserved (runner : ClaudeCodeLocalRunner) : Prop :=
  runner.observedVersion.filter Text.truthy = none

theorem runnerTag_eq_key : runner.runnerTag = key.val ↔ runner.Unobserved := by
  unfold runnerTag Unobserved
  cases runner.observedVersion.filter Text.truthy with
  | none => exact iff_of_true rfl rfl
  | some version =>
    refine iff_of_false (fun h => ?_) (Option.some_ne_none version)
    have hlist := congrArg String.toList h
    rw [String.toList_append, String.toList_append, List.append_assoc] at hlist
    have hnil := List.append_cancel_left
      (hlist.trans (List.append_nil key.val.toList).symm)
    exact absurd (List.append_eq_nil_iff.mp hnil).1 (by decide)

/-- A runner that was never asked has not observed it. -/
theorem unobserved_of_unprobed {steps : List Step}
    (h : ∀ i ∈ steps, ∀ version, i ≠ .probed version) :
    (run (step env) boot steps).Unobserved := by
  refine @Machine.run_preserves_of_mem _ _ _ Unobserved _
    (fun i hi runner hrunner => ?_) _ rfl
  have hsame : (step env runner i).observedVersion
      = runner.observedVersion := by
    cases i with
    | submit settings spec now =>
      show (runner.submit settings spec now).1.observedVersion = _
      unfold submit
      dsimp only
      split
      · rfl
      · split <;> rfl
    | provisioned settings id workspace launch =>
      rw [step]
      cases runner.submitting.find id with
      | none => rfl
      | some call => cases workspace <;> rfl
    | poll handle =>
      rw [step, drain]
      split <;> rfl
    | cancel handle =>
      rw [step, cancel]
      split <;> rfl
    | probed version => exact absurd rfl (h _ hi version)
    | _ => rfl
  rw [Unobserved, hsame]
  exact hrunner

theorem batchOf_poll {steps : List Step} {handle : RunHandle} :
    BatchOf key ((run (step env) boot steps).poll handle).quota := by
  intro sighting hsighting
  obtain ⟨before, i, after, -, hsights, -⟩ :=
    sightedIn_of_holds (holds_of_poll hsighting)
  obtain ⟨htag, hdate⟩ := sighted_of_sights hsights
  rw [htag]
  exact ⟨isTag_runnerTag _, hdate⟩

/-- **When what the runner meters is what routing reads**: at every point of
its life, the record of what a poll hands over meters each window under the
runner's registered key exactly if every sighting in it was made before the
version of the CLI was observed. -/
theorem metered_iff (env : MapperEnv) {registered : List RunnerKey}
    (hkey : key ∈ registered) (windows : QuotaWindows) (steps : List Step)
    (handle : RunHandle) :
    Metered key registered windows
        ((run (step env) boot steps).poll handle).quota ↔
      ∀ sighting ∈ ((run (step env) boot steps).poll handle).quota,
        SightedIn env Unobserved steps sighting := by
  rw [metered_iff_bare hkey batchOf_poll]
  refine forall₂_congr fun sighting hsighting => ?_
  constructor
  · intro hbare
    obtain ⟨before, i, after, hsteps, hsights, -⟩ :=
      sightedIn_of_holds (holds_of_poll hsighting)
    refine ⟨before, i, after, hsteps, hsights, runnerTag_eq_key.mp ?_⟩
    rw [← (sighted_of_sights hsights).1]
    exact hbare
  · rintro ⟨before, i, after, -, hsights, hunobserved⟩
    rw [(sighted_of_sights hsights).1]
    exact runnerTag_eq_key.mpr hunobserved

/-! ## A refusal after the version was read -/

/-- The handle of the run whose process is started below. -/
def startedHandle : RunHandle :=
  ⟨key, "wo_app_7_a3f91c2_a1:h1", "wo_app_7_a3f91c2_a1"⟩

/-- A run is started, and its process writes that the window is used up. -/
def refusedAt (now : Instant) : List Step :=
  [.submit localSettings askedSpec 0,
   .provisioned localSettings 0 (.ok false) ⟨0, "h1", "e1"⟩,
   .line 0 (some rejectedLine) now "e2"]

/-- The registration tick asks the CLI for its version first. -/
def refusedAfterProbe : List Step := .probed "2.1.0" :: refusedAt 60000

theorem sighted_after_probe :
    ((run (step plainEnv) boot refusedAfterProbe).poll startedHandle).quota
      = [⟨"claude-code-local@2.1.0", "five_hour", 1785672000000, .exhausted,
          60000⟩] := by
  decide +kernel

/-- **The refusal is lost**: its window is not stored under the key routing
looks up. -/
theorem refusal_unmetered :
    ¬ Metered key [key] KeyMap.empty
      ((run (step plainEnv) boot refusedAfterProbe).poll
        startedHandle).quota := by
  rw [metered_iff_bare (List.mem_singleton_self key) batchOf_poll,
    sighted_after_probe]
  intro h
  exact absurd (h _ List.mem_cons_self) (by decide)

/-- Before the version is observed it is metered. -/
theorem metered_iff_unprobed :
    Metered key [key] KeyMap.empty
      ((run (step plainEnv) boot (refusedAt 60000)).poll
        startedHandle).quota := by
  refine (metered_iff plainEnv (List.mem_singleton_self key) KeyMap.empty
    (refusedAt 60000) startedHandle).mpr fun sighting hsighting => ?_
  obtain ⟨before, i, after, hsteps, hsights, -⟩ :=
    sightedIn_of_holds (holds_of_poll hsighting)
  refine ⟨before, i, after, hsteps, hsights, unobserved_of_unprobed ?_⟩
  intro j hj version hprobed
  have hmem : j ∈ refusedAt 60000 := by
    rw [hsteps]
    exact List.mem_append_left _ hj
  rw [hprobed] at hmem
  simp [refusedAt] at hmem

end ClaudeCodeLocalRunner

end Opifex
