import Mathlib.Logic.Relation
import Opifex.OverlappingTicks

/-!
# A tick that nothing overlaps

The steps of a tick and the loop's `runOnce` are two descriptions of one
method. They agree: a tick whose steps nothing comes between ends, and leaves
the world `runOnce` computes. What is proved of whole ticks is thereby about
the schedules that do not overlap, and what overlapping adds is the schedule's
doing alone.
-/

namespace Opifex

open Relation (ReflTransGen)

/-! ## Every operation ends -/

/-- The most phases a dispatch still has before it is done. -/
def DispatchPhase.left : DispatchPhase → ℕ
  | .decide => 8
  | .admission .. => 7
  | .create .. => 6
  | .write .. => 5
  | .submit .. => 4
  | .track .. => 3
  | .update .. => 2
  | .recover .. => 1
  | .done _ => 0

/-- The most phases a resume still has before it is done. -/
def ResumePhase.left : ResumePhase → ℕ
  | .gate => 8
  | .admission _ => 7
  | .claim _ => 6
  | .submit _ => 5
  | .closeAttempts .. => 4
  | .openAttempt .. => 3
  | .track _ => 2
  | .recover .. => 1
  | .done _ => 0

section Ends

variable {env : ExecutorEnv} {answers : Answers}

/-- A phase of a dispatch is one fewer. -/
theorem left_dispatchNext (input : DispatchWorkOrderInput)
    (state : DispatchPhase × World) :
    (dispatchNext env answers input state).1.left ≤ state.1.left - 1 := by
  obtain ⟨phase, world⟩ := state
  unfold dispatchNext
  cases phase with
  | decide =>
    simp only [dispatchStep]
    split
    · split <;> simp [DispatchPhase.left]
    · simp [DispatchPhase.left]
  | admission decision runnerKey =>
    simp only [dispatchStep]
    split
    · simp [DispatchPhase.left]
    · split <;> simp [DispatchPhase.left]
  | create decision runnerKey => simp [dispatchStep, DispatchPhase.left]
  | write runId runnerKey =>
    simp only [dispatchStep]
    split <;> simp [DispatchPhase.left]
  | submit runId runnerKey =>
    simp only [dispatchStep]
    split <;> simp [DispatchPhase.left]
  | track runId runnerKey =>
    simp only [dispatchStep]
    split <;> simp [DispatchPhase.left]
  | update runId runnerKey =>
    simp only [dispatchStep]
    split <;> simp [DispatchPhase.left]
  | recover runId failure =>
    cases failure <;> simp [dispatchStep, DispatchPhase.left]
  | done result => simp [dispatchStep, DispatchPhase.left]

/-- A phase of a resume is one fewer. -/
theorem left_resumeNext (runId : ℕ) (state : ResumePhase × World) :
    (resumeNext env answers runId state).1.left ≤ state.1.left - 1 := by
  obtain ⟨phase, world⟩ := state
  unfold resumeNext
  cases phase with
  | gate =>
    simp only [resumeStep]
    split <;> simp [ResumePhase.left]
  | admission parked =>
    simp only [resumeStep]
    split
    · simp [ResumePhase.left]
    · split <;> simp [ResumePhase.left]
  | claim parked =>
    simp only [resumeStep]
    split <;> simp [ResumePhase.left]
  | submit parked =>
    simp only [resumeStep]
    split <;> simp [ResumePhase.left]
  | closeAttempts parked handle =>
    simp only [resumeStep]
    split <;> simp [ResumePhase.left]
  | openAttempt parked handle =>
    simp only [resumeStep]
    split <;> simp [ResumePhase.left]
  | track parked =>
    simp only [resumeStep]
    split <;> simp [ResumePhase.left]
  | recover parked failure =>
    cases failure <;> simp [resumeStep, ResumePhase.left]
  | done result => simp [resumeStep, ResumePhase.left]

/-- A rank that each step lowers is used up by as many steps. -/
theorem rank_iterate {σ : Type} {f : σ → σ} (rank : σ → ℕ)
    (hdown : ∀ s, rank (f s) ≤ rank s - 1) (n : ℕ) (s : σ) :
    rank (f^[n] s) ≤ rank s - n := by
  induction n generalizing s with
  | zero => exact Nat.le_refl _
  | succ n ih =>
    rw [Function.iterate_succ_apply]
    have hfirst := hdown s
    have hrest := ih (f s)
    omega

/-- **Every dispatch ends.** -/
theorem dispatchWorkOrder_done (env : ExecutorEnv) (answers : Answers)
    (input : DispatchWorkOrderInput) (world : World) :
    ∃ result, (dispatchWorkOrder env answers input world).1 = .done result := by
  have hleft : (dispatchWorkOrder env answers input world).1.left ≤ 8 - 8 :=
    rank_iterate (fun state : DispatchPhase × World => state.1.left)
      (left_dispatchNext input) 8 (.decide, world)
  cases hphase : (dispatchWorkOrder env answers input world).1 with
  | done result => exact ⟨result, rfl⟩
  | _ =>
    rw [hphase] at hleft
    exact absurd hleft (by simp [DispatchPhase.left])

/-- **Every resume ends.** -/
theorem resumeParkedRun_done (env : ExecutorEnv) (answers : Answers)
    (runId : ℕ) (world : World) :
    ∃ result, (resumeParkedRun env answers runId world).1 = .done result := by
  have hleft : (resumeParkedRun env answers runId world).1.left ≤ 8 - 8 :=
    rank_iterate (fun state : ResumePhase × World => state.1.left)
      (left_resumeNext runId) 8 (.gate, world)
  cases hphase : (resumeParkedRun env answers runId world).1 with
  | done result => exact ⟨result, rfl⟩
  | _ =>
    rw [hphase] at hleft
    exact absurd hleft (by simp [ResumePhase.left])

end Ends

/-! ## The steps of one tick -/

/-- A step of a tick while no other has the lease. -/
def Alone (tick : TickInput) (before after : Stage × World) : Prop :=
  after = tickStep tick true before.1 before.2

section Steps

variable {tick : TickInput}

/-- A step, and the steps after it. -/
theorem alone_head {before after : Stage × World} {stage : Stage}
    {world : World} (hstep : tickStep tick true before.1 before.2 =
      (stage, world))
    (hrest : ReflTransGen (Alone tick) (stage, world) after) :
    ReflTransGen (Alone tick) before after :=
  ReflTransGen.head hstep.symm hrest

/-- The issues of a pass, one by one. -/
theorem alone_projecting (input : ProjectionInput)
    (repositories : List RepositoryRow) (issues : List NormalizedIssue) :
    ∀ (result : ProjectionResult) (log : List LoggedFailure) (world : World),
      ReflTransGen (Alone tick)
        (.projecting input result log issues repositories, world)
        (.touching input.repository repositories,
          { world with
            db := (Machine.run (projectNext input) ⟨world.db, result, log⟩
              issues).db }) := by
  induction issues with
  | nil => exact fun result log world => alone_head rfl ReflTransGen.refl
  | cons issue issues ih => exact fun result log world => alone_head rfl (ih ..)

/-- The repositories of a sweep, one by one. -/
theorem alone_sweeping (repositories : List RepositoryRow) :
    ∀ world : World, ReflTransGen (Alone tick)
      (.sweeping repositories, world)
      (.resuming tick.resumes,
        { world with
          db := Machine.run (observeOne tick) world.db repositories }) := by
  induction repositories with
  | nil => exact fun world => alone_head rfl ReflTransGen.refl
  | cons repository repositories ih =>
    intro world
    have hrest := ih { world with db := observeOne tick world.db repository }
    rw [Machine.run_cons]
    refine ReflTransGen.trans ?_ hrest
    unfold observeOne
    cases hobserves : tick.observes repository with
    | false =>
      have hstep : tickStep tick true
          (.sweeping (repository :: repositories)) world =
            (.sweeping repositories, world) := by
        simp [tickStep, hobserves]
      exact alone_head hstep ReflTransGen.refl
    | true =>
      rw [if_pos rfl]
      cases hneeds : needsBaseCommit (tick.issues repository)
          (world.db.loadWorkOrders repository.id) with
      | false =>
        have hstep : tickStep tick true
            (.sweeping (repository :: repositories)) world =
              (.touching repository repositories, world) := by
          simp [tickStep, hobserves, hneeds]
        rw [projectWorkOrders_eq_self (Or.inl hneeds)]
        exact alone_head hstep (alone_head rfl ReflTransGen.refl)
      | true =>
        cases hhead : tick.head repository with
        | none =>
          have hstep : tickStep tick true
              (.sweeping (repository :: repositories)) world =
                (.touching repository repositories, world) := by
            simp [tickStep, hobserves, hneeds, hhead]
          rw [projectWorkOrders_eq_self (Or.inr hhead)]
          exact alone_head hstep (alone_head rfl ReflTransGen.refl)
        | some baseCommit =>
          have hstep : tickStep tick true
              (.sweeping (repository :: repositories)) world =
                (.projecting ⟨repository, tick.issues repository,
                  world.db.loadWorkOrders repository.id, baseCommit,
                  tick.env.now⟩ .none [] (tick.issues repository)
                    repositories, world) := by
            simp [tickStep, hobserves, hneeds, hhead]
          rw [projectWorkOrders_eq_project hneeds hhead]
          exact alone_head hstep ((alone_projecting ..).trans
            (alone_head rfl ReflTransGen.refl))

/-- The phases of a resume, until it is done. -/
theorem alone_resumingOne (runId : ℕ) (runIds : List ℕ) (n : ℕ) :
    ∀ (phase : ResumePhase) (world : World) (result : ResumeResult),
      ((resumeNext tick.env (tick.resumeAnswers runId) runId)^[n]
        (phase, world)).1 = .done result →
      ReflTransGen (Alone tick) (.resumingOne runId phase runIds, world)
        (.resuming runIds, ((resumeNext tick.env (tick.resumeAnswers runId)
          runId)^[n] (phase, world)).2) := by
  induction n with
  | zero =>
    rintro phase world result rfl
    exact alone_head rfl ReflTransGen.refl
  | succ n ih =>
    intro phase world result hdone
    rw [Function.iterate_succ_apply] at hdone ⊢
    by_cases hfinal : ∃ result, phase = .done result
    · obtain ⟨result, rfl⟩ := hfinal
      exact ih _ _ _ hdone
    · have hstep := tickStep_resumingOne tick true runId runIds world
        fun result h => hfinal ⟨result, h⟩
      exact alone_head hstep (ih _ _ _ hdone)

/-- The phases of a dispatch, until it is done. -/
theorem alone_dispatching (input : DispatchWorkOrderInput)
    (batch : List StoredRow) (n : ℕ) :
    ∀ (phase : DispatchPhase) (world : World) (result : ExecutionResult),
      ((dispatchNext tick.env (tick.answers input.workOrderId) input)^[n]
        (phase, world)).1 = .done result →
      ReflTransGen (Alone tick) (.dispatching input phase batch, world)
        (.draining batch, ((dispatchNext tick.env
          (tick.answers input.workOrderId) input)^[n] (phase, world)).2) := by
  induction n with
  | zero =>
    rintro phase world result rfl
    exact alone_head rfl ReflTransGen.refl
  | succ n ih =>
    intro phase world result hdone
    rw [Function.iterate_succ_apply] at hdone ⊢
    by_cases hfinal : ∃ result, phase = .done result
    · obtain ⟨result, rfl⟩ := hfinal
      exact ih _ _ _ hdone
    · have hstep := tickStep_dispatching tick true input batch world
        fun result h => hfinal ⟨result, h⟩
      exact alone_head hstep (ih _ _ _ hdone)

/-- The runs a tick resumes, one by one. -/
theorem alone_resuming (runIds : List ℕ) :
    ∀ world : World, ReflTransGen (Alone tick) (.resuming runIds, world)
      (.selecting, Machine.run (fun world runId =>
        (resumeParkedRun tick.env (tick.resumeAnswers runId) runId world).2)
        world runIds) := by
  induction runIds with
  | nil => exact fun world => alone_head rfl ReflTransGen.refl
  | cons runId runIds ih =>
    intro world
    obtain ⟨result, hdone⟩ := resumeParkedRun_done tick.env
      (tick.resumeAnswers runId) runId world
    exact alone_head rfl
      ((alone_resumingOne runId runIds 8 .gate world result hdone).trans
        (ih _))

/-- The batch of a drain, one by one. -/
theorem alone_draining (batch : List StoredRow) :
    ∀ state : World × DrainResult,
      ReflTransGen (Alone tick) (.draining batch, state.1)
        (.finished,
          (Machine.run (dispatchOne tick.env tick.answers) state batch).1) := by
  induction batch with
  | nil => exact fun state => alone_head rfl ReflTransGen.refl
  | cons stored batch ih =>
    intro state
    refine ReflTransGen.trans ?_
      (ih (dispatchOne tick.env tick.answers state stored))
    rw [dispatchOne_world]
    cases hdispatches : stored.repository.dispatchEnabled with
    | false =>
      have hstep : tickStep tick true (.draining (stored :: batch)) state.1 =
          (.draining batch, state.1) := by
        simp [tickStep, hdispatches]
      exact alone_head hstep ReflTransGen.refl
    | true =>
      rw [if_pos rfl]
      cases hrebuilt : rehydrateWorkOrder stored.row stored.repository with
      | error failure =>
        cases failure with
        | rehydration message =>
          have hstep : tickStep tick true (.draining (stored :: batch))
              state.1 = (.draining batch,
                state.1.quarantine stored.row.id message) := by
            simp [tickStep, hdispatches, hrebuilt]
          exact alone_head hstep ReflTransGen.refl
        | other message =>
          have hstep : tickStep tick true (.draining (stored :: batch))
              state.1 = (.draining batch, state.1) := by
            simp [tickStep, hdispatches, hrebuilt]
          exact alone_head hstep ReflTransGen.refl
      | ok workOrder =>
        have hstep : tickStep tick true (.draining (stored :: batch))
            state.1 = (.dispatching ⟨workOrder, stored.row.id⟩ .decide batch,
              state.1) := by
          simp [tickStep, hdispatches, hrebuilt]
        obtain ⟨result, hdone⟩ := dispatchWorkOrder_done tick.env
          (tick.answers stored.row.id) ⟨workOrder, stored.row.id⟩ state.1
        exact alone_head hstep
          (alone_dispatching ⟨workOrder, stored.row.id⟩ batch 8 .decide state.1
            result hdone)

/-- **A tick that nothing overlaps ends where `runOnce` does.** -/
theorem alone_runOnce (tick : TickInput) (hlease : tick.leaseAcquired = true)
    (world : World) :
    ReflTransGen (Alone tick) (.start, world)
      (.finished, runOnce tick world) := by
  cases henabled : tick.enabled with
  | false =>
    have hstep : tickStep tick true .start world = (.finished, world) := by
      simp [tickStep, henabled]
    unfold runOnce
    rw [henabled, if_neg Bool.false_ne_true]
    exact alone_head hstep ReflTransGen.refl
  | true =>
    have hdrained : ReflTransGen (Alone tick)
        (.resuming tick.resumes, afterSweep tick world)
        (.finished, runOnce tick world) := by
      unfold runOnce
      rw [if_pos henabled]
      exact (alone_resuming tick.resumes (afterSweep tick world)).trans
        (alone_head rfl (alone_draining _ (beforeDrain tick world, .none)))
    refine ReflTransGen.trans ?_ hdrained
    unfold afterSweep observeAll TickInput.sweeps
    rw [hlease, Bool.and_true]
    cases hspends : tick.canSpend with
    | false =>
      have hstep : tickStep tick true .start world =
          (.resuming tick.resumes, world) := by
        simp [tickStep, henabled, hspends]
      exact alone_head hstep ReflTransGen.refl
    | true =>
      have hstep : tickStep tick true .start world =
          (.sweeping world.db.listObserved, world) := by
        simp [tickStep, henabled, hspends]
      exact alone_head hstep (alone_sweeping _ world)

end Steps

end Opifex
