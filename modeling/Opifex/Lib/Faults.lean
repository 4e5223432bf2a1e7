import Mathlib.Data.List.Basic

/-!
# Programs whose statements may fail

A program is a sequence of statements on a store, each atomic, with computation in
between. What becomes of each statement is an argument: it is carried out, or refused,
or carried out and reported as failed, or the process is killed before it. A statement
that is reported as failed throws; a `catch` takes that up, and nothing takes up a kill.

The end of a program comes with the states its statements left. What holds of all of
them holds whenever the process is killed: the rules are those of a Hoare logic with a
condition on every state in between (`Keeps`).
-/

namespace Faults

universe v

/-- What becomes of a statement. One that is reported as failed may have been carried
out; the program cannot tell `refused` from `lost`. -/
inductive Fate where
  | done
  /-- Not carried out, and reported as failed. -/
  | refused
  /-- Carried out, and reported as failed. -/
  | lost
  /-- The process is killed before it. -/
  | killed
deriving DecidableEq, Repr

/-- It is carried out. -/
def Fate.commits : Fate → Bool
  | .done | .lost => true
  | .refused | .killed => false

/-- The caller is told that it failed. -/
def Fate.throws : Fate → Bool
  | .refused | .lost => true
  | .done | .killed => false

/-- How a program ends: it returns a value, it throws, or its process dies, between two
statements or in one. -/
inductive Outcome (α : Type*) where
  | returned (value : α)
  | thrown
  | killed
deriving DecidableEq

/-- The end of a program: what the statements that were carried out left, one after
the other, and the store. -/
structure Ending (σ α : Type*) where
  outcome : Outcome α
  passed : List σ
  store : σ

/-- The states a program was in after it started. -/
def Ending.states {σ α : Type*} (ending : Ending σ α) : List σ :=
  ending.passed ++ [ending.store]

/-- A program with named statements. -/
def Program (ι σ α : Type*) := (ι → Fate) → σ → Ending σ α

namespace Program

variable {ι σ : Type*} {α β : Type v}

/-- The program that returns a value and executes nothing. -/
def ret (value : α) : Program ι σ α := fun _ s => ⟨.returned value, [], s⟩

/-- The program that throws at once. -/
def throw : Program ι σ α := fun _ s => ⟨.thrown, [], s⟩

/-- One program after another. What throws or dies ends both. -/
def bind (p : Program ι σ α) (f : α → Program ι σ β) : Program ι σ β := fun fates s =>
  match p fates s with
  | ⟨.returned value, passed, s⟩ =>
    let ending := f value fates s
    ⟨ending.outcome, passed ++ ending.passed, ending.store⟩
  | ⟨.thrown, passed, s⟩ => ⟨.thrown, passed, s⟩
  | ⟨.killed, passed, s⟩ => ⟨.killed, passed, s⟩

instance : Monad (Program ι σ) where
  pure := ret
  bind := bind

/-- One statement. -/
def statement (name : ι) (f : σ → σ × α) : Program ι σ α := fun fates s =>
  match fates name with
  | .done => ⟨.returned (f s).2, [(f s).1], (f s).1⟩
  | .refused => ⟨.thrown, [], s⟩
  | .lost => ⟨.thrown, [(f s).1], (f s).1⟩
  | .killed => ⟨.killed, [], s⟩

/-- `try … catch`: none is that it threw. -/
def attempt (p : Program ι σ α) : Program ι σ (Option α) := fun fates s =>
  match p fates s with
  | ⟨.returned value, passed, s⟩ => ⟨.returned (some value), passed, s⟩
  | ⟨.thrown, passed, s⟩ => ⟨.returned none, passed, s⟩
  | ⟨.killed, passed, s⟩ => ⟨.killed, passed, s⟩

/-! ## Rules -/

section Rules

variable {p : Program ι σ α} {f : α → Program ι σ β} {fates : ι → Fate} {s s' : σ}
variable {Inv : σ → Prop}

/-- **Whatever becomes of its statements**, the program leaves no state without the
property once it starts in one that has it. -/
def Keeps (Inv : σ → Prop) (p : Program ι σ α) : Prop :=
  ∀ fates s, Inv s → ∀ state ∈ (p fates s).states, Inv state

theorem Keeps.store (h : Keeps Inv p) (hs : Inv s) : Inv (p fates s).store :=
  h fates s hs _ (List.mem_append_right _ List.mem_cons_self)

theorem keeps_pure {value : α} : Keeps Inv (pure value : Program ι σ α) := by
  intro fates s hs state hstate
  obtain rfl := List.mem_singleton.mp hstate
  exact hs

theorem keeps_throw : Keeps Inv (throw : Program ι σ α) := by
  intro fates s hs state hstate
  obtain rfl := List.mem_singleton.mp hstate
  exact hs

theorem keeps_statement {name : ι} {g : σ → σ × α} (h : ∀ s, Inv s → Inv (g s).1) :
    Keeps Inv (statement name g : Program ι σ α) := by
  intro fates s hs state hstate
  unfold statement at hstate
  cases hfate : fates name with
  | done =>
    rw [hfate] at hstate
    obtain rfl | hstate := List.mem_cons.mp hstate
    · exact h s hs
    · rw [List.mem_singleton.mp hstate]
      exact h s hs
  | refused =>
    rw [hfate] at hstate
    rw [List.mem_singleton.mp hstate]
    exact hs
  | lost =>
    rw [hfate] at hstate
    obtain rfl | hstate := List.mem_cons.mp hstate
    · exact h s hs
    · rw [List.mem_singleton.mp hstate]
      exact h s hs
  | killed =>
    rw [hfate] at hstate
    rw [List.mem_singleton.mp hstate]
    exact hs

theorem bind_returned {value : α} {passed : List σ}
    (h : p fates s = ⟨.returned value, passed, s'⟩) :
    (p >>= f) fates s
      = ⟨(f value fates s').outcome, passed ++ (f value fates s').passed,
          (f value fates s').store⟩ := by
  show bind p f fates s = _
  unfold bind
  rw [h]

theorem bind_thrown {passed : List σ} (h : p fates s = ⟨.thrown, passed, s'⟩) :
    (p >>= f) fates s = ⟨.thrown, passed, s'⟩ := by
  show bind p f fates s = _
  unfold bind
  rw [h]

theorem bind_killed {passed : List σ} (h : p fates s = ⟨.killed, passed, s'⟩) :
    (p >>= f) fates s = ⟨.killed, passed, s'⟩ := by
  show bind p f fates s = _
  unfold bind
  rw [h]

theorem keeps_bind (hp : Keeps Inv p) (hf : ∀ value, Keeps Inv (f value)) :
    Keeps Inv (p >>= f) := by
  intro fates s hs state hstate
  have hfirst := hp fates s hs
  cases hend : p fates s with
  | mk outcome passed s' =>
    rw [hend] at hfirst
    cases outcome with
    | returned value =>
      rw [bind_returned hend] at hstate
      have hs' : Inv s' := hfirst s' (List.mem_append_right _ List.mem_cons_self)
      unfold Ending.states at hstate
      dsimp only at hstate
      rw [List.append_assoc] at hstate
      obtain hstate | hstate := List.mem_append.mp hstate
      · exact hfirst state (List.mem_append_left _ hstate)
      · exact hf value fates s' hs' state hstate
    | thrown =>
      rw [bind_thrown hend] at hstate
      exact hfirst state hstate
    | killed =>
      rw [bind_killed hend] at hstate
      exact hfirst state hstate

theorem keeps_attempt (hp : Keeps Inv p) : Keeps Inv (attempt p) := by
  intro fates s hs state hstate
  have hfirst := hp fates s hs
  unfold attempt at hstate
  cases hend : p fates s with
  | mk outcome passed s' =>
    rw [hend] at hfirst hstate
    cases outcome with
    | returned value => exact hfirst state hstate
    | thrown => exact hfirst state hstate
    | killed => exact hfirst state hstate

/-- A statement by itself. -/
theorem statement_apply (fates : ι → Fate) (s : σ) (name : ι) (g : σ → σ × α) :
    (statement name g : Program ι σ α) fates s
      = ⟨if fates name = .killed then .killed
          else if (fates name).throws then .thrown else .returned (g s).2,
        if (fates name).commits then [(g s).1] else [],
        if (fates name).commits then (g s).1 else s⟩ := by
  unfold statement
  cases fates name with
  | done => rfl
  | refused => rfl
  | lost => rfl
  | killed => rfl

/-- A statement whose failure is taken up only ends a program that is killed. -/
theorem attempt_statement_apply (fates : ι → Fate) (s : σ) (name : ι) (g : σ → σ × α) :
    attempt (statement name g : Program ι σ α) fates s
      = ⟨if fates name = .killed then .killed
          else .returned (if (fates name).throws then none else some (g s).2),
        if (fates name).commits then [(g s).1] else [],
        if (fates name).commits then (g s).1 else s⟩ := by
  unfold attempt statement
  cases fates name with
  | done => rfl
  | refused => rfl
  | lost => rfl
  | killed => rfl

end Rules

end Program

end Faults
