import Mathlib.Data.List.Basic

/-!
# Machines driven by their environment

A control loop is a function of its state and of what the outside world
answers at each step. A `run` is the fold of that function over a list of
inputs, so *every* behaviour of the loop is a run: the inputs carry the human
edits, the failures and the order in which concurrent parts move.

Five things are said about runs. An **invariant** is preserved by every step
that satisfies a `guard`, hence by every run all of whose steps do
(`run_invariant`). What the invariant makes safe in a step is safe in every
step of such a run (`always_of_invariant`). And two properties of a step that
agree hold along the same runs (`always_congr`), which is how an exact
condition on a step becomes one on a run. A property that no step restores
holds at the end of a run exactly when each of its steps keeps it
(`run_iff_always`), and one that is to last lasts exactly when each step keeps
it (`thereafter_self_iff`). And what each step adds to a measure adds up along
the run (`measure_run`).
-/

namespace Machine

universe u v

variable {σ : Type u} {ι : Type v}

/-- The state a run ends in. -/
def run (step : σ → ι → σ) (s : σ) (is : List ι) : σ := is.foldl step s

/-- **`P` holds of every step of the run**: of each state the run passes
through together with the input it consumes there. -/
def Always (step : σ → ι → σ) (P : σ → ι → Prop) : σ → List ι → Prop
  | _, [] => True
  | s, i :: is => P s i ∧ Always step P (step s i) is

/-- A property of steps that can be computed can be computed along a run. -/
instance instDecidableAlways (step : σ → ι → σ) (P : σ → ι → Prop) [∀ s i, Decidable (P s i)] :
    ∀ s is, Decidable (Always step P s is)
  | _, [] => isTrue trivial
  | s, i :: is =>
    have : Decidable (Always step P (step s i) is) :=
      instDecidableAlways step P (step s i) is
    inferInstanceAs (Decidable (P s i ∧ Always step P (step s i) is))

/-- **Once `P`, then `Q`**: in every state the run comes to after one in which
`P` holds, `Q` does. -/
def Thereafter (step : σ → ι → σ) (P Q : σ → Prop) (s : σ) (is : List ι) :
    Prop :=
  ∀ as bs cs, is = as ++ bs ++ cs → P (run step s as) →
    Q (run step s (as ++ bs))

/-- What the steps of a run add up to, when each is given a number. -/
def total (step : σ → ι → σ) (f : σ → ι → ℕ) : σ → List ι → ℕ
  | _, [] => 0
  | s, i :: is => f s i + total step f (step s i) is

section Rules

variable (step : σ → ι → σ)

@[simp] theorem run_nil (s : σ) : run step s [] = s := rfl

@[simp] theorem run_cons (s : σ) (i : ι) (is : List ι) :
    run step s (i :: is) = run step (step s i) is := rfl

theorem run_append (s : σ) (is js : List ι) :
    run step s (is ++ js) = run step (run step s is) js :=
  List.foldl_append

/-- The last step of a run is taken from what the others reach. -/
theorem run_concat (s : σ) (is : List ι) (i : ι) :
    run step s (is ++ [i]) = step (run step s is) i := by
  rw [run_append, run_cons, run_nil]

@[simp] theorem always_nil (P : σ → ι → Prop) (s : σ) :
    Always step P s [] := trivial

@[simp] theorem always_cons (P : σ → ι → Prop) (s : σ) (i : ι) (is : List ι) :
    Always step P s (i :: is) ↔ P s i ∧ Always step P (step s i) is :=
  Iff.rfl

/-- A property of every step of a run is one of every step of its
beginning. -/
theorem Always.prefix {P : σ → ι → Prop} {s : σ} {is js : List ι}
    (h : Always step P s (is ++ js)) : Always step P s is := by
  induction is generalizing s with
  | nil => trivial
  | cons i is ih => exact ⟨h.1, ih h.2⟩

/-- And of every step of what follows. -/
theorem Always.suffix {P : σ → ι → Prop} {s : σ} {is js : List ι}
    (h : Always step P s (is ++ js)) : Always step P (run step s is) js := by
  induction is generalizing s with
  | nil => exact h
  | cons i is ih => exact ih h.2

variable {step}

/-- **The projection rule.** A part of the state that only some inputs touch
runs on what it sees of those. -/
theorem run_project {τ κ : Type*} (part : σ → τ) (partStep : τ → κ → τ)
    (touch : ι → Option κ)
    (hpart : ∀ s i, part (step s i)
      = (touch i).elim (part s) (partStep (part s)))
    (s : σ) (is : List ι) :
    part (run step s is) = run partStep (part s) (is.filterMap touch) := by
  induction is generalizing s with
  | nil => rfl
  | cons i is ih =>
    rw [run_cons, ih, hpart]
    cases hi : touch i with
    | none => rw [List.filterMap_cons_none hi, Option.elim_none]
    | some k => rw [List.filterMap_cons_some hi, run_cons, Option.elim_some]

/-- **The invariant rule.** What every guarded step preserves, every run of
guarded steps preserves. -/
theorem run_invariant {Inv : σ → Prop} {guard : σ → ι → Prop}
    (hstep : ∀ s i, Inv s → guard s i → Inv (step s i))
    {s : σ} {is : List ι} (hs : Inv s) (hg : Always step guard s is) :
    Inv (run step s is) := by
  induction is generalizing s with
  | nil => exact hs
  | cons i is ih => exact ih (hstep s i hs hg.1) hg.2

/-- What some step of a guarded run brings about, and every guarded step
preserves, holds at its end. -/
theorem run_of_event {Inv : σ → Prop} {guard event : σ → ι → Prop}
    (hstep : ∀ s i, Inv s → guard s i → Inv (step s i))
    (hevent : ∀ s i, guard s i → event s i → Inv (step s i))
    {s : σ} {is : List ι} (hg : Always step guard s is)
    (h : ¬ Always step (fun s i => ¬ event s i) s is) : Inv (run step s is) := by
  induction is generalizing s with
  | nil => exact absurd trivial h
  | cons i is ih =>
    by_cases hi : event s i
    · show Inv (run step (step s i) is)
      exact run_invariant hstep (hevent s i hg.1 hi) hg.2
    · exact ih hg.2 fun hrest => h ⟨hi, hrest⟩

/-- What every step on one of the run's inputs preserves, the run
preserves. -/
theorem run_preserves_of_mem {Inv : σ → Prop} {is : List ι}
    (hstep : ∀ i ∈ is, ∀ s, Inv s → Inv (step s i)) {s : σ} (hs : Inv s) :
    Inv (run step s is) := by
  induction is generalizing s with
  | nil => exact hs
  | cons i is ih =>
    have hrest := fun j hj => hstep j (List.mem_cons_of_mem i hj)
    exact ih hrest (hstep i List.mem_cons_self s hs)

/-- What no step on one of the run's inputs restores, the run does not
restore. -/
theorem run_reflects_of_mem (Inv : σ → Prop) {is : List ι}
    (htrap : ∀ i ∈ is, ∀ s, Inv (step s i) → Inv s) {s : σ}
    (h : Inv (run step s is)) : Inv s := by
  induction is generalizing s with
  | nil => exact h
  | cons i is ih =>
    have hrest := fun j hj => htrap j (List.mem_cons_of_mem i hj)
    exact htrap i List.mem_cons_self s (ih hrest h)

/-- What every step preserves, every run preserves. -/
theorem run_preserves {Inv : σ → Prop} (hstep : ∀ s i, Inv s → Inv (step s i))
    {s : σ} (is : List ι) (hs : Inv s) : Inv (run step s is) :=
  run_preserves_of_mem (fun i _ s => hstep s i) hs

/-- Two properties hold of every step together when each does. -/
theorem always_and_iff {P Q : σ → ι → Prop} {s : σ} {is : List ι} :
    Always step (fun s i => P s i ∧ Q s i) s is
      ↔ Always step P s is ∧ Always step Q s is := by
  induction is generalizing s with
  | nil => exact iff_of_true trivial ⟨trivial, trivial⟩
  | cons i is ih =>
    rw [always_cons, always_cons, always_cons, ih]
    exact and_and_and_comm

/-- **The safety rule.** If every guarded step preserves the invariant, and
the invariant makes every guarded step safe, every run of guarded steps is
safe throughout. -/
theorem always_of_invariant {Inv : σ → Prop} {guard P : σ → ι → Prop}
    (hstep : ∀ s i, Inv s → guard s i → Inv (step s i))
    (hP : ∀ s i, Inv s → guard s i → P s i)
    {s : σ} {is : List ι} (hs : Inv s) (hg : Always step guard s is) :
    Always step P s is := by
  induction is generalizing s with
  | nil => trivial
  | cons i is ih => exact ⟨hP s i hs hg.1, ih (hstep s i hs hg.1) hg.2⟩

/-- What implies a property in every step implies it along a run. -/
theorem Always.imp {P Q : σ → ι → Prop} (hPQ : ∀ s i, P s i → Q s i) {s : σ}
    {is : List ι} (h : Always step P s is) : Always step Q s is := by
  induction is generalizing s with
  | nil => trivial
  | cons i is ih => exact ⟨hPQ s i h.1, ih h.2⟩

/-- A property holds of every step when it does wherever a run is cut in
two before a step. -/
theorem always_of_split {P : σ → ι → Prop} {s : σ} {is : List ι}
    (h : ∀ as i bs, is = as ++ i :: bs → P (run step s as) i) :
    Always step P s is := by
  induction is generalizing s with
  | nil => trivial
  | cons i is ih =>
    refine ⟨h [] i is rfl, ih fun as j bs his => ?_⟩
    exact h (i :: as) j bs (congrArg (i :: ·) his)

/-- What every step preserves makes safe in a step is safe in every step. -/
theorem always_of_preserved {Inv : σ → Prop} {P : σ → ι → Prop}
    (hstep : ∀ s i, Inv s → Inv (step s i)) (hP : ∀ s i, Inv s → P s i)
    {s : σ} (hs : Inv s) (is : List ι) : Always step P s is := by
  induction is generalizing s with
  | nil => trivial
  | cons i is ih => exact ⟨hP s i hs, ih (hstep s i hs)⟩

/-- Two properties of a step that agree as long as the invariant holds hold
along the same runs, when the first keeps the invariant. -/
theorem always_congr_of_keeps {Inv : σ → Prop} {P Q : σ → ι → Prop}
    (hstep : ∀ s i, Inv s → P s i → Inv (step s i))
    (hPQ : ∀ s i, Inv s → (P s i ↔ Q s i)) {s : σ} {is : List ι}
    (hs : Inv s) : Always step P s is ↔ Always step Q s is := by
  induction is generalizing s with
  | nil => exact Iff.rfl
  | cons i is ih =>
    rw [always_cons, always_cons, ← hPQ s i hs]
    exact and_congr_right fun hi => ih (hstep s i hs hi)

/-- **Exactness lifts from steps to runs.** Two properties that agree on every
step from a state with the invariant hold along the same runs. -/
theorem always_congr_of_preserved {Inv : σ → Prop} {P Q : σ → ι → Prop}
    (hstep : ∀ s i, Inv s → Inv (step s i))
    (hPQ : ∀ s i, Inv s → (P s i ↔ Q s i)) {s : σ} {is : List ι}
    (hs : Inv s) : Always step P s is ↔ Always step Q s is :=
  always_congr_of_keeps (fun s i hs _ => hstep s i hs) hPQ hs

theorem always_congr {P Q : σ → ι → Prop} (hPQ : ∀ s i, P s i ↔ Q s i)
    {s : σ} {is : List ι} : Always step P s is ↔ Always step Q s is :=
  always_congr_of_preserved (fun _ _ (_ : True) => trivial)
    (fun s i _ => hPQ s i) trivial

/-- A property that every step keeps under an exact condition holds all along a
run exactly when each step meets it. -/
theorem always_iff_of_invariant (Inv : σ → Prop) {keeps : σ → ι → Prop}
    (hkeeps : ∀ s i, Inv s → (Inv (step s i) ↔ keeps s i))
    {s : σ} (hs : Inv s) (is : List ι) :
    Always step (fun s i => Inv (step s i)) s is ↔ Always step keeps s is := by
  induction is generalizing s with
  | nil => exact Iff.rfl
  | cons i is ih =>
    rw [always_cons, always_cons, ← hkeeps s i hs]
    exact and_congr_right fun hstep => ih hstep

/-- **The trap rule.** A property that no step restores holds at the end of a
run exactly when each of its steps keeps it. -/
theorem run_iff_always (Inv : σ → Prop) {keeps : σ → ι → Prop} {is : List ι}
    (htrap : ∀ i ∈ is, ∀ s, Inv (step s i) → Inv s)
    (hkeeps : ∀ i ∈ is, ∀ s, Inv s → (Inv (step s i) ↔ keeps s i))
    {s : σ} (hs : Inv s) :
    Inv (run step s is) ↔ Always step keeps s is := by
  induction is generalizing s with
  | nil => exact iff_of_true hs trivial
  | cons i is ih =>
    have htrap' := fun j hj => htrap j (List.mem_cons_of_mem i hj)
    have hkeeps' := fun j hj => hkeeps j (List.mem_cons_of_mem i hj)
    rw [run_cons, always_cons, ← hkeeps i List.mem_cons_self s hs]
    constructor
    · intro h
      -- nothing after a step that broke the property restores it
      have hstep : Inv (step s i) := run_reflects_of_mem Inv htrap' h
      exact ⟨hstep, (ih htrap' hkeeps' hstep).mp h⟩
    · intro ⟨hstep, h⟩
      exact (ih htrap' hkeeps' hstep).mpr h

theorem thereafter_nil {P Q : σ → Prop} {s : σ} :
    Thereafter step P Q s [] ↔ (P s → Q s) := by
  constructor
  · exact fun h => h [] [] [] rfl
  · intro h as bs cs his
    obtain ⟨hasbs, -⟩ := List.append_eq_nil_iff.mp his.symm
    obtain ⟨rfl, rfl⟩ := List.append_eq_nil_iff.mp hasbs
    exact h

/-- What is to hold after a state of a run holds after the first state, or
after one of the rest. -/
theorem thereafter_cons {P Q : σ → Prop} {s : σ} {i : ι} {is : List ι} :
    Thereafter step P Q s (i :: is)
      ↔ (P s → Q s ∧ ∀ bs cs, is = bs ++ cs → Q (run step (step s i) bs))
        ∧ Thereafter step P Q (step s i) is := by
  constructor
  · intro h
    refine ⟨fun hs => ⟨h [] [] (i :: is) rfl hs, fun bs cs his => ?_⟩, ?_⟩
    · exact h [] (i :: bs) cs (congrArg (i :: ·) his) hs
    · exact fun as bs cs his => h (i :: as) bs cs (congrArg (i :: ·) his)
  · rintro ⟨hfirst, hrest⟩ as bs cs his hs
    cases as with
    | cons a as =>
      obtain ⟨rfl, htail⟩ := List.cons.inj his
      exact hrest as bs cs htail hs
    | nil =>
      cases bs with
      | nil => exact (hfirst hs).1
      | cons b bs =>
        obtain ⟨rfl, htail⟩ := List.cons.inj his
        exact (hfirst hs).2 bs cs htail

/-- A property lasts once it holds exactly when each step keeps it. -/
theorem thereafter_self_iff {P : σ → Prop} {s : σ} {is : List ι} :
    Thereafter step P P s is
      ↔ Always step (fun s i => P s → P (step s i)) s is := by
  induction is generalizing s with
  | nil => exact iff_of_true (thereafter_nil.mpr id) trivial
  | cons i is ih =>
    rw [thereafter_cons, always_cons, ← ih]
    constructor
    · exact fun ⟨hfirst, hrest⟩ => ⟨fun hs => (hfirst hs).2 [] is rfl, hrest⟩
    · rintro ⟨hstep, hrest⟩
      refine ⟨fun hs => ⟨hs, fun bs cs his => ?_⟩, hrest⟩
      exact hrest [] bs cs his (hstep hs)

/-- When every step keeps `P`, the states after one with `P` are those with
`P`. -/
theorem thereafter_iff_always {P Q : σ → Prop}
    (hP : ∀ s i, P s → P (step s i)) {s : σ} {is : List ι} :
    Thereafter step P Q s is
      ↔ (P s → Q s)
        ∧ Always step (fun s i => P (step s i) → Q (step s i)) s is := by
  induction is generalizing s with
  | nil => exact thereafter_nil.trans (and_iff_left trivial).symm
  | cons i is ih =>
    rw [thereafter_cons, always_cons, ← ih]
    constructor
    · exact fun ⟨hfirst, hrest⟩ => ⟨fun hs => (hfirst hs).1, hrest⟩
    · rintro ⟨hs₀, hrest⟩
      refine ⟨fun hs => ⟨hs₀ hs, fun bs cs his => ?_⟩, hrest⟩
      exact hrest [] bs cs his (hP s i hs)

/-- **The counting rule.** What every step on one of the run's inputs adds to
a measure, the run adds up. -/
theorem measure_run (measure : σ → ℕ) {f : σ → ι → ℕ} {is : List ι}
    (hstep : ∀ i ∈ is, ∀ s, measure (step s i) = measure s + f s i) (s : σ) :
    measure (run step s is) = measure s + total step f s is := by
  induction is generalizing s with
  | nil => rfl
  | cons i is ih =>
    have hrest := fun j hj => hstep j (List.mem_cons_of_mem i hj)
    rw [run_cons, ih hrest, hstep i List.mem_cons_self, total,
      Nat.add_assoc]

/-- A total of which only some inputs can be part, once each. -/
theorem total_le_countP {f : σ → ι → ℕ} {p : ι → Bool}
    (hf : ∀ s i, f s i ≤ if p i then 1 else 0) (s : σ) (is : List ι) :
    total step f s is ≤ is.countP p := by
  induction is generalizing s with
  | nil => exact Nat.le_refl 0
  | cons i is ih =>
    rw [total, List.countP_cons, Nat.add_comm]
    exact Nat.add_le_add (ih (step s i)) (hf s i)

end Rules

end Machine
