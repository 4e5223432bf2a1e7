import Opifex.Approvals
import Opifex.GitHubWrites
import Opifex.Lib.Machine
import Opifex.Lib.Rounding

/-!
# The empty-fleet alarm

Each tick reads the runners. A tick that finds none that routing can see adds to
the count of the process; from the fifth in a row on, an escalation is raised
unless one is outstanding. A tick that finds one resets the count and resolves
what is outstanding, if there was a count or the process has not seen the fleet
converged before. A tick that cannot read concludes nothing.

The resolve is tried once: where it fails, the count and the flag have moved on,
and no converged tick that follows tries it again. The escalation that is left
stands in the way of every later alarm (`FleetState.stands_after_failed_resolve`).
`FleetState.kept_iff_unstranded` says exactly when the alarm can fire again, and
`FleetState.kept_of_resolved` that it can when no resolve fails.
-/

namespace Opifex

/-- `EMPTY_FLEET_TICKS_BEFORE_ESCALATION` -/
def emptyFleetTicksBeforeEscalation : ℕ := 5

/-- `REGISTRATION_INTERVAL_MS` -/
def registrationIntervalMs : ℕ := 60000

/-- `EMPTY_FLEET_SUMMARY`: the summary line, which is the key of the dedupe. -/
def emptyFleetSummary : String :=
  "No runner is registered: the factory cannot dispatch anything"

/-! ## An escalation that stands while its condition does -/

/-- It is about the control plane, under this summary, and outstanding. -/
def EscalationRow.stands (summary : String) (escalation : EscalationRow) : Bool :=
  escalation.runId.isNone && escalation.kind == .system &&
    escalation.summary == summary && escalation.isUnresolved

/-- What stands under a summary. -/
def standing (summary : String) (escalations : Table EscalationRow) :
    List EscalationRow :=
  escalations.rows.filter (·.stands summary)

theorem key_systemEscalation (summary detail : String) (raisedAt : Instant) (id : ℕ) :
    Keyed.key (systemEscalation summary detail raisedAt id) = id := rfl

/-- How `raiseSystemOnce` returns: it wrote an alarm, or it found that one is
outstanding. -/
inductive RaisedOnce where
  | raised
  | deduplicated
deriving DecidableEq, Repr

/-- `raiseSystemOnce`: the lookup is answered or fails, and so does the create;
none where it throws. -/
def raiseSystemOnce (escalations : Table EscalationRow) (summary detail : String)
    (raisedAt : Instant) (lookup : Bool) (create : WriteAttempt) :
    Table EscalationRow × Option RaisedOnce :=
  if !lookup then (escalations, none)
  else if (escalations.rows.any (·.stands summary)) then
    (escalations, some .deduplicated)
  else
    (if create.isDone then
        escalations.insert (systemEscalation summary detail raisedAt)
          (key_systemEscalation summary detail raisedAt)
      else escalations,
      if create = .answered then some .raised else none)

/-- `resolveSystem`: how many were resolved; none where it throws. -/
def resolveSystem (escalations : Table EscalationRow) (summary : String)
    (update : WriteAttempt) : Table EscalationRow × Option ℕ :=
  (if update.isDone then
      escalations.modify (·.stands summary) EscalationRow.resolve
        EscalationRow.key_resolve
    else escalations,
    if update = .answered then some (standing summary escalations).length else none)

/-! ## The service -/

/-- A row of `runners`, as the check of the fleet reads it. A fleet whose rows have no
manifest is empty. -/
structure FleetRow where
  key : String
  /-- Its capability manifest was written. -/
  hasCapability : Bool
deriving DecidableEq

/-- What a tick finds: how many runners are registered and how many of them routing can
see, or that it could not tell. -/
inductive FleetReport where
  | checked (registered routable : ℕ) (unroutable : List String)
  /-- The rows could not be read, or a manifest not be made sense of. -/
  | unchecked (error : String)
deriving DecidableEq

/-- `check` -/
def FleetReport.ofRead : Except String (List FleetRow) → FleetReport
  | .error error => .unchecked error
  | .ok rows =>
    .checked rows.length (rows.countP (·.hasCapability))
      ((rows.filter (!·.hasCapability)).map (·.key))

/-- Routing has nothing at all to route to. -/
def hasEmptyFleet : FleetReport → Bool
  | .checked _ routable _ => routable == 0
  | .unchecked _ => false

/-- The sentence of the alarm: there is no runner, or none that routing can see. -/
def describeEmptiness (registered : ℕ) (unroutable : List String) : String :=
  if registered = 0 then "the runners table has no rows at all"
  else
    toString registered ++ " runner row(s) exist but none carries a capability " ++
      "manifest, so routing cannot see any of them: " ++
      ", ".intercalate unroutable

/-- What the last tick found: runners that can be used, none, or nothing because it
could not read. -/
inductive FleetObservationState where
  | converged
  | empty
  | unknown
deriving DecidableEq, Repr

/-- What one tick concluded, with the number of ticks in a row that found the fleet
empty. -/
structure FleetObservation where
  state : FleetObservationState
  emptyTicks : ℕ
  escalated : Bool
deriving DecidableEq

/-- What a tick is answered by the clock, the settings and the database. Each of its
statements may fail. -/
structure FleetTick where
  now : Instant
  read : Except String (List FleetRow)
  dispatchEnabled : Bool
  /-- The lookup of an outstanding escalation. -/
  lookup : Bool
  /-- The one write of the tick: the create, or the update. -/
  write : WriteAttempt

/-- The service of one process, and the escalations. The counter and the flag are the
process's and are lost with it; the escalations are rows. -/
structure FleetState where
  emptyTicks : ℕ
  observedConverged : Bool
  escalations : Table EscalationRow

namespace FleetState

/-- What an operator reads when the alarm goes off. -/
def alarmDetail (emptyTicks registered : ℕ) (unroutable : List String) : String :=
  let minutes := Rounding.round ((emptyTicks * registrationIntervalMs : ℚ) / 60000)
  "Dispatch is enabled and no runner is routable, so every work order will queue " ++
    "behind \"No runners are registered.\" This has been true for " ++
    toString emptyTicks ++ " consecutive registration tick(s) — about " ++
    toString minutes ++ " minute(s) — which is longer than a database blip at " ++
    "boot takes to converge. " ++ describeEmptiness registered unroutable ++
    ". Check the API log for RunnerRegistrationService: it names the runner it " ++
    "could not register and why, and distinguishes a manifest that fails the " ++
    "capability schema (which will never converge on its own) from a database " ++
    "write that keeps failing (which will)."

/-- `observe` -/
def observe (fleet : FleetState) (tick : FleetTick) : FleetState × FleetObservation :=
  match FleetReport.ofRead tick.read with
  | .unchecked _ => (fleet, ⟨.unknown, fleet.emptyTicks, false⟩)
  | .checked registered routable unroutable =>
    if !hasEmptyFleet (.checked registered routable unroutable) then
      -- the flags move on whether or not the resolve succeeds
      ({ emptyTicks := 0
         observedConverged := true
         escalations :=
           if fleet.emptyTicks > 0 ∨ fleet.observedConverged = false then
             (resolveSystem fleet.escalations emptyFleetSummary tick.write).1
           else fleet.escalations },
        ⟨.converged, 0, false⟩)
    else
      let emptyTicks := fleet.emptyTicks + 1
      if emptyTicks < emptyFleetTicksBeforeEscalation ∨ tick.dispatchEnabled = false then
        ({ fleet with emptyTicks := emptyTicks }, ⟨.empty, emptyTicks, false⟩)
      else
        let raised := raiseSystemOnce fleet.escalations emptyFleetSummary
          (alarmDetail emptyTicks registered unroutable) tick.now tick.lookup
          tick.write
        ({ fleet with emptyTicks := emptyTicks, escalations := raised.1 },
          ⟨.empty, emptyTicks, raised.2 = some .raised⟩)

/-- A fresh boot starts the count again. -/
def restart (fleet : FleetState) : FleetState :=
  { fleet with emptyTicks := 0, observedConverged := false }

end FleetState

/-! ## Runs -/

/-- The service with its past. The streak and the list are ghost: the process knows
neither the ticks of earlier processes nor which alarm it raised. -/
structure WatchedFleet where
  fleet : FleetState
  /-- How many ticks in a row have found the fleet empty, in this process and in
  those before it. -/
  streak : ℕ
  /-- The escalations raised since the last converged tick. -/
  raised : List ℕ

/-- What happens to the service: a tick, or a restart of its process, which starts to
count from nothing. -/
inductive FleetEvent where
  | tick (tick : FleetTick)
  | restart

namespace FleetState

/-- A tick that can read. -/
def Finds (tick : FleetTick) (empty : Bool) : Prop :=
  ∃ rows, tick.read = .ok rows ∧ (rows.countP (·.hasCapability) == 0) = empty

/-- The reads and writes of escalations succeed. -/
def Succeeds (tick : FleetTick) : Prop := tick.lookup = true ∧ tick.write = .answered

/-- The outstanding empty-fleet escalations. -/
def alarms (watched : WatchedFleet) : List EscalationRow :=
  standing emptyFleetSummary watched.fleet.escalations

/-- The keys a table has given out since. -/
def keysSince (before after : Table EscalationRow) : List ℕ :=
  (List.range after.next).drop before.next

/-- An event. What is remembered of a run is the streak of empty ticks, and what was
raised during it. -/
def step (watched : WatchedFleet) : FleetEvent → WatchedFleet
  | .restart => { watched with fleet := watched.fleet.restart }
  | .tick tick =>
    let fleet := (watched.fleet.observe tick).1
    match FleetReport.ofRead tick.read with
    | .unchecked _ => { watched with fleet := fleet }
    | report =>
      if hasEmptyFleet report then
        { fleet := fleet
          streak := watched.streak + 1
          raised := watched.raised ++
            keysSince watched.fleet.escalations fleet.escalations }
      else { fleet := fleet, streak := 0, raised := [] }

/-- Nothing was observed and nothing is raised. -/
def unobserved : WatchedFleet := ⟨⟨0, false, Table.empty⟩, 0, []⟩

/-- The ticks in a row that found the fleet empty: those of this process, or with
those of the processes before it. -/
def emptyInARow (acrossRestarts : Bool) (watched : WatchedFleet) : ℕ :=
  if acrossRestarts then watched.streak else watched.fleet.emptyTicks

/-- **The alarm is kept**: it stands from the fifth empty tick on, it is gone after a
tick that finds the fleet converged, and a tick that cannot read changes nothing. -/
structure Kept (acrossRestarts : Bool) (watched : WatchedFleet) (tick : FleetTick) :
    Prop where
  /-- From the fifth empty tick in a row on, one alarm of this outage stands. -/
  alarmed : Finds tick true → tick.dispatchEnabled = true → Succeeds tick →
    emptyFleetTicksBeforeEscalation
        ≤ emptyInARow acrossRestarts (step watched (.tick tick)) →
      ∃ alarm, alarms (step watched (.tick tick)) = [alarm] ∧
        alarm.id ∈ (step watched (.tick tick)).raised
  /-- After a converged tick none does. -/
  cleared : Finds tick false → Succeeds tick →
    alarms (step watched (.tick tick)) = []
  /-- A tick that cannot read leaves all as it was. -/
  ignored : (∀ empty, ¬ Finds tick empty) → step watched (.tick tick) = watched

/-- **Unstranded**: no alarm has been left behind, of an earlier outage or by an earlier
process. A condition on the state before the tick. -/
structure Unstranded (acrossRestarts : Bool) (watched : WatchedFleet)
    (tick : FleetTick) : Prop where
  /-- Where the alarm is due, none stands from before the last converged tick; and
  where it is due by the ticks of earlier processes only, one stands. -/
  alarmed : Finds tick true → tick.dispatchEnabled = true → Succeeds tick →
    emptyFleetTicksBeforeEscalation ≤ emptyInARow acrossRestarts watched + 1 →
      (∀ alarm ∈ alarms watched, alarm.id ∈ watched.raised) ∧
        (watched.fleet.emptyTicks + 1 < emptyFleetTicksBeforeEscalation →
          alarms watched ≠ [])
  /-- Where a process that has seen the fleet converged sees it so once more, none
  stands. -/
  cleared : Finds tick false → Succeeds tick → watched.fleet.emptyTicks = 0 →
    watched.fleet.observedConverged = true → alarms watched = []

/-- A property of the ticks of a run. -/
def OfTicks (P : WatchedFleet → FleetTick → Prop) (watched : WatchedFleet) :
    FleetEvent → Prop
  | .tick tick => P watched tick
  | .restart => True

section Spec

variable {watched : WatchedFleet} {tick : FleetTick} {acrossRestarts : Bool}
variable {escalations : Table EscalationRow} {summary detail : String}
variable {raisedAt : Instant} {write : WriteAttempt}

/-! ## What stands -/

theorem stands_systemEscalation (id : ℕ) :
    (systemEscalation summary detail raisedAt id).stands summary = true := by
  simp [EscalationRow.stands, systemEscalation, EscalationRow.isUnresolved, unresolved]

theorem standing_insert :
    standing summary
        (escalations.insert (systemEscalation summary detail raisedAt)
          (key_systemEscalation summary detail raisedAt))
      = standing summary escalations ++
          [systemEscalation summary detail raisedAt escalations.next] := by
  show (escalations.rows ++ [_]).filter _ = _
  rw [List.filter_append, List.filter_singleton, stands_systemEscalation]
  rfl

/-- What is resolved stands no more. -/
theorem standing_resolved :
    standing summary
        (escalations.modify (·.stands summary) EscalationRow.resolve
          EscalationRow.key_resolve) = [] := by
  unfold standing
  rw [List.filter_eq_nil_iff]
  intro row hrow
  have hkey : ∀ row : EscalationRow, Keyed.key row.resolve = Keyed.key row :=
    EscalationRow.key_resolve
  obtain ⟨before, -, rfl⟩ := (Table.mem_modify hkey).mp hrow
  split
  · simp [EscalationRow.stands, EscalationRow.resolve, EscalationRow.isUnresolved,
      unresolved]
  · assumption

theorem any_stands :
    escalations.rows.any (·.stands summary) = !(standing summary escalations).isEmpty := by
  unfold standing
  rw [Bool.eq_iff_iff, List.any_eq_true, Bool.not_eq_true', Bool.eq_false_iff, ne_eq,
    List.isEmpty_iff, List.filter_eq_nil_iff]
  simp

@[simp] theorem keysSince_self : keysSince escalations escalations = [] := by
  simp [keysSince]

@[simp] theorem keysSince_insert {mk : ℕ → EscalationRow}
    {hmk : ∀ n, Keyed.key (mk n) = n} :
    keysSince escalations (escalations.insert mk hmk) = [escalations.next] := by
  show (List.range (escalations.next + 1)).drop escalations.next = _
  rw [List.range_succ, List.drop_append_of_le_length (by simp)]
  simp

/-! ## What a tick does -/

theorem step_of_unread {error : String} (h : tick.read = .error error) :
    step watched (.tick tick) = watched := by
  unfold step observe
  dsimp only
  rw [h]
  rfl

/-- A converged tick moves the count and the flag on, whatever becomes of the
resolve. -/
theorem step_of_converged (h : Finds tick false) :
    step watched (.tick tick)
      = ⟨⟨0, true,
          if watched.fleet.emptyTicks > 0 ∨ watched.fleet.observedConverged = false then
            (resolveSystem watched.fleet.escalations emptyFleetSummary tick.write).1
          else watched.fleet.escalations⟩, 0, []⟩ := by
  obtain ⟨rows, hread, hrows⟩ := h
  have hempty : hasEmptyFleet (.checked rows.length (rows.countP (·.hasCapability))
      ((rows.filter (!·.hasCapability)).map (·.key))) = false := hrows
  unfold step observe
  dsimp only
  rw [hread]
  dsimp only [FleetReport.ofRead]
  rw [hempty]
  rfl

/-- An empty tick counts, and from the fifth on raises what does not stand. -/
theorem step_of_empty (h : Finds tick true) :
    ∃ detail, step watched (.tick tick)
      = let after :=
          if watched.fleet.emptyTicks + 1 < emptyFleetTicksBeforeEscalation ∨
              tick.dispatchEnabled = false then watched.fleet.escalations
          else
            (raiseSystemOnce watched.fleet.escalations emptyFleetSummary detail tick.now
              tick.lookup tick.write).1
        ⟨⟨watched.fleet.emptyTicks + 1, watched.fleet.observedConverged, after⟩,
          watched.streak + 1,
          watched.raised ++ keysSince watched.fleet.escalations after⟩ := by
  obtain ⟨rows, hread, hrows⟩ := h
  have hempty : hasEmptyFleet (.checked rows.length (rows.countP (·.hasCapability))
      ((rows.filter (!·.hasCapability)).map (·.key))) = true := hrows
  refine ⟨alarmDetail (watched.fleet.emptyTicks + 1) rows.length
    ((rows.filter (!·.hasCapability)).map (·.key)), ?_⟩
  unfold step observe
  dsimp only
  rw [hread]
  dsimp only [FleetReport.ofRead]
  rw [hempty]
  by_cases hearly : watched.fleet.emptyTicks + 1 < emptyFleetTicksBeforeEscalation ∨
      tick.dispatchEnabled = false
  · simp only [if_pos hearly]
    rfl
  · simp only [if_neg hearly]
    rfl

theorem emptyInARow_of_empty (h : Finds tick true) :
    emptyInARow acrossRestarts (step watched (.tick tick))
      = emptyInARow acrossRestarts watched + 1 := by
  obtain ⟨detail, hstep⟩ := @step_of_empty watched _ h
  rw [hstep]
  unfold emptyInARow
  cases acrossRestarts with
  | true => rfl
  | false => rfl

/-! ## One tick -/

theorem alarms_nil_of_resolved (hdone : tick.write.isDone = true)
    (htried : watched.fleet.emptyTicks > 0 ∨ watched.fleet.observedConverged = false)
    (h : Finds tick false) : alarms (step watched (.tick tick)) = [] := by
  rw [step_of_converged h]
  show standing emptyFleetSummary (if _ then _ else _) = []
  rw [if_pos htried, resolveSystem, if_pos hdone]
  exact standing_resolved

/-- A converged tick clears what stands, unless it does not try to. -/
theorem cleared_iff (h : Finds tick false) (hsucceeds : Succeeds tick) :
    alarms (step watched (.tick tick)) = [] ↔
      (watched.fleet.emptyTicks = 0 → watched.fleet.observedConverged = true →
        alarms watched = []) := by
  by_cases htried :
      watched.fleet.emptyTicks > 0 ∨ watched.fleet.observedConverged = false
  · have hdone : tick.write.isDone = true := by
      rw [hsucceeds.2]
      rfl
    refine iff_of_true (alarms_nil_of_resolved hdone htried h) fun hticks hobserved => ?_
    rw [hticks, hobserved] at htried
    simp at htried
  · rw [step_of_converged h]
    show standing emptyFleetSummary (if _ then _ else _) = [] ↔ _
    rw [if_neg htried]
    rw [not_or, Nat.not_lt, Nat.le_zero, Bool.not_eq_false] at htried
    exact ⟨fun hnone _ _ => hnone, fun hnone => hnone htried.1 htried.2⟩

/-- Where the alarm is due, one of this outage stands afterwards exactly when none
stands from before it. -/
theorem alarmed_iff (hone : (alarms watched).length ≤ 1) (h : Finds tick true)
    (hdispatch : tick.dispatchEnabled = true) (hsucceeds : Succeeds tick) :
    (∃ alarm, alarms (step watched (.tick tick)) = [alarm] ∧
        alarm.id ∈ (step watched (.tick tick)).raised) ↔
      (∀ alarm ∈ alarms watched, alarm.id ∈ watched.raised) ∧
        (watched.fleet.emptyTicks + 1 < emptyFleetTicksBeforeEscalation →
          alarms watched ≠ []) := by
  have hsame : (∃ alarm, alarms watched = [alarm] ∧ alarm.id ∈ watched.raised) ↔
      (∀ alarm ∈ alarms watched, alarm.id ∈ watched.raised) ∧ alarms watched ≠ [] := by
    cases halarms : alarms watched with
    | nil => simp
    | cons alarm others =>
      rw [halarms, List.length_cons, Nat.succ_le_succ_iff, Nat.le_zero,
        List.length_eq_zero_iff] at hone
      simp [hone]
  obtain ⟨detail, hstep⟩ := @step_of_empty watched tick h
  rw [hstep]
  unfold alarms at hsame ⊢
  dsimp only
  by_cases hearly : watched.fleet.emptyTicks + 1 < emptyFleetTicksBeforeEscalation
  · rw [if_pos (Or.inl hearly), keysSince_self, List.append_nil, hsame]
    exact and_congr_right fun _ => ⟨fun hstands _ => hstands, fun h => h hearly⟩
  · rw [if_neg (by simp [hearly, hdispatch])]
    unfold raiseSystemOnce
    rw [if_neg (by simp [hsucceeds.1]), any_stands]
    by_cases hnone : standing emptyFleetSummary watched.fleet.escalations = []
    · rw [hnone, if_neg (by simp), hsucceeds.2]
      refine iff_of_true ⟨_, standing_insert.trans (by rw [hnone]; rfl), ?_⟩ ?_
      · show watched.fleet.escalations.next ∈ _
        rw [if_pos (show WriteAttempt.answered.isDone = true from rfl), keysSince_insert]
        exact List.mem_append_right _ List.mem_cons_self
      · exact ⟨fun alarm halarm => (nomatch halarm), fun h => absurd h hearly⟩
    · rw [if_pos (by simpa using hnone), keysSince_self, List.append_nil, hsame]
      exact and_congr_right fun _ => iff_of_true hnone fun h => absurd h hearly

/-- **A tick keeps the alarm exactly when none has been left behind.** -/
theorem kept_iff_unstranded_tick (hone : (alarms watched).length ≤ 1) :
    Kept acrossRestarts watched tick ↔ Unstranded acrossRestarts watched tick := by
  constructor
  · intro h
    refine ⟨fun hfinds hdispatch hsucceeds hdue => ?_, fun hfinds hsucceeds => ?_⟩
    · rw [← alarmed_iff hone hfinds hdispatch hsucceeds]
      rw [← emptyInARow_of_empty hfinds] at hdue
      exact h.alarmed hfinds hdispatch hsucceeds hdue
    · rw [← cleared_iff hfinds hsucceeds]
      exact h.cleared hfinds hsucceeds
  · intro h
    refine ⟨fun hfinds hdispatch hsucceeds hdue => ?_, fun hfinds hsucceeds => ?_, ?_⟩
    · rw [alarmed_iff hone hfinds hdispatch hsucceeds]
      rw [emptyInARow_of_empty hfinds] at hdue
      exact h.alarmed hfinds hdispatch hsucceeds hdue
    · rw [cleared_iff hfinds hsucceeds]
      exact h.cleared hfinds hsucceeds
    · intro hfinds
      cases hread : tick.read with
      | error error => exact step_of_unread hread
      | ok rows => exact absurd ⟨rows, hread, rfl⟩ (hfinds _)

/-! ## Runs -/

/-- At most one stands. -/
theorem length_alarms_step (hone : (alarms watched).length ≤ 1) (event : FleetEvent) :
    (alarms (step watched event)).length ≤ 1 := by
  cases event with
  | restart => exact hone
  | tick tick =>
    cases hread : tick.read with
    | error error =>
      rw [step_of_unread hread]
      exact hone
    | ok rows =>
      unfold alarms at hone ⊢
      cases hempty : rows.countP (·.hasCapability) == 0 with
      | false =>
        rw [step_of_converged ⟨rows, hread, hempty⟩]
        dsimp only
        split
        · unfold resolveSystem
          dsimp only
          split
          · rw [standing_resolved]
            exact Nat.zero_le 1
          · exact hone
        · exact hone
      | true =>
        obtain ⟨detail, hstep⟩ := @step_of_empty watched tick ⟨rows, hread, hempty⟩
        rw [hstep]
        dsimp only
        split
        · exact hone
        · unfold raiseSystemOnce
          rw [any_stands]
          split
          · exact hone
          · split
            · exact hone
            · rename_i hnone
              dsimp only
              split
              · rw [standing_insert]
                simpa using hnone
              · exact hone

/-- **The alarm is kept along a run exactly when at no tick one has been left
behind**, whether the ticks in a row are counted across restarts or not. -/
theorem kept_iff_unstranded (acrossRestarts : Bool) (events : List FleetEvent) :
    Machine.Always step (OfTicks (Kept acrossRestarts)) unobserved events ↔
      Machine.Always step (OfTicks (Unstranded acrossRestarts)) unobserved events := by
  refine @Machine.always_congr_of_preserved _ _ step
    (fun watched => (alarms watched).length ≤ 1) _ _
    (fun _ event hone => length_alarms_step hone event) ?_ _ _ (Nat.zero_le 1)
  intro watched event hone
  cases event with
  | tick tick => exact kept_iff_unstranded_tick hone
  | restart => exact Iff.rfl

/-! ## Resolves that do not fail -/

/-- A converged tick that finds an alarm standing resolves it. -/
def ResolvesWhatStands (watched : WatchedFleet) (tick : FleetTick) : Prop :=
  Finds tick false → alarms watched ≠ [] → tick.write.isDone = true

/-- No alarm is left behind: each is of this outage, and none stands where a
converged tick would not try to resolve it. -/
structure NoneLeft (watched : WatchedFleet) : Prop where
  one : (alarms watched).length ≤ 1
  raised : ∀ alarm ∈ alarms watched, alarm.id ∈ watched.raised
  tried : watched.fleet.emptyTicks = 0 → watched.fleet.observedConverged = true →
    alarms watched = []

theorem noneLeft_converged (hnone : NoneLeft watched)
    (hresolves : ResolvesWhatStands watched tick) (h : Finds tick false) :
    alarms (step watched (.tick tick)) = [] := by
  by_cases htried :
      watched.fleet.emptyTicks > 0 ∨ watched.fleet.observedConverged = false
  · by_cases hstands : alarms watched = []
    · rw [step_of_converged h]
      show standing emptyFleetSummary (if _ then _ else _) = []
      rw [if_pos htried, resolveSystem]
      dsimp only
      split
      · exact standing_resolved
      · exact hstands
    · exact alarms_nil_of_resolved (hresolves h hstands) htried h
  · rw [step_of_converged h]
    show standing emptyFleetSummary (if _ then _ else _) = []
    rw [if_neg htried]
    rw [not_or, Nat.not_lt, Nat.le_zero, Bool.not_eq_false] at htried
    exact hnone.tried htried.1 htried.2

/-- What stands after an empty tick stood before, or was raised by it. -/
theorem raised_of_empty (hnone : NoneLeft watched) (h : Finds tick true) :
    ∀ alarm ∈ alarms (step watched (.tick tick)),
      alarm.id ∈ (step watched (.tick tick)).raised := by
  obtain ⟨detail, hstep⟩ := @step_of_empty watched tick h
  rw [hstep]
  unfold alarms raiseSystemOnce
  dsimp only
  have hold : ∀ alarm ∈ standing emptyFleetSummary watched.fleet.escalations,
      ∀ more, alarm.id ∈ watched.raised ++ more :=
    fun alarm halarm more => List.mem_append_left _ (hnone.raised alarm halarm)
  split
  · exact fun alarm halarm => hold alarm halarm _
  · split
    · exact fun alarm halarm => hold alarm halarm _
    · split
      · exact fun alarm halarm => hold alarm halarm _
      · dsimp only
        split
        · rw [standing_insert, keysSince_insert]
          intro alarm halarm
          obtain halarm | halarm := List.mem_append.mp halarm
          · exact hold alarm halarm _
          · rw [List.mem_singleton.mp halarm]
            exact List.mem_append_right _ List.mem_cons_self
        · exact fun alarm halarm => hold alarm halarm _

theorem noneLeft_step (hnone : NoneLeft watched) (event : FleetEvent)
    (hresolves : OfTicks ResolvesWhatStands watched event) :
    NoneLeft (step watched event) := by
  refine ⟨length_alarms_step hnone.one event, ?_, ?_⟩
  · cases event with
    | restart => exact hnone.raised
    | tick tick =>
      cases hread : tick.read with
      | error error =>
        rw [step_of_unread hread]
        exact hnone.raised
      | ok rows =>
        cases hempty : rows.countP (·.hasCapability) == 0 with
        | true => exact raised_of_empty hnone ⟨rows, hread, hempty⟩
        | false =>
          rw [noneLeft_converged hnone hresolves ⟨rows, hread, hempty⟩]
          exact fun alarm halarm => nomatch halarm
  · cases event with
    | restart => exact fun _ hobserved => nomatch hobserved
    | tick tick =>
      cases hread : tick.read with
      | error error =>
        rw [step_of_unread hread]
        exact hnone.tried
      | ok rows =>
        cases hempty : rows.countP (·.hasCapability) == 0 with
        | true =>
          obtain ⟨detail, hstep⟩ := @step_of_empty watched tick ⟨rows, hread, hempty⟩
          rw [hstep]
          exact fun hticks => nomatch hticks
        | false =>
          exact fun _ _ => noneLeft_converged hnone hresolves ⟨rows, hread, hempty⟩

/-- **Where no resolve fails, the alarm is kept.** -/
theorem kept_of_resolved (events : List FleetEvent)
    (h : Machine.Always step (OfTicks ResolvesWhatStands) unobserved events) :
    Machine.Always step (OfTicks (Kept false)) unobserved events := by
  refine @Machine.always_of_invariant _ _ step NoneLeft (OfTicks ResolvesWhatStands) _
    (fun _ event hnone hresolves => noneLeft_step hnone event hresolves) ?_ _ _
    ⟨Nat.zero_le 1, fun alarm halarm => (nomatch halarm), fun _ _ => rfl⟩ h
  intro watched event hnone _
  cases event with
  | restart => trivial
  | tick tick =>
    show Kept false watched tick
    rw [kept_iff_unstranded_tick hnone.one]
    exact ⟨fun _ _ _ hdue => ⟨hnone.raised, fun hearly => absurd hdue (Nat.not_le.mpr hearly)⟩,
      fun _ _ => hnone.tried⟩

end Spec

/-! ## An alarm that is left behind -/

/-- A tick that can read, and whose write ends so. -/
def plainTick (rows : List FleetRow) (write : WriteAttempt) : FleetTick :=
  ⟨0, .ok rows, true, true, write⟩

/-- A fleet of one runner with a manifest. -/
def registeredFleet : List FleetRow := [⟨"claude-code-local", true⟩]

/-- Five empty ticks raise the alarm; the fleet is back, and the resolve fails. -/
def resolveFails : List FleetEvent :=
  List.replicate 5 (.tick (plainTick [] .answered)) ++
    [.tick (plainTick registeredFleet .missed)]

/-- **An alarm stands after a failed resolve**, however many converged ticks
follow. -/
theorem stands_after_failed_resolve :
    ¬ ∀ events, Machine.Always step (OfTicks (Kept false)) unobserved events := by
  intro h
  have hrun := h (resolveFails ++ [.tick (plainTick registeredFleet .answered)])
  have hlast : Kept false (Machine.run step unobserved resolveFails)
      (plainTick registeredFleet .answered) := hrun.suffix.1
  have hcleared := hlast.cleared ⟨registeredFleet, rfl, rfl⟩ ⟨rfl, rfl⟩
  have hstands : (alarms (step (Machine.run step unobserved resolveFails)
      (.tick (plainTick registeredFleet .answered)))).isEmpty = false := by
    decide
  rw [hcleared] at hstands
  cases hstands

end FleetState

end Opifex
