import Mathlib.Algebra.BigOperators.Ring.Finset
import Mathlib.Data.Int.ConditionallyCompleteOrder
import Opifex.DeadTime
import Opifex.Lib.Machine

/-!
# The dead-time ledger holds disjoint intervals

The dead time of a run is the sum of what its intervals have in a window, so
it means something only while no instant is in two of them and none ends
before it began. Every close takes the later of two instants for that, except
the one of an interval whose run stopped anew, which takes the new start as it
is; and an interval is opened without a look at the ones that are closed.

The ledger is a set of proper, disjoint intervals after every pass **exactly
if no pass observes an open interval's run to have stopped, in another way,
before that interval began**, and opens no interval before the end of a closed
one of its run (`isLedger_iff_timely`).
-/

namespace Opifex

/-- An interval as a span: an open one goes on. -/
def DeadInterval.span (interval : DeadInterval) : Span Instant where
  start := interval.startedAt
  stop := interval.endedAt.elim ⊤ fun endedAt => (endedAt : WithTop Instant)

/-- The dead time of a run in a window. -/
def deadTime (intervals : List DeadInterval) (runId : ℕ)
    (lower upper : Instant) : ℤ :=
  ((intervals.filter (·.runId == runId)).map fun interval =>
    overlapMs interval lower upper).sum

/-- **A set of proper, disjoint intervals**: none ends before it began, a run
has one that is open at most, two of one run have no more than an endpoint in
common, and a run's dead time in a window does not exceed the window. -/
structure IsLedger (intervals : List DeadInterval) : Prop where
  proper : ∀ interval ∈ intervals, ∀ endedAt ∈ interval.endedAt,
    interval.startedAt ≤ endedAt
  oneOpen : intervals.Pairwise fun a b => a.runId = b.runId →
    ¬ (a.isOpen ∧ b.isOpen)
  apart : intervals.Pairwise fun a b => a.runId = b.runId →
    a.span.Apart b.span
  bounded : ∀ runId lower upper, lower ≤ upper →
    deadTime intervals runId lower upper ≤ upper - lower

/-- What a pass must find: an interval whose run stopped in another way than it
did is not from after that, and an interval that is opened does not begin
before a closed one of its run ends. -/
structure DeadSweep.IsTimely (sweep : DeadSweep)
    (intervals : List DeadInterval) : Prop where
  restarted : ∀ observation ∈ sweep.observations, ∀ interval ∈ intervals,
    interval.runId = observation.2.runId → interval.isOpen →
      (sweep.run interval.runId).status.isLive →
        observation.1 ≠ interval.kind →
          interval.startedAt ≤ observation.2.since
  opened : ∀ observation ∈ sweep.observations,
    (∀ interval ∈ intervals, interval.runId = observation.2.runId →
      interval.isOpen = false) →
    ∀ interval ∈ intervals, interval.runId = observation.2.runId →
      ∀ endedAt ∈ interval.endedAt, interval.startedAt < endedAt →
        endedAt ≤ observation.2.since

/-! ## Dead time is counted once -/

namespace DeadInterval

variable {interval : DeadInterval} {lower upper : Instant}

theorem stop_of_open (h : interval.isOpen) : interval.span.stop = ⊤ := by
  unfold isOpen at h
  show interval.endedAt.elim _ _ = _
  rw [Option.isNone_iff_eq_none.mp h]
  rfl

theorem stop_of_mem {endedAt : Instant} (h : endedAt ∈ interval.endedAt) :
    interval.span.stop = endedAt := by
  show interval.endedAt.elim _ _ = _
  rw [Option.mem_def.mp h]
  rfl

theorem endedAt_of_closed (h : interval.isOpen = false) :
    ∃ endedAt, endedAt ∈ interval.endedAt := by
  unfold isOpen at h
  exact Option.ne_none_iff_exists'.mp
    fun hnone => by rw [hnone] at h; exact absurd h (by decide)

/-- **The milliseconds of an interval are the instants it holds.** -/
theorem overlapMs_eq_card :
    overlapMs interval lower upper
      = (interval.span.within lower upper).card := by
  have hwithin : interval.span.within lower upper
      = Finset.Ico (max interval.startedAt lower)
          (min (interval.endedAt.getD upper) upper) := by
    ext t
    rw [Span.within, Finset.mem_filter, Finset.mem_Ico, Finset.mem_Ico]
    show _ ∧ interval.startedAt ≤ t ∧ (t : WithTop Instant) < interval.span.stop
      ↔ _
    cases hended : interval.endedAt with
    | none =>
      rw [stop_of_open (by rw [isOpen, hended]; rfl), Option.getD_none,
        min_self, max_le_iff]
      exact ⟨fun h => ⟨⟨h.2.1, h.1.1⟩, h.1.2⟩,
        fun h => ⟨⟨h.1.2, h.2⟩, h.1.1, WithTop.coe_lt_top t⟩⟩
    | some endedAt =>
      rw [stop_of_mem hended, Option.getD_some, max_le_iff, lt_min_iff,
        WithTop.coe_lt_coe]
      exact ⟨fun h => ⟨⟨h.2.1, h.1.1⟩, h.2.2, h.1.2⟩,
        fun h => ⟨⟨h.1.2, h.2.2⟩, h.1.1, h.2.1⟩⟩
  rw [hwithin, Int.card_Ico, Int.toNat_eq_max]
  exact max_comm _ _

end DeadInterval

/-- **Intervals that are apart count no instant twice.** -/
theorem deadTime_le {intervals : List DeadInterval}
    (h : intervals.Pairwise fun a b => a.runId = b.runId →
      a.span.Apart b.span) (runId : ℕ) {lower upper : Instant}
    (hle : lower ≤ upper) :
    deadTime intervals runId lower upper ≤ upper - lower := by
  have hmine : ((intervals.filter (·.runId == runId)).map
      DeadInterval.span).Pairwise Span.Apart := by
    rw [List.pairwise_map]
    refine (h.filter _).imp_of_mem fun ha hb hapart => hapart ?_
    have ha' := eq_of_beq (List.mem_filter.mp ha).2
    rw [ha', eq_of_beq (List.mem_filter.mp hb).2]
  have hsum : _ ≤ (Finset.Ico lower upper).card :=
    Span.sum_card_within_le hmine
  rw [List.map_map, Int.card_Ico] at hsum
  have hcast : deadTime intervals runId lower upper
      = (((intervals.filter (·.runId == runId)).map
        ((fun a => (Span.within a lower upper).card) ∘
          DeadInterval.span)).sum : ℕ) := by
    rw [deadTime, Nat.cast_list_sum, List.map_map]
    congr 1
    refine List.map_congr_left fun interval _ => ?_
    exact DeadInterval.overlapMs_eq_card
  rw [hcast]
  calc (((intervals.filter (·.runId == runId)).map
        ((fun a => (Span.within a lower upper).card) ∘
          DeadInterval.span)).sum : ℤ)
      ≤ ((upper - lower).toNat : ℤ) := Int.ofNat_le.mpr hsum
    _ = upper - lower := Int.toNat_of_nonneg (sub_nonneg.mpr hle)

/-- Proper intervals that are apart are all that is asked. -/
theorem isLedger_iff {intervals : List DeadInterval} :
    IsLedger intervals ↔
      (∀ interval ∈ intervals, ∀ endedAt ∈ interval.endedAt,
        interval.startedAt ≤ endedAt)
      ∧ intervals.Pairwise fun a b => a.runId = b.runId →
        a.span.Apart b.span := by
  refine ⟨fun h => ⟨h.proper, h.apart⟩, fun h => ⟨h.1, ?_, h.2, ?_⟩⟩
  · refine h.2.imp fun hapart hrun hopen => ?_
    exact Span.not_apart_forever (DeadInterval.stop_of_open hopen.1)
      (DeadInterval.stop_of_open hopen.2) (hapart hrun)
  · exact fun runId lower upper hle => deadTime_le h.2 runId hle

/-! ## One pass -/

namespace DeadSweep

variable {sweep : DeadSweep} {intervals : List DeadInterval}
  {interval : DeadInterval} {observation : DeadTimeKind × DeadObservation}

theorem le_latest (a b : Instant) : b ≤ latest a b := by
  unfold latest
  split_ifs with h
  · exact h
  · exact le_rfl

/-- A run is observed once, so what is found is what was observed. -/
theorem observed_eq_some {runId : ℕ} :
    sweep.observed runId = some observation
      ↔ observation ∈ sweep.observations
        ∧ observation.2.runId = runId := by
  unfold observed
  constructor
  · intro h
    exact ⟨List.mem_of_find?_eq_some h, by simpa using List.find?_some h⟩
  · rintro ⟨hmem, rfl⟩
    cases hfind : sweep.observations.find? fun other =>
        other.2.runId == observation.2.runId with
    | none =>
      have hnot := List.find?_eq_none.mp hfind observation hmem
      simp at hnot
    | some other =>
      have hrun : other.2.runId = observation.2.runId := by
        simpa using List.find?_some hfind
      rw [List.inj_on_of_nodup_map sweep.once
        (List.mem_of_find?_eq_some hfind) hmem hrun]

/-- **A run stopped anew** if it is live and was observed to have stopped in
another way, or later. -/
theorem restarted_eq_some :
    sweep.restarted interval = some observation
      ↔ (sweep.run interval.runId).status.isLive
        ∧ observation ∈ sweep.observations
        ∧ observation.2.runId = interval.runId
        ∧ ¬ (observation.1 = interval.kind
          ∧ observation.2.since ≤ interval.startedAt) := by
  unfold restarted
  by_cases hlive : (sweep.run interval.runId).status.isLive = true
  · rw [if_pos hlive, Option.filter_eq_some_iff, observed_eq_some,
      Bool.not_eq_true', decide_eq_false_iff_not]
    simp only [hlive, true_and, and_assoc]
  · rw [if_neg hlive]
    exact iff_of_false (by simp) fun h => hlive h.1

/-- **What the pass makes of an interval**: it leaves it, or closes it where it
is open, no earlier than it began or at the instant its run stopped anew. -/
theorem settle_cases (sweep : DeadSweep) (interval : DeadInterval) :
    sweep.settle interval = interval
      ∨ interval.isOpen ∧ ∃ endedAt endedBy,
        sweep.settle interval = interval.closed endedAt endedBy
          ∧ (interval.startedAt ≤ endedAt
            ∨ ∃ observation, sweep.restarted interval = some observation
              ∧ endedAt = observation.2.since) := by
  cases hopen : interval.isOpen with
  | false => exact Or.inl (sweep.settle_of_closed hopen)
  | true =>
    unfold settle
    dsimp only
    rw [hopen, if_neg (by decide)]
    by_cases hlive : (sweep.run interval.runId).status.isLive = true
    · rw [hlive, if_neg (by decide)]
      cases hobserved : sweep.observed interval.runId with
      | none =>
        dsimp only
        by_cases hjudged : sweep.judgedRunIds.contains interval.runId
        · rw [if_pos hjudged]
          exact Or.inr ⟨rfl, _, _, rfl, Or.inl (le_latest _ _)⟩
        · rw [if_neg hjudged]
          exact Or.inl rfl
      | some observation =>
        dsimp only
        by_cases hsame : observation.1 = interval.kind
            ∧ observation.2.since ≤ interval.startedAt
        · rw [if_pos hsame]
          exact Or.inl rfl
        · rw [if_neg hsame]
          obtain ⟨hmem, hrun⟩ := observed_eq_some.mp hobserved
          exact Or.inr ⟨rfl, _, _, rfl, Or.inr ⟨observation,
            restarted_eq_some.mpr ⟨hlive, hmem, hrun, hsame⟩, rfl⟩⟩
    · rw [Bool.eq_false_of_not_eq_true hlive, if_pos (by decide)]
      exact Or.inr ⟨rfl, _, _, rfl, Or.inl (le_latest _ _)⟩

@[simp] theorem runId_settle :
    (sweep.settle interval).runId = interval.runId := by
  rcases sweep.settle_cases interval with h | ⟨-, endedAt, endedBy, h, -⟩
  · rw [h]
  · rw [h]
    rfl

/-- It keeps its start, and stops no later than it did. -/
theorem span_settle (sweep : DeadSweep) (interval : DeadInterval) :
    (sweep.settle interval).span.start = interval.span.start
      ∧ (sweep.settle interval).span.stop ≤ interval.span.stop := by
  rcases sweep.settle_cases interval with h | ⟨hopen, endedAt, endedBy, h, -⟩
  · rw [h]
    exact ⟨rfl, le_rfl⟩
  · rw [h, DeadInterval.stop_of_open hopen]
    exact ⟨rfl, le_top⟩

/-- An interval whose run stopped anew is closed at the new start. -/
theorem settle_of_restarted (hopen : interval.isOpen)
    (h : sweep.restarted interval = some observation) :
    sweep.settle interval
      = interval.closed observation.2.since .resumed := by
  obtain ⟨hlive, hmem, hrun, hother⟩ := restarted_eq_some.mp h
  unfold settle
  dsimp only
  rw [hopen, hlive, observed_eq_some.mpr ⟨hmem, hrun⟩, if_neg (by decide),
    if_neg (by decide)]
  exact if_neg hother

/-- **Every other close takes the later of two instants.** -/
theorem proper_settle (hproper : ∀ endedAt ∈ interval.endedAt,
      interval.startedAt ≤ endedAt)
    (hrestarted : interval.isOpen → ∀ observation,
      sweep.restarted interval = some observation →
        interval.startedAt ≤ observation.2.since) :
    ∀ endedAt ∈ (sweep.settle interval).endedAt,
      (sweep.settle interval).startedAt ≤ endedAt := by
  rcases sweep.settle_cases interval with
    h | ⟨hopen, endedAt, endedBy, h, hlater | ⟨observation, hanew, rfl⟩⟩
  · rw [h]
    exact hproper
  · rw [h]
    rintro other ⟨⟩
    exact hlater
  · rw [h]
    rintro other ⟨⟩
    exact hrestarted hopen observation hanew

/-- **What the pass opens an interval for.** -/
theorem mem_openings : observation ∈ sweep.openings intervals
    ↔ (∃ interval ∈ intervals, interval.isOpen
        ∧ sweep.restarted interval = some observation)
      ∨ (observation ∈ sweep.observations
        ∧ ∀ interval ∈ intervals, interval.runId = observation.2.runId →
          interval.isOpen = false) := by
  unfold openings unhandled
  rw [List.mem_append, List.mem_filterMap, List.mem_filter]
  refine or_congr ?_ (and_congr_right fun _ => ?_)
  · simp only [List.mem_filter, and_assoc]
  · rw [Bool.not_eq_true', ← Bool.not_eq_true, List.contains_iff_mem,
      List.mem_map]
    constructor
    · intro h interval hinterval hrun
      rw [← Bool.not_eq_true]
      exact fun hopen =>
        h ⟨interval, List.mem_filter.mpr ⟨hinterval, hopen⟩, hrun⟩
    · rintro h ⟨interval, hinterval, hrun⟩
      obtain ⟨hmem, hopen⟩ := List.mem_filter.mp hinterval
      rw [h interval hmem hrun] at hopen
      cases hopen

/-- A pass opens one interval of a run at most. -/
theorem openings_pairwise (h : IsLedger intervals) :
    (sweep.openings intervals).Pairwise
      fun a b => a.2.runId ≠ b.2.runId := by
  unfold openings
  rw [List.pairwise_append]
  refine ⟨?_, ?_, ?_⟩
  · rw [List.pairwise_filterMap]
    have hopen : (intervals.filter (·.isOpen)).Pairwise
        fun a b => a.runId ≠ b.runId := by
      refine (h.oneOpen.filter _).imp_of_mem fun ha hb hone hrun => ?_
      exact hone hrun ⟨(List.mem_filter.mp ha).2, (List.mem_filter.mp hb).2⟩
    refine hopen.imp fun hne a ha b hb => ?_
    rw [(restarted_eq_some.mp ha).2.2.1, (restarted_eq_some.mp hb).2.2.1]
    exact hne
  · exact (List.pairwise_map.mp sweep.once).filter _
  · intro a ha b hb hrun
    obtain ⟨interval, hinterval, ha⟩ := List.mem_filterMap.mp ha
    obtain ⟨hmem, hopen⟩ := List.mem_filter.mp hinterval
    have hnone := (List.mem_filter.mp hb).2
    rw [← hrun, (restarted_eq_some.mp ha).2.2.1, Bool.not_eq_true',
      ← Bool.not_eq_true, List.contains_iff_mem] at hnone
    exact hnone (List.mem_map.mpr ⟨interval, hinterval, rfl⟩)

/-- An interval of a pass in which nothing came too early is apart from what
the pass opens. -/
theorem apart_opened (h : IsLedger intervals) (htimely : sweep.IsTimely intervals)
    (hinterval : interval ∈ intervals)
    (hopening : observation ∈ sweep.openings intervals)
    (hrun : interval.runId = observation.2.runId) :
    (sweep.settle interval).span.Apart
      (DeadInterval.opened observation).span := by
  have hforever : (DeadInterval.opened observation).span
      = ⟨observation.2.since, ⊤⟩ := rfl
  rw [hforever, Span.apart_forever]
  have hsooner := (sweep.span_settle interval).2
  rcases mem_openings.mp hopening with
    ⟨other, hother, hopen, hanew⟩ | ⟨hobserved, hclosed⟩
  · obtain ⟨hlive, hobserved, hrun', hanew'⟩ := restarted_eq_some.mp hanew
    have hlate : other.startedAt ≤ observation.2.since := by
      by_cases hkind : observation.1 = other.kind
      · exact le_of_not_ge fun hle => hanew' ⟨hkind, hle⟩
      · exact htimely.restarted _ hobserved _ hother hrun'.symm hopen hlive
          hkind
    by_cases hsame : interval = other
    · rw [hsame, settle_of_restarted hopen hanew]
      exact WithTop.coe_le_coe.mpr (le_max_right _ _)
    · -- the open interval of the run is apart from this one, and was first
      have hsymm : Std.Symm fun a b : DeadInterval =>
          a.runId = b.runId → a.span.Apart b.span :=
        ⟨fun a b hab hba => (hab hba.symm).symm⟩
      have hapart : interval.span.Apart other.span :=
        h.apart.forall hinterval hother hsame (hrun.trans hrun')
      have hstop : other.span = ⟨other.startedAt, ⊤⟩ := by
        rw [← DeadInterval.stop_of_open hopen]
        rfl
      rw [hstop, Span.apart_forever] at hapart
      refine le_trans hsooner (le_trans hapart ?_)
      rw [(sweep.span_settle interval).1]
      exact WithTop.coe_le_coe.mpr (max_le_max_left _ hlate)
  · have hopen := hclosed interval hinterval hrun
    rw [sweep.settle_of_closed hopen]
    obtain ⟨endedAt, hended⟩ := DeadInterval.endedAt_of_closed hopen
    rw [DeadInterval.stop_of_mem hended]
    refine WithTop.coe_le_coe.mpr ?_
    rcases lt_or_ge interval.startedAt endedAt with hlt | hge
    · exact le_trans (htimely.opened _ hobserved hclosed _ hinterval hrun
        endedAt hended hlt) (le_max_right _ _)
    · exact le_trans hge (le_max_left _ _)

/-- **A pass keeps the ledger exactly where nothing came too early.** -/
theorem isLedger_pass_iff (h : IsLedger intervals) :
    IsLedger (intervals.map sweep.settle
        ++ (sweep.openings intervals).map .opened)
      ↔ sweep.IsTimely intervals := by
  rw [isLedger_iff]
  constructor
  · rintro ⟨hproper, hapart⟩
    rw [List.pairwise_append] at hapart
    refine ⟨?_, ?_⟩
    · intro observation hobserved interval hinterval hrun hopen hlive hkind
      have hanew : sweep.restarted interval = some observation :=
        restarted_eq_some.mpr
          ⟨hlive, hobserved, hrun.symm, fun h => hkind h.1⟩
      have hmem : sweep.settle interval ∈ intervals.map sweep.settle :=
        List.mem_map_of_mem hinterval
      have hle := hproper _ (List.mem_append_left _ hmem)
      rw [settle_of_restarted hopen hanew] at hle
      exact hle observation.2.since rfl
    · intro observation hobserved hclosed interval hinterval hrun endedAt
        hended hlt
      have hopening : observation ∈ sweep.openings intervals :=
        mem_openings.mpr (Or.inr ⟨hobserved, hclosed⟩)
      have hmem : sweep.settle interval ∈ intervals.map sweep.settle :=
        List.mem_map_of_mem hinterval
      have hnew := hapart.2.2 _ hmem (.opened observation)
        (List.mem_map_of_mem hopening) (runId_settle.trans hrun)
      rw [sweep.settle_of_closed (hclosed interval hinterval hrun)] at hnew
      have hstop := Span.apart_forever.mp hnew
      rw [DeadInterval.stop_of_mem hended] at hstop
      rcases le_max_iff.mp (WithTop.coe_le_coe.mp hstop) with hle | hle
      · exact absurd hlt (not_lt.mpr hle)
      · exact hle
  · intro htimely
    refine ⟨fun interval hinterval => ?_, ?_⟩
    · rcases List.mem_append.mp hinterval with hold | hnew
      · obtain ⟨old, hmem, rfl⟩ := List.mem_map.mp hold
        refine proper_settle (h.proper old hmem) fun hopen observation hanew => ?_
        obtain ⟨hlive, hobserved, hrun, hother⟩ := restarted_eq_some.mp hanew
        by_cases hkind : observation.1 = old.kind
        · exact le_of_not_ge fun hle => hother ⟨hkind, hle⟩
        · exact htimely.restarted _ hobserved _ hmem hrun.symm hopen hlive hkind
      · obtain ⟨observation, -, rfl⟩ := List.mem_map.mp hnew
        exact fun endedAt hended => nomatch hended
    · rw [List.pairwise_append, List.pairwise_map, List.pairwise_map]
      refine ⟨?_, ?_, ?_⟩
      · refine h.apart.imp fun {a b} hapart hrun => ?_
        rw [runId_settle, runId_settle] at hrun
        obtain ⟨hstart, hstop⟩ := sweep.span_settle a
        obtain ⟨hstart', hstop'⟩ := sweep.span_settle b
        have hfirst := (hapart hrun).shorten hstart hstop
        exact (hfirst.symm.shorten hstart' hstop').symm
      · exact (openings_pairwise h).imp fun hne hrun => absurd hrun hne
      · intro settled hsettled new hnew hrun
        obtain ⟨interval, hinterval, rfl⟩ := List.mem_map.mp hsettled
        obtain ⟨observation, hopening, rfl⟩ := List.mem_map.mp hnew
        rw [runId_settle] at hrun
        exact apart_opened h htimely hinterval hopening hrun

end DeadSweep

/-! ## Every pass -/

namespace DeadLedger

/-- One call of `record`. -/
def step (ledger : DeadLedger) (sweep : DeadSweep) : DeadLedger :=
  (sweep.record ledger).1

/-- **The ledger is a set of proper, disjoint intervals** after every pass
exactly if nothing came too early in any of them, whatever the sweeps observed
and whatever the runs were. -/
theorem isLedger_iff_timely (sweeps : List DeadSweep) :
    Machine.Always step
        (fun ledger sweep => IsLedger (ledger.step sweep).intervals)
        .empty sweeps
      ↔ Machine.Always step
        (fun ledger sweep => sweep.IsTimely ledger.intervals)
        .empty sweeps := by
  have hkeeps : ∀ (ledger : DeadLedger) (sweep : DeadSweep),
      IsLedger ledger.intervals →
        (IsLedger (ledger.step sweep).intervals
          ↔ sweep.IsTimely ledger.intervals) := by
    intro ledger sweep h
    rw [step, sweep.intervals_record]
    exact sweep.isLedger_pass_iff h
  have hempty : IsLedger (intervals .empty) :=
    isLedger_iff.mpr ⟨(fun _ h => nomatch h), List.Pairwise.nil⟩
  exact Machine.always_iff_of_invariant
    (fun ledger : DeadLedger => IsLedger ledger.intervals) hkeeps hempty sweeps

/-- A run that is silent since a second, and two minutes later parked by a
block from before that. -/
def kindChanges : List DeadSweep :=
  [{ observations := [(.stalled, ⟨1, 1000⟩)]
     judgedRunIds := [1]
     run := fun _ => ⟨.running, some 1000, none⟩
     now := 100000
     once := by decide },
   { observations := [(.parked, ⟨1, 900⟩)]
     judgedRunIds := [1]
     run := fun _ => ⟨.blocked, some 1000, none⟩
     now := 220000
     once := by decide }]

theorem ends_before_it_began :
    (kindChanges.map (·.now)).Pairwise (· ≤ ·)
      ∧ (∀ sweep ∈ kindChanges, ∀ observation ∈ sweep.observations,
      observation.2.since ≤ sweep.now)
      ∧ (Machine.run step .empty kindChanges).intervals
        = [⟨1, .stalled, 1000, some 900, some .resumed⟩,
          ⟨1, .parked, 900, none, none⟩]
      ∧ ¬ Machine.Always step
        (fun ledger sweep => IsLedger (ledger.step sweep).intervals)
        .empty kindChanges := by
  have hrun : (Machine.run step .empty kindChanges).intervals
      = [⟨1, .stalled, 1000, some 900, some .resumed⟩,
        ⟨1, .parked, 900, none, none⟩] := by decide
  refine ⟨by decide, by decide, hrun, fun h => ?_⟩
  have hledger : IsLedger (Machine.run step .empty kindChanges).intervals :=
    h.2.1
  rw [hrun] at hledger
  have hle := hledger.proper _ List.mem_cons_self 900 rfl
  exact absurd hle (by decide)

end DeadLedger

end Opifex
