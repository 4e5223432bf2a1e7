import Mathlib.Tactic.Linarith
import Opifex.Lib.Machine
import Opifex.SupervisorInvocation

/-!
# What the supervisor's ceiling bounds

A proposer is started when the cents that the rows of the window and this tick
come to are below the limit. What was received in the window is more than that
by whatever its rows do not hold: all that a tick spent whose row was not
written, and what the column or the cents round away of the others.

So the ceiling bounds what a tick spends where this shortfall is less than the
limit exceeds every number of cents below it (`withinCeiling_of_covered`): one
cent, for a limit in whole cents. A run whose rows are all written, of costs
that the column holds, falls short by half a cent (`covered_of_kept`).

The half cent is of the cents that the gate compares. The running totals before
it are of doubles: they are off by less than a ten-thousandth, as long as there
are not so many numbers that these times the limit pass `2 ^ 37`.
-/

namespace Opifex

/-- The most that rounding to cents takes from an amount, or adds to it. -/
def halfCent : ℚ := 1 / 200

/-- What the doubles of a tick are off by at most. -/
def slack : ℚ := 1 / 10000

namespace SupervisorDesk

/-! ## What is asked -/

/-- The proposers a tick starts. -/
def starts (ceiling : HardCeiling) (desk : SupervisorDesk)
    (tick : SupervisorTick) : List ProposerStart :=
  match desk.preflight ceiling tick with
  | .skip _ _ => []
  | .proceed tally => (progress ceiling tally tick).starts

/-- What was received in the window as a proposer of a tick was started, by
the ticks before and by this one. -/
def receivedAt (ceiling : HardCeiling) (desk : SupervisorDesk)
    (tick : SupervisorTick) (start : ProposerStart) : ℚ :=
  desk.receivedWithin ceiling.windowDays (desk.clock + tick.elapsed)
    + totalPrice start.received

/-- **A tick within the ceiling**: whenever it starts a proposer, what was
received in the window is below the limit, up to half a cent, so that in the
end the limit is passed by no more than the calls of one proposer. -/
structure WithinCeiling (ceiling : HardCeiling) (desk : SupervisorDesk)
    (tick : SupervisorTick) : Prop where
  started : ∀ start ∈ desk.starts ceiling tick,
    ∃ limit, ceiling.limitUsd = some limit
      ∧ desk.receivedAt ceiling tick start < limit + halfCent
  total : desk.starts ceiling tick ≠ [] →
    ∃ start ∈ desk.starts ceiling tick, ∃ limit,
      ceiling.limitUsd = some limit
      ∧ (desk.invoke ceiling tick).receivedWithin ceiling.windowDays
          (desk.clock + tick.elapsed)
        < limit + halfCent + totalPrice start.calls

/-- The cents that the rows of the window come to. -/
def recordedCents (ceiling : HardCeiling) (desk : SupervisorDesk)
    (tick : SupervisorTick) : ℚ :=
  (supervisorTally ceiling.windowDays (desk.clock + tick.elapsed)
    desk.rows).reportedUsd

/-- What was received in the window by the ticks before, less the cents its
rows come to. -/
def shortfall (ceiling : HardCeiling) (desk : SupervisorDesk)
    (tick : SupervisorTick) : ℚ :=
  desk.receivedWithin ceiling.windowDays (desk.clock + tick.elapsed)
    - desk.recordedCents ceiling tick

/-- How many calls a tick may make that are priced. -/
def callCount (tick : SupervisorTick) : ℕ :=
  (tick.proposers.map (·.calls.length)).sum

/-- What the rows of a tick's window may fall short of what was received by: with what
the doubles are off, no more than the limit exceeds any number of cents that is read
below it. -/
structure Covers (ceiling : HardCeiling) (desk : SupervisorDesk)
    (tick : SupervisorTick) (limit : ℚ) : Prop where
  few : (callCount tick + 4) * (limit + 1) ≤ 2 ^ 37
  shortfall : ∀ n : ℕ, Double.nearest (n / 100) < limit →
    desk.shortfall ceiling tick + slack ≤ limit - n / 100

/-- **Covered**: where a tick gets to its proposers, with the cents on record below the
limit, its rows fall short of what was received by so little (`Covers`). Rows that were
lost and fractions that the column dropped make them fall short. -/
def Covered (ceiling : HardCeiling) (desk : SupervisorDesk)
    (tick : SupervisorTick) : Prop :=
  tick.Ready → ceiling.malformed = none →
    ∀ limit, ceiling.limitUsd = some limit →
      desk.recordedCents ceiling tick < limit → desk.Covers ceiling tick limit

/-! ## The proposers of a tick -/

theorem map_toNumber_prices (prices : List Price) :
    prices.map Price.toNumber = (prices.map (·.toRat)).map Double.nearest :=
  (List.map_map).symm

/-- A running total of prices, and how far it is off. -/
theorem totals_prices (prices : List Price) :
    Double.Totals 0 (prices.map (·.toRat))
      (Double.total (prices.map Price.toNumber)) := by
  rw [map_toNumber_prices]
  refine Double.totals_foldl Double.isDouble_zero le_rfl fun x hx => ?_
  obtain ⟨price, -, rfl⟩ := List.mem_map.mp hx
  exact price.toRat_nonneg

theorem totalPrice_le (prices : List Price) :
    totalPrice prices
      ≤ Double.total (prices.map Price.toNumber) + prices.length
        * (2 * (Double.total (prices.map Price.toNumber) / 2 ^ 52)) := by
  have herror := (abs_le.mp (totals_prices prices).error).1
  rw [List.length_map, zero_add, ← totalPrice] at herror
  linarith

/-- The meter holds the running total of what was received, and each proposer
but the first was started with the cents so far below the limit. -/
structure Metered (ceiling : HardCeiling) (tally : SupervisorSpendTally)
    (progress : TickProgress) : Prop where
  known : progress.meter.costUsd.getD 0
    = Double.total (progress.received.map Price.toNumber)
  idle : progress.proposersRun = 0 → progress.received = []
  started : ∀ start ∈ progress.starts, start.received = []
    ∨ ∃ limit, ceiling.limitUsd = some limit
      ∧ cents (Double.plus tally.reportedUsd
        (Double.total (start.received.map Price.toNumber))) < limit
  before : ∀ start ∈ progress.starts,
    start.received.length ≤ progress.received.length
  total : progress.starts ≠ [] → ∃ start ∈ progress.starts,
    progress.received = start.received ++ start.calls

section Metered

variable {ceiling : HardCeiling} {tally : SupervisorSpendTally}
  {progress : TickProgress} {registered : ℕ}

theorem metered_start (h : Metered ceiling tally progress)
    (proposer : ProposerTurn)
    (hnext : progress.stop ceiling tally registered = none) :
    Metered ceiling tally (progress.start proposer) where
  known := by
    show (proposer.responses.foldl TickMeter.onResponse
      progress.meter).costUsd.getD 0
        = Double.total ((progress.received ++ proposer.calls).map
          Price.toNumber)
    rw [costUsd_foldl_onResponse, h.known, List.map_append]
    unfold Double.total
    rw [List.foldl_append]
    rfl
  idle hzero := absurd hzero (Nat.succ_ne_zero _)
  started start hstart := by
    rcases List.mem_append.mp hstart with hbefore | hlast
    · exact h.started start hbefore
    · rw [List.mem_singleton.mp hlast]
      rcases TickProgress.stop_eq_none.mp hnext with hfirst | hadmits
      · exact Or.inl (h.idle hfirst)
      · rw [h.known] at hadmits
        exact Or.inr (assessSupervisorSpend_admits.mp hadmits).2
  before start hstart := by
    show start.received.length ≤ (progress.received ++ proposer.calls).length
    rw [List.length_append]
    rcases List.mem_append.mp hstart with hbefore | hlast
    · exact (h.before start hbefore).trans (Nat.le_add_right _ _)
    · rw [List.mem_singleton.mp hlast]
      exact Nat.le_add_right _ _
  total _ := ⟨⟨progress.received, proposer.calls⟩,
    List.mem_append_right _ List.mem_cons_self, rfl⟩

/-- Every tick is metered. -/
theorem metered_progress (tick : SupervisorTick) :
    Metered ceiling tally
      (SupervisorDesk.progress ceiling tally tick) := by
  refine runProposers_invariant
    (fun proposer _ progress hnext h => metered_start h proposer hnext)
    (fun progress reason h =>
      ⟨h.known, h.idle, h.started, h.before, h.total⟩)
    {} ⟨rfl, fun _ => rfl, ?_, ?_, fun h => absurd rfl h⟩
  · exact fun start hstart => absurd hstart List.not_mem_nil
  · exact fun start hstart => absurd hstart List.not_mem_nil

/-- A tick receives no more prices than its calls have. -/
theorem length_received_le :
    ∀ (proposers : List ProposerTurn) (progress : TickProgress),
      (runProposers ceiling tally registered progress proposers).received.length
        ≤ progress.received.length
          + (proposers.map (·.calls.length)).sum := by
  intro proposers
  induction proposers with
  | nil => exact fun progress => Nat.le_add_right _ _
  | cons proposer rest ih =>
    intro progress
    unfold runProposers
    rw [List.map_cons, List.sum_cons]
    cases progress.stop ceiling tally registered with
    | some reason => exact Nat.le_add_right _ _
    | none =>
      have hrest := ih (progress.start proposer)
      have hnext : (progress.start proposer).received
          = progress.received ++ proposer.calls := rfl
      rw [hnext, List.length_append] at hrest
      dsimp only
      omega

end Metered

/-! ## What the ceiling bounds -/

section Bounds

variable {ceiling : HardCeiling} {desk : SupervisorDesk} {tick : SupervisorTick}

theorem startedWithin_self (days : ℕ) (now : Instant) :
    startedWithin days now now := by
  have hdays : (0 : ℤ) ≤ days * Instant.dayMs :=
    mul_nonneg (Int.natCast_nonneg days) (by decide)
  unfold startedWithin
  rw [Bool.and_eq_true, decide_eq_true_eq, decide_eq_true_eq]
  exact ⟨sub_le_self now hdays, le_rfl⟩

/-- What a tick receives is received in the window. -/
theorem receivedWithin_invoke {tally : SupervisorSpendTally}
    (h : desk.preflight ceiling tick = .proceed tally) (days : ℕ) :
    (desk.invoke ceiling tick).receivedWithin days (desk.clock + tick.elapsed)
      = desk.receivedWithin days (desk.clock + tick.elapsed)
        + totalPrice (progress ceiling tally tick).received := by
  unfold invoke receivedWithin
  rw [h]
  dsimp only
  rw [List.filter_cons, if_pos (startedWithin_self days _), List.map_cons,
    List.sum_cons, add_comm]

/-- The numbers of the rows are amounts, rounded. -/
theorem map_recorded (rows : List InvocationRow) :
    rows.map (·.recorded.toNumber)
      = (rows.map (·.recorded.toRat)).map Double.nearest :=
  (List.map_map).symm

/-- The running total of the rows of a window. -/
theorem totals_recorded (days : ℕ) (now : Instant)
    (rows : List InvocationRow) :
    Double.Totals 0
      ((rows.filter (startedWithin days now ·.startedAt)).map
        (·.recorded.toRat))
      (Double.total ((rows.filter (startedWithin days now ·.startedAt)).map
        (·.recorded.toNumber))) := by
  rw [map_recorded]
  refine Double.totals_foldl Double.isDouble_zero le_rfl fun x hx => ?_
  obtain ⟨row, -, rfl⟩ := List.mem_map.mp hx
  exact row.recorded.toRat_nonneg

/-- **A first proposer starts below the limit.** Nothing was received by its
tick, and the tally is read off a number of cents. -/
theorem lt_of_covers_first {limit : ℚ} (h : desk.Covers ceiling tick limit)
    (hbelow : desk.recordedCents ceiling tick < limit) :
    desk.receivedWithin ceiling.windowDays (desk.clock + tick.elapsed)
      < limit + halfCent := by
  have hrows := (totals_recorded ceiling.windowDays
    (desk.clock + tick.elapsed) desk.rows).le
  have hnonneg := Double.hundredths_nonneg hrows
  have hquotient := Double.hundredths_le_add hrows
  obtain ⟨n, hn⟩ := Int.eq_ofNat_of_zero_le (Double.hundredthCount_nonneg hrows)
  have hcents : desk.recordedCents ceiling tick = Double.nearest (n / 100) := by
    unfold recordedCents supervisorTally cents Double.hundredths
    dsimp only
    rw [hn, Int.cast_natCast]
  have hcovered := h.shortfall n (hcents ▸ hbelow)
  have hfew := h.few
  rw [hn, Int.cast_natCast] at hquotient
  have heq : desk.recordedCents ceiling tick
      = Double.hundredths (Double.total
        ((desk.rows.filter (startedWithin ceiling.windowDays
          (desk.clock + tick.elapsed) ·.startedAt)).map
            (·.recorded.toNumber))) := rfl
  rw [← heq] at hquotient hnonneg
  have hcalls : (0 : ℚ) ≤ callCount tick := Nat.cast_nonneg _
  have hlimit : limit + 1 ≤ 2 ^ 35 := by nlinarith
  unfold SupervisorDesk.shortfall slack at hcovered
  unfold halfCent
  norm_num at hquotient hlimit ⊢
  linarith

/-- **A later proposer starts below the limit, up to half a cent**, where the
gate admits what its tick has spent so far. -/
theorem lt_of_covers_later {limit : ℚ} (h : desk.Covers ceiling tick limit)
    {received : List Price} (hlength : received.length ≤ callCount tick)
    (hbelow : cents (Double.plus (desk.recordedCents ceiling tick)
      (Double.total (received.map Price.toNumber))) < limit) :
    desk.receivedWithin ceiling.windowDays (desk.clock + tick.elapsed)
        + totalPrice received < limit + halfCent := by
  have hrows := (totals_recorded ceiling.windowDays
    (desk.clock + tick.elapsed) desk.rows).le
  have hrecorded : 0 ≤ desk.recordedCents ceiling tick :=
    Double.hundredths_nonneg hrows
  have hprices := totals_prices received
  have htotal : 0 ≤ Double.total (received.map Price.toNumber) := hprices.le
  have htrue := totalPrice_le received
  have hsum : desk.recordedCents ceiling tick
        + Double.total (received.map Price.toNumber)
      ≤ Double.plus (desk.recordedCents ceiling tick)
          (Double.total (received.map Price.toNumber))
        + Double.plus (desk.recordedCents ceiling tick)
          (Double.total (received.map Price.toNumber)) / 2 ^ 52 :=
    Double.le_nearest_add (add_nonneg hrecorded htotal)
  have htotalle : Double.total (received.map Price.toNumber)
      ≤ Double.plus (desk.recordedCents ceiling tick)
        (Double.total (received.map Price.toNumber)) :=
    Double.le_plus_left hprices.isDouble htotal hrecorded
  have hspent : 0 ≤ Double.plus (desk.recordedCents ceiling tick)
      (Double.total (received.map Price.toNumber)) := htotal.trans htotalle
  set spent := Double.plus (desk.recordedCents ceiling tick)
    (Double.total (received.map Price.toNumber))
  have hcut := Double.le_hundredthCount_add hspent
  have hquotient := Double.hundredthCount_le_mul hspent
  obtain ⟨n, hn⟩ := Int.eq_ofNat_of_zero_le (Double.hundredthCount_nonneg hspent)
  have hcents : cents spent = Double.nearest (n / 100) := by
    unfold cents Double.hundredths
    rw [hn, Int.cast_natCast]
  have hcovered := h.shortfall n (hcents ▸ hbelow)
  have hbelow' : Double.hundredths spent < limit := hbelow
  rw [hn, Int.cast_natCast] at hcut hquotient
  -- everything the gate saw is at most a dollar above the limit
  have hfew := h.few
  have hcalls : (0 : ℚ) ≤ callCount tick := Nat.cast_nonneg _
  have hlimit : limit + 1 ≤ 2 ^ 35 := by
    have hnonneg := Double.hundredths_nonneg hspent
    nlinarith
  have hspentle : spent ≤ limit + 1 := by
    norm_num at hcut hquotient hlimit ⊢
    linarith
  -- so that the meter is off by less than the slack
  have hmeter : (received.length : ℚ)
        * (2 * (Double.total (received.map Price.toNumber) / 2 ^ 52))
      ≤ callCount tick * (2 * ((limit + 1) / 2 ^ 52)) := by
    have hcast : (received.length : ℚ) ≤ callCount tick := by
      exact_mod_cast hlength
    have hle := htotalle.trans hspentle
    gcongr
  unfold SupervisorDesk.shortfall slack at hcovered
  unfold halfCent
  norm_num at hcut hsum htrue hmeter hfew hcovered ⊢
  linarith

/-- Where the shortfall is covered, every tick is within the ceiling. -/
theorem withinCeiling_step (h : desk.Covered ceiling tick) :
    desk.WithinCeiling ceiling tick := by
  cases hpreflight : desk.preflight ceiling tick with
  | skip outcome reason =>
    have hnone : desk.starts ceiling tick = [] := by
      unfold starts
      rw [hpreflight]
    constructor
    · rw [hnone]
      exact fun start hstart => absurd hstart List.not_mem_nil
    · exact fun hsome => absurd hnone hsome
  | proceed tally =>
    obtain ⟨hready, hmalformed, ⟨limit, hlimit, hbelow⟩, htally⟩ :=
      preflight_eq_proceed.mp hpreflight
    have hrecorded : tally.reportedUsd = desk.recordedCents ceiling tick := by
      rw [htally]
      rfl
    rw [hrecorded] at hbelow
    have hcovers := h hready hmalformed limit hlimit hbelow
    have hmetered := @metered_progress ceiling tally tick
    have hcount : (progress ceiling tally tick).received.length
        ≤ callCount tick := by
      have hle := @length_received_le ceiling tally tick.proposers.length
        tick.proposers {}
      rwa [List.length_nil, Nat.zero_add] at hle
    have hstarts : desk.starts ceiling tick
        = (progress ceiling tally tick).starts := by
      unfold starts
      rw [hpreflight]
    have hstarted : ∀ start ∈ desk.starts ceiling tick,
        desk.receivedAt ceiling tick start < limit + halfCent := by
      rw [hstarts]
      intro start hstart
      unfold receivedAt
      rcases hmetered.started start hstart with hnil | ⟨limit', hlimit', hlt⟩
      · rw [hnil]
        have hfirst := lt_of_covers_first hcovers hbelow
        rwa [totalPrice, List.map_nil, List.sum_nil, add_zero]
      · obtain rfl : limit = limit' := Option.some.inj (hlimit.symm.trans hlimit')
        rw [hrecorded] at hlt
        exact lt_of_covers_later hcovers
          ((hmetered.before start hstart).trans hcount) hlt
    constructor
    · exact fun start hstart => ⟨limit, hlimit, hstarted start hstart⟩
    · intro hsome
      rw [hstarts] at hsome
      obtain ⟨last, hlast, hreceived⟩ := hmetered.total hsome
      rw [← hstarts] at hlast
      refine ⟨last, hlast, limit, hlimit, ?_⟩
      have hlt := hstarted last hlast
      unfold receivedAt at hlt
      rw [receivedWithin_invoke hpreflight, hreceived, totalPrice_append]
      linarith

end Bounds

/-- **The ceiling bounds the supervisor's spend along every run** whose ticks
find what was received before them covered by their rows. -/
theorem withinCeiling_of_covered (ceiling : HardCeiling)
    (desk : SupervisorDesk) (ticks : List SupervisorTick)
    (h : Machine.Always (invoke ceiling) (Covered ceiling) desk ticks) :
    Machine.Always (invoke ceiling) (WithinCeiling ceiling) desk ticks :=
  h.imp fun _ _ hcovered => withinCeiling_step hcovered

/-- A ceiling of five dollars a day. -/
def fiveDollars : HardCeiling := ⟨some 5, 1, none⟩

/-- A tick that spends six dollars, and whose row is not written. -/
def unwritten : SupervisorTick where
  elapsed := 0
  proposers := [⟨[⟨some ⟨6000000⟩, none, none⟩], some []⟩]
  written := false

/-- The next hour. -/
def anHourLater : SupervisorTick where
  elapsed := 3600000
  proposers := [⟨[], some []⟩]

/-- A proposer is started a dollar past the limit. -/
theorem starts_past_the_limit :
    ¬ Machine.Always (invoke fiveDollars) (WithinCeiling fiveDollars)
      { clock := 0 } [unwritten, anHourLater] := by
  intro h
  have hstart : (⟨[], []⟩ : ProposerStart) ∈
      (invoke fiveDollars { clock := 0 } unwritten).starts fiveDollars
        anHourLater := by
    decide +kernel
  have hreceived : (invoke fiveDollars { clock := 0 } unwritten).receivedAt
      fiveDollars anHourLater ⟨[], []⟩ = 6 := by
    decide +kernel
  obtain ⟨limit, hlimit, hlt⟩ := h.2.1.started _ hstart
  obtain rfl : 5 = limit := Option.some.inj hlimit
  rw [hreceived] at hlt
  norm_num [halfCent] at hlt

/-! ## A log that is written -/

/-- The row of a tick is written, and its column holds the cost: every call
comes to ten-thousandths, and the meter is off by less than half of one. -/
structure Kept (tick : SupervisorTick) : Prop where
  written : tick.written
  registered : ∀ proposer ∈ tick.proposers,
    (proposer.drafts.getD []).all isActionClass
  whole : ∀ proposer ∈ tick.proposers, ∀ price ∈ proposer.calls,
    100 ∣ price.millionths
  few : (callCount tick + 4)
    * ((tick.proposers.map fun proposer => totalPrice proposer.calls).sum + 1)
      ≤ 2 ^ 36

/-- The rows of the window are few enough for their running total. -/
def FewRows (ceiling : HardCeiling) (desk : SupervisorDesk)
    (tick : SupervisorTick) : Prop :=
  ∀ limit, ceiling.limitUsd = some limit →
    (desk.rows.length + callCount tick + 4) * (limit + 1) ≤ 2 ^ 36

/-- The rows of every window hold what was received in it. -/
def InBalance (desk : SupervisorDesk) : Prop :=
  ∀ days now,
    recordedWithin days now desk.rows = desk.receivedWithin days now

/-- The limit is more than half a cent above every number of cents that is
read below it. -/
def WellAboveCents (limit : ℚ) : Prop :=
  ∀ n : ℕ, Double.nearest (n / 100) < limit →
    halfCent + 2 * slack ≤ limit - n / 100

section Kept

variable {ceiling : HardCeiling} {desk : SupervisorDesk} {tick : SupervisorTick}

theorem recordedWithin_cons (row : InvocationRow) (rows : List InvocationRow)
    (days : ℕ) (now : Instant) :
    recordedWithin days now (row :: rows)
      = (if startedWithin days now row.startedAt then row.recorded.toRat else 0)
        + recordedWithin days now rows := by
  unfold recordedWithin
  by_cases hwithin : startedWithin days now row.startedAt
  · rw [if_pos hwithin, List.filter_cons, if_pos hwithin, List.map_cons,
      List.sum_cons]
  · rw [if_neg hwithin, List.filter_cons, if_neg hwithin, zero_add]

theorem receivedWithin_cons (received : ReceivedCost) (days : ℕ)
    (now : Instant) :
    receivedWithin { desk with received := received :: desk.received } days now
      = (if startedWithin days now received.startedAt then received.usd else 0)
        + desk.receivedWithin days now := by
  unfold receivedWithin
  dsimp only
  by_cases hwithin : startedWithin days now received.startedAt
  · rw [if_pos hwithin, List.filter_cons, if_pos hwithin, List.map_cons,
      List.sum_cons]
  · rw [if_neg hwithin, List.filter_cons, if_neg hwithin, zero_add]

theorem totalPrice_nonneg (prices : List Price) : 0 ≤ totalPrice prices := by
  refine List.sum_nonneg fun x hx => ?_
  obtain ⟨price, -, rfl⟩ := List.mem_map.mp hx
  exact price.toRat_nonneg

/-- What a kept tick received comes to ten-thousandths, and is part of what its
proposers' calls come to. -/
theorem whole_progress (h : Kept tick) (tally : SupervisorSpendTally) :
    (∃ n : ℕ, totalPrice (progress ceiling tally tick).received
        = Usd.toRat ⟨n⟩)
      ∧ (progress ceiling tally tick).proposals.all isActionClass := by
  refine @runProposers_invariant _ _ _
    (fun progress => (∃ n : ℕ, totalPrice progress.received = Usd.toRat ⟨n⟩)
      ∧ progress.proposals.all isActionClass) _
    ?_ (fun _ _ h => h) {} ⟨⟨0, by norm_num [Usd.toRat, totalPrice]⟩, rfl⟩
  rintro proposer hproposer progress - ⟨⟨n, hn⟩, hproposals⟩
  have hcalls : ∀ prices : List Price,
      (∀ price ∈ prices, 100 ∣ price.millionths) →
        ∃ k : ℕ, totalPrice prices = Usd.toRat ⟨k⟩ := by
    intro prices
    induction prices with
    | nil => exact fun _ => ⟨0, by norm_num [Usd.toRat, totalPrice]⟩
    | cons price prices ih =>
      intro hwhole
      obtain ⟨k, hk⟩ := ih fun later hlater =>
        hwhole later (List.mem_cons_of_mem price hlater)
      obtain ⟨j, hj⟩ := hwhole price List.mem_cons_self
      refine ⟨j + k, ?_⟩
      unfold totalPrice at hk ⊢
      rw [List.map_cons, List.sum_cons, hk, Price.toRat, hj]
      unfold Usd.toRat
      push_cast
      ring
  obtain ⟨k, hk⟩ := hcalls proposer.calls (h.whole proposer hproposer)
  constructor
  · refine ⟨n + k, ?_⟩
    show totalPrice (progress.received ++ proposer.calls) = _
    rw [totalPrice_append, hn, hk]
    unfold Usd.toRat
    push_cast
    ring
  · show (progress.proposals ++ proposer.drafts.getD []).all isActionClass
    rw [List.all_append, hproposals, h.registered proposer hproposer]
    rfl

/-- A tick receives no more than its proposers' calls come to. -/
theorem totalPrice_received_le (ceiling : HardCeiling)
    (tally : SupervisorSpendTally) (registered : ℕ) :
    ∀ (proposers : List ProposerTurn) (progress : TickProgress),
      totalPrice
          (runProposers ceiling tally registered progress proposers).received
        ≤ totalPrice progress.received
          + (proposers.map fun proposer => totalPrice proposer.calls).sum := by
  intro proposers
  induction proposers with
  | nil =>
    intro progress
    rw [List.map_nil, List.sum_nil, add_zero]
    exact le_rfl
  | cons proposer rest ih =>
    intro progress
    unfold runProposers
    rw [List.map_cons, List.sum_cons]
    cases progress.stop ceiling tally registered with
    | some reason =>
      have hcalls := totalPrice_nonneg proposer.calls
      have hrest : 0 ≤ (rest.map fun later => totalPrice later.calls).sum :=
        List.sum_nonneg fun x hx => by
          obtain ⟨later, -, rfl⟩ := List.mem_map.mp hx
          exact totalPrice_nonneg later.calls
      dsimp only
      linarith
    | none =>
      have hrest := ih (progress.start proposer)
      have hnext : (progress.start proposer).received
          = progress.received ++ proposer.calls := rfl
      rw [hnext, totalPrice_append] at hrest
      dsimp only
      linarith

/-- **The column of a row holds an amount of ten-thousandths** that a running
total of doubles came to: neither the total nor its digits are half of one
off. -/
theorem ofNumber_total {prices : List Price} {n : ℕ}
    (hwhole : totalPrice prices = Usd.toRat ⟨n⟩)
    (hfew : (prices.length + 4) * (totalPrice prices + 1) ≤ 2 ^ 36) :
    Usd.ofNumber (Double.total (prices.map Price.toNumber)) = ⟨n⟩ := by
  have htotals := totals_prices prices
  have herror := abs_le.mp htotals.error
  rw [List.length_map, zero_add, ← totalPrice] at herror
  have hread := abs_le.mp (Double.abs_sub_decimal_le htotals.isDouble htotals.le)
  have hleast : Double.least ≤ 1 / 2 ^ 60 := by
    rw [Double.least_eq, one_div, ← zpow_natCast, ← zpow_neg]
    exact zpow_le_zpow_right₀ one_le_two (by norm_num)
  have hnonneg := htotals.le
  have hprices := totalPrice_nonneg prices
  set sum := Double.total (prices.map Price.toNumber)
  have hlength : (0 : ℚ) ≤ prices.length := Nat.cast_nonneg _
  have hlengthle : (prices.length : ℚ) ≤ 2 ^ 36 := by nlinarith
  have hsumle : sum ≤ 1001 / 1000 * (totalPrice prices + 1) := by
    have hunit : prices.length * (2 * (sum / 2 ^ 52))
        ≤ 2 ^ 36 * (2 * (sum / 2 ^ 52)) := by gcongr
    norm_num at hunit herror ⊢
    linarith
  have hloss : prices.length * (2 * (sum / 2 ^ 52))
      ≤ prices.length * (2 * (1001 / 1000 * (totalPrice prices + 1) / 2 ^ 52)) := by
    gcongr
  have hclose : |Double.decimal sum * 10000 - n| < 1 / 2 := by
    rw [hwhole] at herror hsumle hloss hfew
    unfold Usd.toRat at herror hsumle hloss hfew
    rw [abs_lt]
    norm_num at herror hread hloss hfew hsumle ⊢
    constructor <;> linarith
  obtain ⟨hlow, hhigh⟩ := abs_lt.mp hclose
  have hfloor : ⌊Double.decimal sum * 10000 + 1 / 2⌋ = n := by
    rw [Int.floor_eq_iff]
    push_cast
    constructor <;> linarith
  unfold Usd.ofNumber Usd.ofRat
  rw [hfloor, Int.toNat_natCast]

/-- A tick whose row is kept keeps the balance. -/
theorem inBalance_invoke (h : desk.InBalance) (hkept : Kept tick) :
    (desk.invoke ceiling tick).InBalance := by
  intro days now
  unfold invoke
  cases hpreflight : desk.preflight ceiling tick with
  | skip outcome reason =>
    dsimp only
    unfold recordInvocation
    rw [hkept.written]
    show recordedWithin days now (_ :: desk.rows)
      = desk.receivedWithin days now
    rw [recordedWithin_cons, h]
    split
    · show (⟨0⟩ : Usd).toRat + _ = _
      rw [Usd.toRat, Nat.cast_zero, zero_div, zero_add]
    · exact zero_add _
  | proceed tally =>
    obtain ⟨⟨n, hn⟩, hproposals⟩ := @whole_progress ceiling tick hkept tally
    have hknown := (@metered_progress ceiling tally tick).known
    have hcount := @length_received_le ceiling tally tick.proposers.length
      tick.proposers {}
    have hprice := totalPrice_received_le ceiling tally tick.proposers.length
      tick.proposers {}
    rw [List.length_nil, Nat.zero_add] at hcount
    rw [show totalPrice ([] : List Price) = 0 from rfl, zero_add] at hprice
    have hfew : ((progress ceiling tally tick).received.length + 4 : ℚ)
        * (totalPrice (progress ceiling tally tick).received + 1)
          ≤ 2 ^ 36 := by
      refine le_trans ?_ hkept.few
      have hcast : ((progress ceiling tally tick).received.length : ℚ)
          ≤ callCount tick := by
        exact_mod_cast hcount
      have hnonneg := totalPrice_nonneg (progress ceiling tally tick).received
      unfold progress at hcast hnonneg ⊢
      gcongr
    have hrow : (draft (desk.clock + tick.elapsed)
        (progress ceiling tally tick)).row.recorded.toRat
        = totalPrice (progress ceiling tally tick).received := by
      show (((progress ceiling tally tick).meter.costUsd.map
        Usd.ofNumber).getD ⟨0⟩).toRat = _
      rw [hn]
      cases hcost : (progress ceiling tally tick).meter.costUsd with
      | none =>
        rw [hcost] at hknown
        have hzero : Usd.ofNumber 0 = ⟨n⟩ := by
          rw [show (0 : ℚ) = (none : Option ℚ).getD 0 from rfl, hknown]
          exact ofNumber_total hn hfew
        rw [← hzero]
        decide +kernel
      | some cost =>
        rw [hcost] at hknown
        show (Usd.ofNumber cost).toRat = _
        rw [show cost = (some cost).getD 0 from rfl, hknown,
          ofNumber_total hn hfew]
    dsimp only
    unfold recordInvocation
    rw [hkept.written, hproposals]
    show recordedWithin days now (_ :: desk.rows)
      = receivedWithin { desk with received := _ :: desk.received } days now
    rw [recordedWithin_cons, receivedWithin_cons, hrow, h]
    rfl

/-- What is in balance falls short by what rounding to cents drops. -/
theorem covered_of_inBalance (h : desk.InBalance)
    (hfew : desk.FewRows ceiling tick)
    (hlimit : ∀ limit, ceiling.limitUsd = some limit → WellAboveCents limit) :
    desk.Covered ceiling tick := by
  intro _ _ limit hsome hbelow
  have hwell := hlimit limit hsome
  have hrows := hfew limit hsome
  have htotals := totals_recorded ceiling.windowDays
    (desk.clock + tick.elapsed) desk.rows
  have herror := (abs_le.mp htotals.error).1
  rw [List.length_map, zero_add, ← recordedWithin] at herror
  have hnonneg := htotals.le
  have hcut := Double.le_hundredthCount_add htotals.le
  have hquotient := Double.hundredthCount_le_mul htotals.le
  have hrecorded : 0 ≤ desk.recordedCents ceiling tick :=
    Double.hundredths_nonneg htotals.le
  have heq : Double.hundredths (Double.total
        ((desk.rows.filter (startedWithin ceiling.windowDays
          (desk.clock + tick.elapsed) ·.startedAt)).map
            (·.recorded.toNumber))) = desk.recordedCents ceiling tick := rfl
  rw [heq] at hquotient
  set sum := Double.total
    ((desk.rows.filter (startedWithin ceiling.windowDays
      (desk.clock + tick.elapsed) ·.startedAt)).map (·.recorded.toNumber))
  have hcalls : (0 : ℚ) ≤ callCount tick := Nat.cast_nonneg _
  have hlength : (0 : ℚ) ≤ desk.rows.length := Nat.cast_nonneg _
  have hsmall : limit + 1 ≤ 2 ^ 34 := by nlinarith
  have hsumle : sum ≤ limit + 1 := by
    norm_num at hcut hquotient hsmall ⊢
    linarith
  have hfilter : ((desk.rows.filter (startedWithin ceiling.windowDays
      (desk.clock + tick.elapsed) ·.startedAt)).length : ℚ)
        ≤ desk.rows.length := by
    exact_mod_cast List.length_filter_le _ _
  have hloss : ((desk.rows.filter (startedWithin ceiling.windowDays
        (desk.clock + tick.elapsed) ·.startedAt)).length : ℚ)
          * (2 * (sum / 2 ^ 52))
      ≤ desk.rows.length * (2 * ((limit + 1) / 2 ^ 52)) := by
    gcongr
  have hshortfall : desk.shortfall ceiling tick ≤ halfCent + slack := by
    unfold shortfall
    rw [← h]
    unfold halfCent slack
    norm_num at hcut hquotient herror hloss hrows hsmall ⊢
    nlinarith
  constructor
  · nlinarith
  · intro n hn
    have hcents := hwell n hn
    linarith

/-- **A run whose rows are all written is covered**, and so within the
ceiling. -/
theorem covered_of_kept {ticks : List SupervisorTick} (h : desk.InBalance)
    (hlimit : ∀ limit, ceiling.limitUsd = some limit → WellAboveCents limit)
    (hkept : Machine.Always (invoke ceiling) (fun _ tick => Kept tick) desk
      ticks)
    (hfew : Machine.Always (invoke ceiling) (FewRows ceiling) desk ticks) :
    Machine.Always (invoke ceiling) (Covered ceiling) desk ticks :=
  Machine.always_of_invariant
    (fun _ _ h hguard => inBalance_invoke h hguard.1)
    (fun _ _ h hguard => covered_of_inBalance h hguard.2 hlimit) h
    (Machine.always_and_iff.mpr ⟨hkept, hfew⟩)

end Kept

/-- Five dollars are a cent above every number of cents read below them. -/
theorem wellAboveCents_five : WellAboveCents 5 := by
  intro n hn
  have hbelow : n ≤ 499 := by
    by_contra hlarge
    have hfive : Double.nearest 5 ≤ Double.nearest (n / 100) :=
      Double.nearest_le_nearest (by norm_num) (by
        have hcast : (500 : ℚ) ≤ n := by exact_mod_cast not_le.mp hlarge
        linarith)
    rw [show Double.nearest 5 = 5 by decide +kernel] at hfive
    exact absurd hn (not_lt.mpr hfive)
  have hcast : (n : ℚ) ≤ 499 := by exact_mod_cast hbelow
  unfold halfCent slack
  linarith

/-- Two proposers, the second of which takes the tick past five dollars. -/
def pastTheLimit : SupervisorTick where
  elapsed := 3600000
  proposers :=
    [⟨[⟨some ⟨4990000⟩, none, none⟩], some []⟩,
      ⟨[⟨some ⟨2500000⟩, none, none⟩], some []⟩]

theorem kept_pastTheLimit : Kept pastTheLimit where
  written := rfl
  registered := by decide
  whole := by decide
  few := by decide +kernel

/-- The tick after it starts no proposer, as it is all on the log. -/
theorem withinCeiling_pastTheLimit :
    Machine.Always (invoke fiveDollars) (WithinCeiling fiveDollars)
      { clock := 0 } [pastTheLimit, pastTheLimit] := by
  refine withinCeiling_of_covered fiveDollars _ _
    (covered_of_kept (fun _ _ => rfl) ?_ ?_ ?_)
  · rintro limit hlimit
    obtain rfl : 5 = limit := Option.some.inj hlimit
    exact wellAboveCents_five
  · exact ⟨kept_pastTheLimit, kept_pastTheLimit, trivial⟩
  · refine ⟨?_, ?_, trivial⟩
    all_goals
      rintro limit hlimit
      obtain rfl : 5 = limit := Option.some.inj hlimit
      decide +kernel

end SupervisorDesk

end Opifex
