import Opifex.QueueReasons

/-!
# The parks that quota-aware routing avoided

A dispatch records an avoided park when some other capable runner was out of
quota, and its sentence says that the runner *could have taken this work order
but is out of quota*. Whether it could have is a question about a second run of
the policy: the same pool with nothing known of that runner's quota
(`withoutQuotaOf`). A runner is refused for its quota alone when the second run
finds it eligible and the first does not (`RefusedForQuota`).

Forgetting a quota changes no fallback, so the second run asks of the runner
what the chain of returns asks besides quota: that it is available, has a slot
and is not a load-bearing preview (`refusedForQuota_iff`). The record is made
from the runners that meet the needs, serve the tier and are spent, without
those three questions. So **it is the record of the parks avoided exactly when
no spent capable runner is stopped by one of them** (`parkIsQuotas_iff`).
-/

namespace Opifex

open Preference

/-! ## Forgetting what is known of a quota -/

/-- The runner with nothing known of its quota. -/
def RunnerPoolEntry.withoutQuota (entry : RunnerPoolEntry) : RunnerPoolEntry :=
  { entry with quota := none }

/-- The pool with nothing known of one runner's quota. -/
def withoutQuotaOf (key : RunnerKey) (pool : List RunnerPoolEntry) :
    List RunnerPoolEntry :=
  pool.map fun entry => if entry.key = key then entry.withoutQuota else entry

section Statements

variable (input : DispatchInput) (pool : List RunnerPoolEntry)
  (limits : DispatchLimits)

/-- The runner is judged with the pool, and found eligible. -/
def JudgedEligible (entry : RunnerPoolEntry) : Prop :=
  entry ∈ pool ∧ entry.enabled ∧
    (judge input limits (hasGaFallback input (pool.filter (·.enabled)))
      entry).verdict.eligible

/-- **Refused for its quota and nothing else**: an enabled runner that is not
eligible, and would be in the same pool without its quota position. -/
structure RefusedForQuota (entry : RunnerPoolEntry) : Prop where
  mem : entry ∈ pool
  enabled : entry.enabled
  refused : ¬ JudgedEligible input pool limits entry
  freed : JudgedEligible input (withoutQuotaOf entry.key pool) limits
    entry.withoutQuota

/-- The decision records an avoided park when some runner was refused for its
quota alone, and lists exactly those runners. -/
def ParkIsQuotas : Prop :=
  ((decideDispatch input pool limits).avoidedPark.isSome ↔
    ∃ entry, RefusedForQuota input pool limits entry) ∧
  ∀ park, (decideDispatch input pool limits).avoidedPark = some park →
    ∀ runner, runner ∈ park.exhausted ↔
      ∃ entry, RefusedForQuota input pool limits entry ∧
        runner = exhaustedRunner entry

/-- A capable runner that is out of quota. -/
def SpentCapable (entry : RunnerPoolEntry) : Prop :=
  CapableIn input pool entry ∧ entry.quotaExhausted

/-- Every spent capable runner is available, has a slot and is no load-bearing
preview. -/
def OnlyQuotaStops : Prop :=
  ∀ entry, SpentCapable input pool entry →
    entry.capabilities.available ≠ some false ∧ ¬ entry.Full ∧
      NotLoadBearingPreview input pool limits entry

end Statements

variable {input : DispatchInput} {limits : DispatchLimits}
  {pool : List RunnerPoolEntry} {entry : RunnerPoolEntry} {key : RunnerKey}

/-- Whether there is a stable fallback is not a question of quota. -/
theorem hasGaFallback_withoutQuotaOf :
    hasGaFallback input ((withoutQuotaOf key pool).filter (·.enabled)) =
      hasGaFallback input (pool.filter (·.enabled)) := by
  unfold hasGaFallback withoutQuotaOf
  rw [List.filter_map, List.any_map]
  have hsame : ∀ entry : RunnerPoolEntry,
      (if entry.key = key then entry.withoutQuota else entry).enabled =
          entry.enabled ∧
        (if entry.key = key then entry.withoutQuota
          else entry).capabilities = entry.capabilities := by
    intro entry
    split_ifs <;> exact ⟨rfl, rfl⟩
  simp only [Function.comp_def, hsame]

theorem mem_withoutQuotaOf (h : entry ∈ pool) :
    entry.withoutQuota ∈ withoutQuotaOf entry.key pool :=
  List.mem_map.mpr ⟨entry, h, if_pos rfl⟩

/-- With nothing known of its quota, a runner is judged by the rest. -/
theorem judge_withoutQuota :
    (judge input limits (hasGaFallback input (pool.filter (·.enabled)))
      entry.withoutQuota).verdict.eligible ↔
      Capable input entry ∧ entry.capabilities.available ≠ some false ∧
        ¬ entry.Full ∧ NotLoadBearingPreview input pool limits entry := by
  have hslot : 0 < entry.withoutQuota.headroom ↔ ¬ entry.Full :=
    headroom_pos.trans not_le.symm
  rw [judge_eligible, hslot, hasGaFallback_iff]
  show (unmetNeeds input.needs entry.capabilities).isEmpty ∧
      servesTier input.modelTier entry.capabilities ∧
      isAvailable entry.capabilities ∧ ¬ false = true ∧ ¬ entry.Full ∧
      (¬ isPreview entry.capabilities ∨ _ ∨ _) ↔ _
  rw [unmetNeeds_isEmpty, not_isPreview]
  simp only [Capable, NotLoadBearingPreview, isAvailable, bne_iff_ne,
    Bool.false_eq_true, not_false_eq_true, true_and, and_assoc]

/-- **What the second run asks.** A runner is refused for its quota alone when
it is spent, capable, available, with a slot, and no load-bearing preview. -/
theorem refusedForQuota_iff :
    RefusedForQuota input pool limits entry ↔
      SpentCapable input pool entry ∧
      entry.capabilities.available ≠ some false ∧ ¬ entry.Full ∧
      NotLoadBearingPreview input pool limits entry := by
  constructor
  · rintro ⟨hmem, hen, hrefused, -, -, hfreed⟩
    rw [hasGaFallback_withoutQuotaOf, judge_withoutQuota] at hfreed
    obtain ⟨hcapable, hav, hslot, hload⟩ := hfreed
    refine ⟨⟨⟨hmem, hen, hcapable⟩, ?_⟩, hav, hslot, hload⟩
    by_contra hspent
    exact hrefused (judge_eligible_iff.mpr ⟨hmem, hen, hcapable.1, hcapable.2,
      hav, hspent, not_le.mp hslot, hload⟩)
  · rintro ⟨⟨⟨hmem, hen, hcapable⟩, hspent⟩, hrest⟩
    refine ⟨hmem, hen, fun h => (judge_eligible_iff.mp h).notExhausted hspent,
      mem_withoutQuotaOf hmem, hen, ?_⟩
    rw [hasGaFallback_withoutQuotaOf, judge_withoutQuota]
    exact ⟨hcapable, hrest⟩

/-! ## What the record is made from -/

/-- A dispatch records the park avoided by its choice. -/
theorem decideDispatch_avoidedPark
    (hd : (decideDispatch input pool limits).outcome = .dispatch) :
    ∃ chosen, chosenCandidate input limits pool = some chosen ∧
      (decideDispatch input pool limits).avoidedPark =
        avoidedParkOf
          (quotaExhaustedEntries input (pool.filter (·.enabled))) chosen := by
  revert hd
  unfold decideDispatch
  dsimp only
  split_ifs with hen hlimit
  · exact fun hd => by cases hd
  · exact fun hd => by cases hd
  · rw [chosenCandidate]
    split
    next hc => exact fun hd => by cases hd
    next chosen hc => exact fun _ => ⟨chosen, hc, rfl⟩

/-- A choice that is none of the spent runners avoids their park. -/
theorem avoidedParkOf_eq {spent : List RunnerPoolEntry}
    {chosen : CandidateVerdict}
    (hchosen : ∀ entry ∈ spent, entry.key ≠ chosen.runnerKey) :
    ((avoidedParkOf spent chosen).isSome ↔ ∃ entry, entry ∈ spent) ∧
    ∀ park, avoidedParkOf spent chosen = some park →
      ∀ runner, runner ∈ park.exhausted ↔
        ∃ entry ∈ spent, runner = exhaustedRunner entry := by
  have hkey : (spent.map (·.key)).eraseDups.contains chosen.runnerKey =
      false := by
    rw [← Bool.not_eq_true, List.contains_iff_mem, List.mem_eraseDups,
      List.mem_map]
    rintro ⟨entry, hentry, hsame⟩
    exact hchosen entry hentry hsame
  have hpos : 0 < (spent.map (·.key)).eraseDups.length ↔
      ∃ entry, entry ∈ spent := by
    rw [List.length_pos_iff_exists_mem]
    simp only [List.mem_eraseDups, List.mem_map]
    constructor
    · rintro ⟨_, entry, hentry, _⟩
      exact ⟨entry, hentry⟩
    · rintro ⟨entry, hentry⟩
      exact ⟨_, entry, hentry, rfl⟩
  unfold avoidedParkOf
  dsimp only
  rw [hkey]
  by_cases hspent : ∃ entry, entry ∈ spent
  · rw [if_pos (by simp [hpos.mpr hspent])]
    refine ⟨iff_of_true rfl hspent, ?_⟩
    rintro park ⟨rfl⟩ runner
    show runner ∈ rank _ (spent.map exhaustedRunner) ↔ _
    simp only [mem_rank, List.mem_map, eq_comm]
  · rw [if_neg (by simp [mt hpos.mp hspent])]
    exact ⟨iff_of_false (by simp) hspent, fun park h => by cases h⟩

/-- **The record is of the spent capable runners**, whatever else stops
them. -/
theorem avoidedPark_records (hk : (pool.map (·.key)).Nodup)
    (hd : (decideDispatch input pool limits).outcome = .dispatch) :
    ((decideDispatch input pool limits).avoidedPark.isSome ↔
      ∃ entry, SpentCapable input pool entry) ∧
    ∀ park, (decideDispatch input pool limits).avoidedPark = some park →
      ∀ runner, runner ∈ park.exhausted ↔
        ∃ entry, SpentCapable input pool entry ∧
          runner = exhaustedRunner entry := by
  obtain ⟨chosen, hchosen, hpark⟩ := decideDispatch_avoidedPark hd
  obtain ⟨best, hbest, hkey, -⟩ := chosenCandidate_best hchosen
  have hspent : ∀ entry, entry ∈ quotaExhaustedEntries input
      (pool.filter (·.enabled)) ↔ SpentCapable input pool entry :=
    fun _ => mem_quotaExhaustedEntries
  have hother : ∀ entry ∈ quotaExhaustedEntries input
      (pool.filter (·.enabled)), entry.key ≠ chosen.runnerKey := by
    intro entry hentry hsame
    obtain ⟨hcapable, hquota⟩ := (hspent entry).mp hentry
    obtain rfl := List.inj_on_of_nodup_map hk hcapable.1 hbest.mem
      (hsame.trans hkey)
    exact hbest.notExhausted hquota
  have hrecords := avoidedParkOf_eq hother
  rw [← hpark] at hrecords
  simpa only [hspent] using hrecords

/-- **An avoided park is recorded for quota alone exactly when only quota
stops the spent capable runners.** -/
theorem parkIsQuotas_iff (input : DispatchInput)
    (pool : List RunnerPoolEntry) (limits : DispatchLimits)
    (hk : (pool.map (·.key)).Nodup)
    (hd : (decideDispatch input pool limits).outcome = .dispatch) :
    ParkIsQuotas input pool limits ↔ OnlyQuotaStops input pool limits := by
  obtain ⟨hsome, hlists⟩ := avoidedPark_records hk hd
  constructor
  · rintro ⟨-, hexact⟩ entry hspent
    obtain ⟨park, hpark⟩ := Option.isSome_iff_exists.mp
      (hsome.mpr ⟨entry, hspent⟩)
    obtain ⟨alone, halone, hsame⟩ := (hexact park hpark _).mp
      ((hlists park hpark _).mpr ⟨entry, hspent, rfl⟩)
    -- an entry of the record is found back by its key
    obtain rfl := List.inj_on_of_nodup_map hk hspent.1.1 halone.mem
      (congrArg ExhaustedRunner.runnerKey hsame)
    exact (refusedForQuota_iff.mp halone).2
  · intro honly
    have hsame : ∀ entry, RefusedForQuota input pool limits entry ↔
        SpentCapable input pool entry := fun entry =>
      refusedForQuota_iff.trans
        ⟨fun h => h.1, fun h => ⟨h, honly entry h⟩⟩
    unfold ParkIsQuotas
    simp only [hsame]
    exact ⟨hsome, hlists⟩

section Instance

/-- The spent runner has a slot and is refused for its quota alone. -/
theorem parkIsQuotas_pair :
    ParkIsQuotas ⟨[.fullStreaming], some .large⟩ [spentRunner, stableRunner]
      ⟨none, 0, false⟩ := by
  refine (parkIsQuotas_iff ⟨[.fullStreaming], some .large⟩
    [spentRunner, stableRunner] ⟨none, 0, false⟩ (by decide)
    (by decide)).mpr ?_
  rintro entry ⟨⟨hmem, -, -⟩, hspent⟩
  obtain rfl | hmem := List.mem_cons.mp hmem
  · exact ⟨by decide, by unfold RunnerPoolEntry.Full; decide, .inl rfl⟩
  · obtain rfl := List.mem_singleton.mp hmem
    exact absurd hspent (by decide)

/-- **A full runner is recorded as a park avoided**: it is out of quota too,
but could not have taken the work with quota either. -/
theorem records_a_full_runner :
    ¬ ∀ (input : DispatchInput) (pool : List RunnerPoolEntry)
      (limits : DispatchLimits), (pool.map (·.key)).Nodup →
      (decideDispatch input pool limits).outcome = .dispatch →
        ParkIsQuotas input pool limits := by
  intro h
  have hpark := (h ⟨[], none⟩
    [{ spentRunner with liveRuns := 2 }, stableRunner] ⟨none, 0, false⟩
    (by decide) (by decide)).1.mp (by decide)
  obtain ⟨entry, halone⟩ := hpark
  obtain ⟨⟨⟨hmem, -, -⟩, hspent⟩, -, hslot, -⟩ :=
    refusedForQuota_iff.mp halone
  obtain rfl | hmem := List.mem_cons.mp hmem
  · exact hslot (by unfold RunnerPoolEntry.Full; decide)
  · obtain rfl := List.mem_singleton.mp hmem
    exact absurd hspent (by decide)

end Instance

end Opifex
