import Opifex.DispatchPolicy

/-!
# Routing is sound, complete and order-independent

Three facts about `decideDispatch`, each from one fact about a part of it.

* `judge` is characterised by the seven conditions it tests (`judge_eligible`),
  so a dispatch happens exactly when some enabled runner meets them all.
* `byPreference` is a chain of comparisons ending in the key
  (`byPreference_eq`), hence a total preorder that separates runners with
  distinct keys; the runner chosen is the eligible one with the most headroom,
  the least key among those.
* Everything else the decision says is computed from the ranked verdicts and
  from sets of keys, neither of which sees the order of the pool.
-/

namespace Opifex

open Preference

/-! ## What it takes to be eligible -/

/-- The runner meets every declared need and serves the tier. -/
def Capable (input : DispatchInput) (entry : RunnerPoolEntry) : Prop :=
  (∀ need ∈ input.needs, satisfies need entry.capabilities) ∧
    servesTier input.modelTier entry.capabilities

/-- The runner is stable, is backed by an enabled stable runner that could
take the same work, or was acknowledged as load-bearing. -/
def NotLoadBearingPreview (input : DispatchInput)
    (pool : List RunnerPoolEntry) (limits : DispatchLimits)
    (entry : RunnerPoolEntry) : Prop :=
  entry.capabilities.stabilityTier = .stable ∨
    (∃ fallback ∈ pool, fallback.enabled ∧
      fallback.capabilities.stabilityTier = .stable ∧
      Capable input fallback) ∨
    limits.allowPreviewWithoutGaFallback

/-- **A runner routing may choose**: enabled, capable, not unavailable, not
out of quota, with a free slot, and not a load-bearing preview. -/
structure EligibleRunner (input : DispatchInput) (pool : List RunnerPoolEntry)
    (limits : DispatchLimits) (entry : RunnerPoolEntry) : Prop where
  mem : entry ∈ pool
  enabled : entry.enabled
  meetsNeeds : ∀ need ∈ input.needs, satisfies need entry.capabilities
  servesTier : servesTier input.modelTier entry.capabilities
  notUnavailable : entry.capabilities.available ≠ some false
  notExhausted : ¬ entry.quotaExhausted
  hasSlot : entry.liveRuns < entry.capabilities.maxConcurrency
  notLoadBearing : NotLoadBearingPreview input pool limits entry

/-- The fleet is below its global limit, or has none. -/
def BelowGlobalLimit (limits : DispatchLimits) : Prop :=
  ∀ limit, limits.globalMaxConcurrent = some limit →
    limits.globalLiveRuns < limit

variable {input : DispatchInput} {limits : DispatchLimits}
  {pool pool' : List RunnerPoolEntry} {entry : RunnerPoolEntry}

theorem unmetNeeds_isEmpty {needs : List RunnerNeed}
    {capabilities : RunnerCapabilities} :
    (unmetNeeds needs capabilities).isEmpty ↔
      ∀ need ∈ needs, satisfies need capabilities := by
  simp [unmetNeeds, List.isEmpty_iff]

theorem headroom_pos :
    0 < entry.headroom ↔ entry.liveRuns < entry.capabilities.maxConcurrency :=
  Nat.sub_pos_iff_lt

theorem atGlobalLimit_eq_false :
    atGlobalLimit limits = false ↔ BelowGlobalLimit limits := by
  unfold atGlobalLimit BelowGlobalLimit
  cases limits.globalMaxConcurrent <;> simp

/-- **What the chain of early returns decides.** -/
theorem judge_eligible (gaFallback : Bool) :
    (judge input limits gaFallback entry).verdict.eligible ↔
      (unmetNeeds input.needs entry.capabilities).isEmpty ∧
      servesTier input.modelTier entry.capabilities ∧
      isAvailable entry.capabilities ∧ ¬ entry.quotaExhausted ∧
      0 < entry.headroom ∧
      (¬ isPreview entry.capabilities ∨ gaFallback ∨
        limits.allowPreviewWithoutGaFallback) := by
  unfold judge
  dsimp only
  cases isPreview entry.capabilities <;> cases gaFallback <;>
    split_ifs <;> simp_all [verdict, Nat.pos_iff_ne_zero]

/-- Every judgement is about the runner it was made for. -/
theorem judge_verdict (gaFallback : Bool) :
    (judge input limits gaFallback entry).verdict.runnerKey = entry.key ∧
      (judge input limits gaFallback entry).verdict.headroom =
        entry.headroom := by
  unfold judge
  dsimp only
  split_ifs <;> exact ⟨rfl, rfl⟩

theorem not_isPreview {capabilities : RunnerCapabilities} :
    ¬ isPreview capabilities ↔ capabilities.stabilityTier = .stable := by
  simp [isPreview]

theorem hasGaFallback_iff :
    hasGaFallback input (pool.filter (·.enabled)) ↔
      ∃ fallback ∈ pool, fallback.enabled ∧
        fallback.capabilities.stabilityTier = .stable ∧
        Capable input fallback := by
  unfold hasGaFallback Capable
  rw [List.any_eq_true]
  simp only [List.mem_filter, Bool.and_eq_true, unmetNeeds_isEmpty,
    Bool.not_eq_true', ← Bool.not_eq_true, not_isPreview, and_assoc]

/-- **Judging the fleet finds the runners routing may choose.** -/
theorem judge_eligible_iff :
    (entry ∈ pool ∧ entry.enabled ∧
      (judge input limits (hasGaFallback input (pool.filter (·.enabled)))
        entry).verdict.eligible) ↔
      EligibleRunner input pool limits entry := by
  rw [judge_eligible, unmetNeeds_isEmpty, headroom_pos, not_isPreview,
    hasGaFallback_iff]
  constructor
  · rintro ⟨hmem, hen, hneeds, htier, hav, hquota, hslot, hprev⟩
    exact ⟨hmem, hen, hneeds, htier, by simpa [isAvailable] using hav, hquota,
      hslot, hprev⟩
  · rintro ⟨hmem, hen, hneeds, htier, hav, hquota, hslot, hprev⟩
    exact ⟨hmem, hen, hneeds, htier, by simpa [isAvailable] using hav, hquota,
      hslot, hprev⟩

/-! ## The ranking -/

/-- `byPreference` is a chain of three comparisons. -/
theorem byPreference_eq :
    byPreference = compareLex (compareOn fun c => !c.eligible)
      (compareLex (fun a b => compareOn CandidateVerdict.headroom b a)
        (compareOn CandidateVerdict.runnerKey)) := by
  funext a b
  unfold byPreference
  rw [ite_bne_then fun m n : ℕ => compare n m]
  cases ha : a.eligible <;> cases hb : b.eligible <;>
    simp [compareLex, compareOn, ha, hb] <;> rfl

instance : Std.TransCmp byPreference := by
  rw [byPreference_eq]
  have : Std.TransCmp fun a b : CandidateVerdict =>
      compareOn CandidateVerdict.headroom b a :=
    Std.TransCmp.opposite
  infer_instance

/-- The last tiebreak is the key. -/
theorem runnerKey_eq_of_byPreference {a b : CandidateVerdict}
    (h : byPreference a b = .eq) : a.runnerKey = b.runnerKey := by
  rw [byPreference_eq] at h
  simp only [compareLex, Ordering.then_eq_eq] at h
  exact Std.LawfulEqOrd.eq_of_compare h.2.2

/-- Between eligible candidates the preference is headroom, then the key. -/
theorem isLE_byPreference {a b : CandidateVerdict} (ha : a.eligible)
    (hb : b.eligible) :
    (byPreference a b).isLE ↔
      b.headroom < a.headroom ∨
        b.headroom = a.headroom ∧ a.runnerKey ≤ b.runnerKey := by
  unfold byPreference
  rw [ha, hb]
  rcases lt_trichotomy b.headroom a.headroom with h | h | h
  · simp [h, h.ne', compare_lt_iff_lt.mpr h]
  · have hkey : (compare a.runnerKey b.runnerKey).isLE ↔
        a.runnerKey ≤ b.runnerKey := by
      rw [← compare_le_iff_le]
      cases compare a.runnerKey b.runnerKey <;> simp
    simp [h, hkey]
  · simp [h.not_gt, h.ne, h.ne', compare_gt_iff_gt.mpr h]

theorem judgements_keys (enabled : List RunnerPoolEntry) :
    ((judgements input limits enabled).map (·.verdict)).map (·.runnerKey) =
      enabled.map (·.key) := by
  simp only [judgements, List.map_map]
  exact List.map_congr_left fun entry _ => (judge_verdict _).1

/-- The candidates are those of the runners routing may choose. -/
theorem mem_rankedCandidates {c : CandidateVerdict} :
    (c ∈ rankedCandidates input limits (pool.filter (·.enabled)) ∧
      c.eligible) ↔
      ∃ entry, EligibleRunner input pool limits entry ∧
        c = (judge input limits (hasGaFallback input
          (pool.filter (·.enabled))) entry).verdict := by
  simp only [rankedCandidates, judgements, mem_rank, List.map_map,
    List.mem_map, List.mem_filter, Function.comp_apply]
  constructor
  · rintro ⟨⟨entry, ⟨hmem, hen⟩, rfl⟩, hel⟩
    exact ⟨entry, judge_eligible_iff.mp ⟨hmem, hen, hel⟩, rfl⟩
  · rintro ⟨entry, hel, rfl⟩
    obtain ⟨hmem, hen, helig⟩ := judge_eligible_iff.mpr hel
    exact ⟨⟨entry, ⟨hmem, hen⟩, rfl⟩, helig⟩

/-! ## The order of the pool is forgotten -/

theorem diagnose_perm {t t' l l' q q' : List RunnerKey}
    (candidates : List CandidateVerdict) (ht : t.Perm t') (hl : l.Perm l')
    (hq : q.Perm q') :
    diagnose candidates t l q = diagnose candidates t' l' q' := by
  unfold diagnose
  simp only [ht.contains_eq, hl.contains_eq, hq.isEmpty_eq]

section Permutation

variable (hp : pool.Perm pool')
include hp

theorem hasGaFallback_perm :
    hasGaFallback input pool = hasGaFallback input pool' :=
  hp.any_eq

theorem judgements_perm :
    (judgements input limits pool).Perm (judgements input limits pool') := by
  unfold judgements
  rw [hasGaFallback_perm hp]
  exact hp.map _

theorem quotaExhaustedEntries_perm :
    (quotaExhaustedEntries input pool).Perm
      (quotaExhaustedEntries input pool') :=
  hp.filter _

theorem refusedKeys_perm (refusal : Refusal) :
    (refusedKeys refusal (judgements input limits pool)).Perm
      (refusedKeys refusal (judgements input limits pool')) :=
  ((judgements_perm hp).filter _).map _

theorem rankedCandidates_perm (hk : (pool.map (·.key)).Nodup) :
    rankedCandidates input limits pool =
      rankedCandidates input limits pool' := by
  have hkeys : (((judgements input limits pool).map (·.verdict)).map
      (·.runnerKey)).Nodup := by
    rw [judgements_keys]
    exact hk
  exact rank_perm
    (separates_of_key hkeys fun a b => runnerKey_eq_of_byPreference)
    ((judgements_perm hp).map _)

/-- The record of an avoided park lists the spent runners by key. -/
theorem avoidedParkOf_perm (hk : (pool.map (·.key)).Nodup)
    (chosen : CandidateVerdict) :
    avoidedParkOf pool chosen = avoidedParkOf pool' chosen := by
  have hkeys : ((pool.map exhaustedRunner).map (·.runnerKey)).Nodup := by
    rw [List.map_map]
    exact hk
  have hrank : rank (compareOn (·.runnerKey)) (pool.map exhaustedRunner) =
      rank (compareOn (·.runnerKey)) (pool'.map exhaustedRunner) :=
    rank_perm
      (separates_of_key hkeys fun a b => Std.LawfulEqOrd.eq_of_compare)
      (hp.map _)
  unfold avoidedParkOf
  rw [hrank, eraseDups_of_nodup hk,
    eraseDups_of_nodup ((hp.map _).nodup_iff.mp hk)]
  simp only [List.length_map, hp.length_eq, (hp.map _).contains_eq]

end Permutation

/-! ## The decision -/

/-- The candidate a dispatch is made to, if there is one. -/
def chosenCandidate (input : DispatchInput) (limits : DispatchLimits)
    (pool : List RunnerPoolEntry) : Option CandidateVerdict :=
  (rankedCandidates input limits (pool.filter (·.enabled))).find? (·.eligible)

/-- With no enabled runner there is no candidate to choose. -/
theorem chosenCandidate_eq_none
    (h : (pool.filter (·.enabled)).isEmpty) :
    chosenCandidate input limits pool = none := by
  rw [chosenCandidate, List.isEmpty_iff.mp h]
  rfl

/-- A dispatch is to the chosen candidate; every other answer is a queued
one. -/
theorem decideDispatch_dispatch_iff :
    (decideDispatch input pool limits).outcome = .dispatch ↔
      BelowGlobalLimit limits ∧
        (chosenCandidate input limits pool).isSome := by
  unfold decideDispatch
  rw [← atGlobalLimit_eq_false]
  dsimp only
  split_ifs with hen hlimit
  · simp [noneEnabled, queued, chosenCandidate_eq_none hen]
  · simp [fleetAtLimit, queued, hlimit]
  · rw [chosenCandidate]
    split
    next hc => simp [noneEligible, queued, hc]
    next hc => simp [dispatchTo, hc, hlimit]

/-- A dispatch names the chosen candidate's runner. -/
theorem decideDispatch_runnerKey
    (h : (decideDispatch input pool limits).outcome = .dispatch) :
    (decideDispatch input pool limits).runnerKey =
      (chosenCandidate input limits pool).map (·.runnerKey) := by
  revert h
  unfold decideDispatch
  dsimp only
  split_ifs with hen hlimit
  · simp [noneEnabled, queued]
  · simp [fleetAtLimit, queued]
  · rw [chosenCandidate]
    split
    next hc => simp [noneEligible, queued]
    next hc => simp [dispatchTo, hc]

/-- **The decision does not see the order of the fleet**: what it decides,
where it sends the work, why it queues and which park it avoided. -/
theorem decideDispatch_perm (hk : (pool.map (·.key)).Nodup)
    (hp : pool.Perm pool') :
    (decideDispatch input pool limits).outcome =
      (decideDispatch input pool' limits).outcome ∧
    (decideDispatch input pool limits).runnerKey =
      (decideDispatch input pool' limits).runnerKey ∧
    (decideDispatch input pool limits).queueReason =
      (decideDispatch input pool' limits).queueReason ∧
    (decideDispatch input pool limits).avoidedPark =
      (decideDispatch input pool' limits).avoidedPark := by
  have hen := hp.filter (·.enabled)
  have hken : ((pool.filter (·.enabled)).map (·.key)).Nodup :=
    hk.sublist (List.filter_sublist.map _)
  have hq : (quotaExhaustedEntries input (pool.filter (·.enabled))).Perm
      (quotaExhaustedEntries input (pool'.filter (·.enabled))) :=
    quotaExhaustedEntries_perm hen
  have hqk : ((quotaExhaustedEntries input (pool.filter (·.enabled))).map
      (·.key)).Nodup :=
    hken.sublist (List.filter_sublist.map _)
  unfold decideDispatch
  dsimp only
  rw [hen.isEmpty_eq, rankedCandidates_perm hen hken]
  split_ifs
  · simp only [noneEnabled, queued, hp.isEmpty_eq, and_self]
  · exact ⟨rfl, rfl, rfl, rfl⟩
  · split
    · refine ⟨rfl, rfl, ?_, rfl⟩
      simp only [noneEligible, queued, rankedCandidates_perm hen hken]
      rw [diagnose_perm _ (refusedKeys_perm hen _) (refusedKeys_perm hen _)
        (hq.map _)]
    · refine ⟨rfl, rfl, rfl, ?_⟩
      exact avoidedParkOf_perm hq hqk _

/-- A candidate is chosen exactly when routing may choose some runner. -/
theorem chosenCandidate_isSome :
    (chosenCandidate input limits pool).isSome ↔
      ∃ entry, EligibleRunner input pool limits entry := by
  rw [chosenCandidate, List.find?_isSome]
  constructor
  · rintro ⟨c, hc, hel⟩
    obtain ⟨entry, hentry, -⟩ := mem_rankedCandidates.mp ⟨hc, hel⟩
    exact ⟨entry, hentry⟩
  · rintro ⟨entry, hentry⟩
    obtain ⟨hc, hel⟩ := mem_rankedCandidates.mpr ⟨entry, hentry, rfl⟩
    exact ⟨_, hc, hel⟩

/-- **The chosen candidate is the eligible runner with the most headroom, and
of those the one with the least key.** -/
theorem chosenCandidate_best {c : CandidateVerdict}
    (hc : chosenCandidate input limits pool = some c) :
    ∃ entry, EligibleRunner input pool limits entry ∧
      c.runnerKey = entry.key ∧
      ∀ other, EligibleRunner input pool limits other →
        other.headroom < entry.headroom ∨
          other.headroom = entry.headroom ∧ entry.key ≤ other.key := by
  have hmem : c ∈ rankedCandidates input limits (pool.filter (·.enabled)) :=
    List.mem_of_find?_eq_some hc
  obtain ⟨-, hel, hbest⟩ := find?_rank_eq_some hc
  obtain ⟨entry, hentry, rfl⟩ := mem_rankedCandidates.mp ⟨hmem, hel⟩
  refine ⟨entry, hentry, (judge_verdict _).1, fun other hother => ?_⟩
  obtain ⟨hmem', hel'⟩ := mem_rankedCandidates.mpr ⟨other, hother, rfl⟩
  have hle := hbest _ (mem_rank.mp hmem') hel'
  rw [isLE_byPreference hel hel', (judge_verdict _).1, (judge_verdict _).1,
    (judge_verdict _).2, (judge_verdict _).2] at hle
  exact hle

/-- **Routing is sound, complete and order-independent.** It dispatches
exactly when the fleet is below its limit and some runner may be chosen; it
then names the one with the most headroom, ties broken by the least key; and
nothing it decides depends on the order of the fleet. -/
theorem decideDispatch_sound_complete (input : DispatchInput)
    (pool : List RunnerPoolEntry) (limits : DispatchLimits)
    (hk : (pool.map (·.key)).Nodup) :
    ((decideDispatch input pool limits).outcome = .dispatch ↔
      BelowGlobalLimit limits ∧
        ∃ entry, EligibleRunner input pool limits entry) ∧
    ((decideDispatch input pool limits).outcome = .dispatch →
      ∃ entry, EligibleRunner input pool limits entry ∧
        (decideDispatch input pool limits).runnerKey = some entry.key ∧
        ∀ other, EligibleRunner input pool limits other →
          other.headroom < entry.headroom ∨
            other.headroom = entry.headroom ∧ entry.key ≤ other.key) ∧
    ∀ pool', pool.Perm pool' →
      (decideDispatch input pool' limits).outcome =
        (decideDispatch input pool limits).outcome ∧
      (decideDispatch input pool' limits).runnerKey =
        (decideDispatch input pool limits).runnerKey ∧
      (decideDispatch input pool' limits).queueReason =
        (decideDispatch input pool limits).queueReason ∧
      (decideDispatch input pool' limits).avoidedPark =
        (decideDispatch input pool limits).avoidedPark := by
  refine ⟨?_, fun hd => ?_, fun pool' hp => ?_⟩
  · rw [decideDispatch_dispatch_iff, chosenCandidate_isSome]
  · obtain ⟨-, hsome⟩ := decideDispatch_dispatch_iff.mp hd
    obtain ⟨c, hc⟩ := Option.isSome_iff_exists.mp hsome
    obtain ⟨entry, hentry, hkey, hbest⟩ := chosenCandidate_best hc
    refine ⟨entry, hentry, ?_, hbest⟩
    rw [decideDispatch_runnerKey hd, hc, Option.map_some, hkey]
  · exact decideDispatch_perm ((hp.map _).nodup_iff.mp hk) hp.symm

section Instance

/-- A stable runner with two slots that serves every tier. -/
def stableRunner : RunnerPoolEntry where
  capabilities :=
    { key := ⟨"claude-code-local", RunnerKey.keyShape_claudeCodeLocal⟩
      version := "1.0.0"
      executionLocus := .ownInfrastructure
      streamingFidelity := .full
      rateLimitSignal := .structured
      stabilityTier := .stable
      reportsCost := true
      maxConcurrency := 2
      modelTiers := none
      available := none
      unavailableReason := none }
  enabled := true
  liveRuns := 1
  quota := none

/-- The same runner under another name, out of quota. -/
def spentRunner : RunnerPoolEntry :=
  { stableRunner with
    capabilities :=
      { stableRunner.capabilities with key := ⟨"codex-local", by decide⟩ }
    quota := some ⟨true, none, "five_hour window"⟩ }

/-- Two runners, one of them spent: the work goes to the other. -/
theorem decideDispatch_sound_complete_pair :
    (decideDispatch ⟨[.fullStreaming], some .large⟩
        [spentRunner, stableRunner] ⟨none, 0, false⟩).outcome = .dispatch ∧
      ∃ entry, EligibleRunner ⟨[.fullStreaming], some .large⟩
        [spentRunner, stableRunner] ⟨none, 0, false⟩ entry := by
  have h := decideDispatch_sound_complete ⟨[.fullStreaming], some .large⟩
    [spentRunner, stableRunner] ⟨none, 0, false⟩ (by decide)
  have hd : (decideDispatch ⟨[.fullStreaming], some .large⟩
      [spentRunner, stableRunner] ⟨none, 0, false⟩).outcome = .dispatch := by
    decide
  exact ⟨hd, (h.1.mp hd).2⟩

end Instance

end Opifex
