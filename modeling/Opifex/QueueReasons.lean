import Opifex.DispatchSelection

/-!
# What a queue reason says, and when it is so

A queued decision carries one code, and an operator acts on the code: register
a runner, change a tier, wait for a slot. Each code is a sentence about the
pool (`QueueReason.SaysTruly`).

`diagnose` tells the sentences apart by sets recorded at some of the branches
that refuse a runner: the tier and the load-bearing preview leave a key behind,
a spent quota is read off the pool. A runner that reports itself unavailable
leaves nothing, and a pool in which only some are refused as previews is in no
set as a whole. Both fall through to the last answer, *at capacity*, which says
that waiting for a slot will do.

`diagnosed` states what each answer rests on, and `reasons_true_iff` says
exactly when the answer is the pool's: **either every runner behind it was
refused as a load-bearing preview, or one is out of quota, or all are full**.
The sets hold keys, so a key shared by two runners also counts one for the
other.
-/

namespace Opifex

open Preference

/-! ## The sentences -/

section Sentences

variable (input : DispatchInput) (pool : List RunnerPoolEntry)
  (limits : DispatchLimits)

/-- An enabled runner that meets every declared need. -/
def MeetsNeeds (entry : RunnerPoolEntry) : Prop :=
  entry ∈ pool ∧ entry.enabled ∧
    ∀ need ∈ input.needs, satisfies need entry.capabilities

/-- An enabled runner that meets every need and serves the tier. -/
def CapableIn (entry : RunnerPoolEntry) : Prop :=
  entry ∈ pool ∧ entry.enabled ∧ Capable input entry

/-- The runner has no slot left. -/
def RunnerPoolEntry.Full (entry : RunnerPoolEntry) : Prop :=
  entry.capabilities.maxConcurrency ≤ entry.liveRuns

/-- **What a queue reason says about the pool.** Routing gives none of the
spend refusals. -/
def QueueReason.SaysTruly : QueueReason → Prop
  | .noRunnersRegistered => pool = []
  | .allRunnersDisabled => pool ≠ [] ∧ ∀ entry ∈ pool, ¬ entry.enabled
  | .globalConcurrencyReached => ¬ BelowGlobalLimit limits
  | .noRunnerHasTheCapabilities => ∀ entry, ¬ MeetsNeeds input pool entry
  | .noRunnerServesTheModelTier =>
    (∃ entry, MeetsNeeds input pool entry) ∧
      ∀ entry, MeetsNeeds input pool entry →
        ¬ servesTier input.modelTier entry.capabilities
  | .onlyPreviewRunnersAndNoGaFallback =>
    ∀ entry, CapableIn input pool entry →
      entry.capabilities.stabilityTier ≠ .stable
  | .capableRunnersQuotaExhausted =>
    ∃ entry, CapableIn input pool entry ∧ entry.quotaExhausted
  | .capableRunnersAreAtCapacity =>
    ∀ entry, CapableIn input pool entry → entry.Full
  | .noHardSpendCeilingConfigured => False
  | .hardSpendCeilingReached => False
  | .workOrderCannotBeBudgeted => False

/-- Whatever reason the decision gives is true of its pool. -/
def ReasonIsTrue : Prop :=
  ∀ reason, (decideDispatch input pool limits).queueReason = some reason →
    reason.SaysTruly input pool limits

/-! ## The sets the diagnosis is made from -/

/-- Some enabled runner of this key was refused for its tier. -/
def TierRefused (key : RunnerKey) : Prop :=
  ∃ other, MeetsNeeds input pool other ∧
    ¬ servesTier input.modelTier other.capabilities ∧ other.key = key

/-- Some enabled runner of this key was refused as a load-bearing preview,
which is asked after availability and quota. -/
def PreviewRefused (key : RunnerKey) : Prop :=
  ∃ other, CapableIn input pool other ∧
    other.capabilities.available ≠ some false ∧ ¬ other.quotaExhausted ∧
    ¬ NotLoadBearingPreview input pool limits other ∧ other.key = key

/-- A runner the diagnosis counts as capable. -/
def Counted (entry : RunnerPoolEntry) : Prop :=
  MeetsNeeds input pool entry ∧ ¬ TierRefused input pool entry.key

/-- **The pools whose queue reason fits**: should the fleet be below its limit
and no runner be one to choose, then a capable runner is counted if there is
one, and unless every counted one was refused as a load-bearing preview, a
capable runner is out of quota or all are full. -/
def ReasonFits : Prop :=
  BelowGlobalLimit limits →
  (∀ entry, ¬ EligibleRunner input pool limits entry) →
    ((∃ entry, CapableIn input pool entry) →
      ∃ entry, Counted input pool entry) ∧
    ((∃ entry, Counted input pool entry ∧
        ¬ PreviewRefused input pool limits entry.key) →
      (∃ entry, CapableIn input pool entry ∧ entry.quotaExhausted) ∨
        ∀ entry, CapableIn input pool entry → entry.Full)

/-- What each answer of the diagnosis rests on: a statement about the pool for each
reason, that it is why no runner was taken. -/
inductive Diagnosed : QueueReason → Prop
  | needs (none : ∀ entry, ¬ MeetsNeeds input pool entry) :
    Diagnosed .noRunnerHasTheCapabilities
  | tier (some : ∃ entry, MeetsNeeds input pool entry)
    (none : ∀ entry, ¬ Counted input pool entry) :
    Diagnosed .noRunnerServesTheModelTier
  | preview (some : ∃ entry, Counted input pool entry)
    (all : ∀ entry, Counted input pool entry →
      PreviewRefused input pool limits entry.key) :
    Diagnosed .onlyPreviewRunnersAndNoGaFallback
  | quota (other : ∃ entry, Counted input pool entry ∧
      ¬ PreviewRefused input pool limits entry.key)
    (spent : ∃ entry, CapableIn input pool entry ∧ entry.quotaExhausted) :
    Diagnosed .capableRunnersQuotaExhausted
  | capacity (other : ∃ entry, Counted input pool entry ∧
      ¬ PreviewRefused input pool limits entry.key)
    (unspent : ¬ ∃ entry, CapableIn input pool entry ∧
      entry.quotaExhausted) :
    Diagnosed .capableRunnersAreAtCapacity

end Sentences

variable {input : DispatchInput} {limits : DispatchLimits}
  {pool : List RunnerPoolEntry} {entry : RunnerPoolEntry} {key : RunnerKey}

theorem capableIn_iff :
    CapableIn input pool entry ↔
      MeetsNeeds input pool entry ∧
        servesTier input.modelTier entry.capabilities := by
  simp only [CapableIn, MeetsNeeds, Capable, and_assoc]

/-- A counted runner is capable: one that does not serve the tier left its
own key behind. -/
theorem Counted.capable (h : Counted input pool entry) :
    CapableIn input pool entry := by
  refine capableIn_iff.mpr ⟨h.1, ?_⟩
  by_contra htier
  exact h.2 ⟨entry, h.1, htier, rfl⟩

/-! ## What the branches record -/

theorem judge_refusal_tier (gaFallback : Bool) :
    (judge input limits gaFallback entry).refusal = some .tier ↔
      (unmetNeeds input.needs entry.capabilities).isEmpty ∧
        ¬ servesTier input.modelTier entry.capabilities := by
  unfold judge
  dsimp only
  split_ifs <;> simp_all

theorem judge_refusal_preview (gaFallback : Bool) :
    (judge input limits gaFallback entry).refusal =
        some .loadBearingPreview ↔
      (unmetNeeds input.needs entry.capabilities).isEmpty ∧
      servesTier input.modelTier entry.capabilities ∧
      isAvailable entry.capabilities ∧ ¬ entry.quotaExhausted ∧
      ¬ (¬ isPreview entry.capabilities ∨ gaFallback ∨
        limits.allowPreviewWithoutGaFallback) := by
  unfold judge
  dsimp only
  split_ifs <;> simp_all

theorem judge_unmetNeeds (gaFallback : Bool) :
    (judge input limits gaFallback entry).verdict.unmetNeeds =
      unmetNeeds input.needs entry.capabilities := by
  unfold judge
  dsimp only
  split_ifs <;> rfl

/-- The keys recorded for a refusal are those of the runners it was made
to. -/
theorem mem_refusedKeys (refusal : Refusal) :
    key ∈ refusedKeys refusal
        (judgements input limits (pool.filter (·.enabled))) ↔
      ∃ entry, (entry ∈ pool ∧ entry.enabled) ∧
        (judge input limits (hasGaFallback input (pool.filter (·.enabled)))
          entry).refusal = some refusal ∧ entry.key = key := by
  simp only [refusedKeys, judgements, List.mem_map, List.mem_filter,
    decide_eq_true_eq]
  constructor
  · rintro ⟨_, ⟨⟨entry, hmem, rfl⟩, href⟩, rfl⟩
    exact ⟨entry, hmem, href, (judge_verdict _).1.symm⟩
  · rintro ⟨entry, hmem, href, rfl⟩
    exact ⟨_, ⟨⟨entry, hmem, rfl⟩, href⟩, (judge_verdict _).1⟩

theorem mem_refusedKeys_tier :
    key ∈ refusedKeys .tier
        (judgements input limits (pool.filter (·.enabled))) ↔
      TierRefused input pool key := by
  rw [mem_refusedKeys]
  simp only [judge_refusal_tier, unmetNeeds_isEmpty, TierRefused, MeetsNeeds,
    and_assoc]

theorem mem_refusedKeys_preview :
    key ∈ refusedKeys .loadBearingPreview
        (judgements input limits (pool.filter (·.enabled))) ↔
      PreviewRefused input pool limits key := by
  rw [mem_refusedKeys]
  simp only [judge_refusal_preview, unmetNeeds_isEmpty, not_isPreview,
    hasGaFallback_iff, PreviewRefused, CapableIn, Capable,
    NotLoadBearingPreview, isAvailable, bne_iff_ne, and_assoc]

theorem mem_quotaExhaustedEntries :
    entry ∈ quotaExhaustedEntries input (pool.filter (·.enabled)) ↔
      CapableIn input pool entry ∧ entry.quotaExhausted := by
  simp only [quotaExhaustedEntries, List.mem_filter, Bool.and_eq_true,
    unmetNeeds_isEmpty, CapableIn, Capable]
  tauto

/-- The candidates with no unmet need are the verdicts of the runners that
meet every need. -/
theorem mem_meetsNeeds {c : CandidateVerdict} :
    c ∈ (rankedCandidates input limits (pool.filter (·.enabled))).filter
        (fun c => c.unmetNeeds.isEmpty) ↔
      ∃ entry, MeetsNeeds input pool entry ∧
        c = (judge input limits
          (hasGaFallback input (pool.filter (·.enabled))) entry).verdict := by
  simp only [rankedCandidates, judgements, List.mem_filter, mem_rank,
    List.map_map, List.mem_map, Function.comp_apply]
  constructor
  · rintro ⟨⟨entry, ⟨hmem, hen⟩, rfl⟩, hunmet⟩
    rw [judge_unmetNeeds, unmetNeeds_isEmpty] at hunmet
    exact ⟨entry, ⟨hmem, hen, hunmet⟩, rfl⟩
  · rintro ⟨entry, ⟨hmem, hen, hneeds⟩, rfl⟩
    refine ⟨⟨entry, ⟨hmem, hen⟩, rfl⟩, ?_⟩
    rw [judge_unmetNeeds, unmetNeeds_isEmpty]
    exact hneeds

/-- The candidates left once the tier refusals are taken out are those of the
counted runners. -/
theorem mem_counted {c : CandidateVerdict} :
    c ∈ ((rankedCandidates input limits (pool.filter (·.enabled))).filter
        (fun c => c.unmetNeeds.isEmpty)).filter
        (fun c => !(refusedKeys .tier (judgements input limits
          (pool.filter (·.enabled)))).contains c.runnerKey) ↔
      ∃ entry, Counted input pool entry ∧
        c = (judge input limits
          (hasGaFallback input (pool.filter (·.enabled))) entry).verdict := by
  rw [List.mem_filter, mem_meetsNeeds]
  simp only [Bool.not_eq_true', ← Bool.not_eq_true, List.contains_iff_mem,
    mem_refusedKeys_tier]
  constructor
  · rintro ⟨⟨entry, hneeds, rfl⟩, htier⟩
    rw [(judge_verdict _).1] at htier
    exact ⟨entry, ⟨hneeds, htier⟩, rfl⟩
  · rintro ⟨entry, hcounted, rfl⟩
    refine ⟨⟨entry, hcounted.1, rfl⟩, ?_⟩
    rw [(judge_verdict _).1]
    exact hcounted.2

/-- **What the diagnosis answers, and what the answer rests on.** -/
theorem diagnosed :
    Diagnosed input pool limits
      (diagnose (rankedCandidates input limits (pool.filter (·.enabled)))
        (refusedKeys .tier
          (judgements input limits (pool.filter (·.enabled))))
        (refusedKeys .loadBearingPreview
          (judgements input limits (pool.filter (·.enabled))))
        ((quotaExhaustedEntries input (pool.filter (·.enabled))).map
          (·.key))) := by
  unfold diagnose
  dsimp only
  split_ifs with hneeds htier hpreview hquota
  · refine .needs fun entry hentry => ?_
    have hmem := (@mem_meetsNeeds _ limits _ _).mpr ⟨entry, hentry, rfl⟩
    rw [List.isEmpty_iff.mp hneeds] at hmem
    exact List.not_mem_nil hmem
  · refine .tier ?_ fun entry hentry => ?_
    · obtain ⟨c, hc⟩ := List.exists_mem_of_ne_nil _
        fun h => hneeds (List.isEmpty_iff.mpr h)
      obtain ⟨entry, hentry, -⟩ := mem_meetsNeeds.mp hc
      exact ⟨entry, hentry⟩
    · have hmem := (@mem_counted _ limits _ _).mpr ⟨entry, hentry, rfl⟩
      rw [List.isEmpty_iff.mp htier] at hmem
      exact List.not_mem_nil hmem
  · refine .preview ?_ fun entry hentry => ?_
    · obtain ⟨c, hc⟩ := List.exists_mem_of_ne_nil _
        fun h => htier (List.isEmpty_iff.mpr h)
      obtain ⟨entry, hentry, -⟩ := mem_counted.mp hc
      exact ⟨entry, hentry⟩
    · have hkey := List.all_eq_true.mp hpreview _
        (mem_counted.mpr ⟨entry, hentry, rfl⟩)
      rwa [(judge_verdict _).1, List.contains_iff_mem,
        mem_refusedKeys_preview] at hkey
  all_goals
    have hother : ∃ entry, Counted input pool entry ∧
        ¬ PreviewRefused input pool limits entry.key := by
      by_contra hno
      refine hpreview (List.all_eq_true.mpr fun c hc => ?_)
      obtain ⟨entry, hentry, rfl⟩ := mem_counted.mp hc
      rw [(judge_verdict _).1, List.contains_iff_mem, mem_refusedKeys_preview]
      by_contra hkey
      exact hno ⟨entry, hentry, hkey⟩
  · refine .quota hother ?_
    obtain ⟨entry, hentry⟩ := List.exists_mem_of_ne_nil
      (quotaExhaustedEntries input (pool.filter (·.enabled)))
      (by simpa using hquota)
    exact ⟨entry, mem_quotaExhaustedEntries.mp hentry⟩
  · refine .capacity hother ?_
    rintro ⟨entry, hentry⟩
    have hmem := mem_quotaExhaustedEntries.mpr hentry
    rw [show quotaExhaustedEntries input (pool.filter (·.enabled)) = [] by
      simpa using hquota] at hmem
    exact List.not_mem_nil hmem

/-! ## The reason against the pool -/

/-- A runner refused as a load-bearing preview leaves no capable stable
runner. -/
theorem PreviewRefused.not_stable
    (h : PreviewRefused input pool limits key)
    (hentry : CapableIn input pool entry) :
    entry.capabilities.stabilityTier ≠ .stable := by
  obtain ⟨other, -, -, -, hload, -⟩ := h
  intro hstable
  exact hload (.inr (.inl ⟨entry, hentry.1, hentry.2.1, hstable, hentry.2.2⟩))

/-- **An answer of the diagnosis is true unless it leaves a capable runner
uncounted, or says that runners are full when some are not.** -/
theorem Diagnosed.saysTruly_iff {reason : QueueReason}
    (h : Diagnosed input pool limits reason) :
    reason.SaysTruly input pool limits ↔
      ((∃ entry, CapableIn input pool entry) →
        ∃ entry, Counted input pool entry) ∧
      ((∃ entry, Counted input pool entry ∧
          ¬ PreviewRefused input pool limits entry.key) →
        (∃ entry, CapableIn input pool entry ∧ entry.quotaExhausted) ∨
          ∀ entry, CapableIn input pool entry → entry.Full) := by
  cases h with
  | needs none =>
    refine iff_of_true none ⟨?_, ?_⟩
    · rintro ⟨entry, hentry⟩
      exact absurd (capableIn_iff.mp hentry).1 (none entry)
    · rintro ⟨entry, hentry, -⟩
      exact absurd hentry.1 (none entry)
  | tier some none =>
    constructor
    · rintro ⟨-, hserves⟩
      refine ⟨?_, fun ⟨entry, hentry, _⟩ => absurd hentry (none entry)⟩
      rintro ⟨entry, hentry⟩
      obtain ⟨hneeds, htier⟩ := capableIn_iff.mp hentry
      exact absurd htier (hserves entry hneeds)
    · rintro ⟨hcounted, -⟩
      refine ⟨some, fun entry hneeds htier => ?_⟩
      obtain ⟨other, hother⟩ := hcounted ⟨entry, capableIn_iff.mpr ⟨hneeds,
        htier⟩⟩
      exact none other hother
  | preview some all =>
    obtain ⟨counted, hcounted⟩ := some
    refine iff_of_true ?_ ⟨fun _ => ⟨counted, hcounted⟩, ?_⟩
    · show ∀ entry, CapableIn input pool entry →
        entry.capabilities.stabilityTier ≠ .stable
      exact fun entry hentry => (all counted hcounted).not_stable hentry
    · rintro ⟨entry, hentry, hkey⟩
      exact absurd (all entry hentry) hkey
  | quota other spent =>
    obtain ⟨counted, hcounted, -⟩ := other
    exact iff_of_true spent
      ⟨fun _ => ⟨counted, hcounted⟩, fun _ => .inl spent⟩
  | capacity other unspent =>
    obtain ⟨counted, hcounted, hkey⟩ := other
    constructor
    · exact fun hfull => ⟨fun _ => ⟨counted, hcounted⟩, fun _ => .inr hfull⟩
    · rintro ⟨-, hfull⟩
      exact (hfull ⟨counted, hcounted, hkey⟩).resolve_left unspent

/-- **The queue reason is true of the pool exactly when it fits it.** -/
theorem reasons_true_iff (input : DispatchInput)
    (pool : List RunnerPoolEntry) (limits : DispatchLimits) :
    ReasonIsTrue input pool limits ↔ ReasonFits input pool limits := by
  unfold ReasonIsTrue ReasonFits decideDispatch
  dsimp only
  split_ifs with hen hlimit
  · have hoff : ∀ entry ∈ pool, ¬ entry.enabled := by
      simpa using List.isEmpty_iff.mp hen
    refine iff_of_true ?_ fun _ _ => ⟨?_, ?_⟩
    · rintro reason ⟨rfl⟩
      by_cases hpool : pool.isEmpty
      · rw [if_pos hpool]
        exact List.isEmpty_iff.mp hpool
      · rw [if_neg hpool]
        exact ⟨fun h => hpool (List.isEmpty_iff.mpr h), hoff⟩
    · rintro ⟨entry, hmem, hon, -⟩
      exact absurd hon (hoff entry hmem)
    · rintro ⟨entry, ⟨⟨hmem, hon, -⟩, -⟩, -⟩
      exact absurd hon (hoff entry hmem)
  · have hfull : ¬ BelowGlobalLimit limits := by
      rw [← atGlobalLimit_eq_false, hlimit]
      exact Bool.noConfusion
    refine iff_of_true ?_ fun hbelow => absurd hbelow hfull
    rintro reason ⟨rfl⟩
    exact hfull
  · have hbelow : BelowGlobalLimit limits :=
      atGlobalLimit_eq_false.mp (by simpa using hlimit)
    split
    next hc =>
      have hnone : ∀ entry, ¬ EligibleRunner input pool limits entry := by
        intro entry hentry
        have hsome := chosenCandidate_isSome.mpr ⟨entry, hentry⟩
        rw [chosenCandidate, hc] at hsome
        exact Bool.noConfusion hsome
      rw [forall_prop_of_true hbelow, forall_prop_of_true hnone,
        ← diagnosed.saysTruly_iff]
      constructor
      · exact fun h => h _ rfl
      · rintro h reason ⟨rfl⟩
        exact h
    next c hc =>
      refine iff_of_true (fun reason h => by cases h) fun _ hnone => ?_
      obtain ⟨entry, hentry⟩ := chosenCandidate_isSome.mp
        (show (chosenCandidate input limits pool).isSome by
          rw [chosenCandidate, hc]; rfl)
      exact absurd hentry (hnone entry)

/-- **A runner that reports itself unavailable is reported as full**: both of
its slots are free. -/
theorem reports_unavailable_as_full :
    ¬ ∀ (input : DispatchInput) (pool : List RunnerPoolEntry)
      (limits : DispatchLimits), ReasonIsTrue input pool limits := by
  intro h
  let broken : RunnerPoolEntry :=
    { stableRunner with
      capabilities :=
        { stableRunner.capabilities with available := some false }
      liveRuns := 0 }
  have hfull : broken.Full :=
    h ⟨[], none⟩ [broken] ⟨none, 0, false⟩ .capableRunnersAreAtCapacity
      (by decide) broken
      ⟨List.mem_singleton_self _, rfl, by simp, rfl⟩
  exact absurd hfull (by unfold RunnerPoolEntry.Full; decide)

end Opifex
