import Opifex.TrustGrants

/-!
# A grant authorises exactly what fits

The gate ranks the grants of a class and repository and checks the cost
against the first of them only. That is enough because the ranking is by what
is left of the ceiling: **if the cost fits any candidate it fits the first**.
A row whose two figures could not be read is ranked below every row whose
figures could, so it comes first only where no row is readable, and then the
gate refuses.

The comparison ends in the row's id, so the grant that is charged does not
depend on the order the database returned the rows in.
-/

namespace Opifex

open Preference (rank)

/-! ## The ranking -/

variable {grants : List ReadGrant} {actionClass : String} {repositoryId : ℕ}
  {projectedCostUsd : JsNumber} {now : Instant}

namespace ReadGrant

/-- Room for the cost is a matter of the key. -/
theorem hasRoomFor_iff {grant : ReadGrant} {cost : ℚ} :
    grant.HasRoomFor cost ↔ (cost : WithBot ℚ) ≤ grant.sortKey := by
  unfold HasRoomFor sortKey
  cases grant.ceiling with
  | none => simp
  | some ceiling =>
    cases grant.spent with
    | none => simp
    | some spent =>
      rw [WithBot.coe_le_coe, le_sub_iff_add_le']
      constructor
      · rintro ⟨_, _, ⟨⟩, ⟨⟩, hfits⟩
        exact hfits
      · intro hfits
        exact ⟨ceiling, spent, rfl, rfl, hfits⟩

/-- `compareRead` is a chain of three comparisons. -/
theorem compareRead_eq :
    compareRead = compareLex (fun a b => compareOn sortKey b a)
      (compareLex (fun a b => compareOn (·.row.expiresAt) b a)
        (compareOn (·.row.id))) := by
  funext a b
  rfl

instance : Std.TransCmp compareRead := by
  rw [compareRead_eq]
  have : Std.TransCmp fun a b : ReadGrant => compareOn sortKey b a :=
    Std.TransCmp.opposite
  have : Std.TransCmp fun a b : ReadGrant =>
      compareOn (fun grant : ReadGrant => grant.row.expiresAt) b a :=
    Std.TransCmp.opposite
  infer_instance

/-- The last tiebreak is the id. -/
theorem id_eq_of_compareRead {a b : ReadGrant}
    (h : compareRead a b = .eq) : a.row.id = b.row.id := by
  simp only [compareRead, Ordering.then_eq_eq] at h
  exact compare_eq_iff_eq.mp h.2.2

/-- **What comes first has no less left than what comes after.** -/
theorem sortKey_le_of_isLE {a b : ReadGrant}
    (h : (compareRead a b).isLE) : b.sortKey ≤ a.sortKey :=
  compare_le_iff_le.mp (Ordering.isLE_iff_ne_gt.mp
    (Ordering.isLE_left_of_isLE_then h))

end ReadGrant

/-! ## What is authorised -/

/-- Why nothing authorised does not depend on the order of the rows either. -/
theorem diagnoseNoGrant_perm {rows rows' : List TrustGrantRow}
    (hids : (rows.map (·.id)).Nodup) (hperm : rows.Perm rows') :
    diagnoseNoGrant rows actionClass repositoryId now
      = diagnoseNoGrant rows' actionClass repositoryId now := by
  have : Std.TransCmp fun a b : TrustGrantRow =>
      compareOn TrustGrantRow.expiresAt b a := Std.TransCmp.opposite
  have : Std.TransCmp fun a b : TrustGrantRow =>
      compareOn TrustGrantRow.id b a := Std.TransCmp.opposite
  have : Std.TransCmp fun a b : TrustGrantRow =>
      (compare b.expiresAt a.expiresAt).then (compare b.id a.id) :=
    inferInstanceAs (Std.TransCmp (compareLex
      (fun a b => compareOn TrustGrantRow.expiresAt b a)
      fun a b => compareOn TrustGrantRow.id b a))
  have hrank : rank (fun a b : TrustGrantRow =>
        (compare b.expiresAt a.expiresAt).then (compare b.id a.id))
      (rows.filter fun row =>
        row.actionClass == actionClass && row.repositoryId == repositoryId)
      = rank (fun a b : TrustGrantRow =>
        (compare b.expiresAt a.expiresAt).then (compare b.id a.id))
      (rows'.filter fun row =>
        row.actionClass == actionClass && row.repositoryId == repositoryId) := by
    refine Preference.rank_perm (Preference.separates_of_key
      (hids.sublist (List.filter_sublist.map _)) ?_) (hperm.filter _)
    intro a b h
    rw [Ordering.then_eq_eq] at h
    exact (compare_eq_iff_eq.mp h.2).symm
  unfold diagnoseNoGrant
  dsimp only
  rw [hrank]

/-- **The gate reads the rows as a set.** -/
theorem authorizeRead_perm {grants' : List ReadGrant}
    (hids : (grants.map (·.row.id)).Nodup) (hperm : grants.Perm grants') :
    authorizeRead grants actionClass repositoryId projectedCostUsd now
      = authorizeRead grants' actionClass repositoryId projectedCostUsd now := by
  have hrank : rank ReadGrant.compareRead
        (grants.filter (·.row.isCandidate actionClass repositoryId now))
      = rank ReadGrant.compareRead
        (grants'.filter (·.row.isCandidate actionClass repositoryId now)) :=
    Preference.rank_perm (Preference.separates_of_key
      (hids.sublist (List.filter_sublist.map _))
      fun _ _ => ReadGrant.id_eq_of_compareRead) (hperm.filter _)
  have hdiagnose : diagnoseNoGrant (grants.map (·.row)) actionClass
        repositoryId now
      = diagnoseNoGrant (grants'.map (·.row)) actionClass repositoryId now :=
    diagnoseNoGrant_perm (by rwa [List.map_map]) (hperm.map _)
  unfold authorizeRead
  dsimp only
  rw [hrank, hdiagnose]

/-- **Authorisation is exact.** It is given just when some candidate has room
for the cost, to a candidate that has, with no candidate's headroom above its
own; and the answer is the same whatever order the rows come in. -/
theorem authorizeRead_exact (hids : (grants.map (·.row.id)).Nodup) :
    ((∃ row, authorizeRead grants actionClass repositoryId projectedCostUsd now
          = .authorized row) ↔
        isAutonomyEligible actionClass
          ∧ ∃ cost, projectedCostUsd.value = some cost ∧ 0 ≤ cost
            ∧ ∃ grant ∈ grants,
              grant.row.isCandidate actionClass repositoryId now
                ∧ grant.HasRoomFor cost)
      ∧ (∀ row, authorizeRead grants actionClass repositoryId projectedCostUsd
            now = .authorized row →
          ∃ grant ∈ grants, grant.row = row
            ∧ row.isCandidate actionClass repositoryId now
            ∧ (∃ cost, projectedCostUsd.value = some cost
              ∧ grant.HasRoomFor cost)
            ∧ ∀ other ∈ grants,
              other.row.isCandidate actionClass repositoryId now →
                other.sortKey ≤ grant.sortKey)
      ∧ ∀ grants', grants.Perm grants' →
        authorizeRead grants' actionClass repositoryId projectedCostUsd now
          = authorizeRead grants actionClass repositoryId projectedCostUsd
            now := by
  refine ⟨⟨?_, ?_⟩, ?_, fun grants' hperm => (authorizeRead_perm hids hperm).symm⟩
  · rintro ⟨row, h⟩
    obtain ⟨heligible, cost, hvalue, hnonneg, best, hbest, hroom, rfl⟩ :=
      authorizeRead_eq_authorized.mp h
    obtain ⟨hmem, hcandidate⟩ :=
      List.mem_filter.mp (Preference.head?_rank_eq_some hbest).1
    exact ⟨heligible, cost, hvalue, hnonneg, best, hmem, hcandidate, hroom⟩
  · rintro ⟨heligible, cost, hvalue, hnonneg, grant, hmem, hcandidate, hroom⟩
    have hgrant : grant ∈ grants.filter
        (·.row.isCandidate actionClass repositoryId now) :=
      List.mem_filter.mpr ⟨hmem, hcandidate⟩
    obtain ⟨best, hbest⟩ := Option.ne_none_iff_exists'.mp
      (mt (@Preference.head?_rank_eq_none _ ReadGrant.compareRead _).mp
        (List.ne_nil_of_mem hgrant))
    have hleast := (Preference.head?_rank_eq_some hbest).2 grant hgrant
    have hfits : best.HasRoomFor cost := ReadGrant.hasRoomFor_iff.mpr
      ((ReadGrant.hasRoomFor_iff.mp hroom).trans
        (ReadGrant.sortKey_le_of_isLE hleast))
    exact ⟨best.row, authorizeRead_eq_authorized.mpr
      ⟨heligible, cost, hvalue, hnonneg, best, hbest, hfits, rfl⟩⟩
  · intro row h
    obtain ⟨-, cost, hvalue, -, best, hbest, hroom, rfl⟩ :=
      authorizeRead_eq_authorized.mp h
    obtain ⟨hin, hleast⟩ := Preference.head?_rank_eq_some hbest
    obtain ⟨hmem, hcandidate⟩ := List.mem_filter.mp hin
    refine ⟨best, hmem, rfl, hcandidate, ⟨cost, hvalue, hroom⟩, ?_⟩
    intro other hother hcandidate'
    exact ReadGrant.sortKey_le_of_isLE
      (hleast other (List.mem_filter.mpr ⟨hother, hcandidate'⟩))

/-- A grant on issue shaping with 25 dollars, as it was read. -/
def ReadGrant.shaping (key : ℕ) (spent : Option ℚ) : ReadGrant where
  row :=
    { id := key
      actionClass := "issue-shaping"
      repositoryId := 0
      expiresAt := 1000
      budgetCeilingUsd := .ofDollars 25
      maxFailureRate := ⟨340⟩
      maxCostPerActionUsd := .ofDollars 5
      createdAt := 0
      grantedById := 0 }
  ceiling := some 25
  spent := spent

/-- An unreadable row beside two readable ones: the one with room is named,
wherever it stands. -/
theorem authorizeRead_exact_overlapping :
    let grants : List ReadGrant :=
      [.shaping 0 none, .shaping 1 (some 20), .shaping 2 (some 5)]
    (∃ row, authorizeRead grants "issue-shaping" 0 ⟨some 10, "10"⟩ 1
        = .authorized row)
      ∧ ∀ grants', grants.Perm grants' →
        authorizeRead grants' "issue-shaping" 0 ⟨some 10, "10"⟩ 1
          = authorizeRead grants "issue-shaping" 0 ⟨some 10, "10"⟩ 1 := by
  have hexact := @authorizeRead_exact
    [.shaping 0 none, .shaping 1 (some 20), .shaping 2 (some 5)]
    "issue-shaping" 0 ⟨some 10, "10"⟩ 1 (by decide)
  refine ⟨hexact.1.mpr ⟨by decide, 10, rfl, by norm_num, .shaping 2 (some 5),
    by simp, by decide, 25, 5, rfl, rfl, by norm_num⟩, hexact.2.2⟩

end Opifex
