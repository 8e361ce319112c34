import QubicCore.Assets.Conservation

/-!
# The end of an epoch

`assetsEndEpoch` rebuilds the table from its possessions. The loop keeps the books of the new table
with `gathered d t m` as supply: the shares of each asset that the first `m` slots of the old table
possess.
-/

namespace QubicCore.Universe

open Library.Probing Library.Cells Finset AssetRecord Option

variable {d : Nat} {t : Nat → AssetRecord} {supply : AssetKey → Int} {k : AssetKey} {m : Nat}

def assetOf (t : Nat → AssetRecord) (e : AssetRecord) : Option AssetKey :=
  e.ownershipOf.bind fun o => (t o).issuanceOf.bind fun i => (t i).assetKey

def gatheredAt (t : Nat → AssetRecord) (k : AssetKey) (j : Nat) : Int :=
  if assetOf t (t j) = some k then (t j).possessed else 0

def gathered (t : Nat → AssetRecord) (m : Nat) (k : AssetKey) : Int :=
  ∑ j ∈ range m, gatheredAt t k j

lemma assetOf_eq_some (h : Linked d t) {i j : Nat} (hi : i < 2 ^ d) (hj : j < 2 ^ d)
    (hk : (t i).assetKey = some k) : assetOf t (t j) = some k ↔
      ∃ o, (t j).ownershipOf = some o ∧ (t o).issuanceOf = some i := by
  simp only [assetOf, bind_eq_some_iff]
  constructor
  · rintro ⟨o, ho, i', hi', hk'⟩
    obtain ⟨holt, _⟩ := h.ownershipOf j hj o ho
    obtain ⟨hilt, _⟩ := h.issuanceOf o holt i' hi'
    obtain rfl := h.chained.unique hi hilt hk hk'
    exact ⟨o, ho, hi'⟩
  · rintro ⟨o, ho, hio⟩
    exact ⟨o, ho, i, hio, hk⟩

/-- A possession is counted at the one ownership it lies below. -/
lemma gatheredAt_eq_sum (h : Linked d t) {i j : Nat} (hi : i < 2 ^ d) (hj : j < 2 ^ d)
    (hk : (t i).assetKey = some k) : gatheredAt t k j =
      ∑ o ∈ range (2 ^ d), if (t o).issuanceOf = some i then (t j).possessedUnder o else 0 := by
  unfold gatheredAt
  cases ho : (t j).ownershipOf with
  | none =>
    rw [sum_eq_zero]
    · simp [assetOf, ho]
    · simp [possessedUnder, ho]
  | some o =>
    obtain ⟨holt, _⟩ := h.ownershipOf j hj o ho
    rw [sum_eq_single_of_mem o (mem_range.mpr holt)]
    · simp [assetOf_eq_some h hi hj hk, ho, possessedUnder]
    · intro o' _ hne
      simp [possessedUnder, ho, hne.symm]

lemma Books.gathered_eq (h : Books d t supply) (k : AssetKey) :
    gathered t (2 ^ d) k = supply k := by
  by_cases hex : ∃ i < 2 ^ d, (t i).assetKey = some k
  · obtain ⟨i, hi, hk⟩ := hex
    calc gathered t (2 ^ d) k
        = ∑ j ∈ range (2 ^ d), ∑ o ∈ range (2 ^ d),
            if (t o).issuanceOf = some i then (t j).possessedUnder o else 0 :=
          sum_congr rfl fun j hj => gatheredAt_eq_sum h.linked hi (mem_range.mp hj) hk
      _ = ∑ o ∈ range (2 ^ d), ∑ j ∈ range (2 ^ d),
            if (t o).issuanceOf = some i then (t j).possessedUnder o else 0 := sum_comm
      _ = ownSum d t i := by
          refine sum_congr rfl fun o ho => ?_
          rw [ownedUnder, h.balanced o (mem_range.mp ho)]
          split_ifs
          · rfl
          · simp
      _ = supply k := h.supply_eq i hi k hk
  · push Not at hex
    rw [h.supply_absent k hex]
    refine sum_eq_zero fun j hj => ?_
    have hne : assetOf t (t j) ≠ some k := by
      simp only [assetOf, ne_eq, bind_eq_some_iff, not_exists, not_and]
      intro o ho i hi
      obtain ⟨holt, _⟩ := h.linked.ownershipOf j (mem_range.mp hj) o ho
      exact hex i (h.linked.issuanceOf o holt i hi).1
    simp [gatheredAt, hne]

lemma Books.gathered_lt (h : Books d t supply) (hm : m ≤ 2 ^ d) (k : AssetKey) :
    gathered t m k < 2 ^ 63 := by
  refine lt_of_le_of_lt ?_ (h.gathered_eq k ▸ h.supply_lt k)
  refine sum_le_sum_of_subset_of_nonneg (range_mono hm) fun j hj _ => ?_
  have := h.possessed_nonneg j (mem_range.mp hj)
  simp only [gatheredAt]
  split_ifs <;> simp [this]

/-! ## One possession -/

/-- Inserting a possession finds or copies its issuance, then deposits the shares. -/
lemma Books.reorgPossession {r r' : Nat → AssetRecord} (h : Books d r supply)
    {e : AssetRecord} {issuer : M256i} {name : BitVec 56} {owner possessor : M256i}
    {contract contract' : Nat} {n : Int} (hk : e.assetKey = some (issuer, name)) (hn : 0 ≤ n)
    (hlt : supply (issuer, name) + n < 2 ^ 63)
    (hr : Universe.reorgPossession d r e issuer name owner contract possessor contract' n =
      some r') :
    Books d r' (Function.update supply (issuer, name) (supply (issuer, name) + n)) := by
  simp only [Universe.reorgPossession, Option.bind_eq_bind, bind_eq_some_iff,
    Option.pure_def, some.injEq] at hr
  obtain ⟨i, hfi, o, hfo, p, hfp, rfl⟩ := hr
  obtain ⟨hi, hui, hreach⟩ := findRecord_spec (homeSlot_lt d issuer) hfi
  obtain ⟨ho, huo, _⟩ := findRecord_spec (homeSlot_lt d owner) hfo
  obtain ⟨hp, hup, _⟩ := findRecord_spec (homeSlot_lt d possessor) hfp
  have hissuance : Books d (fill r i e) supply ∧ (fill r i e i).assetKey = some (issuer, name) := by
    cases hz : (r i).isEmpty with
    | true =>
      rw [fill_of_empty hz]
      have habsent := h.linked.absent_of_findRecord hfi hz fun _ => isIssuance_iff.mpr
      exact ⟨h.createIssuance hi hz hk hreach habsent, by simpa using hk⟩
    | false =>
      rw [fill_of_used hz]
      exact ⟨h, isIssuance_iff.mp (hui.resolve_left (by simp [hz]))⟩
  exact hissuance.1.deposit hi hissuance.2 hn hlt ho owner contract
    (huo.imp_right issuanceOf_of_isOwnership) hp possessor contract' rfl rfl
    (hup.imp_right ownershipOf_of_isPossession) rfl

/-! ## The loop -/

lemma gathered_succ (t : Nat → AssetRecord) (m : Nat) :
    gathered t (m + 1) = fun k => gathered t m k + gatheredAt t k m :=
  funext fun _ => sum_range_succ _ _

lemma gathered_succ_of_zero (hz : (t m).possessed = 0) : gathered t (m + 1) = gathered t m := by
  rw [gathered_succ]
  funext k
  simp [gatheredAt, hz]

lemma gathered_succ_of_asset (hk : assetOf t (t m) = some k) :
    gathered t (m + 1) = Function.update (gathered t m) k (gathered t m k + (t m).possessed) := by
  rw [gathered_succ]
  funext k'
  by_cases hkk : k' = k
  · subst hkk; simp [gatheredAt, hk]
  · simp [gatheredAt, hk, hkk, Ne.symm hkk]

lemma books_empty (d : Nat) : Books d (fun _ => AssetRecord.empty) fun _ => 0 where
  linked := ⟨by simp, by simp, Chained.empty fun _ _ => rfl⟩
  balanced _ _ := by simp [possSum, possessedUnder]
  owned_nonneg := by simp
  possessed_nonneg := by simp
  supply_eq := by simp
  supply_absent _ _ := rfl
  supply_lt _ := by norm_num

lemma Books.assetsEndEpoch {u u' : Universe} (h : Books d u.assets supply)
    (he : u.assetsEndEpoch d = some u') : Books d u'.assets supply := by
  simp only [Universe.assetsEndEpoch, Option.bind_eq_bind, bind_eq_some_iff,
    Option.pure_def, some.injEq] at he
  obtain ⟨r, hr, rfl⟩ := he
  generalize u.assets = t at h hr
  have hloop := foldlM_range_of_some (fun m r => Books d r (gathered t m)) (books_empty d)
    (fun m hm r r' hb hstep => ?_) hr
  · rwa [funext h.gathered_eq] at hloop
  · have hpos := h.possessed_nonneg m hm
    cases htm : t m with
    | possession possessor contract o n =>
      simp only [htm] at hstep hpos
      split_ifs at hstep with hn
      · obtain ⟨holt, hown⟩ := h.linked.ownershipOf m hm o (by simp [htm, ownershipOf])
        cases hto : t o with
        | ownership owner contract' i x =>
          simp only [hto] at hstep
          obtain ⟨hilt, hkey⟩ := h.linked.issuanceOf o holt i (by simp [hto, issuanceOf])
          cases hti : t i with
          | issuance issuer name decimals unit =>
            simp only [hti] at hstep
            have hk : assetOf t (t m) = some (issuer, name) := by
              simp [assetOf, htm, hto, hti, ownershipOf, issuanceOf, assetKey]
            have hnext := gathered_succ_of_asset hk
            have hlt := h.gathered_lt (Nat.succ_le_of_lt hm) (issuer, name)
            simp only [Nat.succ_eq_add_one, hnext, Function.update_self] at hlt
            rw [hnext]
            simp only [htm, possessed] at hlt ⊢
            exact hb.reorgPossession rfl hn.le hlt hstep
          | _ => simp [hti, assetKey] at hkey
        | _ => simp [hto, issuanceOf] at hown
      · obtain rfl := some.inj hstep
        rw [gathered_succ_of_zero]
        · exact hb
        · simp only [possessed] at hpos
          simp only [htm, possessed]
          omega
    | _ =>
      simp only [htm] at hstep
      obtain rfl := some.inj hstep
      rw [gathered_succ_of_zero (by simp [htm, possessed])]
      exact hb

end QubicCore.Universe
