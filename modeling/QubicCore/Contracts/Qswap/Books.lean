import QubicCore.Contracts.Qswap.Liquidity
import QubicCore.Library.Cells

/-!
# The books of QSWAP

What holds of the state of the contract by itself: the liquidity recorded for the accounts of a
pool is its total, the total is at most the root of the product of the reserves, and pools have
different ids. `Books.update` says what a change of one pool has to respect.
-/

namespace QubicCore.Contracts.Qswap

open Library Finset Function List

variable {s : State}
  {info : LiquidityInfo} {a : Asset} {slot : Nat}

/-! ## Recorded liquidity -/

instance : Finite M256i :=
  Finite.of_injective (fun k : M256i => k.bits.toFin) fun a b h => by
    cases a
    cases b
    exact congrArg M256i.mk (BitVec.toFin_inj.1 h)

noncomputable instance : Fintype M256i := Fintype.ofFinite M256i

namespace Liquidities

variable {l : Liquidities}

def under (l : Liquidities) (key : LiquidityKey) : Int :=
  ((l.elements key).map LiquidityInfo.liquidity).sum

noncomputable def recorded (l : Liquidities) (poolID : M256i) : Int :=
  ∑ account, l.under (.k12 poolID account)

/-- Only the record of one account in one pool differs, by `d`. -/
structure Moved (l l' : Liquidities) (poolID account : M256i) (d : Int) : Prop where
  under_eq : l'.under (.k12 poolID account) = l.under (.k12 poolID account) + d
  under_of_ne : ∀ key ≠ .k12 poolID account, l'.elements key = l.elements key

lemma Moved.recorded_eq {l' : Liquidities} {poolID account : M256i} {d : Int}
    (h : Moved l l' poolID account d) (p : M256i) :
    l'.recorded p = l.recorded p + if p = poolID then d else 0 := by
  have hother : ∀ key ≠ .k12 poolID account, l'.under key = l.under key :=
    fun key hkey => by rw [under, h.under_of_ne key hkey, under]
  unfold recorded
  split_ifs with hp
  · subst hp
    rw [← add_sum_erase univ _ (mem_univ account), ← add_sum_erase univ
      (fun x => l.under (.k12 p x)) (mem_univ account), h.under_eq]
    have hrest : ∑ x ∈ univ.erase account, l'.under (.k12 p x) =
        ∑ x ∈ univ.erase account, l.under (.k12 p x) := by
      refine sum_congr rfl fun x hx => hother _ fun heq => ?_
      exact ne_of_mem_erase hx (LiquidityKey.k12.inj heq).2
    omega
  · rw [add_zero]
    refine sum_congr rfl fun x _ => hother _ fun heq => ?_
    exact hp (LiquidityKey.k12.inj heq).1

/-- All records are nonnegative, none is of the older kind, and there is room for them. -/
structure Proper (l : Liquidities) : Prop where
  population_le : l.population ≤ capacity
  nonneg : ∀ key, ∀ info ∈ l.elements key, 0 ≤ info.liquidity
  pov : ∀ key, l.elements (.pov key) = []

lemma Proper.under_nonneg (h : l.Proper) (key : LiquidityKey) : 0 ≤ l.under key := by
  refine sum_nonneg fun x hx => ?_
  obtain ⟨info, hinfo, rfl⟩ := mem_map.1 hx
  exact h.nonneg key info hinfo

lemma Proper.under_le (h : l.Proper) (poolID account : M256i) :
    l.under (.k12 poolID account) ≤ l.recorded poolID :=
  single_le_sum (fun _ _ => h.under_nonneg _)
    (mem_univ account)

lemma Proper.head_le (h : l.Proper) {poolID account : M256i}
    (hinfo : l.head? (.k12 poolID account) = some info) :
    0 ≤ info.liquidity ∧ info.liquidity ≤ l.recorded poolID := by
  obtain ⟨rest, hrest⟩ := head?_eq_some_iff.1 hinfo
  have hmem : info ∈ l.elements (.k12 poolID account) := hrest ▸ mem_cons_self
  refine ⟨h.nonneg _ _ hmem, le_trans ?_ (h.under_le poolID account)⟩
  rw [under, hrest, List.map_cons, List.sum_cons, le_add_iff_nonneg_right]
  refine List.sum_nonneg fun x hx => ?_
  obtain ⟨i, hi, rfl⟩ := mem_map.1 hx
  exact h.nonneg _ i (hrest ▸ mem_cons_of_mem _ hi)

section

variable {l : Liquidities} {poolID account : M256i}

lemma moved_update {records : List LiquidityInfo} (population : Nat) {d : Int}
    (hd : (records.map LiquidityInfo.liquidity).sum = l.under (.k12 poolID account) + d) :
    Moved l ⟨update l.elements (.k12 poolID account) records, population⟩ poolID account
      d := by
  refine ⟨?_, fun key hkey => update_of_ne hkey _ _⟩
  simp only [under, update_self]
  exact hd

lemma Proper.update (h : l.Proper) {records : List LiquidityInfo} {population : Nat}
    (hpopulation : population ≤ capacity) (hrecords : ∀ info ∈ records, 0 ≤ info.liquidity) :
    (⟨update l.elements (.k12 poolID account) records, population⟩ : Liquidities).Proper := by
  refine ⟨hpopulation, fun key info hinfo => ?_, fun key => ?_⟩
  · obtain rfl | hkey := eq_or_ne key (.k12 poolID account)
    · simp only [update_self] at hinfo
      exact hrecords info hinfo
    · simp only [update_of_ne hkey] at hinfo
      exact h.nonneg key info hinfo
  · have hkey : LiquidityKey.pov key ≠ .k12 poolID account := by simp
    simp only [update_of_ne hkey]
    exact h.pov key

lemma moved_add (info : LiquidityInfo) (hroom : l.population < capacity) :
    Moved l (l.add (.k12 poolID account) info) poolID account info.liquidity := by
  rw [add, if_pos hroom]
  exact moved_update _ (by simp [under])

lemma Proper.add (h : l.Proper) (hinfo : 0 ≤ info.liquidity) :
    (l.add (.k12 poolID account) info).Proper := by
  rw [Liquidities.add]
  split_ifs with hroom
  · refine h.update hroom fun i hi => ?_
    obtain hi | hi := mem_append.1 hi
    · exact h.nonneg _ i hi
    · rw [List.mem_singleton.1 hi]
      exact hinfo
  · exact h

lemma moved_replace {old : LiquidityInfo} (info : LiquidityInfo)
    (hold : l.head? (.k12 poolID account) = some old) :
    Moved l (l.replace (.k12 poolID account) info) poolID account
      (info.liquidity - old.liquidity) := by
  obtain ⟨rest, hrest⟩ := head?_eq_some_iff.1 hold
  refine moved_update _ ?_
  rw [under, hrest, tail_cons, List.map_cons, List.map_cons, List.sum_cons, List.sum_cons]
  omega

lemma Proper.replace (h : l.Proper) (hinfo : 0 ≤ info.liquidity) :
    (l.replace (.k12 poolID account) info).Proper := by
  refine h.update h.population_le fun i hi => ?_
  obtain rfl | hi := mem_cons.1 hi
  · exact hinfo
  · exact h.nonneg _ i (mem_of_mem_tail hi)

lemma moved_remove {old : LiquidityInfo} (hold : l.head? (.k12 poolID account) = some old) :
    Moved l (l.remove (.k12 poolID account)) poolID account (-old.liquidity) := by
  obtain ⟨rest, hrest⟩ := head?_eq_some_iff.1 hold
  exact moved_update _ (by simp [under, hrest])

lemma Proper.remove (h : l.Proper) : (l.remove (.k12 poolID account)).Proper :=
  h.update ((Nat.sub_le _ _).trans h.population_le) fun i hi =>
    h.nonneg _ i (mem_of_mem_tail hi)

end

end Liquidities

/-! ## Fees -/

def IsUint64 (c : Int) : Prop := 0 ≤ c ∧ c < 2 ^ 64

lemma uint64_mem (x : Int) : IsUint64 (uint64 x) :=
  ⟨Int.emod_nonneg _ (by norm_num), Int.emod_lt_of_pos _ (by norm_num)⟩

/-- The difference of two counters grows by at most what is added. -/
lemma uint64_sub_le (earned distributed : Int) {fee : Int} (hfee : 0 ≤ fee) :
    uint64 (uint64 (earned + fee) - distributed) ≤ uint64 (earned - distributed) + fee := by
  unfold uint64
  omega

def State.undistributed (s : State) : Int :=
  uint64 (s.investRewardsEarnedFee - s.investRewardsDistributedAmount) +
    uint64 (s.shareholderEarnedFee - s.shareholderDistributedAmount) +
    uint64 (s.qxEarnedFee - s.qxDistributedAmount) + uint64 (s.burnEarnedFee - s.burnedAmount)

/-- The QU that the contract owes: the reserves and the fees that are not yet distributed. -/
def State.owed (s : State) : Int :=
  ∑ i ∈ range QSWAP_MAX_POOL, (s.mPoolBasicStates i).reservedQuAmount + s.undistributed

structure State.Counted (s : State) : Prop where
  investRewardsEarnedFee : IsUint64 s.investRewardsEarnedFee
  investRewardsDistributedAmount : IsUint64 s.investRewardsDistributedAmount
  shareholderEarnedFee : IsUint64 s.shareholderEarnedFee
  shareholderDistributedAmount : IsUint64 s.shareholderDistributedAmount
  qxEarnedFee : IsUint64 s.qxEarnedFee
  qxDistributedAmount : IsUint64 s.qxDistributedAmount
  burnEarnedFee : IsUint64 s.burnEarnedFee
  burnedAmount : IsUint64 s.burnedAmount

lemma State.undistributed_nonneg (s : State) : 0 ≤ s.undistributed := by
  have h : ∀ x, 0 ≤ uint64 x := fun x => (uint64_mem x).1
  exact add_nonneg (add_nonneg (add_nonneg (h _) (h _)) (h _)) (h _)

namespace State

variable {s : State}

lemma earnForShareholders_undistributed_le (s : State) {fee : Int} (hfee : 0 ≤ fee) :
    (s.earnForShareholders fee).undistributed ≤ s.undistributed + fee := by
  have := uint64_sub_le s.shareholderEarnedFee s.shareholderDistributedAmount hfee
  simp only [undistributed, earnForShareholders]
  omega

lemma earnAdditionalFee_undistributed_le (s : State) :
    s.earnAdditionalFee.undistributed ≤ s.undistributed + QSWAP_ADDITIONAL_FEE := by
  have := uint64_sub_le s.shareholderEarnedFee s.shareholderDistributedAmount
    (by decide : 0 ≤ QSWAP_ADDITIONAL_FEE * 3 / 4)
  have := uint64_sub_le s.burnEarnedFee s.burnedAmount (by decide : 0 ≤ QSWAP_ADDITIONAL_FEE / 4)
  have : QSWAP_ADDITIONAL_FEE * 3 / 4 + QSWAP_ADDITIONAL_FEE / 4 = QSWAP_ADDITIONAL_FEE := by decide
  simp only [undistributed, earnAdditionalFee]
  omega

lemma earnFees_undistributed_le (s : State) {fees : Fees} (hexact : fees.Exact) :
    (s.earnFees fees).undistributed ≤ s.undistributed + fees.total := by
  have := uint64_sub_le s.shareholderEarnedFee s.shareholderDistributedAmount
    (Int.natCast_nonneg (low fees.toShareholders))
  have := uint64_sub_le s.qxEarnedFee s.qxDistributedAmount (Int.natCast_nonneg (low fees.toQx))
  have := uint64_sub_le s.investRewardsEarnedFee s.investRewardsDistributedAmount
    (Int.natCast_nonneg (low fees.toInvestRewards))
  have := uint64_sub_le s.burnEarnedFee s.burnedAmount (Int.natCast_nonneg (low fees.toBurn))
  rw [hexact]
  simp only [undistributed, earnFees]
  omega

lemma Counted.earnForShareholders (h : s.Counted) (fee : Int) :
    (s.earnForShareholders fee).Counted :=
  { h with shareholderEarnedFee := uint64_mem _ }

lemma Counted.earnAdditionalFee (h : s.Counted) : s.earnAdditionalFee.Counted :=
  { h with
    shareholderEarnedFee := uint64_mem _
    burnEarnedFee := uint64_mem _ }

lemma Counted.earnFees (h : s.Counted) (fees : Fees) : (s.earnFees fees).Counted :=
  { h with
    shareholderEarnedFee := uint64_mem _
    qxEarnedFee := uint64_mem _
    investRewardsEarnedFee := uint64_mem _
    burnEarnedFee := uint64_mem _ }

lemma Counted.setPool (h : s.Counted) (slot : Nat) (pool : PoolBasicState) :
    (s.setPool slot pool).Counted := { h with }

lemma Counted.withLiquidities (h : s.Counted) (liquidities : Liquidities) :
    ({ s with mLiquidities := liquidities }).Counted := { h with }

end State

/-! ## The invariant -/

structure PoolBasicState.Sound (pool : PoolBasicState) : Prop where
  qu_nonneg : 0 ≤ pool.reservedQuAmount
  asset_nonneg : 0 ≤ pool.reservedAssetAmount
  liquidity_nonneg : 0 ≤ pool.totalLiquidity
  root_le : pool.totalLiquidity * pool.totalLiquidity ≤
    pool.reservedQuAmount * pool.reservedAssetAmount
  empty : pool.totalLiquidity = 0 → pool.reservedQuAmount = 0 ∧ pool.reservedAssetAmount = 0

structure Books (s : State) : Prop where
  rates : s.rates.Valid
  counted : s.Counted
  proper : s.mLiquidities.Proper
  sound : ∀ i < QSWAP_MAX_POOL, (s.mPoolBasicStates i).Sound
  vacant : ∀ i < QSWAP_MAX_POOL, (s.mPoolBasicStates i).poolID = 0 →
    (s.mPoolBasicStates i).totalLiquidity = 0
  distinct : ∀ i < QSWAP_MAX_POOL, ∀ j < QSWAP_MAX_POOL, (s.mPoolBasicStates i).poolID ≠ 0 →
    (s.mPoolBasicStates i).poolID = (s.mPoolBasicStates j).poolID → i = j
  recorded : ∀ i < QSWAP_MAX_POOL, s.mLiquidities.recorded (s.mPoolBasicStates i).poolID =
    (s.mPoolBasicStates i).totalLiquidity
  unrecorded : ∀ p, (∀ i < QSWAP_MAX_POOL, (s.mPoolBasicStates i).poolID ≠ p) →
    s.mLiquidities.recorded p = 0

lemma find_range {P : Nat → Bool} {n i : Nat} (h : (List.range n).find? P = some i) : i < n ∧ P i :=
  ⟨List.mem_range.1 (List.mem_of_find?_eq_some h), List.find?_some h⟩

lemma findPoolSlotReadOnly_some (h : findPoolSlotReadOnly s a = some slot) :
    slot < QSWAP_MAX_POOL ∧ (s.mPoolBasicStates slot).poolID = poolID a := by
  obtain ⟨hlt, hid⟩ := find_range h
  exact ⟨hlt, of_decide_eq_true hid⟩

lemma findPoolSlotReadOnly_none (h : findPoolSlotReadOnly s a = none) :
    ∀ i < QSWAP_MAX_POOL, (s.mPoolBasicStates i).poolID ≠ poolID a := by
  intro i hi
  have := List.find?_eq_none.1 h i (List.mem_range.2 hi)
  simpa using this

lemma vacantSlot_some (h : vacantSlot s = some slot) :
    slot < QSWAP_MAX_POOL ∧ (s.mPoolBasicStates slot).poolID = 0 := by
  obtain ⟨hlt, hid⟩ := find_range h
  exact ⟨hlt, of_decide_eq_true hid⟩

namespace Books

variable {s s' : State}

lemma update (h : Books s) (hslot : slot < QSWAP_MAX_POOL)
    {pool : PoolBasicState} (hid : pool.poolID = (s.mPoolBasicStates slot).poolID)
    (hused : pool.poolID ≠ 0) (hsound : pool.Sound) (hrates : s'.rates = s.rates)
    (hcounted : s'.Counted) (hproper : s'.mLiquidities.Proper)
    (hpools : s'.mPoolBasicStates = update s.mPoolBasicStates slot pool)
    (hrecorded : ∀ p, s'.mLiquidities.recorded p = s.mLiquidities.recorded p +
      if p = pool.poolID then
        pool.totalLiquidity - (s.mPoolBasicStates slot).totalLiquidity
      else 0) : Books s' := by
  have hself : s'.mPoolBasicStates slot = pool := by rw [hpools, update_self]
  have hother : ∀ i ≠ slot, s'.mPoolBasicStates i = s.mPoolBasicStates i :=
    fun i hi => by rw [hpools, update_of_ne hi]
  have hids : ∀ i, (s'.mPoolBasicStates i).poolID = (s.mPoolBasicStates i).poolID := by
    intro i
    obtain rfl | hi := eq_or_ne i slot
    · rw [hself, hid]
    · rw [hother i hi]
  refine ⟨hrates ▸ h.rates, hcounted, hproper, fun i hi => ?_, fun i hi hzero => ?_, ?_,
    fun i hi => ?_, fun p hp => ?_⟩
  · obtain rfl | hne := eq_or_ne i slot
    · rw [hself]
      exact hsound
    · rw [hother i hne]
      exact h.sound i hi
  · obtain rfl | hne := eq_or_ne i slot
    · exact absurd hzero (hself ▸ hused)
    · rw [hother i hne] at hzero ⊢
      exact h.vacant i hi hzero
  · simp only [hids]
    exact h.distinct
  · obtain rfl | hne := eq_or_ne i slot
    · rw [hself, hrecorded, if_pos rfl, hid, h.recorded i hi]
      omega
    · rw [hother i hne, hrecorded, if_neg, h.recorded i hi, add_zero]
      intro heq
      exact hne (h.distinct i hi slot hslot (heq ▸ hused) (heq.trans hid))
  · rw [hrecorded, if_neg, h.unrecorded p (fun i hi => hids i ▸ hp i hi), add_zero]
    rintro rfl
    exact hp slot hslot (by rw [hself])

lemma of_counters (h : Books s) (hrates : s'.rates = s.rates) (hcounted : s'.Counted)
    (hpools : s'.mPoolBasicStates = s.mPoolBasicStates)
    (hliquidities : s'.mLiquidities = s.mLiquidities) : Books s' := by
  obtain ⟨rates, -, proper, sound, vacant, distinct, recorded, unrecorded⟩ := h
  refine ⟨?_, hcounted, ?_, ?_, ?_, ?_, ?_, ?_⟩ <;> simp only [hrates, hpools, hliquidities] <;>
    assumption

lemma create (h : Books s) (hnone : findPoolSlotReadOnly s a = none)
    (hvacant : vacantSlot s = some slot) :
    Books (s.setPool slot ⟨poolID a, 0, 0, 0, 0⟩) := by
  obtain ⟨hslot, hzero⟩ := vacantSlot_some hvacant
  have hnew := findPoolSlotReadOnly_none hnone
  have hself : (s.setPool slot ⟨poolID a, 0, 0, 0, 0⟩).mPoolBasicStates slot =
      ⟨poolID a, 0, 0, 0, 0⟩ := update_self ..
  have hother : ∀ i ≠ slot, (s.setPool slot ⟨poolID a, 0, 0, 0, 0⟩).mPoolBasicStates i =
      s.mPoolBasicStates i := fun i hi => update_of_ne hi _ _
  refine ⟨h.rates, h.counted.setPool _ _, h.proper, fun i hi => ?_, fun i hi => ?_,
    fun i hi j hj hused => ?_, fun i hi => ?_, fun p hp => ?_⟩
  · obtain rfl | hne := eq_or_ne i slot
    · rw [hself]
      exact ⟨le_rfl, le_rfl, le_rfl, le_rfl, fun _ => ⟨rfl, rfl⟩⟩
    · rw [hother i hne]
      exact h.sound i hi
  · obtain rfl | hne := eq_or_ne i slot
    · rw [hself]
      exact fun _ => rfl
    · rw [hother i hne]
      exact h.vacant i hi
  · obtain rfl | hi' := eq_or_ne i slot
    · obtain rfl | hj' := eq_or_ne j i
      · exact fun _ => rfl
      · rw [hself, hother j hj']
        exact fun heq => absurd heq.symm (hnew j hj)
    · rw [hother i hi'] at hused ⊢
      obtain rfl | hj' := eq_or_ne j slot
      · rw [hself]
        exact fun heq => absurd heq (hnew i hi)
      · rw [hother j hj']
        exact h.distinct i hi j hj hused
  · obtain rfl | hne := eq_or_ne i slot
    · rw [hself]
      exact h.unrecorded _ hnew
    · rw [hother i hne]
      exact h.recorded i hi
  · by_cases hp' : p = 0
    · subst hp'
      have := h.recorded slot hslot
      rw [hzero, h.vacant slot hslot hzero] at this
      exact this
    · refine h.unrecorded p fun i hi => ?_
      obtain rfl | hne := eq_or_ne i slot
      · rw [hzero]
        exact Ne.symm hp'
      · exact hother i hne ▸ hp i hi

end Books

end QubicCore.Contracts.Qswap
