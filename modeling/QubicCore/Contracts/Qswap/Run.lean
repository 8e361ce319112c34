import QubicCore.Contracts.Qswap.Deposits

/-!
# Runs of QSWAP

A run takes the procedures and the system procedures of the contract in any order, with payments
and other changes of the node in between that take nothing from the contract.
-/

namespace QubicCore.Contracts.Qswap

open Library Library.ConstantProduct Finset Function Pays State Relation

variable {W : Type} {qpi : Qpi W} {balance : W → Int} {call : Invocation}
  {a : Asset} {s : State} {w : W}

attribute [local irreducible] findPoolSlotReadOnly

/-! ## The other procedures -/

section

variable (hlaw : qpi.Lawful SELF_INDEX balance) {w₁ : W}

include hlaw

section

variable (h : Entered qpi balance call s w)
include h

lemma Entered.earn {fee : Int} (hfee : 0 ≤ fee)
    (hle : fee ≤ call.invocationReward) (hpays : Pays qpi balance a w w₁ 0 0) :
    Safe qpi balance (s.earnForShareholders fee) (giveBackAbove qpi call w₁ fee) := by
  have hback := hpays.trans (giveBackAbove_pays hlaw call w₁ hle)
  have hearned := s.earnForShareholders_undistributed_le hfee
  exact ⟨h.books.of_counters rfl (h.books.counted.earnForShareholders fee) rfl rfl,
    h.covered.counters rfl hback (by omega) le_rfl⟩

lemma Entered.refund (hpays : Pays qpi balance a w w₁ 0 0) :
    Safe qpi balance s (qpi.transfer call.invocator call.invocationReward w₁).2 :=
  h.unchanged (hpays.trans (transfer_pays hlaw _ _ h.reward_nonneg)) (by omega) le_rfl

lemma Entered.giveBackReward_safe (hpays : Pays qpi balance a w w₁ 0 0) :
    Safe qpi balance s (giveBackReward qpi call w₁) :=
  h.unchanged (hpays.trans (giveBackReward_pays hlaw call w₁ h.reward_nonneg)) (by omega) le_rfl

lemma issueAsset_safe (assetName : Nat)
    (numberOfShares numberOfDecimalPlaces : Int) (unitOfMeasurement : Nat) :
    Safe qpi balance
      (issueAsset qpi call s w assetName numberOfShares numberOfDecimalPlaces unitOfMeasurement).2.1
      (issueAsset qpi call s w assetName numberOfShares numberOfDecimalPlaces
        unitOfMeasurement).2.2 := by
  have hissue := of_loses (a := ⟨0, 0⟩) (hlaw.issueAsset assetName call.invocator
    numberOfDecimalPlaces numberOfShares unitOfMeasurement w) fun _ _ => rfl
  have hrefl : Pays qpi balance ⟨0, 0⟩ w w 0 0 := refl w
  unfold issueAsset
  dsimp only
  split
  · exact h.giveBackReward_safe hlaw hrefl
  rename_i hreward
  split
  · exact h.giveBackReward_safe hlaw hrefl
  split
  · exact h.giveBackReward_safe hlaw hrefl
  split
  · exact h.refund hlaw hissue
  · exact h.earn hlaw (Int.natCast_nonneg _) (not_lt.1 hreward) hissue

lemma transferShareOwnershipAndPossession_safe (newOwnerAndPossessor : M256i) (amount : Int) :
    Safe qpi balance
      (transferShareOwnershipAndPossession qpi call a s w newOwnerAndPossessor amount).2.1
      (transferShareOwnershipAndPossession qpi call a s w newOwnerAndPossessor amount).2.2 := by
  have hsent := transferShares_pays hlaw (a := a) w h.caller amount newOwnerAndPossessor
  have hrefl : Pays qpi balance a w w 0 0 := refl w
  unfold transferShareOwnershipAndPossession
  dsimp only
  split
  · exact h.refund hlaw hrefl
  rename_i hreward
  split
  · exact h.giveBackReward_safe hlaw hrefl
  split
  · exact h.giveBackReward_safe hlaw hrefl
  split
  · exact h.refund hlaw hsent
  · exact h.earn hlaw (Int.natCast_nonneg _) (not_lt.1 hreward) hsent

lemma transferShareManagementRights_safe (numberOfShares : Int) (newManagingContractIndex : Nat) :
    Safe qpi balance s
      (transferShareManagementRights qpi call a w numberOfShares newManagingContractIndex).2 := by
  have hrefl : Pays qpi balance a w w 0 0 := refl w
  unfold transferShareManagementRights
  split
  · obtain ⟨hfail, hloses⟩ | ⟨hsuccess, hle, hloses⟩ := hlaw.releaseShares a call.invocator
      numberOfShares newManagingContractIndex call.invocationReward w _ rfl
    · rw [if_neg (not_le.2 hfail)]
      exact h.giveBackReward_safe hlaw (of_loses (a := a) hloses fun _ _ => rfl)
    · rw [if_pos hsuccess]
      have hpaid := of_loses hloses fun b hb => sharesLoss_of_ne (Or.inl hb) _
      rw [sharesLoss_of_ne (Or.inr h.caller.symm)] at hpaid
      exact h.unchanged (hpaid.trans (giveBackAbove_pays hlaw call _ hle)) (by omega) le_rfl
  · exact h.giveBackReward_safe hlaw hrefl

end

lemma createPool_safe (h : Called qpi balance call a s w) :
    Safe qpi balance (createPool qpi call a s w).2.1 (createPool qpi call a s w).2.2 := by
  have hrefl : Pays qpi balance a w w 0 0 := refl w
  unfold createPool
  split
  · exact h.giveBackReward_safe hlaw hrefl
  rename_i hreward
  rw [not_lt] at hreward
  split
  · exact h.refund hlaw hrefl
  split
  · exact h.refund hlaw hrefl
  rename_i hfound
  split
  · exact h.refund hlaw hrefl
  split
  · exact h.refund hlaw hrefl
  rename_i slot hvacant
  have hnone : findPoolSlotReadOnly s a = none := by simpa using hfound
  obtain ⟨hlt, hzero⟩ := vacantSlot_some hvacant
  have hcreated := h.books.create hnone hvacant
  have hbooks : Books ((s.setPool slot ⟨poolID a, 0, 0, 0, 0⟩).earnForShareholders
      s.poolCreationFee) :=
    hcreated.of_counters rfl (hcreated.counted.earnForShareholders _) rfl rfl
  have hempty := (h.books.sound slot hlt).qu_nonneg
  have hsum := Cells.sum_update hlt s.mPoolBasicStates ⟨poolID a, 0, 0, 0, 0⟩
    PoolBasicState.reservedQuAmount
  have hearned := (s.setPool slot ⟨poolID a, 0, 0, 0, 0⟩).earnForShareholders_undistributed_le
    (Int.natCast_nonneg s.poolCreationFee)
  have hback := giveBackAbove_pays hlaw (a := a) call w hreward
  refine ⟨hbooks, ?_, fun i hi => ?_⟩
  · have hcovered := h.covered.owed_le
    have hbalance := hback.balance_le
    have hund : (s.setPool slot ⟨poolID a, 0, 0, 0, 0⟩).undistributed = s.undistributed := rfl
    simp only [owed] at hcovered ⊢
    change ∑ i ∈ range QSWAP_MAX_POOL, PoolBasicState.reservedQuAmount
      (update s.mPoolBasicStates slot ⟨poolID a, 0, 0, 0, 0⟩ i) + _ + _ ≤ _
    dsimp only at hsum
    omega
  · change ∃ b, poolID b = PoolBasicState.poolID
      (update s.mPoolBasicStates slot ⟨poolID a, 0, 0, 0, 0⟩ i) ∧
      PoolBasicState.reservedAssetAmount
      (update s.mPoolBasicStates slot ⟨poolID a, 0, 0, 0, 0⟩ i) ≤ _
    obtain rfl | hne := eq_or_ne i slot
    · rw [update_self]
      exact ⟨a, rfl, hlaw.shares_nonneg a SELF _⟩
    · rw [update_of_ne hne]
      obtain ⟨b, hid, hle⟩ := h.covered.assets_le i hi
      exact ⟨b, hid, hle.trans (hback.sharesOf_le le_rfl b)⟩

end

/-! ## The end of a tick -/

/-- What distributing a part of the difference of two counters leaves. -/
lemma uint64_sub_add {earned distributed : Int} (amount : Int) (hamount : 0 ≤ amount)
    (hle : amount ≤ uint64 (earned - distributed)) :
    uint64 (earned - uint64 (distributed + amount)) = uint64 (earned - distributed) - amount := by
  unfold uint64 at *
  omega

section

variable (hlaw : qpi.Lawful SELF_INDEX balance)

include hlaw

section

variable (h : Safe qpi balance s w)
include h

lemma Safe.undistributed_le : s.undistributed ≤ MAX_AMOUNT := by
  have := h.covered.owed_le
  have := hlaw.balance_le w
  have := sum_nonneg fun i hi => (h.books.sound i (mem_range.1 hi)).qu_nonneg
  simp only [owed] at *
  omega

omit hlaw in
/-- A distribution of `amount`, of which the contract pays at most as much. -/
lemma Safe.distribute {s' : State} {w' : W} {amount qu : Int}
    (hrates : s'.rates = s.rates) (hcounted : s'.Counted)
    (hpools : s'.mPoolBasicStates = s.mPoolBasicStates)
    (hliquidities : s'.mLiquidities = s.mLiquidities)
    (hloses : Loses balance (qpi.shares SELF_INDEX) w w' qu 0) (hqu : qu ≤ amount)
    (hdistributed : s'.undistributed + amount = s.undistributed) :
    Safe qpi balance s' w' :=
  ⟨h.books.of_counters hrates hcounted hpools hliquidities, h.covered.counters hpools
    (of_loses (a := ⟨0, 0⟩) hloses fun _ _ => rfl) (by omega) le_rfl⟩

omit hlaw in
lemma Safe.idle {w' : W}
    (hloses : Loses balance (qpi.shares SELF_INDEX) w w' 0 0) : Safe qpi balance s w' :=
  h.distribute rfl h.books.counted rfl rfl hloses le_rfl (add_zero _)

omit hlaw in
omit h in
lemma State.undistributed_parts (s : State) :
    uint64 (s.investRewardsEarnedFee - s.investRewardsDistributedAmount) ≤ s.undistributed ∧
      uint64 (s.shareholderEarnedFee - s.shareholderDistributedAmount) ≤ s.undistributed ∧
      uint64 (s.qxEarnedFee - s.qxDistributedAmount) ≤ s.undistributed ∧
      uint64 (s.burnEarnedFee - s.burnedAmount) ≤ s.undistributed := by
  have h₁ := (uint64_mem (s.investRewardsEarnedFee - s.investRewardsDistributedAmount)).1
  have h₂ := (uint64_mem (s.shareholderEarnedFee - s.shareholderDistributedAmount)).1
  have h₃ := (uint64_mem (s.qxEarnedFee - s.qxDistributedAmount)).1
  have h₄ := (uint64_mem (s.burnEarnedFee - s.burnedAmount)).1
  unfold undistributed
  omega

/-- What is due is the difference of the counters, without wrapping. -/
lemma Safe.due {earned distributed : Int} (hearned : IsUint64 earned)
    (hdistributed : IsUint64 distributed) (hlt : distributed < earned)
    (hpart : uint64 (earned - distributed) ≤ s.undistributed) :
    uint64 (earned - distributed) = earned - distributed ∧
      earned - distributed ≤ MAX_AMOUNT ∧ sint64 (earned - distributed) = earned - distributed := by
  have hdue : uint64 (earned - distributed) = earned - distributed :=
    uint64_eq (by omega) (by have := hearned.2; have := hdistributed.1; omega)
  have hmax := h.undistributed_le hlaw
  refine ⟨hdue, by omega, sint64_eq (by omega) ?_⟩
  simp only [MAX_AMOUNT, ISSUANCE_RATE] at hmax
  omega

lemma distributeInvestRewards_safe :
    Safe qpi balance (distributeInvestRewards qpi s w).1
      (distributeInvestRewards qpi s w).2 := by
  unfold distributeInvestRewards
  dsimp only
  split
  · rename_i hlt
    have hcounted := h.books.counted
    obtain ⟨hdue, -, hsint⟩ := h.due hlaw hcounted.investRewardsEarnedFee
      hcounted.investRewardsDistributedAmount hlt s.undistributed_parts.1
    rw [hsint]
    obtain ⟨hfail, hloses⟩ | ⟨hsent, -, hloses⟩ := hlaw.transfer s.investRewardsId
      (s.investRewardsEarnedFee - s.investRewardsDistributedAmount) w
    · rw [if_pos hfail]
      exact h.idle hloses
    · rw [if_neg (not_lt.2 hsent)]
      refine h.distribute rfl { hcounted with investRewardsDistributedAmount := uint64_mem _ } rfl
        rfl hloses le_rfl ?_
      have hrest := uint64_sub_add _ (by omega) hdue.ge
      simp only [undistributed]
      omega
  · exact h

lemma distributeQxFees_safe :
    Safe qpi balance (distributeQxFees qpi s w).1 (distributeQxFees qpi s w).2 := by
  unfold distributeQxFees
  dsimp only
  split
  · rename_i hlt
    have hcounted := h.books.counted
    obtain ⟨hdue, -, hsint⟩ := h.due hlaw hcounted.qxEarnedFee hcounted.qxDistributedAmount hlt
      s.undistributed_parts.2.2.1
    rw [hsint]
    obtain ⟨hfail, hloses⟩ | ⟨hsent, -, hloses⟩ := hlaw.transfer (contractId QX_CONTRACT_INDEX)
      (s.qxEarnedFee - s.qxDistributedAmount) w
    · rw [if_pos hfail]
      exact h.idle hloses
    · rw [if_neg (not_lt.2 hsent)]
      refine h.distribute rfl { hcounted with qxDistributedAmount := uint64_mem _ } rfl rfl
        hloses le_rfl ?_
      have hrest := uint64_sub_add _ (by omega) hdue.ge
      simp only [undistributed]
      omega
  · exact h

lemma distributeShareholderFees_safe :
    Safe qpi balance (distributeShareholderFees qpi s w).1
      (distributeShareholderFees qpi s w).2 := by
  unfold distributeShareholderFees
  dsimp only
  split
  · rename_i hlt
    have hcounted := h.books.counted
    obtain ⟨hdue, hmax, -⟩ := h.due hlaw hcounted.shareholderEarnedFee
      hcounted.shareholderDistributedAmount hlt s.undistributed_parts.2.1
    split
    · rename_i hpos
      have hle := Int.ediv_mul_le (s.shareholderEarnedFee - s.shareholderDistributedAmount)
        (by decide : (NUMBER_OF_COMPUTORS : Int) ≠ 0)
      have hless : (s.shareholderEarnedFee - s.shareholderDistributedAmount) / NUMBER_OF_COMPUTORS ≤
          s.shareholderEarnedFee - s.shareholderDistributedAmount :=
        Int.ediv_le_self _ (by omega)
      generalize (s.shareholderEarnedFee - s.shareholderDistributedAmount) / NUMBER_OF_COMPUTORS =
        dividend at *
      have hsint : sint64 dividend = dividend := by
        simp only [MAX_AMOUNT, ISSUANCE_RATE] at hmax
        exact sint64_eq (by omega) (by omega)
      have hloses := hlaw.distributeDividends dividend w hpos.le (by omega)
      rw [hsint]
      split
      · rename_i hpaid
        rw [if_pos hpaid] at hloses
        refine h.distribute rfl { hcounted with shareholderDistributedAmount := uint64_mem _ } rfl
          rfl hloses le_rfl ?_
        have hrest := uint64_sub_add (dividend * NUMBER_OF_COMPUTORS)
          (mul_nonneg hpos.le (by decide)) (hle.trans hdue.ge)
        simp only [undistributed]
        omega
      · rename_i hpaid
        rw [if_neg hpaid] at hloses
        exact h.idle hloses
    · exact h
  · exact h

lemma burnFees_safe : Safe qpi balance (burnFees qpi s w).1 (burnFees qpi s w).2 := by
  unfold burnFees
  dsimp only
  split
  · rename_i hlt
    have hcounted := h.books.counted
    obtain ⟨hdue, -, hsint⟩ := h.due hlaw hcounted.burnEarnedFee hcounted.burnedAmount hlt
      s.undistributed_parts.2.2.2
    rw [hsint]
    refine h.distribute rfl { hcounted with burnedAmount := uint64_mem _ } rfl rfl
      (hlaw.burn _ w (by omega)) le_rfl ?_
    have hrest := uint64_sub_add _ (by omega) hdue.ge
    simp only [undistributed]
    omega
  · exact h

lemma endTick_safe : Safe qpi balance (endTick qpi s w).1 (endTick qpi s w).2 :=
  burnFees_safe hlaw (distributeShareholderFees_safe hlaw
    (distributeQxFees_safe hlaw (distributeInvestRewards_safe hlaw h)))

end

end

/-! ## Depositing and withdrawing -/

section

variable (hlaw : qpi.Lawful SELF_INDEX balance)
  (hissues : qpi.Issues SELF_INDEX)
  (h : Called qpi balance call a s w)

include hlaw hissues h

lemma addLiquidity_safe (assetAmountDesired quAmountMin assetAmountMin : Int) :
    Safe qpi balance
      (addLiquidity qpi call a s w assetAmountDesired quAmountMin assetAmountMin).2.1
      (addLiquidity qpi call a s w assetAmountDesired quAmountMin assetAmountMin).2.2 := by
  obtain hrefused | hdeposited := addLiquidity_cases h.books.proper assetAmountDesired quAmountMin
    assetAmountMin
  · exact hrefused.safe hlaw h
  · exact hdeposited.safe hlaw h hissues

omit hlaw hissues h in
/-- Whoever adds liquidity and then removes the same liquidity, on whatever node, gets at most the
deposit back. -/
def RoundTrip (qpi : Qpi W) (call : Invocation) (a : Asset) (s : State) (w : W) : Prop :=
  ∀ (assetAmountDesired quAmountMin assetAmountMin : Int) (call' : Invocation) (w' : W)
    (quAmountMin' assetAmountMin' : Int),
    let added := addLiquidity qpi call a s w assetAmountDesired quAmountMin assetAmountMin
    let removed := removeLiquidity qpi call' a added.2.1 w' added.1.userIncreaseLiquidity
      quAmountMin' assetAmountMin'
    removed.1.quAmount ≤ added.1.quAmount ∧ removed.1.assetAmount ≤ added.1.assetAmount

lemma Deposited.redeemed_le {result : AddLiquidityOutput × State × W}
    (hdeposited : Deposited qpi call a s w result) {slot' : Nat}
    (hslot' : findPoolSlotReadOnly result.2.1 a = some slot')
    (hpos : 0 < result.1.userIncreaseLiquidity)
    (hle : result.1.userIncreaseLiquidity ≤
      (result.2.1.mPoolBasicStates slot').totalLiquidity) :
    redeemed result.1.userIncreaseLiquidity
        (result.2.1.mPoolBasicStates slot').reservedQuAmount
        (result.2.1.mPoolBasicStates slot').totalLiquidity ≤ result.1.quAmount ∧
      redeemed result.1.userIncreaseLiquidity
        (result.2.1.mPoolBasicStates slot').reservedAssetAmount
        (result.2.1.mPoolBasicStates slot').totalLiquidity ≤ result.1.assetAmount := by
  have hsafe := hdeposited.safe hlaw h hissues
  obtain ⟨slot, qu, asset, increase, userIncrease, liquidities, hdeposit, hasset, -, rfl⟩ :=
    hdeposited
  have hadded := hdeposit.added hlaw h hasset
  have hused := hdeposit.poolID_ne_zero hlaw h hasset
  generalize hw : (depositShares qpi call a w asset).2 = w₁ at *
  obtain ⟨hlt', hid'⟩ := findPoolSlotReadOnly_some hslot'
  obtain ⟨hlt, hid⟩ := findPoolSlotReadOnly_some hdeposit.found
  have hpool : (finishDeposit qpi call s w₁ slot qu asset increase userIncrease
      liquidities).2.1.mPoolBasicStates slot =
      (s.mPoolBasicStates slot).deposit qu asset increase := update_self ..
  obtain rfl : slot' = slot := by
    refine hsafe.books.distinct slot' hlt' slot hlt (hid' ▸ hused) ?_
    rw [hid', hpool]
    exact hid.symm
  have hqu := hsafe.books.reserve_le_owed hlt
  obtain ⟨b, -, hasset'⟩ := hsafe.covered.assets_le slot' hlt
  have hsound := hsafe.books.sound slot' hlt
  have howed := hsafe.covered.owed_le.trans (hlaw.balance_le _)
  have hshares := hasset'.trans (hlaw.shares_le b SELF _)
  rw [add_zero] at howed
  have htotal := le_of_root (by decide) hsound.qu_nonneg (hqu.trans howed) hshares hsound.root_le
  have hqu' := hqu.trans howed
  rw [hpool] at hle hqu' hshares htotal hsound ⊢
  simp only [MAX_AMOUNT, ISSUANCE_RATE] at hqu' hshares htotal
  have htpos := hpos.trans_le hle
  rw [redeemed_eq hpos.le hle htpos (by omega) hsound.qu_nonneg (by omega),
    redeemed_eq hpos.le hle htpos (by omega) hsound.asset_nonneg (by omega)]
  refine ⟨Int.ediv_le_of_le_mul htpos ?_, Int.ediv_le_of_le_mul htpos ?_⟩
  · rw [hadded.qu_eq, hadded.liquidity_eq]
    exact hadded.qu_worth
  · rw [hadded.asset_eq, hadded.liquidity_eq]
    exact hadded.asset_worth

lemma roundTrip : RoundTrip qpi call a s w := by
  intro assetAmountDesired quAmountMin assetAmountMin call' w' quAmountMin' assetAmountMin'
  dsimp only
  have hsafe := addLiquidity_safe hlaw hissues h assetAmountDesired quAmountMin assetAmountMin
  have hadd : DepositRefused qpi call a s w
      (addLiquidity qpi call a s w assetAmountDesired quAmountMin assetAmountMin) ∨
      Deposited qpi call a s w
        (addLiquidity qpi call a s w assetAmountDesired quAmountMin assetAmountMin) :=
    addLiquidity_cases h.books.proper assetAmountDesired quAmountMin assetAmountMin
  generalize addLiquidity qpi call a s w assetAmountDesired quAmountMin assetAmountMin = added at *
  have hremove : WithdrawalRefused qpi call' added.2.1 w' (removeLiquidity qpi call' a added.2.1 w'
      added.1.userIncreaseLiquidity quAmountMin' assetAmountMin') ∨
      Withdrawn qpi call' a added.2.1 w' added.1.userIncreaseLiquidity (removeLiquidity qpi call' a
        added.2.1 w' added.1.userIncreaseLiquidity quAmountMin' assetAmountMin') :=
    removeLiquidity_cases hsafe.books.proper _ quAmountMin' assetAmountMin'
  have hnonneg : 0 ≤ added.1.quAmount ∧ 0 ≤ added.1.assetAmount := by
    obtain (rfl | ⟨amount, -, rfl⟩) | ⟨slot, qu, asset, increase, userIncrease, liquidities,
      hdeposit, -, -, rfl⟩ := hadd
    · exact ⟨le_rfl, le_rfl⟩
    · exact ⟨le_rfl, le_rfl⟩
    · exact ⟨hdeposit.qu_nonneg, hdeposit.asset_nonneg⟩
  obtain (hresult | ⟨-, hresult⟩) | ⟨slot', info, hwithdrawal, hresult⟩ := hremove
  · rw [hresult]
    exact hnonneg
  · rw [hresult]
    exact hnonneg
  rw [hresult]
  obtain hrefused | hdeposited := hadd
  · -- nothing was added
    have hpos := hwithdrawal.burn_pos
    obtain rfl | ⟨amount, -, rfl⟩ := hrefused
    · exact absurd hpos (lt_irrefl 0)
    · exact absurd hpos (lt_irrefl 0)
  · simp only [withdraw]
    exact hdeposited.redeemed_le hlaw hissues h hwithdrawal.found hwithdrawal.burn_pos
      hwithdrawal.burn_le_total

end

/-! ## Runs -/

inductive Procedure where
  | issueAsset (assetName : Nat) (numberOfShares numberOfDecimalPlaces : Int)
    (unitOfMeasurement : Nat)
  | transferShareOwnershipAndPossession (a : Asset) (newOwnerAndPossessor : M256i) (amount : Int)
  | createPool (a : Asset)
  | addLiquidity (a : Asset) (assetAmountDesired quAmountMin assetAmountMin : Int)
  | removeLiquidity (a : Asset) (burnLiquidity quAmountMin assetAmountMin : Int)
  | swap (a : Asset) (kind : Swap)
  | setInvestRewardsInfo (newInvestRewardsId : M256i)
  | transferShareManagementRights (a : Asset) (numberOfShares : Int)
    (newManagingContractIndex : Nat)

namespace Procedure

def run (qpi : Qpi W) (call : Invocation) (s : State) (w : W) : Procedure → State × W
  | issueAsset assetName numberOfShares numberOfDecimalPlaces unitOfMeasurement =>
    (Qswap.issueAsset qpi call s w assetName numberOfShares numberOfDecimalPlaces
      unitOfMeasurement).2
  | transferShareOwnershipAndPossession a newOwnerAndPossessor amount =>
    (Qswap.transferShareOwnershipAndPossession qpi call a s w newOwnerAndPossessor amount).2
  | createPool a => (Qswap.createPool qpi call a s w).2
  | addLiquidity a assetAmountDesired quAmountMin assetAmountMin =>
    (Qswap.addLiquidity qpi call a s w assetAmountDesired quAmountMin assetAmountMin).2
  | removeLiquidity a burnLiquidity quAmountMin assetAmountMin =>
    (Qswap.removeLiquidity qpi call a s w burnLiquidity quAmountMin assetAmountMin).2
  | swap a kind => (kind.run qpi call a s w).2
  | setInvestRewardsInfo newInvestRewardsId =>
    ((Qswap.setInvestRewardsInfo call s newInvestRewardsId).2, w)
  | transferShareManagementRights a numberOfShares newManagingContractIndex =>
    (s, (Qswap.transferShareManagementRights qpi call a w numberOfShares
      newManagingContractIndex).2)

def pool? : Procedure → Option Asset
  | createPool a => some a
  | addLiquidity a .. => some a
  | removeLiquidity a .. => some a
  | swap a _ => some a
  | _ => none

end Procedure

/-- One step of the contract on a node. The reward of a call has arrived before the procedure
starts. -/
inductive Step (qpi : Qpi W) (balance : W → Int) :
    State × W → State × W → Prop
  | other {s : State} {w w' : W} (hkept : Loses balance (qpi.shares SELF_INDEX) w w' 0 0) :
    Step qpi balance (s, w) (s, w')
  | call {s : State} {w w' : W} (call : Invocation) (p : Procedure)
    (hcaller : call.invocator ≠ SELF) (hreward : 0 ≤ call.invocationReward)
    (hname : ∀ a, p.pool? = some a → a.assetName < 2 ^ 64)
    (hpaid : Loses balance (qpi.shares SELF_INDEX) w w' (-call.invocationReward) 0) :
    Step qpi balance (s, w) (p.run qpi call s w')
  | beginEpoch {s : State} {w : W} (assetIssuanceFee transferFee : Nat) :
    Step qpi balance (s, w) (beginEpoch s assetIssuanceFee transferFee, w)
  | endTick {s : State} {w : W} : Step qpi balance (s, w) (endTick qpi s w)

/-- The reward of a call covers what the procedure gives back. -/
lemma Safe.entered (h : Safe qpi balance s w) {w' : W}
    (hcaller : call.invocator ≠ SELF) (hreward : 0 ≤ call.invocationReward)
    (hpaid : Loses balance (qpi.shares SELF_INDEX) w w' (-call.invocationReward) 0) :
    Entered qpi balance call s w' := by
  refine ⟨h.books, ⟨?_, fun i hi => ?_⟩, hcaller, hreward⟩
  · have := h.covered.owed_le
    have := hpaid.balance_le
    omega
  · obtain ⟨a, hid, hle⟩ := h.covered.assets_le i hi
    exact ⟨a, hid, hle.trans ((hpaid.shares_le a SELF).trans_eq (add_zero _))⟩

section

variable (hlaw : qpi.Lawful SELF_INDEX balance)
  (hissues : qpi.Issues SELF_INDEX)

include hlaw hissues

lemma Procedure.safe (h : Entered qpi balance call s w) (p : Procedure)
    (hname : ∀ a, p.pool? = some a → a.assetName < 2 ^ 64) :
    Safe qpi balance (p.run qpi call s w).1 (p.run qpi call s w).2 := by
  have hcalled : ∀ a, p.pool? = some a → Called qpi balance call a s w :=
    fun a ha => ⟨h, hname a ha⟩
  cases p with
  | issueAsset assetName numberOfShares numberOfDecimalPlaces unitOfMeasurement =>
    exact issueAsset_safe hlaw h assetName numberOfShares numberOfDecimalPlaces unitOfMeasurement
  | transferShareOwnershipAndPossession a newOwnerAndPossessor amount =>
    exact transferShareOwnershipAndPossession_safe hlaw h newOwnerAndPossessor amount
  | createPool a => exact createPool_safe hlaw (hcalled a rfl)
  | addLiquidity a assetAmountDesired quAmountMin assetAmountMin =>
    exact addLiquidity_safe hlaw hissues (hcalled a rfl) assetAmountDesired quAmountMin
      assetAmountMin
  | removeLiquidity a burnLiquidity quAmountMin assetAmountMin =>
    obtain hrefused | hwithdrawn := removeLiquidity_cases h.books.proper burnLiquidity quAmountMin
      assetAmountMin
    · exact hrefused.safe hlaw (hcalled a rfl)
    · exact hwithdrawn.safe hlaw (hcalled a rfl) hissues
  | swap a kind => exact kind.safe hlaw hissues (hcalled a rfl)
  | setInvestRewardsInfo newInvestRewardsId =>
    have hsafe : Safe qpi balance s w :=
      h.unchanged (a := ⟨0, 0⟩) (refl w) h.reward_nonneg le_rfl
    simp only [Procedure.run, Qswap.setInvestRewardsInfo]
    split_ifs
    · exact hsafe
    · exact ⟨hsafe.books.of_counters rfl { hsafe.books.counted with } rfl rfl,
        hsafe.covered.counters rfl (refl (a := ⟨0, 0⟩) w) le_rfl le_rfl⟩
  | transferShareManagementRights a numberOfShares newManagingContractIndex =>
    exact transferShareManagementRights_safe hlaw h numberOfShares newManagingContractIndex

lemma Step.safe {c c' : State × W} (hstep : Step qpi balance c c')
    (h : Safe qpi balance c.1 c.2) : Safe qpi balance c'.1 c'.2 := by
  cases hstep with
  | other hkept => exact h.idle hkept
  | call call p hcaller hreward hname hpaid =>
    exact p.safe hlaw hissues (h.entered hcaller hreward hpaid) hname
  | beginEpoch assetIssuanceFee transferFee =>
    exact ⟨h.books.of_counters rfl { h.books.counted with } rfl rfl,
      h.covered.counters rfl (refl (a := ⟨0, 0⟩) _) le_rfl le_rfl⟩
  | endTick => exact endTick_safe hlaw h

omit hissues in
lemma initialState_safe (investRewardsId : M256i) (w : W) :
    Safe qpi balance (initialState investRewardsId) w := by
  have hrecorded : ∀ p, (initialState investRewardsId).mLiquidities.recorded p = 0 := fun p => by
    simp [Liquidities.recorded, Liquidities.under, initialState]
  have hzero : IsUint64 0 := ⟨le_rfl, by norm_num⟩
  refine ⟨⟨⟨(by decide : 30 < QSWAP_SWAP_FEE_BASE), (by decide : 27 + 3 + 5 + 1 ≤ 100)⟩,
    ⟨hzero, hzero, hzero, hzero, hzero, hzero, hzero, hzero⟩,
    ⟨Nat.zero_le _, fun key info hinfo => absurd hinfo List.not_mem_nil, fun _ => rfl⟩,
    fun i _ => ⟨le_rfl, le_rfl, le_rfl, le_rfl, fun _ => ⟨rfl, rfl⟩⟩, fun _ _ _ => rfl,
    fun i _ j _ hused => absurd rfl hused, fun i _ => hrecorded _, fun p _ => hrecorded p⟩,
    ?_, fun i _ => ⟨⟨0, 0⟩, rfl, hlaw.shares_nonneg _ SELF w⟩⟩
  have howed : (initialState investRewardsId).owed = 0 := by
    simp [owed, undistributed, initialState, uint64]
  rw [howed]
  exact hlaw.balance_nonneg w

/-- The asset that backs a reserve is the issued one of the pool. -/
lemma Safe.asset_le (h : Safe qpi balance s w) {i : Nat} (hi : i < QSWAP_MAX_POOL) :
    (0 < (s.mPoolBasicStates i).reservedAssetAmount → ∃ a,
      poolID a = (s.mPoolBasicStates i).poolID ∧ qpi.isAssetIssued a.issuer a.assetName w) ∧
    ∀ a, poolID a = (s.mPoolBasicStates i).poolID → qpi.isAssetIssued a.issuer a.assetName w →
      (s.mPoolBasicStates i).reservedAssetAmount ≤ sharesOf qpi a w SELF := by
  obtain ⟨b, hid, hle⟩ := h.covered.assets_le i hi
  have hissued (hpos : 0 < (s.mPoolBasicStates i).reservedAssetAmount) :
      qpi.isAssetIssued b.issuer b.assetName w := hissues.isAssetIssued (hpos.trans_le hle)
  refine ⟨fun hpos => ⟨b, hid, hissued hpos⟩, fun a hida ha => ?_⟩
  obtain hzero | hpos := le_or_gt (s.mPoolBasicStates i).reservedAssetAmount 0
  · exact hzero.trans (hlaw.shares_nonneg a SELF w)
  · rwa [hissues.distinct a b w ha (hissued hpos) (hida.trans hid.symm)]

lemma safe_of_steps {investRewardsId : M256i} {w₀ : W} {c : State × W}
    (hrun : ReflTransGen (Step qpi balance) (initialState investRewardsId, w₀) c) :
    Safe qpi balance c.1 c.2 := by
  induction hrun with
  | refl => exact initialState_safe hlaw investRewardsId w₀
  | tail _ hstep ih => exact hstep.safe hlaw hissues ih

/-- From the initial state, in every run: the recorded liquidity of each pool sums to its total, the
balance covers the reserves and the fees that are not yet distributed, the shares of each pooled
asset, which is issued as long as there is a reserve, cover its reserve, and liquidity that is added
and removed again returns at most the deposit. -/
theorem solvent_of_run {investRewardsId : M256i} {w₀ w : W} {s : State}
    (hrun : ReflTransGen (Step qpi balance) (initialState investRewardsId, w₀)
      (s, w)) :
    (∀ i < QSWAP_MAX_POOL, s.mLiquidities.recorded (s.mPoolBasicStates i).poolID =
      (s.mPoolBasicStates i).totalLiquidity) ∧
    s.owed ≤ balance w ∧
    (∀ i < QSWAP_MAX_POOL,
      (0 < (s.mPoolBasicStates i).reservedAssetAmount → ∃ a,
        poolID a = (s.mPoolBasicStates i).poolID ∧ qpi.isAssetIssued a.issuer a.assetName w) ∧
      ∀ a, poolID a = (s.mPoolBasicStates i).poolID → qpi.isAssetIssued a.issuer a.assetName w →
        (s.mPoolBasicStates i).reservedAssetAmount ≤ sharesOf qpi a w SELF) ∧
    ∀ (call : Invocation) (a : Asset) (w' : W), call.invocator ≠ SELF → 0 ≤ call.invocationReward →
      a.assetName < 2 ^ 64 →
      Loses balance (qpi.shares SELF_INDEX) w w' (-call.invocationReward) 0 →
      RoundTrip qpi call a s w' := by
  have hsafe : Safe qpi balance s w := safe_of_steps hlaw hissues hrun
  refine ⟨hsafe.books.recorded, ?_, fun i hi => hsafe.asset_le hlaw hissues hi, ?_⟩
  · exact (add_zero _).symm.le.trans hsafe.covered.owed_le
  · exact fun call a w' hcaller hreward hname hpaid =>
      roundTrip hlaw hissues ⟨hsafe.entered hcaller hreward hpaid, hname⟩

end

/-! ## A funded pool -/

def pooled : Asset := ⟨⟨1⟩, 65⟩

/-- One asset is issued, and a customer has shares of it. -/
def pooledLedger : Ledger where
  __ := Ledger.empty
  shares a x := if a = pooled ∧ x = contractId 7 then 1000000 else 0
  shares_nonneg a x := by split_ifs <;> decide
  shares_le a x := by split_ifs <;> decide
  issued a := a = pooled
  issued_distinct a b ha hb _ := (of_decide_eq_true ha).trans (of_decide_eq_true hb).symm
  issued_named issuer := decide_eq_false fun h => by simpa [pooled] using congrArg Asset.assetName h
  shares_unissued a x h := if_neg fun hx => of_decide_eq_false h hx.1

def createdPool : State × Ledger :=
  (Procedure.createPool pooled).run Ledger.qpi ⟨contractId 7, 0⟩ (initialState 0)
    (pooledLedger.receive 0)

def fundedPool : State × Ledger :=
  (Procedure.addLiquidity pooled 100000 0 0).run Ledger.qpi ⟨contractId 7, 200000⟩ createdPool.1
    (createdPool.2.receive 200000)

lemma pooled_step {l : Ledger} (reward : Int) (p : Procedure)
    (hreward : 0 ≤ reward ∧ l.balance + reward ≤ MAX_AMOUNT)
    (hname : ∀ a, p.pool? = some a → a.assetName < 2 ^ 64) :
    Step Ledger.qpi Ledger.balance (s, l)
      (p.run Ledger.qpi ⟨contractId 7, reward⟩ s (l.receive reward)) :=
  .call ⟨contractId 7, reward⟩ p (by decide : contractId 7 ≠ SELF) hreward.1 hname
    (Ledger.receive_loses hreward _)

lemma fundedPool_run :
    ReflTransGen (Step Ledger.qpi Ledger.balance) (initialState 0, pooledLedger) fundedPool := by
  have hname : ∀ a, some pooled = some a → a.assetName < 2 ^ 64 := by
    intro a ha
    obtain rfl := Option.some.inj ha
    decide
  exact (ReflTransGen.single (pooled_step 0 (.createPool pooled) (by decide +kernel) hname)).tail
    (pooled_step 200000 (.addLiquidity pooled 100000 0 0) (by decide +kernel) hname)

theorem solvent_of_run_fundedPool :
    (fundedPool.1.mPoolBasicStates 0).reservedAssetAmount = 100000 ∧
      100000 ≤ sharesOf Ledger.qpi pooled fundedPool.2 SELF := by
  have hreserve : (fundedPool.1.mPoolBasicStates 0).reservedAssetAmount = 100000 := by
    decide +kernel
  obtain ⟨-, -, hassets, -⟩ := solvent_of_run (Ledger.qpi_lawful SELF_INDEX)
    (Ledger.qpi_issues SELF_INDEX) fundedPool_run
  exact ⟨hreserve, hreserve ▸ (hassets 0 (by decide)).2 pooled (by decide +kernel)
    (by decide +kernel)⟩

end QubicCore.Contracts.Qswap
