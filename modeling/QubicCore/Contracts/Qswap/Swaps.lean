import QubicCore.Contracts.Qswap.Basic
import QubicCore.Library.ConstantProduct

/-!
# The swap procedures of QSWAP

Each procedure returns its output, the new state of the contract and the new state of the node.
On every early exit the state of the contract is unchanged and the output is zero. A swap that is
executed never lowers the product of the reserves of its pool.
-/

namespace QubicCore.Contracts.Qswap

open Library.ConstantProduct

variable {rates : FeeRates}

/-! ## Fees -/

structure Fees where
  (toShareholders toQx toInvestRewards toBurn : Nat)

def shareOf (swapFee rate : Nat) : Nat := uint128 (swapFee * rate) / QSWAP_FEE_BASE_100

def FeeRates.split (rates : FeeRates) (swapFee : Nat) : Fees where
  toShareholders := shareOf swapFee rates.shareholderFeeRate
  toQx := shareOf swapFee rates.qxFeeRate
  toInvestRewards := shareOf swapFee rates.investRewardsFeeRate
  toBurn := shareOf swapFee rates.burnFeeRate

/-- Some share does not fit into 64 bits. -/
def Fees.overflow (f : Fees) : Bool :=
  high f.toShareholders ≠ 0 ∨ high f.toQx ≠ 0 ∨ high f.toInvestRewards ≠ 0 ∨ high f.toBurn ≠ 0

def Fees.total (f : Fees) : Int :=
  sint64 (sint64 (low f.toShareholders) + sint64 (low f.toQx) + sint64 (low f.toInvestRewards) +
    sint64 (low f.toBurn))

namespace State

/-- Book the additional fee: 75% to shareholders, 25% to burn. -/
def earnAdditionalFee (s : State) : State :=
  { s with
    shareholderEarnedFee := uint64 (s.shareholderEarnedFee + QSWAP_ADDITIONAL_FEE * 3 / 4)
    burnEarnedFee := uint64 (s.burnEarnedFee + QSWAP_ADDITIONAL_FEE / 4) }

def earnFees (s : State) (f : Fees) : State :=
  { s with
    shareholderEarnedFee := uint64 (s.shareholderEarnedFee + low f.toShareholders)
    qxEarnedFee := uint64 (s.qxEarnedFee + low f.toQx)
    investRewardsEarnedFee := uint64 (s.investRewardsEarnedFee + low f.toInvestRewards)
    burnEarnedFee := uint64 (s.burnEarnedFee + low f.toBurn) }

def setPool (s : State) (poolSlot : Nat) (pool : PoolBasicState) : State :=
  { s with mPoolBasicStates := Function.update s.mPoolBasicStates poolSlot pool }

end State

def PoolBasicState.accrue (pool : PoolBasicState) (swapFee : Nat) (fees : Fees) : PoolBasicState :=
  let scaledLpFee := (uint64 (low swapFee - fees.total)).toNat * 2 ^ 64
  { pool with
    accFeePerLPX64 := uint128 (pool.accFeePerLPX64 + scaledLpFee / wide pool.totalLiquidity) }

/-! ## The procedures -/

section

variable {W : Type} (qpi : Qpi W) (call : Invocation) (a : Asset) (s : State) (w : W)

def giveBack (amount : Int) : Int × State × W := (0, s, (qpi.transfer call.invocator amount w).2)

def sendShares (amount : Int) : Int × W :=
  qpi.transferShareOwnershipAndPossession a.assetName a.issuer SELF SELF amount
    call.invocator w

def swapFeeOn (rates : FeeRates) (amount : Int) : Nat :=
  uint128 (wide amount * rates.swapFeeRate) / QSWAP_SWAP_FEE_BASE

/-- The pool after QU came in, less the shares of the fee, and `assetAmountOut` left. -/
def PoolBasicState.sell (pool : PoolBasicState) (quAmountIn assetAmountOut : Int) (swapFee : Nat)
    (fees : Fees) : PoolBasicState :=
  { pool with
    reservedQuAmount := sint64 (pool.reservedQuAmount + (quAmountIn - fees.total))
    reservedAssetAmount := sint64 (pool.reservedAssetAmount - assetAmountOut) }.accrue swapFee fees

def State.afterSwap (s : State) (fees : Fees) (poolSlot : Nat) (pool : PoolBasicState) : State :=
  (s.earnAdditionalFee.earnFees fees).setPool poolSlot pool

/-- The part that the two procedures taking QU have in common. The `excess` of the reward goes
back after the shares were sent. -/
def sellShares (poolSlot : Nat) (quAmountIn assetAmountOut excess output : Int) : Int × State × W :=
  let swapFee := swapFeeOn s.rates quAmountIn
  let fees := s.rates.split swapFee
  if swapFee = 0 then giveBack qpi call s w call.invocationReward
  else if fees.overflow ∨ quAmountIn < fees.total then
    giveBack qpi call s w call.invocationReward
  else
    let sent := sendShares qpi call a w assetAmountOut
    let transferredAssetAmount := if sent.1 < 0 then 0 else assetAmountOut
    if transferredAssetAmount = 0 then giveBack qpi call s sent.2 call.invocationReward
    else
      (output, s.afterSwap fees poolSlot
        ((s.mPoolBasicStates poolSlot).sell quAmountIn assetAmountOut swapFee fees),
        if excess > 0 then (qpi.transfer call.invocator excess sent.2).2 else sent.2)

def swapExactQuForAsset (assetAmountOutMin : Int) : Int × State × W :=
  let refund := giveBack qpi call s w call.invocationReward
  if call.invocationReward ≤ QSWAP_ADDITIONAL_FEE ∨ assetAmountOutMin < 0 then refund
  else
    let quAmountIn := call.invocationReward - QSWAP_ADDITIONAL_FEE
    match findPoolSlotReadOnly s a with
    | none => refund
    | some poolSlot =>
      let pool := s.mPoolBasicStates poolSlot
      if pool.totalLiquidity = 0 then refund
      else
        let assetAmountOut := getAmountOutTakeFeeFromInToken quAmountIn pool.reservedQuAmount
          pool.reservedAssetAmount s.rates.swapFeeRate
        if assetAmountOut = -1 ∨ assetAmountOut < assetAmountOutMin then refund
        else sellShares qpi call a s w poolSlot quAmountIn assetAmountOut 0 assetAmountOut

def swapQuForExactAsset (assetAmountOut : Int) : Int × State × W :=
  let refund := giveBack qpi call s w call.invocationReward
  if call.invocationReward ≤ QSWAP_ADDITIONAL_FEE ∨ assetAmountOut ≤ 0 then refund
  else match findPoolSlotReadOnly s a with
    | none => refund
    | some poolSlot =>
      let pool := s.mPoolBasicStates poolSlot
      if pool.totalLiquidity = 0 ∨ assetAmountOut ≥ pool.reservedAssetAmount then refund
      else
        let quAmountIn := getAmountInTakeFeeFromInToken assetAmountOut pool.reservedQuAmount
          pool.reservedAssetAmount s.rates.swapFeeRate
        if quAmountIn = -1 ∨ quAmountIn > call.invocationReward - QSWAP_ADDITIONAL_FEE then refund
        else sellShares qpi call a s w poolSlot quAmountIn assetAmountOut
          (call.invocationReward - quAmountIn - QSWAP_ADDITIONAL_FEE) quAmountIn

def sharesOf (account : M256i) : Int :=
  qpi.numberOfPossessedShares a.assetName a.issuer account account SELF_INDEX SELF_INDEX w

/-- Move shares of the invocator to the contract. The new state of the node, if the contract has
received them all; otherwise what came is returned. -/
def receiveShares (amount : Int) : Bool × W :=
  let before := sharesOf qpi a w SELF
  let w := (qpi.transferShareOwnershipAndPossession a.assetName a.issuer call.invocator
    call.invocator amount SELF w).2
  let after := sharesOf qpi a w SELF
  if sint64 (after - before) < amount then
    (false, if after > before then (sendShares qpi call a w (sint64 (after - before))).2 else w)
  else (true, w)

/-- The reserves after `paid` QU and the shares of the fee have left. A reserve that is too small
is set to zero. -/
def PoolBasicState.payOut (pool : PoolBasicState) (assetAmountIn paid : Int) (swapFee : Nat)
    (fees : Fees) : PoolBasicState :=
  let pool := { pool with
    reservedAssetAmount := sint64 (pool.reservedAssetAmount + assetAmountIn) }
  let totalFee := sint64 (paid + fees.total)
  if pool.reservedQuAmount < totalFee then { pool with reservedQuAmount := 0 }
  else { pool with
      reservedQuAmount := sint64 (pool.reservedQuAmount - totalFee) }.accrue swapFee fees

/-- The part that the two procedures paying out QU have in common. -/
def buyShares (poolSlot : Nat) (assetAmountIn paid output : Int) (swapFee : Nat) :
    Int × State × W :=
  let fees := s.rates.split swapFee
  if swapFee = 0 ∨ fees.overflow then giveBack qpi call s w QSWAP_ADDITIONAL_FEE
  else
    let received := receiveShares qpi call a w assetAmountIn
    if received.1 then
      (output, s.afterSwap fees poolSlot
        ((s.mPoolBasicStates poolSlot).payOut assetAmountIn paid swapFee fees),
        (qpi.transfer call.invocator paid received.2).2)
    else giveBack qpi call s received.2 QSWAP_ADDITIONAL_FEE

/-- The part of the reward above the additional fee goes back at once. -/
def returnExcess : W :=
  if call.invocationReward > QSWAP_ADDITIONAL_FEE then
    (qpi.transfer call.invocator (call.invocationReward - QSWAP_ADDITIONAL_FEE) w).2
  else w

def swapExactAssetForQu (assetAmountIn quAmountOutMin : Int) : Int × State × W :=
  if call.invocationReward < QSWAP_ADDITIONAL_FEE then giveBack qpi call s w call.invocationReward
  else
    let w := returnExcess qpi call w
    let refund := giveBack qpi call s w QSWAP_ADDITIONAL_FEE
    if assetAmountIn ≤ 0 ∨ quAmountOutMin < 0 then refund
    else match findPoolSlotReadOnly s a with
      | none => refund
      | some poolSlot =>
        let pool := s.mPoolBasicStates poolSlot
        if pool.totalLiquidity = 0 ∨ sharesOf qpi a w call.invocator < assetAmountIn then refund
        else
          let quAmountOutWithFee := getAmountOutTakeFeeFromOutToken assetAmountIn
            pool.reservedAssetAmount pool.reservedQuAmount
          let quAmountOut := afterSwapFee s.rates quAmountOutWithFee
          if quAmountOutWithFee = -1 ∨ quAmountOut < quAmountOutMin then refund
          else buyShares qpi call a s w poolSlot assetAmountIn quAmountOut quAmountOut
            (swapFeeOn s.rates quAmountOutWithFee)

def swapAssetForExactQu (assetAmountInMax quAmountOut : Int) : Int × State × W :=
  if call.invocationReward < QSWAP_ADDITIONAL_FEE then giveBack qpi call s w call.invocationReward
  else
    let w := returnExcess qpi call w
    let refund := giveBack qpi call s w QSWAP_ADDITIONAL_FEE
    if assetAmountInMax ≤ 0 ∨ quAmountOut ≤ 0 then refund
    else match findPoolSlotReadOnly s a with
      | none => refund
      | some poolSlot =>
        let pool := s.mPoolBasicStates poolSlot
        if pool.totalLiquidity = 0 ∨ quAmountOut ≥ pool.reservedQuAmount then refund
        else
          let assetAmountIn := getAmountInTakeFeeFromOutToken quAmountOut
            pool.reservedAssetAmount pool.reservedQuAmount s.rates.swapFeeRate
          if assetAmountIn = -1 ∨ sharesOf qpi a w call.invocator < assetAmountIn ∨
              assetAmountIn > assetAmountInMax then refund
          else buyShares qpi call a s w poolSlot assetAmountIn quAmountOut assetAmountIn
            (uint128 (wide quAmountOut * s.rates.swapFeeRate) /
              feeComplement s.rates.swapFeeRate)

end

/-! ## What the quotes compute -/

/-- The conditions on the rates that the contract asserts when it is initialized. -/
structure FeeRates.Valid (rates : FeeRates) : Prop where
  swapFeeRate : rates.swapFeeRate < QSWAP_SWAP_FEE_BASE
  shares : rates.shareholderFeeRate + rates.investRewardsFeeRate + rates.qxFeeRate +
    rates.burnFeeRate ≤ 100

lemma feeComplement_eq {fee : Nat} (h : fee < QSWAP_SWAP_FEE_BASE) :
    feeComplement fee = QSWAP_SWAP_FEE_BASE - fee := by
  simp only [feeComplement, QSWAP_SWAP_FEE_BASE] at *
  omega

lemma narrow_eq {x : Nat} (h : x < 2 ^ 63) : narrow x = x := by
  have hlow : low x = x := low_eq (by omega)
  rw [narrow, if_neg, hlow]
  rw [hlow, not_or, not_not, high_eq_zero]
  omega

lemma narrow_of_ne {x : Nat} (h : narrow x ≠ -1) : narrow x = x ∧ x < 2 ^ 63 := by
  have hx : x < 2 ^ 63 := by
    by_contra hge
    refine h (if_pos ?_)
    rw [high, low]
    omega
  exact ⟨narrow_eq hx, hx⟩

section

variable {amount Q A : Int} {fee : Nat}

lemma getAmountOutTakeFeeFromOutToken_mem
    (hne : getAmountOutTakeFeeFromOutToken amount A Q ≠ -1) :
    0 ≤ getAmountOutTakeFeeFromOutToken amount A Q ∧
      getAmountOutTakeFeeFromOutToken amount A Q < 2 ^ 63 := by
  unfold getAmountOutTakeFeeFromOutToken at hne ⊢
  split_ifs at hne ⊢
  · exact absurd rfl hne
  · obtain ⟨heq, hlt⟩ := narrow_of_ne hne
    rw [heq]
    exact ⟨Int.natCast_nonneg _, by exact_mod_cast hlt⟩

lemma getAmountOutTakeFeeFromInToken_eq (hfee : fee < QSWAP_SWAP_FEE_BASE) (hamount : 0 ≤ amount)
    (hamount' : amount < MAX_AMOUNT) (hQ : 0 < Q) (hQ' : Q ≤ MAX_AMOUNT) (hA : 0 ≤ A)
    (hA' : A ≤ MAX_AMOUNT) :
    getAmountOutTakeFeeFromInToken amount Q A fee = A * (amount * (QSWAP_SWAP_FEE_BASE - fee)) /
        (Q * QSWAP_SWAP_FEE_BASE + amount * (QSWAP_SWAP_FEE_BASE - fee)) := by
  rw [getAmountOutTakeFeeFromInToken, if_neg (by omega)]
  lift amount to Nat using hamount
  lift Q to Nat using hQ.le
  lift A to Nat using hA
  simp only [MAX_AMOUNT, ISSUANCE_RATE] at hamount' hQ' hA'
  have hnet : amount * (QSWAP_SWAP_FEE_BASE - fee) ≤ 10 ^ 15 * 10 ^ 4 :=
    Nat.mul_le_mul (by omega) (Nat.sub_le _ _)
  have hnum : A * (amount * (QSWAP_SWAP_FEE_BASE - fee)) ≤ 10 ^ 15 * (10 ^ 15 * 10 ^ 4) :=
    Nat.mul_le_mul (by omega) hnet
  have hden : Q * QSWAP_SWAP_FEE_BASE ≤ 10 ^ 15 * 10 ^ 4 := Nat.mul_le_mul (by omega) le_rfl
  have hpos : 0 < Q * QSWAP_SWAP_FEE_BASE := Nat.mul_pos (by omega) (by decide)
  have hresult : A * (amount * (QSWAP_SWAP_FEE_BASE - fee)) /
      (Q * QSWAP_SWAP_FEE_BASE + amount * (QSWAP_SWAP_FEE_BASE - fee)) ≤ A := by
    refine Nat.div_le_of_le_mul ?_
    rw [mul_comm A]
    exact Nat.mul_le_mul_right A (Nat.le_add_left _ _)
  simp (disch := omega) only [feeComplement_eq, wide_natCast, uint128_eq, narrow_eq]
  push_cast [Nat.cast_sub hfee.le]
  rfl

lemma getAmountInTakeFeeFromInToken_eq (hfee : fee < QSWAP_SWAP_FEE_BASE) (hamount : 0 ≤ amount)
    (hamount' : amount < A) (hQ : 0 ≤ Q) (hQ' : Q ≤ MAX_AMOUNT) (hA' : A ≤ MAX_AMOUNT)
    (hne : getAmountInTakeFeeFromInToken amount Q A fee ≠ -1) :
    getAmountInTakeFeeFromInToken amount Q A fee =
      Q * amount * QSWAP_SWAP_FEE_BASE / ((A - amount) * (QSWAP_SWAP_FEE_BASE - fee)) + 1 := by
  rw [getAmountInTakeFeeFromInToken, if_neg (by omega)] at hne ⊢
  lift amount to Nat using hamount
  lift Q to Nat using hQ
  lift A to Nat using by omega
  simp only [MAX_AMOUNT, ISSUANCE_RATE] at hQ' hA'
  have hprod : Q * amount ≤ 10 ^ 15 * 10 ^ 15 := Nat.mul_le_mul (by omega) (by omega)
  have hnum : Q * amount * QSWAP_SWAP_FEE_BASE ≤ 10 ^ 15 * 10 ^ 15 * 10 ^ 4 :=
    Nat.mul_le_mul hprod le_rfl
  have hden : (A - amount) * (QSWAP_SWAP_FEE_BASE - fee) ≤ 10 ^ 15 * 10 ^ 4 :=
    Nat.mul_le_mul (by omega) (Nat.sub_le _ _)
  have hdiv := Nat.div_le_self (Q * amount * QSWAP_SWAP_FEE_BASE)
    ((A - amount) * (QSWAP_SWAP_FEE_BASE - fee))
  have hsub : sint64 ((A : Int) - amount) = ((A - amount : Nat) : Int) := by
    rw [sint64_eq (by omega) (by omega)]
    omega
  simp (disch := omega) only [feeComplement_eq, hsub, wide_natCast, uint128_eq] at hne ⊢
  rw [(narrow_of_ne hne).1]
  push_cast [Nat.cast_sub hfee.le, Nat.cast_sub (by omega : amount ≤ A)]
  rfl

lemma getAmountOutTakeFeeFromOutToken_eq (hamount : 0 ≤ amount) (hamount' : amount < MAX_AMOUNT)
    (hA : 0 < A) (hA' : A ≤ MAX_AMOUNT) (hQ : 0 ≤ Q) (hQ' : Q ≤ MAX_AMOUNT) :
    getAmountOutTakeFeeFromOutToken amount A Q = Q * amount / (A + amount) := by
  rw [getAmountOutTakeFeeFromOutToken, if_neg (by omega)]
  lift amount to Nat using hamount
  lift Q to Nat using hQ
  lift A to Nat using hA.le
  simp only [MAX_AMOUNT, ISSUANCE_RATE] at hamount' hQ' hA'
  have hnum : Q * amount ≤ 10 ^ 15 * 10 ^ 15 := Nat.mul_le_mul (by omega) (by omega)
  have hsum : sint64 ((A : Int) + amount) = ((A + amount : Nat) : Int) := by
    rw [sint64_eq (by omega) (by omega)]
    omega
  have hresult : Q * amount / (A + amount) ≤ Q := by
    refine Nat.div_le_of_le_mul ?_
    rw [mul_comm Q]
    exact Nat.mul_le_mul_right Q (Nat.le_add_left _ _)
  simp (disch := omega) only [hsum, wide_natCast, uint128_eq, narrow_eq]
  rfl

lemma getAmountInTakeFeeFromOutToken_eq (hfee : fee < QSWAP_SWAP_FEE_BASE) (hamount : 0 ≤ amount)
    (hamount' : amount < Q) (hQ' : Q ≤ MAX_AMOUNT) (hA : 0 ≤ A) (hA' : A ≤ MAX_AMOUNT)
    (hne : getAmountInTakeFeeFromOutToken amount A Q fee ≠ -1) :
    amount * QSWAP_SWAP_FEE_BASE < Q * (QSWAP_SWAP_FEE_BASE - fee) ∧
      getAmountInTakeFeeFromOutToken amount A Q fee = A * amount * QSWAP_SWAP_FEE_BASE /
          (Q * (QSWAP_SWAP_FEE_BASE - fee) - amount * QSWAP_SWAP_FEE_BASE) + 1 := by
  rw [getAmountInTakeFeeFromOutToken, if_neg (by omega)] at hne ⊢
  lift amount to Nat using hamount
  lift A to Nat using hA
  lift Q to Nat using by omega
  simp only [MAX_AMOUNT, ISSUANCE_RATE] at hQ' hA'
  have hprod : A * amount ≤ 10 ^ 15 * 10 ^ 15 := Nat.mul_le_mul (by omega) (by omega)
  have hnum : A * amount * QSWAP_SWAP_FEE_BASE ≤ 10 ^ 15 * 10 ^ 15 * 10 ^ 4 :=
    Nat.mul_le_mul hprod le_rfl
  have hnet : Q * (QSWAP_SWAP_FEE_BASE - fee) ≤ 10 ^ 15 * 10 ^ 4 :=
    Nat.mul_le_mul (by omega) (Nat.sub_le _ _)
  have hout : amount * QSWAP_SWAP_FEE_BASE ≤ 10 ^ 15 * 10 ^ 4 := Nat.mul_le_mul (by omega) le_rfl
  have hdiv := Nat.div_le_self (A * amount * QSWAP_SWAP_FEE_BASE)
    (Q * (QSWAP_SWAP_FEE_BASE - fee) - amount * QSWAP_SWAP_FEE_BASE)
  simp (disch := omega) only [feeComplement_eq, wide_natCast, uint128_eq] at hne ⊢
  split_ifs at hne ⊢ with hroom
  · exact absurd rfl hne
  · rw [not_le] at hroom
    rw [(narrow_of_ne hne).1]
    push_cast [Nat.cast_sub hroom.le]
    zify [hfee.le] at hroom ⊢
    exact ⟨hroom, trivial⟩

end

/-! ## What the fees take -/

lemma shareOf_eq {swapFee rate : Nat} (hfee : swapFee < 2 ^ 63) (hrate : rate ≤ 100) :
    shareOf swapFee rate = swapFee * rate / 100 := by
  have : swapFee * rate ≤ 2 ^ 63 * 100 := Nat.mul_le_mul hfee.le hrate
  rw [shareOf, uint128_eq (by omega)]
  rfl

/-- The `sint64` sum is the sum of what is booked. -/
def Fees.Exact (f : Fees) : Prop :=
  f.total = low f.toShareholders + low f.toQx + low f.toInvestRewards + low f.toBurn

/-- All shares together are at most the fee. -/
lemma FeeRates.Valid.total_le (h : rates.Valid) {swapFee : Nat} (hfee : swapFee < 2 ^ 63) :
    (rates.split swapFee).Exact ∧ 0 ≤ (rates.split swapFee).total ∧
      (rates.split swapFee).total ≤ swapFee := by
  have hshares := h.shares
  have hsum : swapFee * rates.shareholderFeeRate + swapFee * rates.investRewardsFeeRate +
      swapFee * rates.qxFeeRate + swapFee * rates.burnFeeRate ≤ swapFee * 100 := by
    simp only [← Nat.mul_add]
    exact Nat.mul_le_mul_left swapFee hshares
  simp (disch := omega) only [Fees.Exact, Fees.total, FeeRates.split, shareOf_eq, low_eq, sint64_eq]
  exact ⟨trivial, by omega, by omega⟩

/-- The shares of a fee taken from an amount, as a part of this amount. -/
lemma FeeRates.Valid.kept_le (h : rates.Valid) {amount : Int} {base : Nat} (hamount : 0 ≤ amount)
    (hamount' : amount < 2 ^ 63) (hfee : amount * rates.swapFeeRate < 2 ^ 63 * base) :
    (rates.split (uint128 (wide amount * rates.swapFeeRate) / base)).Exact ∧
      0 ≤ (rates.split (uint128 (wide amount * rates.swapFeeRate) / base)).total ∧
      (rates.split (uint128 (wide amount * rates.swapFeeRate) / base)).total * base ≤
        amount * rates.swapFeeRate := by
  lift amount to Nat using hamount
  have hrate := h.swapFeeRate
  have hprod : amount * rates.swapFeeRate ≤ 2 ^ 63 * 10 ^ 4 := Nat.mul_le_mul (by omega) hrate.le
  rw [wide_natCast (by omega), uint128_eq (by omega)]
  have hlt : amount * rates.swapFeeRate / base < 2 ^ 63 :=
    Nat.div_lt_of_lt_mul (by rw [mul_comm base]; exact_mod_cast hfee)
  obtain ⟨hexact, hnonneg, hle⟩ := h.total_le hlt
  refine ⟨hexact, hnonneg, ?_⟩
  have hdiv : amount * rates.swapFeeRate / base * base ≤ amount * rates.swapFeeRate :=
    Nat.div_mul_le_self _ _
  calc (rates.split (amount * rates.swapFeeRate / base)).total * base
      ≤ ((amount * rates.swapFeeRate / base : Nat) : Int) * base :=
        mul_le_mul_of_nonneg_right hle (by omega)
    _ ≤ (amount * rates.swapFeeRate : Nat) := by exact_mod_cast hdiv

lemma FeeRates.Valid.swapFeeOn_le (h : rates.Valid) {amount : Int} (hamount : 0 ≤ amount)
    (hamount' : amount < 2 ^ 63) :
    (rates.split (swapFeeOn rates amount)).Exact ∧
      0 ≤ (rates.split (swapFeeOn rates amount)).total ∧
      (rates.split (swapFeeOn rates amount)).total ≤ amount ∧
      (rates.split (swapFeeOn rates amount)).total * QSWAP_SWAP_FEE_BASE ≤
        amount * rates.swapFeeRate := by
  have hrate : (rates.swapFeeRate : Int) ≤ QSWAP_SWAP_FEE_BASE := by exact_mod_cast h.swapFeeRate.le
  have hprod : amount * rates.swapFeeRate ≤ amount * QSWAP_SWAP_FEE_BASE :=
    mul_le_mul_of_nonneg_left hrate hamount
  obtain ⟨hexact, hnonneg, hle⟩ := h.kept_le hamount hamount' (hprod.trans_lt
    (mul_lt_mul_of_pos_right hamount' (by decide)))
  exact ⟨hexact, hnonneg, le_of_mul_le_mul_right (hle.trans hprod) (by decide), hle⟩

/-- What is paid out of a gross amount, with the shares of the fee, is at most this amount. -/
lemma FeeRates.Valid.afterSwapFee_le (h : rates.Valid) {gross : Int} (hgross : 0 ≤ gross)
    (hgross' : gross < 2 ^ 63) :
    0 ≤ afterSwapFee rates gross ∧
      afterSwapFee rates gross + (rates.split (swapFeeOn rates gross)).total ≤ gross := by
  have hfees := (h.swapFeeOn_le hgross hgross').2.2.2
  lift gross to Nat using hgross
  have hrate := h.swapFeeRate
  have hprod : gross * (QSWAP_SWAP_FEE_BASE - rates.swapFeeRate) ≤ 2 ^ 63 * 10 ^ 4 :=
    Nat.mul_le_mul (by omega) (Nat.sub_le _ _)
  have hnet : gross * (QSWAP_SWAP_FEE_BASE - rates.swapFeeRate) / QSWAP_SWAP_FEE_BASE ≤ gross :=
    Nat.div_le_of_le_mul (by rw [mul_comm]; exact Nat.mul_le_mul_right gross (Nat.sub_le _ _))
  have hafter : afterSwapFee rates gross =
      ((gross * (QSWAP_SWAP_FEE_BASE - rates.swapFeeRate) / QSWAP_SWAP_FEE_BASE : Nat) : Int) := by
    rw [afterSwapFee, feeComplement_eq hrate, wide_natCast (by omega), uint128_eq (by omega),
      low_eq (by omega), sint64_eq ((by norm_num : (-2 ^ 63 : Int) ≤ 0).trans
        (Int.natCast_nonneg _)) (by exact_mod_cast hnet.trans_lt (by omega))]
  rw [hafter]
  refine ⟨Int.natCast_nonneg _, ?_⟩
  have hsplit : (gross * (QSWAP_SWAP_FEE_BASE - rates.swapFeeRate) : Nat) +
      (gross : Int) * rates.swapFeeRate = gross * QSWAP_SWAP_FEE_BASE := by
    push_cast [Nat.cast_sub hrate.le]
    ring
  simp only [QSWAP_SWAP_FEE_BASE] at *
  omega

end QubicCore.Contracts.Qswap
