import QubicCore.Contracts.Qswap.Swaps

/-!
# A swap never lowers the product of the reserves

Each procedure has one lemma that lists its outcomes: it gives something back and changes nothing of
the contract, or it swaps.
-/

namespace QubicCore.Contracts.Qswap

open Library.ConstantProduct

variable {W : Type} {qpi : Qpi W} {call : Invocation} {a : Asset} {s : State} {w : W}
  {pool : PoolBasicState} {swapFee : Nat}
  {quAmountIn assetAmountIn : Int}

attribute [local irreducible] findPoolSlotReadOnly

/-! ## Outcomes -/

/-- A procedure that takes QU gives all of it back, possibly after a transfer of shares that did
not succeed. -/
def Refused (qpi : Qpi W) (call : Invocation) (a : Asset) (s : State) (w : W)
    (result : Int × State × W) : Prop :=
  result = giveBack qpi call s w call.invocationReward ∨
    ∃ amount, ((sendShares qpi call a w amount).1 < 0 ∨ amount = 0) ∧
      result = giveBack qpi call s (sendShares qpi call a w amount).2 call.invocationReward

def Sold (qpi : Qpi W) (call : Invocation) (a : Asset) (s : State) (w : W) (slot : Nat)
    (quAmountIn assetAmountOut excess output : Int) (result : Int × State × W) : Prop :=
  0 ≤ (sendShares qpi call a w assetAmountOut).1 ∧
    result = (output, s.afterSwap (s.rates.split (swapFeeOn s.rates quAmountIn)) slot
      ((s.mPoolBasicStates slot).sell quAmountIn assetAmountOut (swapFeeOn s.rates quAmountIn)
        (s.rates.split (swapFeeOn s.rates quAmountIn))),
      if excess > 0 then
        (qpi.transfer call.invocator excess (sendShares qpi call a w assetAmountOut).2).2
      else (sendShares qpi call a w assetAmountOut).2)

lemma sellShares_cases (slot : Nat) (quAmountIn assetAmountOut excess output : Int) :
    Refused qpi call a s w
      (sellShares qpi call a s w slot quAmountIn assetAmountOut excess output) ∨
    Sold qpi call a s w slot quAmountIn assetAmountOut excess output
      (sellShares qpi call a s w slot quAmountIn assetAmountOut excess output) := by
  rw [sellShares]
  dsimp only
  by_cases hfee : swapFeeOn s.rates quAmountIn = 0
  · rw [if_pos hfee]
    exact .inl (.inl rfl)
  rw [if_neg hfee]
  split
  · exact .inl (.inl rfl)
  by_cases hsent : (sendShares qpi call a w assetAmountOut).1 < 0
  · rw [if_pos hsent, if_pos rfl]
    exact .inl (.inr ⟨assetAmountOut, .inl hsent, rfl⟩)
  rw [if_neg hsent]
  by_cases hzero : assetAmountOut = 0
  · rw [if_pos hzero]
    exact .inl (.inr ⟨assetAmountOut, .inr hzero, rfl⟩)
  rw [if_neg hzero]
  exact .inr ⟨not_lt.1 hsent, rfl⟩

lemma swapExactQuForAsset_cases (assetAmountOutMin : Int) :
    Refused qpi call a s w (swapExactQuForAsset qpi call a s w assetAmountOutMin) ∨
    ∃ slot quAmountIn assetAmountOut, findPoolSlotReadOnly s a = some slot ∧
      0 < quAmountIn ∧ quAmountIn = call.invocationReward - QSWAP_ADDITIONAL_FEE ∧
      (s.mPoolBasicStates slot).totalLiquidity ≠ 0 ∧
      assetAmountOut = getAmountOutTakeFeeFromInToken quAmountIn
        (s.mPoolBasicStates slot).reservedQuAmount
        (s.mPoolBasicStates slot).reservedAssetAmount s.rates.swapFeeRate ∧
      assetAmountOut ≠ -1 ∧
      Sold qpi call a s w slot quAmountIn assetAmountOut 0 assetAmountOut
        (swapExactQuForAsset qpi call a s w assetAmountOutMin) := by
  rw [swapExactQuForAsset]
  dsimp only
  split
  · exact .inl (.inl rfl)
  rename_i hcall
  split
  · exact .inl (.inl rfl)
  rename_i slot hslot
  split
  · exact .inl (.inl rfl)
  rename_i hliquidity
  split
  · exact .inl (.inl rfl)
  rename_i hout
  refine (sellShares_cases slot _ _ 0 _).imp_right fun hsold => ?_
  exact ⟨slot, _, _, hslot, by omega, rfl, hliquidity, rfl, fun h => hout (.inl h), hsold⟩

lemma swapQuForExactAsset_cases (assetAmountOut : Int) :
    Refused qpi call a s w (swapQuForExactAsset qpi call a s w assetAmountOut) ∨
    ∃ slot quAmountIn, findPoolSlotReadOnly s a = some slot ∧ 0 < assetAmountOut ∧
      assetAmountOut < (s.mPoolBasicStates slot).reservedAssetAmount ∧
      (s.mPoolBasicStates slot).totalLiquidity ≠ 0 ∧
      quAmountIn = getAmountInTakeFeeFromInToken assetAmountOut
        (s.mPoolBasicStates slot).reservedQuAmount
        (s.mPoolBasicStates slot).reservedAssetAmount s.rates.swapFeeRate ∧
      quAmountIn ≠ -1 ∧ quAmountIn ≤ call.invocationReward - QSWAP_ADDITIONAL_FEE ∧
      Sold qpi call a s w slot quAmountIn assetAmountOut
        (call.invocationReward - quAmountIn - QSWAP_ADDITIONAL_FEE) quAmountIn
        (swapQuForExactAsset qpi call a s w assetAmountOut) := by
  rw [swapQuForExactAsset]
  dsimp only
  split
  · exact .inl (.inl rfl)
  rename_i hcall
  split
  · exact .inl (.inl rfl)
  rename_i slot hslot
  split
  · exact .inl (.inl rfl)
  rename_i hpool
  split
  · exact .inl (.inl rfl)
  rename_i hin
  refine (sellShares_cases slot _ _ _ _).imp_right fun hsold => ?_
  exact ⟨slot, _, hslot, by omega, by omega, fun h => hpool (.inl h), rfl,
    fun h => hin (.inl h), by omega, hsold⟩

def Declined (qpi : Qpi W) (call : Invocation) (a : Asset) (s : State) (w : W)
    (result : Int × State × W) : Prop :=
  result = giveBack qpi call s w call.invocationReward ∧
      call.invocationReward < QSWAP_ADDITIONAL_FEE ∨
    QSWAP_ADDITIONAL_FEE ≤ call.invocationReward ∧
      (result = giveBack qpi call s (returnExcess qpi call w) QSWAP_ADDITIONAL_FEE ∨
        ∃ amount, (receiveShares qpi call a (returnExcess qpi call w) amount).1 = false ∧
          result = giveBack qpi call s
            (receiveShares qpi call a (returnExcess qpi call w) amount).2 QSWAP_ADDITIONAL_FEE)

def Bought (qpi : Qpi W) (call : Invocation) (a : Asset) (s : State) (w : W) (slot : Nat)
    (assetAmountIn paid output : Int) (swapFee : Nat) (result : Int × State × W) : Prop :=
  QSWAP_ADDITIONAL_FEE ≤ call.invocationReward ∧
    (receiveShares qpi call a (returnExcess qpi call w) assetAmountIn).1 ∧
    result = (output, s.afterSwap (s.rates.split swapFee) slot
      ((s.mPoolBasicStates slot).payOut assetAmountIn paid swapFee (s.rates.split swapFee)),
      (qpi.transfer call.invocator paid
        (receiveShares qpi call a (returnExcess qpi call w) assetAmountIn).2).2)

lemma buyShares_cases (hreward : QSWAP_ADDITIONAL_FEE ≤ call.invocationReward) (slot : Nat)
    (assetAmountIn paid output : Int) (swapFee : Nat) :
    Declined qpi call a s w (buyShares qpi call a s (returnExcess qpi call w) slot
      assetAmountIn paid output swapFee) ∨
    Bought qpi call a s w slot assetAmountIn paid output swapFee
      (buyShares qpi call a s (returnExcess qpi call w) slot assetAmountIn paid output
        swapFee) := by
  rw [buyShares]
  dsimp only
  split
  · exact .inl (.inr ⟨hreward, .inl rfl⟩)
  split
  · rename_i hreceived
    exact .inr ⟨hreward, hreceived, rfl⟩
  · rename_i hreceived
    exact .inl (.inr ⟨hreward, .inr ⟨assetAmountIn, by simpa using hreceived, rfl⟩⟩)

lemma swapExactAssetForQu_cases (assetAmountIn quAmountOutMin : Int) :
    Declined qpi call a s w (swapExactAssetForQu qpi call a s w assetAmountIn quAmountOutMin) ∨
    ∃ slot gross, findPoolSlotReadOnly s a = some slot ∧ 0 < assetAmountIn ∧
      (s.mPoolBasicStates slot).totalLiquidity ≠ 0 ∧
      gross = getAmountOutTakeFeeFromOutToken assetAmountIn
        (s.mPoolBasicStates slot).reservedAssetAmount
        (s.mPoolBasicStates slot).reservedQuAmount ∧
      gross ≠ -1 ∧
      Bought qpi call a s w slot assetAmountIn (afterSwapFee s.rates gross)
        (afterSwapFee s.rates gross) (swapFeeOn s.rates gross)
        (swapExactAssetForQu qpi call a s w assetAmountIn quAmountOutMin) := by
  rw [swapExactAssetForQu]
  dsimp only
  split
  · rename_i hreward
    exact .inl (.inl ⟨rfl, hreward⟩)
  rename_i hreward
  rw [not_lt] at hreward
  split
  · exact .inl (.inr ⟨hreward, .inl rfl⟩)
  rename_i hcall
  split
  · exact .inl (.inr ⟨hreward, .inl rfl⟩)
  rename_i slot hslot
  split
  · exact .inl (.inr ⟨hreward, .inl rfl⟩)
  rename_i hpool
  split
  · exact .inl (.inr ⟨hreward, .inl rfl⟩)
  rename_i hout
  refine (buyShares_cases hreward slot _ _ _ _).imp_right fun hbought => ?_
  exact ⟨slot, _, hslot, by omega, fun h => hpool (.inl h), rfl,
    fun h => hout (.inl h), hbought⟩

lemma swapAssetForExactQu_cases (assetAmountInMax quAmountOut : Int) :
    Declined qpi call a s w (swapAssetForExactQu qpi call a s w assetAmountInMax quAmountOut) ∨
    ∃ slot assetAmountIn, findPoolSlotReadOnly s a = some slot ∧ 0 < quAmountOut ∧
      quAmountOut < (s.mPoolBasicStates slot).reservedQuAmount ∧
      (s.mPoolBasicStates slot).totalLiquidity ≠ 0 ∧
      assetAmountIn = getAmountInTakeFeeFromOutToken quAmountOut
        (s.mPoolBasicStates slot).reservedAssetAmount
        (s.mPoolBasicStates slot).reservedQuAmount s.rates.swapFeeRate ∧
      assetAmountIn ≠ -1 ∧
      assetAmountIn ≤ sharesOf qpi a (returnExcess qpi call w) call.invocator ∧
      Bought qpi call a s w slot assetAmountIn quAmountOut assetAmountIn
        (uint128 (wide quAmountOut * s.rates.swapFeeRate) / feeComplement s.rates.swapFeeRate)
        (swapAssetForExactQu qpi call a s w assetAmountInMax quAmountOut) := by
  rw [swapAssetForExactQu]
  dsimp only
  split
  · rename_i hreward
    exact .inl (.inl ⟨rfl, hreward⟩)
  rename_i hreward
  rw [not_lt] at hreward
  split
  · exact .inl (.inr ⟨hreward, .inl rfl⟩)
  rename_i hcall
  split
  · exact .inl (.inr ⟨hreward, .inl rfl⟩)
  rename_i slot hslot
  split
  · exact .inl (.inr ⟨hreward, .inl rfl⟩)
  rename_i hpool
  split
  · exact .inl (.inr ⟨hreward, .inl rfl⟩)
  rename_i hin
  refine (buyShares_cases hreward slot _ _ _ _).imp_right fun hbought => ?_
  exact ⟨slot, _, hslot, by omega, by omega, fun h => hpool (.inl h), rfl,
    fun h => hin (.inl h), by omega, hbought⟩

/-! ## The reserves -/

/-- Positive reserves within the bound of every amount. -/
structure PoolBasicState.Funded (pool : PoolBasicState) : Prop where
  qu_pos : 0 < pool.reservedQuAmount
  qu_le : pool.reservedQuAmount ≤ MAX_AMOUNT
  asset_pos : 0 < pool.reservedAssetAmount
  asset_le : pool.reservedAssetAmount ≤ MAX_AMOUNT

/-- The effect of a swap on a pool: `qu` and `asset` come in, negative amounts leave, and the
shares of the fee are taken out of the reserve. -/
structure Traded (pool pool' : PoolBasicState) (qu asset : Int) (fees : Fees) : Prop where
  exact : fees.Exact
  qu_eq : pool'.reservedQuAmount = pool.reservedQuAmount + qu - fees.total
  asset_eq : pool'.reservedAssetAmount = pool.reservedAssetAmount + asset
  qu_pos : 0 < pool'.reservedQuAmount
  asset_pos : 0 < pool'.reservedAssetAmount
  product_le : pool.reservedQuAmount * pool.reservedAssetAmount ≤
    pool'.reservedQuAmount * pool'.reservedAssetAmount
  poolID_eq : pool'.poolID = pool.poolID
  totalLiquidity_eq : pool'.totalLiquidity = pool.totalLiquidity

lemma PoolBasicState.sell_traded (hpool : pool.Funded) {assetAmountOut : Int}
    {fees : Fees} (hexact : fees.Exact) (hin : quAmountIn ≤ 10 ^ 16) (hkept : 0 ≤ fees.total)
    (hkept' : fees.total ≤ quAmountIn) (hout : 0 ≤ assetAmountOut)
    (hout' : assetAmountOut < pool.reservedAssetAmount)
    (hproduct : pool.reservedQuAmount * pool.reservedAssetAmount ≤
      (pool.reservedQuAmount + (quAmountIn - fees.total)) *
        (pool.reservedAssetAmount - assetAmountOut)) :
    Traded pool (pool.sell quAmountIn assetAmountOut swapFee fees) quAmountIn (-assetAmountOut)
      fees := by
  obtain ⟨hQ, hQ', hA, hA'⟩ := hpool
  simp only [MAX_AMOUNT, ISSUANCE_RATE] at hQ' hA'
  have hqu : (pool.sell quAmountIn assetAmountOut swapFee fees).reservedQuAmount =
      pool.reservedQuAmount + (quAmountIn - fees.total) :=
    sint64_eq (by omega) (by omega)
  have hasset : (pool.sell quAmountIn assetAmountOut swapFee fees).reservedAssetAmount =
      pool.reservedAssetAmount - assetAmountOut := sint64_eq (by omega) (by omega)
  refine ⟨hexact, by omega, by omega, by omega, by omega, ?_, rfl, rfl⟩
  rw [hqu, hasset]
  exact hproduct

lemma PoolBasicState.payOut_traded (hpool : pool.Funded) {paid : Int} {fees : Fees}
    (hexact : fees.Exact) (hin : 0 ≤ assetAmountIn) (hin' : assetAmountIn ≤ 10 ^ 16)
    (hkept : 0 ≤ fees.total) (hpaid : 0 ≤ paid) (hroom : paid + fees.total < pool.reservedQuAmount)
    (hproduct : pool.reservedQuAmount * pool.reservedAssetAmount ≤
      (pool.reservedQuAmount - (paid + fees.total)) * (pool.reservedAssetAmount + assetAmountIn)) :
    Traded pool (pool.payOut assetAmountIn paid swapFee fees) (-paid) assetAmountIn fees := by
  obtain ⟨hQ, hQ', hA, hA'⟩ := hpool
  simp only [MAX_AMOUNT, ISSUANCE_RATE] at hQ' hA'
  have htotal : sint64 (paid + fees.total) = paid + fees.total := sint64_eq (by omega) (by omega)
  have hclamp : ¬pool.reservedQuAmount < sint64 (paid + fees.total) := by omega
  have hpool' : pool.payOut assetAmountIn paid swapFee fees = { pool with
      reservedAssetAmount := sint64 (pool.reservedAssetAmount + assetAmountIn)
      reservedQuAmount := sint64 (pool.reservedQuAmount - sint64 (paid + fees.total)) }.accrue
        swapFee fees := if_neg hclamp
  rw [hpool', htotal]
  have hqu : sint64 (pool.reservedQuAmount - (paid + fees.total)) =
      pool.reservedQuAmount - (paid + fees.total) := sint64_eq (by omega) (by omega)
  have hasset : sint64 (pool.reservedAssetAmount + assetAmountIn) =
      pool.reservedAssetAmount + assetAmountIn := sint64_eq (by omega) (by omega)
  rw [hqu, hasset]
  refine ⟨hexact, ?_, rfl, ?_, ?_, hproduct, rfl, rfl⟩ <;>
    simp only [PoolBasicState.accrue] <;> omega

section

variable {pool : PoolBasicState} {rates : FeeRates}

lemma sell_exactIn (hrates : rates.Valid) (hpool : pool.Funded) (hin : 0 < quAmountIn)
    (hquote : getAmountOutTakeFeeFromInToken quAmountIn pool.reservedQuAmount
      pool.reservedAssetAmount rates.swapFeeRate ≠ -1) :
    Traded pool (pool.sell quAmountIn (getAmountOutTakeFeeFromInToken quAmountIn
        pool.reservedQuAmount pool.reservedAssetAmount rates.swapFeeRate)
        (swapFeeOn rates quAmountIn) (rates.split (swapFeeOn rates quAmountIn)))
      quAmountIn (-getAmountOutTakeFeeFromInToken quAmountIn pool.reservedQuAmount
        pool.reservedAssetAmount rates.swapFeeRate)
      (rates.split (swapFeeOn rates quAmountIn)) := by
  have hlimit : quAmountIn < MAX_AMOUNT := by
    by_contra hge
    exact hquote (if_pos (not_lt.1 hge))
  have hout := getAmountOutTakeFeeFromInToken_eq hrates.swapFeeRate hin.le hlimit hpool.qu_pos
    hpool.qu_le hpool.asset_pos.le hpool.asset_le
  simp only [MAX_AMOUNT, ISSUANCE_RATE] at hlimit
  obtain ⟨hexact, hkept, hkept', hfraction⟩ :=
    hrates.swapFeeOn_le hin.le (by omega : quAmountIn < 2 ^ 63)
  obtain ⟨hproduct, hlt, hnonneg⟩ := product_le_of_exact_in hpool.qu_pos (by decide)
    (by exact_mod_cast hrates.swapFeeRate) hin.le hout hfraction hpool.asset_pos
  exact PoolBasicState.sell_traded hpool hexact (by omega) hkept hkept' hnonneg hlt hproduct

lemma sell_exactOut (hrates : rates.Valid) (hpool : pool.Funded) {assetAmountOut : Int}
    (hout : 0 < assetAmountOut) (hout' : assetAmountOut < pool.reservedAssetAmount)
    (hin : quAmountIn = getAmountInTakeFeeFromInToken assetAmountOut
      pool.reservedQuAmount pool.reservedAssetAmount rates.swapFeeRate)
    (hquote : quAmountIn ≠ -1) (hlimit : quAmountIn ≤ MAX_AMOUNT) :
    Traded pool (pool.sell quAmountIn assetAmountOut (swapFeeOn rates quAmountIn)
        (rates.split (swapFeeOn rates quAmountIn)))
      quAmountIn (-assetAmountOut) (rates.split (swapFeeOn rates quAmountIn)) := by
  have hpay := getAmountInTakeFeeFromInToken_eq hrates.swapFeeRate hout.le hout' hpool.qu_pos.le
    hpool.qu_le hpool.asset_le (hin ▸ hquote)
  rw [← hin] at hpay
  have hrate : (rates.swapFeeRate : Int) < QSWAP_SWAP_FEE_BASE := by
    exact_mod_cast hrates.swapFeeRate
  have hpos : 0 ≤ quAmountIn := by
    have hnum : 0 ≤ pool.reservedQuAmount * assetAmountOut * QSWAP_SWAP_FEE_BASE :=
      mul_nonneg (mul_nonneg hpool.qu_pos.le hout.le) (by decide)
    have hden : 0 ≤ (pool.reservedAssetAmount - assetAmountOut) *
        (QSWAP_SWAP_FEE_BASE - rates.swapFeeRate) := mul_nonneg (by omega) (by omega)
    have := Int.ediv_nonneg hnum hden
    omega
  simp only [MAX_AMOUNT, ISSUANCE_RATE] at hlimit
  obtain ⟨hexact, hkept, hkept', hfraction⟩ :=
    hrates.swapFeeOn_le hpos (by omega : quAmountIn < 2 ^ 63)
  exact PoolBasicState.sell_traded hpool hexact (by omega) hkept hkept' hout.le hout'
    (product_le_of_exact_out (by decide) hrate hout' hpay hfraction)

lemma payOut_exactIn (hrates : rates.Valid) (hpool : pool.Funded) (hin : 0 < assetAmountIn)
    {gross : Int}
    (hgross : gross = getAmountOutTakeFeeFromOutToken assetAmountIn pool.reservedAssetAmount
      pool.reservedQuAmount)
    (hquote : gross ≠ -1) :
    Traded pool (pool.payOut assetAmountIn (afterSwapFee rates gross) (swapFeeOn rates gross)
        (rates.split (swapFeeOn rates gross)))
      (-afterSwapFee rates gross) assetAmountIn (rates.split (swapFeeOn rates gross)) := by
  have hlimit : assetAmountIn < MAX_AMOUNT := by
    by_contra hge
    exact hquote (hgross.trans (if_pos (not_lt.1 hge)))
  have hout := getAmountOutTakeFeeFromOutToken_eq hin.le hlimit hpool.asset_pos hpool.asset_le
    hpool.qu_pos.le hpool.qu_le
  rw [← hgross] at hout
  obtain ⟨-, hlt, hnonneg⟩ := product_le_of_gross hpool.asset_pos hpool.qu_pos hin.le hout le_rfl
  have hqu := hpool.qu_le
  simp only [MAX_AMOUNT, ISSUANCE_RATE] at hlimit hqu
  obtain ⟨hexact, hkept, -, -⟩ := hrates.swapFeeOn_le hnonneg (by omega : gross < 2 ^ 63)
  obtain ⟨hpaid, htaken⟩ := hrates.afterSwapFee_le hnonneg (by omega : gross < 2 ^ 63)
  obtain ⟨hproduct, -, -⟩ := product_le_of_gross hpool.asset_pos hpool.qu_pos hin.le hout htaken
  exact PoolBasicState.payOut_traded hpool hexact hin.le (by omega) hkept hpaid (by omega) hproduct

lemma payOut_exactOut (hrates : rates.Valid) (hpool : pool.Funded) {quAmountOut : Int}
    (hout : 0 < quAmountOut) (hout' : quAmountOut < pool.reservedQuAmount)
    (hin : assetAmountIn = getAmountInTakeFeeFromOutToken quAmountOut pool.reservedAssetAmount
      pool.reservedQuAmount rates.swapFeeRate)
    (hquote : assetAmountIn ≠ -1) (hlimit : assetAmountIn ≤ MAX_AMOUNT) :
    Traded pool (pool.payOut assetAmountIn quAmountOut
        (uint128 (wide quAmountOut * rates.swapFeeRate) / feeComplement rates.swapFeeRate)
        (rates.split (uint128 (wide quAmountOut * rates.swapFeeRate) /
          feeComplement rates.swapFeeRate)))
      (-quAmountOut) assetAmountIn (rates.split (uint128 (wide quAmountOut * rates.swapFeeRate) /
        feeComplement rates.swapFeeRate)) := by
  obtain ⟨hroom, hpay⟩ := getAmountInTakeFeeFromOutToken_eq hrates.swapFeeRate hout.le hout'
    hpool.qu_le hpool.asset_pos.le hpool.asset_le (hin ▸ hquote)
  rw [← hin] at hpay
  have hrate : (rates.swapFeeRate : Int) < QSWAP_SWAP_FEE_BASE := by
    exact_mod_cast hrates.swapFeeRate
  have hpos : 0 ≤ assetAmountIn := by
    have hnum : 0 ≤ pool.reservedAssetAmount * quAmountOut * QSWAP_SWAP_FEE_BASE :=
      mul_nonneg (mul_nonneg hpool.asset_pos.le hout.le) (by decide)
    have := Int.ediv_nonneg hnum (sub_nonneg.2 hroom.le)
    omega
  have hqu := hpool.qu_le
  simp only [MAX_AMOUNT, ISSUANCE_RATE] at hlimit hqu
  have hbase : (feeComplement rates.swapFeeRate : Int) =
      QSWAP_SWAP_FEE_BASE - rates.swapFeeRate := by
    rw [feeComplement_eq hrates.swapFeeRate, Nat.cast_sub hrates.swapFeeRate.le]
  -- the fee on the net amount is below the reserve, however large the rate is
  have hfee : quAmountOut * rates.swapFeeRate < 2 ^ 63 * (feeComplement rates.swapFeeRate : Int) :=
    calc quAmountOut * rates.swapFeeRate ≤ quAmountOut * QSWAP_SWAP_FEE_BASE :=
          mul_le_mul_of_nonneg_left hrate.le hout.le
      _ < pool.reservedQuAmount * (QSWAP_SWAP_FEE_BASE - rates.swapFeeRate) := hroom
      _ ≤ 2 ^ 63 * (QSWAP_SWAP_FEE_BASE - rates.swapFeeRate) :=
          mul_le_mul_of_nonneg_right (by omega) (by omega)
      _ = 2 ^ 63 * (feeComplement rates.swapFeeRate : Int) := by rw [hbase]
  obtain ⟨hexact, hkept, hfraction⟩ := hrates.kept_le hout.le (by omega : quAmountOut < 2 ^ 63) hfee
  rw [hbase] at hfraction
  have htaken : (quAmountOut + (rates.split (uint128 (wide quAmountOut * rates.swapFeeRate) /
      feeComplement rates.swapFeeRate)).total) * (QSWAP_SWAP_FEE_BASE - rates.swapFeeRate) ≤
      quAmountOut * QSWAP_SWAP_FEE_BASE := by linarith
  obtain ⟨hproduct, hlt⟩ := product_le_of_net hpool.asset_pos.le hrate hroom hpos hpay htaken
  exact PoolBasicState.payOut_traded hpool hexact hpos (by omega) hkept hout.le hlt hproduct

end

/-! ## All four procedures -/

inductive Swap where
  | exactQuForAsset (assetAmountOutMin : Int)
  | quForExactAsset (assetAmountOut : Int)
  | exactAssetForQu (assetAmountIn quAmountOutMin : Int)
  | assetForExactQu (assetAmountInMax quAmountOut : Int)

namespace Swap

def run (qpi : Qpi W) (call : Invocation) (a : Asset) (s : State) (w : W) : Swap → Int × State × W
  | exactQuForAsset assetAmountOutMin => swapExactQuForAsset qpi call a s w assetAmountOutMin
  | quForExactAsset assetAmountOut => swapQuForExactAsset qpi call a s w assetAmountOut
  | exactAssetForQu assetAmountIn quAmountOutMin =>
    swapExactAssetForQu qpi call a s w assetAmountIn quAmountOutMin
  | assetForExactQu assetAmountInMax quAmountOut =>
    swapAssetForExactQu qpi call a s w assetAmountInMax quAmountOut

end Swap

lemma Refused.unchanged {result : Int × State × W} (h : Refused qpi call a s w result) :
    result.1 = 0 ∧ result.2.1 = s := by
  obtain h | ⟨amount, -, h⟩ := h <;> exact h ▸ ⟨rfl, rfl⟩

lemma Declined.unchanged {result : Int × State × W} (h : Declined qpi call a s w result) :
    result.1 = 0 ∧ result.2.1 = s := by
  obtain ⟨h, -⟩ | ⟨-, h | ⟨amount, -, h⟩⟩ := h <;> exact h ▸ ⟨rfl, rfl⟩

/-- Functions of a node on which every transfer of shares succeeds and nothing is recorded. -/
def idleQpi : Qpi Unit where
  transfer _ _ w := (0, w)
  burn _ w := (0, w)
  distributeDividends _ w := (true, w)
  isAssetIssued _ _ _ := true
  issueAsset _ _ _ _ _ w := (0, w)
  numberOfPossessedShares _ _ _ _ _ _ _ := 0
  transferShareOwnershipAndPossession _ _ _ _ _ _ w := (0, w)
  releaseShares _ _ _ _ _ _ _ _ w := (0, w)

end QubicCore.Contracts.Qswap
