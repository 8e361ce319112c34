import QubicCore.Contracts.Qswap.Swaps
import QubicCore.Library.SquareRoot

/-!
# Pools, liquidity and fees of QSWAP

The procedures that create pools, add and remove liquidity, the ones that only pass assets on, and
the distribution of the earned fees at the end of a tick.
-/

namespace QubicCore.Contracts.Qswap

variable {x y z : Int}

/-! ## Initial state -/

def initialState (investRewardsId : M256i) : State where
  rates := ⟨30, 3, 27, 5, 1⟩
  poolCreationFeeRate := 20
  investRewardsId := investRewardsId
  investRewardsEarnedFee := 0
  investRewardsDistributedAmount := 0
  shareholderEarnedFee := 0
  shareholderDistributedAmount := 0
  mPoolBasicStates _ := ⟨0, 0, 0, 0, 0⟩
  mLiquidities := ⟨fun _ => [], 0⟩
  qxEarnedFee := 0
  qxDistributedAmount := 0
  burnEarnedFee := 0
  burnedAmount := 0
  cachedIssuanceFee := 0
  cachedTransferFee := 0

/-- The fees that `BEGIN_EPOCH` reads from QX. -/
def beginEpoch (s : State) (assetIssuanceFee transferFee : Nat) : State :=
  { s with cachedIssuanceFee := assetIssuanceFee, cachedTransferFee := transferFee }

def State.earnForShareholders (s : State) (fee : Int) : State :=
  { s with shareholderEarnedFee := uint64 (s.shareholderEarnedFee + fee) }

def State.poolCreationFee (s : State) : Nat :=
  (uint64 (s.cachedIssuanceFee * s.poolCreationFeeRate)).toNat / QSWAP_FEE_BASE_100 % 2 ^ 32

/-- The `sint64` root of the product of two amounts. The sums of the loop stay below `2 ^ 128`. -/
def sqrt (a b : Int) : Int :=
  if a = b then a
  else sint64 (low (Library.SquareRoot.root 64 (uint128 (wide a * wide b))))

/-- The fee that a record has earned since it was written. -/
def LiquidityInfo.settle (info : LiquidityInfo) (accFeePerLPX64 : Nat) : LiquidityInfo :=
  let pending := uint128 (wide info.liquidity *
    uint128 (accFeePerLPX64 + (2 ^ 128 - info.feeDebtX64)))
  { info with
    accumulatedFee := uint64 (info.accumulatedFee + high pending)
    feeDebtX64 := accFeePerLPX64 }

section

variable {W : Type} (qpi : Qpi W) (call : Invocation) (a : Asset) (s : State) (w : W)

def giveBackReward : W :=
  if call.invocationReward > 0 then
    (qpi.transfer call.invocator call.invocationReward w).2
  else w

def giveBackAbove (fee : Int) : W :=
  if call.invocationReward > fee then
    (qpi.transfer call.invocator (call.invocationReward - fee) w).2
  else w

/-! ## Assets -/

def issueAsset (assetName : Nat) (numberOfShares numberOfDecimalPlaces : Int)
    (unitOfMeasurement : Nat) : Int × State × W :=
  if call.invocationReward < s.cachedIssuanceFee then (0, s, giveBackReward qpi call w)
  else if numberOfShares ≤ 0 ∨ numberOfDecimalPlaces < 0 then (0, s, giveBackReward qpi call w)
  else if qpi.isAssetIssued call.invocator assetName w then (0, s, giveBackReward qpi call w)
  else
    let issued := qpi.issueAsset assetName call.invocator numberOfDecimalPlaces numberOfShares
      unitOfMeasurement w
    if issued.1 = 0 then
      (0, s, (qpi.transfer call.invocator call.invocationReward issued.2).2)
    else
      (issued.1, s.earnForShareholders s.cachedIssuanceFee,
        giveBackAbove qpi call issued.2 s.cachedIssuanceFee)

def transferShareOwnershipAndPossession (newOwnerAndPossessor : M256i) (amount : Int) :
    Int × State × W :=
  if call.invocationReward < s.cachedTransferFee then
    (0, s, (qpi.transfer call.invocator call.invocationReward w).2)
  else if amount ≤ 0 then (0, s, giveBackReward qpi call w)
  else if sharesOf qpi a w call.invocator < amount then (0, s, giveBackReward qpi call w)
  else
    let sent := qpi.transferShareOwnershipAndPossession a.assetName a.issuer call.invocator
      call.invocator amount newOwnerAndPossessor w
    if sent.1 < 0 then (0, s, (qpi.transfer call.invocator call.invocationReward sent.2).2)
    else (amount, s.earnForShareholders s.cachedTransferFee,
      giveBackAbove qpi call sent.2 s.cachedTransferFee)

def setInvestRewardsInfo (newInvestRewardsId : M256i) : Bool × State :=
  if call.invocator ≠ s.investRewardsId then (false, s)
  else (true, { s with investRewardsId := newInvestRewardsId })

def transferShareManagementRights (numberOfShares : Int) (newManagingContractIndex : Nat) :
    Int × W :=
  if sharesOf qpi a w call.invocator ≥ numberOfShares then
    let released := qpi.releaseShares a.issuer a.assetName call.invocator call.invocator
      numberOfShares newManagingContractIndex newManagingContractIndex call.invocationReward w
    if released.1 ≥ 0 then (numberOfShares, giveBackAbove qpi call released.2 released.1)
    else (0, giveBackReward qpi call released.2)
  else (0, giveBackReward qpi call w)

/-! ## Pools -/

def vacantSlot : Option Nat :=
  (List.range QSWAP_MAX_POOL).find? fun i => (s.mPoolBasicStates i).poolID = 0

/-- A record of the older kind that belongs to the issuer of another pool. -/
def legacyFound : Bool :=
  let key := word3 a.issuer ^^^ BitVec.ofNat 64 a.assetName
  (s.mLiquidities.head? (.pov (withWord3 0 key))).isSome ∨
    (s.mLiquidities.head? (.pov (withWord3 0 (key ^^^ 0x8000000000000000)))).isSome

def createPool : Bool × State × W :=
  let refund := (qpi.transfer call.invocator call.invocationReward w).2
  if call.invocationReward < s.poolCreationFee then (false, s, giveBackReward qpi call w)
  else if ¬qpi.isAssetIssued a.issuer a.assetName w then (false, s, refund)
  else if (findPoolSlotReadOnly s a).isSome then (false, s, refund)
  else if legacyFound a s then (false, s, refund)
  else match vacantSlot s with
    | none => (false, s, refund)
    | some poolSlot =>
      (true, (s.setPool poolSlot ⟨poolID a, 0, 0, 0, 0⟩).earnForShareholders s.poolCreationFee,
        giveBackAbove qpi call w s.poolCreationFee)

/-! ## Adding liquidity -/

structure AddLiquidityOutput where
  (userIncreaseLiquidity quAmount assetAmount : Int)

def refuseDeposit : AddLiquidityOutput × State × W :=
  (⟨0, 0, 0⟩, s, (qpi.transfer call.invocator call.invocationReward w).2)

variable (pool : PoolBasicState)

def depositAmounts (quAmountDesired assetAmountDesired quAmountMin assetAmountMin : Int) : Option
    (Int × Int) :=
  if pool.totalLiquidity = 0 then some (quAmountDesired, assetAmountDesired)
  else
    let assetOptimalAmount := quoteEquivalentAmountB quAmountDesired pool.reservedQuAmount
      pool.reservedAssetAmount
    if assetOptimalAmount = -1 then none
    else if assetOptimalAmount ≤ assetAmountDesired then
      if assetOptimalAmount < assetAmountMin then none
      else some (quAmountDesired, assetOptimalAmount)
    else
      let quOptimalAmount := quoteEquivalentAmountB assetAmountDesired pool.reservedAssetAmount
        pool.reservedQuAmount
      if quOptimalAmount = -1 then none
      else if quOptimalAmount > quAmountDesired then none
      else if quOptimalAmount < quAmountMin then none
      else some (quOptimalAmount, assetAmountDesired)

/-- Shares for a deposit. Unlike in a swap, nothing is returned if less came. -/
def depositShares (amount : Int) : Bool × W :=
  let before := sharesOf qpi a w SELF
  let w := (qpi.transferShareOwnershipAndPossession a.assetName a.issuer call.invocator
    call.invocator amount SELF w).2
  (¬sint64 (sharesOf qpi a w SELF - before) < amount, w)

def PoolBasicState.deposit (qu asset increase : Int) : PoolBasicState :=
  { pool with
    reservedQuAmount := sint64 (pool.reservedQuAmount + qu)
    reservedAssetAmount := sint64 (pool.reservedAssetAmount + asset)
    totalLiquidity := sint64 (pool.totalLiquidity + increase) }

/-- The end of a deposit: the new records are written and the excess goes back. -/
def finishDeposit (poolSlot : Nat) (qu asset increase userIncrease : Int)
    (liquidities : Liquidities) : AddLiquidityOutput × State × W :=
  (⟨userIncrease, qu, asset⟩,
    { s.earnAdditionalFee with mLiquidities := liquidities }.setPool poolSlot
      ((s.mPoolBasicStates poolSlot).deposit qu asset increase),
    if call.invocationReward - QSWAP_ADDITIONAL_FEE > qu then
      (qpi.transfer call.invocator (call.invocationReward - qu - QSWAP_ADDITIONAL_FEE) w).2
    else w)

def firstDeposit (poolSlot : Nat) (qu asset : Int) : AddLiquidityOutput × State × W :=
  let increase := sqrt qu asset
  if increase < QSWAP_MIN_LIQUIDITY then refuseDeposit qpi call s w
  else if Liquidities.capacity - s.mLiquidities.population < 2 then refuseDeposit qpi call s w
  else
    let received := depositShares qpi call a w asset
    if received.1 then
      finishDeposit qpi call s received.2 poolSlot qu asset increase
        (increase - QSWAP_MIN_LIQUIDITY)
        ((s.mLiquidities.add (.k12 (poolID a) SELF) ⟨QSWAP_MIN_LIQUIDITY, 0, 0⟩).add
          (.k12 (poolID a) call.invocator) ⟨increase - QSWAP_MIN_LIQUIDITY, 0, 0⟩)
    else refuseDeposit qpi call s received.2

def increaseFor (qu asset : Int) : Option Int :=
  let tmpIncLiq0 := narrow (uint128 (wide qu * wide pool.totalLiquidity) /
    wide pool.reservedQuAmount)
  let tmpIncLiq1 := narrow (uint128 (wide asset * wide pool.totalLiquidity) /
    wide pool.reservedAssetAmount)
  if tmpIncLiq0 = -1 ∨ tmpIncLiq1 = -1 then none
  else
    let increase := if tmpIncLiq0 < tmpIncLiq1 then tmpIncLiq0 else tmpIncLiq1
    if increase = 0 then none else some increase

def Liquidities.credit (l : Liquidities) (key : LiquidityKey) (info : Option LiquidityInfo)
    (increase : Int) (accFeePerLPX64 : Nat) : Liquidities :=
  match info with
  | none => l.add key ⟨increase, accFeePerLPX64, 0⟩
  | some info =>
    let liquidity := sint64 (info.liquidity + increase)
    l.replace key { info.settle accFeePerLPX64 with liquidity := liquidity }

def furtherDeposit (poolSlot : Nat) (qu asset : Int) : AddLiquidityOutput × State × W :=
  let pool := s.mPoolBasicStates poolSlot
  match increaseFor pool qu asset with
  | none => refuseDeposit qpi call s w
  | some increase =>
    let resolved := resolveLiquidityRecord qpi s w (poolID a) call.invocator
    if resolved.2.isNone ∧ resolved.1.mLiquidities.population = Liquidities.capacity then
      refuseDeposit qpi call resolved.1 w
    else
      let received := depositShares qpi call a w asset
      if received.1 then
        finishDeposit qpi call resolved.1 received.2 poolSlot qu asset increase increase
          (resolved.1.mLiquidities.credit (.k12 (poolID a) call.invocator) resolved.2 increase
            pool.accFeePerLPX64)
      else refuseDeposit qpi call resolved.1 received.2

def addLiquidity (assetAmountDesired quAmountMin assetAmountMin : Int) :
    AddLiquidityOutput × State × W :=
  if call.invocationReward ≤ QSWAP_ADDITIONAL_FEE then refuseDeposit qpi call s w
  else if assetAmountDesired ≤ 0 ∨ quAmountMin < 0 ∨ assetAmountMin < 0 then
    refuseDeposit qpi call s w
  else match findPoolSlotReadOnly s a with
    | none => refuseDeposit qpi call s w
    | some poolSlot =>
      match depositAmounts (s.mPoolBasicStates poolSlot)
        (call.invocationReward - QSWAP_ADDITIONAL_FEE) assetAmountDesired quAmountMin
        assetAmountMin with
      | none => refuseDeposit qpi call s w
      | some (qu, asset) =>
        if call.invocationReward < qu ∨ sharesOf qpi a w call.invocator < asset then
          refuseDeposit qpi call s w
        else if (s.mPoolBasicStates poolSlot).totalLiquidity = 0 then
          firstDeposit qpi call a s w poolSlot qu asset
        else furtherDeposit qpi call a s w poolSlot qu asset

/-! ## Removing liquidity -/

def redeemed (burnLiquidity reserve totalLiquidity : Int) : Int :=
  sint64 (low (uint128 (wide burnLiquidity * wide reserve) / wide totalLiquidity))

def PoolBasicState.withdraw (qu asset burnLiquidity : Int) : PoolBasicState :=
  { pool with
    totalLiquidity := sint64 (pool.totalLiquidity - burnLiquidity)
    reservedQuAmount := sint64 (pool.reservedQuAmount - qu)
    reservedAssetAmount := sint64 (pool.reservedAssetAmount - asset) }

def Liquidities.debit (l : Liquidities) (key : LiquidityKey) (info : LiquidityInfo)
    (burnLiquidity : Int) (accFeePerLPX64 : Nat) : Liquidities :=
  let liquidity := sint64 (info.liquidity - burnLiquidity)
  if liquidity = 0 then l.remove key
  else l.replace key { info.settle accFeePerLPX64 with liquidity := liquidity }

structure RemoveLiquidityOutput where
  (quAmount assetAmount : Int)

/-- Refuse a withdrawal after the part of the reward above the fee went back. -/
def refuseWithdrawal : RemoveLiquidityOutput × State × W :=
  (⟨0, 0⟩, s, (qpi.transfer call.invocator QSWAP_ADDITIONAL_FEE w).2)

def withdraw (poolSlot : Nat) (info : LiquidityInfo) (burnLiquidity qu asset : Int) :
    RemoveLiquidityOutput × State × W :=
  let pool := s.mPoolBasicStates poolSlot
  (⟨qu, asset⟩,
    { s.earnAdditionalFee with
      mLiquidities := s.mLiquidities.debit (.k12 (poolID a) call.invocator) info burnLiquidity
        pool.accFeePerLPX64 }.setPool poolSlot (pool.withdraw qu asset burnLiquidity),
    (sendShares qpi call a (qpi.transfer call.invocator qu w).2 asset).2)

def removeLiquidity (burnLiquidity quAmountMin assetAmountMin : Int) :
    RemoveLiquidityOutput × State × W :=
  if call.invocationReward < QSWAP_ADDITIONAL_FEE then
    (⟨0, 0⟩, s, (qpi.transfer call.invocator call.invocationReward w).2)
  else
    let w := returnExcess qpi call w
    if quAmountMin < 0 ∨ assetAmountMin < 0 ∨ burnLiquidity ≤ 0 then refuseWithdrawal qpi call s w
    else if ¬qpi.isAssetIssued a.issuer a.assetName w then refuseWithdrawal qpi call s w
    else match findPoolSlotReadOnly s a with
      | none => refuseWithdrawal qpi call s w
      | some poolSlot =>
        let pool := s.mPoolBasicStates poolSlot
        match resolveLiquidityRecord qpi s w (poolID a) call.invocator with
        | (s, none) => refuseWithdrawal qpi call s w
        | (s, some info) =>
          if info.liquidity < burnLiquidity ∨ pool.totalLiquidity < burnLiquidity then
            refuseWithdrawal qpi call s w
          else
            let qu := redeemed burnLiquidity pool.reservedQuAmount pool.totalLiquidity
            let asset := redeemed burnLiquidity pool.reservedAssetAmount pool.totalLiquidity
            if qu < quAmountMin ∨ asset < assetAmountMin then refuseWithdrawal qpi call s w
            else withdraw qpi call a s w poolSlot info burnLiquidity qu asset

/-! ## The end of a tick -/

def distributeInvestRewards : State × W :=
  if s.investRewardsEarnedFee > s.investRewardsDistributedAmount then
    let toDistribute := s.investRewardsEarnedFee - s.investRewardsDistributedAmount
    let sent := qpi.transfer s.investRewardsId (sint64 toDistribute) w
    if sent.1 < 0 then (s, sent.2)
    else
      let distributed := uint64 (s.investRewardsDistributedAmount + toDistribute)
      ({ s with investRewardsDistributedAmount := distributed }, sent.2)
  else (s, w)

def distributeQxFees : State × W :=
  if s.qxEarnedFee > s.qxDistributedAmount then
    let toDistribute := s.qxEarnedFee - s.qxDistributedAmount
    let sent := qpi.transfer (contractId QX_CONTRACT_INDEX) (sint64 toDistribute) w
    if sent.1 < 0 then (s, sent.2)
    else ({ s with qxDistributedAmount := uint64 (s.qxDistributedAmount + toDistribute) }, sent.2)
  else (s, w)

def distributeShareholderFees : State × W :=
  if s.shareholderEarnedFee > s.shareholderDistributedAmount then
    let dividendPerComputor :=
      (s.shareholderEarnedFee - s.shareholderDistributedAmount) / NUMBER_OF_COMPUTORS
    if dividendPerComputor > 0 then
      let paid := qpi.distributeDividends (sint64 dividendPerComputor) w
      if paid.1 then
        let distributed := uint64 (s.shareholderDistributedAmount +
          dividendPerComputor * NUMBER_OF_COMPUTORS)
        ({ s with shareholderDistributedAmount := distributed }, paid.2)
      else (s, paid.2)
    else (s, w)
  else (s, w)

def burnFees : State × W :=
  if s.burnEarnedFee > s.burnedAmount then
    let toBurn := s.burnEarnedFee - s.burnedAmount
    ({ s with burnedAmount := uint64 (s.burnedAmount + toBurn) }, (qpi.burn (sint64 toBurn) w).2)
  else (s, w)

def endTick : State × W :=
  let c := distributeInvestRewards qpi s w
  let c := distributeQxFees qpi c.1 c.2
  let c := distributeShareholderFees qpi c.1 c.2
  burnFees qpi c.1 c.2

end

/-! ## What the amounts are -/

lemma mulDiv_eq (hx : 0 ≤ x) (hx' : x < 2 ^ 63) (hy : 0 ≤ y) (hy' : y < 2 ^ 63)
    (hz : 0 ≤ z) (hz' : z < 2 ^ 63) :
    ((uint128 (wide x * wide y) / wide z : Nat) : Int) = x * y / z := by
  lift x to Nat using hx
  lift y to Nat using hy
  lift z to Nat using hz
  have hprod : x * y ≤ 2 ^ 63 * 2 ^ 63 := Nat.mul_le_mul (by omega) (by omega)
  rw [wide_natCast (by omega), wide_natCast (by omega), wide_natCast (by omega),
    uint128_eq (by omega)]
  rfl

lemma sqrt_spec (hx : 0 ≤ x) (hx' : x < 2 ^ 60) (hy : 0 ≤ y) (hy' : y < 2 ^ 60) :
    sqrt x y * sqrt x y ≤ x * y ∧ 0 ≤ sqrt x y := by
  unfold sqrt
  split_ifs with heq
  · subst heq
    exact ⟨le_rfl, hx⟩
  lift x to Nat using hx
  lift y to Nat using hy
  have hprod : x * y ≤ 2 ^ 60 * 2 ^ 60 := Nat.mul_le_mul (by omega) (by omega)
  rw [wide_natCast (by omega), wide_natCast (by omega), uint128_eq (by omega),
    Library.SquareRoot.root_eq_sqrt (by norm_num; omega)]
  have hroot : Nat.sqrt (x * y) < 2 ^ 61 := Nat.sqrt_lt.2 (by omega)
  rw [low_eq (by omega), sint64_eq (by omega) (by omega)]
  exact ⟨by exact_mod_cast Nat.sqrt_le (x * y), by omega⟩

lemma quoteEquivalentAmountB_nonneg (h : quoteEquivalentAmountB x y z ≠ -1) :
    0 ≤ quoteEquivalentAmountB x y z := by
  unfold quoteEquivalentAmountB at h ⊢
  rw [(narrow_of_ne h).1]
  exact Int.natCast_nonneg _

lemma depositAmounts_some {pool : PoolBasicState} {quAmountDesired assetAmountDesired quAmountMin
    assetAmountMin qu asset : Int} (hqu : 0 ≤ quAmountDesired) (hasset : 0 ≤ assetAmountDesired)
    (h : depositAmounts pool quAmountDesired assetAmountDesired quAmountMin assetAmountMin =
      some (qu, asset)) : 0 ≤ qu ∧ qu ≤ quAmountDesired ∧ 0 ≤ asset := by
  unfold depositAmounts at h
  dsimp only at h
  split_ifs at h with hzero hoverflow hoptimal hmin hoverflow' hmore hmin'
  · obtain ⟨rfl, rfl⟩ := Prod.mk.inj (Option.some.inj h)
    exact ⟨hqu, le_rfl, hasset⟩
  · obtain ⟨rfl, rfl⟩ := Prod.mk.inj (Option.some.inj h)
    exact ⟨hqu, le_rfl, quoteEquivalentAmountB_nonneg hoverflow⟩
  · obtain ⟨rfl, rfl⟩ := Prod.mk.inj (Option.some.inj h)
    exact ⟨quoteEquivalentAmountB_nonneg hoverflow', not_lt.1 hmore, hasset⟩

lemma narrow_mulDiv (hx : 0 ≤ x) (hx' : x < 2 ^ 63) (hy : 0 ≤ y) (hy' : y < 2 ^ 63)
    (hz : 0 < z) (hz' : z < 2 ^ 63)
    (h : narrow (uint128 (wide x * wide y) / wide z) ≠ -1) :
    0 ≤ narrow (uint128 (wide x * wide y) / wide z) ∧
      narrow (uint128 (wide x * wide y) / wide z) * z ≤ x * y := by
  rw [(narrow_of_ne h).1, mulDiv_eq hx hx' hy hy' hz.le hz']
  exact ⟨Int.ediv_nonneg (mul_nonneg hx hy) hz.le, Int.ediv_mul_le _ hz.ne'⟩

/-- The liquidity issued is in proportion to both reserves. -/
lemma increaseFor_some {pool : PoolBasicState} {qu asset increase : Int} (hqu : 0 ≤ qu)
    (hqu' : qu < 2 ^ 63) (hasset : 0 ≤ asset) (hasset' : asset < 2 ^ 63)
    (ht : 0 ≤ pool.totalLiquidity) (ht' : pool.totalLiquidity < 2 ^ 63)
    (hQ : 0 < pool.reservedQuAmount) (hQ' : pool.reservedQuAmount < 2 ^ 63)
    (hA : 0 < pool.reservedAssetAmount) (hA' : pool.reservedAssetAmount < 2 ^ 63)
    (h : increaseFor pool qu asset = some increase) :
    0 < increase ∧ increase * pool.reservedQuAmount ≤ qu * pool.totalLiquidity ∧
      increase * pool.reservedAssetAmount ≤ asset * pool.totalLiquidity := by
  unfold increaseFor at h
  dsimp only at h
  split_ifs at h with hoverflow hless hzero hzero
  all_goals
    obtain ⟨hne₀, hne₁⟩ := not_or.1 hoverflow
    obtain ⟨hpos₀, hle₀⟩ := narrow_mulDiv hqu hqu' ht ht' hQ hQ' hne₀
    obtain ⟨hpos₁, hle₁⟩ := narrow_mulDiv hasset hasset' ht ht' hA hA' hne₁
    obtain rfl := Option.some.inj h
  · exact ⟨by omega, hle₀, (mul_le_mul_of_nonneg_right hless.le hA.le).trans hle₁⟩
  · exact ⟨by omega, (mul_le_mul_of_nonneg_right (not_lt.1 hless) hQ.le).trans hle₀, hle₁⟩

lemma redeemed_eq {burnLiquidity reserve totalLiquidity : Int} (hburn : 0 ≤ burnLiquidity)
    (hle : burnLiquidity ≤ totalLiquidity) (htotal : 0 < totalLiquidity)
    (htotal' : totalLiquidity < 2 ^ 63) (hreserve : 0 ≤ reserve) (hreserve' : reserve < 2 ^ 63) :
    redeemed burnLiquidity reserve totalLiquidity = burnLiquidity * reserve / totalLiquidity := by
  have hdiv := mulDiv_eq hburn (by omega) hreserve hreserve' htotal.le htotal'
  have hmem := Library.ConstantProduct.redeem_mem hreserve htotal hburn hle
  rw [← hdiv] at hmem ⊢
  rw [redeemed, low_eq (by omega), sint64_eq (by omega) (by omega)]

end QubicCore.Contracts.Qswap
