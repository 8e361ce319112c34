import QubicCore.Contracts.Qpi

/-!
# The contract QSWAP

Pools of an asset against QU. The reserves of a pool follow a constant product; the shares of the
liquidity providers are kept as liquidity records. Amounts are `sint64`, fee counters `uint64`,
and quotes are computed in `uint128`.

The key of a liquidity record is the K12 hash of pool and account, which is kept as the pair
itself. Records from before these keys are found under a xor of the two ids; the container of the
records is a map from keys to lists, as the ordered lists of a `Collection` are.
-/

namespace QubicCore.Contracts.Qswap

def QSWAP_MAX_POOL : Nat := 8192
def QSWAP_MAX_USER_PER_POOL : Nat := 256
def QSWAP_MIN_LIQUIDITY : Int := 1000
def QSWAP_ADDITIONAL_FEE : Int := 100000
def QSWAP_SWAP_FEE_BASE : Nat := 10000
def QSWAP_FEE_BASE_100 : Nat := 100

def SELF_INDEX : Nat := 13
def SELF : M256i := contractId SELF_INDEX
def QX_CONTRACT_INDEX : Nat := 1

structure PoolBasicState where
  poolID : M256i
  (reservedQuAmount reservedAssetAmount totalLiquidity : Int)
  accFeePerLPX64 : Nat

structure LiquidityInfo where
  liquidity : Int
  feeDebtX64 : Nat
  accumulatedFee : Int

/-- The key of a liquidity record: a hash, or an id of the older kind. -/
inductive LiquidityKey where
  | k12 (poolID account : M256i)
  | pov (key : M256i)
deriving DecidableEq

structure Liquidities where
  elements : LiquidityKey → List LiquidityInfo
  population : Nat

structure FeeRates where
  (swapFeeRate investRewardsFeeRate shareholderFeeRate qxFeeRate burnFeeRate : Nat)

structure State where
  rates : FeeRates
  poolCreationFeeRate : Nat
  investRewardsId : M256i
  (investRewardsEarnedFee investRewardsDistributedAmount shareholderEarnedFee : Int)
  shareholderDistributedAmount : Int
  mPoolBasicStates : Nat → PoolBasicState
  mLiquidities : Liquidities
  (qxEarnedFee qxDistributedAmount burnEarnedFee burnedAmount : Int)
  (cachedIssuanceFee cachedTransferFee : Nat)

def poolID (a : Asset) : M256i := a.issuerAndAssetName

/-! ## Liquidity records -/

namespace Liquidities

def capacity : Nat := QSWAP_MAX_POOL * QSWAP_MAX_USER_PER_POOL

def head? (l : Liquidities) (key : LiquidityKey) : Option LiquidityInfo := (l.elements key).head?

variable (l : Liquidities) (key : LiquidityKey)

def add (info : LiquidityInfo) : Liquidities :=
  if l.population < capacity then
    ⟨Function.update l.elements key (l.elements key ++ [info]), l.population + 1⟩
  else l

def replace (info : LiquidityInfo) : Liquidities :=
  { l with elements := Function.update l.elements key (info :: (l.elements key).tail) }

def remove : Liquidities := ⟨Function.update l.elements key (l.elements key).tail, l.population - 1⟩

end Liquidities

/-- The older key of an account in a pool. -/
def liquidityPov (poolID entity : M256i) : M256i := ⟨entity.bits ^^^ poolID.bits⟩

/-- True if the account equals the issuer in its first three words. -/
def sharesIssuerPrefix (account issuer : M256i) : Bool :=
  account.bits.setWidth 192 = issuer.bits.setWidth 192

/-- The word `u64._3` of an id, and the id with this word replaced. -/
def withWord3 (k : M256i) (word : BitVec 64) : M256i := ⟨word ++ k.bits.setWidth 192⟩

def word3 (k : M256i) : BitVec 64 := (k.bits >>> 192).setWidth 64

section

variable {W : Type} (qpi : Qpi W)

/-- Pools whose issuer-side key of the older kind is `key`. -/
def countIssuerKeyPools (s : State) (w : W) (key : BitVec 64) : Nat :=
  ((List.range QSWAP_MAX_POOL).filter fun i =>
    let poolID := (s.mPoolBasicStates i).poolID
    let candidate := withWord3 poolID (key ^^^ word3 poolID)
    poolID ≠ 0 ∧ (s.mLiquidities.head? (.pov (liquidityPov poolID SELF))).isSome ∧
      (qpi.isAssetIssued candidate (word3 poolID).toNat w ∨
        qpi.isAssetIssued (withWord3 candidate (word3 candidate ^^^ 0x8000000000000000))
          (word3 poolID).toNat w)).length

def findLiquidityRecord (s : State) (w : W) (poolID account : M256i) : Option LiquidityKey :=
  if (s.mLiquidities.head? (.k12 poolID account)).isSome then some (.k12 poolID account)
  -- contracts other than QSWAP itself have no records of the older kind
  else if account ≠ SELF ∧ account.u64 1 = 0 ∧ account.u64 2 = 0 ∧ account.u64 3 = 0 then none
  else if (s.mLiquidities.head? (.pov (liquidityPov poolID account))).isNone then none
  else if sharesIssuerPrefix account poolID ∧
      countIssuerKeyPools qpi s w (word3 account ^^^ word3 poolID) ≠ 1 then none
  else some (.pov (liquidityPov poolID account))

def resolveLiquidityRecord (s : State) (w : W) (poolID account : M256i) :
    State × Option LiquidityInfo :=
  match findLiquidityRecord qpi s w poolID account with
  | none => (s, none)
  | some (.k12 poolID account) => (s, s.mLiquidities.head? (.k12 poolID account))
  | some (.pov key) =>
    match s.mLiquidities.head? (.pov key) with
    | none => (s, none)
    | some info =>
      ({ s with mLiquidities := (s.mLiquidities.remove (.pov key)).add (.k12 poolID account) info },
        some info)

end

variable (s : State) (a : Asset)

def findPoolSlotReadOnly : Option Nat :=
  (List.range QSWAP_MAX_POOL).find? fun i => (s.mPoolBasicStates i).poolID = Qswap.poolID a

/-! ## Quotes -/

/-- A `uint128` result as `sint64`, or -1. -/
def narrow (x : Nat) : Int := if high x ≠ 0 ∨ low x > 0x7FFFFFFFFFFFFFFF then -1 else low x

/-- The `uint32` difference `QSWAP_SWAP_FEE_BASE - fee`. -/
def feeComplement (fee : Nat) : Nat := (((QSWAP_SWAP_FEE_BASE : Int) - fee) % 2 ^ 32).toNat

/-- The quotient `amount * rate / base`. -/
def quoteEquivalentAmountB (amountADesired reserveA reserveB : Int) : Int :=
  narrow (uint128 (wide amountADesired * wide reserveB) / wide reserveA)

def getAmountOutTakeFeeFromInToken (amountIn reserveIn reserveOut : Int) (fee : Nat) : Int :=
  if amountIn ≥ MAX_AMOUNT then -1
  else
    let amountInWithFee := uint128 (wide amountIn * feeComplement fee)
    let numerator := uint128 (wide reserveOut * amountInWithFee)
    let denominator := uint128 (uint128 (wide reserveIn * QSWAP_SWAP_FEE_BASE) + amountInWithFee)
    narrow (numerator / denominator)

def getAmountInTakeFeeFromInToken (amountOut reserveIn reserveOut : Int) (fee : Nat) : Int :=
  if amountOut ≥ MAX_AMOUNT then -1
  else
    let numerator := uint128 (uint128 (wide reserveIn * wide amountOut) * QSWAP_SWAP_FEE_BASE)
    let denominator := uint128 (wide (sint64 (reserveOut - amountOut)) * feeComplement fee)
    narrow (uint128 (numerator / denominator + 1))

def getAmountOutTakeFeeFromOutToken (amountIn reserveIn reserveOut : Int) : Int :=
  if amountIn ≥ MAX_AMOUNT then -1
  else
    let numerator := uint128 (wide reserveOut * wide amountIn)
    let denominator := wide (sint64 (reserveIn + amountIn))
    narrow (numerator / denominator)

def getAmountInTakeFeeFromOutToken (amountOut reserveIn reserveOut : Int) (fee : Nat) : Int :=
  if amountOut ≥ MAX_AMOUNT then -1
  else
    let numerator := uint128 (uint128 (wide reserveIn * wide amountOut) * QSWAP_SWAP_FEE_BASE)
    let tmpRes := uint128 (wide reserveOut * feeComplement fee)
    let denominator := uint128 (wide amountOut * QSWAP_SWAP_FEE_BASE)
    if tmpRes ≤ denominator then -1
    else narrow (uint128 (numerator / (tmpRes - denominator) + 1))

def afterSwapFee (rates : FeeRates) (gross : Int) : Int :=
  sint64 (low (uint128 (wide gross * feeComplement rates.swapFeeRate) / QSWAP_SWAP_FEE_BASE))

end QubicCore.Contracts.Qswap
