import QubicCore.Platform

/-!
# The interface between contracts and the node

Contracts reach the rest of the node through the functions of `qpi`. They are modelled for an
arbitrary state `W` of the node and arbitrary functions on it; what a result needs of these
functions is stated where it is needed.
-/

namespace QubicCore.Contracts

variable {x : Nat}

/-- The functions of `qpi` that the contracts call, on the state `W` of the node. The calling
contract is fixed. -/
structure Qpi (W : Type) where
  transfer : (destination : M256i) → (amount : Int) → W → Int × W
  burn : (amount : Int) → W → Int × W
  distributeDividends : (amountPerShare : Int) → W → Bool × W
  isAssetIssued : (issuer : M256i) → (assetName : Nat) → W → Bool
  issueAsset : (name : Nat) → (issuer : M256i) → (numberOfDecimalPlaces numberOfShares : Int) →
    (unitOfMeasurement : Nat) → W → Int × W
  numberOfPossessedShares : (assetName : Nat) → (issuer owner possessor : M256i) →
    (ownershipManagingContractIndex possessionManagingContractIndex : Nat) → W → Int
  transferShareOwnershipAndPossession : (assetName : Nat) → (issuer owner possessor : M256i) →
    (numberOfShares : Int) → (newOwnerAndPossessor : M256i) → W → Int × W
  releaseShares : (issuer : M256i) → (assetName : Nat) → (owner possessor : M256i) →
    (numberOfShares : Int) →
    (destinationOwnershipManagingContractIndex destinationPossessionManagingContractIndex : Nat) →
    (offeredTransferFee : Int) → W → Int × W

structure Asset where
  issuer : M256i
  assetName : Nat
deriving DecidableEq

def Asset.issuerAndAssetName (a : Asset) : M256i :=
  ⟨BitVec.ofNat 64 a.assetName ++ a.issuer.bits.setWidth 192⟩

/-- Who calls a procedure, and the amount that came with the call. -/
structure Invocation where
  invocator : M256i
  invocationReward : Int

def contractId (contractIndex : Nat) : M256i := ⟨BitVec.ofNat 256 contractIndex⟩

/-! ## 128-bit arithmetic -/

/-- The value of a `uint128` expression. -/
def uint128 (x : Nat) : Nat := x % 2 ^ 128

/-- The conversion `uint128(x)` of a 64-bit value. -/
def wide (x : Int) : Nat := (uint64 x).toNat

def low (x : Nat) : Nat := x % 2 ^ 64

/-- The word `x.high`. -/
def high (x : Nat) : Nat := x / 2 ^ 64

lemma uint128_eq (h : x < 2 ^ 128) : uint128 x = x := Nat.mod_eq_of_lt h

@[simp] lemma wide_natCast {n : Nat} (h : n < 2 ^ 64) : wide (n : Int) = n := by
  rw [wide, uint64_eq (by omega) (by omega), Int.toNat_natCast]

lemma low_eq (h : x < 2 ^ 64) : low x = x := Nat.mod_eq_of_lt h

lemma high_eq_zero : high x = 0 ↔ x < 2 ^ 64 := by
  rw [high, Nat.div_eq_zero_iff]
  omega

end QubicCore.Contracts
