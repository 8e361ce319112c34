import QubicCore.Contracts.Qpi

/-!
# The contract MSVAULT

Vaults of QU and shares that several owners release together. An owner files a request with an
amount and a destination; the payment is made once enough owners have filed the same request.
Amounts and fees are `uint64`. Where a fee is compared with an invocation reward it is converted to
`sint64`.
-/

namespace QubicCore.Contracts.MsVault

open Function List

def MSVAULT_MAX_OWNERS : Nat := 16
def MSVAULT_MAX_COOWNER : Nat := 8
def MSVAULT_MAX_VAULTS : Nat := 131072
def MSVAULT_MAX_ASSET_TYPES : Nat := 8
def MSVAULT_ASSET_NAME : Nat := 23727827095802701

def MSVAULT_REGISTERING_FEE : Nat := 5000000
def MSVAULT_RELEASE_FEE : Nat := 100000
def MSVAULT_RELEASE_RESET_FEE : Nat := 1000000
def MSVAULT_HOLDING_FEE : Nat := 500000
def MSVAULT_VOTE_FEE_CHANGE_FEE : Nat := 10000000
def MSVAULT_REVOKE_FEE : Nat := 100
def MSVAULT_MAX_FEE_VOTES : Nat := 64

def SELF_INDEX : Nat := 11
def SELF : M256i := contractId SELF_INDEX
def QX_CONTRACT_INDEX : Nat := 1
def NULL_ID : M256i := 0

/-- The functions of `qpi`, with the shares of an asset counted over all managing contracts. -/
structure Host (W : Type) extends Qpi W where
  numberOfShares : (asset : Asset) → (owner possessor : M256i) → W → Int

structure AssetBalance where
  asset : Asset
  balance : Nat

structure Vault where
  vaultName : M256i
  owners : Nat → M256i
  releaseAmounts : Nat → Nat
  releaseDestinations : Nat → M256i
  (qubicBalance numberOfOwners requiredApprovals : Nat)
  isActive : Bool

structure VaultAssetPart where
  assetBalances : Nat → AssetBalance
  numberOfAssetTypes : Nat
  releaseAssets : Nat → Asset
  releaseAssetAmounts : Nat → Nat
  releaseAssetDestinations : Nat → M256i

structure MsVaultFeeVote where
  (registeringFee releaseFee releaseResetFee holdingFee depositFee : Nat)
deriving DecidableEq

structure State where
  vaults : Nat → Vault
  vaultAssetParts : Nat → VaultAssetPart
  (numberOfActiveVaults totalRevenue totalDistributedToShareholders : Nat)
  feeVotes : Nat → MsVaultFeeVote
  feeVotesOwner : Nat → M256i
  feeVotesScore : Nat → Nat
  feeVotesAddrCount : Nat
  uniqueFeeVotes : Nat → MsVaultFeeVote
  uniqueFeeVotesRanking : Nat → Nat
  (uniqueFeeVotesCount liveRegisteringFee liveReleaseFee liveReleaseResetFee liveHoldingFee : Nat)
  liveDepositFee : Nat

/-- What a procedure returns, and what it leaves behind. -/
structure Result (W : Type) where
  status : Nat
  state : State
  world : W
  /-- The second output of `revokeAssetManagementRights`. -/
  transferredNumberOfShares : Int := 0

/-- The `uint64` sum of two amounts. -/
def addAmount (x y : Nat) : Nat := (x + y) % 2 ^ 64

def noAsset : Asset := ⟨NULL_ID, 0⟩

/-! ## Memory that was never written -/

def emptyVault : Vault where
  vaultName := NULL_ID
  owners := fun _ => NULL_ID
  releaseAmounts := fun _ => 0
  releaseDestinations := fun _ => NULL_ID
  qubicBalance := 0
  numberOfOwners := 0
  requiredApprovals := 0
  isActive := false

def emptyAssetPart : VaultAssetPart where
  assetBalances := fun _ => ⟨noAsset, 0⟩
  numberOfAssetTypes := 0
  releaseAssets := fun _ => noAsset
  releaseAssetAmounts := fun _ => 0
  releaseAssetDestinations := fun _ => NULL_ID

def noVote : MsVaultFeeVote := ⟨0, 0, 0, 0, 0⟩

def initialState : State where
  vaults := fun _ => emptyVault
  vaultAssetParts := fun _ => emptyAssetPart
  numberOfActiveVaults := 0
  totalRevenue := 0
  totalDistributedToShareholders := 0
  feeVotes := fun _ => noVote
  feeVotesOwner := fun _ => NULL_ID
  feeVotesScore := fun _ => 0
  feeVotesAddrCount := 0
  uniqueFeeVotes := fun _ => noVote
  uniqueFeeVotesRanking := fun _ => 0
  uniqueFeeVotesCount := 0
  liveRegisteringFee := MSVAULT_REGISTERING_FEE
  liveReleaseFee := MSVAULT_RELEASE_FEE
  liveReleaseResetFee := MSVAULT_RELEASE_RESET_FEE
  liveHoldingFee := MSVAULT_HOLDING_FEE
  liveDepositFee := 0

/-! ## Vaults -/

namespace Vault

variable (vault : Vault)

/-- The index of an owner; `none` for the index `-1`. -/
def findOwnerIndexInVault (ownerID : M256i) : Option Nat :=
  (range vault.numberOfOwners).find? fun i => vault.owners i = ownerID

def resetReleaseRequests : Vault :=
  { vault with releaseAmounts := fun _ => 0, releaseDestinations := fun _ => NULL_ID }

def request (ownerIndex amount : Nat) (destination : M256i) : Vault :=
  { vault with
    releaseAmounts := update vault.releaseAmounts ownerIndex amount
    releaseDestinations := update vault.releaseDestinations ownerIndex destination }

def approvals (amount : Nat) (destination : M256i) : Nat :=
  (range vault.numberOfOwners).countP fun i =>
    vault.releaseAmounts i = amount ∧ vault.releaseDestinations i = destination

def withdraw (amount : Nat) : Vault :=
  { vault with qubicBalance := vault.qubicBalance - amount }

end Vault

namespace VaultAssetPart

variable (part : VaultAssetPart)

/-- The index of an asset; `none` for the index `-1`. -/
def findAsset (asset : Asset) : Option Nat :=
  (range part.numberOfAssetTypes).find? fun i => (part.assetBalances i).asset = asset

def resetRequests : VaultAssetPart :=
  { part with
    releaseAssets := fun _ => noAsset
    releaseAssetAmounts := fun _ => 0
    releaseAssetDestinations := fun _ => NULL_ID }

def request (ownerIndex : Nat) (asset : Asset) (amount : Nat)
    (destination : M256i) : VaultAssetPart :=
  { part with
    releaseAssets := update part.releaseAssets ownerIndex asset
    releaseAssetAmounts := update part.releaseAssetAmounts ownerIndex amount
    releaseAssetDestinations := update part.releaseAssetDestinations ownerIndex destination }

def approvals (numberOfOwners : Nat) (asset : Asset) (amount : Nat) (destination : M256i) : Nat :=
  (range numberOfOwners).countP fun i =>
    part.releaseAssetAmounts i = amount ∧ part.releaseAssetDestinations i = destination ∧
      part.releaseAssets i = asset

def withdraw (assetIndex amount : Nat) : VaultAssetPart :=
  let ab := part.assetBalances assetIndex
  { part with
    assetBalances :=
      update part.assetBalances assetIndex { ab with balance := ab.balance - amount } }

def add (assetIndex : Option Nat) (asset : Asset) (amount : Nat) : VaultAssetPart :=
  match assetIndex with
  | some i =>
    let ab := part.assetBalances i
    { part with
      assetBalances :=
        update part.assetBalances i { ab with balance := addAmount ab.balance amount } }
  | none =>
    { part with
      assetBalances := update part.assetBalances part.numberOfAssetTypes ⟨asset, amount⟩
      numberOfAssetTypes := part.numberOfAssetTypes + 1 }

end VaultAssetPart

namespace State

def setVault (s : State) (vaultId : Nat) (vault : Vault) : State :=
  { s with vaults := update s.vaults vaultId vault }

def setAssetPart (s : State) (vaultId : Nat) (part : VaultAssetPart) : State :=
  { s with vaultAssetParts := update s.vaultAssetParts vaultId part }

def addRevenue (s : State) (fee : Nat) : State :=
  { s with totalRevenue := addAmount s.totalRevenue fee }

end State

/-! ## Inputs -/

structure RegisterVaultInput where
  vaultName : M256i
  owners : Nat → M256i
  requiredApprovals : Nat

structure DepositAssetInput where
  vaultId : Nat
  asset : Asset
  amount : Nat

structure RevokeInput where
  asset : Asset
  numberOfShares : Int

structure ReleaseToInput where
  (vaultId amount : Nat)
  destination : M256i

structure ReleaseAssetToInput where
  vaultId : Nat
  asset : Asset
  amount : Nat
  destination : M256i

def isValidVaultId (vaultId : Nat) : Bool := vaultId < MSVAULT_MAX_VAULTS

def byCheck {W : Type} (refuse run : Nat → Result W) : Except Nat Nat → Result W
  | .error status => refuse status
  | .ok i => run i

section

variable {W : Type} (qpi : Host W) (call : Invocation)

def managedShares (asset : Asset) (account : M256i) (w : W) : Int :=
  qpi.numberOfPossessedShares asset.assetName asset.issuer account account SELF_INDEX SELF_INDEX w

def refund (status : Nat) (amount : Int) (s : State) (w : W) : Result W :=
  { status, state := s, world := (qpi.transfer call.invocator amount w).2 }

/-- The negation of `qpi.invocationReward() < (sint64)fee`. -/
def paysFee (fee : Nat) : Bool := sint64 fee ≤ call.invocationReward

/-- Pay back what the caller sent beyond the fee. -/
def refundExcess (fee : Nat) (w : W) : W :=
  if sint64 fee < call.invocationReward then
    (qpi.transfer call.invocator (sint64 (call.invocationReward - sint64 fee)) w).2
  else w

variable (s : State)

/-- The checks that open every procedure of an owner: the fee, the vault and its owner, whose index
is found. The error is the status to return. -/
def authorize (fee vaultId : Nat) : Except Nat Nat :=
  if !paysFee call fee then .error 2
  else if !isValidVaultId vaultId then .error 3
  else if !(s.vaults vaultId).isActive then .error 3
  else match (s.vaults vaultId).findOwnerIndexInVault call.invocator with
    | none => .error 4
    | some ownerIndex => .ok ownerIndex

/-- A procedure of an owner: the reward is paid back if the checks fail. -/
def asOwner (fee vaultId : Nat) (run : (ownerIndex : Nat) → Result W) (s : State) (w : W) :
    Result W :=
  byCheck (fun status => refund qpi call status call.invocationReward s w) run
    (authorize call s fee vaultId)

/-! ## registerVault -/

def tempOwners (owners : Nat → M256i) : List M256i :=
  (range MSVAULT_MAX_OWNERS).foldl (fun temp i =>
    if owners i ≠ NULL_ID ∧ owners i ∉ temp then temp ++ [owners i] else temp) []

def coOwned (owner : M256i) : Nat :=
  ((range MSVAULT_MAX_VAULTS).map fun j =>
    if (s.vaults j).isActive then
      (range (s.vaults j).numberOfOwners).countP fun k => (s.vaults j).owners k = owner
    else 0).sum

/-- The first free slot; without one, the status to return. -/
def emptySlot : Except Nat Nat :=
  ((range MSVAULT_MAX_VAULTS).find? fun i => !(s.vaults i).isActive &&
    (s.vaults i).numberOfOwners = 0 && (s.vaults i).qubicBalance = 0).elim (.error 7) .ok

def newVault (input : RegisterVaultInput) : Vault where
  vaultName := input.vaultName
  owners := fun i => (tempOwners input.owners).getD i NULL_ID
  releaseAmounts := fun _ => 0
  releaseDestinations := fun _ => NULL_ID
  qubicBalance := 0
  numberOfOwners := (tempOwners input.owners).length
  requiredApprovals := input.requiredApprovals
  isActive := true

def openVault (slotIndex : Nat) (input : RegisterVaultInput) : State :=
  let s := { s with numberOfActiveVaults := s.numberOfActiveVaults + 1 }
  ((s.setVault slotIndex (newVault input)).setAssetPart slotIndex emptyAssetPart).addRevenue
    s.liveRegisteringFee

def registerVault (input : RegisterVaultInput) (s : State) (w : W) : Result W :=
  let fee := s.liveRegisteringFee
  if !paysFee call fee then refund qpi call 2 call.invocationReward s w
  else
    let w := refundExcess qpi call fee w
    let owners := tempOwners input.owners
    if owners.length ≤ 1 then refund qpi call 5 (sint64 fee) s w
    else if input.requiredApprovals ≤ 1 ∨ owners.length < input.requiredApprovals then
      refund qpi call 5 (sint64 fee) s w
    else if owners.any fun owner => MSVAULT_MAX_COOWNER ≤ coOwned s owner then
      refund qpi call 7 (sint64 fee) s w
    else byCheck (fun status => refund qpi call status (sint64 fee) s w) (fun slotIndex =>
      { status := 1, state := openVault s slotIndex input, world := w }) (emptySlot s)

/-! ## Deposits -/

def amountToDeposit : Nat := (uint64 (call.invocationReward - s.liveDepositFee)).toNat

def deposit (vaultId : Nat) (s : State) (w : W) : Result W :=
  if !paysFee call s.liveDepositFee then
    refund qpi call 2 call.invocationReward s w
  else if amountToDeposit call s = 0 then refund qpi call 5 call.invocationReward s w
  else if !isValidVaultId vaultId then refund qpi call 3 call.invocationReward s w
  else if !(s.vaults vaultId).isActive then refund qpi call 3 call.invocationReward s w
  else
    let vault := s.vaults vaultId
    let vault := { vault with
      qubicBalance := addAmount vault.qubicBalance (amountToDeposit call s) }
    { status := 1, state := (s.addRevenue s.liveDepositFee).setVault vaultId vault, world := w }

def revokeAssetManagementRights (input : RevokeInput) (s : State) (w : W) : Result W :=
  if call.invocationReward < MSVAULT_REVOKE_FEE then refund qpi call 2 call.invocationReward s w
  else if input.numberOfShares ≤ 0 then refund qpi call 5 call.invocationReward s w
  else if managedShares qpi input.asset call.invocator w < input.numberOfShares then
    refund qpi call 6 call.invocationReward s w
  else
    let w := refundExcess qpi call MSVAULT_REVOKE_FEE w
    let (result, w) := qpi.releaseShares input.asset.issuer input.asset.assetName call.invocator
      call.invocator input.numberOfShares QX_CONTRACT_INDEX QX_CONTRACT_INDEX MSVAULT_REVOKE_FEE w
    if result < 0 then { status := 8, state := s, world := w }
    else
      { status := 1, state := s, world := w, transferredNumberOfShares := input.numberOfShares }

def depositAsset (input : DepositAssetInput) (s : State) (w : W) : Result W :=
  let fee := s.liveDepositFee
  if !paysFee call fee then refund qpi call 2 call.invocationReward s w
  else
    let w := refundExcess qpi call fee w
    if ¬sint64 input.amount ≤ managedShares qpi input.asset call.invocator w ∨
        input.amount = 0 then refund qpi call 6 (sint64 fee) s w
    else if !isValidVaultId input.vaultId then refund qpi call 3 (sint64 fee) s w
    else if !(s.vaults input.vaultId).isActive then refund qpi call 3 (sint64 fee) s w
    else
      let assetVault := s.vaultAssetParts input.vaultId
      let assetIndex := assetVault.findAsset input.asset
      if assetIndex = none ∧ MSVAULT_MAX_ASSET_TYPES ≤ assetVault.numberOfAssetTypes then
        refund qpi call 7 (sint64 fee) s w
      else
        let tempShares := managedShares qpi input.asset SELF w
        let (transferResult, w) := qpi.transferShareOwnershipAndPossession input.asset.assetName
          input.asset.issuer call.invocator call.invocator (sint64 input.amount) SELF w
        if transferResult < 0 then refund qpi call 8 (sint64 fee) s w
        else if sint64 (managedShares qpi input.asset SELF w - tempShares) ≠
            sint64 input.amount then refund qpi call 8 (sint64 fee) s w
        else
          { status := 1
            state := (s.addRevenue fee).setAssetPart input.vaultId
              (assetVault.add assetIndex input.asset input.amount)
            world := w }

/-! ## Releases -/

def releaseTo (input : ReleaseToInput) (s : State) (w : W) : Result W :=
  asOwner qpi call s.liveReleaseFee input.vaultId (fun ownerIndex =>
    let vault := s.vaults input.vaultId
    if input.amount = 0 ∨ input.destination = NULL_ID then
      refund qpi call 5 call.invocationReward s w
    else if vault.qubicBalance < input.amount then refund qpi call 6 call.invocationReward s w
    else
      let w := refundExcess qpi call s.liveReleaseFee w
      let s := s.addRevenue s.liveReleaseFee
      let vault := vault.request ownerIndex input.amount input.destination
      if vault.requiredApprovals ≤ vault.approvals input.amount input.destination then
        if input.amount ≤ vault.qubicBalance then
          { status := 1
            state := s.setVault input.vaultId (vault.withdraw input.amount).resetReleaseRequests
            world := (qpi.transfer input.destination (sint64 input.amount) w).2 }
        else { status := 6, state := s, world := w }
      else { status := 9, state := s.setVault input.vaultId vault, world := w }) s w

def payAssets (input : ReleaseAssetToInput) (assetIndex : Nat) (assetVault : VaultAssetPart)
    (s : State) (w : W) : Result W :=
  let (remainingShares, w) := qpi.transferShareOwnershipAndPossession input.asset.assetName
    input.asset.issuer SELF SELF (sint64 input.amount) input.destination w
  if remainingShares < 0 then
    { status := 8, state := s.setAssetPart input.vaultId assetVault, world := w }
  else
    let assetVault := (assetVault.withdraw assetIndex input.amount).resetRequests
    let s := s.setAssetPart input.vaultId assetVault
    -- the management of the shares goes to QX, for a fee that the vault pays
    let (releaseResult, w) := qpi.releaseShares input.asset.issuer input.asset.assetName
      input.destination input.destination (sint64 input.amount) QX_CONTRACT_INDEX
      QX_CONTRACT_INDEX MSVAULT_REVOKE_FEE w
    if releaseResult < 0 then { status := 8, state := s, world := w }
    else
      { status := 1
        state := s.setVault input.vaultId ((s.vaults input.vaultId).withdraw MSVAULT_REVOKE_FEE)
        world := w }

def releaseAssetTo (input : ReleaseAssetToInput) (s : State) (w : W) : Result W :=
  asOwner qpi call s.liveReleaseFee input.vaultId (fun ownerIndex =>
    let qubicVault := s.vaults input.vaultId
    let assetVault := s.vaultAssetParts input.vaultId
    if qubicVault.qubicBalance < MSVAULT_REVOKE_FEE then
      refund qpi call 6 call.invocationReward s w
    else if input.amount = 0 ∨ input.destination = NULL_ID then
      refund qpi call 5 call.invocationReward s w
    else match assetVault.findAsset input.asset with
      | none => refund qpi call 5 call.invocationReward s w
      | some assetIndex =>
        if (assetVault.assetBalances assetIndex).balance < input.amount then
          refund qpi call 6 call.invocationReward s w
        else
          let w := refundExcess qpi call s.liveReleaseFee w
          let s := s.addRevenue s.liveReleaseFee
          let assetVault := assetVault.request ownerIndex input.asset input.amount
            input.destination
          if qubicVault.requiredApprovals ≤ assetVault.approvals qubicVault.numberOfOwners
              input.asset input.amount input.destination then
            if input.amount ≤ (assetVault.assetBalances assetIndex).balance then
              payAssets qpi input assetIndex assetVault s w
            else { status := 6, state := s.setAssetPart input.vaultId assetVault, world := w }
          else { status := 9, state := s.setAssetPart input.vaultId assetVault, world := w }) s w

def resetRelease (vaultId : Nat) (s : State) (w : W) : Result W :=
  asOwner qpi call s.liveReleaseResetFee vaultId (fun ownerIndex =>
    { status := 1
      state := (s.addRevenue s.liveReleaseResetFee).setVault vaultId
        ((s.vaults vaultId).request ownerIndex 0 NULL_ID)
      world := refundExcess qpi call s.liveReleaseResetFee w }) s w

def resetAssetRelease (vaultId : Nat) (s : State) (w : W) : Result W :=
  asOwner qpi call s.liveReleaseResetFee vaultId (fun ownerIndex =>
    { status := 1
      state := (s.addRevenue s.liveReleaseResetFee).setAssetPart vaultId
        ((s.vaultAssetParts vaultId).request ownerIndex noAsset 0 NULL_ID)
      world := refundExcess qpi call s.liveReleaseResetFee w }) s w

/-! ## Votes on the fees -/

def shareholding (owner : M256i) (w : W) : Int :=
  qpi.numberOfShares ⟨NULL_ID, MSVAULT_ASSET_NAME⟩ owner owner w

def isShareHolder (candidate : M256i) (w : W) : Bool := 0 < shareholding qpi candidate w

def score (owner : M256i) (w : W) : Nat := (uint64 (shareholding qpi owner w)).toNat

variable (fs : MsVaultFeeVote)

def refreshVote (w : W) (s : State) (i : Nat) : State :=
  let currentAddr := s.feeVotesOwner i
  let s := { s with feeVotesScore := update s.feeVotesScore i (score qpi currentAddr w) }
  if currentAddr = call.invocator then { s with feeVotes := update s.feeVotes i fs } else s

def recordVote (s : State) (w : W) : State :=
  let n := s.feeVotesAddrCount
  let needNewRecord := (range n).all fun i => s.feeVotesOwner i ≠ call.invocator
  let s := (range n).foldl (refreshVote qpi call fs w) s
  if needNewRecord ∧ n < MSVAULT_MAX_FEE_VOTES then
    { s with
      feeVotes := update s.feeVotes n fs
      feeVotesOwner := update s.feeVotesOwner n call.invocator
      feeVotesScore := update s.feeVotesScore n (score qpi call.invocator w)
      feeVotesAddrCount := n + 1 }
  else s

def sumVote : Nat :=
  (range s.feeVotesAddrCount).foldl (fun sum i => addAmount sum (s.feeVotesScore i)) 0

def rankVote (i : Nat) : State :=
  let currentVote := s.feeVotes i
  match (range s.uniqueFeeVotesCount).find? fun j => s.uniqueFeeVotes j = currentVote with
  | some j =>
    let rank := addAmount (s.uniqueFeeVotesRanking j) (s.feeVotesScore i)
    { s with uniqueFeeVotesRanking := update s.uniqueFeeVotesRanking j rank }
  | none =>
    let n := s.uniqueFeeVotesCount
    if n < MSVAULT_MAX_FEE_VOTES then
      { s with
        uniqueFeeVotes := update s.uniqueFeeVotes n currentVote
        uniqueFeeVotesRanking := update s.uniqueFeeVotesRanking n (s.feeVotesScore i)
        uniqueFeeVotesCount := n + 1 }
    else s

def rankVotes : State :=
  (range s.feeVotesAddrCount).foldl rankVote
    { s with uniqueFeeVotesCount := 0, uniqueFeeVotesRanking := fun _ => 0 }

/-- The first proposal with a quorum becomes the fees in force. -/
def adoptFees : State :=
  match (range s.uniqueFeeVotesCount).find? fun i => QUORUM ≤ s.uniqueFeeVotesRanking i with
  | none => s
  | some i =>
    let vote := s.uniqueFeeVotes i
    { s with
      liveRegisteringFee := vote.registeringFee
      liveReleaseFee := vote.releaseFee
      liveReleaseResetFee := vote.releaseResetFee
      liveHoldingFee := vote.holdingFee
      liveDepositFee := vote.depositFee
      feeVotesAddrCount := 0
      uniqueFeeVotesCount := 0 }

def voteFeeChange (s : State) (w : W) : Result W :=
  if call.invocationReward < MSVAULT_VOTE_FEE_CHANGE_FEE then
    refund qpi call 2 call.invocationReward s w
  else if !isShareHolder qpi call.invocator w then { status := 4, state := s, world := w }
  else
    let w := (qpi.transfer call.invocator call.invocationReward w).2
    let s := recordVote qpi call fs s w
    if sumVote s < QUORUM then { status := 1, state := s, world := w }
    else { status := 1, state := adoptFees (rankVotes s), world := w }

end

/-! ## The end of an epoch -/

variable (s : State)

/-- A vault that cannot pay the holding fee gives up its balance and is cleared. -/
def closeVault (i : Nat) : State :=
  let s := { s with numberOfActiveVaults := s.numberOfActiveVaults - 1 }
  ((s.addRevenue (s.vaults i).qubicBalance).setVault i emptyVault).setAssetPart i emptyAssetPart

def collectHoldingFee (i : Nat) : State :=
  let vault := s.vaults i
  if vault.isActive then
    if s.liveHoldingFee ≤ vault.qubicBalance then
      (s.addRevenue s.liveHoldingFee).setVault i (vault.withdraw s.liveHoldingFee)
    else closeVault s i
  else s

def collectHoldingFees : State := (range MSVAULT_MAX_VAULTS).foldl collectHoldingFee s

def undistributed : Nat :=
  (uint64 ((s.totalRevenue : Int) - s.totalDistributedToShareholders)).toNat

def distribute {W : Type} (qpi : Host W) (amountToDistribute : Int) (s : State) (w : W) :
    State × W :=
  if 0 < amountToDistribute ∧ s.totalDistributedToShareholders < s.totalRevenue then
    let (distributed, w) := qpi.distributeDividends amountToDistribute w
    if distributed then
      let total := uint64 (s.totalDistributedToShareholders +
        amountToDistribute * NUMBER_OF_COMPUTORS)
      ({ s with totalDistributedToShareholders := total.toNat }, w)
    else (s, w)
  else (s, w)

/-- The share of each computor in the revenue, converted to `sint64`. -/
def amountToDistribute : Int := sint64 (undistributed s / NUMBER_OF_COMPUTORS : Nat)

/-- The procedure `END_EPOCH`. -/
def endEpoch {W : Type} (qpi : Host W) (s : State) (w : W) : State × W :=
  let s := collectHoldingFees s
  distribute qpi (amountToDistribute s) s w

/-! ## Calls -/

inductive Procedure where
  | registerVault (input : RegisterVaultInput)
  | deposit (vaultId : Nat)
  | revokeAssetManagementRights (input : RevokeInput)
  | depositAsset (input : DepositAssetInput)
  | releaseTo (input : ReleaseToInput)
  | releaseAssetTo (input : ReleaseAssetToInput)
  | resetRelease (vaultId : Nat)
  | resetAssetRelease (vaultId : Nat)
  | voteFeeChange (fs : MsVaultFeeVote)

def Procedure.run {W : Type} (qpi : Host W) (call : Invocation) : Procedure → State → W → Result W
  | registerVault input => MsVault.registerVault qpi call input
  | deposit vaultId => MsVault.deposit qpi call vaultId
  | revokeAssetManagementRights input => MsVault.revokeAssetManagementRights qpi call input
  | depositAsset input => MsVault.depositAsset qpi call input
  | releaseTo input => MsVault.releaseTo qpi call input
  | releaseAssetTo input => MsVault.releaseAssetTo qpi call input
  | resetRelease vaultId => MsVault.resetRelease qpi call vaultId
  | resetAssetRelease vaultId => MsVault.resetAssetRelease qpi call vaultId
  | voteFeeChange fs => MsVault.voteFeeChange qpi call fs

end QubicCore.Contracts.MsVault
