import QubicCore.Library.Probing
import QubicCore.Library.Cells
import QubicCore.Platform

/-!
# The universe: asset records

`assets[ASSETS_CAPACITY]` holds three kinds of record in one hash map with linear probing:
issuances, ownerships that point to their issuance, and possessions that point to their ownership.
Beside the records the node keeps linked lists of them and the change flags of the digest tree.

The capacity is `2^d`. A result `none` is a probe loop that never ends. Locks and the event log are
left out. Of a name or unit of measurement the seven bytes of the record are kept.
-/

namespace QubicCore

open Library.Probing Function

/-- The union `varStruct` by its `type`; an empty record has zero bytes only. -/
inductive AssetRecord where
  | empty
  | issuance (publicKey : M256i) (name : BitVec 56) (numberOfDecimalPlaces : BitVec 8)
      (unitOfMeasurement : BitVec 56)
  | ownership (publicKey : M256i) (managingContractIndex issuanceIndex : Nat)
      (numberOfShares : Int)
  | possession (publicKey : M256i) (managingContractIndex ownershipIndex : Nat)
      (numberOfShares : Int)
deriving DecidableEq

namespace AssetRecord

def isEmpty : AssetRecord → Bool
  | empty => true
  | _ => false

/-- The test of `issuanceIndex` and `assetsEndEpoch` for the issuance of a name by an issuer. -/
def isIssuance (issuer : M256i) (assetName : BitVec 56) : AssetRecord → Bool
  | issuance publicKey name _ _ => name = assetName ∧ publicKey = issuer
  | _ => false

/-- The stricter test of `issueAsset`: equality of the low 192 bits is enough. -/
def clashes (issuer : M256i) (assetName : BitVec 56) : AssetRecord → Bool
  | issuance publicKey name _ _ => name = assetName ∧ publicKey.u64 0 = issuer.u64 0 ∧
      publicKey.u64 1 = issuer.u64 1 ∧ publicKey.u64 2 = issuer.u64 2
  | _ => false

def isOwnership (owner : M256i) (contract issuance : Nat) : AssetRecord → Bool
  | ownership publicKey managingContractIndex issuanceIndex _ =>
    managingContractIndex = contract ∧ issuanceIndex = issuance ∧ publicKey = owner
  | _ => false

def isPossession (possessor : M256i) (contract ownership : Nat) : AssetRecord → Bool
  | possession publicKey managingContractIndex ownershipIndex _ =>
    managingContractIndex = contract ∧ ownershipIndex = ownership ∧ publicKey = possessor
  | _ => false

def addShares (amount : Int) : AssetRecord → AssetRecord
  | ownership k m i n => ownership k m i (sint64 (n + amount))
  | possession k m o n => possession k m o (sint64 (n + amount))
  | e => e

end AssetRecord

def NO_ASSET_INDEX : Nat := 0xffffffff

structure IndexLists where
  issuancesFirstIdx : Nat
  (ownershipsPossessionsFirstIdx nextIdx : Nat → Nat)

namespace IndexLists

def reset : IndexLists := ⟨NO_ASSET_INDEX, fun _ => NO_ASSET_INDEX, fun _ => NO_ASSET_INDEX⟩

variable (l : IndexLists)

def addIssuance (newIssuanceIdx : Nat) : IndexLists :=
  { l with
    nextIdx := update l.nextIdx newIssuanceIdx l.issuancesFirstIdx
    issuancesFirstIdx := newIssuanceIdx }

/-- Put a record at the head of the list of its parent: `addOwnership` and `addPossession`. -/
def addChild (parentIdx newIdx : Nat) : IndexLists :=
  { l with
    nextIdx := update l.nextIdx newIdx (l.ownershipsPossessionsFirstIdx parentIdx)
    ownershipsPossessionsFirstIdx := update l.ownershipsPossessionsFirstIdx parentIdx newIdx }

def addOwnership (issuanceIdx newOwnershipIdx : Nat) : IndexLists :=
  l.addChild issuanceIdx newOwnershipIdx

def addPossession (ownershipIdx newPossessionIdx : Nat) : IndexLists :=
  l.addChild ownershipIdx newPossessionIdx

/-- The lists of a whole table, built from its last record down. -/
def rebuild (d : Nat) (assets : Nat → AssetRecord) : IndexLists :=
  (List.range (2 ^ d)).reverse.foldl (fun l index =>
    match assets index with
    | .issuance .. => l.addIssuance index
    | .ownership _ _ issuanceIndex _ => l.addOwnership issuanceIndex index
    | .possession _ _ ownershipIndex _ => l.addPossession ownershipIndex index
    | .empty => l) reset

end IndexLists

structure Universe where
  assets : Nat → AssetRecord
  indexLists : IndexLists
  assetChangeFlags : Nat → BitVec 64

namespace Universe

/-- The universe after start-up. -/
def empty : Universe := ⟨fun _ => .empty, IndexLists.reset, fun _ => BitVec.allOnes 64⟩

def markChanged (u : Universe) (index : Nat) : Universe :=
  { u with
    assetChangeFlags := update u.assetChangeFlags (index >>> 6)
      (u.assetChangeFlags (index >>> 6) ||| 1 <<< (index &&& 63)) }

def write (u : Universe) (index : Nat) (e : AssetRecord) : Universe :=
  { u with assets := update u.assets index e }

/-- The statement `assets[index].varStruct….numberOfShares += amount`. -/
def addShares (u : Universe) (index : Nat) (amount : Int) : Universe :=
  u.write index ((u.assets index).addShares amount)

variable (d : Nat) (assets : Nat → AssetRecord)

def findRecord (test : AssetRecord → Bool) (start : Nat) : Option Nat :=
  probe (2 ^ d) (fun i => (assets i).isEmpty || test (assets i)) (2 ^ d) start

variable (u : Universe)

def issuanceIndex (issuer : M256i) (assetName : BitVec 56) :
    Option Nat := do
  let idx ← findRecord d u.assets (AssetRecord.isIssuance issuer assetName) (homeSlot d issuer)
  return if (u.assets idx).isEmpty then NO_ASSET_INDEX else idx

/-! ## Issuing -/

/-- The effect of `strcpy` on a name: bytes from the first zero byte on become zero. -/
def strcpy (name : BitVec 56) : BitVec 56 :=
  let length := ((List.range 7).find? fun i => (name >>> (8 * i)).setWidth 8 = 0#8).getD 7
  name &&& (BitVec.ofNat 56 (2 ^ (8 * length) - 1))

/-- The return value of `issueAsset` and, when records were written, their indices. -/
structure IssueResult where
  numberOfShares : Int
  indices : Option (Nat × Nat × Nat)
  after : Universe

def issueAsset (issuerPublicKey : M256i) (name : BitVec 56)
    (numberOfDecimalPlaces : BitVec 8) (unitOfMeasurement : BitVec 56) (numberOfShares : Int)
    (managingContractIndex : Nat) : Option IssueResult := do
  let name := strcpy name
  let issuance ← findRecord d u.assets (AssetRecord.clashes issuerPublicKey name)
    (homeSlot d issuerPublicKey)
  if (u.assets issuance).isEmpty then
    let u := u.write issuance (.issuance issuerPublicKey name numberOfDecimalPlaces
      unitOfMeasurement)
    let ownership ← findRecord d u.assets (fun _ => false) (mask d (issuance + 1))
    let u := u.write ownership
      (.ownership issuerPublicKey managingContractIndex issuance numberOfShares)
    let possession ← findRecord d u.assets (fun _ => false) (mask d (ownership + 1))
    let u := u.write possession
      (.possession issuerPublicKey managingContractIndex ownership numberOfShares)
    let u := ((u.markChanged issuance).markChanged ownership).markChanged possession
    let lists := ((u.indexLists.addIssuance issuance).addOwnership issuance ownership).addPossession
      ownership possession
    return ⟨numberOfShares, some (issuance, ownership, possession), { u with indexLists := lists }⟩
  else
    return ⟨0, none, u⟩

/-! ## Transfers -/

variable (sourceOwnershipIndex sourcePossessionIndex : Nat)

def canTransfer (numberOfShares : Int) : Bool :=
  match u.assets sourceOwnershipIndex, u.assets sourcePossessionIndex with
  | .ownership _ _ _ owned, .possession _ _ ownershipIndex possessed =>
    numberOfShares ≤ owned ∧ numberOfShares ≤ possessed ∧ ownershipIndex = sourceOwnershipIndex
  | _, _ => false

def openOwnership (index : Nat) (owner : M256i) (contract issuance : Nat) : Universe :=
  if (u.assets index).isEmpty then
    { u.write index (.ownership owner contract issuance 0) with
      indexLists := u.indexLists.addOwnership issuance index }
  else u

def openPossession (index : Nat) (possessor : M256i) (contract ownership : Nat) : Universe :=
  if (u.assets index).isEmpty then
    { u.write index (.possession possessor contract ownership 0) with
      indexLists := u.indexLists.addPossession ownership index }
  else u

/-- The part shared by both transfer functions: take the shares from the two source records and
give them to the records of the destination. -/
def moveShares (sourceOwnershipIndex sourcePossessionIndex issuance : Nat)
    (owner : M256i) (ownerContract : Nat) (possessor : M256i) (possessorContract : Nat)
    (numberOfShares : Int) : Option (Universe × Nat × Nat) := do
  let ownership ← findRecord d u.assets (AssetRecord.isOwnership owner ownerContract issuance)
    (homeSlot d owner)
  let u := u.addShares sourceOwnershipIndex (-numberOfShares)
  let u := u.openOwnership ownership owner ownerContract issuance
  let u := u.addShares ownership numberOfShares
  let possession ← findRecord d u.assets
    (AssetRecord.isPossession possessor possessorContract ownership) (homeSlot d possessor)
  let u := u.addShares sourcePossessionIndex (-numberOfShares)
  let u := u.openPossession possession possessor possessorContract ownership
  let u := u.addShares possession numberOfShares
  let u := (((u.markChanged sourceOwnershipIndex).markChanged sourcePossessionIndex).markChanged
    ownership).markChanged possession
  return (u, ownership, possession)

/-- The return value of a transfer and the destination indices it writes. -/
structure TransferResult where
  success : Bool
  indices : Option (Nat × Nat)
  after : Universe

def transferShareManagementRights
    (sourceOwnershipIndex sourcePossessionIndex destinationOwnershipManagingContractIndex
      destinationPossessionManagingContractIndex : Nat) (numberOfShares : Int) :
    Option TransferResult :=
  if numberOfShares ≤ 0 then some ⟨false, none, u⟩
  else if !u.canTransfer sourceOwnershipIndex sourcePossessionIndex numberOfShares then
    some ⟨false, none, u⟩
  else
    match u.assets sourceOwnershipIndex, u.assets sourcePossessionIndex with
    | .ownership owner _ issuance _, .possession possessor _ _ _ => do
      let (u, ownership, possession) ← u.moveShares d sourceOwnershipIndex sourcePossessionIndex
        issuance owner destinationOwnershipManagingContractIndex possessor
        destinationPossessionManagingContractIndex numberOfShares
      return ⟨true, some (ownership, possession), u⟩
    | _, _ => some ⟨false, none, u⟩

/-- Subtract shares from both source records and give them to nobody. -/
def burnShares (numberOfShares : Int) : Universe :=
  let u := u.addShares sourceOwnershipIndex (-numberOfShares)
  let u := u.addShares sourcePossessionIndex (-numberOfShares)
  (u.markChanged sourceOwnershipIndex).markChanged sourcePossessionIndex

def isContractShare : AssetRecord → Bool
  | .issuance publicKey _ _ _ => isZero publicKey
  | _ => false

def transferShareOwnershipAndPossession (destinationPublicKey : M256i)
    (numberOfShares : Int) : Option TransferResult :=
  if numberOfShares ≤ 0 then some ⟨false, none, u⟩
  else if !u.canTransfer sourceOwnershipIndex sourcePossessionIndex numberOfShares then
    some ⟨false, none, u⟩
  else
    match u.assets sourceOwnershipIndex, u.assets sourcePossessionIndex with
    | .ownership _ ownerContract issuance _, .possession _ possessorContract _ _ =>
      if isZero destinationPublicKey then
        if isContractShare (u.assets issuance) then some ⟨false, none, u⟩
        else some ⟨true, none, u.burnShares sourceOwnershipIndex sourcePossessionIndex
          numberOfShares⟩
      else do
        let (u, ownership, possession) ← u.moveShares d sourceOwnershipIndex
          sourcePossessionIndex issuance destinationPublicKey ownerContract destinationPublicKey
          possessorContract numberOfShares
        return ⟨true, some (ownership, possession), u⟩
    | _, _ => some ⟨false, none, u⟩

/-! ## End of epoch -/

def fill (index : Nat) (e : AssetRecord) : Nat → AssetRecord :=
  if (assets index).isEmpty then update assets index e else assets

/-- Insert a possession of `shares` shares, with its ownership and issuance, into the new table. -/
def reorgPossession (reorg : Nat → AssetRecord) (issuanceRecord : AssetRecord)
    (issuer : M256i) (name : BitVec 56) (owner : M256i) (ownerContract : Nat) (possessor : M256i)
    (possessorContract : Nat) (shares : Int) : Option (Nat → AssetRecord) := do
  let issuance ← findRecord d reorg (AssetRecord.isIssuance issuer name) (homeSlot d issuer)
  let reorg := fill reorg issuance issuanceRecord
  let ownership ← findRecord d reorg (AssetRecord.isOwnership owner ownerContract issuance)
    (homeSlot d owner)
  let reorg := fill reorg ownership (.ownership owner ownerContract issuance 0)
  let reorg := update reorg ownership ((reorg ownership).addShares shares)
  let possession ← findRecord d reorg
    (AssetRecord.isPossession possessor possessorContract ownership) (homeSlot d possessor)
  let reorg := fill reorg possession (.possession possessor possessorContract ownership 0)
  return update reorg possession ((reorg possession).addShares shares)

/-- The new table: every possession with shares, in slot order. -/
def reorgAssets : Option (Nat → AssetRecord) :=
  (List.range (2 ^ d)).foldlM (fun reorg i =>
    match assets i with
    | .possession possessor possessorContract oldOwnership shares =>
      if shares > 0 then
        match assets oldOwnership with
        | .ownership owner ownerContract oldIssuance _ =>
          match assets oldIssuance with
          | .issuance issuer name _ _ =>
            reorgPossession d reorg (assets oldIssuance) issuer name owner ownerContract possessor
              possessorContract shares
          | _ => some reorg
        | _ => some reorg
      else some reorg
    | _ => some reorg) (fun _ => .empty)

def assetsEndEpoch : Option Universe := do
  let assets ← reorgAssets d u.assets
  return ⟨assets, IndexLists.rebuild d assets, fun _ => BitVec.allOnes 64⟩

end Universe

end QubicCore
