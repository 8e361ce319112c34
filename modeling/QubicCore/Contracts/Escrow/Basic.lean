import QubicCore.Contracts.Market
import QubicCore.MathLib
import QubicCore.Qpi.Collection

/-!
# The contract ESCROW

A deal offers shares and QU for other shares and QU. The offered QU wait in the contract; the
offered shares stay with their owner, and the contract keeps a list of how many of them are
reserved. A deal is for one acceptor, or public; a public deal has the contract itself as its
acceptor.

An array together with the number of its used entries is a list here, and so are the hash maps and
sets, whose order the code does not depend on. The index of the next deal is unbounded.
-/

namespace QubicCore.Contracts.Escrow

open Library MathLib
open QubicCore.Qpi (Collection Entry)

def ESCROW_MAX_DEALS : Nat := 262144
def ESCROW_MAX_DEALS_PER_USER : Nat := 8
def ESCROW_MAX_ASSETS_IN_DEAL : Nat := 4
def ESCROW_MAX_RESERVED_ASSETS : Nat := ESCROW_MAX_DEALS * ESCROW_MAX_ASSETS_IN_DEAL
def ESCROW_DEAL_EXISTENCE_EPOCH_COUNT : Nat := 4

def ESCROW_BASE_FEE : Nat := 250000
def ESCROW_ADDITIONAL_FEE_PERCENT : Nat := 100
def ESCROW_FEE_PER_SHARE : Nat := 1500000

def ESCROW_SHAREHOLDERS_TOKEN_DISTRIBUTION_PERCENT : Nat := 9500
def ESCROW_SHAREHOLDERS_QU_DISTRIBUTION_PERCENT : Nat := 9300
def ESCROW_BURN_QU_PERCENT : Nat := 200

def SELF_INDEX : Nat := 27
def SELF : M256i := contractId SELF_INDEX
def NULL_ID : M256i := 0

structure AssetWithAmount where
  issuer : M256i
  (name amount : Nat)
deriving DecidableEq

def AssetWithAmount.asset (x : AssetWithAmount) : Asset := ⟨x.issuer, x.name⟩

structure CreateDealInput where
  acceptorId : M256i
  offeredQU : Nat
  offeredAssets : List AssetWithAmount
  requestedQU : Nat
  requestedAssets : List AssetWithAmount
deriving DecidableEq

structure Deal extends CreateDealInput where
  index : Int
  creationEpoch : Nat
deriving DecidableEq

structure State where
  (earnedAmount distributedAmount : Nat)
  earnedTokens : List Asset
  currentDealIndex : Int
  deals : AList fun _ : Int => Deal
  (acceptorDealIndexes ownerDealIndexes : Collection Int)
  dealIndexOwnerMap : AList fun _ : Int => M256i
  ownersSet : List M256i
  reservedAssets : Collection AssetWithAmount
  devAddress : M256i

def State.init (devAddress : M256i) : State where
  earnedAmount := 0
  distributedAmount := 0
  earnedTokens := []
  currentDealIndex := 1
  deals := ∅
  acceptorDealIndexes := []
  ownerDealIndexes := []
  dealIndexOwnerMap := ∅
  ownersSet := []
  reservedAssets := []
  devAddress := devAddress

/-! ## Containers -/

def setMap {V : Type} (L : Nat) (m : AList fun _ : Int => V) (key : Int) (value : V) :
    AList fun _ : Int => V :=
  if key ∈ m ∨ m.entries.length < L then m.insert key value else m

def addSet {K : Type} [DecidableEq K] (L : Nat) (l : List K) (key : K) : List K :=
  if key ∈ l ∨ L ≤ l.length then l else l ++ [key]

def indexKey (e : Entry Int) : M256i × Int := (e.pov, e.value)

/-- Remove the first occurrence of a deal from the queue of a point of view. -/
def unlist (c : Collection Int) (pov : M256i) (index : Int) : Collection Int :=
  Keyed.alter indexKey (pov, index) (fun _ => none) c

/-! ## Reserved shares -/

def reservationKey (e : Entry AssetWithAmount) : M256i × Asset := (e.pov, e.value.asset)

def numberOfReservedShares (c : Collection AssetWithAmount) (owner : M256i) (a : Asset) : Int :=
  match Keyed.first reservationKey (owner, a) c with
  | some e => sint64 e.value.amount
  | none => 0

def setAmount (e : Entry AssetWithAmount) (amount : Int) : Entry AssetWithAmount :=
  { e with value := { e.value with amount := (uint64 amount).toNat } }

def reserve (owner : M256i) (c : Collection AssetWithAmount) (x : AssetWithAmount) :
    Collection AssetWithAmount :=
  if numberOfReservedShares c owner x.asset = 0 then c.add ESCROW_MAX_RESERVED_ASSETS owner x 0
  else
    Keyed.alter reservationKey (owner, x.asset)
      (fun e => some (setAmount e (e.value.amount + x.amount))) c

/-- The loop of `release`, which goes on after an entry that it only lowers. -/
def releaseFrom (owner : M256i) (x : AssetWithAmount) (left : Int) :
    Collection AssetWithAmount → Collection AssetWithAmount
  | [] => []
  | e :: es =>
    if reservationKey e = (owner, x.asset) then
      if left = 0 then es
      else setAmount e (e.value.amount - x.amount) :: releaseFrom owner x left es
    else e :: releaseFrom owner x left es

/-- Take back the reservation of one offered asset of a deal that is cancelled or expires. The
difference with the unsigned amount is unsigned. -/
def release (owner : M256i) (c : Collection AssetWithAmount) (x : AssetWithAmount) :
    Collection AssetWithAmount :=
  releaseFrom owner x (uint64 (numberOfReservedShares c owner x.asset - x.amount)) c

def settle (owner : M256i) (x : AssetWithAmount) (transferredShares transferredFeeShares : Int)
    (c : Collection AssetWithAmount) : Collection AssetWithAmount :=
  let reserved := numberOfReservedShares c owner x.asset
  Keyed.alter reservationKey (owner, x.asset) (fun e =>
      if sint64 (reserved - transferredShares - transferredFeeShares) ≤ 0 then none
      else some (setAmount e (e.value.amount - transferredShares - transferredFeeShares))) c

/-! ## Fees -/

def additionalFee (amount : Nat) : Nat := smulUnsigned amount ESCROW_ADDITIONAL_FEE_PERCENT / 10000

def addShareFees (assets : List AssetWithAmount) (qu : Nat) : Nat :=
  assets.foldl
    (fun qu x =>
      if x.issuer = NULL_ID then saddUnsigned (smulUnsigned x.amount ESCROW_FEE_PER_SHARE) qu
      else qu)
    qu

section

variable {W : Type} (host : AssetHost W) (call : Invocation)

def availableTokenAmount (c : Collection AssetWithAmount) (account : M256i) (a : Asset) (w : W) :
    Int :=
  sint64 (host.shares SELF_INDEX a account w - numberOfReservedShares c account a)

def lacks (c : Collection AssetWithAmount) (w : W) (x : AssetWithAmount) : Bool :=
  availableTokenAmount host c call.invocator x.asset w < 0 ∨
    uint64 (availableTokenAmount host c call.invocator x.asset w) < x.amount

def refund (w : W) : W :=
  if 0 < call.invocationReward then (host.transfer call.invocator call.invocationReward w).2 else w

def refundExcess (fee : Nat) (w : W) : W :=
  if fee < wide call.invocationReward then
    (host.transfer call.invocator (sint64 (call.invocationReward - fee)) w).2
  else w

/-! ## Creation -/

def createDealError (input : CreateDealInput) (s : State) (w : W) : Bool :=
  ESCROW_MAX_DEALS ≤ s.ownerDealIndexes.length ∨
    ESCROW_MAX_DEALS_PER_USER ≤ s.ownerDealIndexes.population call.invocator ∨
    (input.offeredAssets = [] ∧ input.requestedAssets = []) ∨
    MAX_AMOUNT ≤ input.offeredQU ∨ MAX_AMOUNT ≤ input.requestedQU ∨
    ¬(input.offeredAssets.map AssetWithAmount.asset).Nodup ∨
    ¬(input.requestedAssets.map AssetWithAmount.asset).Nodup ∨
    (∃ x ∈ input.offeredAssets, MAX_AMOUNT ≤ x.amount ∨ lacks host call s.reservedAssets w x) ∨
    ∃ x ∈ input.requestedAssets, MAX_AMOUNT ≤ x.amount

def offeredQuAndFee (input : CreateDealInput) : Nat :=
  addShareFees input.requestedAssets
    (addShareFees input.offeredAssets (saddUnsigned input.offeredQU ESCROW_BASE_FEE))

def newDeal (epoch : Nat) (input : CreateDealInput) (s : State) : Deal :=
  { input with
    index := s.currentDealIndex
    acceptorId :=
      if input.acceptorId = NULL_ID ∨ input.acceptorId = call.invocator then SELF
      else input.acceptorId
    creationEpoch := epoch }

variable (deal : Deal)

def openDeal (s : State) : State :=
  { s with
    ownersSet :=
      if s.ownerDealIndexes.population call.invocator = 0 then
        addSet ESCROW_MAX_DEALS s.ownersSet call.invocator
      else s.ownersSet
    deals := setMap ESCROW_MAX_DEALS s.deals s.currentDealIndex deal
    ownerDealIndexes := s.ownerDealIndexes.add ESCROW_MAX_DEALS call.invocator s.currentDealIndex 0
    acceptorDealIndexes :=
      s.acceptorDealIndexes.add ESCROW_MAX_DEALS deal.acceptorId s.currentDealIndex 0
    dealIndexOwnerMap := setMap ESCROW_MAX_DEALS s.dealIndexOwnerMap deal.index call.invocator
    earnedAmount := (s.earnedAmount + ESCROW_BASE_FEE) % 2 ^ 64
    currentDealIndex := s.currentDealIndex + 1
    reservedAssets := deal.offeredAssets.foldl (reserve call.invocator) s.reservedAssets }

def createDeal (epoch : Nat) (input : CreateDealInput) (s : State) (w : W) : State × W :=
  if ESCROW_MAX_ASSETS_IN_DEAL < input.offeredAssets.length ∨
      ESCROW_MAX_ASSETS_IN_DEAL < input.requestedAssets.length then (s, refund host call w)
  else if createDealError host call input s w ∨
      wide call.invocationReward < offeredQuAndFee input then (s, refund host call w)
  else
    (openDeal call (newDeal call epoch input s) s, refundExcess host call (offeredQuAndFee input) w)

/-! ## Acceptance -/

/-- The variables of `AcceptDeal` while shares change hands. -/
structure Exchange (W : Type) where
  state : State
  world : W
  (transferResult transferredShares transferredFeeShares : Int)

variable (x : AssetWithAmount)

/-- A token of which the contract may have received fees. -/
def earnToken (s : State) : State :=
  if x.issuer ≠ NULL_ID then
    { s with earnedTokens := addSet ESCROW_MAX_RESERVED_ASSETS s.earnedTokens x.asset }
  else s

def moveAsset (source destination : M256i) (w : W) : Int × W :=
  if x.issuer = NULL_ID then host.moveShares x.asset source destination (sint64 x.amount) w
  else
    let r := host.moveShares x.asset source destination
      (sint64 (x.amount - additionalFee x.amount)) w
    (r.1, (host.moveShares x.asset source SELF (sint64 (additionalFee x.amount)) r.2).2)

/-- The shares that `moveAsset` counts as transferred, and those it counts as a fee. -/
def counted : Int × Int :=
  if x.issuer = NULL_ID then (sint64 x.amount, 0)
  else (sint64 (x.amount - additionalFee x.amount), sint64 (additionalFee x.amount))

variable (dealOwner : M256i)

/-- One round of the loop over the offered assets. After a failed move the reservations are still
lowered, by the counts of that move. -/
def offeredLeg (t : Exchange W) (x : AssetWithAmount) : Exchange W :=
  let t :=
    if 0 ≤ t.transferResult then
      { t with
        transferResult := (moveAsset host x dealOwner call.invocator t.world).1
        world := (moveAsset host x dealOwner call.invocator t.world).2
        transferredShares := (counted x).1
        transferredFeeShares := (counted x).2 }
    else t
  let s := earnToken x t.state
  { t with
    state :=
      { s with
        reservedAssets :=
          settle dealOwner x t.transferredShares t.transferredFeeShares s.reservedAssets } }

/-- The loop over the requested assets, which ends at the first failed move. -/
def requestedLegs (dealOwner : M256i) : List AssetWithAmount → Exchange W → Exchange W
  | [], t => t
  | x :: xs, t =>
    let r := moveAsset host x call.invocator dealOwner t.world
    if r.1 < 0 then { t with transferResult := r.1, world := r.2 }
    else
      requestedLegs dealOwner xs
        { t with transferResult := r.1, world := r.2, state := earnToken x t.state }

def exchange (s : State) (w : W) : Exchange W :=
  let t := deal.offeredAssets.foldl (offeredLeg host call dealOwner) ⟨s, w, 0, 0, 0⟩
  if 0 ≤ t.transferResult then requestedLegs host call dealOwner deal.requestedAssets t else t

def payQu (destination : M256i) (qu : Nat) (w : W) : W :=
  if 0 < qu then (host.transfer destination (sint64 (qu - additionalFee qu)) w).2 else w

/-- The QU go to the other side, or back. -/
def exchangeQu (transferResult : Int) (w : W) : W :=
  if 0 ≤ transferResult then
    payQu host dealOwner deal.requestedQU (payQu host call.invocator deal.offeredQU w)
  else payQu host call.invocator deal.requestedQU (payQu host dealOwner deal.offeredQU w)

def requestedQuAndFee : Nat :=
  addShareFees deal.offeredAssets (addShareFees deal.requestedAssets deal.requestedQU)

def leaveOwners (s : State) : List M256i :=
  if s.ownerDealIndexes.population dealOwner = 1 then s.ownersSet.erase dealOwner else s.ownersSet

variable (index : Int)

/-- Delete a deal from the maps and from the lists, where it is looked for under the given
acceptor. -/
def removeDeal (dealOwner acceptor : M256i) (s : State) : State :=
  { s with
    ownersSet := leaveOwners dealOwner s
    deals := s.deals.erase index
    dealIndexOwnerMap := s.dealIndexOwnerMap.erase index
    acceptorDealIndexes := unlist s.acceptorDealIndexes acceptor index
    ownerDealIndexes := unlist s.ownerDealIndexes dealOwner index }

variable (s : State)

def earnFees : State :=
  let earned := saddUnsigned (additionalFee deal.offeredQU) s.earnedAmount
  let earned := saddUnsigned (additionalFee deal.requestedQU) earned
  { s with
    earnedAmount :=
      saddUnsigned ((uint64 (requestedQuAndFee deal - deal.requestedQU) * 2).toNat % 2 ^ 64)
        earned }

def acceptDeal (w : W) : State × W :=
  match s.deals.lookup index, s.dealIndexOwnerMap.lookup index with
  | some deal, some dealOwner =>
    if deal.index ≠ index ∨ (deal.acceptorId ≠ SELF ∧ deal.acceptorId ≠ call.invocator) ∨
        deal.requestedAssets.any (lacks host call s.reservedAssets w) ∨
        wide call.invocationReward < requestedQuAndFee deal then (s, refund host call w)
    else
      let t := exchange host call deal dealOwner s
        (refundExcess host call (requestedQuAndFee deal) w)
      (earnFees deal (removeDeal index dealOwner call.invocator t.state),
        exchangeQu host call deal dealOwner t.transferResult t.world)
  | _, _ => (s, refund host call w)

/-! ## Other procedures -/

def makeDealPublic (w : W) : State × W :=
  match s.deals.lookup index, s.dealIndexOwnerMap.lookup index with
  | some deal, some dealOwner =>
    if dealOwner ≠ call.invocator ∨ deal.acceptorId = SELF then (s, refund host call w)
    else
      ({ s with
          deals := s.deals.insert index { deal with acceptorId := SELF }
          acceptorDealIndexes :=
            if (deal.acceptorId, index) ∈ s.acceptorDealIndexes.map indexKey then
              Collection.add ESCROW_MAX_DEALS
                (unlist s.acceptorDealIndexes deal.acceptorId index) SELF index 0
            else s.acceptorDealIndexes },
        refund host call w)
  | _, _ => (s, refund host call w)

/-- What a cancelled or expired deal gives back. -/
def quForReturn : Nat :=
  addShareFees deal.requestedAssets (addShareFees deal.offeredAssets deal.offeredQU)

def releaseAssets (deal : Deal) (s : State) : State :=
  { s with reservedAssets := deal.offeredAssets.foldl (release dealOwner) s.reservedAssets }

def cancelDeal (w : W) : State × W :=
  let w := refund host call w
  match s.deals.lookup index, s.dealIndexOwnerMap.lookup index with
  | some deal, some dealOwner =>
    if dealOwner ≠ call.invocator then (s, w)
    else
      (removeDeal index dealOwner deal.acceptorId (releaseAssets call.invocator deal s),
        (host.transfer call.invocator (sint64 (quForReturn deal)) w).2)
  | _, _ => (s, w)

structure TransferRightsInput where
  asset : Asset
  amount : Int
  newContractIndex : Nat

def transferShareManagementRights (input : TransferRightsInput) (s : State) (w : W) :
    Int × State × W :=
  let giveBack (amount : Int) (w : W) := (host.transfer call.invocator amount w).2
  if MAX_AMOUNT ≤ input.amount ∨ input.amount ≤ 0 then (0, s, giveBack call.invocationReward w)
  else if sint64 (host.shares SELF_INDEX input.asset call.invocator w -
      numberOfReservedShares s.reservedAssets call.invocator input.asset) < input.amount then
    (0, s, giveBack call.invocationReward w)
  else
    let r := host.releaseShares input.asset.issuer input.asset.assetName call.invocator
      call.invocator input.amount input.newContractIndex input.newContractIndex
      call.invocationReward w
    if r.1 < 0 then (0, s, giveBack call.invocationReward r.2)
    else if r.1 < call.invocationReward then
      (input.amount, s, giveBack (call.invocationReward - r.1) r.2)
    else (input.amount, s, r.2)

end

/-! ## Epochs -/

section

variable {W : Type} (host : AssetHost W)

/-- The variables of `BEGIN_EPOCH`. The last deal that was read stays in `tempDeal`. -/
structure Expiry (W : Type) where
  state : State
  world : W
  tempDeal : Deal

def expireDeal (epoch : Nat) (dealOwner : M256i) (t : Expiry W) (index : Int) : Expiry W :=
  let deal := (t.state.deals.lookup index).getD t.tempDeal
  if index ∈ t.state.deals ∧ epoch < deal.creationEpoch + ESCROW_DEAL_EXISTENCE_EPOCH_COUNT then
    { t with tempDeal := deal }
  else
    let s := releaseAssets dealOwner deal t.state
    { state :=
        { s with
          ownersSet := leaveOwners dealOwner s
          deals := s.deals.erase deal.index
          dealIndexOwnerMap := s.dealIndexOwnerMap.erase deal.index
          acceptorDealIndexes := unlist s.acceptorDealIndexes deal.acceptorId deal.index
          ownerDealIndexes := unlist s.ownerDealIndexes dealOwner index }
      world :=
        if 0 < quForReturn deal then
          (host.transfer dealOwner (sint64 (quForReturn deal)) t.world).2
        else t.world
      tempDeal := deal }

def expireDeals (epoch : Nat) (t : Expiry W) (dealOwner : M256i) : Expiry W :=
  ((t.state.ownerDealIndexes.queue dealOwner).map Entry.value).foldl
    (expireDeal host epoch dealOwner) t

def noDeal : Deal := ⟨⟨NULL_ID, 0, [], 0, []⟩, 0, 0⟩

/-- The owners come in the order of their slots. -/
def beginEpoch (epoch : Nat) (owners : List M256i) (s : State) (w : W) : State × W :=
  let t := owners.foldl (expireDeals host epoch) ⟨s, w, noDeal⟩
  (t.state, t.world)

def distributeQu (s : State) (w : W) : State × W :=
  let left : Nat := (uint64 (s.earnedAmount - s.distributedAmount)).toNat
  let amountToDistribute : Nat :=
    left * ESCROW_SHAREHOLDERS_QU_DISTRIBUTION_PERCENT % 2 ^ 64 / 10000
  let amountToBurn : Nat := left * ESCROW_BURN_QU_PERCENT % 2 ^ 64 / 10000
  let amountToDevs : Nat := (uint64 (left - amountToDistribute - amountToBurn)).toNat
  let perShare : Nat := amountToDistribute / NUMBER_OF_COMPUTORS
  if 0 < perShare ∧ s.distributedAmount < s.earnedAmount then
    let r := host.distributeDividends perShare w
    if r.1 then
      ({ s with
          distributedAmount := (s.distributedAmount + perShare * NUMBER_OF_COMPUTORS +
            amountToBurn + amountToDevs) % 2 ^ 64 },
        (host.transfer s.devAddress (sint64 amountToDevs)
          (host.burn (sint64 amountToBurn) r.2).2).2)
    else (s, r.2)
  else (s, w)

/-- The shares of the contract itself. -/
def selfShare : Asset := ⟨NULL_ID, 95998194176837⟩

/-- Hand the collected fees of one token to the shareholders and the rest to the developers. -/
def distributeToken (p : State × W) (token : Asset) : State × W :=
  let tempEarnedAmount := wide (host.shares SELF_INDEX token SELF p.2)
  let amount := smulUnsigned tempEarnedAmount ESCROW_SHAREHOLDERS_TOKEN_DISTRIBUTION_PERCENT / 10000
  if amount < NUMBER_OF_COMPUTORS then p
  else
    let w := (host.owners selfShare p.2).foldl
      (fun w holder => (host.moveShares token SELF holder.1
        (sint64 (uint64 ((amount / NUMBER_OF_COMPUTORS : Nat) * holder.2))) w).2) p.2
    ({ p.1 with earnedTokens := p.1.earnedTokens.erase token },
      (host.moveShares token SELF p.1.devAddress (host.shares SELF_INDEX token SELF w) w).2)

/-- The tokens come in the order of their slots. -/
def endEpoch (tokens : List Asset) (s : State) (w : W) : State × W :=
  tokens.foldl (distributeToken host) (distributeQu host s w)

end

end QubicCore.Contracts.Escrow
