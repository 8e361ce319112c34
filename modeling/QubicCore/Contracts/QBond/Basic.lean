import QubicCore.Contracts.Market
import QubicCore.MathLib
import QubicCore.Qpi.Collection

/-!
# The contract QBOND

Users lock QU in QEARN through the contract and receive bonds, which are shares of an asset that the
contract issued. There are 53 such assets, and each epoch uses the next one, so an asset serves
again after 53 epochs. Bonds are traded by ask and bid orders that name an epoch.

The orders of a book are kept under an identity made of the asset's name and, from epoch 192 on, of
the epoch. Amounts of QU, and the bonds of a bid order, are unbounded: they were paid for. The
reward of a call is never negative.
-/

namespace QubicCore.Contracts.QBond

open Library MathLib
open QubicCore.Qpi (Collection Entry)

def QBOND_MAX_EPOCH_COUNT : Nat := 1024
def QBOND_MBOND_PRICE : Int := 1000000
def QBOND_MIN_MBONDS_TO_STAKE : Int := 10
def QBOND_MBONDS_EMISSION : Int := 1000000000
def QBOND_STAKE_LIMIT_PER_EPOCH : Int := 1000000

def QBOND_CYCLIC_START_EPOCH : Int := 192
def QBOND_FULL_CYCLE_EPOCHS_AMOUNT : Nat := 53

def QBOND_STAKE_FEE_PERCENT : Int := 40
def QBOND_TRADE_FEE_PERCENT : Int := 3
def QBOND_MBOND_TRANSFER_FEE : Int := 100

def QBOND_ASK_ORDER_FEE : Int := 100000
def QBOND_MIN_BID_AMOUNT : Int := 1000000
def QBOND_PROCEDURE_FEE : Int := 100000
def QBOND_MIN_BURN_AMOUNT : Int := 5000000

def QBOND_QVAULT_DISTRIBUTION_PERCENT : Int := 9900

def MAX_SUPPLY : Int := ISSUANCE_RATE * 200

def SELF_INDEX : Nat := 17
def SELF : M256i := contractId SELF_INDEX
def NULL_ID : M256i := 0
def QVAULT_CONTRACT_INDEX : Nat := 10

def ORDER_CAPACITY : Nat := 1048576

/-- The functions of `qpi`, with the call of `lock` of QEARN. -/
structure Host (W : Type) extends AssetHost W where
  lock : (amount : Int) → W → W

structure MBondInfo where
  name : Nat
  (stakersAmount totalStaked : Int)
deriving DecidableEq

/-- The record that a failed look-up leaves. -/
def noInfo : MBondInfo := ⟨0, 0, 0⟩

structure Order where
  owner : M256i
  (epoch numberOfMBonds feeDebt : Int)
deriving DecidableEq

structure State where
  epochMbondInfoMap : AList fun _ : Nat => MBondInfo
  userTotalStakedMap : List (M256i × Int)
  commissionFreeAddresses : List M256i
  qearnIncomeAmount : Nat
  (totalEarnedAmount earnedAmountFromTrade distributedAmount : Int)
  (adminAddress devAddress : M256i)
  (askOrders bidOrders : Collection Order)
  cyclicMbondCounter : Nat

def State.init (adminAddress devAddress : M256i) : State where
  epochMbondInfoMap := ∅
  userTotalStakedMap := []
  commissionFreeAddresses := [adminAddress]
  qearnIncomeAmount := 0
  totalEarnedAmount := 0
  earnedAmountFromTrade := 0
  distributedAmount := 0
  adminAddress := adminAddress
  devAddress := devAddress
  askOrders := []
  bidOrders := []
  cyclicMbondCounter := 0

def uint16 (epoch : Int) : Nat := (epoch % 2 ^ 16).toNat

/-- The call `get` of the map of epochs. -/
def State.info (s : State) (epoch : Int) : Option MBondInfo :=
  s.epochMbondInfoMap.lookup (uint16 epoch)

def mbondIdentity (name : Nat) (epoch : Int) : M256i :=
  ⟨BitVec.ofNat 64 name ++ (0#128 ++
    (BitVec.ofNat 16 (if QBOND_CYCLIC_START_EPOCH ≤ epoch then uint16 epoch else 0) ++
      BitVec.ofNat 48 SELF_INDEX))⟩

def bond (name : Nat) : Asset := ⟨SELF, name⟩

def bondName (counter : Nat) : Nat :=
  1145979469 ||| (48 + counter / 10) <<< 32 ||| (48 + counter % 10) <<< 40

def askQueue (s : State) (pov : M256i) : List (Entry Order) :=
  (s.askOrders.queue pov).dropWhile fun e => 0 < e.priority

def numberOfReservedMBonds (s : State) (owner : M256i) (epoch : Int) : Int :=
  match s.info epoch with
  | none => 0
  | some info =>
    sint64 (((askQueue s (mbondIdentity info.name epoch)).filter fun e =>
      e.value.epoch = epoch ∧ e.value.owner = owner).map fun e => e.value.numberOfMBonds).sum

/-- Where a new order goes among the orders of its book. -/
inductive Placement where
  | skip
  | insert
  | merge
  | append
deriving DecidableEq

def placement (priority : Int) (owner : M256i) : List (Entry Order) → Placement
  | [] => .skip
  | e :: es =>
    if e.priority < priority then .insert
    else if e.priority = priority ∧ e.value.owner = owner then .merge
    else if es = [] then .append
    else placement priority owner es

def orderKey (e : Entry Order) : M256i × Int × M256i := (e.pov, e.priority, e.value.owner)

def mergeOrder (c : Collection Order) (pov : M256i) (priority : Int) (order : Order) :
    Collection Order :=
  Keyed.alter orderKey (pov, priority, order.owner) (fun e => some { e with
      value := { e.value with
        numberOfMBonds := e.value.numberOfMBonds + order.numberOfMBonds
        feeDebt := e.value.feeDebt + order.feeDebt } }) c

/-- Put an order into its book. An order that goes to the end has no fee debt. -/
def placeOrder (c : Collection Order) (queue : List (Entry Order)) (pov : M256i) (priority : Int)
    (order : Order) : Collection Order :=
  if c.population pov = 0 then c.add ORDER_CAPACITY pov order priority
  else
    match placement priority order.owner queue with
    | .skip => c
    | .insert => c.add ORDER_CAPACITY pov order priority
    | .merge => mergeOrder c pov priority order
    | .append => c.add ORDER_CAPACITY pov { order with feeDebt := 0 } priority

section

variable {W : Type} (host : Host W) (call : Invocation)

def pay (destination : M256i) (amount : Int) (w : W) : W := (host.transfer destination amount w).2

def refund (w : W) : W :=
  if 0 < call.invocationReward then pay host call.invocator call.invocationReward w else w

def refundExcess (fee : Int) (w : W) : W :=
  if fee < call.invocationReward then pay host call.invocator (call.invocationReward - fee) w
  else w

def isCommissionFree (s : State) (account : M256i) : Bool := account ∈ s.commissionFreeAddresses

def bonds (name : Nat) (account : M256i) (w : W) : Int :=
  host.shares SELF_INDEX (bond name) account w

def moveBonds (name : Nat) (source destination : M256i) (amount : Int) (w : W) : Int × W :=
  host.moveShares (bond name) source destination amount w

def State.replaceInfo (s : State) (epoch : Int) (info : MBondInfo) : State :=
  if uint16 epoch ∈ s.epochMbondInfoMap then
    { s with epochMbondInfoMap := s.epochMbondInfoMap.insert (uint16 epoch) info }
  else s

/-! ## Staking and transfers -/

/-- The quotient of two signed numbers, which is rounded towards zero. -/
def divSigned (a b : Int) : Int := if b = 0 then 0 else a.tdiv b

def stakeFee (quMillions : Int) : Int :=
  divSigned (smul (smul quMillions QBOND_MBOND_PRICE) QBOND_STAKE_FEE_PERCENT) 10000

def amountAndFee (quMillions : Int) : Int :=
  uint64 (sadd (smul quMillions QBOND_MBOND_PRICE) (stakeFee quMillions))

def addStaked (account : M256i) (amount : Int) (l : List (M256i × Int)) : List (M256i × Int) :=
  if account ∈ l.map Prod.fst then
    l.map fun p => if p.1 = account then (p.1, p.2 + amount) else p
  else if l.length < 524288 then (account, amount) :: l
  else l

def takeFee (fee : Int) (s : State) (w : W) : State × W :=
  if isCommissionFree s call.invocator then (s, pay host call.invocator fee w)
  else ({ s with totalEarnedAmount := s.totalEarnedAmount + fee }, w)

def stakeError (epoch : Int) (quMillions : Int) (s : State) : Bool :=
  uint64 quMillions < QBOND_MIN_MBONDS_TO_STAKE ∨
    MAX_SUPPLY < uint64 (smul quMillions QBOND_MBOND_PRICE) ∨ (s.info epoch).isNone ∨
    call.invocationReward < 0 ∨ call.invocationReward < amountAndFee quMillions ∨
    QBOND_STAKE_LIMIT_PER_EPOCH < uint64 (((s.info epoch).getD noInfo).totalStaked + quMillions)

def stake (epoch : Int) (quMillions : Int) (s : State) (w : W) : State × W :=
  if stakeError call epoch quMillions s then
    (s, pay host call.invocator call.invocationReward w)
  else
    let info := (s.info epoch).getD noInfo
    let w := refundExcess host call (amountAndFee quMillions) w
    let (s, w) := takeFee host call
      (divSigned (smul quMillions QBOND_MBOND_PRICE * QBOND_STAKE_FEE_PERCENT) 10000) s w
    let s := { s with
      userTotalStakedMap := addStaked call.invocator quMillions s.userTotalStakedMap }
    let stakers :=
      if bonds host info.name call.invocator w ≤ 0 then info.stakersAmount + 1
      else info.stakersAmount
    let w := (moveBonds host info.name SELF call.invocator quMillions w).2
    (s.replaceInfo epoch
        { info with stakersAmount := stakers, totalStaked := info.totalStaked + quMillions },
      host.lock (quMillions * QBOND_MBOND_PRICE) w)

structure TransferInput where
  newOwnerAndPossessor : M256i
  (epoch numberOfMBonds : Int)

def transferError (input : TransferInput) : Bool :=
  QBOND_MBONDS_EMISSION < input.numberOfMBonds ∨ input.numberOfMBonds ≤ 0 ∨
    input.epoch ≠ uint16 input.epoch ∨ call.invocationReward < QBOND_MBOND_TRANSFER_FEE

def transferMBondOwnershipAndPossession (input : TransferInput) (s : State) (w : W) :
    Int × State × W :=
  if transferError call input then (0, s, pay host call.invocator call.invocationReward w)
  else
    let w := refundExcess host call QBOND_MBOND_TRANSFER_FEE w
    let reserved := numberOfReservedMBonds s call.invocator input.epoch
    let info := (s.info input.epoch).getD noInfo
    if (s.info input.epoch).isSome ∧
        sint64 (bonds host info.name call.invocator w - reserved) < input.numberOfMBonds then
      (0, s, pay host call.invocator QBOND_MBOND_TRANSFER_FEE w)
    else
      let arrived := bonds host info.name input.newOwnerAndPossessor w ≤ 0
      let r := moveBonds host info.name call.invocator input.newOwnerAndPossessor
        input.numberOfMBonds w
      let left := bonds host info.name call.invocator r.2 ≤ 0
      let stakers := info.stakersAmount + (if arrived then 1 else 0) - (if left then 1 else 0)
      (if r.1 < 0 then 0 else input.numberOfMBonds, takeFee host call QBOND_MBOND_TRANSFER_FEE
          (s.replaceInfo input.epoch { info with stakersAmount := stakers }) r.2)

/-! ## Ask orders -/

structure OrderInput where
  (epoch price numberOfMBonds : Int)

def tradeFee (value : Int) : Int := value * QBOND_TRADE_FEE_PERCENT / 10000

structure Matching (W : Type) where
  (numberOfMBonds fee soldAmount : Int)
  world : W

def sell (name : Nat) (e : Entry Order) (amount : Int) (m : Matching W) : Matching W where
  numberOfMBonds := m.numberOfMBonds - amount
  fee := m.fee + tradeFee (amount * e.priority)
  soldAmount := m.soldAmount + amount * e.priority
  world := (moveBonds host name call.invocator e.value.owner amount m.world).2

def Order.take (o : Order) (amount : Int) : Order :=
  { o with numberOfMBonds := o.numberOfMBonds - amount }

def matchBids (name : Nat) (pov : M256i) (price : Int) :
    Collection Order → Matching W → Collection Order × Matching W
  | [], m => ([], m)
  | e :: es, m =>
    if e.pov ≠ pov then
      let r := matchBids name pov price es m
      (e :: r.1, r.2)
    else if e.priority < price then (e :: es, m)
    else if m.numberOfMBonds ≤ e.value.numberOfMBonds then
      (if m.numberOfMBonds < e.value.numberOfMBonds then
          { e with value := e.value.take m.numberOfMBonds } :: es
        else es,
        sell host call name e m.numberOfMBonds m)
    else matchBids name pov price es (sell host call name e e.value.numberOfMBonds m)

variable (input : OrderInput) (s : State)

def addAskError : Bool :=
  input.price ≤ 0 ∨ MAX_SUPPLY ≤ input.price ∨ input.numberOfMBonds ≤ 0 ∨
    QBOND_MBONDS_EMISSION < input.numberOfMBonds ∨
    MAX_SUPPLY < smul input.price input.numberOfMBonds ∨ input.epoch ≠ uint16 input.epoch ∨
    (s.info input.epoch).isNone

def earnTrade (fee soldAmount : Int) (s : State) (w : W) : State × W :=
  ({ s with
      totalEarnedAmount := s.totalEarnedAmount + fee
      earnedAmountFromTrade := s.earnedAmountFromTrade + fee },
    pay host call.invocator (soldAmount - (fee - QBOND_ASK_ORDER_FEE)) w)

def askFees (fee remainingFee : Int) : Int × Int :=
  if fee + remainingFee ≤ QBOND_ASK_ORDER_FEE then (QBOND_ASK_ORDER_FEE, 0)
  else if fee < QBOND_ASK_ORDER_FEE then
    (QBOND_ASK_ORDER_FEE, fee + remainingFee - QBOND_ASK_ORDER_FEE)
  else (fee, remainingFee)

/-- The end of `AddAskOrder`, where the bonds that were not sold become an order. -/
def leaveAsk (pov : M256i) (s : State) (m : Matching W) : State × W :=
  if m.numberOfMBonds = 0 then
    if isCommissionFree s call.invocator then (s, pay host call.invocator m.soldAmount m.world)
    else earnTrade host call (max m.fee QBOND_ASK_ORDER_FEE) m.soldAmount s m.world
  else
    let fees := askFees m.fee (tradeFee (m.numberOfMBonds * input.price))
    let feeDebt := if isCommissionFree s call.invocator then 0 else fees.2
    let (s, w) :=
      if isCommissionFree s call.invocator then (s, pay host call.invocator m.soldAmount m.world)
      else earnTrade host call fees.1 m.soldAmount s m.world
    ({ s with
        askOrders := placeOrder s.askOrders (askQueue s pov) pov (-input.price)
          ⟨call.invocator, input.epoch, m.numberOfMBonds, feeDebt⟩ },
      w)

/-- The number of bonds that were sold or put up for sale, with the state and the node. -/
def addAskOrder (w : W) : Int × State × W :=
  if call.invocationReward < QBOND_ASK_ORDER_FEE then (0, s, refund host call w)
  else if addAskError input s then (0, s, pay host call.invocator call.invocationReward w)
  else
    let info := (s.info input.epoch).getD noInfo
    if sint64 (bonds host info.name call.invocator w -
        numberOfReservedMBonds s call.invocator input.epoch) < input.numberOfMBonds then
      (0, s, pay host call.invocator call.invocationReward w)
    else
      let w := refundExcess host call QBOND_ASK_ORDER_FEE w
      let w :=
        if isCommissionFree s call.invocator then pay host call.invocator QBOND_ASK_ORDER_FEE w
        else w
      let pov := mbondIdentity info.name input.epoch
      let r := matchBids host call info.name pov input.price s.bidOrders
        ⟨input.numberOfMBonds, 0, 0, w⟩
      (input.numberOfMBonds, leaveAsk host call input pov { s with bidOrders := r.1 } r.2)

def removeError : Bool :=
  input.price ≤ 0 ∨ MAX_SUPPLY < input.price ∨ input.numberOfMBonds ≤ 0 ∨
    QBOND_MBONDS_EMISSION < input.numberOfMBonds ∨
    MAX_SUPPLY < smul input.price input.numberOfMBonds ∨ input.epoch ≠ uint16 input.epoch ∨
    (s.info input.epoch).isNone

def reduceAsk (amount : Int) (e : Entry Order) : Option (Entry Order) :=
  if e.value.numberOfMBonds ≤ amount then none
  else some { e with
    value := { e.value.take amount with
      feeDebt := e.value.feeDebt -
        divSigned (amount * e.value.feeDebt) e.value.numberOfMBonds } }

def removeAskOrder (w : W) : Int × State × W :=
  let w := refund host call w
  if removeError input s then (0, s, w)
  else
    let key := (mbondIdentity ((s.info input.epoch).getD noInfo).name input.epoch, -input.price,
      call.invocator)
    match Keyed.first orderKey key s.askOrders with
    | none => (0, s, w)
    | some e =>
      (if e.value.numberOfMBonds ≤ input.numberOfMBonds then e.value.numberOfMBonds
        else input.numberOfMBonds,
        { s with
          askOrders := Keyed.alter orderKey key (reduceAsk input.numberOfMBonds) s.askOrders },
        w)

/-! ## Bid orders -/

/-- The variables of `AddBidOrder`. -/
structure Buying (W : Type) where
  (numberOfMBonds earned : Int)
  world : W

def owedFee (e : Entry Order) (amount : Int) : Int :=
  if isCommissionFree s e.value.owner then 0
  else if e.value.numberOfMBonds = amount then e.value.feeDebt
  else divSigned (amount * e.value.feeDebt) e.value.numberOfMBonds

/-- Buy bonds of one ask order: the bonds to the caller, the price less the fee to the seller, and
what the caller offered above the price back. -/
def buy (name : Nat) (price : Int) (e : Entry Order) (amount : Int) (b : Buying W) : Buying W :=
  let w := (moveBonds host name e.value.owner call.invocator amount b.world).2
  let w := pay host e.value.owner (-(amount * e.priority) - owedFee s e amount) w
  { numberOfMBonds := b.numberOfMBonds - amount
    earned := b.earned + owedFee s e amount
    world :=
      if -e.priority < price then pay host call.invocator (amount * (price + e.priority)) w
      else w }

def matchAsks (s : State) (name : Nat) (pov : M256i) (price : Int) :
    Collection Order → Buying W → Collection Order × Buying W
  | [], b => ([], b)
  | e :: es, b =>
    if e.pov ≠ pov then
      let r := matchAsks s name pov price es b
      (e :: r.1, r.2)
    else if price < -e.priority then (e :: es, b)
    else if b.numberOfMBonds ≤ e.value.numberOfMBonds then
      (if b.numberOfMBonds < e.value.numberOfMBonds then
          { e with
            value := { e.value.take b.numberOfMBonds with
              feeDebt := e.value.feeDebt - owedFee s e b.numberOfMBonds } } :: es
        else es,
        buy host call s name price e b.numberOfMBonds b)
    else matchAsks s name pov price es (buy host call s name price e e.value.numberOfMBonds b)

def addBidError : Bool :=
  call.invocationReward < smul input.numberOfMBonds input.price ∨
    call.invocationReward < QBOND_MIN_BID_AMOUNT ∨ removeError input s

def addBidOrder (w : W) : Int × State × W :=
  if addBidError call input s then (0, s, pay host call.invocator call.invocationReward w)
  else
    let info := (s.info input.epoch).getD noInfo
    let w := refundExcess host call (smul input.numberOfMBonds input.price) w
    let pov := mbondIdentity info.name input.epoch
    let r := matchAsks host call s info.name pov input.price s.askOrders
      ⟨input.numberOfMBonds, 0, w⟩
    let s :=
      { s with
        askOrders := r.1
        totalEarnedAmount := s.totalEarnedAmount + r.2.earned
        earnedAmountFromTrade := s.earnedAmountFromTrade + r.2.earned }
    if r.2.numberOfMBonds = 0 then (input.numberOfMBonds, s, r.2.world)
    else
      (input.numberOfMBonds,
        { s with
          bidOrders := placeOrder s.bidOrders (s.bidOrders.queue pov) pov input.price
            ⟨call.invocator, input.epoch, r.2.numberOfMBonds, 0⟩ },
        r.2.world)

/-- The change of a bid order, and the number of bonds that leave it. A remainder is compared with
the least amount before the order was read, so what is compared is the negative of the input. -/
def reduceBid (e : Entry Order) : Option (Option (Entry Order) × Int) :=
  if e.value.numberOfMBonds ≤ input.numberOfMBonds then some (none, e.value.numberOfMBonds)
  else if uint64 (input.price * (0 - input.numberOfMBonds)) < QBOND_MIN_BID_AMOUNT then none
  else some (some { e with value := e.value.take input.numberOfMBonds }, input.numberOfMBonds)

def removeBidOrder (w : W) : Int × State × W :=
  if call.invocationReward < QBOND_PROCEDURE_FEE ∨ removeError input s ∨
      smul input.price input.numberOfMBonds < QBOND_MIN_BID_AMOUNT then
    (0, s, refund host call w)
  else
    let w := refundExcess host call QBOND_PROCEDURE_FEE w
    let key := (mbondIdentity ((s.info input.epoch).getD noInfo).name input.epoch, input.price,
      call.invocator)
    match Keyed.first orderKey key s.bidOrders with
    | none => (0, s, w)
    | some e =>
      match reduceBid input e with
      | none => (0, s, pay host call.invocator QBOND_PROCEDURE_FEE w)
      | some (e', removed) =>
        (removed, { s with bidOrders := Keyed.alter orderKey key (fun _ => e') s.bidOrders },
          (host.burn QBOND_PROCEDURE_FEE (pay host call.invocator (removed * input.price) w)).2)

/-! ## Other procedures -/

def burnQU (amount : Int) (s : State) (w : W) : Int × State × W :=
  if amount < QBOND_MIN_BURN_AMOUNT ∨ MAX_SUPPLY < amount ∨ call.invocationReward < amount then
    (0, s, refund host call w)
  else (amount, s, (host.burn amount (refundExcess host call amount w)).2)

def updateCFA (user : M256i) (operation : Bool) (s : State) (w : W) : Bool × State × W :=
  let w := refund host call w
  if call.invocator ≠ s.adminAddress then (false, s, w)
  else if operation then
    if isCommissionFree s user then (true, s, w)
    else if s.commissionFreeAddresses.length < 1024 then
      (true, { s with commissionFreeAddresses := s.commissionFreeAddresses ++ [user] }, w)
    else (false, s, w)
  else
    (isCommissionFree s user,
      { s with commissionFreeAddresses := s.commissionFreeAddresses.erase user }, w)

/-- A payment that arrives; those of QEARN are noted where bonds end in the next epoch. -/
def postIncomingTransfer (fromQearn : Bool) (epoch : Int) (amount : Nat) (s : State) : State :=
  if fromQearn ∧ (s.info (epoch - 52)).isSome then { s with qearnIncomeAmount := amount } else s

end

/-! ## Epochs -/

section

variable {W : Type} (host : Host W) (epoch : Int)

def redeem (name : Nat) (rewardPerMBond : Int) (w : W) (holder : M256i × Int) : W :=
  if holder.1 = SELF then w
  else
    let w := pay host holder.1 ((QBOND_MBOND_PRICE + rewardPerMBond) * holder.2) w
    (moveBonds host name holder.1
      (if epoch - 53 < QBOND_CYCLIC_START_EPOCH then NULL_ID else SELF) holder.2 w).2

def returnBid (w : W) (e : Entry Order) : W :=
  let quToReturn := e.value.numberOfMBonds * e.priority
  if quToReturn ≤ QBOND_PROCEDURE_FEE then (host.burn quToReturn w).2
  else
    (host.burn QBOND_PROCEDURE_FEE
      (pay host e.value.owner (quToReturn - QBOND_PROCEDURE_FEE) w)).2

def redeemAll (info : MBondInfo) (s : State) (w : W) : State × W :=
  let totalReward := s.qearnIncomeAmount - info.totalStaked * QBOND_MBOND_PRICE
  let rewardPerMBond := divSigned totalReward info.totalStaked
  let w := (host.owners (bond info.name) w).foldl (redeem host epoch info.name rewardPerMBond) w
  let pov := mbondIdentity info.name (uint16 (epoch - 53))
  ({ s with
      qearnIncomeAmount := 0
      askOrders := s.askOrders.filter fun e => e.pov ≠ pov
      bidOrders := s.bidOrders.filter fun e => e.pov ≠ pov },
    (s.bidOrders.queue pov).foldl (returnBid host) w)

def issueBonds (w : W) : W :=
  (List.range QBOND_FULL_CYCLE_EPOCHS_AMOUNT).foldl
    (fun w i => (host.issueAsset (bondName (i + 1)) SELF 0 QBOND_MBONDS_EMISSION 0 w).2) w

variable (s : State)

def nextCounter : Nat :=
  if epoch = QBOND_CYCLIC_START_EPOCH ∨ QBOND_FULL_CYCLE_EPOCHS_AMOUNT ≤ s.cyclicMbondCounter then 1
  else s.cyclicMbondCounter + 1

def openEpoch : State :=
  let info : MBondInfo := ⟨bondName (nextCounter epoch s), 0, 0⟩
  { s with
    cyclicMbondCounter := nextCounter epoch s
    epochMbondInfoMap :=
      if uint16 epoch ∈ s.epochMbondInfoMap ∨
          s.epochMbondInfoMap.entries.length < QBOND_MAX_EPOCH_COUNT then
        s.epochMbondInfoMap.insert (uint16 epoch) info
      else s.epochMbondInfoMap }

def redeemed : Option MBondInfo := if 0 < s.qearnIncomeAmount then s.info (epoch - 53) else none

def beginEpoch (w : W) : State × W :=
  let (s, w) :=
    match redeemed epoch s with
    | some info => redeemAll host epoch info s w
    | none => (s, w)
  (openEpoch epoch s, if epoch = QBOND_CYCLIC_START_EPOCH then issueBonds host w else w)

def endEpoch (w : W) : State × W :=
  let left := s.totalEarnedAmount - s.distributedAmount
  let amountToQvault := left * QBOND_QVAULT_DISTRIBUTION_PERCENT / 10000
  ({ s with distributedAmount := s.distributedAmount + left },
    pay host s.devAddress (left - amountToQvault)
      (pay host (contractId QVAULT_CONTRACT_INDEX) amountToQvault w))

end

end QubicCore.Contracts.QBond
