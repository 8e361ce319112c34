import QubicCore.Contracts.Qpi
import QubicCore.Library.SwapDelete

/-!
# The contract RANDOM

Providers commit to random bits in one tick and reveal them three ticks later, so the ticks fall
into three streams. Each provider locks a collateral whose size is its tier. `END_TICK` mixes the
reveals of a stream into one entropy for each tier and removes the providers that did not reveal.

The nine arrays over the providers are one array of records here. The contract never reads the
result of `qpi.transfer` or `qpi.burn`, so a procedure gives back the new state and the list of the
payments it makes.
-/

namespace QubicCore.Contracts.Random

open Library Function

def RANDOM_BITFEE : Nat := 100
def RANDOM_STREAM_CAPACITY : Nat := 1365

abbrev Bit4096 := BitVec 4096

/-- One entry of each of the arrays over the providers. -/
structure Slot where
  provider : M256i
  collateralTier : Nat
  commit : M256i
  reveal : Bit4096
  lockedCollateralAmount : Nat
  (revealOrCommitFlag revealedThisTickFlag contributedToEntropyFlag : Bool)
  lastUpdateTick : Nat
deriving DecidableEq

def Slot.zero : Slot := ⟨0, 0, 0, 0, 0, false, false, false, 0⟩

structure State where
  (earnedAmount burnedAmount bitFee : Nat)
  populations : Nat → Nat
  slots : Nat → Slot
  entropy : Nat → Bit4096

def State.init : State where
  earnedAmount := 0
  burnedAmount := 0
  bitFee := RANDOM_BITFEE
  populations _ := 0
  slots _ := .zero
  entropy _ := 0

structure Key where
  stream : Nat
  provider : M256i
  collateralTier : Nat
deriving DecidableEq

/-- What a procedure does with money. A collateral that is locked moves nothing: it came with the
call. -/
inductive Payment where
  | refund (destination : M256i) (amount : Int)
  | lock (key : Key) (amount : Nat)
  | giveBack (key : Key) (destination : M256i) (amount : Nat)
  | slash (key : Key) (amount : Nat)
deriving DecidableEq

/-- What the contract asks the node. -/
structure Host where
  contractCount : Nat
  contractCount_pos : 0 < contractCount
  k12 : Bit4096 → M256i

variable (host : Host)

def Host.isContractId (id : M256i) : Bool :=
  id.u64 3 = 0 ∧ id.u64 2 = 0 ∧ id.u64 1 = 0 ∧ id.u64 0 < host.contractCount

namespace State

def index (stream i : Nat) : Nat := stream * RANDOM_STREAM_CAPACITY + i

def slot (s : State) (stream i : Nat) : Slot := s.slots (index stream i)

def setSlot (s : State) (stream i : Nat) (slot : Slot) : State :=
  { s with slots := update s.slots (index stream i) slot }

def find (s : State) (stream : Nat) (provider : M256i) (collateralTier : Nat) : Nat :=
  ((List.range (s.populations stream)).find? fun i =>
    provider = (s.slot stream i).provider ∧
      collateralTier = (s.slot stream i).collateralTier).getD (s.populations stream)

end State

/-! ## `BuyEntropy` -/

structure BuyEntropyInput where
  (collateralTier numberOfBits : Nat)
  trustee : M256i

def trusteeOk (s : State) (stream : Nat) (input : BuyEntropyInput) : Bool :=
  input.trustee = 0 ∨ ∃ i < s.populations stream, input.trustee = (s.slot stream i).provider ∧
    input.collateralTier = (s.slot stream i).collateralTier ∧
    (s.slot stream i).contributedToEntropyFlag

variable (call : Invocation) (tick : Nat)

def buyEntropy (input : BuyEntropyInput) (s : State) : State × List Payment × Bit4096 :=
  let entropyCost : Int := sint64 (input.numberOfBits * s.bitFee)
  if input.collateralTier ≤ 9 ∧ 1 ≤ input.numberOfBits ∧ input.numberOfBits ≤ 4096 ∧
      call.invocationReward ≥ entropyCost then
    let stream := (tick + 2) % 2 ^ 32 % 3
    let entropy := s.entropy (stream * 10 + input.collateralTier)
    if entropy = 0 ∨ !trusteeOk s stream input then
      (s, [.refund call.invocator call.invocationReward], 0)
    else
      ({ s with earnedAmount := (s.earnedAmount + (uint64 entropyCost).toNat) % 2 ^ 64 },
        if call.invocationReward > entropyCost then
          [.refund call.invocator (call.invocationReward - entropyCost)] else [],
        (entropy.setWidth input.numberOfBits).setWidth 4096)
  else (s, [.refund call.invocator call.invocationReward], 0)

/-! ## `RevealAndCommit` -/

structure RevealAndCommitInput where
  reveal : Bit4096
  commit : M256i

def collateralTierOf (invocationReward : Int) : Option Nat :=
  match invocationReward with
  | 1 => some 0
  | 10 => some 1
  | 100 => some 2
  | 1000 => some 3
  | 10000 => some 4
  | 100000 => some 5
  | 1000000 => some 6
  | 10000000 => some 7
  | 100000000 => some 8
  | 1000000000 => some 9
  | _ => none

/-- A reveal is refused: the provider is not found, its reveal is stale, the preimage is wrong, or
it took part in this tick already. -/
def refusesReveal (s : State) (stream i : Nat) (reveal : Bit4096) : Bool :=
  i = s.populations stream || (s.slot stream i).reveal ≠ 0 ||
    host.k12 reveal ≠ (s.slot stream i).commit || (s.slot stream i).revealOrCommitFlag

def giveBack (call : Invocation) (s : State) (stream i : Nat) : List Payment :=
  let slot := s.slot stream i
  if slot.lockedCollateralAmount > 0 then
    [.giveBack ⟨stream, slot.provider, slot.collateralTier⟩ call.invocator
      slot.lockedCollateralAmount]
  else []

/-- Reveal and leave: an empty commit. -/
def revealAndLeave (reveal : Bit4096) (stream tier : Nat) (s : State) : State × List Payment :=
  let refund : Payment := .refund call.invocator call.invocationReward
  if reveal = 0 then (s, [refund])
  else
    let i := s.find stream call.invocator tier
    if refusesReveal host s stream i reveal then (s, [refund])
    else
      (s.setSlot stream i { s.slot stream i with
          reveal := reveal
          lockedCollateralAmount := 0
          commit := 0
          revealOrCommitFlag := true
          revealedThisTickFlag := true
          lastUpdateTick := tick },
        giveBack call s stream i ++ [refund])

def revealAndRecommit (input : RevealAndCommitInput)
    (stream tier : Nat) (s : State) : State × List Payment :=
  let i := s.find stream call.invocator tier
  if refusesReveal host s stream i input.reveal then
    (s, [.refund call.invocator call.invocationReward])
  else
    (s.setSlot stream i { s.slot stream i with
        reveal := input.reveal
        commit := input.commit
        lockedCollateralAmount := (uint64 call.invocationReward).toNat
        revealOrCommitFlag := true
        revealedThisTickFlag := true
        lastUpdateTick := tick },
      giveBack call s stream i ++
        [.lock ⟨stream, (s.slot stream i).provider, (s.slot stream i).collateralTier⟩
          (uint64 call.invocationReward).toNat])

def firstCommit (commit : M256i) (stream tier : Nat) (s : State) : State × List Payment :=
  let i := s.find stream call.invocator tier
  if i < s.populations stream ∨ i = RANDOM_STREAM_CAPACITY then
    (s, [.refund call.invocator call.invocationReward])
  else
    let s := s.setSlot stream i { s.slot stream i with
      provider := call.invocator
      collateralTier := tier
      commit := commit
      reveal := 0
      lockedCollateralAmount := (uint64 call.invocationReward).toNat
      revealOrCommitFlag := true
      revealedThisTickFlag := false
      lastUpdateTick := tick }
    ({ s with populations := update s.populations stream (i + 1) },
      [.lock ⟨stream, call.invocator, tier⟩ (uint64 call.invocationReward).toNat])

def revealAndCommit (input : RevealAndCommitInput) (s : State) : State × List Payment :=
  let refund : Payment := .refund call.invocator call.invocationReward
  if host.isContractId call.invocator then (s, [refund])
  else
    match collateralTierOf call.invocationReward with
    | none => (s, [refund])
    | some tier =>
      let stream := tick % 3
      if input.commit = 0 then revealAndLeave host call tick input.reveal stream tier s
      else if input.reveal ≠ 0 then revealAndRecommit host call tick input stream tier s
      else firstCommit call tick input.commit stream tier s

/-! ## `END_TICK` -/

namespace State

variable (s : State)

def setEntropy (stream tier : Nat) (entropy : Bit4096) : State :=
  { s with entropy := update s.entropy (stream * 10 + tier) entropy }

def clearEntropy (stream : Nat) : State :=
  (List.range 10).foldl (fun s i => s.setEntropy stream i 0) s

def clearContributed (stream : Nat) : State :=
  (List.range (s.populations stream)).foldl (fun s i =>
    s.setSlot stream i { s.slot stream i with contributedToEntropyFlag := false }) s

def noReveal (stream : Nat) : Bool :=
  ∀ i < s.populations stream, (s.slot stream i).revealedThisTickFlag = false

/-- Remove slot `i`: the last provider of the stream takes its place. -/
def swapDelete (stream i : Nat) : State :=
  let lastIndex := index stream (s.populations stream - 1)
  let slots := if index stream i ≠ lastIndex then
    update s.slots (index stream i) (s.slots lastIndex) else s.slots
  { s with
    slots := update slots lastIndex .zero
    populations := update s.populations stream (s.populations stream - 1) }

end State

/-- A tick without reveals: nobody is slashed, who did not take part gets the collateral back. -/
def visitSilent (stream i : Nat) (x : State × List Payment) : State × List Payment :=
  let (s, payments) := x
  let slot := s.slot stream i
  if slot.revealOrCommitFlag then
    (s.setSlot stream i { slot with revealOrCommitFlag := false }, payments)
  else
    (s.swapDelete stream i, payments ++ if slot.lockedCollateralAmount > 0 then
        [.giveBack ⟨stream, slot.provider, slot.collateralTier⟩ slot.provider
          slot.lockedCollateralAmount] else [])

structure Walk where
  state : State
  payments : List Payment
  /-- The tiers in which somebody did not reveal. -/
  collateralTierFlags : BitVec 16

/-- Mix the reveal of slot `i` into the entropy of its tier. -/
def mixReveal (s : State) (stream i : Nat) (collateralTierFlags : BitVec 16) : State :=
  let slot := s.slot stream i
  if slot.revealedThisTickFlag then
    let mixed := !collateralTierFlags.getLsbD slot.collateralTier
    let s := if mixed then s.setEntropy stream slot.collateralTier
      (s.entropy (stream * 10 + slot.collateralTier) ^^^ slot.reveal) else s
    s.setSlot stream i { slot with
      contributedToEntropyFlag := mixed || slot.contributedToEntropyFlag
      reveal := 0 }
  else s

def visit (stream i : Nat) (x : Walk) : Walk :=
  let slot := x.state.slot stream i
  if slot.revealOrCommitFlag then
    let s := mixReveal x.state stream i x.collateralTierFlags
    let s := s.setSlot stream i { s.slot stream i with
      revealOrCommitFlag := false
      revealedThisTickFlag := false }
    { x with state := if (s.slot stream i).commit = 0 then s.swapDelete stream i else s }
  else
    let burned := slot.lockedCollateralAmount > 0
    let s := if burned then { x.state with
      burnedAmount := (x.state.burnedAmount + slot.lockedCollateralAmount) % 2 ^ 64 } else x.state
    { state := s.swapDelete stream i
      payments := x.payments ++ if burned then
        [.slash ⟨stream, slot.provider, slot.collateralTier⟩ slot.lockedCollateralAmount] else []
      collateralTierFlags := x.collateralTierFlags ||| (1#16 <<< slot.collateralTier) }

def dropEntropy (s : State) (stream : Nat) (collateralTierFlags : BitVec 16) : State :=
  (List.range 10).foldl (fun s i =>
    if collateralTierFlags.getLsbD i then s.setEntropy stream i 0 else s) s

def endTick (s : State) : State × List Payment :=
  let stream := tick % 3
  let s := (s.clearEntropy stream).clearContributed stream
  if s.noReveal stream then countdown (visitSilent stream) (s.populations stream) (s, [])
  else
    let x := countdown (visit stream) (s.populations stream) ⟨s, [], 0⟩
    (dropEntropy x.state stream x.collateralTierFlags, x.payments)

end QubicCore.Contracts.Random
