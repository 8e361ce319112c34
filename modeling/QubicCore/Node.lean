import QubicCore.Library.Traced
import QubicCore.Spectrum.Basic
import QubicCore.Assets.Basic

/-!
# The node around the spectrum

The part of a node's state that transactions and IPOs work on, and the constants of the tick in
which they run. Every debit and credit is traced with the public key found in the slot that is
written, which need not be the key the caller had in mind.

Contract code, and the handlers of transactions sent to the system, are parameters of `Env`.
-/

namespace QubicCore

open Library

/-- The state of a contract in its IPO epoch: the bids, best first. -/
structure IPO where
  publicKeys : Nat → M256i
  prices : Nat → Int

inductive ContractError where
  | noContractError
  | allocInputOutputFailed
  | allocLocalsFailed
  | allocContextOtherFunctionCallFailed
  | allocContextOtherProcedureCallFailed
  | tooManyActions
  | timeout
  | stoppedToResolveDeadlock
  | ipoFailed
  | funcProcUnknown
deriving DecidableEq

structure ContractDescription where
  assetName : BitVec 56
  (constructionEpoch destructionEpoch : Nat)

structure Node where
  spectrum : Spectrum
  assets : Universe
  /-- `contractStates`, read as `IPO*`; `none` is the null pointer. -/
  ipos : Nat → Option IPO
  contractFeeReserves : Nat → Int
  contractError : Nat → ContractError

structure Transaction where
  (sourcePublicKey destinationPublicKey : M256i)
  amount : Int
  (inputType inputSize : Nat)
  input : Nat → BitVec 8

/-- A handler that changes the node and may never return. -/
abbrev Handler := Node → Option Node

structure Env where
  (spectrumDepth assetsDepth : Nat)
  k12 : KangarooTwelve
  (epoch tick contractCount : Nat)
  contractDescriptions : Nat → ContractDescription
  isFrozenAddress : M256i → Bool
  notifyContractOfIncomingTransfer : M256i → Int → Handler
  processSystemTransaction : Transaction → Handler
  processTickTransactionContractProcedure : Transaction → Nat → Nat → Handler

inductive Purpose where
  | transfer
  | ipoBid
  | ipoBidRefund
  | contractRefund
deriving DecidableEq

/-- One balance changed: why, whose, and by how much. -/
inductive Entry where
  | debit (purpose : Purpose) (publicKey : M256i) (amount : Int)
  | credit (purpose : Purpose) (publicKey : M256i) (amount : Int)
deriving DecidableEq

/-- The contract with index `i` has the id `(i, 0, 0, 0)`. -/
def isPublicKeyOfContract (env : Env) (publicKey : M256i) : Bool :=
  publicKey.u64 3 = 0 ∧ publicKey.u64 2 = 0 ∧ publicKey.u64 1 = 0 ∧
    publicKey.u64 0 < env.contractCount

def contractIndexOf (publicKey : M256i) : Nat := publicKey.u64 0 % 2 ^ 32

namespace Node

def decreaseEnergy (env : Env) (n : Node) (purpose : Purpose) (index : Nat) (amount : Int) :
    Traced Entry (Bool × Node) :=
  let result := n.spectrum.decreaseEnergy env.tick index amount
  { events := if result.1 then
      [.debit purpose (n.spectrum.spectrum index).publicKey amount] else []
    result := some (result.1, { n with spectrum := result.2 }) }

def increaseEnergy (env : Env) (n : Node) (purpose : Purpose) (publicKey : M256i) (amount : Int) :
    Traced Entry Node :=
  { events := if !isZero publicKey ∧ amount ≥ 0 then [.credit purpose publicKey amount] else []
    result := (n.spectrum.increaseEnergy env.spectrumDepth env.k12 env.tick publicKey amount).map
      fun s => { n with spectrum := s } }

end Node

end QubicCore
