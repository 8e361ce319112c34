import QubicCore.Ipo.Basic

/-!
# Processing a tick transaction

`processTickTransaction` looks up the slot of the source, debits it, credits the destination and
then dispatches on the destination: the system, a contract in its IPO epoch, or a contract that is
running. The build without `LITE_WASM_SC` is modelled, in which there is no deployment address.
-/

namespace QubicCore

open Library

def FREEZE_FROM_TICK : Nat := 87500000

/-- The size of `ContractIPOBid`, padding included. -/
def sizeofContractIPOBid : Nat := 16

namespace Transaction

/-- The payload read as `ContractIPOBid`: the first eight bytes are the price. -/
def bidPrice (tx : Transaction) : Int :=
  sint64 ((List.range 8).foldl (fun v i => v + (tx.input i).toNat * 256 ^ i) 0)

def bidQuantity (tx : Transaction) : Nat := (tx.input 8).toNat + 256 * (tx.input 9).toNat

end Transaction

namespace Node

variable (env : Env) (n : Node) (tx : Transaction)

def processTickTransactionContractIPO (spectrumIndex contractIndex : Nat) : Traced Entry Node := do
  let (_, n) ← n.bidInContractIPO env env.notifyContractOfIncomingTransfer tx.bidPrice
    tx.bidQuantity tx.sourcePublicKey spectrumIndex contractIndex
  return n

/-- The contract cannot run: send the amount back. -/
def refundTransaction : Traced Entry Node :=
  if tx.amount > 0 then do
    let destIndex ← Traced.ofOption (n.spectrum.spectrumIndex env.spectrumDepth
      tx.destinationPublicKey)
    if destIndex ≥ 0 then
      let (_, n) ← n.decreaseEnergy env .contractRefund destIndex.toNat tx.amount
      n.increaseEnergy env .contractRefund tx.sourcePublicKey tx.amount
    else pure n
  else pure n

def dispatchTransaction (spectrumIndex : Nat) : Traced Entry Node :=
  if isZero tx.destinationPublicKey then Traced.ofOption (env.processSystemTransaction tx n)
  else if isPublicKeyOfContract env tx.destinationPublicKey then
    let contractIndex := contractIndexOf tx.destinationPublicKey
    let description := env.contractDescriptions contractIndex
    if env.epoch + 1 = description.constructionEpoch then
      if tx.amount = 0 ∧ tx.inputSize = sizeofContractIPOBid then
        n.processTickTransactionContractIPO env tx spectrumIndex contractIndex
      else pure n
    else if env.epoch ≥ description.constructionEpoch ∧
        env.epoch < description.destructionEpoch then
      if n.contractFeeReserves contractIndex ≤ 0 ∨
          n.contractError contractIndex ≠ .noContractError then
        n.refundTransaction env tx
      else
        Traced.ofOption
          (env.processTickTransactionContractProcedure tx spectrumIndex contractIndex n)
    else pure n
  else pure n

/-- The transfer itself, from the slot found for the source. -/
def executeTransaction (spectrumIndex : Nat) :
    Traced Entry Node := do
  let (paid, n) ← n.decreaseEnergy env .transfer spectrumIndex tx.amount
  if paid then
    let n ← n.increaseEnergy env .transfer tx.destinationPublicKey tx.amount
    n.dispatchTransaction env tx spectrumIndex
  else pure n

/-- Sources whose transactions are never processed. -/
def isRejectedSource (sourcePublicKey : M256i) : Bool :=
  isPublicKeyOfContract env sourcePublicKey ||
    (env.tick ≥ FREEZE_FROM_TICK && env.isFrozenAddress sourcePublicKey)

def processTickTransaction : Traced Entry Node :=
  if isRejectedSource env tx.sourcePublicKey then pure n
  else do
    let spectrumIndex ← Traced.ofOption (n.spectrum.spectrumIndex env.spectrumDepth
      tx.sourcePublicKey)
    if spectrumIndex ≥ 0 then n.executeTransaction env tx spectrumIndex.toNat
    else pure n

end Node

end QubicCore
