import QubicCore.Node

/-!
# Bidding in a contract IPO and finishing it

A contract in its IPO epoch keeps 676 bids, each for one share, sorted by price. A bid of a
`quantity` is paid in full first. Each unit then either loses against the last entry, or replaces
it and moves up; what is lost or replaced is collected per public key and paid back at the end.
-/

namespace QubicCore

open Library

namespace IPO

def empty : IPO := ⟨fun _ => 0, fun _ => 0⟩

def last : Nat := NUMBER_OF_COMPUTORS - 1

def set (ipo : IPO) (i : Nat) (publicKey : M256i) (price : Int) : IPO :=
  ⟨Function.update ipo.publicKeys i publicKey, Function.update ipo.prices i price⟩

def swap (ipo : IPO) (j : Nat) : IPO :=
  (ipo.set j (ipo.publicKeys (j + 1)) (ipo.prices (j + 1))).set (j + 1)
    (ipo.publicKeys j) (ipo.prices j)

/-- Move the entry `j` up as long as the one before it is cheaper. -/
def bubbleUp (ipo : IPO) : Nat → IPO
  | 0 => ipo
  | j + 1 => if ipo.prices j < ipo.prices (j + 1) then bubbleUp (ipo.swap j) j else ipo

end IPO

def release (released : List (M256i × Int)) (publicKey : M256i) (amount : Int) :
    List (M256i × Int) :=
  match released with
  | [] => [(publicKey, amount)]
  | entry :: rest =>
    if publicKey = entry.1 then (entry.1, sint64 (entry.2 + amount)) :: rest
    else entry :: release rest publicKey amount

/-- State of the loop over the units of a bid. -/
structure Bidding where
  ipo : IPO
  released : List (M256i × Int)
  registeredBids : Int

def Bidding.placeUnit (price : Int) (sourcePublicKey : M256i) (b : Bidding) : Bidding :=
  if price ≤ b.ipo.prices IPO.last then
    { b with released := release b.released sourcePublicKey price }
  else
    { ipo := (b.ipo.set IPO.last sourcePublicKey price).bubbleUp IPO.last
      released := release b.released (b.ipo.publicKeys IPO.last) (b.ipo.prices IPO.last)
      registeredBids := b.registeredBids + 1 }

def IPO.place (ipo : IPO) (price : Int) (quantity : Nat) (sourcePublicKey : M256i) : Bidding :=
  (Bidding.placeUnit price sourcePublicKey)^[quantity] ⟨ipo, [], 0⟩

def isValidBid (price : Int) (quantity : Nat) : Bool :=
  price > 0 ∧ price ≤ MAX_AMOUNT / NUMBER_OF_COMPUTORS ∧
    quantity > 0 ∧ quantity ≤ NUMBER_OF_COMPUTORS

/-- An accepted bid costs something, and its cost does not wrap. -/
lemma isValidBid.cost {price : Int} {quantity : Nat} (h : isValidBid price quantity) :
    0 < price * quantity ∧ price * quantity ≤ MAX_AMOUNT ∧
      sint64 (price * quantity) = price * quantity := by
  rw [isValidBid, decide_eq_true_iff] at h
  obtain ⟨hpos, hprice, hq, hquantity⟩ := h
  have hq' : (0 : Int) < quantity := by exact_mod_cast hq
  have hquantity' : (quantity : Int) ≤ 676 := by exact_mod_cast hquantity
  have hle : price * quantity ≤ 1479289940828 * 676 :=
    mul_le_mul hprice hquantity' hq'.le (by norm_num)
  have hmul := mul_pos hpos hq'
  refine ⟨hmul, hle.trans ?_, sint64_eq (by omega) (by omega)⟩
  norm_num [MAX_AMOUNT, ISSUANCE_RATE]

namespace Node

/-- Pay back what a bid released and notify contracts among the receivers. -/
def refundReleased (env : Env) (notify : M256i → Int → Handler) (n : Node)
    (released : List (M256i × Int)) : Traced Entry Node :=
  released.foldlM (fun n entry =>
    if entry.2 = 0 then pure n
    else do
      let n ← n.increaseEnergy env .ipoBidRefund entry.1 entry.2
      Traced.ofOption (notify entry.1 entry.2 n)) n

/-- Bid in the IPO of a contract. `notify` is the notification used by the caller, which is the
tick processor or a contract. -/
def bidInContractIPO (env : Env) (notify : M256i → Int → Handler) (n : Node) (price : Int)
    (quantity : Nat) (sourcePublicKey : M256i) (spectrumIndex contractIndex : Nat) :
    Traced Entry (Int × Node) :=
  if isValidBid price quantity then do
    let amount := sint64 (price * quantity)
    let (paid, n) ← n.decreaseEnergy env .ipoBid spectrumIndex amount
    if paid then
      let ipo ← Traced.ofOption (n.ipos contractIndex)
      let b := ipo.place price quantity sourcePublicKey
      let n := { n with ipos := Function.update n.ipos contractIndex (some b.ipo) }
      let n ← n.refundReleased env notify b.released
      pure (b.registeredBids, n)
    else pure (-1, n)
  else pure (-1, n)

end Node

end QubicCore
