import QubicCore.Library.Probing
import QubicCore.Library.Cells
import QubicCore.Platform

/-!
# The spectrum: a hash map of entities

`spectrum[SPECTRUM_CAPACITY]` is an open-addressing hash map with linear probing. A slot is free
when its public key is zero. Beside it the node keeps `spectrumInfo`, the digest tree over all
slots with its change flags, and the list of slots changed since the last digest. Everything is
stated for a depth `d`, the capacity being `2^d`; the code builds with depth 18 or 24.

A result `none` is a probe loop that never ends. Locks, profiling and the statistics log have no
effect on this state and are left out; the amounts passed to `DustBurnLogger` are kept.
-/

namespace QubicCore

open Library.Probing Function

structure EntityRecord where
  publicKey : M256i
  (incomingAmount outgoingAmount : Int)
  (numberOfIncomingTransfers numberOfOutgoingTransfers latestIncomingTransferTick : Nat)
  latestOutgoingTransferTick : Nat
deriving DecidableEq

def EntityRecord.zero : EntityRecord := ⟨0, 0, 0, 0, 0, 0, 0⟩

/-- The `long long` difference of incoming and outgoing amount. -/
def EntityRecord.balance (e : EntityRecord) : Int := sint64 (e.incomingAmount - e.outgoingAmount)

/-- The same difference read as `unsigned long long`. -/
def EntityRecord.unsignedBalance (e : EntityRecord) : Int :=
  uint64 (e.incomingAmount - e.outgoingAmount)

/-- The function `KangarooTwelve64To32`, on an entity record and on two neighbouring digests. -/
structure KangarooTwelve where
  entity : EntityRecord → M256i
  pair : M256i → M256i → M256i

structure Spectrum where
  spectrum : Nat → EntityRecord
  numberOfEntities : Nat
  totalAmount : Int
  spectrumDigests : Nat → M256i
  spectrumChangeFlags : Nat → BitVec 64
  spectrumDirtyList : Nat → Nat
  spectrumDirtyCount : Nat
  spectrumDirtyOverflow : Bool
  dustBurns : List (M256i × Int)

def SPECTRUM_DIRTY_CAPACITY : Nat := 16384

namespace Spectrum

/-- The state after start-up, before anything was loaded or credited. -/
def empty : Spectrum where
  spectrum _ := EntityRecord.zero
  numberOfEntities := 0
  totalAmount := 0
  spectrumDigests _ := 0
  spectrumChangeFlags _ := 0
  spectrumDirtyList _ := 0
  spectrumDirtyCount := 0
  spectrumDirtyOverflow := true
  dustBurns := []

def spectrumMarkDirty (s : Spectrum) (idx : Nat) : Spectrum :=
  if s.spectrumDirtyCount < SPECTRUM_DIRTY_CAPACITY then
    { s with
      spectrumDirtyList := update s.spectrumDirtyList s.spectrumDirtyCount idx
      spectrumDirtyCount := s.spectrumDirtyCount + 1 }
  else { s with spectrumDirtyOverflow := true }

def spectrumDirtyReset (s : Spectrum) : Spectrum :=
  { s with spectrumDirtyCount := 0, spectrumDirtyOverflow := false }

variable (d : Nat) (table : Nat → EntityRecord)

def spectrumInfo : Nat × Int :=
  (List.range (2 ^ d)).foldl (fun si i =>
    if (table i).balance ≠ 0 ∨ !isZero (table i).publicKey then
      (si.1 + 1, uint64 (si.2 + (table i).balance))
    else si) (0, 0)

def updateSpectrumInfo (s : Spectrum) : Spectrum :=
  { s with
    numberOfEntities := (spectrumInfo d s.spectrum).1
    totalAmount := (spectrumInfo d s.spectrum).2 }

/-! ## Dust -/

/-- Leading zero bits of a 64-bit value. -/
def lzcnt64 (b : Nat) : Nat := if b = 0 then 64 else 63 - b.log2

def entityCategoryCount : Nat := 48

/-- Populations of the balance categories. The source array has 48 cells; what a balance from
`2^48` on does to memory behind the array is not modelled, and nothing reads it. -/
def entityCategoryPopulations : Nat → Nat :=
  (List.range (2 ^ d)).foldl (fun populations i =>
    let balance := (table i).unsignedBalance
    if balance ≠ 0 then
      let category := 63 - lzcnt64 balance.toNat
      update populations category (populations category + 1)
    else populations) (fun _ => 0)

structure DustThresholds where
  (burnAll burnHalf : Int)
deriving DecidableEq

/-- The loop from the highest category down; `numberOfEntities` counts those already passed. -/
def analyzePopulations (d : Nat) (populations : Nat → Nat) : Nat → Nat → DustThresholds
  | 0, _ => ⟨0, 0⟩
  | categoryIndex + 1, numberOfEntities =>
    let numberOfEntities := numberOfEntities + populations categoryIndex
    if numberOfEntities ≥ 2 ^ d / 2 then
      if populations categoryIndex = numberOfEntities then
        ⟨2 ^ categoryIndex - 1, 2 ^ (categoryIndex + 1) - 1⟩
      else ⟨2 ^ (categoryIndex + 1) - 1, 0⟩
    else analyzePopulations d populations categoryIndex numberOfEntities

def updateAndAnalzeEntityCategoryPopulations : DustThresholds :=
  analyzePopulations d (entityCategoryPopulations d table) entityCategoryCount 0

/-- State of the two burning loops: the table, the candidates met so far and the burn log. -/
structure DustBurn where
  table : Nat → EntityRecord
  countBurnCandidates : Nat
  burns : List (M256i × Int)

/-- Set the balance of slot `i` to zero and log it. -/
def DustBurn.burn (b : DustBurn) (i : Nat) : DustBurn :=
  let e := b.table i
  { b with
    table := update b.table i { e with outgoingAmount := e.incomingAmount }
    burns := b.burns ++ [(e.publicKey, e.unsignedBalance)] }

variable (threshold : Int)

def isDust (e : EntityRecord) : Bool := e.unsignedBalance ≤ threshold ∧ e.unsignedBalance ≠ 0

def burnAll (b : DustBurn) : DustBurn :=
  (List.range (2 ^ d)).foldl (fun b i =>
    if isDust threshold (b.table i) then b.burn i else b) b

/-- Burn every second balance up to the threshold, beginning with the first. -/
def burnHalf (b : DustBurn) : DustBurn :=
  (List.range (2 ^ d)).foldl (fun b i =>
    if isDust threshold (b.table i) then
      let b := { b with countBurnCandidates := b.countBurnCandidates + 1 }
      if b.countBurnCandidates % 2 = 1 then b.burn i else b
    else b) { b with countBurnCandidates := 0 }

def burnDust : DustBurn :=
  let thresholds := updateAndAnalzeEntityCategoryPopulations d table
  let b : DustBurn := ⟨table, 0, []⟩
  let b := if thresholds.burnAll > 0 then burnAll d thresholds.burnAll b else b
  if thresholds.burnHalf > 0 then burnHalf d thresholds.burnHalf b else b

/-! ## Reorganization -/

def reorgInsert (e : EntityRecord) : Option (Nat → EntityRecord) := do
  let index ← probe (2 ^ d) (fun i => isZero (table i).publicKey) (2 ^ d) (homeSlot d e.publicKey)
  return update table index e

/-- The new table: every record whose balance is not zero, inserted in slot order. -/
def reorgSpectrum : Option (Nat → EntityRecord) :=
  (List.range (2 ^ d)).foldlM (fun reorg i =>
    if (table i).balance ≠ 0 then reorgInsert d reorg (table i) else some reorg)
    (fun _ => EntityRecord.zero)

variable (k12 : KangarooTwelve)

def hashLevel (previousLevelBeginning digestIndex n : Nat) (digests : Nat → M256i) : Nat → M256i :=
  (List.range n).foldl (fun digests j =>
    update digests (digestIndex + j) (k12.pair (digests (previousLevelBeginning + 2 * j))
        (digests (previousLevelBeginning + 2 * j + 1)))) digests

def hashLevels (k12 : KangarooTwelve) : Nat → Nat → (Nat → M256i) → Nat → M256i
  | 0, _, digests => digests
  | depth + 1, previousLevelBeginning, digests =>
    let next := previousLevelBeginning + 2 ^ (depth + 1)
    hashLevels k12 depth next (hashLevel k12 previousLevelBeginning next (2 ^ depth) digests)

def rebuildDigests (table : Nat → EntityRecord) (digests : Nat → M256i) : Nat → M256i :=
  hashLevels k12 d 0 ((List.range (2 ^ d)).foldl (fun digests i =>
    update digests i (k12.entity (table i))) digests)

variable (s : Spectrum)

def reorganizeSpectrum : Option Spectrum := do
  let table ← reorgSpectrum d s.spectrum
  return updateSpectrumInfo d
    { s with
      spectrum := table
      spectrumDigests := rebuildDigests d k12 table s.spectrumDigests
      spectrumDirtyOverflow := true
      spectrumDirtyCount := 0 }

/-! ## Lookup, credit and debit -/

def spectrumIndex (publicKey : M256i) : Option Int :=
  if isZero publicKey then some (-1)
  else do
    let index ← probe (2 ^ d) (fun i => (s.spectrum i).publicKey == publicKey ||
      isZero (s.spectrum i).publicKey) (2 ^ d) (homeSlot d publicKey)
    return if (s.spectrum index).publicKey = publicKey then index else -1

def energy (index : Nat) : Int := (s.spectrum index).balance

/-- Burn dust and reorganize; the part of `increaseEnergy` run when 75% of the slots are used. -/
def antiDust : Option Spectrum :=
  let b := burnDust d s.spectrum
  reorganizeSpectrum d k12 { s with spectrum := b.table, dustBurns := s.dustBurns ++ b.burns }

def isCrowded : Bool := s.numberOfEntities ≥ 2 ^ d / 2 + 2 ^ d / 4

/-- The anti-dust feature at the head of `increaseEnergy`. -/
def makeRoom : Option Spectrum := if isCrowded d s then antiDust d k12 s else some s

variable (tick : Nat)

def credit (s : Spectrum) (index : Nat) (amount : Int) : Spectrum :=
  let e := s.spectrum index
  let s := spectrumMarkDirty { s with
    spectrum := update s.spectrum index { e with
      incomingAmount := sint64 (e.incomingAmount + amount)
      numberOfIncomingTransfers := (e.numberOfIncomingTransfers + 1) % 2 ^ 32
      latestIncomingTransferTick := tick } } index
  { s with totalAmount := uint64 (s.totalAmount + amount) }

def create (s : Spectrum) (index : Nat) (publicKey : M256i) (amount : Int) : Spectrum :=
  let e := s.spectrum index
  let s := spectrumMarkDirty { s with
    spectrum := update s.spectrum index { e with
      publicKey := publicKey
      incomingAmount := amount
      numberOfIncomingTransfers := 1
      latestIncomingTransferTick := tick } } index
  { s with
    numberOfEntities := s.numberOfEntities + 1
    totalAmount := uint64 (s.totalAmount + amount) }

def increaseEnergy (s : Spectrum) (publicKey : M256i) (amount : Int) : Option Spectrum :=
  if !isZero publicKey ∧ amount ≥ 0 then do
    let s ← makeRoom d k12 s
    let index ← probe (2 ^ d) (fun i => (s.spectrum i).publicKey == publicKey ||
      isZero (s.spectrum i).publicKey) (2 ^ d) (homeSlot d publicKey)
    return if (s.spectrum index).publicKey = publicKey then credit tick s index amount
      else create tick s index publicKey amount
  else some s

def debit (s : Spectrum) (index : Nat) (amount : Int) : Spectrum :=
  let e := s.spectrum index
  let s := spectrumMarkDirty { s with
    spectrum := update s.spectrum index { e with
      outgoingAmount := sint64 (e.outgoingAmount + amount)
      numberOfOutgoingTransfers := (e.numberOfOutgoingTransfers + 1) % 2 ^ 32
      latestOutgoingTransferTick := tick } } index
  { s with totalAmount := uint64 (s.totalAmount - amount) }

def decreaseEnergy (s : Spectrum) (index : Nat) (amount : Int) : Bool × Spectrum :=
  if amount ≥ 0 ∧ energy s index ≥ amount then (true, debit tick s index amount) else (false, s)

end Spectrum

end QubicCore
