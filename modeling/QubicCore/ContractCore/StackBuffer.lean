import Mathlib

/-!
# `StackBuffer`

The last-in-first-out storage of contract locals. Each block ends in a footer with the size of the
stack before the block, whose top bit tells blocks of a special kind. The stack is unwound by
following the footers, so that the size of a block is only known up to padding.

Of the contents of the buffer the model keeps the footers and the rollback records; contract code
writes to neither.
-/

namespace QubicCore

open Function

/-- `ContractRollbackInfo::Type`. -/
inductive LockType where
  | contractStateReuseLock
  | contractStateWriteLock
  | contractStateReadLock
deriving DecidableEq

structure ContractRollbackInfo where
  type : LockType
  contractIndex : Nat
deriving DecidableEq

def sizeofContractRollbackInfo : Nat := 4

/-- `CONTRACT_INVOCATION_BUFFER_ALIGNMENT`. -/
def alignment : Nat := 8

/-- `(offset + alignment - 1) & ~(alignment - 1)` in 32 bits. -/
def alignOffset (offset : Nat) : Nat := (offset + (alignment - 1)) % 2 ^ 32 / alignment * alignment

def specialBlockFlag : Nat := 2 ^ 31

structure StackBuffer where
  allocatedSize : Nat
  /-- The words of type `SizeType` in the buffer. -/
  footers : Nat → Nat
  /-- The buffer read as `ContractRollbackInfo`. -/
  records : Nat → ContractRollbackInfo

namespace StackBuffer

variable (bufferSize : Nat) (b : StackBuffer)

def allocate (size : Nat) (specialBlock : Bool) : Option (Nat × StackBuffer) :=
  let newSize := alignOffset ((b.allocatedSize + size + 4) % 2 ^ 32)
  if newSize > bufferSize ∨ newSize ≤ b.allocatedSize then none
  else
    let sizeBeforeAlloc := b.allocatedSize ||| if specialBlock then specialBlockFlag else 0
    some (b.allocatedSize,
      { b with
        allocatedSize := newSize
        footers := update b.footers (newSize - 4) sizeBeforeAlloc })

def free : Bool × StackBuffer :=
  let sizeBeforeLastAlloc := b.footers (b.allocatedSize - 4) % specialBlockFlag
  if b.allocatedSize ≤ bufferSize ∧ b.allocatedSize ≥ 4 ∧ sizeBeforeLastAlloc < b.allocatedSize then
    (true, { b with allocatedSize := sizeBeforeLastAlloc })
  else (false, { b with allocatedSize := 0 })

def freeAll : StackBuffer := { b with allocatedSize := 0 }

structure Unwound where
  okay : Bool
  (buffer size : Nat)
  specialBlock : Bool

/-- Free the last block and tell where it was; `none` if there is no footer to read. -/
def unwind : Option (Unwound × StackBuffer) :=
  if b.allocatedSize < 4 then none
  else
    let sizePtrOffset := b.allocatedSize - 4
    let prevSizeAndFlag := b.footers sizePtrOffset
    let (okay, b') := b.free bufferSize
    some (⟨okay, b'.allocatedSize, sizePtrOffset - prevSizeAndFlag % specialBlockFlag,
      prevSizeAndFlag ≥ specialBlockFlag⟩, b')

def setRecord (offset : Nat) (record : ContractRollbackInfo) : StackBuffer :=
  { b with records := update b.records offset record }

/-! ## The blocks on the stack -/

/-- A block that ends at `stop`; a special block holds a record. -/
structure Block where
  stop : Nat
  record : Option ContractRollbackInfo

/-- The size of a stack of blocks, the last one first. -/
def top : List Block → Nat
  | [] => 0
  | block :: _ => block.stop

def footer (block : Block) (below : List Block) : Nat :=
  top below + if block.record.isSome then specialBlockFlag else 0

def Chain (b : StackBuffer) : List Block → Prop
  | [] => True
  | block :: below =>
    (top below < block.stop ∧ block.stop % 8 = 0 ∧ block.stop ≤ bufferSize) ∧
    b.footers (block.stop - 4) = footer block below ∧
    (∀ r ∈ block.record, block.stop = top below + 8 ∧ b.records (top below) = r) ∧
    Chain b below

structure Represents (b : StackBuffer) (blocks : List Block) : Prop where
  size : b.allocatedSize = top blocks
  chain : Chain bufferSize b blocks

variable {bufferSize : Nat} {b b' : StackBuffer} {blocks : List Block}

section

variable (h : Chain bufferSize b blocks)
include h

lemma Chain.top_mod : top blocks % 8 = 0 := by
  cases blocks with
  | nil => rfl
  | cons block below => exact h.1.2.1

lemma Chain.top_le : top blocks ≤ bufferSize := by
  cases blocks with
  | nil => exact Nat.zero_le _
  | cons block below => exact h.1.2.2

lemma Chain.length_le : blocks.length ≤ top blocks := by
  induction blocks with
  | nil => exact Nat.zero_le _
  | cons block below ih =>
    have := ih h.2.2.2
    have := h.1.1
    simp only [List.length_cons, top]
    omega

/-- What is above the blocks does not matter to them. -/
lemma Chain.congr (hfooters : ∀ i, i + 4 ≤ top blocks → b'.footers i = b.footers i)
    (hrecords : ∀ i < top blocks, b'.records i = b.records i) :
    Chain bufferSize b' blocks := by
  induction blocks with
  | nil => trivial
  | cons block below ih =>
    obtain ⟨⟨hlt, hmod, hle⟩, hfooter, hrecord, hchain⟩ := h
    have hbelow := hchain.top_mod
    simp only [top] at hfooters hrecords
    refine ⟨⟨hlt, hmod, hle⟩, ?_, fun r hr => ?_, ih hchain ?_ ?_⟩
    · rw [hfooters _ (by omega), hfooter]
    · rw [hrecords _ (by omega)]
      exact hrecord r hr
    · exact fun i hi => hfooters i (by omega)
    · exact fun i hi => hrecords i (by omega)

end

lemma Represents.init (hsize : b.allocatedSize = 0) : Represents bufferSize b [] := ⟨hsize, trivial⟩

lemma alignOffset_eq {offset : Nat} (h : offset < 2 ^ 32 - 8) :
    alignOffset offset = (offset + 7) / 8 * 8 := by
  rw [alignOffset, alignment, Nat.mod_eq_of_lt (by omega)]

lemma Represents.allocate (h : Represents bufferSize b blocks) {size ptr : Nat}
    (hb : b.allocate bufferSize size false = some (ptr, b')) :
    ∃ stop, Represents bufferSize b' (⟨stop, none⟩ :: blocks) := by
  have hmod := h.chain.top_mod
  rw [StackBuffer.allocate] at hb
  simp only [Bool.false_eq_true, if_false, Nat.or_zero] at hb
  generalize hnew : alignOffset _ = newSize at hb
  split_ifs at hb with hfail
  obtain ⟨-, rfl⟩ := Prod.mk.inj (Option.some.inj hb)
  have hnewmod : newSize % 8 = 0 := by
    rw [← hnew, alignOffset, alignment]
    omega
  have hsize := h.size
  refine ⟨newSize, rfl, ⟨by dsimp only; omega, hnewmod, by dsimp only; omega⟩, ?_, by simp, ?_⟩
  · simp [hsize, footer]
  · refine h.chain.congr (fun i hi => update_of_ne (by omega) ..) fun i hi => rfl

lemma Represents.allocateSpecial (h : Represents bufferSize b blocks)
    (hbuffer : bufferSize < 2 ^ 31) {ptr : Nat}
    (hb : b.allocate bufferSize sizeofContractRollbackInfo true = some (ptr, b')) :
    ptr = top blocks ∧
    ∃ stop, Represents bufferSize b' (⟨stop, some (b'.records ptr)⟩ :: blocks) := by
  have hmod := h.chain.top_mod
  have hle := h.chain.top_le
  have hsize := h.size
  have hnew : alignOffset ((b.allocatedSize + sizeofContractRollbackInfo + 4) % 2 ^ 32) =
      top blocks + 8 := by
    rw [sizeofContractRollbackInfo, Nat.mod_eq_of_lt (by omega), alignOffset_eq (by omega)]
    omega
  rw [StackBuffer.allocate] at hb
  simp only [if_true, hnew] at hb
  split_ifs at hb with hfail
  obtain ⟨rfl, rfl⟩ := Prod.mk.inj (Option.some.inj hb)
  refine ⟨hsize, top blocks + 8, rfl, ⟨by dsimp only; omega, by dsimp only; omega,
    by dsimp only; omega⟩, ?_, ?_, ?_⟩
  · have hor := Nat.two_pow_add_eq_or_of_lt (i := 31) (b := top blocks) (by omega) 1
    simp [hsize, footer, specialBlockFlag, Nat.or_comm (top blocks), ← hor, Nat.add_comm]
  · intro r hr
    obtain rfl : b.records b.allocatedSize = r := by simpa using hr
    exact ⟨rfl, by rw [hsize]⟩
  · exact h.chain.congr (fun i hi => update_of_ne (by omega) ..) fun i hi => rfl

lemma Represents.setRecord {stop : Nat} {r₀ : ContractRollbackInfo}
    (h : Represents bufferSize b (⟨stop, some r₀⟩ :: blocks)) (r : ContractRollbackInfo) :
    Represents bufferSize (b.setRecord (top blocks) r) (⟨stop, some r⟩ :: blocks) := by
  obtain ⟨hsize, hstop, hfooter, hrecord, hchain⟩ := h
  refine ⟨hsize, hstop, hfooter, fun r' hr' => ⟨(hrecord r₀ rfl).1, ?_⟩, ?_⟩
  · obtain rfl : r = r' := by simpa using hr'
    exact update_self ..
  · exact hchain.congr (fun _ _ => rfl) fun i hi => update_of_ne (by omega) ..

variable {block : Block}

lemma footer_mod (hle : top blocks < 2 ^ 31) :
    footer block blocks % specialBlockFlag = top blocks := by
  rw [footer, specialBlockFlag]
  split_ifs <;> omega

lemma Represents.free (h : Represents bufferSize b (block :: blocks))
    (hbuffer : bufferSize < 2 ^ 31) :
    (b.free bufferSize).1 ∧ Represents bufferSize (b.free bufferSize).2 blocks := by
  obtain ⟨hsize, ⟨hlt, hmod, hle⟩, hfooter, hrecord, hchain⟩ := h
  change b.allocatedSize = block.stop at hsize
  have hlast := hchain.top_le
  rw [StackBuffer.free, hsize, hfooter, footer_mod (by omega), if_pos ⟨hle, by omega, hlt⟩]
  exact ⟨rfl, rfl, hchain.congr (fun _ _ => rfl) fun _ _ => rfl⟩

/-- Unwinding finds the start of a block and whether it is special; if it is, also its size. -/
lemma Represents.unwind (h : Represents bufferSize b (block :: blocks))
    (hbuffer : bufferSize < 2 ^ 31) :
    ∃ size, b.unwind bufferSize = some (⟨true, top blocks, size, block.record.isSome⟩,
        (b.free bufferSize).2) ∧
      ∀ r ∈ block.record, size = sizeofContractRollbackInfo ∧
        (b.free bufferSize).2.records (top blocks) = r := by
  obtain ⟨hokay, hfree⟩ := h.free hbuffer
  obtain ⟨hsize, ⟨hlt, hmod, hle⟩, hfooter, hrecord, hchain⟩ := h
  change b.allocatedSize = block.stop at hsize
  have hlast := hchain.top_le
  have hrecords : (b.free bufferSize).2.records = b.records := by
    rw [StackBuffer.free]
    split_ifs <;> rfl
  have hspecial : decide (footer block blocks ≥ specialBlockFlag) = block.record.isSome := by
    rw [footer, specialBlockFlag]
    cases block.record <;> simp
    omega
  refine ⟨block.stop - 4 - top blocks, ?_, fun r hr => ?_⟩
  · rw [StackBuffer.unwind, if_neg (by omega)]
    simp only [hsize, hfooter, footer_mod (show top blocks < 2 ^ 31 by omega), hokay, hfree.size,
      hspecial]
  · obtain ⟨hstop, hr'⟩ := hrecord r hr
    rw [hrecords, sizeofContractRollbackInfo]
    exact ⟨by omega, hr'⟩

lemma unwind_empty (h : Represents bufferSize b []) : b.unwind bufferSize = none := by
  have : b.allocatedSize = 0 := h.size
  rw [StackBuffer.unwind, if_pos (by omega)]

end StackBuffer

end QubicCore
