import QubicCore.SwapVirtualMemory
import QubicCore.Library.Cells

/-!
# Tick storage at the change of an epoch

The storage of the current epoch and of the last ticks of the previous one, in the build with
`USE_SWAP`. Tick data, votes and transaction offsets are reached through paged memories, and so are
the transactions of the current epoch; transactions of the previous epoch lie in a plain buffer.

At a seamless change of the epoch the last ticks are copied. Tick data and votes go to the plain
buffers, offsets to the paged memory, and then the paged memories are reset.
-/

namespace QubicCore.TickStorage

open SwapVirtualMemory

def TICKS_TO_KEEP_FROM_PRIOR_EPOCH : Nat := 100
def NUMBER_OF_TRANSACTIONS_PER_TICK : Nat := 4096
def MAX_INPUT_SIZE : Nat := 1024
def SIGNATURE_SIZE : Nat := 64
def FIRST_TICK_TRANSACTION_OFFSET : Nat := 8

/-- The size of the fixed part of a transaction, and the position of `inputSize` in it. -/
def sizeofTransaction : Nat := 80
def inputSizePosition : Nat := 78

def MAX_TRANSACTION_SIZE : Nat := MAX_INPUT_SIZE + sizeofTransaction + SIGNATURE_SIZE

/-- The value of an `unsigned int` expression. -/
def uint32 (x : Int) : Nat := (x % 2 ^ 32).toNat

/-- Settings of the build, and the paged memories it uses. -/
structure Settings (TickData Tick : Type) where
  (maxNumberOfTicksPerEpoch transactionSparseness : Nat)
  tickDataPages : Setup TickData
  ticksPages : Setup Tick
  tickTransactionOffsetsPages : Setup Nat
  tickTransactionsPages : Setup UInt8

structure State (TickData Tick : Type) where
  (tickBegin tickEnd oldTickBegin oldTickEnd : Nat)
  tickDataPtr : Nat → TickData
  tickDataSwapVM : Memory TickData
  ticksPtr : Nat → Tick
  ticksSwapVM : Memory Tick
  tickTransactionsPtr : Nat → UInt8
  tickTransactionsSwapVM : OffsetMemory
  tickTransactionOffsetsPtr : Nat → Nat
  tickTransactionOffsetsSwapVM : Memory Nat
  nextTickTransactionOffset : Nat

variable {TickData Tick : Type} (g : Settings TickData Tick)

namespace Settings

def ticksLengthCurrentEpoch : Nat := g.maxNumberOfTicksPerEpoch * NUMBER_OF_COMPUTORS

def tickTransactionsSizeCurrentEpoch : Nat :=
  FIRST_TICK_TRANSACTION_OFFSET + g.maxNumberOfTicksPerEpoch * NUMBER_OF_TRANSACTIONS_PER_TICK *
    MAX_TRANSACTION_SIZE / g.transactionSparseness

def tickTransactionsSizePreviousEpoch : Nat :=
  TICKS_TO_KEEP_FROM_PRIOR_EPOCH * NUMBER_OF_TRANSACTIONS_PER_TICK * MAX_TRANSACTION_SIZE /
    g.transactionSparseness

def tickTransactionOffsetsLengthCurrentEpoch : Nat :=
  g.maxNumberOfTicksPerEpoch * NUMBER_OF_TRANSACTIONS_PER_TICK

end Settings

/-! ## Access -/

variable (s : State TickData Tick) (tick : Nat)

def tickInCurrentEpochStorage : Prop := s.tickBegin ≤ tick ∧ tick < s.tickEnd

def tickInPreviousEpochStorage : Prop := s.oldTickBegin ≤ tick ∧ tick < s.oldTickEnd

instance (s : State TickData Tick) (tick : Nat) : Decidable (tickInCurrentEpochStorage s tick) :=
  inferInstanceAs (Decidable (_ ∧ _))

def tickToIndexCurrentEpoch : Nat := uint32 ((tick : Int) - s.tickBegin)

def tickToIndexPreviousEpoch : Nat :=
  uint32 ((tick : Int) - s.oldTickBegin + g.maxNumberOfTicksPerEpoch)

section

variable [Zero TickData] [Zero Tick] (s : State TickData Tick)

/-- `TickDataAccess::operator[]`. -/
def tickDataAt (index : Nat) : TickData := (read g.tickDataPages s.tickDataSwapVM index 0).1

/-- An element of `TicksAccess::getByTickIndex`. -/
def tickAt (tickIndex computor : Nat) : Tick :=
  (read g.ticksPages s.ticksSwapVM (tickIndex * NUMBER_OF_COMPUTORS) computor).1

/-- An element of `TickTransactionOffsetsAccess::getByTickIndex`. -/
def transactionOffsetAt (tickIndex transactionIdx : Nat) : Nat :=
  (read g.tickTransactionOffsetsPages s.tickTransactionOffsetsSwapVM
    (tickIndex * NUMBER_OF_TRANSACTIONS_PER_TICK) transactionIdx).1

/-- The bytes that `TickTransactionsAccess::ptr` leads to. -/
def transactionPtr (transactionOffset : Nat) : Nat → UInt8 :=
  if g.tickTransactionsSizeCurrentEpoch ≤ transactionOffset then
    fun k => s.tickTransactionsPtr (transactionOffset + k)
  else
    let (location, m) := locate g.tickTransactionsPages MAX_TRANSACTION_SIZE
      s.tickTransactionsSwapVM transactionOffset
    m.byteAt location

def totalSize (bytes : Nat → UInt8) : Nat :=
  let inputSize := (bytes inputSizePosition).toNat + 256 * (bytes (inputSizePosition + 1)).toNat
  sizeofTransaction + inputSize + SIGNATURE_SIZE

def transactionAt (transactionOffset : Nat) : List UInt8 :=
  let bytes := transactionPtr g s transactionOffset
  (List.range (totalSize bytes)).map bytes

end

/-! ## beginEpoch -/

section

variable [Zero TickData] [Zero Tick]

def copyTick (tickIndex : Nat) (s : State TickData Tick) (i : Nat) : State TickData Tick :=
  let (data, tickDataSwapVM) := read g.tickDataPages s.tickDataSwapVM (tickIndex + i) 0
  let s := { s with
    tickDataSwapVM := tickDataSwapVM
    tickDataPtr := Function.update s.tickDataPtr (g.maxNumberOfTicksPerEpoch + i) data }
  (List.range NUMBER_OF_COMPUTORS).foldl (fun s j =>
    let (tick, ticksSwapVM) := read g.ticksPages s.ticksSwapVM
      ((tickIndex + i) * NUMBER_OF_COMPUTORS) j
    { s with
      ticksSwapVM := ticksSwapVM
      ticksPtr := Function.update s.ticksPtr
        (g.ticksLengthCurrentEpoch + i * NUMBER_OF_COMPUTORS + j) tick }) s

variable (s : State TickData Tick)

/-- The transactions of the ended epoch that are too far from its end are not kept. -/
def firstToKeepOffset : Nat :=
  let totalTransactionSizesSum :=
    (uint64 ((s.nextTickTransactionOffset : Int) - FIRST_TICK_TRANSACTION_OFFSET)).toNat
  let keepTransactionSizesSum := min totalTransactionSizesSum g.tickTransactionsSizePreviousEpoch
  (uint64 ((s.nextTickTransactionOffset : Int) - keepTransactionSizesSum)).toNat

def setPreviousOffset (tick transactionIdx offset : Nat) : State TickData Tick :=
  let index := tickToIndexPreviousEpoch g s tick * NUMBER_OF_TRANSACTIONS_PER_TICK
  { s with
    tickTransactionOffsetsSwapVM := write g.tickTransactionOffsetsPages
      s.tickTransactionOffsetsSwapVM index transactionIdx offset }

/-- Copy one transaction to the plain buffer, at `currentOldTickTransactionsOffset`, or set its
offset to 0. -/
def copyTransaction (firstToKeepOffset tick : Nat) (p : State TickData Tick × Nat)
    (transactionIdx : Nat) : State TickData Tick × Nat :=
  let (s, currentOldTickTransactionsOffset) := p
  let (offset, tickTransactionOffsetsSwapVM) := read g.tickTransactionOffsetsPages
    s.tickTransactionOffsetsSwapVM
    (tickToIndexCurrentEpoch s tick * NUMBER_OF_TRANSACTIONS_PER_TICK) transactionIdx
  let s := { s with tickTransactionOffsetsSwapVM := tickTransactionOffsetsSwapVM }
  if offset = 0 ∨ offset < firstToKeepOffset then
    (setPreviousOffset g s tick transactionIdx 0, currentOldTickTransactionsOffset)
  else
    let bytes := transactionPtr g s offset
    let size := totalSize bytes
    let offsetPrevEp := g.tickTransactionsSizeCurrentEpoch + currentOldTickTransactionsOffset
    let s := { s with
      tickTransactionsSwapVM :=
        (locate g.tickTransactionsPages MAX_TRANSACTION_SIZE s.tickTransactionsSwapVM offset).2
      tickTransactionsPtr := fun k => if offsetPrevEp ≤ k ∧ k < offsetPrevEp + size
        then bytes (k - offsetPrevEp) else s.tickTransactionsPtr k }
    (setPreviousOffset g s tick transactionIdx offsetPrevEp,
      currentOldTickTransactionsOffset + size)

def copyTickTransactions (firstToKeepOffset tick n : Nat) (p : State TickData Tick × Nat) :
    State TickData Tick × Nat :=
  (List.range n).foldl (copyTransaction g firstToKeepOffset tick) p

def copyTransactions (firstToKeepOffset : Nat) (s : State TickData Tick) : State TickData Tick :=
  ((List.range (s.oldTickEnd - s.oldTickBegin)).foldl (fun p i =>
    copyTickTransactions g firstToKeepOffset (s.oldTickBegin + i) NUMBER_OF_TRANSACTIONS_PER_TICK p)
    (s, 0)).1

/-- The part of a plain buffer for the current epoch is cleared. -/
def freeAndRecommit {α : Type} [Zero α] (length : Nat) (ptr : Nat → α) : Nat → α :=
  fun k => if k < length then 0 else ptr k

def resetCurrentEpoch : State TickData Tick :=
  { s with
    tickDataPtr := freeAndRecommit g.maxNumberOfTicksPerEpoch s.tickDataPtr
    ticksPtr := freeAndRecommit g.ticksLengthCurrentEpoch s.ticksPtr
    tickTransactionsPtr := freeAndRecommit g.tickTransactionsSizeCurrentEpoch s.tickTransactionsPtr
    tickTransactionOffsetsPtr :=
      freeAndRecommit g.tickTransactionOffsetsLengthCurrentEpoch s.tickTransactionOffsetsPtr
    tickDataSwapVM := SwapVirtualMemory.reset s.tickDataSwapVM
    ticksSwapVM := SwapVirtualMemory.reset s.ticksSwapVM
    tickTransactionsSwapVM := s.tickTransactionsSwapVM.reset
    tickTransactionOffsetsSwapVM := SwapVirtualMemory.reset s.tickTransactionOffsetsSwapVM }

variable (newInitialTick : Nat)

def keepFrom : Nat :=
  let oldTickBegin := uint32 ((newInitialTick : Int) - TICKS_TO_KEEP_FROM_PRIOR_EPOCH)
  if oldTickBegin < s.tickBegin then s.tickBegin else oldTickBegin

def seamless : Prop :=
  s.tickBegin ≠ 0 ∧ tickInCurrentEpochStorage s newInitialTick ∧ s.tickBegin < newInitialTick

instance (s : State TickData Tick) (newInitialTick : Nat) : Decidable (seamless s newInitialTick) :=
  inferInstanceAs (Decidable (_ ∧ _))

def keepTicks : State TickData Tick :=
  let s := { s with oldTickBegin := keepFrom s newInitialTick, oldTickEnd := newInitialTick }
  let tickIndex := tickToIndexCurrentEpoch s s.oldTickBegin
  let tickCount := uint32 ((s.oldTickEnd : Int) - s.oldTickBegin)
  let s := (List.range (uint32 (tickIndex + tickCount) - tickIndex)).foldl (copyTick g tickIndex) s
  resetCurrentEpoch g (copyTransactions g (firstToKeepOffset g s) s)

/-- Without data of a prior epoch, the plain buffers are cleared. -/
def clearAll : State TickData Tick :=
  { s with
    tickDataPtr := fun _ => 0
    ticksPtr := fun _ => 0
    tickTransactionsPtr := fun _ => 0
    tickTransactionOffsetsPtr := fun _ => 0
    oldTickBegin := 0
    oldTickEnd := 0 }

def beginEpoch : State TickData Tick :=
  let s := if seamless s newInitialTick then keepTicks g s newInitialTick else clearAll s
  { s with
    tickBegin := newInitialTick
    tickEnd := uint32 ((newInitialTick : Int) + g.maxNumberOfTicksPerEpoch)
    nextTickTransactionOffset := FIRST_TICK_TRANSACTION_OFFSET }

end

/-! ## What is left of the ended epoch -/

section

variable [Zero TickData] [Zero Tick]

/-- What is stored of a tick can be read in the previous epoch. -/
structure TickKept (s s' : State TickData Tick) (tick : Nat) : Prop where
  tickData_eq : tickDataAt g s' (tickToIndexPreviousEpoch g s' tick) =
    tickDataAt g s (tickToIndexCurrentEpoch s tick)
  ticks_eq : ∀ computor < NUMBER_OF_COMPUTORS,
    tickAt g s' (tickToIndexPreviousEpoch g s' tick) computor =
      tickAt g s (tickToIndexCurrentEpoch s tick) computor
  transactions : ∀ transactionIdx < NUMBER_OF_TRANSACTIONS_PER_TICK, ∀ offset offset',
    transactionOffsetAt g s (tickToIndexCurrentEpoch s tick) transactionIdx = offset →
    transactionOffsetAt g s' (tickToIndexPreviousEpoch g s' tick) transactionIdx = offset' →
    (offset ≠ 0 ∧ offset' ≠ 0 ∧ transactionAt g s' offset' = transactionAt g s offset) ∨
      (offset' = 0 ∧ (offset = 0 ∨ offset < firstToKeepOffset g s))

/-- The last ticks are kept, and the new epoch starts empty. -/
structure Continued (s : State TickData Tick) (newInitialTick : Nat) (s' : State TickData Tick) :
    Prop where
  last : ∀ tick, tickInPreviousEpochStorage s' tick →
    newInitialTick - min TICKS_TO_KEEP_FROM_PRIOR_EPOCH (newInitialTick - s.tickBegin) ≤ tick ∧
      tick < newInitialTick
  kept : ∀ tick, tickInPreviousEpochStorage s' tick → TickKept g s s' tick
  tickData_cleared : ∀ tick, tickInCurrentEpochStorage s' tick →
    tickDataAt g s' (tickToIndexCurrentEpoch s' tick) = 0
  ticks_cleared : ∀ tick, tickInCurrentEpochStorage s' tick → ∀ computor < NUMBER_OF_COMPUTORS,
    tickAt g s' (tickToIndexCurrentEpoch s' tick) computor = 0
  offsets_cleared : ∀ tick, tickInCurrentEpochStorage s' tick →
    ∀ transactionIdx < NUMBER_OF_TRANSACTIONS_PER_TICK,
      transactionOffsetAt g s' (tickToIndexCurrentEpoch s' tick) transactionIdx = 0

structure NothingToKeep (s : State TickData Tick) (tick : Nat) : Prop where
  tickData_eq : tickDataAt g s (tickToIndexCurrentEpoch s tick) = 0
  ticks_eq : ∀ computor < NUMBER_OF_COMPUTORS,
    tickAt g s (tickToIndexCurrentEpoch s tick) computor = 0
  transactions : ∀ transactionIdx < NUMBER_OF_TRANSACTIONS_PER_TICK,
    transactionOffsetAt g s (tickToIndexCurrentEpoch s tick) transactionIdx = 0 ∨
      transactionOffsetAt g s (tickToIndexCurrentEpoch s tick) transactionIdx <
        firstToKeepOffset g s

variable {g} {s : State TickData Tick} {newInitialTick : Nat}

/-! ### The ticks of the previous epoch -/

/-- The range of the previous epoch. -/
def oldTicks (s : State TickData Tick) : Nat × Nat := (s.oldTickBegin, s.oldTickEnd)

lemma copyTick_oldTicks (tickIndex : Nat) (s : State TickData Tick) (i : Nat) :
    oldTicks (copyTick g tickIndex s i) = oldTicks s :=
  Library.Cells.foldl_range (fun _ s' => oldTicks s' = oldTicks s) rfl fun _ _ _ h => h

/-- The same range, in a loop that also counts the copied bytes. -/
def SameOldTicks (s : State TickData Tick) (p : State TickData Tick × Nat) : Prop :=
  oldTicks p.1 = oldTicks s

omit [Zero TickData] [Zero Tick] in
lemma SameOldTicks.copyTransaction {p : State TickData Tick × Nat} (h : SameOldTicks s p)
    (keep tick transactionIdx : Nat) :
    SameOldTicks s (copyTransaction g keep tick p transactionIdx) := by
  unfold TickStorage.copyTransaction
  dsimp only
  split <;> exact h

omit [Zero TickData] [Zero Tick] in
lemma SameOldTicks.copyTickTransactions {p : State TickData Tick × Nat} (h : SameOldTicks s p)
    (keep tick n : Nat) : SameOldTicks s (copyTickTransactions g keep tick n p) :=
  Library.Cells.foldl_range (fun _ q => SameOldTicks s q) h
    fun j _ _ hq => hq.copyTransaction keep tick j

omit [Zero TickData] [Zero Tick] in
lemma copyTransactions_oldTicks (keep : Nat) (s : State TickData Tick) :
    oldTicks (copyTransactions g keep s) = oldTicks s :=
  Library.Cells.foldl_range (fun _ p => SameOldTicks s p) rfl
    fun i _ _ hp => hp.copyTickTransactions keep (s.oldTickBegin + i) _

lemma keepTicks_oldTicks (s : State TickData Tick) (newInitialTick : Nat) :
    oldTicks (keepTicks g s newInitialTick) = (keepFrom s newInitialTick, newInitialTick) := by
  unfold keepTicks
  dsimp only
  generalize hcopied : (List.range _).foldl (copyTick g _) _ = s₁
  have hticks : oldTicks s₁ = (keepFrom s newInitialTick, newInitialTick) := by
    rw [← hcopied]
    refine Library.Cells.foldl_range
      (fun _ s' => oldTicks s' = (keepFrom s newInitialTick, newInitialTick)) rfl
      fun i _ s' hs' => ?_
    rw [copyTick_oldTicks, hs']
  exact (copyTransactions_oldTicks _ s₁).trans hticks

lemma beginEpoch_previous (h : seamless s newInitialTick) (tick : Nat) :
    tickInPreviousEpochStorage (beginEpoch g s newInitialTick) tick ↔
      keepFrom s newInitialTick ≤ tick ∧ tick < newInitialTick := by
  have hold : oldTicks (beginEpoch g s newInitialTick) =
      (keepFrom s newInitialTick, newInitialTick) := by
    unfold beginEpoch
    rw [if_pos h]
    exact keepTicks_oldTicks s newInitialTick
  have hbegin := congrArg Prod.fst hold
  have hend := congrArg Prod.snd hold
  simp only [oldTicks] at hbegin hend
  rw [tickInPreviousEpochStorage, hbegin, hend]

omit [Zero TickData] [Zero Tick] in
/-- The kept ticks are the last ones of the ended epoch; below tick 100 the difference wraps. -/
lemma keepFrom_le_iff (hnew : newInitialTick < 2 ^ 32) {tick : Nat} (hlt : tick < newInitialTick) :
    keepFrom s newInitialTick ≤ tick ↔ TICKS_TO_KEEP_FROM_PRIOR_EPOCH ≤ newInitialTick ∧
      max s.tickBegin (newInitialTick - TICKS_TO_KEEP_FROM_PRIOR_EPOCH) ≤ tick := by
  unfold keepFrom uint32 TICKS_TO_KEEP_FROM_PRIOR_EPOCH
  dsimp only
  split <;> omega

/-! ### Reading after the change -/

/-- After the seamless change the paged memories are zero everywhere. -/
lemma beginEpoch_zero (h : seamless s newInitialTick) :
    (∀ index, tickDataAt g (beginEpoch g s newInitialTick) index = 0) ∧
      (∀ tickIndex computor, tickAt g (beginEpoch g s newInitialTick) tickIndex computor = 0) ∧
      ∀ tickIndex transactionIdx,
        transactionOffsetAt g (beginEpoch g s newInitialTick) tickIndex transactionIdx = 0 := by
  unfold beginEpoch keepTicks
  rw [if_pos h]
  refine ⟨fun index => ?_, fun tickIndex computor => ?_, fun tickIndex transactionIdx => ?_⟩
  · exact read_reset _ _ _
  · exact read_reset _ _ _
  · exact read_reset _ _ _

/-- The storage goes on as it should if and only if there is nothing to keep: what is copied is not
where it is read. -/
theorem beginEpoch_continued_iff (hnew : newInitialTick < 2 ^ 32) (h : seamless s newInitialTick) :
    Continued g s newInitialTick (beginEpoch g s newInitialTick) ↔
      ∀ tick < newInitialTick, TICKS_TO_KEEP_FROM_PRIOR_EPOCH ≤ newInitialTick →
        max s.tickBegin (newInitialTick - TICKS_TO_KEEP_FROM_PRIOR_EPOCH) ≤ tick →
        NothingToKeep g s tick := by
  obtain ⟨htickData, hticks, hoffsets⟩ := beginEpoch_zero h
  constructor
  · intro hcontinued tick hlt hmany hfrom
    have hkept := hcontinued.kept tick
      ((beginEpoch_previous h tick).2 ⟨(keepFrom_le_iff hnew hlt).2 ⟨hmany, hfrom⟩, hlt⟩)
    refine ⟨?_, fun computor hcomputor => ?_, fun transactionIdx hidx => ?_⟩
    · rw [← hkept.tickData_eq, htickData]
    · rw [← hkept.ticks_eq computor hcomputor, hticks]
    · obtain ⟨-, hne, -⟩ | ⟨-, hmissing⟩ := hkept.transactions transactionIdx hidx _ _ rfl rfl
      · exact absurd (hoffsets _ _) hne
      · exact hmissing
  · intro hnothing
    refine ⟨fun tick htick => ?_, fun tick htick => ?_, fun _ _ => htickData _,
      fun _ _ _ _ => hticks _ _, fun _ _ _ _ => hoffsets _ _⟩
    · obtain ⟨hfrom, hlt⟩ := (beginEpoch_previous h tick).1 htick
      have := keepFrom_le_iff hnew hlt |>.1 hfrom
      have := h.2.2
      omega
    · obtain ⟨hfrom, hlt⟩ := (beginEpoch_previous h tick).1 htick
      obtain ⟨hmany, hlast⟩ := (keepFrom_le_iff hnew hlt).1 hfrom
      have hempty := hnothing tick hlt hmany hlast
      refine ⟨?_, fun computor hcomputor => ?_, ?_⟩
      · rw [htickData, hempty.tickData_eq]
      · rw [hticks, hempty.ticks_eq computor hcomputor]
      · rintro transactionIdx hidx offset offset' rfl rfl
        exact .inr ⟨hoffsets _ _, hempty.transactions transactionIdx hidx⟩

end

/-! ## A small storage -/

/-- Pages of 128 elements in 33 slots, of which the first is given up. -/
def samplePages (T : Type) : Setup T where
  pageCapacity := 128
  numCachePage := 32
  dirtyTrack := false
  victim := fun _ => 0
  victim_le := fun _ => Nat.zero_le _

def sampleSettings : Settings Nat Nat where
  maxNumberOfTicksPerEpoch := 2704
  transactionSparseness := 1
  tickDataPages := samplePages Nat
  ticksPages := samplePages Nat
  tickTransactionOffsetsPages := samplePages Nat
  tickTransactionsPages := samplePages UInt8

def onePage {T : Type} [Zero T] (value : T) : Memory T where
  cache := fun i => ⟨if i = 0 then some 0 else none, fun _ => value, true⟩
  disk := fun _ _ => 0
  isPageWrittenToDisk := fun _ => false
  currentPageId := 0

def sampleStorage (data : Nat) : State Nat Nat where
  tickBegin := 1000
  tickEnd := 3704
  oldTickBegin := 0
  oldTickEnd := 0
  tickDataPtr := fun _ => 0
  tickDataSwapVM := onePage data
  ticksPtr := fun _ => 0
  ticksSwapVM := SwapVirtualMemory.reset (onePage 0)
  tickTransactionsPtr := fun _ => 0
  tickTransactionsSwapVM := ⟨onePage 0, fun _ _ => 0, fun _ => false, fun _ => noOffset⟩
  tickTransactionOffsetsPtr := fun _ => 0
  tickTransactionOffsetsSwapVM := SwapVirtualMemory.reset (onePage 0)
  nextTickTransactionOffset := FIRST_TICK_TRANSACTION_OFFSET

lemma sampleStorage_seamless (data : Nat) : seamless (sampleStorage data) 1001 :=
  ⟨(by decide : 1000 ≠ 0), (by decide : 1000 ≤ 1001 ∧ 1001 < 3704), (by decide : 1000 < 1001)⟩

lemma sampleStorage_previous (data tick : Nat) : tickInPreviousEpochStorage
    (beginEpoch sampleSettings (sampleStorage data) 1001) tick ↔ tick = 1000 := by
  have hfrom : keepFrom (sampleStorage data) 1001 = 1000 := rfl
  rw [beginEpoch_previous (sampleStorage_seamless data), hfrom]
  omega

lemma sampleStorage_tickData (data : Nat) : tickDataAt sampleSettings (sampleStorage data)
    (tickToIndexCurrentEpoch (sampleStorage data) 1000) = data := by
  have hindex : tickToIndexCurrentEpoch (sampleStorage data) 1000 = 0 :=
    (by decide : uint32 ((1000 : Int) - 1000) = 0)
  rw [hindex]
  exact read_of_cached rfl 0

/-- A storage without tick data, votes and transactions goes on. -/
theorem beginEpoch_continued_iff_empty : Continued sampleSettings (sampleStorage 0) 1001
    (beginEpoch sampleSettings (sampleStorage 0) 1001) := by
  refine (beginEpoch_continued_iff (by decide) (sampleStorage_seamless 0)).2 fun tick hlt _ hle =>
    ?_
  obtain rfl : tick = 1000 := Nat.le_antisymm (Nat.le_of_lt_succ hlt) ((le_max_left ..).trans hle)
  exact ⟨sampleStorage_tickData 0, fun _ _ => read_reset _ _ _, fun _ _ => .inl (read_reset _ _ _)⟩

/-- The tick data of the last tick is lost. -/
theorem beginEpoch_loses_tickData :
    tickInPreviousEpochStorage (beginEpoch sampleSettings (sampleStorage 7) 1001) 1000 ∧
      tickDataAt sampleSettings (sampleStorage 7)
        (tickToIndexCurrentEpoch (sampleStorage 7) 1000) = 7 ∧
      tickDataAt sampleSettings (beginEpoch sampleSettings (sampleStorage 7) 1001)
        (tickToIndexPreviousEpoch sampleSettings
          (beginEpoch sampleSettings (sampleStorage 7) 1001) 1000) = 0 ∧
      ¬Continued sampleSettings (sampleStorage 7) 1001
        (beginEpoch sampleSettings (sampleStorage 7) 1001) := by
  have hprevious := (sampleStorage_previous 7 1000).2 rfl
  obtain ⟨hzero, -⟩ := beginEpoch_zero (sampleStorage_seamless 7)
  refine ⟨hprevious, sampleStorage_tickData 7, hzero _, fun hcontinued => ?_⟩
  have heq := (hcontinued.kept 1000 hprevious).tickData_eq
  rw [hzero, sampleStorage_tickData] at heq
  exact absurd heq (by decide)

end QubicCore.TickStorage
