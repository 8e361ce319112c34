import QubicCore.Library.FlaggedTree
import QubicCore.Spectrum.Run

/-!
# The digest of the spectrum

`getSpectrumDigest` brings the digest tree up to date once per tick. It rehashes the slots that the
dirty list names, or all slots if the list overflowed, as long as they were changed in the current
tick, and then only the nodes above them.
-/

namespace QubicCore.Spectrum

open Library Library.Cells Library.BitFlags Library.HashTree Function List Option
open Spectrum FlaggedTree Nat

def changedAt (tick : Nat) (e : EntityRecord) : Bool :=
  e.latestIncomingTransferTick == tick || e.latestOutgoingTransferTick == tick

/-- The slots looked at: all of them after an overflow, else those of the dirty list. -/
def dirtySlots (d : Nat) (s : Spectrum) : List Nat :=
  if s.spectrumDirtyOverflow then List.range (2 ^ d)
  else (List.range s.spectrumDirtyCount).map s.spectrumDirtyList

variable (k12 : KangarooTwelve)

def rehashLeaf (tick : Nat) (s : Spectrum) (idx : Nat) : Spectrum :=
  if changedAt tick (s.spectrum idx) then
    { s with
      spectrumDigests := update s.spectrumDigests idx (k12.entity (s.spectrum idx))
      spectrumChangeFlags := update s.spectrumChangeFlags (idx / 64)
        (s.spectrumChangeFlags (idx / 64) ||| 1#64 <<< (idx % 64)) }
  else s

/-- Body of the loop over one level, for the pair of nodes `i = 2 * j` and `i + 1`. -/
def rehashPair (previousLevelBeginning digestIndex : Nat) (s : Spectrum) (j : Nat) : Spectrum :=
  let i := 2 * j
  if s.spectrumChangeFlags (i / 64) &&& 3#64 <<< (i % 64) ≠ 0#64 then
    let flags := update s.spectrumChangeFlags (i / 64)
      (s.spectrumChangeFlags (i / 64) &&& ~~~(3#64 <<< (i % 64)))
    { s with
      spectrumDigests := update s.spectrumDigests (digestIndex + j)
        (k12.pair (s.spectrumDigests (previousLevelBeginning + i))
          (s.spectrumDigests (previousLevelBeginning + i + 1)))
      spectrumChangeFlags := update flags (i / 128) (flags (i / 128) ||| 1#64 <<< (i / 2 % 64)) }
  else s

def rehashLevel (previousLevelBeginning digestIndex n : Nat) (s : Spectrum) : Spectrum :=
  (List.range n).foldl (rehashPair k12 previousLevelBeginning digestIndex) s

def rehashLevels (k12 : KangarooTwelve) : Nat → Nat → Spectrum → Spectrum
  | 0, _, s => s
  | depth + 1, previousLevelBeginning, s =>
    let next := previousLevelBeginning + 2 ^ (depth + 1)
    rehashLevels k12 depth next (rehashLevel k12 previousLevelBeginning next (2 ^ depth) s)

def getSpectrumDigest (d : Nat) (k12 : KangarooTwelve) (tick : Nat) (s : Spectrum) :
    M256i × Spectrum :=
  let s := spectrumDirtyReset ((dirtySlots d s).foldl (rehashLeaf k12 tick) s)
  let s := rehashLevels k12 d 0 s
  let s := { s with spectrumChangeFlags := update s.spectrumChangeFlags 0 0#64 }
  (s.spectrumDigests (2 * 2 ^ d - 1 - 1), s)

/-- The change flag of node `i` of the current level. -/
def changeFlag (s : Spectrum) (i : Nat) : Bool := flag s.spectrumChangeFlags i

/-- The digests of the slots, the leaves of the tree. -/
def leaves (table : Nat → EntityRecord) (i : Nat) : M256i := k12.entity (table i)

/-! ## A complete rebuild -/

section

variable (k12 : KangarooTwelve) (digests : Nat → M256i) {start next n depth : Nat}

lemma hashLevel_apply (hnext : start + 2 * n ≤ next) (i : Nat) :
    hashLevel k12 start next n digests i =
      if next ≤ i ∧ i < next + n then
        parents k12.pair (fun j => digests (start + j)) (i - next)
      else digests i := by
  refine foldl_range (P := fun m (t : Nat → M256i) => ∀ i, t i =
    if next ≤ i ∧ i < next + m then parents k12.pair (fun j => digests (start + j)) (i - next)
    else digests i) ?_ ?_ i
  · intro i
    rw [if_neg (by omega)]
  · intro m hm t ht i
    -- both children lie on the level below, which the loop does not write
    have hchild : ∀ b < 2 * n, t (start + b) = digests (start + b) := fun b hb => by
      rw [ht, if_neg (by omega)]
    by_cases hi : i = next + m
    · subst hi
      rw [update_self, if_pos (by omega), parents, Nat.add_sub_cancel_left,
        hchild _ (by omega), Nat.add_assoc, hchild _ (by omega)]
    · grind

lemma hashLevels_fresh {leaf : Nat → M256i}
    (hleaf : ∀ j < 2 ^ depth, digests (start + j) = leaf j) :
    Fresh k12.pair (hashLevels k12 depth start digests) depth start leaf ∧
      ∀ i < start + 2 ^ depth, hashLevels k12 depth start digests i = digests i := by
  induction depth generalizing start digests leaf with
  | zero => exact ⟨fun _ => by simpa [hashLevels] using hleaf 0 (by simp), fun _ _ => rfl⟩
  | succ depth ih =>
    have hlevel := hashLevel_apply k12 digests (FlaggedTree.level_le start depth)
    have hparents : ∀ j < 2 ^ depth, hashLevel k12 start (start + 2 ^ (depth + 1)) (2 ^ depth)
        digests (start + 2 ^ (depth + 1) + j) = parents k12.pair leaf j := by
      intro j hj
      obtain ⟨hl, hr⟩ := two_mul_lt_pow hj
      rw [hlevel, if_pos (by omega), Nat.add_sub_cancel_left, parents, hleaf _ hl, hleaf _ hr,
        parents]
    obtain ⟨habove, hframe⟩ := ih _ hparents
    have hkeep : ∀ i < start + 2 ^ (depth + 1),
        hashLevels k12 (depth + 1) start digests i = digests i := fun i hi => by
      rw [hashLevels, hframe i (Nat.lt_add_right _ hi), hlevel, if_neg (by omega)]
    refine ⟨Fresh.succ (fun j hj => ?_) habove, hkeep⟩
    rw [hkeep _ (by omega), hleaf j hj]

lemma rebuildDigests_fresh (d : Nat) (k12 : KangarooTwelve) (table : Nat → EntityRecord)
    (digests : Nat → M256i) :
    Fresh k12.pair (rebuildDigests d k12 table digests) d 0 (leaves k12 table) := by
  refine (hashLevels_fresh k12 _ fun j hj => ?_).1
  rw [zero_add]
  refine foldl_range (P := fun m (t : Nat → M256i) => ∀ j < m,
    t j = leaves k12 table j) (fun j hj => absurd hj (by omega)) (fun m hm t ht j hj => ?_) j hj
  by_cases h : j = m
  · rw [h, update_self, leaves]
  · rw [update_of_ne h, ht j (by omega)]

end

/-! ## The incremental update -/

def Rehashed (s t : Spectrum) : Prop :=
  ∃ digests flags, t = { s with spectrumDigests := digests, spectrumChangeFlags := flags }

section

variable {k12 : KangarooTwelve} {tick : Nat} {s t u : Spectrum}

lemma Rehashed.refl (s : Spectrum) : Rehashed s s := ⟨_, _, rfl⟩

lemma Rehashed.trans (h : Rehashed s t) (h' : Rehashed t u) : Rehashed s u := by
  obtain ⟨_, _, rfl⟩ := h
  obtain ⟨digests, flags, rfl⟩ := h'
  exact ⟨digests, flags, rfl⟩

lemma Rehashed.spectrum (h : Rehashed s t) : t.spectrum = s.spectrum := by
  obtain ⟨_, _, rfl⟩ := h
  rfl

lemma Rehashed.spectrumDirtyCount (h : Rehashed s t) :
    t.spectrumDirtyCount = s.spectrumDirtyCount := by
  obtain ⟨_, _, rfl⟩ := h
  rfl

/-- After the leaf loop: the slots looked at and changed in this tick are hashed and flagged. -/
lemma rehashLeaf_foldl (k12 : KangarooTwelve) (tick : Nat) (s : Spectrum) (slots : List Nat) :
    Rehashed s (slots.foldl (rehashLeaf k12 tick) s) ∧
    (∀ i, (slots.foldl (rehashLeaf k12 tick) s).spectrumDigests i =
      if i ∈ slots ∧ changedAt tick (s.spectrum i) then leaves k12 s.spectrum i
      else s.spectrumDigests i) ∧
    ∀ i, changeFlag (slots.foldl (rehashLeaf k12 tick) s) i ↔
      changeFlag s i ∨ i ∈ slots ∧ changedAt tick (s.spectrum i) := by
  induction slots generalizing s with
  | nil => simp [Rehashed.refl]
  | cons idx slots ih =>
    obtain ⟨hrest, hdigests, hflags⟩ := ih (rehashLeaf k12 tick s idx)
    rw [foldl_cons]
    by_cases hidx : changedAt tick (s.spectrum idx)
    · have hone : Rehashed s (rehashLeaf k12 tick s idx) := by
        rw [rehashLeaf, if_pos hidx]
        exact ⟨_, _, rfl⟩
      refine ⟨hone.trans hrest, fun i => ?_, fun i => ?_⟩
      · rw [hdigests, hone.spectrum]
        simp only [rehashLeaf, hidx, if_true, update_apply, leaves]
        grind
      · rw [hflags, hone.spectrum]
        simp only [rehashLeaf, hidx, if_true, changeFlag, flag_set _ (by norm_num : 0 < 64)]
        grind
    · simp only [rehashLeaf, hidx] at hrest hdigests hflags ⊢
      refine ⟨hrest, fun i => ?_, fun i => ?_⟩
      · grind
      · grind

def tree (s : Spectrum) : FlaggedTree.Tree M256i := ⟨s.spectrumDigests, s.spectrumChangeFlags⟩

lemma rehashPair_tree (k12 : KangarooTwelve) (start next : Nat) (s : Spectrum) (j : Nat) :
    Rehashed s (rehashPair k12 start next s j) ∧ tree (rehashPair k12 start next s j) =
        FlaggedTree.hashPair k12.pair start next (tree s) j := by
  by_cases hflag : s.spectrumChangeFlags (2 * j / 64) &&& 3#64 <<< (2 * j % 64) ≠ 0#64
  · rw [rehashPair, FlaggedTree.hashPair, if_pos hflag,
      if_pos (c := (tree s).flags _ &&& _ ≠ _) hflag]
    exact ⟨⟨_, _, rfl⟩, rfl⟩
  · rw [rehashPair, FlaggedTree.hashPair, if_neg hflag,
      if_neg (c := (tree s).flags _ &&& _ ≠ _) hflag]
    exact ⟨.refl s, rfl⟩

lemma rehashLevel_tree (k12 : KangarooTwelve) (start next n : Nat) (s : Spectrum) :
    Rehashed s (rehashLevel k12 start next n s) ∧ tree (rehashLevel k12 start next n s) =
        FlaggedTree.hashLevel k12.pair start next n (tree s) := by
  unfold rehashLevel FlaggedTree.hashLevel
  induction List.range n generalizing s with
  | nil => exact ⟨.refl s, rfl⟩
  | cons j js ih =>
    obtain ⟨hone, htree⟩ := rehashPair_tree k12 start next s j
    obtain ⟨hrest, htree'⟩ := ih (rehashPair k12 start next s j)
    rw [foldl_cons, foldl_cons, ← htree]
    exact ⟨hone.trans hrest, htree'⟩

lemma rehashLevels_tree (k12 : KangarooTwelve) (depth start : Nat) (s : Spectrum) :
    Rehashed s (rehashLevels k12 depth start s) ∧ tree (rehashLevels k12 depth start s) =
        FlaggedTree.hashLevels k12.pair depth start (tree s) := by
  induction depth generalizing start s with
  | zero => exact ⟨.refl s, rfl⟩
  | succ depth ih =>
    obtain ⟨hlevel, htree⟩ := rehashLevel_tree k12 start (start + 2 ^ (depth + 1)) (2 ^ depth) s
    obtain ⟨hrest, htree'⟩ := ih (start + 2 ^ (depth + 1)) (rehashLevel k12 start
      (start + 2 ^ (depth + 1)) (2 ^ depth) s)
    rw [htree] at htree'
    exact ⟨hlevel.trans hrest, htree'⟩

end

/-! ## Whole ticks -/

/-- The slots that the next digest will hash. -/
def Pending (d : Nat) (tick : Nat) (s : Spectrum) (i : Nat) : Prop :=
  i ∈ dirtySlots d s ∧ changedAt tick (s.spectrum i)

/-- The digest tree holds the complete hash tree over the current entities. -/
def UpToDate (d : Nat) (k12 : KangarooTwelve) (s : Spectrum) : Prop :=
  Fresh k12.pair s.spectrumDigests d 0 (leaves k12 s.spectrum)

/-- The flags of all slots are clear, and the dirty list names slots of the table. -/
structure Settled (d : Nat) (s : Spectrum) : Prop where
  flags : ∀ i < 2 ^ d, ¬changeFlag s i
  listed : ∀ di < s.spectrumDirtyCount, s.spectrumDirtyList di < 2 ^ d

/-- What the updates of one tick keep: the tree is right except above the pending slots. -/
structure Tracked (d : Nat) (k12 : KangarooTwelve) (tick : Nat) (s : Spectrum) : Prop
    extends Settled d s where
  tree : FreshExcept k12.pair s.spectrumDigests d 0 (leaves k12 s.spectrum) (Pending d tick s)

section

variable {d tick : Nat} {k12 : KangarooTwelve} {s s' : Spectrum}

lemma Settled.dirtySlots_lt (h : Settled d s) {i : Nat} (hi : i ∈ dirtySlots d s) : i < 2 ^ d := by
  unfold dirtySlots at hi
  split_ifs at hi
  · exact mem_range.mp hi
  · obtain ⟨di, hdi, rfl⟩ := mem_map.mp hi
    exact h.listed di (mem_range.mp hdi)

lemma Tracked.getSpectrumDigest (h : Tracked d k12 tick s) :
    (getSpectrumDigest d k12 tick s).2.spectrum = s.spectrum ∧
    UpToDate d k12 (getSpectrumDigest d k12 tick s).2 ∧
    Settled d (getSpectrumDigest d k12 tick s).2 ∧
    (getSpectrumDigest d k12 tick s).1 = root k12.pair d (leaves k12 s.spectrum) := by
  obtain ⟨hrehashed, hdigests, hflags⟩ := rehashLeaf_foldl k12 tick s (dirtySlots d s)
  simp only [Spectrum.getSpectrumDigest]
  generalize (dirtySlots d s).foldl (rehashLeaf k12 tick) s = u at hrehashed hdigests hflags ⊢
  have hleaf : ∀ j < 2 ^ d, u.spectrumDigests (0 + j) = leaves k12 s.spectrum j := by
    intro j hj
    rw [Nat.zero_add, hdigests]
    split_ifs with hj'
    · rfl
    · simpa using h.tree.leaf_eq hj hj'
  have hrest : ∀ i, 0 + 2 ^ d ≤ i → u.spectrumDigests i = s.spectrumDigests i := by
    intro i hi
    rw [hdigests, if_neg fun hmem => ?_]
    have := h.dirtySlots_lt hmem.1
    omega
  have htree : FreshExcept k12.pair u.spectrumDigests d 0 (leaves k12 s.spectrum)
      (changeFlag u ·) :=
    (h.tree.releaf hleaf hrest).change fun j _ hstale =>
      ⟨fun hpending => hstale ((hflags j).mpr (.inr hpending)), rfl⟩
  obtain ⟨hlevels, hclimb⟩ := rehashLevels_tree k12 d 0 (spectrumDirtyReset u)
  obtain ⟨hfresh, -, hdone⟩ := FlaggedTree.hashLevels_fresh
    (t := Spectrum.tree (spectrumDirtyReset u)) (b := 2 ^ d) htree hleaf
    fun k hk hb => absurd hk (by omega)
  rw [← hclimb] at hfresh hdone
  have htable := hlevels.spectrum.trans hrehashed.spectrum
  have hroot := hfresh.root_eq
  generalize rehashLevels k12 d 0 (spectrumDirtyReset u) = t
    at hfresh hlevels hdone htable hroot ⊢
  refine ⟨htable, ?_, ⟨fun i hi => ?_, fun di hdi => ?_⟩, ?_⟩
  · simpa only [UpToDate, htable, Spectrum.tree] using hfresh
  · exact FlaggedTree.not_changed_clear_root hdone hi
  · have hcount : t.spectrumDirtyCount = 0 := hlevels.spectrumDirtyCount
    exact absurd hdi (by simp [hcount])
  · simpa [Spectrum.tree] using hroot

lemma UpToDate.tracked (h : UpToDate d k12 s) (hs : Settled d s) : Tracked d k12 tick s :=
  ⟨hs, h.freshExcept⟩

/-- A marked slot is looked at, and no other is forgotten. -/
lemma mem_dirtySlots_spectrumMarkDirty (hs : Settled d s) {i idx : Nat} (hidx : idx < 2 ^ d)
    (hi : i = idx ∨ i ∈ dirtySlots d s) : i ∈ dirtySlots d (spectrumMarkDirty s idx) := by
  have hlt : i < 2 ^ d := by
    obtain rfl | hi := hi
    exacts [hidx, hs.dirtySlots_lt hi]
  unfold spectrumMarkDirty
  by_cases hover : s.spectrumDirtyOverflow
  · split_ifs <;> simp [dirtySlots, hover, hlt]
  · split_ifs with hroom
    · simp only [dirtySlots, hover, Bool.false_eq_true, if_false, range_succ,
        map_append, mem_append, map_cons, map_nil, mem_singleton,
        update_self] at hi ⊢
      refine hi.symm.imp_left fun hmem => ?_
      obtain ⟨di, hdi, rfl⟩ := mem_map.mp hmem
      refine mem_map.mpr ⟨di, hdi, update_of_ne ?_ _ _⟩
      exact (mem_range.mp hdi).ne
    · simp [dirtySlots, hlt]

lemma Tracked.write (h : Tracked d k12 tick s) {idx : Nat} (hidx : idx < 2 ^ d)
    {e : EntityRecord} (he : changedAt tick e) :
    Tracked d k12 tick
      (spectrumMarkDirty { s with spectrum := update s.spectrum idx e } idx) := by
  set s₁ : Spectrum := { s with spectrum := update s.spectrum idx e } with hs₁
  have hsettled : Settled d s₁ := ⟨h.flags, h.listed⟩
  have htable : (spectrumMarkDirty s₁ idx).spectrum = s₁.spectrum := by
    unfold spectrumMarkDirty
    split_ifs <;> rfl
  have hdigests : (spectrumMarkDirty s₁ idx).spectrumDigests = s.spectrumDigests := by
    unfold spectrumMarkDirty
    split_ifs <;> rfl
  refine ⟨⟨fun i hi => ?_, fun di hdi => ?_⟩, ?_⟩
  · have hflag : changeFlag (spectrumMarkDirty s₁ idx) i = changeFlag s i := by
      unfold spectrumMarkDirty
      split_ifs <;> rfl
    rw [hflag]
    exact h.flags i hi
  · unfold spectrumMarkDirty at hdi ⊢
    split_ifs at hdi ⊢ with hroom
    · by_cases hlast : di = s.spectrumDirtyCount
      · simpa [hs₁, hlast] using hidx
      · have hlt : di < s.spectrumDirtyCount := by
          simp only [hs₁] at hdi
          omega
        simpa [hs₁, hlast] using h.listed di hlt
    · exact h.listed di hdi
  · rw [hdigests, htable]
    refine h.tree.change fun j hj hnot => ?_
    have hj' : j ≠ idx := by
      rintro rfl
      refine hnot ⟨mem_dirtySlots_spectrumMarkDirty hsettled hidx (.inl rfl), ?_⟩
      simpa [htable, hs₁] using he
    refine ⟨fun hpending => hnot ⟨?_, ?_⟩, by simp [leaves, hs₁, hj']⟩
    · exact mem_dirtySlots_spectrumMarkDirty hsettled hidx (.inr hpending.1)
    · simpa [htable, hs₁, hj'] using hpending.2

/-- A reorganization rebuilds the whole tree. -/
lemma Settled.reorganizeSpectrum (h : Settled d s)
    (hs : reorganizeSpectrum d k12 s = some s') : Tracked d k12 tick s' := by
  obtain ⟨table, -, ⟨⟩⟩ := bind_eq_some_iff.mp hs
  exact ⟨⟨h.flags, fun di hdi => absurd hdi (not_lt_zero di)⟩,
    (rebuildDigests_fresh d k12 table s.spectrumDigests).freshExcept⟩

lemma Tracked.makeRoom (h : Tracked d k12 tick s)
    (hs : Spectrum.makeRoom d k12 s = some s') : Tracked d k12 tick s' := by
  unfold Spectrum.makeRoom at hs
  split_ifs at hs with hcrowded
  · exact Settled.reorganizeSpectrum (s := { s with
      spectrum := (burnDust d s.spectrum).table
      dustBurns := s.dustBurns ++ (burnDust d s.spectrum).burns }) ⟨h.flags, h.listed⟩ hs
  · obtain rfl := some.inj hs
    exact h

lemma Tracked.increaseEnergy (h : Tracked d k12 tick s) {publicKey : M256i} {amount : Int}
    (hs : Spectrum.increaseEnergy d k12 tick s publicKey amount = some s') :
    Tracked d k12 tick s' := by
  unfold Spectrum.increaseEnergy at hs
  split_ifs at hs with hvalid
  · simp only [Option.bind_eq_bind, bind_eq_some_iff, Option.pure_def,
      some.injEq] at hs
    obtain ⟨s₁, hs₁, index, hindex, rfl⟩ := hs
    have hlt : index < 2 ^ d := Library.Probing.probe_lt (homeSlot_lt d publicKey) hindex
    have h₁ := h.makeRoom hs₁
    split_ifs
    · have hw := h₁.write hlt (e := { s₁.spectrum index with
        incomingAmount := sint64 ((s₁.spectrum index).incomingAmount + amount)
        numberOfIncomingTransfers := ((s₁.spectrum index).numberOfIncomingTransfers + 1) % 2 ^ 32
        latestIncomingTransferTick := tick }) (by simp [changedAt])
      exact ⟨⟨hw.flags, hw.listed⟩, hw.tree⟩
    · have hw := h₁.write hlt (e := { s₁.spectrum index with
        publicKey := publicKey
        incomingAmount := amount
        numberOfIncomingTransfers := 1
        latestIncomingTransferTick := tick }) (by simp [changedAt])
      exact ⟨⟨hw.flags, hw.listed⟩, hw.tree⟩
  · obtain rfl := some.inj hs
    exact h

lemma Tracked.decreaseEnergy (h : Tracked d k12 tick s) {index : Nat} (hindex : index < 2 ^ d)
    (amount : Int) : Tracked d k12 tick (Spectrum.decreaseEnergy tick s index amount).2 := by
  unfold Spectrum.decreaseEnergy
  split_ifs
  · have hw := h.write hindex (e := { s.spectrum index with
      outgoingAmount := sint64 ((s.spectrum index).outgoingAmount + amount)
      numberOfOutgoingTransfers := ((s.spectrum index).numberOfOutgoingTransfers + 1) % 2 ^ 32
      latestOutgoingTransferTick := tick }) (by simp [changedAt])
    exact ⟨⟨hw.flags, hw.listed⟩, hw.tree⟩
  · exact h

end

def Call.AtTick (tick : Nat) : Call → Prop
  | .increaseEnergy t _ _ => t = tick
  | .decreaseEnergy t _ _ => t = tick
  | .reorganizeSpectrum => True

section

variable {d tick : Nat} {k12 : KangarooTwelve} {s s' : Spectrum}

lemma Tracked.step (h : Tracked d k12 tick s) {call : Call} (htick : call.AtTick tick)
    (hcall : call.InTable d) (hs : step d k12 s call = some s') :
    Tracked d k12 tick s' := by
  cases call with
  | increaseEnergy t publicKey amount =>
    obtain rfl : t = tick := htick
    exact h.increaseEnergy hs
  | decreaseEnergy t index amount =>
    obtain rfl : t = tick := htick
    obtain rfl := some.inj hs
    exact h.decreaseEnergy hcall amount
  | reorganizeSpectrum => exact h.toSettled.reorganizeSpectrum hs

lemma Tracked.run (h : Tracked d k12 tick s) {calls : List Call}
    (hcalls : ∀ call ∈ calls, call.AtTick tick ∧ call.InTable d)
    (hrun : calls.foldlM (Spectrum.step d k12) s = some s') : Tracked d k12 tick s' := by
  induction calls generalizing s with
  | nil =>
    obtain rfl := some.inj hrun
    exact h
  | cons call calls ih =>
    obtain ⟨s₁, hs₁, hrest⟩ := bind_eq_some_iff.mp hrun
    obtain ⟨htick, hcall⟩ := hcalls call (by simp)
    exact ih (h.step htick hcall hs₁) (fun c hc => hcalls c (by simp [hc])) hrest

/-- The digest at the end of a tick: whatever the updates were, every node of the tree is what a
complete rebuild from the current entities computes, and the next tick starts as this one did. -/
theorem getSpectrumDigest_eq_rebuild {calls : List Call} (htree : UpToDate d k12 s)
    (hs : Settled d s) (hcalls : ∀ call ∈ calls, call.AtTick tick ∧ call.InTable d)
    (hrun : calls.foldlM (Spectrum.step d k12) s = some s') :
    (∀ i < 2 * 2 ^ d - 1, (getSpectrumDigest d k12 tick s').2.spectrumDigests i =
      rebuildDigests d k12 s'.spectrum s'.spectrumDigests i) ∧
    (getSpectrumDigest d k12 tick s').1 =
      rebuildDigests d k12 s'.spectrum s'.spectrumDigests (2 * 2 ^ d - 2) ∧
    (getSpectrumDigest d k12 tick s').1 = root k12.pair d (leaves k12 s'.spectrum) ∧
    (getSpectrumDigest d k12 tick s').2.spectrum = s'.spectrum ∧
    UpToDate d k12 (getSpectrumDigest d k12 tick s').2 ∧
    Settled d (getSpectrumDigest d k12 tick s').2 := by
  obtain ⟨htable, hfresh, hsettled, hroot⟩ := ((htree.tracked hs).run hcalls hrun).getSpectrumDigest
  have hrebuild := rebuildDigests_fresh d k12 s'.spectrum s'.spectrumDigests
  refine ⟨fun i hi => ?_, ?_, hroot, htable, hfresh, hsettled⟩
  · rw [UpToDate, htable] at hfresh
    simpa using hfresh.unique hrebuild hi
  · rw [hroot, ← hrebuild.root_eq, Nat.zero_add, Nat.sub_sub]

end

/-- A hash that tells apart balances and the order of the two children. -/
def toyHash : KangarooTwelve :=
  ⟨fun e => ⟨BitVec.ofInt 256 e.balance⟩, fun a b => ⟨a.bits + 2 * b.bits⟩⟩

def hashedEmpty (d : Nat) : Spectrum :=
  { empty with spectrumDigests := rebuildDigests d toyHash empty.spectrum empty.spectrumDigests }

def busyTick : List Call :=
  [.increaseEnergy 1 holder 7, .reorganizeSpectrum, .increaseEnergy 1 ⟨6⟩ 2, .decreaseEnergy 1 5 3]

theorem getSpectrumDigest_eq_rebuild_busyTick :
    ∃ s', busyTick.foldlM (Spectrum.step 3 toyHash) (hashedEmpty 3) = some s' ∧
      (getSpectrumDigest 3 toyHash 1 s').1 =
        rebuildDigests 3 toyHash s'.spectrum s'.spectrumDigests 14 := by
  have hrun : ∃ s', busyTick.foldlM (step 3 toyHash) (hashedEmpty 3) = some s' := ⟨_, rfl⟩
  have htree : UpToDate 3 toyHash (hashedEmpty 3) := rebuildDigests_fresh 3 toyHash _ _
  obtain ⟨s', hrun⟩ := hrun
  refine ⟨s', hrun, (getSpectrumDigest_eq_rebuild htree ⟨?_, ?_⟩ ?_ hrun).2.1⟩
  · simp [hashedEmpty, empty, changeFlag, flag]
  · simp [hashedEmpty, empty]
  · simp [busyTick, Call.AtTick, Call.InTable]

end QubicCore.Spectrum
