import QubicCore.Assets.Digest

/-!
# The digest of the contract states

Each contract keeps a state of a fixed number of bytes. A contract gets at it through `mut`,
which sets the change flag of the contract. `getComputerDigest` hashes the states of the flagged
contracts and climbs the digest tree over `MAX_NUMBER_OF_CONTRACTS` leaves pair by pair.

The hash functions are parameters. `MAX_NUMBER_OF_CONTRACTS` is `2^d`. The digest cache and the
parallel hashing of large states, other ways to compute the same hash, are left out, as are locks
and time measurements.
-/

namespace QubicCore.Computer

open Library Library.Cells Library.BitFlags Library.HashTree Function Universe FreshExcept

structure Descriptions where
  contractCount : Nat
  stateSize : Nat → Nat

structure Contracts where
  contractStates : Nat → Nat → BitVec 8
  contractStateDigests : Nat → M256i
  contractStateChangeFlags : Nat → BitVec 64

section

variable (kangarooTwelve : List (BitVec 8) → M256i)
  (kangarooTwelve64To32 : M256i → M256i → M256i) (descriptions : Descriptions)

def markContractStateDirty (c : Contracts) (contractIndex : Nat) : Contracts :=
  if contractIndex < descriptions.contractCount then
    { c with
      contractStateChangeFlags := update c.contractStateChangeFlags (contractIndex / 64)
        (c.contractStateChangeFlags (contractIndex / 64) ||| 1#64 <<< (contractIndex % 64)) }
  else c

/-- A contract writes its state, which it got from `mut`. -/
def writeState (c : Contracts) (contractIndex : Nat) (state : Nat → BitVec 8) : Contracts :=
  let c := markContractStateDirty descriptions c contractIndex
  { c with contractStates := update c.contractStates contractIndex state }

/-- The digest of a state. That the digest cache returns this one-shot hash is assumed. -/
def stateDigest (contractStates : Nat → Nat → BitVec 8) (digestIndex : Nat) : M256i :=
  let size := if digestIndex < descriptions.contractCount then descriptions.stateSize digestIndex
    else 0
  if size = 0 then 0
  else kangarooTwelve ((List.range (size % 2 ^ 32)).map (contractStates digestIndex))

def hashState (flags : Nat → BitVec 64) (contractStates : Nat → Nat → BitVec 8)
    (contractStateDigests : Nat → M256i) (digestIndex : Nat) : Nat → M256i :=
  if flags (digestIndex / 64) &&& 1#64 <<< (digestIndex % 64) ≠ 0#64 then
    update contractStateDigests digestIndex
      (stateDigest kangarooTwelve descriptions contractStates digestIndex)
  else contractStateDigests

def getComputerDigest (d : Nat) (c : Contracts) : M256i × Contracts :=
  let contractStateDigests := (List.range (2 ^ d)).foldl
    (hashState kangarooTwelve descriptions c.contractStateChangeFlags c.contractStates)
    c.contractStateDigests
  let t := FlaggedTree.hashLevels kangarooTwelve64To32 d 0
    ⟨contractStateDigests, c.contractStateChangeFlags⟩
  (t.cells (2 * 2 ^ d - 1 - 1),
    ⟨c.contractStates, t.cells, update t.flags 0 0#64⟩)

end

variable {kangarooTwelve : List (BitVec 8) → M256i}
  {kangarooTwelve64To32 : M256i → M256i → M256i} {descriptions : Descriptions} {d : Nat}

lemma hashState_foldl (kangarooTwelve : List (BitVec 8) → M256i)
    (descriptions : Descriptions) (c : Contracts) (n i : Nat) :
    (List.range n).foldl (hashState kangarooTwelve descriptions c.contractStateChangeFlags
        c.contractStates) c.contractStateDigests i =
      if i < n ∧ flag c.contractStateChangeFlags i then
        stateDigest kangarooTwelve descriptions c.contractStates i
      else c.contractStateDigests i := by
  refine foldl_range (P := fun m (digests : Nat → M256i) => ∀ i, digests i =
    if i < m ∧ flag c.contractStateChangeFlags i then
      stateDigest kangarooTwelve descriptions c.contractStates i
    else c.contractStateDigests i) (fun i => by simp) (fun m _ digests hdigests i => ?_) i
  have hword := one_ne_zero_iff c.contractStateChangeFlags (i := m) (by norm_num)
  by_cases hflag : flag c.contractStateChangeFlags m
  · rw [hashState, if_pos (hword.mpr hflag)]
    by_cases hi : i = m
    · simp [hi, hflag]
    · grind
  · rw [hashState, if_neg (hword.not.mpr hflag), hdigests]
    grind

def Tracked (kangarooTwelve : List (BitVec 8) → M256i)
    (kangarooTwelve64To32 : M256i → M256i → M256i) (descriptions : Descriptions) (d : Nat)
    (c : Contracts) : Prop :=
  FreshExcept kangarooTwelve64To32 c.contractStateDigests d 0
    (stateDigest kangarooTwelve descriptions c.contractStates)
    fun i => flag c.contractStateChangeFlags i

variable {c : Contracts}

/-- A write is flagged; where the table knows no contract there is nothing to hash. -/
lemma Tracked.writeState (h : Tracked kangarooTwelve kangarooTwelve64To32 descriptions d c)
    (contractIndex : Nat) (state : Nat → BitVec 8) :
    Tracked kangarooTwelve kangarooTwelve64To32 descriptions d
      (writeState descriptions c contractIndex state) := by
  unfold Computer.writeState markContractStateDirty
  split_ifs with hknown
  · refine change h fun j _ hj => ?_
    simp only [flag_set _ (by norm_num : 0 < 64), Bool.or_eq_true, decide_eq_true_eq, not_or] at hj
    exact ⟨hj.1, by simp only [stateDigest, update_of_ne hj.2]⟩
  · refine change h fun j _ hj => ⟨hj, ?_⟩
    by_cases hj' : j = contractIndex
    · simp [stateDigest, hj', hknown]
    · simp only [stateDigest, update_of_ne hj']

def writeStates (descriptions : Descriptions) (changes : List (Nat × (Nat → BitVec 8)))
    (c : Contracts) : Contracts :=
  changes.foldl (fun c change => writeState descriptions c change.1 change.2) c

lemma Tracked.writeStates (changes : List (Nat × (Nat → BitVec 8)))
    (h : Tracked kangarooTwelve kangarooTwelve64To32 descriptions d c) :
    Tracked kangarooTwelve kangarooTwelve64To32 descriptions d
      (writeStates descriptions changes c) := by
  induction changes generalizing c with
  | nil => exact h
  | cons change changes ih => exact ih (h.writeState change.1 change.2)

/-- Every node of the tree is right, its root the result and all flags are clear. -/
lemma Tracked.getComputerDigest
    (h : Tracked kangarooTwelve kangarooTwelve64To32 descriptions d c) :
    let r := getComputerDigest kangarooTwelve kangarooTwelve64To32 descriptions d c
    Fresh kangarooTwelve64To32 r.2.contractStateDigests d 0
      (stateDigest kangarooTwelve descriptions c.contractStates) ∧
    r.1 = root kangarooTwelve64To32 d
      (stateDigest kangarooTwelve descriptions c.contractStates) ∧
    ∀ i < 2 ^ d, flag r.2.contractStateChangeFlags i = false := by
  have hdigests := hashState_foldl kangarooTwelve descriptions c (2 ^ d)
  simp only [Computer.getComputerDigest]
  generalize (List.range (2 ^ d)).foldl (hashState kangarooTwelve descriptions
    c.contractStateChangeFlags c.contractStates) c.contractStateDigests = digests at hdigests ⊢
  have hleaf : ∀ j < 2 ^ d, digests (0 + j) =
      stateDigest kangarooTwelve descriptions c.contractStates j := by
    intro j hj
    rw [Nat.zero_add, hdigests]
    split_ifs with hflag
    · rfl
    · simpa using leaf_eq h hj fun hset => hflag ⟨hj, hset⟩
  have htree : FreshExcept kangarooTwelve64To32 digests d 0
      (stateDigest kangarooTwelve descriptions c.contractStates)
      fun i => flag c.contractStateChangeFlags i :=
    releaf h hleaf fun i hi => by rw [hdigests, if_neg (by omega)]
  obtain ⟨hfresh, -, hdone⟩ := FlaggedTree.hashLevels_fresh
    (t := ⟨digests, c.contractStateChangeFlags⟩) (b := 2 ^ d) htree hleaf
    fun k hk hb => absurd hk (by omega)
  refine ⟨hfresh, ?_, fun i hi => ?_⟩
  · simpa using hfresh.root_eq
  · simpa using FlaggedTree.not_changed_clear_root hdone hi

/-- The two digests of a tick: whatever asset calls and state writes came before, every node of
both trees is what a complete recomputation from the current leaves gives, the roots are returned
and no change flag is left. -/
theorem digests_eq_recomputation {record : AssetRecord → M256i}
    {pair : M256i → M256i → M256i} {state : List (BitVec 8) → M256i} {capacity : Nat}
    (hcapacity : 6 ≤ capacity) {u u' : Universe} {l l' : Universe.Ledger}
    {calls : List Universe.Call} {assetDigests : Nat → M256i} {c : Contracts}
    (hassets : Fresh pair assetDigests capacity 0 (Universe.leaves record u.assets))
    (hrun : calls.foldlM (Universe.step capacity) (u, l) = some (u', l'))
    (hstates : Fresh pair c.contractStateDigests d 0
      (stateDigest state descriptions c.contractStates))
    (changes : List (Nat × (Nat → BitVec 8))) :
    (∃ r, Universe.getUniverseDigest record pair capacity u' assetDigests = some r ∧
      Fresh pair r.assetDigests capacity 0 (Universe.leaves record u'.assets) ∧
      r.digest = root pair capacity (Universe.leaves record u'.assets) ∧
      ∀ i < 2 ^ capacity, flag r.assetChangeFlags i = false) ∧
    let c' := writeStates descriptions changes c
    let r := getComputerDigest state pair descriptions d c'
    Fresh pair r.2.contractStateDigests d 0 (stateDigest state descriptions c'.contractStates) ∧
      r.1 = root pair d (stateDigest state descriptions c'.contractStates) ∧
      ∀ i < 2 ^ d, flag r.2.contractStateChangeFlags i = false := by
  have htracked : Universe.Tracked record pair capacity u assetDigests := hassets.freshExcept
  have htracked' : Tracked state pair descriptions d c := hstates.freshExcept
  exact ⟨(htracked.run hrun).getUniverseDigest hcapacity,
    (htracked'.writeStates changes).getComputerDigest⟩

def toyRecordHash : AssetRecord → M256i
  | .empty => 0
  | .issuance publicKey .. => publicKey
  | .ownership publicKey .. => ⟨publicKey.bits + 1⟩
  | .possession publicKey .. => ⟨publicKey.bits + 2⟩

def toyPairHash (a b : M256i) : M256i := ⟨a.bits + 2 * b.bits⟩

def toyDescriptions : Descriptions := ⟨3, fun i => if i < 2 then 1 else 0⟩

def toyStateHash (bytes : List (BitVec 8)) : M256i := ⟨(bytes.getD 0 0).setWidth 256⟩

/-- The state after start-up, with all flags set. -/
def toyContracts : Contracts := ⟨fun _ _ => 0, fun _ => 0, fun _ => BitVec.allOnes 64⟩

/-- The trees that the first digests compute serve for the next tick. -/
theorem digests_eq_recomputation_issueRun :
    ∃ r u' l' c,
      Universe.getUniverseDigest toyRecordHash toyPairHash 6 .empty (fun _ => 0) = some r ∧
      Universe.run 6 Universe.issueRun = some (u', l') ∧
      c = (getComputerDigest toyStateHash toyPairHash toyDescriptions 2 toyContracts).2 ∧
      (∃ r', Universe.getUniverseDigest toyRecordHash toyPairHash 6 u' r.assetDigests = some r' ∧
        r'.digest = root toyPairHash 6 (Universe.leaves toyRecordHash u'.assets)) ∧
      (getComputerDigest toyStateHash toyPairHash toyDescriptions 2
        (writeStates toyDescriptions [(1, fun _ => 5)] c)).1 = ⟨10⟩ := by
  have hall : ∀ i, flag (fun _ => BitVec.allOnes 64) i := fun i => by
    simp only [flag, BitVec.getLsbD_allOnes, decide_eq_true_eq]
    exact Nat.mod_lt i (by norm_num)
  -- a tree whose leaves are all flagged is right except above the flags
  have hstale : ∀ (k : Nat) (pair : M256i → M256i → M256i) (cells leaf : Nat → M256i),
      FreshExcept pair cells k 0 leaf fun i => flag (fun _ => BitVec.allOnes 64) i := by
    intro k pair cells leaf
    simpa only [hall] using all k 0
  obtain ⟨r, hr, hfresh, -, -⟩ := Tracked.getUniverseDigest le_rfl
    (u := .empty) (hstale 6 toyPairHash (fun _ => 0) (leaves toyRecordHash _))
  have htracked : Tracked toyStateHash toyPairHash toyDescriptions 2 toyContracts :=
    hstale 2 toyPairHash (fun _ => 0) _
  obtain ⟨hfresh', -, -⟩ := htracked.getComputerDigest
  have hrun : (run 6 issueRun).isSome := by decide
  obtain ⟨⟨u', l'⟩, hrun⟩ := Option.isSome_iff_exists.mp hrun
  obtain ⟨⟨r', hr', -, hroot, -⟩, -, hdigest, -⟩ :=
    digests_eq_recomputation le_rfl hfresh hrun hfresh' [(1, fun _ => 5)]
  refine ⟨r, u', l', _, hr, hrun, rfl, ⟨r', hr', hroot⟩, ?_⟩
  rfl

end QubicCore.Computer
