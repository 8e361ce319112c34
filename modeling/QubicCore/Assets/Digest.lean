import QubicCore.Library.FlaggedTree
import QubicCore.Assets.Run

/-!
# The digest of the universe

`getUniverseDigest` visits the flag words, hashes the records whose flag is set, and climbs the
digest tree over them. A level of 64 nodes or more is worked off word by word, and a zero word is
skipped with its 32 pairs; smaller levels are worked off pair by pair.

The hash functions are parameters. `ASSETS_CAPACITY` is `2^d`. A result `none` is a bit scan that
does not end.
-/

namespace QubicCore.Universe

open Library Library.Cells Library.BitFlags Library.HashTree Function Option FlaggedTree Nat

variable {assetDigests : Nat → M256i} {owner possessor : M256i} {issuance : Nat}

section

variable (kangarooTwelve : AssetRecord → M256i) (kangarooTwelve64To32 : M256i → M256i → M256i)

def msvcCtzll (mask : BitVec 64) : Nat := lowest mask

/-- The loop `while (mask)` over the set bits of a flag word, with the iterations left. -/
def hashFlagged (assets : Nat → AssetRecord) (base : Nat) :
    Nat → BitVec 64 → (Nat → M256i) → Option (Nat → M256i)
  | 0, mask, assetDigests => if mask = 0#64 then some assetDigests else none
  | fuel + 1, mask, assetDigests =>
    if mask = 0#64 then some assetDigests
    else
      let idx := base + msvcCtzll mask
      hashFlagged assets base fuel (mask &&& (mask - 1#64))
        (update assetDigests idx (kangarooTwelve (assets idx)))

def hashRecords (d : Nat) (u : Universe) (assetDigests : Nat → M256i) : Option (Nat → M256i) :=
  (List.range (2 ^ d / 64)).foldlM (fun assetDigests chunk =>
    hashFlagged kangarooTwelve u.assets (64 * chunk) 64 (u.assetChangeFlags chunk) assetDigests)
    assetDigests

/-- Body of the loop over the pairs of a flag word, for `j = 2 * m`. -/
def climbChunkPair (previousLevelBeginning digestIndex chunk : Nat) (t : FlaggedTree.Tree M256i)
    (m : Nat) : FlaggedTree.Tree M256i :=
  let j := 2 * m
  let i := 64 * chunk + j
  if t.flags chunk &&& 3#64 <<< j ≠ 0#64 then
    let flags := update t.flags chunk (t.flags chunk &&& ~~~(3#64 <<< j))
    ⟨update t.cells (digestIndex + (32 * chunk + m)) (kangarooTwelve64To32
        (t.cells (previousLevelBeginning + i)) (t.cells (previousLevelBeginning + i + 1))),
      update flags (i / 128) (flags (i / 128) ||| 1#64 <<< (i / 2 % 64))⟩
  else t

/-- Body of the loop over the flag words of a level. -/
def climbChunk (previousLevelBeginning digestIndex : Nat) (t : FlaggedTree.Tree M256i)
    (chunk : Nat) : FlaggedTree.Tree M256i :=
  if t.flags chunk = 0#64 then t
  else (List.range 32).foldl
    (climbChunkPair kangarooTwelve64To32 previousLevelBeginning digestIndex chunk) t

def climbLevel (previousLevelBeginning digestIndex numberOfLeafs : Nat)
    (t : FlaggedTree.Tree M256i) : FlaggedTree.Tree M256i :=
  if 64 ≤ numberOfLeafs then
    (List.range (numberOfLeafs / 64)).foldl
      (climbChunk kangarooTwelve64To32 previousLevelBeginning digestIndex) t
  else
    hashLevel kangarooTwelve64To32 previousLevelBeginning digestIndex
      (numberOfLeafs / 2) t

def climb : Nat → Nat → FlaggedTree.Tree M256i → FlaggedTree.Tree M256i
  | 0, _, t => t
  | depth + 1, previousLevelBeginning, t =>
    let next := previousLevelBeginning + 2 ^ (depth + 1)
    climb depth next
      (climbLevel kangarooTwelve64To32 previousLevelBeginning next (2 ^ (depth + 1)) t)

/-- The digest returned and the two arrays after the call. -/
structure DigestResult where
  digest : M256i
  assetDigests : Nat → M256i
  assetChangeFlags : Nat → BitVec 64

def getUniverseDigest (d : Nat) (u : Universe) (assetDigests : Nat → M256i) :
    Option DigestResult := do
  let assetDigests ← hashRecords kangarooTwelve d u assetDigests
  let t := climb kangarooTwelve64To32 d 0 ⟨assetDigests, u.assetChangeFlags⟩
  return ⟨t.cells (2 * 2 ^ d - 1 - 1), t.cells, update t.flags 0 0#64⟩

end

variable {kangarooTwelve : AssetRecord → M256i} {kangarooTwelve64To32 : M256i → M256i → M256i}

/-! ## The leaves -/

def leaves (kangarooTwelve : AssetRecord → M256i) (assets : Nat → AssetRecord) (i : Nat) :
    M256i := kangarooTwelve (assets i)

/-- The scan ends, and has hashed the records of the set bits. The induction is on the iterations
left, which suffice because each one clears the lowest bit. -/
lemma hashFlagged_spec (kangarooTwelve : AssetRecord → M256i) (assets : Nat → AssetRecord)
    (base fuel : Nat) (mask : BitVec 64) (assetDigests : Nat → M256i)
    (hfuel : ∀ k, mask.getLsbD k → 64 ≤ k + fuel) :
    ∃ digests, hashFlagged kangarooTwelve assets base fuel mask assetDigests = some digests ∧
      ∀ i, digests i = if base ≤ i ∧ mask.getLsbD (i - base) then
        leaves kangarooTwelve assets i else assetDigests i := by
  induction fuel generalizing mask assetDigests with
  | zero =>
    have hzero : mask = 0#64 := BitVec.eq_of_getLsbD_eq fun k hk => by
      by_contra hbit
      have := hfuel k (by simpa using hbit)
      omega
    exact ⟨assetDigests, by simp [hashFlagged, hzero], by simp [hzero]⟩
  | succ fuel ih =>
    by_cases hzero : mask = 0#64
    · exact ⟨assetDigests, by simp [hashFlagged, hzero], by simp [hzero]⟩
    · obtain ⟨hset, hlow⟩ := lowest_spec hzero
      have hclear := getLsbD_clear_lowest hset hlow
      obtain ⟨digests, hdigests, hspec⟩ := ih (mask &&& (mask - 1#64))
        (update assetDigests (base + lowest mask)
          (kangarooTwelve (assets (base + lowest mask)))) fun k hk => by
          rw [hclear, Bool.and_eq_true, decide_eq_true_eq] at hk
          have hge : ¬k < lowest mask := fun hlt => by simp [hlow k hlt] at hk
          have := hfuel _ hset
          omega
      refine ⟨digests, by rw [hashFlagged, if_neg hzero]; exact hdigests, fun i => ?_⟩
      rw [hspec, hclear]
      by_cases hi : i = base + lowest mask
      · simp [hi, hset, leaves]
      · rw [update_of_ne hi]
        refine if_congr (and_congr_right fun hge => ?_) rfl rfl
        have hne : i - base ≠ lowest mask := by omega
        simp [hne]

lemma hashRecords_spec (kangarooTwelve : AssetRecord → M256i) (d : Nat) (u : Universe)
    (assetDigests : Nat → M256i) :
    ∃ digests, hashRecords kangarooTwelve d u assetDigests = some digests ∧
      ∀ i, digests i = if i < 64 * (2 ^ d / 64) ∧ flag u.assetChangeFlags i then
        leaves kangarooTwelve u.assets i else assetDigests i := by
  refine foldlM_range (P := fun m (digests : Nat → M256i) => ∀ i, digests i =
    if i < 64 * m ∧ flag u.assetChangeFlags i then leaves kangarooTwelve u.assets i
    else assetDigests i) (fun i => by simp) fun chunk _ digests hdigests => ?_
  obtain ⟨digests', hsome, hspec⟩ := hashFlagged_spec kangarooTwelve u.assets (64 * chunk) 64
    (u.assetChangeFlags chunk) digests fun k _ => le_add_left 64 k
  refine ⟨digests', hsome, fun i => ?_⟩
  rw [hspec, hdigests]
  by_cases hword : i / 64 = chunk
  · have hbit : i - 64 * chunk = i % 64 := by omega
    have hflag : flag u.assetChangeFlags i = (u.assetChangeFlags chunk).getLsbD (i % 64) := by
      rw [flag, hword]
    grind
  · have hout : ¬(64 * chunk ≤ i ∧ (u.assetChangeFlags chunk).getLsbD (i - 64 * chunk)) :=
      fun ⟨hge, hbit⟩ => by
        have := BitVec.lt_of_getLsbD hbit
        omega
    grind

/-! ## The levels -/

/-- Inside a word the loop does what the plain loop does. -/
lemma climbChunkPair_eq (start next chunk : Nat) (t : FlaggedTree.Tree M256i) {m : Nat}
    (hm : m < 32) :
    climbChunkPair kangarooTwelve64To32 start next chunk t m =
      hashPair kangarooTwelve64To32 start next t (32 * chunk + m) := by
  have hi : 2 * (32 * chunk + m) = 64 * chunk + 2 * m := by omega
  have hword : (64 * chunk + 2 * m) / 64 = chunk := by omega
  have hbit : (64 * chunk + 2 * m) % 64 = 2 * m := by omega
  simp only [climbChunkPair, hashPair, hi, hword, hbit]

/-- A zero word has nothing to do for its 32 pairs. -/
lemma climbChunk_eq (start next chunk : Nat) (t : FlaggedTree.Tree M256i) :
    climbChunk kangarooTwelve64To32 start next t chunk = (List.range 32).foldl (fun t m =>
      hashPair kangarooTwelve64To32 start next t (32 * chunk + m)) t := by
  unfold climbChunk
  split_ifs with hzero
  · symm
    refine foldl_range (P := fun _ u => u = t) rfl ?_
    rintro m hm _ rfl
    rw [← climbChunkPair_eq start next chunk _ hm, climbChunkPair, hzero]
    simp
  · refine List.foldl_ext _ _ _ fun t m hm => ?_
    exact climbChunkPair_eq start next chunk t (List.mem_range.1 hm)

/-- Skipping zero words does not change what a level does. -/
lemma climbLevel_eq (start next depth : Nat) (t : FlaggedTree.Tree M256i) :
    climbLevel kangarooTwelve64To32 start next (2 ^ (depth + 1)) t =
      hashLevel kangarooTwelve64To32 start next (2 ^ depth) t := by
  have hhalf : 2 ^ (depth + 1) / 2 = 2 ^ depth := by rw [pow_succ, Nat.mul_div_cancel _ (by simp)]
  unfold climbLevel
  split_ifs with hwords
  · obtain ⟨k, rfl⟩ : ∃ k, depth = 5 + k := by
      refine Nat.exists_eq_add_of_le (Nat.le_of_not_lt fun hlt => ?_)
      have := Nat.pow_lt_pow_right (a := 2) (by simp) (Nat.succ_lt_succ hlt)
      omega
    have hcount : 2 ^ (5 + k + 1) / 64 = 2 ^ k := by
      rw [Nat.add_right_comm, pow_add]
      simp
    rw [hcount, hashLevel, pow_add, foldl_range_mul]
    exact List.foldl_ext _ _ _ fun t chunk _ => climbChunk_eq start next chunk t
  · rw [hhalf]

lemma climb_eq (depth start : Nat) (t : FlaggedTree.Tree M256i) :
    climb kangarooTwelve64To32 depth start t =
      hashLevels kangarooTwelve64To32 depth start t := by
  induction depth generalizing start t with
  | zero => rfl
  | succ depth ih => rw [climb, hashLevels, climbLevel_eq, ih]

/-! ## Changes of a tick -/

def Tracked (kangarooTwelve : AssetRecord → M256i) (kangarooTwelve64To32 : M256i → M256i → M256i)
    (d : Nat) (u : Universe) (assetDigests : Nat → M256i) : Prop :=
  FreshExcept kangarooTwelve64To32 assetDigests d 0 (leaves kangarooTwelve u.assets)
    fun i => flag u.assetChangeFlags i

/-- A slot is flagged, or it was not flagged before and its record is the same. -/
def Flagged (u u' : Universe) : Prop :=
  ∀ i, flag u'.assetChangeFlags i = false →
    flag u.assetChangeFlags i = false ∧ u'.assets i = u.assets i

lemma Flagged.refl (u : Universe) : Flagged u u := fun _ h => ⟨h, rfl⟩

lemma Tracked.change {d : Nat} {u u' : Universe}
    (h : Tracked kangarooTwelve kangarooTwelve64To32 d u assetDigests) (hu : Flagged u u') :
    Tracked kangarooTwelve kangarooTwelve64To32 d u' assetDigests := by
  refine FreshExcept.change h fun j _ hj => ?_
  obtain ⟨hflag, hrecord⟩ := hu j (by simpa using hj)
  exact ⟨by simp [hflag], by rw [leaves, leaves, hrecord]⟩

section

variable (u : Universe) {index i : Nat} {contract : Nat}

lemma flag_markChanged :
    flag (u.markChanged index).assetChangeFlags i =
      (flag u.assetChangeFlags i || decide (i = index)) := by
  have hword : index >>> 6 = index / 64 := shiftRight_eq_div_pow index 6
  have hbit : index &&& 63 = index % 64 := and_two_pow_sub_one_eq_mod index 6
  simp only [markChanged, hword, hbit]
  exact flag_set _ (by norm_num) i

lemma addShares_of_ne {amount : Int} (h : i ≠ index) :
    (u.addShares index amount).assets i = u.assets i := update_of_ne h _ _

lemma openOwnership_of_ne (h : i ≠ index) :
    (u.openOwnership index owner contract issuance).assets i = u.assets i := by
  unfold openOwnership
  split_ifs
  · exact update_of_ne h _ _
  · rfl

lemma openPossession_of_ne {ownership : Nat} (h : i ≠ index) :
    (u.openPossession index possessor contract ownership).assets i = u.assets i := by
  unfold openPossession
  split_ifs
  · exact update_of_ne h _ _
  · rfl

lemma openOwnership_flags :
    (u.openOwnership index owner contract issuance).assetChangeFlags = u.assetChangeFlags := by
  unfold openOwnership
  split_ifs <;> rfl

lemma openPossession_flags {ownership : Nat} :
    (u.openPossession index possessor contract ownership).assetChangeFlags =
      u.assetChangeFlags := by
  unfold openPossession
  split_ifs <;> rfl

end

section

variable {d : Nat} {u u' : Universe}

lemma Flagged.issueAsset {issuer : M256i} {name unit : BitVec 56} {decimals : BitVec 8}
    {shares : Int} {contract : Nat} {r : IssueResult}
    (h : u.issueAsset d issuer name decimals unit shares contract = some r) :
    Flagged u r.after := by
  obtain ⟨issuance, -, h⟩ := bind_eq_some_iff.mp h
  split_ifs at h with hempty
  · obtain ⟨ownership, -, h⟩ := bind_eq_some_iff.mp h
    obtain ⟨possession, -, ⟨⟩⟩ := bind_eq_some_iff.mp h
    intro i hi
    simp only [flag_markChanged, Bool.or_eq_false_iff, decide_eq_false_iff_not] at hi
    obtain ⟨⟨⟨hflag, hne⟩, hne'⟩, hne''⟩ := hi
    refine ⟨hflag, ?_⟩
    simp [markChanged, write, update_of_ne, hne, hne', hne'']
  · obtain rfl := some.inj h
    exact .refl u

lemma Flagged.moveShares {so sp contract contract' o p : Nat} {n : Int}
    (h : u.moveShares d so sp issuance owner contract possessor contract' n =
      some (u', o, p)) : Flagged u u' := by
  obtain ⟨ownership, -, h⟩ := bind_eq_some_iff.mp h
  obtain ⟨possession, -, ⟨⟩⟩ := bind_eq_some_iff.mp h
  intro i hi
  simp only [flag_markChanged, Bool.or_eq_false_iff, decide_eq_false_iff_not] at hi
  obtain ⟨⟨⟨⟨hflag, hso⟩, hsp⟩, ho⟩, hp⟩ := hi
  refine ⟨?_, ?_⟩
  · simpa only [Universe.addShares, write, openPossession_flags, openOwnership_flags] using hflag
  · simp only [markChanged]
    rw [addShares_of_ne _ hp, openPossession_of_ne _ hp, addShares_of_ne _ hsp,
      addShares_of_ne _ ho, openOwnership_of_ne _ ho, addShares_of_ne _ hso]

lemma Flagged.burnShares {so sp : Nat} {n : Int} : Flagged u (u.burnShares so sp n) := by
  intro i hi
  simp only [Universe.burnShares, flag_markChanged, Bool.or_eq_false_iff,
    decide_eq_false_iff_not] at hi
  obtain ⟨⟨hflag, hso⟩, hsp⟩ := hi
  refine ⟨hflag, ?_⟩
  simp only [Universe.burnShares, markChanged]
  rw [addShares_of_ne _ hsp, addShares_of_ne _ hso]

/-- Every call flags the slots that it changes and clears no flag. -/
lemma Flagged.step {l l' : Ledger} {call : Call} (h : step d (u, l) call = some (u', l')) :
    Flagged u u' := by
  cases call with
  | issueAsset issuer name decimals unit shares contract =>
    obtain ⟨r, hr, ⟨⟩⟩ := bind_eq_some_iff.mp h
    exact .issueAsset hr
  | transferShareOwnershipAndPossession so sp destination shares =>
    obtain ⟨r, hr, ⟨⟩⟩ := bind_eq_some_iff.mp h
    obtain rfl | ⟨_, _, _, _, _, -, ⟨-, -, rfl⟩ | ⟨-, u', o, p, hm, rfl⟩⟩ :=
      transferShareOwnershipAndPossession_cases hr
    exacts [.refl u, .burnShares, .moveShares hm]
  | transferShareManagementRights so sp contract contract' shares =>
    obtain ⟨r, hr, ⟨⟩⟩ := bind_eq_some_iff.mp h
    obtain rfl | ⟨_, _, _, _, _, -, u', o, p, hm, rfl⟩ := transferShareManagementRights_cases hr
    exacts [.refl u, .moveShares hm]
  | assetsEndEpoch =>
    simp only [Universe.step, Universe.assetsEndEpoch, bind_eq_bind,
      bind_eq_some_iff, pure_def, some.injEq, Prod.mk.injEq] at h
    obtain ⟨_, ⟨assets, -, rfl⟩, rfl, -⟩ := h
    intro i hi
    have hbit : i % 64 < 64 := mod_lt i (by norm_num)
    rw [flag, BitVec.getLsbD_allOnes, decide_eq_false_iff_not] at hi
    exact absurd hbit hi

lemma Tracked.run {calls : List Call} {l l' : Ledger}
    (h : Tracked kangarooTwelve kangarooTwelve64To32 d u assetDigests)
    (hrun : calls.foldlM (step d) (u, l) = some (u', l')) :
    Tracked kangarooTwelve kangarooTwelve64To32 d u' assetDigests := by
  induction calls generalizing u l with
  | nil =>
    obtain rfl : u = u' := congrArg Prod.fst (some.inj hrun)
    exact h
  | cons call calls ih =>
    obtain ⟨⟨u₁, l₁⟩, hstep, hrest⟩ := bind_eq_some_iff.mp hrun
    exact ih (h.change (.step hstep)) hrest

end

/-- The call ends, with every node of the tree right, its root as result and all flags clear. -/
lemma Tracked.getUniverseDigest {d : Nat} (hd : 6 ≤ d) {u : Universe}
    (h : Tracked kangarooTwelve kangarooTwelve64To32 d u assetDigests) :
    ∃ r, getUniverseDigest kangarooTwelve kangarooTwelve64To32 d u assetDigests = some r ∧
      Fresh kangarooTwelve64To32 r.assetDigests d 0 (leaves kangarooTwelve u.assets) ∧
      r.digest = root kangarooTwelve64To32 d (leaves kangarooTwelve u.assets) ∧
      ∀ i < 2 ^ d, flag r.assetChangeFlags i = false := by
  obtain ⟨digests, hsome, hdigests⟩ := hashRecords_spec kangarooTwelve d u assetDigests
  have hwords : 64 * (2 ^ d / 64) = 2 ^ d :=
    Nat.mul_div_cancel' ((by norm_num : 2 ^ 6 = 64) ▸ pow_dvd_pow 2 hd)
  rw [hwords] at hdigests
  have hleaf : ∀ j < 2 ^ d, digests (0 + j) = leaves kangarooTwelve u.assets j := by
    intro j hj
    rw [Nat.zero_add, hdigests]
    split_ifs with hflag
    · rfl
    · simpa using FreshExcept.leaf_eq h hj fun hset => hflag ⟨hj, hset⟩
  have htree : FreshExcept kangarooTwelve64To32 digests d 0 (leaves kangarooTwelve u.assets)
      fun i => flag u.assetChangeFlags i :=
    FreshExcept.releaf h hleaf fun i hi => by rw [hdigests, if_neg (by omega)]
  obtain ⟨hfresh, -, hdone⟩ := hashLevels_fresh
    (t := ⟨digests, u.assetChangeFlags⟩) (b := 2 ^ d) htree hleaf
    fun k hk hb => absurd hk (by omega)
  rw [← climb_eq] at hfresh hdone
  refine ⟨_, by rw [Universe.getUniverseDigest, hsome]; rfl, hfresh, ?_, fun i hi => ?_⟩
  · simpa using hfresh.root_eq
  · simpa using not_changed_clear_root hdone hi

end QubicCore.Universe
