import QubicCore.Library.BitFlags
import QubicCore.Library.Cells
import QubicCore.Library.HashTree

/-!
# Updating a hash tree from change flags

Beside the cells of a hash tree lie change flags, one bit for each node of the level at hand. A
level is worked off pair by pair: where one of the two flags is set, the parent is hashed anew, the
two flags are cleared and the flag of the parent is set, in the same words. With the leaves up to
date this makes the whole tree fresh.
-/

namespace QubicCore.Library.FlaggedTree

open Cells BitFlags HashTree Function

variable {α : Type*} {j : Nat}

structure Tree (α : Type*) where
  cells : Nat → α
  flags : Nat → BitVec 64

/-- The change flag of node `i` of the current level. -/
def Tree.changed (t : Tree α) (i : Nat) : Prop := flag t.flags i

instance (t : Tree α) : DecidablePred t.changed := fun i =>
  inferInstanceAs (Decidable (flag t.flags i))

/-- Work off the nodes `i = 2 * j` and `i + 1` of the level from cell `start` on; their parent is
cell `next + j`. -/
def hashPair (pair : α → α → α) (start next : Nat) (t : Tree α) (j : Nat) : Tree α :=
  let i := 2 * j
  if t.flags (i / 64) &&& 3#64 <<< (i % 64) ≠ 0#64 then
    let flags := update t.flags (i / 64) (t.flags (i / 64) &&& ~~~(3#64 <<< (i % 64)))
    ⟨update t.cells (next + j) (pair (t.cells (start + i)) (t.cells (start + i + 1))),
      update flags (i / 128) (flags (i / 128) ||| 1#64 <<< (i / 2 % 64))⟩
  else t

def hashLevel (pair : α → α → α) (start next n : Nat) (t : Tree α) : Tree α :=
  (List.range n).foldl (hashPair pair start next) t

def hashLevels (pair : α → α → α) : Nat → Nat → Tree α → Tree α
  | 0, _, t => t
  | depth + 1, start, t =>
    let next := start + 2 ^ (depth + 1)
    hashLevels pair depth next (hashLevel pair start next (2 ^ depth) t)

variable {pair : α → α → α} {t : Tree α} {start next n depth : Nat}

lemma pair_ne_zero_iff_changed (t : Tree α) (j : Nat) :
    t.flags (2 * j / 64) &&& 3#64 <<< (2 * j % 64) ≠ 0#64 ↔ above t.changed j :=
  pair_ne_zero_iff _ (by norm_num) (by norm_num) (Dvd.intro j rfl)

lemma hashPair_of_not (h : ¬above t.changed j) : hashPair pair start next t j = t := by
  rw [hashPair, if_neg ((pair_ne_zero_iff_changed t j).not.mpr h)]

lemma hashPair_cells (h : above t.changed j) :
    (hashPair pair start next t j).cells = update t.cells (next + j)
      (pair (t.cells (start + 2 * j)) (t.cells (start + 2 * j + 1))) := by
  rw [hashPair, if_pos ((pair_ne_zero_iff_changed t j).mpr h)]

lemma hashPair_changed (h : above t.changed j) (k : Nat) :
    (hashPair pair start next t j).changed k ↔ k = j ∨ t.changed k ∧ k ≠ 2 * j ∧ k ≠ 2 * j + 1 := by
  have hword : 2 * j / 128 = j / 64 := by omega
  have hbit : 2 * j / 2 % 64 = j % 64 := by omega
  have hset := flag_set (i := j) (update t.flags (2 * j / 64)
    (t.flags (2 * j / 64) &&& ~~~(3#64 <<< (2 * j % 64)))) (by norm_num) k
  rw [flag_clear_pair _ (by norm_num) (by norm_num) (Dvd.intro j rfl)] at hset
  rw [hashPair, if_pos ((pair_ne_zero_iff_changed t j).mpr h), Tree.changed, hword, hbit, hset]
  simp only [Tree.changed, Bool.or_eq_true, Bool.and_eq_true, decide_eq_true_eq]
  exact or_comm

/-- The first `m` pairs of a level are worked off. -/
structure Climbed (pair : α → α → α) (start next m : Nat) (t u : Tree α) : Prop where
  cells : ∀ i, u.cells i =
    if next ≤ i ∧ i < next + m ∧ above t.changed (i - next) then
      parents pair (fun j => t.cells (start + j)) (i - next)
    else t.cells i
  changed : ∀ k, u.changed k ↔ k < m ∧ above t.changed k ∨ 2 * m ≤ k ∧ t.changed k

lemma Climbed.hashPair {m : Nat} {u : Tree α} (h : Climbed pair start next m t u)
    (hnext : start + 2 * (m + 1) ≤ next) :
    Climbed pair start next (m + 1) t (hashPair pair start next u m) := by
  -- the flags of the pair are still those of the level below
  have hpair : above u.changed m ↔ above t.changed m := by
    simp only [above, h.changed]
    grind
  have hchild : ∀ b < 2 * (m + 1), u.cells (start + b) = t.cells (start + b) := fun b hb => by
    rw [h.cells, if_neg (by omega)]
  by_cases hm : above t.changed m
  · refine ⟨fun i => ?_, fun k => ?_⟩
    · rw [hashPair_cells (hpair.mpr hm)]
      by_cases hi : i = next + m
      · subst hi
        rw [update_self, Nat.add_sub_cancel_left, if_pos ⟨by omega, by omega, hm⟩,
          parents, hchild _ (by omega), Nat.add_assoc, hchild _ (by omega)]
      · rw [update_of_ne hi, h.cells]
        grind
    · rw [hashPair_changed (hpair.mpr hm), h.changed]
      clear hpair hchild h
      grind
  · rw [hashPair_of_not (hpair.not.mpr hm)]
    refine ⟨fun i => ?_, fun k => ?_⟩
    · rw [h.cells]
      grind
    · rw [h.changed]
      have hcases : k = 2 * m ∨ k = 2 * m + 1 ∨ k < 2 * m ∨ 2 * (m + 1) ≤ k := by omega
      clear hpair hchild h
      obtain rfl | rfl | hlt | hge := hcases <;> grind [above]

/-- After one level: the nodes above a flag are hashed and flagged, and the flags of the level
below are gone. -/
lemma hashLevel_climbed (pair : α → α → α) (t : Tree α) (hnext : start + 2 * n ≤ next) :
    Climbed pair start next n t (hashLevel pair start next n t) := by
  refine foldl_range (P := fun m u => Climbed pair start next m t u) ⟨?_, ?_⟩ ?_
  · exact fun i => by rw [if_neg (by omega)]
  · exact fun k => by simp
  · exact fun m hm u hu => hu.hashPair (by omega)

lemma level_le (start depth : Nat) : start + 2 * 2 ^ depth ≤ start + 2 ^ (depth + 1) := by
  rw [pow_succ, Nat.mul_comm]

/-- All levels: with the leaf level hashed, a tree that is right except above the flags becomes
right, and no flag is left but that of the root. -/
lemma hashLevels_fresh {leaf : Nat → α} {b : Nat}
    (htree : FreshExcept pair t.cells depth start leaf t.changed)
    (hleaf : ∀ j < 2 ^ depth, t.cells (start + j) = leaf j)
    (hclear : ∀ k, 2 ^ depth ≤ k → k < b → ¬t.changed k) :
    Fresh pair (hashLevels pair depth start t).cells depth start leaf ∧
    (∀ i < start + 2 ^ depth, (hashLevels pair depth start t).cells i = t.cells i) ∧
    ∀ k, 1 ≤ k → k < b → ¬(hashLevels pair depth start t).changed k := by
  induction depth generalizing start t leaf with
  | zero =>
    refine ⟨fun _ => hleaf 0 (by simp), fun _ _ => rfl, ?_⟩
    simpa [hashLevels] using hclear
  | succ depth ih =>
    obtain ⟨hcells, hflags⟩ := hashLevel_climbed pair t (level_le start depth)
    generalize hu : hashLevel pair start (start + 2 ^ (depth + 1)) (2 ^ depth) t = u at *
    have hparents : ∀ j < 2 ^ depth,
        u.cells (start + 2 ^ (depth + 1) + j) = parents pair leaf j := by
      intro j hj
      rw [hcells, Nat.add_sub_cancel_left]
      split_ifs with hchanged
      · obtain ⟨hl, hr⟩ := two_mul_lt_pow hj
        rw [parents, hleaf _ hl, hleaf _ hr, parents]
      · exact htree.2.leaf_eq hj fun habove => hchanged ⟨by omega, by omega, habove⟩
    have hup : FreshExcept pair u.cells depth (start + 2 ^ (depth + 1)) (parents pair leaf)
        u.changed := by
      refine (htree.2.releaf hparents fun i hi => ?_).change fun j hj hstale => ⟨?_, rfl⟩
      · rw [hcells, if_neg (by omega)]
      · exact fun habove => hstale ((hflags j).mpr (.inl ⟨hj, habove⟩))
    obtain ⟨hfresh, hkeep, hdone⟩ := ih hup hparents fun k hk hb hk' => by
      obtain ⟨hlt, _⟩ | ⟨hge, hset⟩ := (hflags k).mp hk'
      · omega
      · exact hclear k (by rw [pow_succ]; omega) hb hset
    have hkeep' : ∀ i < start + 2 ^ (depth + 1),
        (hashLevels pair (depth + 1) start t).cells i = t.cells i := by
      intro i hi
      rw [hashLevels, hu, hkeep i (Nat.lt_add_right _ hi), hcells, if_neg (by omega)]
    rw [hashLevels, hu] at hkeep' ⊢
    refine ⟨Fresh.succ (fun j hj => ?_) hfresh, hkeep', hdone⟩
    rw [hkeep' _ (by omega), hleaf j hj]

lemma not_changed_clear_root {b : Nat} (h : ∀ k, 1 ≤ k → k < b → ¬t.changed k) {k : Nat}
    (hk : k < b) : ¬flag (update t.flags 0 0#64) k := by
  have hword := flag_update t.flags (i := 0) 0#64 k
  rw [hword]
  split_ifs with hzero
  · simp
  · exact h k (by omega) hk

end QubicCore.Library.FlaggedTree
