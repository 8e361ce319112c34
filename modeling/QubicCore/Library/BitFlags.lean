import Mathlib

/-!
# One-bit flags in words

An array of `w`-bit words holds the flags `0, 1, …`, flag `i` being bit `i % w` of word `i / w`.
The lemmas say what the word operations on one flag, or on an even flag and its right neighbour,
do to every flag.
-/

namespace QubicCore.Library.BitFlags

open Function BitVec

variable {w : Nat} (words : Nat → BitVec w) {i : Nat}

def flag (words : Nat → BitVec w) (i : Nat) : Bool := (words (i / w)).getLsbD (i % w)

/-- Overwriting the word of flag `i` changes the flags of that word only. -/
lemma flag_update (v : BitVec w) (k : Nat) :
    flag (update words (i / w) v) k =
      if k / w = i / w then v.getLsbD (k % w) else flag words k := by
  unfold flag
  split_ifs with h
  · rw [h, update_self]
  · rw [update_of_ne h]

lemma eq_iff_div_mod {k : Nat} : k = i ↔ k / w = i / w ∧ k % w = i % w := by
  refine ⟨fun h => h ▸ ⟨rfl, rfl⟩, fun ⟨hdiv, hmod⟩ => ?_⟩
  rw [← Nat.div_add_mod k w, ← Nat.div_add_mod i w, hdiv, hmod]

lemma flag_set (hw : 0 < w) (k : Nat) :
    flag (update words (i / w) (words (i / w) ||| 1#w <<< (i % w))) k =
      (flag words k || decide (k = i)) := by
  have hk : k % w < w := Nat.mod_lt k hw
  have hone : ((1#w) <<< (i % w)).getLsbD (k % w) = decide (k % w = i % w) := by
    grind
  have := eq_iff_div_mod (w := w) (i := i) (k := k)
  unfold flag
  grind

lemma one_ne_zero_iff (hw : 0 < w) : words (i / w) &&& 1#w <<< (i % w) ≠ 0#w ↔ flag words i := by
  have hi : i % w < w := Nat.mod_lt i hw
  have hone : ∀ b < w, ((1#w) <<< (i % w)).getLsbD b = decide (b = i % w) := by
    intro b hb
    grind
  unfold flag
  constructor
  · intro hne
    by_contra hclear
    refine hne (eq_of_getLsbD_eq fun b hb => ?_)
    grind
  · intro hset hzero
    have hbit := congrArg (fun v => getLsbD v (i % w)) hzero
    rw [getLsbD_and, hset, hone _ hi] at hbit
    simp at hbit

section

/-- The two bits of an even flag and its neighbour lie in one word. -/
lemma succ_div_mod (hw : 2 ∣ w) (hpos : 0 < w) (hi : 2 ∣ i) :
    (i + 1) / w = i / w ∧ (i + 1) % w = i % w + 1 := by
  have hmod : 2 ∣ i % w := (Nat.dvd_mod_iff hw).mpr hi
  have hlt : i % w + 1 < w := by
    have := Nat.mod_lt i hpos
    omega
  have h : i + 1 = (i % w + 1) + w * (i / w) := by
    have := Nat.div_add_mod i w
    omega
  constructor
  · rw [h, Nat.add_mul_div_left _ _ hpos, Nat.div_eq_of_lt hlt, Nat.zero_add]
  · rw [h, Nat.add_mul_mod_self_left, Nat.mod_eq_of_lt hlt]

lemma getLsbD_pair (hw : 2 ∣ w) (hpos : 0 < w) (hi : 2 ∣ i) (k : Nat) (hk : k / w = i / w) :
    (3#w <<< (i % w)).getLsbD (k % w) = decide (k = i ∨ k = i + 1) := by
  have hsucc := succ_div_mod hw hpos hi
  have hkw : k % w < w := Nat.mod_lt k hpos
  have hthree : ∀ b, (3#w).getLsbD b = decide (b < 2) := by
    intro b
    have h3 : (3#w).toNat = 2 ^ 2 - 1 := Nat.mod_eq_of_lt
      (Nat.lt_of_lt_of_le (by norm_num : 3 < 2 ^ 2) (Nat.pow_le_pow_right (by norm_num)
        (Nat.le_of_dvd hpos hw)))
    rw [← testBit_toNat, h3, Nat.testBit_two_pow_sub_one]
  have hself := eq_iff_div_mod (w := w) (i := i) (k := k)
  have hnext := eq_iff_div_mod (w := w) (i := i + 1) (k := k)
  grind

lemma pair_ne_zero_iff (hw : 2 ∣ w) (hpos : 0 < w) (hi : 2 ∣ i) :
    words (i / w) &&& 3#w <<< (i % w) ≠ 0#w ↔ flag words i ∨ flag words (i + 1) := by
  have hsucc := succ_div_mod hw hpos hi
  have hself := getLsbD_pair hw hpos hi i rfl
  have hnext := getLsbD_pair hw hpos hi (i + 1) hsucc.1
  unfold flag
  constructor
  · intro hne
    by_contra hclear
    refine hne (eq_of_getLsbD_eq fun b hb => ?_)
    have hmod : (w * (i / w) + b) % w = b := by rw [Nat.mul_add_mod, Nat.mod_eq_of_lt hb]
    have hdiv : (w * (i / w) + b) / w = i / w := by
      rw [Nat.mul_add_div hpos, Nat.div_eq_of_lt hb, Nat.add_zero]
    have hbit := getLsbD_pair hw hpos hi _ hdiv
    rw [hmod] at hbit
    grind
  · intro hset hzero
    have hbit : ∀ b, (words (i / w)).getLsbD b → (3#w <<< (i % w)).getLsbD b = false := by
      intro b hb
      have := congrArg (fun v => getLsbD v b) hzero
      simpa [hb] using this
    grind

lemma flag_clear_pair (hw : 2 ∣ w) (hpos : 0 < w) (hi : 2 ∣ i) (k : Nat) :
    flag (update words (i / w) (words (i / w) &&& ~~~(3#w <<< (i % w)))) k =
      (flag words k && decide (k ≠ i ∧ k ≠ i + 1)) := by
  have hkw : k % w < w := Nat.mod_lt k hpos
  have hsucc := succ_div_mod hw hpos hi
  have hpair := getLsbD_pair hw hpos hi k
  unfold flag
  grind

end

/-! ## Scanning the set bits of a word -/

/-- The position of the lowest set bit, `w` if there is none. -/
def lowest (m : BitVec w) : Nat := ((List.range w).find? (m.getLsbD ·)).getD w

lemma lowest_spec {m : BitVec w} (hm : m ≠ 0#w) :
    m.getLsbD (lowest m) ∧ ∀ k < lowest m, m.getLsbD k = false := by
  obtain ⟨b, hbw, hb⟩ : ∃ b < w, m.getLsbD b := by
    by_contra hnone
    push Not at hnone
    exact hm (eq_of_getLsbD_eq fun b hb => by simpa using hnone b hb)
  cases hfind : (List.range w).find? (m.getLsbD ·) with
  | none => exact absurd hb (List.find?_eq_none.1 hfind b (List.mem_range.2 hbw))
  | some c =>
    obtain ⟨hc, -, hlow⟩ := List.find?_range_eq_some.1 hfind
    have hlowest : lowest m = c := by rw [lowest, hfind, Option.getD_some]
    rw [hlowest]
    exact ⟨hc, fun k hk => by simpa using hlow k hk⟩

/-- The operation `m & (m - 1)` clears the lowest set bit. -/
lemma getLsbD_clear_lowest {m : BitVec w} {c : Nat} (hc : m.getLsbD c)
    (hlow : ∀ k < c, m.getLsbD k = false) (k : Nat) :
    (m &&& (m - 1#w)).getLsbD k = (m.getLsbD k && decide (k ≠ c)) := by
  have hcw : c < w := lt_of_getLsbD hc
  have hlast : m.toNat % 2 ^ (c + 1) = 2 ^ c := by
    refine Nat.eq_of_testBit_eq fun k => ?_
    rw [Nat.testBit_mod_two_pow, Nat.testBit_two_pow, testBit_toNat]
    obtain hlt | rfl | hgt := Nat.lt_trichotomy k c
    · simp [hlow k hlt, hlt.ne']
    · simp [hc]
    · simp [hgt.ne, Nat.not_lt.2 (Nat.succ_le_of_lt hgt)]
  have hsplit := Nat.div_add_mod m.toNat (2 ^ (c + 1))
  have hpred : (m - 1#w).toNat = 2 ^ (c + 1) * (m.toNat / 2 ^ (c + 1)) + (2 ^ c - 1) := by
    have hone : (1#w).toNat = 1 := by
      rw [toNat_ofNat, Nat.mod_eq_of_lt (Nat.one_lt_two_pow (by omega))]
    rw [toNat_sub_of_le (by rw [le_def, hone]; omega), hone]
    omega
  have hk : (m - 1#w).getLsbD k =
      if k < c + 1 then (2 ^ c - 1).testBit k else m.getLsbD k := by
    rw [← testBit_toNat, hpred, Nat.testBit_two_pow_mul_add _ (by omega),
      Nat.testBit_div_two_pow, testBit_toNat]
    split_ifs with hlt
    · rfl
    · rw [Nat.sub_add_cancel (by omega)]
  grind

end QubicCore.Library.BitFlags
