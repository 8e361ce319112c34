import Mathlib

/-!
# Two-bit fields in words

Words of `n` bits hold the fields `0, 1, …`, two bits each. The lemmas say what setting, toggling
and clearing the bits of one field does to the value of every field. `read` looks up field `i` of
an array of words with `m` fields each.
-/

namespace QubicCore.Library.TwoBit

open BitVec

variable {n : Nat} {s : Nat} (w : BitVec n)

def field (s : Nat) : Nat := ((w >>> (2 * s)) &&& 3#n).toNat

lemma toNat_three (hn : 2 ≤ n) : (3#n).toNat = 3 :=
  Nat.mod_eq_of_lt (Nat.lt_of_lt_of_le (by norm_num : 3 < 2 ^ 2)
    (Nat.pow_le_pow_right (by norm_num) hn))

lemma getLsbD_three (hn : 2 ≤ n) (b : Nat) : (3#n).getLsbD b = decide (b < 2) := by
  rw [← testBit_toNat, toNat_three hn, show 3 = 2 ^ 2 - 1 from rfl,
    Nat.testBit_two_pow_sub_one]

lemma testBit_field (hs : 2 * s + 2 ≤ n) (b : Nat) :
    (field w s).testBit b = (decide (b < 2) && w.getLsbD (2 * s + b)) := by
  rw [field, testBit_toNat, getLsbD_and, getLsbD_ushiftRight,
    getLsbD_three (by omega), Bool.and_comm]

lemma field_lt (hs : 2 * s + 2 ≤ n) : field w s < 4 := by
  refine Nat.lt_pow_two_of_testBit (n := 2) _ fun b hb => ?_
  rw [testBit_field w hs]
  simp [not_lt.mpr hb]

lemma field_of_le (hs : n ≤ 2 * s) : field w s = 0 := by
  have hzero : w >>> (2 * s) = 0#n := by
    refine eq_of_toNat_eq ?_
    rw [toNat_ushiftRight, Nat.shiftRight_eq_div_pow, toNat_ofNat, Nat.zero_mod]
    exact Nat.div_eq_of_lt (w.isLt.trans_le (Nat.pow_le_pow_right (by norm_num) hs))
  simp [field, hzero]

lemma field_ushiftRight (a s : Nat) :
    field (w >>> (2 * a)) s = field w (a + s) := by
  rw [field, field, ← shiftRight_add, Nat.mul_add]

lemma field_shiftLeft {b : Nat} (hs : 2 * s + 2 ≤ n) :
    field (w <<< (2 * b)) s = if s < b then 0 else field w (s - b) := by
  refine Nat.eq_of_testBit_eq fun k => ?_
  rw [testBit_field _ hs, getLsbD_shiftLeft, apply_ite (fun x => Nat.testBit x k),
    testBit_field _ (show 2 * (s - b) + 2 ≤ n by omega), Nat.zero_testBit]
  by_cases hk : k < 2
  · split_ifs with hsb
    · simp [show 2 * s + k < 2 * b by omega]
    · simp [hk, show 2 * s + k < n by omega, show ¬2 * s + k < 2 * b by omega,
        show 2 * s + k - 2 * b = 2 * (s - b) + k by omega]
  · simp [hk]

lemma field_or_words (w v : BitVec n) (hs : 2 * s + 2 ≤ n) :
    field (w ||| v) s = field w s ||| field v s := by
  refine Nat.eq_of_testBit_eq fun k => ?_
  rw [Nat.testBit_or, testBit_field _ hs, testBit_field _ hs, testBit_field _ hs,
    getLsbD_or, Bool.and_or_distrib_left]

lemma field_eq_bits (hs : 2 * s + 2 ≤ n) :
    field w s = (w.getLsbD (2 * s)).toNat + 2 * (w.getLsbD (2 * s + 1)).toNat := by
  have hlow := testBit_field w hs 0
  have hhigh := testBit_field w hs 1
  have hlt := field_lt w hs
  simp only [Nat.zero_lt_two, Nat.one_lt_two, decide_true, Bool.true_and, Nat.add_zero]
    at hlow hhigh
  rw [← hlow, ← hhigh]
  generalize field w s = x at hlt
  interval_cases x <;> decide

lemma testBit_two_le {v : BitVec n} (hv : v.toNat < 4) {b : Nat} (hb : 2 ≤ b) :
    v.toNat.testBit b = false :=
  Nat.testBit_lt_two_pow (hv.trans_le (Nat.pow_le_pow_right (n := 2) (by norm_num) hb))

/-- Bits of a shifted two-bit constant, seen from field `s`. -/
lemma getLsbD_shifted {v : BitVec n} (hv : v.toNat < 4) {t b : Nat} (hs : 2 * s + 2 ≤ n)
    (hb : b < 2) : (v <<< (2 * t)).getLsbD (2 * s + b) = (decide (s = t) && v.getLsbD b) := by
  rw [getLsbD_shiftLeft]
  obtain hlt | rfl | hgt := Nat.lt_trichotomy s t
  · simp [hlt.ne, show 2 * s + b < 2 * t by omega]
  · simp [show 2 * s + b < n by omega]
  · have hhigh : v.getLsbD (2 * s + b - 2 * t) = false := testBit_two_le hv (by omega)
    simp [hgt.ne', hhigh]

section

variable (w : BitVec n) {v : BitVec n} {s t : Nat}

lemma field_or (hv : v.toNat < 4) (hs : 2 * s + 2 ≤ n) :
    field (w ||| (v <<< (2 * t))) s = if s = t then field w s ||| v.toNat else field w s := by
  refine Nat.eq_of_testBit_eq fun b => ?_
  rw [testBit_field _ hs, apply_ite (fun x => Nat.testBit x b), Nat.testBit_or,
    testBit_field _ hs, getLsbD_or]
  by_cases hb : b < 2
  · rw [getLsbD_shifted hv hs hb]
    split_ifs with hst <;> simp [hb, hst, testBit_toNat]
  · simp [hb, testBit_two_le hv (not_lt.mp hb)]

lemma field_xor (hv : v.toNat < 4) (hs : 2 * s + 2 ≤ n) :
    field (w ^^^ (v <<< (2 * t))) s = if s = t then field w s ^^^ v.toNat else field w s := by
  refine Nat.eq_of_testBit_eq fun b => ?_
  rw [testBit_field _ hs, apply_ite (fun x => Nat.testBit x b), Nat.testBit_xor,
    testBit_field _ hs, getLsbD_xor]
  by_cases hb : b < 2
  · rw [getLsbD_shifted hv hs hb]
    split_ifs with hst <;> simp [hb, hst, testBit_toNat]
  · simp [hb, testBit_two_le hv (not_lt.mp hb)]

lemma field_clear (hs : 2 * s + 2 ≤ n) :
    field (w &&& ~~~(3#n <<< (2 * t))) s = if s = t then 0 else field w s := by
  refine Nat.eq_of_testBit_eq fun b => ?_
  rw [testBit_field _ hs, apply_ite (fun x => Nat.testBit x b), testBit_field _ hs,
    getLsbD_and, getLsbD_not]
  by_cases hb : b < 2
  · rw [getLsbD_shifted (by rw [toNat_three (by omega)]; norm_num) hs hb, getLsbD_three (by omega)]
    split_ifs with hst <;> simp [hb, hst]
    omega
  · simp [hb]

end

def read (m : Nat) (words : Nat → BitVec n) (i : Nat) : Nat := field (words (i / m)) (i % m)

lemma read_update {m : Nat} (words : Nat → BitVec n) {i : Nat} {w : BitVec n} {f : Nat → Nat}
    (hm : 0 < m) (hw : ∀ s < m, field w s = if s = i % m then f (field (words (i / m)) s)
      else field (words (i / m)) s) (j : Nat) :
    read m (Function.update words (i / m) w) j =
      if j = i then f (read m words i) else read m words j := by
  unfold read
  by_cases hword : j / m = i / m
  · rw [hword, Function.update_self, hw _ (Nat.mod_lt _ hm)]
    have hiff : j % m = i % m ↔ j = i := by
      refine ⟨fun hmod => ?_, fun h => h ▸ rfl⟩
      rw [← Nat.div_add_mod j m, ← Nat.div_add_mod i m, hword, hmod]
    by_cases hji : j = i
    · subst hji; simp
    · simp [hji, hiff]
  · have hji : j ≠ i := fun h => hword (h ▸ rfl)
    rw [Function.update_of_ne hword, if_neg hji]

end QubicCore.Library.TwoBit
