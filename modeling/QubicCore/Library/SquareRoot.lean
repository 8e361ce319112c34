import Mathlib

/-!
# Square roots digit by digit

The binary digits of the root are found from the highest one. With `c` digits still to come, the
root found so far is `R`, the remainder is `N - R ^ 2`, and the value `R * 2 ^ c` is carried
instead of `R`, so that each step needs only sums, comparisons and shifts.
-/

namespace QubicCore.Library.SquareRoot

/-- The remaining `c` digits, for the remainder `n` and the carried value `y`. -/
def digits : Nat → Nat → Nat → Nat
  | 0, _, y => y
  | c + 1, n, y =>
    if y + 4 ^ c ≤ n then digits c (n - (y + 4 ^ c)) (y / 2 + 4 ^ c) else digits c n (y / 2)

/-- The number of digits of the root of `n`, at most `c`. -/
def length : Nat → Nat → Nat
  | 0, _ => 0
  | c + 1, n => if 4 ^ c > n then length c n else c + 1

def root (c n : Nat) : Nat := digits (length c n) n 0

lemma digits_spec (c : Nat) : ∀ {n R N : Nat}, R ^ 2 + n = N → N < (R + 2 ^ c) ^ 2 →
    (digits c n (R * 2 ^ c)) ^ 2 ≤ N ∧ N < (digits c n (R * 2 ^ c) + 1) ^ 2 := by
  induction c with
  | zero =>
    intro n R N hN hlt
    simp only [digits, pow_zero, mul_one] at hlt ⊢
    exact ⟨by omega, hlt⟩
  | succ c ih =>
    intro n R N hN hlt
    have hhalf : R * 2 ^ (c + 1) / 2 = R * 2 ^ c := by
      rw [pow_succ, ← mul_assoc, Nat.mul_div_cancel _ (by decide)]
    have hfour : 4 ^ c = 2 ^ c * 2 ^ c := mul_pow 2 2 c
    have hnext : (R + 2 ^ c) ^ 2 = R ^ 2 + (R * 2 ^ (c + 1) + 4 ^ c) := by
      rw [hfour]
      ring
    rw [digits, hhalf]
    split_ifs with hdigit
    · -- the digit is one
      have hcarry : R * 2 ^ c + 4 ^ c = (R + 2 ^ c) * 2 ^ c := by
        rw [hfour]
        ring
      rw [hcarry]
      refine ih (by omega) ?_
      rwa [add_assoc, ← two_mul, ← pow_succ']
    · exact ih hN (by omega)

lemma lt_four_pow_length (c : Nat) : ∀ {n : Nat}, n < 4 ^ c → n < 4 ^ length c n := by
  induction c with
  | zero => exact id
  | succ c ih =>
    intro n hn
    rw [length]
    split_ifs with hskip
    · exact ih hskip
    · exact hn

lemma root_eq_sqrt {c n : Nat} (hn : n < 4 ^ c) : root c n = Nat.sqrt n := by
  have hlt : n < (0 + 2 ^ length c n) ^ 2 := by
    rw [zero_add, ← pow_mul, mul_comm, pow_mul]
    exact lt_four_pow_length c hn
  have hspec := digits_spec (length c n) (zero_add n) hlt
  rw [zero_mul] at hspec
  refine Nat.eq_sqrt.2 ⟨?_, ?_⟩
  · rw [← pow_two]
    exact hspec.1
  · rw [← pow_two]
    exact hspec.2

end QubicCore.Library.SquareRoot
