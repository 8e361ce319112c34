import Mathlib

/-!
# Sums over a window of a circular sequence

The window of half-width `h` centred on position `c` of a circular sequence of `n` values. Away
from the ends it is a plain interval; moving the centre by one exchanges one value for another.
-/

namespace QubicCore.Library.CircularWindow

open Finset

variable {n h c : Nat} (f : Nat → Nat)

/-- The sum over the `2 * h + 1` positions around `c`. -/
def window (n h : Nat) (f : Nat → Nat) (c : Nat) : Nat :=
  ∑ i ∈ range (2 * h + 1), f ((c + n - h + i) % n)

lemma window_le {b : Nat} (hf : ∀ x, f x ≤ b) : window n h f c ≤ (2 * h + 1) * b :=
  (sum_le_card_nsmul _ _ b fun _ _ => hf _).trans_eq (by rw [card_range, smul_eq_mul])

lemma window_interior (hc : h ≤ c) (hn : c + h < n) :
    window n h f c = ∑ x ∈ Ico (c - h) (c + h + 1), f x := by
  rw [sum_Ico_eq_sum_range, show c + h + 1 - (c - h) = 2 * h + 1 by omega]
  refine sum_congr rfl fun i hi => ?_
  have hi := mem_range.mp hi
  rw [show c + n - h + i = c - h + i + n by omega, Nat.add_mod_right,
    Nat.mod_eq_of_lt (by omega)]

lemma window_slide (hh : h ≤ n) :
    window n h f (c + 1) + f ((c + n - h) % n) = window n h f c + f ((c + h + 1) % n) := by
  have hlast : f ((c + h + 1) % n) = f ((c + n - h + (2 * h + 1)) % n) := by
    rw [show c + n - h + (2 * h + 1) = c + h + 1 + n by omega, Nat.add_mod_right]
  have hnext : ∀ i, f ((c + 1 + n - h + i) % n) = f ((c + n - h + (i + 1)) % n) := fun i => by
    rw [show c + 1 + n - h + i = c + n - h + (i + 1) by omega]
  simp only [window, hnext]
  rw [hlast, ← sum_range_succ (fun i => f ((c + n - h + i) % n)) (2 * h + 1),
    sum_range_succ' (fun i => f ((c + n - h + i) % n)) (2 * h + 1)]
  simp only [Nat.add_zero]

/-- The centre may be taken modulo the length. -/
lemma window_mod (hh : h ≤ n) : window n h f (c % n) = window n h f c := by
  refine sum_congr rfl fun i _ => ?_
  rw [show c % n + n - h + i = c % n + (n - h + i) by omega,
    show c + n - h + i = c + (n - h + i) by omega, Nat.mod_add_mod]

end QubicCore.Library.CircularWindow
