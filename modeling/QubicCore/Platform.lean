import Mathlib

/-!
# Machine integers and 256-bit identifiers

`long long` arithmetic wraps modulo `2^64` into the signed range, `unsigned long long`
arithmetic modulo `2^64`. Values are kept as integers and the wrapping is written out where the
code computes in a fixed width.
-/

namespace QubicCore

variable {x : Int}

/-- The value of a `long long` expression. -/
def sint64 (x : Int) : Int := x.bmod (2 ^ 64)

/-- The value of an `unsigned long long` expression. -/
def uint64 (x : Int) : Int := x % 2 ^ 64

lemma sint64_eq (hl : -2 ^ 63 ≤ x) (hu : x < 2 ^ 63) : sint64 x = x := by
  unfold sint64
  rw [Int.bmod_eq_of_le_mul_two] <;> omega

lemma sint64_lt (x : Int) : sint64 x < 2 ^ 63 := by
  unfold sint64
  have := Int.bmod_lt (x := x) (m := 2 ^ 64) (by norm_num)
  omega

/-- A difference follows its first term, whether or not that term wraps. -/
lemma sint64_add_left {y a : Int} (hl : -2 ^ 63 ≤ sint64 (x - y) + a)
    (hu : sint64 (x - y) + a < 2 ^ 63) : sint64 (sint64 (x + a) - y) = sint64 (x - y) + a := by
  rw [← sint64_eq hl hu]
  unfold sint64
  rw [Int.bmod_sub_bmod, Int.bmod_add_bmod, add_sub_right_comm]

lemma sint64_add_right {y a : Int} (hl : -2 ^ 63 ≤ sint64 (x - y) - a)
    (hu : sint64 (x - y) - a < 2 ^ 63) : sint64 (x - sint64 (y + a)) = sint64 (x - y) - a := by
  rw [← sint64_eq hl hu]
  unfold sint64
  rw [Int.sub_bmod_bmod, Int.bmod_sub_bmod, sub_add_eq_sub_sub]

lemma uint64_sint64 (x : Int) : uint64 (sint64 x) = uint64 x := by
  unfold uint64 sint64
  exact_mod_cast Int.bmod_emod (x := x) (m := 2 ^ 64)

lemma uint64_eq_sint64 (h : 0 ≤ sint64 x) : uint64 x = sint64 x := by
  unfold sint64 uint64 at *
  rw [Int.bmod_def] at *
  split_ifs at * with hlow
  · rfl
  · push_cast at *
    omega

lemma uint64_eq (hl : 0 ≤ x) (hu : x < 2 ^ 64) : uint64 x = x := Int.emod_eq_of_lt hl hu

/-- The type `m256i`: public keys, contract ids and digests. -/
structure M256i where
  bits : BitVec 256
deriving DecidableEq

instance : Zero M256i := ⟨⟨0⟩⟩

instance : Inhabited M256i := ⟨0⟩

def M256i.u32 (k : M256i) (i : Nat) : Nat := ((k.bits >>> (32 * i)).setWidth 32).toNat

/-- The word `m256i_u64[i]`. -/
def M256i.u64 (k : M256i) (i : Nat) : Nat := ((k.bits >>> (64 * i)).setWidth 64).toNat

def isZero (k : M256i) : Bool := k = 0

@[simp] lemma isZero_iff {k : M256i} : isZero k ↔ k = 0 := by simp [isZero]

@[simp] lemma isZero_eq_false {k : M256i} : isZero k = false ↔ k ≠ 0 := by simp [isZero]

/-- Wrap an index: `index & (capacity - 1)` for a capacity `2^d`. -/
def mask (d i : Nat) : Nat := i &&& (2 ^ d - 1)

lemma mask_eq (d i : Nat) : mask d i = i % 2 ^ d := Nat.and_two_pow_sub_one_eq_mod i d

lemma mask_lt (d i : Nat) : mask d i < 2 ^ d := by
  rw [mask_eq]
  exact Nat.mod_lt _ (Nat.two_pow_pos d)

/-- The slot `publicKey.m256i_u32[0] & (capacity - 1)` where the walk for a key begins. -/
def homeSlot (d : Nat) (k : M256i) : Nat := mask d (k.u32 0)

lemma homeSlot_lt (d : Nat) (k : M256i) : homeSlot d k < 2 ^ d := mask_lt d _

def NUMBER_OF_COMPUTORS : Nat := 676
def QUORUM : Nat := NUMBER_OF_COMPUTORS * 2 / 3 + 1
def ISSUANCE_RATE : Int := 1000000000000
def MAX_AMOUNT : Int := ISSUANCE_RATE * 1000

end QubicCore
