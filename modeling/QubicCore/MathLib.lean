import QubicCore.Library.Cells
import QubicCore.Platform

/-!
# Integer arithmetic

The functions of `math_lib` that the revenue formulas and the fee reserves use. The
`k`-th root starts at a power of two above the root, follows Newton's iteration while it falls,
and is then corrected one by one.
-/

namespace QubicCore.MathLib

open Library.Cells

/-- The largest `unsigned long long`. -/
def UINT64_MAX : Nat := 2 ^ 64 - 1

def INT64_MAX : Int := 2 ^ 63 - 1
def INT64_MIN : Int := -INT64_MAX - 1

/-- The sum of two `long long` values, with a check for overflow. The sum wraps in two's complement,
as clang with `-fwrapv` and MSVC compute it. -/
def sadd (a b : Int) : Int :=
  let sum := sint64 (a + b)
  if a < 0 ∧ b < 0 ∧ sum > 0 then INT64_MIN
  else if a > 0 ∧ b > 0 ∧ sum < 0 then INT64_MAX
  else sum

/-- The closest `long long`. -/
def clamp (x : Int) : Int := max INT64_MIN (min x INT64_MAX)

/-- The sum is exact or saturated, but `INT64_MIN` twice wraps to zero, which is not positive. -/
lemma sadd_eq {a b : Int} (ha : -2 ^ 63 ≤ a ∧ a < 2 ^ 63) (hb : -2 ^ 63 ≤ b ∧ b < 2 ^ 63) :
    sadd a b = if a = INT64_MIN ∧ b = INT64_MIN then 0 else clamp (a + b) := by
  simp only [sadd, clamp, sint64, Int.bmod_def, INT64_MIN, INT64_MAX]
  split_ifs <;> omega

def saddUnsigned (a b : Nat) : Nat := if UINT64_MAX - a < b then UINT64_MAX else a + b

/-- The product of two `long long` values, saturated. -/
def smul (a b : Int) : Int :=
  if INT64_MIN ≤ a * b ∧ a * b ≤ INT64_MAX then a * b
  else if decide (a > 0) = decide (b > 0) then INT64_MAX
  else INT64_MIN

/-- The product of two `unsigned long long` values, saturated. -/
def smulUnsigned (a b : Nat) : Nat := if UINT64_MAX < a * b then UINT64_MAX else a * b

/-- `smul` with the check of the source, on the high and the low word of `_mul128`. -/
def smulWords (a b : Int) : Int :=
  let hi := a * b / 2 ^ 64
  let lo := sint64 (a * b)
  if hi ≠ lo / 2 ^ 63 then if decide (a > 0) = decide (b > 0) then INT64_MAX else INT64_MIN
  else lo

/-- `smulUnsigned` with the check of the source, on the words of `_umul128`. -/
def smulUnsignedWords (a b : Nat) : Nat :=
  let hi := a * b / 2 ^ 64
  let lo := a * b % 2 ^ 64
  if hi ≠ 0 then UINT64_MAX else lo

lemma smulWords_eq_smul (a b : Int) : smulWords a b = smul a b := by
  simp only [smul, smulWords, sint64, Int.bmod_def, INT64_MIN, INT64_MAX]
  split_ifs <;> omega

lemma smulUnsignedWords_eq_smulUnsigned (a b : Nat) :
    smulUnsignedWords a b = smulUnsigned a b := by
  rw [smulUnsigned, smulUnsignedWords, UINT64_MAX]
  split_ifs <;> omega

lemma smul_eq_clamp (a b : Int) : smul a b = clamp (a * b) := by
  have hpos := mul_pos_iff (a := a) (b := b)
  have hneg := mul_neg_iff (a := a) (b := b)
  simp only [smul, clamp, decide_eq_decide, INT64_MIN, INT64_MAX]
  split_ifs <;> omega

lemma smulUnsigned_le (a b : Nat) : smulUnsigned a b ≤ UINT64_MAX := by
  unfold smulUnsigned
  split_ifs <;> omega

def ipowLoop : Nat → Nat → Nat → Nat → Nat
  | 0, _, r, _ => r
  | fuel + 1, v, r, e =>
    if e = 0 then r
    else if e % 2 = 1 ∧ r > UINT64_MAX / v then UINT64_MAX
    else
      let r := if e % 2 = 1 then r * v else r
      if e / 2 = 0 then r
      else if v > UINT64_MAX / v then UINT64_MAX
      else ipowLoop fuel (v * v) r (e / 2)

/-- The power `v ^ e`, saturated; an exponent has 32 bits. -/
def ipow (v e : Nat) : Nat :=
  if v = 0 then if e = 0 then 1 else 0
  else if v = 1 then 1
  else ipowLoop 32 v 1 e

def IROOT_NEWTON_CAP : Nat := 100

def bitLength (x : Nat) : Nat := if x = 0 then 0 else Nat.log2 x + 1

/-- The product of `x` with itself, `none` as soon as it passes the limit. -/
def powerWithin (limit x exp : Nat) : Option Nat :=
  (List.range exp).foldl (fun p _ => p.bind fun p => if p > limit / x then none else some (p * x))
    (some 1)

def powerLessOrEqual (x exp maxAllowed : Nat) : Bool :=
  if exp = 0 then 1 ≤ maxAllowed
  else if x ≤ 1 then x ≤ maxAllowed
  else (powerWithin maxAllowed x exp).isSome

def irootNewtonStep (k n x : Nat) : Nat :=
  let divTerm := match powerWithin UINT64_MAX x (k - 1) with
    | none => 0
    | some xPowKm1 => n / xPowKm1
  if divTerm ≥ x then x + (divTerm - x) / k else x - (x - divTerm + (k - 1)) / k

/-- The loop `while (t < x && iter < IROOT_NEWTON_CAP)`, with the iterations left. -/
def newton (k n : Nat) : Nat → Nat → Nat → Nat
  | 0, x, _ => x
  | iter + 1, x, t => if t < x then newton k n iter t (irootNewtonStep k n t) else x

/-- The loop that lowers `x` to a value whose power is small enough. -/
def lower (k n : Nat) : Nat → Nat
  | 0 => 0
  | x + 1 => if powerLessOrEqual (x + 1) k n then x + 1 else lower k n x

/-- The loop that raises `x` while the next power is small enough, with the iterations left. -/
def raise (k n : Nat) : Nat → Nat → Nat
  | 0, x => x
  | fuel + 1, x =>
    if x < UINT64_MAX ∧ powerLessOrEqual (x + 1) k n then raise k n fuel (x + 1) else x

/-- The largest `r` with `r ^ k ≤ n`. The last loop runs at most `n` times. -/
def irootK64 (k n : Nat) : Nat :=
  if k = 1 then n
  else if n < 2 then n
  else
    let x := 2 ^ ((bitLength n + k - 1) / k)
    let x := newton k n IROOT_NEWTON_CAP x (irootNewtonStep k n x)
    raise k n n (lower k n x)

lemma powerWithin_eq {limit x : Nat} (hx : 0 < x) (hlimit : 0 < limit) (exp : Nat) :
    powerWithin limit x exp = if x ^ exp ≤ limit then some (x ^ exp) else none := by
  refine foldl_range (n := exp) (P := fun i p => p = if x ^ i ≤ limit then some (x ^ i) else none)
    ?_ ?_
  · exact (if_pos (show x ^ 0 ≤ limit from hlimit)).symm
  · rintro i - _ rfl
    have hmono : x ^ i ≤ x ^ (i + 1) := Nat.pow_le_pow_right hx (Nat.le_succ i)
    split_ifs with hi hnext hnext
    · rw [Option.bind_some, if_neg, pow_succ]
      rw [not_lt, Nat.le_div_iff_mul_le hx, ← pow_succ]
      exact hnext
    · rw [Option.bind_some, if_pos]
      rw [gt_iff_lt, Nat.div_lt_iff_lt_mul hx, ← pow_succ]
      omega
    · omega
    · rfl

lemma powerLessOrEqual_iff {x exp maxAllowed : Nat} (hexp : 0 < exp) (hmax : 0 < maxAllowed) :
    powerLessOrEqual x exp maxAllowed ↔ x ^ exp ≤ maxAllowed := by
  unfold powerLessOrEqual
  rw [if_neg hexp.ne']
  split_ifs with hx
  · obtain rfl | rfl : x = 0 ∨ x = 1 := by omega
    · simp [hexp.ne']
    · simp
  · rw [powerWithin_eq (by omega) hmax]
    split_ifs with hle <;> simp [hle]

lemma lower_pow_le {k n : Nat} (hk : 0 < k) (hn : 0 < n) (x : Nat) : lower k n x ^ k ≤ n := by
  induction x with
  | zero => simp [lower, hk.ne']
  | succ x ih =>
    rw [lower]
    split_ifs with hle
    · exact (powerLessOrEqual_iff hk hn).mp hle
    · exact ih

/-- The result of the last loop, which has enough iterations. -/
lemma raise_spec {k n : Nat} (hk : 0 < k) (hn : 0 < n) (hn64 : n ≤ UINT64_MAX) :
    ∀ fuel x, x ^ k ≤ n → n ≤ x + fuel →
      raise k n fuel x ^ k ≤ n ∧ n < (raise k n fuel x + 1) ^ k := by
  intro fuel
  induction fuel with
  | zero =>
    intro x hx hfuel
    refine ⟨hx, ?_⟩
    have := Nat.le_self_pow hk.ne' (x + 1)
    simp only [raise]
    omega
  | succ fuel ih =>
    intro x hx hfuel
    rw [raise]
    split_ifs with hnext
    · exact ih (x + 1) ((powerLessOrEqual_iff hk hn).mp hnext.2) (by omega)
    · refine ⟨hx, ?_⟩
      by_cases hmax : x < UINT64_MAX
      · have hstop : ¬(x + 1) ^ k ≤ n := fun hle =>
          hnext ⟨hmax, (powerLessOrEqual_iff hk hn).mpr hle⟩
        omega
      · have := Nat.le_self_pow hk.ne' (x + 1)
        omega

lemma irootK64_spec {k n : Nat} (hk : 0 < k) (hn : n ≤ UINT64_MAX) :
    irootK64 k n ^ k ≤ n ∧ n < (irootK64 k n + 1) ^ k := by
  unfold irootK64
  split_ifs with hone hsmall
  · simp [hone]
  · obtain rfl | rfl : n = 0 ∨ n = 1 := by omega
    · simp [hk.ne']
    · simpa using Nat.one_lt_two_pow hk.ne'
  · have hpos : 0 < n := by omega
    exact raise_spec hk hpos hn n _ (lower_pow_le hk hpos _) (Nat.le_add_left _ _)

/-! ## The range of the Newton iteration -/

lemma seed_le {k n : Nat} (hk : 2 ≤ k) (hn : n ≤ UINT64_MAX) :
    2 ^ ((bitLength n + k - 1) / k) ≤ 2 ^ 32 := by
  have hbits : bitLength n ≤ 64 := by
    rw [bitLength]
    split_ifs with h0
    · omega
    · exact (Nat.log2_lt h0).2 (by rw [UINT64_MAX] at hn; omega)
  refine Nat.pow_le_pow_right two_pos (Nat.lt_succ_iff.1 ?_)
  rw [Nat.div_lt_iff_lt_mul (by omega)]
  omega

lemma irootNewtonStep_eq {k n x : Nat} (hx : 0 < x) : ∃ divTerm ≤ n, (x = 1 → divTerm = n) ∧
    irootNewtonStep k n x = if divTerm ≥ x then x + (divTerm - x) / k
      else x - (x - divTerm + (k - 1)) / k := by
  refine ⟨_, ?_, ?_, rfl⟩
  · split
    · exact Nat.zero_le n
    · exact Nat.div_le_self ..
  · rintro rfl
    rw [powerWithin_eq hx (by decide), one_pow]
    exact Nat.div_one n

lemma irootNewtonStep_range {k n x : Nat} (hk : 2 ≤ k) (hn : 2 ≤ n) (hx : 0 < x) :
    0 < irootNewtonStep k n x ∧ irootNewtonStep k n x ≤ max x n := by
  obtain ⟨divTerm, hle, hone, heq⟩ := irootNewtonStep_eq (k := k) (n := n) hx
  rw [heq]
  split_ifs with hge
  · have := Nat.div_le_self (divTerm - x) k
    exact ⟨Nat.add_pos_left hx _, le_max_of_le_right (by omega)⟩
  · refine ⟨?_, (Nat.sub_le ..).trans (le_max_left ..)⟩
    rw [tsub_pos_iff_lt, Nat.div_lt_iff_lt_mul (by omega)]
    obtain ⟨j, rfl⟩ := Nat.exists_eq_add_of_le' (show 1 ≤ k by omega)
    have := Nat.mul_le_mul_right j (show 2 ≤ x by omega)
    rw [Nat.mul_succ]
    omega

lemma newton_range {k n : Nat} (hk : 2 ≤ k) (hn : 2 ≤ n) (iter : Nat) {x : Nat} (hx : 0 < x) :
    0 < newton k n iter x (irootNewtonStep k n x) ∧
      newton k n iter x (irootNewtonStep k n x) ≤ x := by
  induction iter generalizing x with
  | zero => exact ⟨hx, le_rfl⟩
  | succ iter ih =>
    rw [newton]
    split_ifs with hlt
    · obtain ⟨hpos, hle⟩ := ih (irootNewtonStep_range hk hn hx).1
      exact ⟨hpos, hle.trans hlt.le⟩
    · exact ⟨hx, le_rfl⟩

/-- The operations of a Newton step on `x` stay in range: the sum before the division does, and the
result does. It is positive, so that no difference falls below zero. -/
structure StepInRange (k n x : Nat) : Prop where
  pos : 0 < x
  sum_le : x + (k - 1) ≤ UINT64_MAX
  result_pos : 0 < irootNewtonStep k n x
  result_le : irootNewtonStep k n x ≤ UINT64_MAX

/-- The root is exact. The seed, every value that the iteration takes and every power that is
computed are in the range of `unsigned long long`. -/
theorem irootK64_exact {k n : Nat} (hk : 1 ≤ k ∧ k ≤ 64) (hn : n ≤ UINT64_MAX) :
    (irootK64 k n ^ k ≤ n ∧ n < (irootK64 k n + 1) ^ k) ∧
    (2 ≤ k → 2 ≤ n → ∀ x, x = 2 ^ ((bitLength n + k - 1) / k) → x ≤ 2 ^ 32 ∧
      ∀ iter, StepInRange k n (newton k n iter x (irootNewtonStep k n x))) ∧
    ∀ x limit exp p, 0 < x → 0 < limit → limit ≤ UINT64_MAX →
      powerWithin limit x exp = some p → p ≤ UINT64_MAX := by
  refine ⟨irootK64_spec hk.1 hn, fun hk2 hn2 x hx => ?_, fun x limit exp p hx hpos hle hp => ?_⟩
  · have hseed : x ≤ 2 ^ 32 := hx ▸ seed_le hk2 hn
    refine ⟨hseed, fun iter => ?_⟩
    obtain ⟨hpos, hle⟩ := newton_range hk2 hn2 iter (x := x) (hx ▸ Nat.two_pow_pos _)
    generalize newton k n iter x (irootNewtonStep k n x) = y at hpos hle ⊢
    obtain ⟨hstep, hstep'⟩ := irootNewtonStep_range hk2 hn2 hpos
    rw [UINT64_MAX] at *
    exact ⟨hpos, by rw [UINT64_MAX]; omega, hstep, by rw [UINT64_MAX]; omega⟩
  · rw [powerWithin_eq hx hpos] at hp
    split_ifs at hp with hlimit
    cases hp
    exact hlimit.trans hle

theorem irootK64_exact_ten : irootK64 2 10 ^ 2 ≤ 10 ∧ 10 < (irootK64 2 10 + 1) ^ 2 :=
  (irootK64_exact (by decide) (by decide)).1

end QubicCore.MathLib
