import QubicCore.Library.TwoBit
import QubicCore.Library.Probing

/-!
# Occupation flags of the hash containers

`HashMap` and `HashSet` keep two bits for each of their `L = 2^N` slots: 0 for a slot never used, 1
for an occupied one and 2 for one marked for removal. Both repeat the same loops: up to 32 flags are
read at once and shifted through, `index` running around the table. Here these loops are given once,
with what they find.
-/

namespace QubicCore.Qpi

open Library.TwoBit Library.Probing

/-- The array `_occupationFlags`. -/
abbrev Flags := Nat → BitVec 64

def nEncodedFlags (L : Nat) : Nat := if L > 32 then 32 else L

def getEncodedOccupationFlags (L : Nat) (occupationFlags : Flags) (elementIndex : Nat) :
    BitVec 64 :=
  let offset := 2 * (elementIndex % 32)
  let flags := occupationFlags (elementIndex / 32) >>> offset
  if offset > 0 then
    flags ||| occupationFlags ((elementIndex + 32) % L / 32) <<< (2 * nEncodedFlags L - offset)
  else flags

/-- `occupationFlags[index >> 5] |= 1ULL << ((index & 31) << 1)` -/
def occupy (flags : Flags) (index : Nat) : Flags :=
  Function.update flags (index / 32) (flags (index / 32) ||| 1#64 <<< (2 * (index % 32)))

/-- `occupationFlags[index >> 5] ^= 3ULL << ((index & 31) << 1)` -/
def toggle (flags : Flags) (index : Nat) : Flags :=
  Function.update flags (index / 32) (flags (index / 32) ^^^ 3#64 <<< (2 * (index % 32)))

section

variable {ρ σ : Type*} (L : Nat) (body : Nat → Nat → σ → ρ ⊕ σ)

/-- The inner loop over `n` encoded flags. The body sees a flag and its index; it returns from the
function with `inl` and goes on with `inr`. -/
def scanGroup : Nat → BitVec 64 → Nat → σ → ρ ⊕ (Nat × σ)
  | 0, _, index, s => .inr (index, s)
  | n + 1, flags, index, s =>
    match body (flags &&& 3#64).toNat index s with
    | .inl r => .inl r
    | .inr s => scanGroup n (flags >>> 2) ((index + 1) % L) s

def scanGroups (flags : Flags) : Nat → Nat → σ → ρ ⊕ σ
  | 0, _, s => .inr s
  | rounds + 1, index, s =>
    match scanGroup L body (nEncodedFlags L) (getEncodedOccupationFlags L flags index) index s with
    | .inl r => .inl r
    | .inr (index, s) => scanGroups flags rounds index s

/-- `for (counter = 0; counter < L; counter += 32)` -/
def scan (flags : Flags) (index : Nat) (s : σ) : ρ ⊕ σ :=
  scanGroups L body flags ((L + 31) / 32) index s

end

def slot (flags : Flags) (i : Nat) : Nat := read 32 flags i

/-! ## Reading and writing single slots -/

section

variable {flags : Flags} {N index i : Nat}

lemma slot_occupy (hfree : slot flags index = 0) (i : Nat) :
    slot (occupy flags index) i = if i = index then 1 else slot flags i := by
  have h := read_update flags
    (w := flags (index / 32) ||| 1#64 <<< (2 * (index % 32))) (f := fun x => x ||| 1) (by norm_num)
    (fun s hs => field_or _ (by decide) (by omega)) i
  rw [slot] at hfree
  rw [slot, occupy, h, hfree]
  rfl

lemma slot_toggle (flags : Flags) (index i : Nat) :
    slot (toggle flags index) i = if i = index then slot flags index ^^^ 3 else slot flags i :=
  read_update flags
    (w := flags (index / 32) ^^^ 3#64 <<< (2 * (index % 32))) (f := fun x => x ^^^ 3)
    (by norm_num) (fun s hs => field_xor _ (by decide) (by omega)) i

/-- A table of more than 32 slots fills whole words, a smaller one divides the word. -/
lemma two_pow_cases (N : Nat) :
    (2 ^ N ≤ 32 ∧ nEncodedFlags (2 ^ N) = 2 ^ N ∧ (2 ^ N + 31) / 32 = 1) ∨
      ∃ m, 0 < m ∧ 2 ^ N = 32 * m ∧ nEncodedFlags (2 ^ N) = 32 := by
  obtain hle | hgt := le_or_gt N 5
  · have hL : 2 ^ N ≤ 2 ^ 5 := Nat.pow_le_pow_right (by norm_num) hle
    have hpos := Nat.one_le_two_pow (n := N)
    refine .inl ⟨hL, if_neg (by omega), by omega⟩
  · obtain ⟨k, rfl⟩ := Nat.exists_eq_add_of_lt hgt
    have hpow : 2 ^ (5 + k + 1) = 32 * 2 ^ (k + 1) := by
      rw [Nat.add_assoc, pow_add]
      norm_num
    have htwo : 1 < 2 ^ (k + 1) := Nat.one_lt_two_pow (by omega)
    exact .inr ⟨2 ^ (k + 1), by omega, hpow, if_pos (by rw [hpow]; omega)⟩

/-- Flag `i` of the encoded word belongs to the slot `i` steps ahead. -/
lemma field_getEncodedOccupationFlags (hhigh : ∀ i, 2 ^ N ≤ i → slot flags i = 0)
    (hindex : index < 2 ^ N) (hi : i < nEncodedFlags (2 ^ N)) :
    field (getEncodedOccupationFlags (2 ^ N) flags index) i =
      slot flags (ring (2 ^ N) index i) := by
  simp only [getEncodedOccupationFlags, slot, Library.TwoBit.read, ring]
  obtain ⟨hle, hn, -⟩ | ⟨m, hm, hL, hn⟩ := two_pow_cases N
  · rw [hn] at hi ⊢
    have hword : index / 32 = 0 := by omega
    have hmod : index % 32 = index := by omega
    have hnext : (index + 32) % 2 ^ N / 32 = 0 :=
      Nat.div_eq_of_lt ((Nat.mod_lt _ (by omega)).trans_le hle)
    have hsame : (index + i) % 2 ^ N / 32 = 0 :=
      Nat.div_eq_of_lt ((Nat.mod_lt _ (by omega)).trans_le hle)
    have hsmall : (index + i) % 2 ^ N % 32 = (index + i) % 2 ^ N :=
      Nat.mod_eq_of_lt ((Nat.mod_lt _ (by omega)).trans_le hle)
    rw [hword, hmod, hnext, hsame, hsmall]
    split_ifs with hoff
    · rw [field_or_words _ _ (by omega), field_ushiftRight, ← Nat.mul_sub,
        field_shiftLeft _ (by omega)]
      obtain hlt | hge := Nat.lt_or_ge (index + i) (2 ^ N)
      · rw [if_pos (by omega), Nat.or_zero, Nat.mod_eq_of_lt hlt]
      · -- the flags behind the table are zero, the wrapped ones come from the second part
        have hzero : field (flags 0) (index + i) = 0 := by
          obtain hin | hout := Nat.lt_or_ge (index + i) 32
          · have := hhigh (index + i) hge
            rwa [slot, Library.TwoBit.read, Nat.div_eq_of_lt hin, Nat.mod_eq_of_lt hin] at this
          · exact field_of_le _ (by omega)
        rw [hzero, Nat.zero_or, if_neg (by omega), Nat.mod_eq_sub_mod hge,
          Nat.mod_eq_of_lt (by omega)]
        congr 1
        omega
    · have : index = 0 := by omega
      subst this
      simp [Nat.mod_eq_of_lt hi]
  · rw [hn] at hi ⊢
    rw [hL] at hindex ⊢
    have hdiv : ∀ k, k % (32 * m) / 32 = k / 32 % m := fun k => Nat.mod_mul_right_div_self k 32 m
    have hmod : ∀ k, k % (32 * m) % 32 = k % 32 := fun k =>
      Nat.mod_mod_of_dvd k (Dvd.intro m rfl)
    have hq : index / 32 < m := by omega
    rw [hdiv, hdiv, hmod]
    split_ifs with hoff
    · rw [field_or_words _ _ (by omega), field_ushiftRight,
        show 2 * 32 - 2 * (index % 32) = 2 * (32 - index % 32) by omega,
        field_shiftLeft _ (by omega)]
      obtain hlt | hge := Nat.lt_or_ge (index % 32 + i) 32
      · rw [if_pos (by omega), Nat.or_zero, show (index + i) / 32 = index / 32 by omega,
          Nat.mod_eq_of_lt hq]
        congr 1
        omega
      · rw [field_of_le _ (by omega), Nat.zero_or, if_neg (by omega),
          show (index + i) / 32 = (index + 32) / 32 by omega]
        congr 1
        omega
    · rw [field_ushiftRight, show (index + i) / 32 = index / 32 by omega, Nat.mod_eq_of_lt hq]
      congr 1
      omega

end

/-! ## The loops -/

section

variable {ρ σ : Type*} {flags : Flags} {N index : Nat} {body : Nat → Nat → σ → ρ ⊕ σ}
  {P : Nat → σ → Prop} {Q : ρ ⊕ σ → Prop} {s : σ}

/-- What the body does at the slot `m` steps ahead of `index`. -/
def Step (flags : Flags) (N index : Nat) (body : Nat → Nat → σ → ρ ⊕ σ) (P : Nat → σ → Prop)
    (Q : ρ ⊕ σ → Prop) : Prop :=
  ∀ m < 2 ^ N, ∀ s, P m s →
    (∀ r, body (slot flags (ring (2 ^ N) index m)) (ring (2 ^ N) index m) s = .inl r → Q (.inl r)) ∧
    ∀ s', body (slot flags (ring (2 ^ N) index m)) (ring (2 ^ N) index m) s = .inr s' → P (m + 1) s'

lemma scanGroup_rule (hstep : Step flags N index body P Q) {n m : Nat} {w : BitVec 64}
    (hn : m + n ≤ 2 ^ N) (hw : ∀ i < n, field w i = slot flags (ring (2 ^ N) index (m + i)))
    (hs : P m s) :
    match scanGroup (2 ^ N) body n w (ring (2 ^ N) index m) s with
    | .inl r => Q (.inl r)
    | .inr (index', s') => index' = ring (2 ^ N) index (m + n) ∧ P (m + n) s' := by
  induction n generalizing m w s with
  | zero => exact ⟨rfl, hs⟩
  | succ n ih =>
    have hflag : (w &&& 3#64).toNat = slot flags (ring (2 ^ N) index m) := by
      rw [← Nat.add_zero m, ← hw 0 (by omega)]
      simp [field]
    have hone := hstep m (by omega) s hs
    rw [scanGroup, hflag]
    cases hb : body (slot flags (ring (2 ^ N) index m)) (ring (2 ^ N) index m) s with
    | inl r => exact hone.1 r hb
    | inr s' =>
      rw [← ring_succ, show m + (n + 1) = m + 1 + n by omega]
      refine ih (by omega) (fun i hi => ?_) (hone.2 s' hb)
      rw [show w >>> 2 = w >>> (2 * 1) from rfl, field_ushiftRight, hw (1 + i) (by omega),
        Nat.add_assoc]

lemma scanGroups_rule (hhigh : ∀ i, 2 ^ N ≤ i → slot flags i = 0) (hindex : index < 2 ^ N)
    (hstep : Step flags N index body P Q) (hend : ∀ s, P (2 ^ N) s → Q (.inr s)) {rounds m : Nat}
    (hm : m + rounds * nEncodedFlags (2 ^ N) = 2 ^ N) (hs : P m s) :
    Q (scanGroups (2 ^ N) body flags rounds (ring (2 ^ N) index m) s) := by
  induction rounds generalizing m s with
  | zero =>
    obtain rfl : m = 2 ^ N := by simpa using hm
    exact hend s hs
  | succ rounds ih =>
    rw [Nat.succ_mul] at hm
    have hgroup := scanGroup_rule hstep (n := nEncodedFlags (2 ^ N))
      (w := getEncodedOccupationFlags (2 ^ N) flags (ring (2 ^ N) index m)) (by omega)
      (fun i hi => by
        rw [field_getEncodedOccupationFlags hhigh (ring_lt (by omega) _ _) hi, ring_ring]) hs
    rw [scanGroups]
    split
    · next r hr => simpa only [hr] using hgroup
    · next index' s' hs' =>
      simp only [hs'] at hgroup
      obtain ⟨rfl, hP⟩ := hgroup
      exact ih (by omega) hP

/-- Invariant rule for the two nested loops: they visit the `2^N` slots in the order of the ring,
starting at `index`. -/
lemma scan_rule (hhigh : ∀ i, 2 ^ N ≤ i → slot flags i = 0) (hindex : index < 2 ^ N)
    (P : Nat → σ → Prop) (Q : ρ ⊕ σ → Prop) (hinit : P 0 s)
    (hstep : ∀ m < 2 ^ N, ∀ s, P m s → (body (slot flags (ring (2 ^ N) index m))
      (ring (2 ^ N) index m) s).elim (Q ∘ .inl) (P (m + 1)))
    (hend : ∀ s, P (2 ^ N) s → Q (.inr s)) :
    Q (scan (2 ^ N) body flags index s) := by
  have hstep : Step flags N index body P Q := fun m hm s hs =>
    ⟨fun r hr => by simpa [hr] using hstep m hm s hs,
      fun s' hs' => by simpa [hs'] using hstep m hm s hs⟩
  have hrounds : 0 + (2 ^ N + 31) / 32 * nEncodedFlags (2 ^ N) = 2 ^ N := by
    obtain ⟨_, hn, hone⟩ | ⟨m, _, hL, hn⟩ := two_pow_cases N
    · rw [hone, hn, Nat.one_mul, Nat.zero_add]
    · rw [hn, hL]
      omega
  have := scanGroups_rule hhigh hindex hstep hend hrounds hinit
  rwa [ring_zero hindex] at this

end

end QubicCore.Qpi
