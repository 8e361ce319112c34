import Mathlib

/-!
# Linear probing on a ring of slots

A probe walks the slots `h, h + 1, …` of a table of `n` slots, wrapping at the end, until a stop
test holds. `Reach n blocked h i` says that every slot the walk passes before `i` is blocked.

The walk takes fuel, one unit a slot. `none` stands for a loop that goes round a table in which no
slot stops it; with fuel `n` this is the only way to get `none`.
-/

namespace QubicCore.Library.Probing

variable {n h i fuel r : Nat} {stop : Nat → Bool} {blocked blocked' : Nat → Prop}

/-- The slot `k` steps after `h`. -/
def ring (n h k : Nat) : Nat := (h + k) % n

lemma ring_lt (hn : 0 < n) (h k : Nat) : ring n h k < n := Nat.mod_lt _ hn

@[simp] lemma ring_zero (hh : h < n) : ring n h 0 = h := Nat.mod_eq_of_lt hh

lemma ring_succ (n h k : Nat) : ring n h (k + 1) = (ring n h k + 1) % n := by
  unfold ring
  rw [← Nat.add_assoc, Nat.mod_add_mod]

lemma ring_next (n h k : Nat) : ring n ((h + 1) % n) k = ring n h (k + 1) := by
  unfold ring
  rw [Nat.mod_add_mod, Nat.add_assoc, Nat.add_comm 1 k]

lemma ring_ring (n h j k : Nat) : ring n (ring n h j) k = ring n h (j + k) := by
  unfold ring
  rw [Nat.mod_add_mod, Nat.add_assoc]

lemma ring_eq {k : Nat} (hh : h < n) (hk : k < n) :
    ring n h k = if h + k < n then h + k else h + k - n := by
  unfold ring
  split_ifs with hlt
  · exact Nat.mod_eq_of_lt hlt
  · rw [Nat.mod_eq_sub_mod (by omega), Nat.mod_eq_of_lt (by omega)]

lemma ring_injective {j k : Nat} (hh : h < n) (hj : j < n) (hk : k < n)
    (he : ring n h j = ring n h k) : j = k := by
  rw [ring_eq hh hj, ring_eq hh hk] at he
  split_ifs at he <;> omega

/-- Every slot is met exactly once within `n` steps. -/
lemma exists_ring (hh : h < n) (hi : i < n) : ∃ k < n, ring n h k = i := by
  by_cases hle : h ≤ i
  · exact ⟨i - h, by omega, by rw [ring_eq hh (by omega), if_pos (by omega)]; omega⟩
  · exact ⟨i + n - h, by omega, by rw [ring_eq hh (by omega), if_neg (by omega)]; omega⟩

/-- Walk from `i` to the first slot where `stop` holds. -/
def probe (n : Nat) (stop : Nat → Bool) : Nat → Nat → Option Nat
  | 0, _ => none
  | fuel + 1, i => if stop i then some i else probe n stop fuel ((i + 1) % n)

lemma probe_here (hf : 0 < fuel) (hs : stop h) : probe n stop fuel h = some h := by
  cases fuel with
  | zero => omega
  | succ fuel => simp [probe, hs]

lemma probe_eq_some_iff (hh : h < n) :
    probe n stop fuel h = some i ↔
      ∃ k < fuel, i = ring n h k ∧ stop i ∧ ∀ j < k, stop (ring n h j) = false := by
  induction fuel generalizing h with
  | zero => simp [probe]
  | succ fuel ih =>
    rw [probe]
    by_cases hs : stop h
    · rw [if_pos hs, Option.some.injEq]
      constructor
      · rintro rfl
        exact ⟨0, by omega, (ring_zero hh).symm, hs, by omega⟩
      · rintro ⟨k, _, rfl, _, hbefore⟩
        rcases Nat.eq_zero_or_pos k with rfl | hk
        · exact (ring_zero hh).symm
        · have hfirst := hbefore 0 hk
          rw [ring_zero hh, hs] at hfirst
          cases hfirst
    · rw [if_neg hs, ih (Nat.mod_lt _ (by omega))]
      constructor
      · rintro ⟨k, hk, rfl, hstop, hbefore⟩
        rw [ring_next] at hstop
        refine ⟨k + 1, by omega, by rw [ring_next], by rw [ring_next]; exact hstop, ?_⟩
        intro j hj
        cases j with
        | zero => rw [ring_zero hh]; simpa using hs
        | succ j => rw [← ring_next]; exact hbefore j (by omega)
      · rintro ⟨k, hk, rfl, hstop, hbefore⟩
        cases k with
        | zero =>
          rw [ring_zero hh] at hstop
          exact absurd hstop hs
        | succ k =>
          refine ⟨k, by omega, by rw [ring_next], hstop, ?_⟩
          intro j hj
          rw [ring_next]
          exact hbefore (j + 1) (by omega)

lemma probe_lt (hh : h < n) (hp : probe n stop fuel h = some i) : i < n := by
  obtain ⟨k, _, rfl, _, _⟩ := (probe_eq_some_iff hh).mp hp
  exact ring_lt (by omega) h k

lemma probe_stop (hh : h < n) (hp : probe n stop fuel h = some i) : stop i := by
  obtain ⟨k, _, _, hstop, _⟩ := (probe_eq_some_iff hh).mp hp
  exact hstop

/-- A walk with one unit of fuel for each slot ends as soon as some slot stops it. -/
lemma exists_probe (stop : Nat → Bool) (hh : h < n) (hi : i < n)
    (hs : stop i) : ∃ r, probe n stop n h = some r := by
  obtain ⟨k, hk, hki⟩ := exists_ring hh hi
  have hex : ∃ j < n, stop (ring n h j) := ⟨k, hk, by rw [hki]; exact hs⟩
  obtain ⟨hlt, hstop⟩ := Nat.find_spec hex
  refine ⟨ring n h (Nat.find hex), (probe_eq_some_iff hh).mpr ⟨_, hlt, rfl, hstop, ?_⟩⟩
  intro j hj
  have hmin := Nat.find_min hex hj
  simpa [hj.trans hlt] using hmin

/-- Slot `i` is met from `h` before any slot that is not blocked. -/
def Reach (n : Nat) (blocked : Nat → Prop) (h i : Nat) : Prop :=
  ∃ k < n, i = ring n h k ∧ ∀ j < k, blocked (ring n h j)

lemma Reach.lt (hr : Reach n blocked h i) : i < n := by
  obtain ⟨k, hk, rfl, _⟩ := hr
  exact ring_lt (by omega) h k

lemma Reach.refl (hh : h < n) :
    Reach n blocked h h := ⟨0, by omega, (ring_zero hh).symm, by omega⟩

lemma Reach.mono (hr : Reach n blocked h i) (hb : ∀ j < n, blocked j → blocked' j) :
    Reach n blocked' h i := by
  obtain ⟨k, hk, hi, hbefore⟩ := hr
  exact ⟨k, hk, hi, fun j hj => hb _ (ring_lt (by omega) h j) (hbefore j hj)⟩

/-- The slot where a walk stops is reachable when the walk passes blocked slots only. -/
lemma reach_of_probe (hh : h < n) (hp : probe n stop n h = some i)
    (hb : ∀ j < n, stop j = false → blocked j) : Reach n blocked h i := by
  obtain ⟨k, hk, hi, _, hbefore⟩ := (probe_eq_some_iff hh).mp hp
  exact ⟨k, hk, hi, fun j hj => hb _ (ring_lt (by omega) h j) (hbefore j hj)⟩

/-- A reachable slot is found when no other blocked slot stops the walk. -/
lemma probe_of_reach (hh : h < n) (hr : Reach n blocked h i) (hs : stop i)
    (hother : ∀ j < n, blocked j → stop j → j = i) : probe n stop n h = some i := by
  obtain ⟨k, hk, hi, hbefore⟩ := hr
  refine (probe_eq_some_iff hh).mpr ⟨k, hk, hi, hs, ?_⟩
  intro j hj
  by_contra hstop
  have hji := hother _ (ring_lt (by omega) h j) (hbefore j hj) (by simpa using hstop)
  have := ring_injective hh (hj.trans hk) hk (hji.trans hi)
  omega

/-- A walk does not get past a reachable slot that stops it. -/
lemma probe_of_reach_stop (hh : h < n) (hr : Reach n blocked h i) (hs : stop i)
    (hp : probe n stop n h = some r) : r = i ∨ blocked r := by
  obtain ⟨k, hk, rfl, hbefore⟩ := hr
  obtain ⟨m, hm, rfl, _, hmiss⟩ := (probe_eq_some_iff hh).mp hp
  rcases Nat.lt_trichotomy m k with hlt | rfl | hgt
  · exact .inr (hbefore m hlt)
  · exact .inl rfl
  · rw [hmiss k hgt] at hs
    cases hs

lemma Reach.trans_next (hr : Reach n blocked h i) (hbi : blocked i)
    (hn : Reach n blocked ((i + 1) % n) r)
    (hfree : ¬blocked r) : Reach n blocked h r := by
  obtain ⟨k, hk, rfl, hbefore⟩ := hr
  obtain ⟨m, hm, hrm, hafter⟩ := hn
  have hn0 : 0 < n := by omega
  -- The walk continues at step `k + 1`; a free slot cannot lie among the blocked first steps.
  have hpos : r = ring n h (k + 1 + m) := by rw [hrm, ← ring_succ, ring_ring]
  have hall : ∀ j < k + 1 + m, blocked (ring n h j) := by
    intro j hj
    rcases Nat.lt_trichotomy j k with hlt | rfl | hgt
    · exact hbefore j hlt
    · exact hbi
    · have hj' := hafter (j - (k + 1)) (by omega)
      rwa [← ring_succ, ring_ring, show k + 1 + (j - (k + 1)) = j by omega] at hj'
  have hbound : k + 1 + m < n := by
    by_contra hge
    have hwrap : ring n h (k + 1 + m) = ring n h (k + 1 + m - n) := by
      unfold ring
      rw [Nat.mod_eq_sub_mod (by omega)]
      congr 1
      omega
    exact hfree (hpos ▸ hwrap ▸ hall _ (by omega))
  exact ⟨_, hbound, hpos, hall⟩

/-! ## Tables of keys

`live i` is the key that slot `i` holds. A blocked slot need not be live: it may be the grave of
a removed key, which a walk has to pass.
-/

variable {κ : Type*} {home : κ → Nat} {live : Nat → Option κ} {key : κ}

structure Chained (n : Nat) (home : κ → Nat) (live : Nat → Option κ) (blocked : Nat → Prop) :
    Prop where
  blocked_of_live : ∀ {i k}, i < n → live i = some k → blocked i
  unique : ∀ {i j k}, i < n → j < n → live i = some k → live j = some k → i = j
  reach : ∀ {i k}, i < n → live i = some k → Reach n blocked (home k) i

lemma Chained.empty (he : ∀ i < n, live i = none) : Chained n home live blocked where
  blocked_of_live hi hl := by rw [he _ hi] at hl; cases hl
  unique hi _ hl _ := by rw [he _ hi] at hl; cases hl
  reach hi hl := by rw [he _ hi] at hl; cases hl

lemma Chained.insert {live' : Nat → Option κ} (hc : Chained n home live blocked)
    (hreach : Reach n blocked (home key) r) (habsent : ∀ i < n, live i ≠ some key)
    (hr : live' r = some key) (hlive : ∀ i < n, i ≠ r → live' i = live i)
    (hblocked : ∀ i < n, blocked i → blocked' i) (hbr : blocked' r) :
    Chained n home live' blocked' where
  blocked_of_live {i k} hi hl := by
    by_cases hir : i = r
    · exact hir ▸ hbr
    · exact hblocked i hi (hc.blocked_of_live hi (hlive i hi hir ▸ hl))
  unique {i j k} hi hj hli hlj := by
    by_cases hir : i = r <;> by_cases hjr : j = r
    · rw [hir, hjr]
    · subst hir
      rw [hr, Option.some.injEq] at hli
      exact absurd (hlive j hj hjr ▸ hlj) (hli ▸ habsent j hj)
    · subst hjr
      rw [hr, Option.some.injEq] at hlj
      exact absurd (hlive i hi hir ▸ hli) (hlj ▸ habsent i hi)
    · exact hc.unique hi hj (hlive i hi hir ▸ hli) (hlive j hj hjr ▸ hlj)
  reach {i k} hi hl := by
    by_cases hir : i = r
    · subst hir
      rw [hr, Option.some.injEq] at hl
      exact hl ▸ hreach.mono hblocked
    · exact (hc.reach hi (hlive i hi hir ▸ hl)).mono hblocked

lemma Chained.remove {live' : Nat → Option κ} (hc : Chained n home live blocked)
    (hlive : ∀ i < n, live' i = live i ∨ live' i = none)
    (hblocked : ∀ i < n, blocked i → blocked' i) : Chained n home live' blocked' where
  blocked_of_live {i k} hi hl := by
    rcases hlive i hi with he | he
    · exact hblocked i hi (hc.blocked_of_live hi (he ▸ hl))
    · rw [he] at hl; cases hl
  unique {i j k} hi hj hli hlj := by
    rcases hlive i hi with he | he
    · rcases hlive j hj with hf | hf
      · exact hc.unique hi hj (he ▸ hli) (hf ▸ hlj)
      · rw [hf] at hlj; cases hlj
    · rw [he] at hli; cases hli
  reach {i k} hi hl := by
    rcases hlive i hi with he | he
    · exact (hc.reach hi (he ▸ hl)).mono hblocked
    · rw [he] at hl; cases hl

/-- The walk for a key that is in the table stops at its slot. -/
lemma Chained.probe_live (hc : Chained n home live blocked) (hh : home key < n) (hi : i < n)
    (hl : live i = some key)
    (hstop : ∀ j < n, stop j ↔ live j = some key ∨ ¬blocked j) :
    probe n stop n (home key) = some i := by
  refine probe_of_reach hh (hc.reach hi hl) ((hstop i hi).mpr (Or.inl hl)) ?_
  intro j hj hb hs
  rcases (hstop j hj).mp hs with hlj | hfree
  · exact hc.unique hj hi hlj hl
  · exact absurd hb hfree

/-- The walk for a key that is not in the table stops at a free slot, if there is one. -/
lemma Chained.probe_absent {f : Nat} (hh : home key < n)
    (hf : f < n) (hfree : ¬blocked f) (habsent : ∀ i < n, live i ≠ some key)
    (hstop : ∀ j < n, stop j ↔ live j = some key ∨ ¬blocked j) :
    ∃ r, probe n stop n (home key) = some r ∧ r < n ∧ ¬blocked r ∧
      Reach n blocked (home key) r := by
  obtain ⟨r, hp⟩ := exists_probe stop hh hf ((hstop f hf).mpr (Or.inr hfree))
  have hr := probe_lt hh hp
  refine ⟨r, hp, hr, ?_, reach_of_probe hh hp ?_⟩
  · rcases (hstop r hr).mp (probe_stop hh hp) with hl | hb
    · exact absurd hl (habsent r hr)
    · exact hb
  · intro j hj hs
    by_contra hb
    rw [(hstop j hj).mpr (Or.inr hb)] at hs
    cases hs

end QubicCore.Library.Probing
