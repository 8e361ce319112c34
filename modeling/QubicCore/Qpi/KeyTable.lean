import QubicCore.Library.Cells
import QubicCore.Qpi.OccupationFlags

/-!
# Tables of keys with occupation flags

The searches that `HashMap` and `HashSet` make in their tables, and the invariant they rely on:
every key lies in one slot, and no unused slot lies between its home slot and it. Slots marked for
removal keep walks going and may be used again.
-/

namespace QubicCore.Qpi

open Library.Probing Library.Cells

variable {K : Type*}

section

variable [DecidableEq K]

def lookupBody (keyAt : Nat → K) (key : K) (flag index : Nat) (_ : Unit) : Option Nat ⊕ Unit :=
  match flag with
  | 0 => .inl none
  | 1 => if keyAt index = key then .inl (some index) else .inr ()
  | _ => .inr ()

/-- The loop of `getElementIndex`; `none` is `NULL_INDEX`. -/
def lookup (L : Nat) (flags : Flags) (keyAt : Nat → K) (home : Nat) (key : K) : Option Nat :=
  (scan L (lookupBody keyAt key) flags home ()).elim id fun _ => none

/-- Where the search for a slot for a key ends: at the key, at an unused slot, at the first slot
marked for removal, or nowhere. -/
inductive Place where
  | found (index : Nat)
  | unused (index : Nat)
  | reuse (index : Nat)
  | none
deriving DecidableEq

/-- Body of the search for a slot; `marked` is `markedForRemovalIndexForReuse`. -/
def placeBody (keyAt : Nat → K) (key : K) (flag index : Nat) (marked : Option Nat) :
    Place ⊕ Option Nat :=
  match flag with
  | 0 =>
    match marked with
    | some m => .inl (.reuse m)
    | none => .inl (.unused index)
  | 1 => if keyAt index = key then .inl (.found index) else .inr marked
  | 2 => .inr (marked.or (some index))
  | _ => .inr marked

def findPlace (L : Nat) (flags : Flags) (keyAt : Nat → K) (home : Nat) (key : K) : Place :=
  (scan L (placeBody keyAt key) flags home none).elim id fun marked =>
    match marked with
    | some m => .reuse m
    | none => .none

def findUnused (L : Nat) (flags : Flags) (home : Nat) : Option Nat :=
  (scan L (fun flag index () => if flag = 0 then .inl index else .inr ()) flags home ()).elim
    some fun _ => none

end

def live (flags : Flags) (keyAt : Nat → K) (i : Nat) : Option K :=
  if slot flags i = 1 then some (keyAt i) else none

@[simp] lemma live_eq_some {flags : Flags} {keyAt : Nat → K} {i : Nat} {key : K} :
    live flags keyAt i = some key ↔ slot flags i = 1 ∧ keyAt i = key := by
  simp [live]

structure KeyTable (N : Nat) (hash : K → Nat) (flags : Flags) (keyAt : Nat → K) : Prop where
  high : ∀ i, 2 ^ N ≤ i → slot flags i = 0
  slot_le : ∀ i, slot flags i ≤ 2
  chained : Chained (2 ^ N) (fun k => hash k % 2 ^ N) (live flags keyAt) (slot flags · ≠ 0)

section

variable {N : Nat} {hash : K → Nat} {flags : Flags} {keyAt : Nat → K} {key : K} {m : Nat}

/-- The walk has met `m` slots in use, none of which holds the key. -/
def Passed (N : Nat) (flags : Flags) (keyAt : Nat → K) (home : Nat) (key : K) (m : Nat) : Prop :=
  ∀ j < m, slot flags (ring (2 ^ N) home j) ≠ 0 ∧ live flags keyAt (ring (2 ^ N) home j) ≠ some key

lemma Passed.succ {home : Nat} (h : Passed N flags keyAt home key m)
    (hslot : slot flags (ring (2 ^ N) home m) ≠ 0)
    (hkey : live flags keyAt (ring (2 ^ N) home m) ≠ some key) :
    Passed N flags keyAt home key (m + 1) := by
  intro j hj
  obtain hlt | rfl := Nat.lt_succ_iff_lt_or_eq.mp hj
  exacts [h j hlt, ⟨hslot, hkey⟩]

lemma Passed.reach {home : Nat} (h : Passed N flags keyAt home key m) (hm : m < 2 ^ N) :
    Reach (2 ^ N) (slot flags · ≠ 0) home (ring (2 ^ N) home m) :=
  ⟨m, hm, rfl, fun j hj => (h j hj).1⟩

lemma KeyTable.home_lt (_ : KeyTable N hash flags keyAt) (key : K) :
    hash key % 2 ^ N < 2 ^ N := Nat.mod_lt _ (Nat.two_pow_pos N)

lemma KeyTable.slot_cases (h : KeyTable N hash flags keyAt) (i : Nat) :
    slot flags i = 0 ∨ slot flags i = 1 ∨ slot flags i = 2 := by
  have := h.slot_le i
  omega

lemma KeyTable.absent_of_unused (h : KeyTable N hash flags keyAt) (hm : m < 2 ^ N)
    (hpassed : Passed N flags keyAt (hash key % 2 ^ N) key m)
    (hslot : slot flags (ring (2 ^ N) (hash key % 2 ^ N) m) = 0) :
    ∀ i < 2 ^ N, live flags keyAt i ≠ some key := by
  intro i hi hlive
  obtain ⟨k, hk, rfl, hbefore⟩ := h.chained.reach hi hlive
  obtain hlt | rfl | hgt := Nat.lt_trichotomy k m
  · exact (hpassed k hlt).2 hlive
  · simp [hslot] at hlive
  · exact hbefore m hgt hslot

lemma KeyTable.absent_of_round (h : KeyTable N hash flags keyAt)
    (hpassed : Passed N flags keyAt (hash key % 2 ^ N) key (2 ^ N)) :
    ∀ i < 2 ^ N, live flags keyAt i ≠ some key := by
  intro i hi
  obtain ⟨k, hk, rfl⟩ := exists_ring (h.home_lt key) hi
  exact (hpassed k hk).2

/-- What a lookup should return. -/
def Located (N : Nat) (flags : Flags) (keyAt : Nat → K) (key : K) : Option Nat → Prop
  | some i => i < 2 ^ N ∧ live flags keyAt i = some key
  | none => ∀ i < 2 ^ N, live flags keyAt i ≠ some key

variable [DecidableEq K]

lemma KeyTable.lookup_spec (h : KeyTable N hash flags keyAt) (key : K) :
    Located N flags keyAt key (lookup (2 ^ N) flags keyAt (hash key % 2 ^ N) key) := by
  refine scan_rule h.high (h.home_lt key) (fun m _ => Passed N flags keyAt (hash key % 2 ^ N) key m)
    (fun r => Located N flags keyAt key (r.elim id fun _ => none))
    (fun j hj => absurd hj (by omega)) (fun m hm _ hP => ?_) fun _ hP => h.absent_of_round hP
  have hlt := ring_lt (Nat.two_pow_pos N) (hash key % 2 ^ N) m
  unfold lookupBody
  split
  · next h0 =>
    exact h.absent_of_unused hm hP h0
  · next h1 =>
    split_ifs with hkey
    · exact ⟨hlt, live_eq_some.mpr ⟨h1, hkey⟩⟩
    · exact hP.succ (by omega) fun hl => hkey (live_eq_some.mp hl).2
  · next h0 h1 => exact hP.succ h0 fun hl => h1 (live_eq_some.mp hl).1

lemma KeyTable.lookup_eq_some_iff (h : KeyTable N hash flags keyAt) {i : Nat} :
    lookup (2 ^ N) flags keyAt (hash key % 2 ^ N) key = some i ↔
      i < 2 ^ N ∧ live flags keyAt i = some key := by
  have hspec := h.lookup_spec key
  cases hl : lookup (2 ^ N) flags keyAt (hash key % 2 ^ N) key with
  | none =>
    rw [hl] at hspec
    simp only [reduceCtorEq, false_iff, not_and]
    exact hspec i
  | some j =>
    rw [hl] at hspec
    refine ⟨fun he => Option.some.inj he ▸ hspec, fun ⟨hi, hlive⟩ => ?_⟩
    rw [h.chained.unique hspec.1 hi hspec.2 hlive]

def Placed (N : Nat) (home : Nat) (flags : Flags) (keyAt : Nat → K) (key : K) : Place → Prop
  | .found i => i < 2 ^ N ∧ live flags keyAt i = some key
  | .unused i => (∀ j < 2 ^ N, live flags keyAt j ≠ some key) ∧ slot flags i = 0 ∧
    Reach (2 ^ N) (slot flags · ≠ 0) home i
  | .reuse i => (∀ j < 2 ^ N, live flags keyAt j ≠ some key) ∧ slot flags i = 2 ∧
    Reach (2 ^ N) (slot flags · ≠ 0) home i
  | .none => (∀ j < 2 ^ N, live flags keyAt j ≠ some key) ∧ ∀ j < 2 ^ N, slot flags j = 1

/-- What the walk knows of slots marked for removal after `m` slots. -/
def Marked (N : Nat) (flags : Flags) (home m : Nat) : Option Nat → Prop
  | some r => slot flags r = 2 ∧ Reach (2 ^ N) (slot flags · ≠ 0) home r
  | none => ∀ j < m, slot flags (ring (2 ^ N) home j) = 1

lemma KeyTable.findPlace_spec (h : KeyTable N hash flags keyAt) (key : K) :
    Placed N (hash key % 2 ^ N) flags keyAt key
      (findPlace (2 ^ N) flags keyAt (hash key % 2 ^ N) key) := by
  refine scan_rule h.high (h.home_lt key)
    (fun m marked => Passed N flags keyAt (hash key % 2 ^ N) key m ∧
      Marked N flags (hash key % 2 ^ N) m marked)
    (fun r => Placed N (hash key % 2 ^ N) flags keyAt key (r.elim id fun marked =>
      match marked with
      | some m => .reuse m
      | none => .none))
    ⟨fun j hj => absurd hj (by omega), fun j hj => absurd hj (by omega)⟩
    (fun m hm marked ⟨hP, hmarked⟩ => ?_) fun marked ⟨hP, hmarked⟩ => ?_
  · have hlt := ring_lt (Nat.two_pow_pos N) (hash key % 2 ^ N) m
    unfold placeBody
    split
    · next h0 =>
      have habsent := h.absent_of_unused hm hP h0
      cases marked with
      | some r => exact ⟨habsent, hmarked⟩
      | none => exact ⟨habsent, h0, hP.reach hm⟩
    · next h1 =>
      split_ifs with hkey
      · exact ⟨hlt, live_eq_some.mpr ⟨h1, hkey⟩⟩
      · refine ⟨hP.succ (by omega) fun hl => hkey (live_eq_some.mp hl).2, ?_⟩
        cases marked with
        | some r => exact hmarked
        | none =>
          intro j hj
          obtain hlt' | rfl := Nat.lt_succ_iff_lt_or_eq.mp hj
          exacts [hmarked j hlt', h1]
    · next h2 =>
      refine ⟨hP.succ (by omega) fun hl => by simp [h2] at hl, ?_⟩
      cases marked with
      | some r => exact hmarked
      | none => exact ⟨h2, hP.reach hm⟩
    · next h0 h1 h2 =>
      obtain hs | hs | hs := h.slot_cases (ring (2 ^ N) (hash key % 2 ^ N) m)
      exacts [(h0 hs).elim, (h1 hs).elim, (h2 hs).elim]
  · have habsent := h.absent_of_round hP
    cases marked with
    | some r => exact ⟨habsent, hmarked⟩
    | none =>
      refine ⟨habsent, fun j hj => ?_⟩
      obtain ⟨k, hk, rfl⟩ := exists_ring (h.home_lt key) hj
      exact hmarked k hk

omit [DecidableEq K] in
lemma KeyTable.findUnused_spec (h : KeyTable N hash flags keyAt) (key : K)
    (hfree : ∃ i < 2 ^ N, slot flags i = 0) :
    ∃ r, findUnused (2 ^ N) flags (hash key % 2 ^ N) = some r ∧ slot flags r = 0 ∧
      Reach (2 ^ N) (slot flags · ≠ 0) (hash key % 2 ^ N) r := by
  obtain ⟨i, hi, hslot⟩ := hfree
  refine scan_rule h.high (h.home_lt key)
    (fun m _ => ∀ j < m, slot flags (ring (2 ^ N) (hash key % 2 ^ N) j) ≠ 0)
    (fun x => ∃ r, (x.elim some fun _ => none) = some r ∧ slot flags r = 0 ∧
      Reach (2 ^ N) (slot flags · ≠ 0) (hash key % 2 ^ N) r)
    (fun j hj => absurd hj (by omega)) (fun m hm _ hP => ?_) fun _ hP => ?_
  · split_ifs with h0
    · exact ⟨_, rfl, h0, m, hm, rfl, hP⟩
    · intro j hj
      obtain hlt | rfl := Nat.lt_succ_iff_lt_or_eq.mp hj
      exacts [hP j hlt, h0]
  · obtain ⟨k, hk, rfl⟩ := exists_ring (h.home_lt key) hi
    exact absurd hslot (hP k hk)

end

/-! ## Changing one slot -/

section

variable {N : Nat} {hash : K → Nat} {flags : Flags} {keyAt keyAt' : Nat → K} {key : K} {r : Nat}

lemma KeyTable.empty (N : Nat) (hash : K → Nat) (keyAt : Nat → K) :
    KeyTable N hash (fun _ => 0#64) keyAt := by
  have hslot : ∀ i, slot (fun _ => 0#64) i = 0 := fun i => by
    simp [slot, Library.TwoBit.read, Library.TwoBit.field]
  exact ⟨fun i _ => hslot i, fun i => by simp [hslot], .empty fun i _ => by simp [live, hslot]⟩

lemma KeyTable.put (h : KeyTable N hash flags keyAt) {flags' : Flags}
    (habsent : ∀ j < 2 ^ N, live flags keyAt j ≠ some key)
    (hreach : Reach (2 ^ N) (slot flags · ≠ 0) (hash key % 2 ^ N) r)
    (hflags : ∀ i, slot flags' i = if i = r then 1 else slot flags i)
    (hkey : keyAt' r = key) (hkeys : ∀ i ≠ r, keyAt' i = keyAt i) :
    KeyTable N hash flags' keyAt' := by
  have hr := hreach.lt
  refine ⟨fun i hi => ?_, fun i => ?_, h.chained.insert hreach habsent ?_ ?_ ?_ ?_⟩
  · rw [hflags, if_neg (by omega)]
    exact h.high i hi
  · rw [hflags]
    split_ifs
    exacts [by norm_num, h.slot_le i]
  · simp [hflags, hkey]
  · intro i _ hi
    simp [live, hflags, hi, hkeys i hi]
  · intro i _ hi
    rw [hflags]
    split_ifs
    exacts [one_ne_zero, hi]
  · simp [hflags]

lemma KeyTable.mark (h : KeyTable N hash flags keyAt) (hr : r < 2 ^ N) (hslot : slot flags r = 1)
    (hkeys : ∀ i ≠ r, keyAt' i = keyAt i) : KeyTable N hash (toggle flags r) keyAt' := by
  have hflags : ∀ i, slot (toggle flags r) i = if i = r then 2 else slot flags i := fun i => by
    rw [slot_toggle, hslot]
    rfl
  refine ⟨fun i hi => ?_, fun i => ?_, h.chained.remove (fun i _ => ?_) fun i _ hi => ?_⟩
  · rw [hflags, if_neg (by omega)]
    exact h.high i hi
  · rw [hflags]
    split_ifs
    exacts [le_rfl, h.slot_le i]
  · by_cases hir : i = r
    · exact .inr (by simp [live, hflags, hir])
    · exact .inl (by simp [live, hflags, hir, hkeys i hir])
  · rw [hflags]
    split_ifs
    exacts [two_ne_zero, hi]

lemma KeyTable.congr (h : KeyTable N hash flags keyAt)
    (hkeys : ∀ i, slot flags i = 1 → keyAt' i = keyAt i) : KeyTable N hash flags keyAt' := by
  have hlive : live flags keyAt' = live flags keyAt := by
    funext i
    unfold live
    split_ifs with hi
    · rw [hkeys i hi]
    · rfl
  exact ⟨h.high, h.slot_le, hlive ▸ h.chained⟩

def occupied (N : Nat) (flags : Flags) : Nat := count (2 ^ N) (slot flags · = 1)

lemma occupied_put {flags' : Flags} (hr : r < 2 ^ N) (hslot : slot flags r ≠ 1)
    (hflags : ∀ i, slot flags' i = if i = r then 1 else slot flags i) :
    occupied N flags' = occupied N flags + 1 :=
  count_insert hr hslot (by simp [hflags]) fun i _ hi => by simp [hflags, hi]

lemma occupied_mark (hr : r < 2 ^ N) (hslot : slot flags r = 1) :
    occupied N flags = occupied N (toggle flags r) + 1 :=
  count_insert hr (by simp [slot_toggle, hslot]) hslot fun i _ hi => by simp [slot_toggle, hi]

end

end QubicCore.Qpi
