import QubicCore.Qpi.Cleanup

/-!
# The hash table behind `HashMap` and `HashSet`

The two classes have the same functions, one with key-value pairs and one with keys as entries.
They are given here once for entries of a type `E` with a key. `Represents` relates a table to
the finite partial map from keys to entries that it stores.
-/

universe u

namespace QubicCore.Qpi

open Library.Probing Library.Cells Function Finset

structure HashTable (E : Type u) where
  entries : Nat → E
  occupationFlags : Flags
  (population markRemovalCounter : Nat)

namespace HashTable

variable {K E : Type u}

/-- Memory of zero bytes; `default` is an entry of zero bytes. -/
def reset [Inhabited E] : HashTable E := ⟨fun _ => default, fun _ => 0#64, 0, 0⟩

section

variable [DecidableEq K] [Inhabited E] (L : Nat) (hash : K → Nat) (keyOf : E → K) (t : HashTable E)

def getElementIndex (key : K) : Option Nat :=
  lookup L t.occupationFlags (fun i => keyOf (t.entries i)) (hash key % L) key

/-- `set` and `add`: a key that is there has its entry changed by `overwrite`. -/
def insert (e : E) (overwrite : E → E) : Option Nat × HashTable E :=
  if t.population < L then
    match findPlace L t.occupationFlags (fun i => keyOf (t.entries i)) (hash (keyOf e) % L)
      (keyOf e) with
    | .found index =>
      (some index,
        { t with entries := update t.entries index (overwrite (t.entries index)) })
    | .unused index =>
      (some index,
        { t with
          entries := update t.entries index e
          occupationFlags := occupy t.occupationFlags index
          population := t.population + 1 })
    | .reuse index =>
      (some index,
        { t with
          entries := update t.entries index e
          occupationFlags := toggle t.occupationFlags index
          population := t.population + 1 })
    | .none => (none, t)
  else
    match getElementIndex L hash keyOf t (keyOf e) with
    | some index =>
      (some index,
        { t with entries := update t.entries index (overwrite (t.entries index)) })
    | none => (none, t)

/-- The flags of one slot, `elementIndex` being masked by the caller. -/
def isOccupied (index : Nat) : Bool :=
  (getEncodedOccupationFlags L t.occupationFlags index &&& 3#64).toNat = 1

/-- `elementIndex & (L - 1)` of a signed index. -/
def maskIndex (elementIndex : Int) : Nat := (elementIndex % L).toNat

def isEmptySlot (elementIndex : Int) : Bool := !isOccupied L t (maskIndex L elementIndex)

def removeByIndex (elementIdx : Int) : HashTable E :=
  let index := maskIndex L elementIdx
  if isOccupied L t index then
    { entries := update t.entries index default
      occupationFlags := toggle t.occupationFlags index
      population := t.population - 1
      markRemovalCounter := (t.markRemovalCounter + 1) % 2 ^ 64 }
  else t

def removeByKey (key : K) : Option Nat × HashTable E :=
  match getElementIndex L hash keyOf t key with
  | none => (none, t)
  | some elementIndex => (some elementIndex, removeByIndex L t elementIndex)

def cleanup : HashTable E :=
  if t.markRemovalCounter = 0 then t
  else if t.population = 0 then reset
  else
    match transfer L (hash ∘ keyOf) t.entries t.population (occupiedSlots L t.occupationFlags)
      ⟨fun _ => default, fun _ => 0#64⟩ 0 with
    | some buffers =>
      { t with
        entries := buffers.entries
        occupationFlags := buffers.flags
        markRemovalCounter := 0 }
    | none => t

def needsCleanup (removalThresholdPercent : Nat) : Bool :=
  t.markRemovalCounter > removalThresholdPercent * L % 2 ^ 64 / 100

def cleanupIfNeeded (removalThresholdPercent : Nat) : HashTable E :=
  if needsCleanup L t removalThresholdPercent then cleanup L hash keyOf t else t

end

/-- The table stores the partial map `A` from keys to entries. -/
structure Represents (N : Nat) (hash : K → Nat) (keyOf : E → K) (t : HashTable E)
    (A : K → Option E) : Prop where
  table : KeyTable N hash t.occupationFlags fun i => keyOf (t.entries i)
  population : t.population = occupied N t.occupationFlags
  content : ∀ k e, A k = some e ↔
    keyOf e = k ∧ ∃ i < 2 ^ N, slot t.occupationFlags i = 1 ∧ t.entries i = e

section

variable {N : Nat} {hash : K → Nat} {keyOf : E → K} {t : HashTable E} {A : K → Option E} {i : Nat}
  {key : K}

section

variable (h : Represents N hash keyOf t A)
include h

lemma Represents.entry (hi : i < 2 ^ N)
    (hslot : slot t.occupationFlags i = 1) : A (keyOf (t.entries i)) = some (t.entries i) :=
  (h.content _ _).mpr ⟨rfl, i, hi, hslot, rfl⟩

lemma Represents.eq_none_iff :
    A key = none ↔
      ∀ i < 2 ^ N, live t.occupationFlags (fun i => keyOf (t.entries i)) i ≠ some key := by
  constructor
  · intro hnone i hi hlive
    obtain ⟨hslot, rfl⟩ := live_eq_some.mp hlive
    simpa [hnone] using h.entry hi hslot
  · intro habsent
    by_contra hsome
    obtain ⟨e, he⟩ := Option.ne_none_iff_exists'.mp hsome
    obtain ⟨hkey, i, hi, hslot, rfl⟩ := (h.content _ _).mp he
    exact habsent i hi (live_eq_some.mpr ⟨hslot, hkey⟩)

lemma Represents.getElementIndex_eq_some [DecidableEq K] :
    getElementIndex (2 ^ N) hash keyOf t key = some i ↔
      i < 2 ^ N ∧ slot t.occupationFlags i = 1 ∧ keyOf (t.entries i) = key :=
  h.table.lookup_eq_some_iff.trans (by rw [live_eq_some])

lemma Represents.getElementIndex_eq_none [DecidableEq K] :
    getElementIndex (2 ^ N) hash keyOf t key = none ↔ A key = none := by
  rw [h.eq_none_iff, Option.eq_none_iff_forall_ne_some]
  refine ⟨fun hnone i hi hlive => hnone i (h.table.lookup_eq_some_iff.mpr ⟨hi, hlive⟩),
    fun habsent i hi => ?_⟩
  obtain ⟨hlt, hlive⟩ := h.table.lookup_eq_some_iff.mp hi
  exact habsent i hlt hlive

/-- A lookup leads to the stored entry. -/
lemma Represents.getElementIndex_map [DecidableEq K] (key : K) :
    (getElementIndex (2 ^ N) hash keyOf t key).map t.entries = A key := by
  cases hi : getElementIndex (2 ^ N) hash keyOf t key with
  | none => exact (h.getElementIndex_eq_none.mp hi).symm
  | some i =>
    obtain ⟨hlt, hslot, rfl⟩ := h.getElementIndex_eq_some.mp hi
    exact (h.entry hlt hslot).symm

omit h in
lemma isOccupied_iff (hhigh : ∀ i, 2 ^ N ≤ i → slot t.occupationFlags i = 0) (hi : i < 2 ^ N) :
    isOccupied (2 ^ N) t i ↔ slot t.occupationFlags i = 1 := by
  have hpos : 0 < nEncodedFlags (2 ^ N) := by
    obtain ⟨_, hn, _⟩ | ⟨_, _, _, hn⟩ := two_pow_cases N
    all_goals
      have := Nat.two_pow_pos N
      omega
  have hfield := field_getEncodedOccupationFlags hhigh hi hpos
  rw [ring_zero hi] at hfield
  simp only [isOccupied, decide_eq_true_eq, ← hfield, Library.TwoBit.field, Nat.mul_zero,
    BitVec.ushiftRight_zero]

lemma Represents.card_keys {keys : Finset K}
    (hkeys : ∀ k, k ∈ keys ↔ A k ≠ none) : keys.card = t.population := by
  rw [h.population, occupied, count]
  refine (card_nbij (fun i => keyOf (t.entries i)) ?_ ?_ ?_).symm
  · intro i hi
    obtain ⟨hlt, hslot⟩ := mem_filter.mp hi
    refine (hkeys _).mpr ?_
    rw [h.entry (mem_range.mp hlt) hslot]
    exact Option.some_ne_none _
  · intro i hi j hj he
    obtain ⟨hi', hi1⟩ := mem_filter.mp hi
    obtain ⟨hj', hj1⟩ := mem_filter.mp hj
    exact h.table.chained.unique (mem_range.mp hi') (mem_range.mp hj')
      (live_eq_some.mpr ⟨hi1, rfl⟩) (live_eq_some.mpr ⟨hj1, he.symm⟩)
  · intro k hk
    obtain ⟨e, he⟩ := Option.ne_none_iff_exists'.mp ((hkeys k).mp hk)
    obtain ⟨hkey, i, hi, hslot, rfl⟩ := (h.content _ _).mp he
    exact ⟨i, mem_filter.mpr ⟨mem_range.mpr hi, hslot⟩, hkey⟩

end

end

/-! ## The operations on what is stored -/

section

variable {N : Nat} {hash : K → Nat} {keyOf : E → K} {t : HashTable E} {A : K → Option E}
  {r : Nat}

lemma Represents.reset [Inhabited E] (N : Nat) (hash : K → Nat) (keyOf : E → K) :
    Represents N hash keyOf HashTable.reset fun _ => none := by
  have hslot : ∀ i, slot (fun _ => 0#64) i = 0 := fun i => by
    simp [slot, Library.TwoBit.read, Library.TwoBit.field]
  exact ⟨.empty _ _ _, by simp [HashTable.reset, occupied, count, hslot],
    by simp [HashTable.reset, hslot]⟩

variable [DecidableEq K]

section

variable (h : Represents N hash keyOf t A)
include h

lemma Represents.put {e : E} {flags' : Flags}
    (hnone : A (keyOf e) = none) (hslot : slot t.occupationFlags r ≠ 1)
    (hreach : Reach (2 ^ N) (slot t.occupationFlags · ≠ 0) (hash (keyOf e) % 2 ^ N) r)
    (hflags : ∀ i, slot flags' i = if i = r then 1 else slot t.occupationFlags i) :
    Represents N hash keyOf { t with
        entries := update t.entries r e
        occupationFlags := flags'
        population := t.population + 1 }
      (update A (keyOf e) (some e)) := by
  have hr := hreach.lt
  refine ⟨h.table.put (h.eq_none_iff.mp hnone) hreach hflags (by simp)
    (fun i hi => by simp [hi]), ?_, fun k x => ?_⟩
  · rw [h.population]
    exact (occupied_put hr hslot hflags).symm
  · by_cases hk : k = keyOf e
    · subst hk
      simp only [update_self, Option.some.injEq]
      refine ⟨fun he => he ▸ ⟨rfl, r, hr, by simp [hflags], by simp⟩, ?_⟩
      rintro ⟨hkey, i, hi, hi1, rfl⟩
      by_cases hir : i = r
      · simp [hir]
      · rw [hflags, if_neg hir] at hi1
        simp only [update_of_ne hir] at hkey
        have := h.entry hi hi1
        rw [hkey, hnone] at this
        cases this
    · rw [update_of_ne hk, h.content]
      refine and_congr_right fun hkey => exists_congr fun i => and_congr_right fun hi => ?_
      by_cases hir : i = r
      · subst hir
        simp only [hslot, false_and, update_self, false_iff, not_and]
        rintro - rfl
        exact hk hkey.symm
      · simp [hflags, hir]

lemma Represents.overwrite (hr : r < 2 ^ N) {x : E}
    (hslot : slot t.occupationFlags r = 1) (hx : keyOf x = keyOf (t.entries r)) :
    Represents N hash keyOf { t with entries := update t.entries r x }
      (update A (keyOf x) (some x)) := by
  have hkeys : ∀ i, keyOf (update t.entries r x i) = keyOf (t.entries i) := fun i => by
    by_cases hir : i = r <;> simp [hir, hx]
  refine ⟨h.table.congr fun i _ => hkeys i, h.population, fun k y => ?_⟩
  by_cases hk : k = keyOf x
  · subst hk
    simp only [update_self, Option.some.injEq]
    refine ⟨fun he => he ▸ ⟨rfl, r, hr, hslot, by simp⟩, ?_⟩
    rintro ⟨hkey, i, hi, hi1, rfl⟩
    obtain rfl : i = r := by
      refine h.table.chained.unique hi hr (live_eq_some.mpr ⟨hi1, rfl⟩)
        (live_eq_some.mpr ⟨hslot, ?_⟩)
      rw [← hx, ← hkey, hkeys]
    simp
  · rw [update_of_ne hk, h.content]
    refine and_congr_right fun hkey => exists_congr fun i => and_congr_right fun hi =>
      and_congr_right fun hi1 => ?_
    by_cases hir : i = r
    · subst hir
      simp only [update_self]
      exact iff_of_false (fun he => hk (by rw [hx, he, hkey])) fun he => hk (by rw [he, hkey])
    · simp only [update_of_ne hir]

lemma Represents.mark (hr : r < 2 ^ N)
    (hslot : slot t.occupationFlags r = 1) (zero : E) (counter : Nat) :
    Represents N hash keyOf
      { entries := update t.entries r zero
        occupationFlags := toggle t.occupationFlags r
        population := t.population - 1
        markRemovalCounter := counter }
      (update A (keyOf (t.entries r)) none) := by
  have hflags : ∀ i, slot (toggle t.occupationFlags r) i =
      if i = r then 2 else slot t.occupationFlags i := fun i => by
    rw [slot_toggle, hslot]
    rfl
  refine ⟨h.table.mark hr hslot fun i hi => by simp [hi], ?_, fun k x => ?_⟩
  · rw [h.population, occupied_mark hr hslot, Nat.add_sub_cancel]
  · by_cases hk : k = keyOf (t.entries r)
    · subst hk
      simp only [update_self, reduceCtorEq, false_iff, not_and, not_exists]
      intro hkey i hi hi1 he
      rw [hflags] at hi1
      split_ifs at hi1 with hir
      · omega
      · rw [update_of_ne hir] at he
        subst he
        exact hir (h.table.chained.unique hi hr (live_eq_some.mpr ⟨hi1, rfl⟩)
          (live_eq_some.mpr ⟨hslot, hkey.symm⟩))
    · rw [update_of_ne hk, h.content]
      refine and_congr_right fun hkey => exists_congr fun i => and_congr_right fun hi => ?_
      by_cases hir : i = r
      · subst hir
        refine iff_of_false ?_ (by simp [hflags])
        rintro ⟨-, rfl⟩
        exact hk hkey.symm
      · simp [hflags, hir]

/-- `set` and `add` fail exactly for a new key in a full table. -/
lemma Represents.insert (e : E) (overwrite : E → E) (hover : ∀ x, keyOf (overwrite x) = keyOf x) :
    ((HashTable.insert (2 ^ N) hash keyOf t e overwrite).1 = none ↔
      A (keyOf e) = none ∧ t.population = 2 ^ N) ∧
    Represents N hash keyOf (HashTable.insert (2 ^ N) hash keyOf t e overwrite).2
      (if A (keyOf e) = none ∧ t.population = 2 ^ N then A
        else update A (keyOf e) (some ((A (keyOf e)).elim e overwrite))) := by
  -- an occupied slot with the key
  have hfound : ∀ index < 2 ^ N, slot t.occupationFlags index = 1 →
      keyOf (t.entries index) = keyOf e →
      Represents N hash keyOf
        { t with entries := update t.entries index (overwrite (t.entries index)) }
        (update A (keyOf e) (some ((A (keyOf e)).elim e overwrite))) ∧
      A (keyOf e) ≠ none := by
    intro index hlt hslot hkey
    have hentry := h.entry hlt hslot
    have hrep := h.overwrite hlt hslot (hover (t.entries index))
    rw [hkey] at hentry
    rw [hover, hkey] at hrep
    rw [hentry]
    exact ⟨hrep, Option.some_ne_none _⟩
  have hfull : t.population ≤ 2 ^ N := h.population ▸ count_le _ _
  unfold HashTable.insert
  split_ifs with hroom hnone hnone
  · omega
  · have hplace := h.table.findPlace_spec (keyOf e)
    split
    · next index hi =>
      rw [hi] at hplace
      obtain ⟨hslot, hkey⟩ := live_eq_some.mp hplace.2
      exact ⟨by simp [hnone], (hfound index hplace.1 hslot hkey).1⟩
    · next index hi =>
      rw [hi] at hplace
      obtain ⟨habsent, hslot, hreach⟩ := hplace
      have hA := h.eq_none_iff.mpr habsent
      rw [hA]
      exact ⟨by simp; omega, h.put hA (by omega) hreach (slot_occupy hslot)⟩
    · next index hi =>
      rw [hi] at hplace
      obtain ⟨habsent, hslot, hreach⟩ := hplace
      have hA := h.eq_none_iff.mpr habsent
      rw [hA]
      refine ⟨by simp; omega, h.put hA (by omega) hreach fun i => ?_⟩
      rw [slot_toggle, hslot]
      rfl
    · next hi =>
      -- fewer keys than slots: some slot is not occupied
      rw [hi] at hplace
      obtain ⟨i, hlt, hslot⟩ := exists_not_of_count_lt (h.population ▸ hroom)
      exact absurd (hplace.2 i hlt) hslot
  · rw [h.getElementIndex_eq_none.mpr hnone.1]
    exact ⟨by simp [hnone], h⟩
  · split
    · next index hi =>
      obtain ⟨hlt, hslot, hkey⟩ := h.getElementIndex_eq_some.mp hi
      exact ⟨by simp [hnone], (hfound index hlt hslot hkey).1⟩
    · next hi => exact absurd ⟨h.getElementIndex_eq_none.mp hi, by omega⟩ hnone

variable [Inhabited E]

omit h in
lemma maskIndex_lt (N : Nat) (elementIndex : Int) : maskIndex (2 ^ N) elementIndex < 2 ^ N := by
  have hpos : (0 : Int) < (2 ^ N : Nat) := by exact_mod_cast Nat.two_pow_pos N
  have := Int.emod_lt_of_pos elementIndex hpos
  unfold maskIndex
  omega

omit h in
lemma maskIndex_natCast {i : Nat} (hi : i < 2 ^ N) : maskIndex (2 ^ N) i = i := by
  unfold maskIndex
  rw [← Int.natCast_mod, Int.toNat_natCast, Nat.mod_eq_of_lt hi]

omit [DecidableEq K] [Inhabited E] in
lemma Represents.isEmptySlot_iff (elementIndex : Int) :
    isEmptySlot (2 ^ N) t elementIndex = false ↔
      slot t.occupationFlags (maskIndex (2 ^ N) elementIndex) = 1 := by
  rw [isEmptySlot, Bool.not_eq_false', isOccupied_iff h.table.high (maskIndex_lt N elementIndex)]

omit [DecidableEq K] [Inhabited E] in
lemma Represents.population_le : t.population ≤ 2 ^ N := h.population ▸ count_le _ _

omit [Inhabited E] in
/-- A lookup returns the slot that holds the key. -/
lemma Represents.getElementIndex_iff (key : K) (i : Nat) :
    getElementIndex (2 ^ N) hash keyOf t key = some i ↔
      i < 2 ^ N ∧ isEmptySlot (2 ^ N) t i = false ∧
        keyOf (t.entries (maskIndex (2 ^ N) i)) = key := by
  rw [h.getElementIndex_eq_some, h.isEmptySlot_iff]
  refine and_congr_right fun hi => ?_
  rw [maskIndex_natCast hi]

omit [DecidableEq K] [Inhabited E] in
lemma Represents.slot_unique {i j : Nat} (hi : i < 2 ^ N)
    (hj : j < 2 ^ N) (hi1 : isEmptySlot (2 ^ N) t i = false)
    (hj1 : isEmptySlot (2 ^ N) t j = false)
    (he : keyOf (t.entries (maskIndex (2 ^ N) i)) = keyOf (t.entries (maskIndex (2 ^ N) j))) :
    i = j := by
  rw [h.isEmptySlot_iff, maskIndex_natCast hi] at hi1
  rw [h.isEmptySlot_iff, maskIndex_natCast hj] at hj1
  rw [maskIndex_natCast hi, maskIndex_natCast hj] at he
  exact h.table.chained.unique hi hj (live_eq_some.mpr ⟨hi1, rfl⟩) (live_eq_some.mpr ⟨hj1, he.symm⟩)

lemma Represents.removeByIndex (elementIdx : Int) :
    Represents N hash keyOf (HashTable.removeByIndex (2 ^ N) t elementIdx)
      (if isEmptySlot (2 ^ N) t elementIdx then A
        else update A (keyOf (t.entries (maskIndex (2 ^ N) elementIdx))) none) := by
  have hlt := maskIndex_lt N elementIdx
  unfold HashTable.removeByIndex isEmptySlot
  by_cases hocc : isOccupied (2 ^ N) t (maskIndex (2 ^ N) elementIdx)
  · simp only [hocc, if_true, Bool.not_true, Bool.false_eq_true, if_false]
    exact h.mark hlt ((isOccupied_iff h.table.high hlt).mp hocc) _ _
  · simpa [hocc] using h

lemma Represents.removeByKey (key : K) :
    ((HashTable.removeByKey (2 ^ N) hash keyOf t key).1 = none ↔ A key = none) ∧
    Represents N hash keyOf (HashTable.removeByKey (2 ^ N) hash keyOf t key).2
      (update A key none) := by
  unfold HashTable.removeByKey
  split
  · next hi =>
    have hA := h.getElementIndex_eq_none.mp hi
    refine ⟨by simp [hA], ?_⟩
    rwa [← hA, update_eq_self]
  · next i hi =>
    obtain ⟨hlt, hslot, rfl⟩ := h.getElementIndex_eq_some.mp hi
    have hrem := h.removeByIndex (i : Int)
    have hempty : isEmptySlot (2 ^ N) t i = false := by
      rw [h.isEmptySlot_iff, maskIndex_natCast hlt, hslot]
    rw [hempty, maskIndex_natCast hlt] at hrem
    exact ⟨by simp [h.entry hlt hslot], hrem⟩

omit [DecidableEq K] in
/-- Rebuilding the table changes nothing of what it stores. -/
lemma Represents.cleanup : Represents N hash keyOf (HashTable.cleanup (2 ^ N) hash keyOf t) A := by
  unfold HashTable.cleanup
  split_ifs with hmark hpop
  · exact h
  · have hA : A = fun _ => none := by
      funext k
      refine h.eq_none_iff.mpr fun i hi hlive => ?_
      have hocc : 0 < occupied N t.occupationFlags :=
        card_pos.mpr ⟨i, mem_filter.mpr ⟨mem_range.mpr hi, (live_eq_some.mp hlive).1⟩⟩
      have := h.population
      omega
    rw [hA]
    exact Represents.reset N hash keyOf
  · set slots := occupiedSlots (2 ^ N) t.occupationFlags with hslots
    have heq := occupiedSlots_eq h.table.high
    have hmem : ∀ o, o ∈ slots ↔ o < 2 ^ N ∧ slot t.occupationFlags o = 1 := fun o => by
      rw [hslots, heq]
      simp
    have hlen : slots.length = t.population := by
      rw [h.population, hslots, heq]
      rfl
    have hnodup : slots.Nodup := by
      rw [hslots, heq]
      exact List.nodup_range.filter _
    have hkeys : ((([] : List (Nat × Nat)).map Prod.fst ++ slots).map
        (keyOf ∘ t.entries)).Nodup := by
      refine List.Nodup.map_on (fun i hi j hj he => ?_) hnodup
      obtain ⟨hi, hi1⟩ := (hmem i).mp hi
      obtain ⟨hj, hj1⟩ := (hmem j).mp hj
      exact h.table.chained.unique hi hj (live_eq_some.mpr ⟨hi1, rfl⟩)
        (live_eq_some.mpr ⟨hj1, he.symm⟩)
    have hroom : ([] : List (Nat × Nat)).length + slots.length ≤ 2 ^ N := by
      rw [List.length_nil, Nat.zero_add, hlen, h.population]
      exact count_le _ _
    have hne : slots ≠ [] := fun he => hpop (by rw [← hlen, he, List.length_nil])
    obtain ⟨buffers, places, htransfer, hfst, hfilled⟩ :=
      transfer_spec (Filled.empty N hash keyOf t.entries fun _ => default) hkeys hroom
        ((Nat.zero_add _).trans hlen) hne
    rw [htransfer]
    rw [List.map_nil, List.nil_append] at hfst
    refine ⟨hfilled.table, ?_, fun k e => ?_⟩
    · rw [hfilled.count, ← hlen, ← hfst, List.length_map]
    · rw [h.content]
      refine and_congr_right fun _ => ⟨?_, ?_⟩
      · rintro ⟨o, ho, ho1, rfl⟩
        have hplace : o ∈ places.map Prod.fst := hfst ▸ (hmem o).mpr ⟨ho, ho1⟩
        obtain ⟨⟨o', i⟩, hp, rfl⟩ := List.mem_map.mp hplace
        have hi1 := (hfilled.occupied_iff i).mpr ⟨o', hp⟩
        refine ⟨i, ?_, hi1, hfilled.entry o' i hp⟩
        by_contra hge
        have := hfilled.table.high i (by omega)
        omega
      · rintro ⟨i, -, hi1, rfl⟩
        obtain ⟨o, hp⟩ := (hfilled.occupied_iff i).mp hi1
        obtain ⟨ho, ho1⟩ := (hmem o).mp (hfst ▸ List.mem_map_of_mem hp)
        exact ⟨o, ho, ho1, (hfilled.entry o i hp).symm⟩

end

end

end HashTable

end QubicCore.Qpi
