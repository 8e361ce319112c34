import QubicCore.Qpi.KeyTable

/-!
# Rebuilding a table without the slots marked for removal

`cleanup` walks the occupied slots of the old table, found word by word with bit tricks, and
inserts their entries into an empty table of the same size. The loop ends as soon as everything
was transferred.
-/

universe u

namespace QubicCore.Qpi

open Library.Probing Library.Cells Library.TwoBit List Function Library

variable (b : BitVec 64)

def tzcnt : Nat := ((List.range 64).find? (b.getLsbD ·)).getD 64

/-- `_lzcnt_u64` -/
def lzcnt : Nat := ((List.range 64).find? (b.getLsbD <| 63 - ·)).getD 64

variable (flags : BitVec 64)

/-- One bit for each occupied slot of a word, the upper one of its two. -/
def occupiedMask : BitVec 64 :=
  let maskBits := 0xAAAAAAAAAAAAAAAA#64 &&& flags <<< 1
  maskBits &&& (maskBits ^^^ (flags &&& 0xAAAAAAAAAAAAAAAA#64))

def groupSlots : List Nat :=
  let maskBits := occupiedMask flags
  let begin := tzcnt maskBits &&& 0xFE
  let offsetEnd := 64 - (lzcnt maskBits &&& 0xFE)
  (List.range ((offsetEnd - begin + 1) / 2)).filterMap fun j =>
    let offset := begin + 2 * j
    if maskBits >>> offset &&& 3#64 ≠ 0#64 then some (offset / 2) else none

/-- The occupied slots in the order in which `cleanup` meets them. -/
def occupiedSlots (L : Nat) (flags : Flags) : List Nat :=
  (List.range (if L / 32 = 0 then 1 else L / 32)).flatMap fun group =>
    (groupSlots (flags group)).map (32 * group + ·)

structure Buffers (E : Type u) where
  entries : Nat → E
  flags : Flags

section

variable {E : Type u} (L : Nat) (hash : E → Nat) (entries : Nat → E) (population : Nat)

/-- The loop over the occupied slots. There is no result if it ends without having transferred
everything. -/
def transfer : List Nat → Buffers E → Nat → Option (Buffers E)
  | [], _, _ => none
  | oldIndex :: rest, buffers, newPopulation =>
    match findUnused L buffers.flags (hash (entries oldIndex) % L) with
    | none => none
    | some newIndex =>
      let buffers : Buffers E :=
        ⟨update buffers.entries newIndex (entries oldIndex), occupy buffers.flags newIndex⟩
      if newPopulation + 1 = population then some buffers
      else transfer rest buffers (newPopulation + 1)

end

/-! ## The occupied slots -/

lemma getLsbD_alternating {b : Nat} (hb : b < 64) :
    (0xAAAAAAAAAAAAAAAA#64).getLsbD b = decide (b % 2 = 1) := by
  have hall : ∀ b < 64, (0xAAAAAAAAAAAAAAAA#64).getLsbD b = decide (b % 2 = 1) := by decide
  exact hall b hb

lemma getLsbD_occupiedMask {k : Nat} (hk : k < 32) :
    (occupiedMask flags).getLsbD (2 * k) = false ∧
      (occupiedMask flags).getLsbD (2 * k + 1) = decide (field flags k = 1) := by
  have heven := getLsbD_alternating (b := 2 * k) (by omega)
  have hodd := getLsbD_alternating (b := 2 * k + 1) (by omega)
  have hbits := field_eq_bits flags (s := k) (by omega)
  simp only [occupiedMask, BitVec.getLsbD_and, BitVec.getLsbD_xor, BitVec.getLsbD_shiftLeft, heven,
    hodd]
  constructor
  · simp
  · simp only [show 2 * k + 1 < 64 by omega, Nat.add_sub_cancel, decide_true, Bool.true_and,
      show (2 * k + 1) % 2 = 1 by omega, hbits]
    cases flags.getLsbD (2 * k) <;> cases flags.getLsbD (2 * k + 1) <;> simp

lemma tzcnt_le {b : BitVec 64} {i : Nat} (hi : i < 64) (hb : b.getLsbD i) : tzcnt b ≤ i := by
  unfold tzcnt
  cases hf : (List.range 64).find? (b.getLsbD ·) with
  | none => simpa [hb] using List.find?_eq_none.mp hf i (mem_range.mpr hi)
  | some j =>
    by_contra hlt
    simpa [hb] using (List.find?_range_eq_some.mp hf).2.2 i (by simpa using hlt)

lemma lzcnt_le {b : BitVec 64} {i : Nat} (hi : i < 64) (hb : b.getLsbD i) : lzcnt b ≤ 63 - i := by
  unfold lzcnt
  have hb' : b.getLsbD (63 - (63 - i)) := by rwa [show 63 - (63 - i) = i by omega]
  cases hf : (List.range 64).find? (b.getLsbD <| 63 - ·) with
  | none => simpa [hb'] using List.find?_eq_none.mp hf (63 - i) (mem_range.mpr (by omega))
  | some j =>
    by_contra hlt
    simpa [hb'] using (List.find?_range_eq_some.mp hf).2.2 (63 - i) (by simpa using hlt)

lemma tzcnt_le_64 : tzcnt b ≤ 64 := by
  unfold tzcnt
  cases hf : (List.range 64).find? (b.getLsbD ·) with
  | none => simp
  | some j => simpa using (mem_range.mp (mem_of_find?_eq_some hf)).le

lemma lzcnt_le_64 : lzcnt b ≤ 64 := by
  unfold lzcnt
  cases hf : (List.range 64).find? (b.getLsbD <| 63 - ·) with
  | none => simp
  | some j => simpa using (mem_range.mp (mem_of_find?_eq_some hf)).le

lemma and_fe {x : Nat} (hx : x ≤ 64) : x &&& 0xFE = 2 * (x / 2) := by
  have hall : ∀ x < 65, x &&& 0xFE = 2 * (x / 2) := by decide
  exact hall x (by omega)

lemma filter_range_interval {n a m : Nat} {p : Nat → Bool}
    (hp : ∀ k < n, p k → a ≤ k ∧ k < a + m) (hm : m = 0 ∨ a + m ≤ n) :
    (List.range n).filter p = ((List.range m).map (a + ·)).filter p := by
  obtain rfl | hm := hm
  · simp only [range_zero, map_nil, filter_nil, filter_eq_nil_iff, mem_range]
    intro k hk hpk
    have := hp k hk hpk
    omega
  · obtain ⟨c, rfl⟩ := Nat.exists_eq_add_of_le hm
    have hlow : (List.range a).filter p = [] := by
      simp only [filter_eq_nil_iff, mem_range]
      intro k hk hpk
      have := hp k (by omega) hpk
      omega
    have hhigh : ((List.range c).map (a + m + ·)).filter p = [] := by
      simp only [filter_eq_nil_iff, mem_map, mem_range]
      rintro k ⟨j, hj, rfl⟩ hpk
      have := hp _ (by omega) hpk
      omega
    rw [range_add, range_add, filter_append, filter_append, hlow, hhigh,
      nil_append, append_nil]

lemma mask_ne_zero_iff {k : Nat} (hk : k < 32) :
    occupiedMask flags >>> (2 * k) &&& 3#64 ≠ 0#64 ↔ field flags k = 1 := by
  obtain ⟨heven, hodd⟩ := getLsbD_occupiedMask flags hk
  have hbits := field_eq_bits (occupiedMask flags) (s := k) (by omega)
  rw [heven, hodd] at hbits
  rw [ne_eq, ← BitVec.toNat_inj, ← field.eq_def, hbits]
  by_cases h : field flags k = 1 <;> simp [h]

lemma groupSlots_eq : groupSlots flags = (List.range 32).filter (field flags · = 1) := by
  have htz := tzcnt_le_64 (occupiedMask flags)
  have hlz := lzcnt_le_64 (occupiedMask flags)
  have hbound : ∀ k < 32, decide (field flags k = 1) →
      tzcnt (occupiedMask flags) ≤ 2 * k + 1 ∧ lzcnt (occupiedMask flags) ≤ 63 - (2 * k + 1) := by
    intro k hk hf
    have hbit := (getLsbD_occupiedMask flags hk).2.trans hf
    exact ⟨tzcnt_le (by omega) hbit, lzcnt_le (by omega) hbit⟩
  simp only [groupSlots, and_fe htz, and_fe hlz]
  generalize tzcnt (occupiedMask flags) = tz at *
  generalize lzcnt (occupiedMask flags) = lz at *
  rw [show (64 - 2 * (lz / 2) - 2 * (tz / 2) + 1) / 2 = 32 - lz / 2 - tz / 2 by omega,
    filter_range_interval (a := tz / 2) (m := 32 - lz / 2 - tz / 2)
      (fun k hk hf => by have := hbound k hk hf; omega) (by omega),
    ← filterMap_eq_filter, filterMap_map]
  refine filterMap_congr fun j hj => ?_
  have hj' := mem_range.mp hj
  have hk : tz / 2 + j < 32 := by omega
  rw [← Nat.mul_add, Nat.mul_div_cancel_left _ (by norm_num)]
  simp only [mask_ne_zero_iff flags hk, comp_apply, Option.guard, decide_eq_true_eq]

lemma occupiedSlots_eq {N : Nat} {flags : Flags} (hhigh : ∀ i, 2 ^ N ≤ i → slot flags i = 0) :
    occupiedSlots (2 ^ N) flags = (List.range (2 ^ N)).filter (slot flags · = 1) := by
  have hgroup : ∀ g, (groupSlots (flags g)).map (32 * g + ·) =
      ((List.range 32).map (32 * g + ·)).filter (slot flags · = 1) := by
    intro g
    rw [groupSlots_eq, filter_map]
    refine congrArg _ (filter_congr fun k hk => ?_)
    have hk' := mem_range.mp hk
    rw [comp_apply, slot, TwoBit.read, show (32 * g + k) / 32 = g by omega,
      show (32 * g + k) % 32 = k by omega]
  have hgroups : ∀ m, (List.range m).flatMap (fun g => (groupSlots (flags g)).map (32 * g + ·)) =
      (List.range (32 * m)).filter (slot flags · = 1) := by
    intro m
    induction m with
    | zero => simp
    | succ m ih =>
      rw [range_succ, flatMap_append, ih, Nat.mul_succ, range_add,
        filter_append, ← hgroup m]
      simp
  unfold occupiedSlots
  obtain ⟨hle, -, -⟩ | ⟨m, hm, hL, -⟩ := two_pow_cases N
  · have hone : (if 2 ^ N / 32 = 0 then 1 else 2 ^ N / 32) = 1 := by
      have := Nat.two_pow_pos N
      split_ifs
      · rfl
      · omega
    rw [hone, hgroups]
    refine (filter_range_interval (a := 0) (m := 2 ^ N) (fun k hk hf => ?_)
      (.inr (by omega))).trans ?_
    · refine ⟨Nat.zero_le k, ?_⟩
      by_contra hge
      have := hhigh k (by omega)
      simp [this] at hf
    · simp
  · rw [hL, Nat.mul_div_cancel_left _ (by norm_num), if_neg (by omega), hgroups]

/-! ## The transfer -/

section

variable {K E : Type u} {N : Nat} {hash : K → Nat} {keyOf : E → K} {entries : Nat → E}

/-- The buffers hold the entries of the old slots `o` in the new slots `i`, for `(o, i)` in
`places`, and nothing else. -/
structure Filled (N : Nat) (hash : K → Nat) (keyOf : E → K) (entries : Nat → E)
    (buffers : Buffers E) (places : List (Nat × Nat)) : Prop where
  table : KeyTable N hash buffers.flags (fun i => keyOf (buffers.entries i))
  occupied_iff : ∀ i, slot buffers.flags i = 1 ↔ ∃ o, (o, i) ∈ places
  unmarked : ∀ i, slot buffers.flags i ≠ 2
  entry : ∀ o i, (o, i) ∈ places → buffers.entries i = entries o
  count : occupied N buffers.flags = places.length

lemma Filled.empty (N : Nat) (hash : K → Nat) (keyOf : E → K) (entries zero : Nat → E) :
    Filled N hash keyOf entries ⟨zero, fun _ => 0#64⟩ [] := by
  have hslot : ∀ i, slot (fun _ => 0#64) i = 0 := fun i => by
    simp [slot, TwoBit.read, field]
  exact ⟨.empty _ _ _, by simp [hslot], by simp [hslot], by simp, by
    simp [occupied, Cells.count, hslot]⟩

lemma Filled.insert {buffers : Buffers E} {places : List (Nat × Nat)} {o : Nat}
    (h : Filled N hash keyOf entries buffers places) (hroom : places.length < 2 ^ N)
    (hnew : ∀ q ∈ places, keyOf (entries q.1) ≠ keyOf (entries o)) :
    ∃ i, findUnused (2 ^ N) buffers.flags (hash (keyOf (entries o)) % 2 ^ N) = some i ∧
      Filled N hash keyOf entries
        ⟨update buffers.entries i (entries o), occupy buffers.flags i⟩
        (places ++ [(o, i)]) := by
  obtain ⟨f, hf, hslot⟩ := exists_not_of_count_lt (h.count.trans_lt hroom)
  have hfree : slot buffers.flags f = 0 := by
    obtain h0 | h1 | h2 := h.table.slot_cases f
    exacts [h0, absurd h1 hslot, absurd h2 (h.unmarked f)]
  obtain ⟨i, hi, hi0, hreach⟩ := h.table.findUnused_spec (keyOf (entries o)) ⟨f, hf, hfree⟩
  have hput := slot_occupy hi0
  have hne : ∀ o' j, (o', j) ∈ places → j ≠ i := by
    rintro o' j hmem rfl
    have := (h.occupied_iff j).mpr ⟨o', hmem⟩
    omega
  refine ⟨i, hi, h.table.put ?_ hreach hput (by simp) (fun j hj => by simp [hj]), fun j => ?_,
    fun j => ?_, fun o' j hmem => ?_, ?_⟩
  · intro j _ hlive
    obtain ⟨hj, hkey⟩ := live_eq_some.mp hlive
    obtain ⟨o', hmem⟩ := (h.occupied_iff j).mp hj
    rw [h.entry o' j hmem] at hkey
    exact hnew _ hmem hkey
  · rw [hput]
    by_cases hji : j = i
    · simp [hji]
    · simp [hji, h.occupied_iff j]
  · rw [hput]
    split_ifs
    exacts [by norm_num, h.unmarked j]
  · obtain hmem | hmem := mem_append.mp hmem
    · simpa [hne o' j hmem] using h.entry o' j hmem
    · obtain ⟨rfl, rfl⟩ : o' = o ∧ j = i := by simpa using hmem
      simp
  · rw [occupied_put hreach.lt (by omega) hput, h.count]
    simp

/-- Everything is transferred: the loop stops at its last entry. -/
lemma transfer_spec {population newPopulation : Nat} {slots : List Nat} {buffers : Buffers E}
    {places : List (Nat × Nat)} (hfilled : Filled N hash keyOf entries buffers places)
    (hkeys : ((places.map Prod.fst ++ slots).map (keyOf ∘ entries)).Nodup)
    (hroom : places.length + slots.length ≤ 2 ^ N)
    (hsum : newPopulation + slots.length = population) (hne : slots ≠ []) :
    ∃ buffers' places',
      transfer (2 ^ N) (hash ∘ keyOf) entries population slots buffers newPopulation =
        some buffers' ∧
      places'.map Prod.fst = places.map Prod.fst ++ slots ∧
      Filled N hash keyOf entries buffers' places' := by
  induction slots generalizing buffers places newPopulation with
  | nil => exact absurd rfl hne
  | cons o rest ih =>
    have hnew : ∀ q ∈ places, keyOf (entries q.1) ≠ keyOf (entries o) := by
      intro q hq he
      rw [map_append, nodup_append] at hkeys
      exact hkeys.2.2 _ (mem_map.mpr ⟨q.1, mem_map_of_mem hq, he⟩) _
        (mem_map_of_mem mem_cons_self) rfl
    rw [length_cons] at hroom hsum
    obtain ⟨i, hi, hfilled'⟩ := hfilled.insert (by omega) hnew
    simp only [transfer, comp_apply, hi]
    have hfst : (places ++ [(o, i)]).map Prod.fst ++ rest = places.map Prod.fst ++ o :: rest := by
      simp
    obtain rfl | hrest := eq_or_ne rest []
    · rw [if_pos (by simpa using hsum)]
      exact ⟨_, _, rfl, by simp, hfilled'⟩
    · -- entries are left
      have hpos := length_pos_of_ne_nil hrest
      rw [if_neg (by omega), ← hfst]
      exact ih hfilled' (hfst ▸ hkeys) (by simp; omega) (by omega) hrest

end

end QubicCore.Qpi
