import QubicCore.Spectrum.Operations

/-!
# Runs of the spectrum

A run is a list of calls from the empty spectrum. Beside the state it carries the keys that
should be found: a credit adds its key, and a reorganization, on its own or at the head of a
credit, drops the keys whose balance it finds to be zero. As long as the credits of the run add
up to less than `2^63`, no amount of a record ever wraps.
-/

namespace QubicCore.Spectrum

open Library.Probing Library.Cells Finset

variable {c amount : Int} {d r : Nat} {table : Nat → EntityRecord} {key : M256i} {s : Spectrum}
  {keys : Set M256i} {s' : Spectrum}

inductive Call where
  | increaseEnergy (tick : Nat) (publicKey : M256i) (amount : Int)
  | decreaseEnergy (tick : Nat) (index : Nat) (amount : Int)
  | reorganizeSpectrum

def Call.InTable (d : Nat) : Call → Prop
  | .decreaseEnergy _ index _ => index < 2 ^ d
  | _ => True

def Call.deposit : Call → Int
  | .increaseEnergy _ _ amount => max amount 0
  | _ => 0

lemma Call.deposit_nonneg (call : Call) : 0 ≤ call.deposit := by cases call <;> simp [Call.deposit]

def step (d : Nat) (k12 : KangarooTwelve) (s : Spectrum) : Call → Option Spectrum
  | .increaseEnergy tick publicKey amount => increaseEnergy d k12 tick s publicKey amount
  | .decreaseEnergy tick index amount => some (decreaseEnergy tick s index amount).2
  | .reorganizeSpectrum => reorganizeSpectrum d k12 s

/-- Some slot of `key` has no balance left. -/
def Spent (d : Nat) (table : Nat → EntityRecord) (key : M256i) : Prop :=
  ∃ i < 2 ^ d, (table i).publicKey = key ∧ (table i).balance = 0

def listed (d : Nat) (s : Spectrum) (keys : Set M256i) : Call → Set M256i
  | .increaseEnergy _ publicKey amount =>
    if publicKey = 0 ∨ amount < 0 then keys
    else if isCrowded d s then
      insert publicKey {key ∈ keys | ¬Spent d (burnDust d s.spectrum).table key}
    else insert publicKey keys
  | .decreaseEnergy .. => keys
  | .reorganizeSpectrum => {key ∈ keys | ¬Spent d s.spectrum key}

def run (d : Nat) (k12 : KangarooTwelve) (calls : List Call) : Option (Spectrum × Set M256i) :=
  calls.foldlM (fun st call => do
    let s ← step d k12 st.1 call
    return (s, listed d st.1 st.2 call)) (empty, ∅)

/-- Amounts of a record that never wrapped. -/
structure Bounded (c : Int) (e : EntityRecord) : Prop where
  outgoing_nonneg : 0 ≤ e.outgoingAmount
  outgoing_le : e.outgoingAmount ≤ e.incomingAmount
  incoming_le : e.incomingAmount ≤ c

lemma Bounded.balance_eq {e : EntityRecord} (h : Bounded c e) (hc : c < 2 ^ 63) :
    e.balance = e.incomingAmount - e.outgoingAmount := by
  have := h.outgoing_nonneg
  have := h.outgoing_le
  have := h.incoming_le
  exact sint64_eq (by omega) (by omega)

lemma Bounded.mono {c' : Int} {e : EntityRecord} (h : Bounded c e) (hc : c ≤ c') :
    Bounded c' e := { h with incoming_le := h.incoming_le.trans hc }

/-- What a run keeps: the invariant, amounts that never wrapped, and that the keys in use are
those in the table. -/
structure RunInv (d : Nat) (c : Int) (s : Spectrum) (keys : Set M256i) : Prop where
  inv : Inv d c s
  bounded : ∀ i < 2 ^ d, Bounded c (s.spectrum i)
  keys_iff : ∀ key ≠ 0, (key ∈ keys ↔ Present d s.spectrum key)
  keys_ne : ∀ key ∈ keys, key ≠ 0

lemma Rebuilt.present_iff {reorg : Nat → EntityRecord} (h : TableInv d table)
    (hr : Rebuilt d (2 ^ d) table reorg) (hkey : key ≠ 0) :
    Present d reorg key ↔ Present d table key ∧ ¬Spent d table key := by
  constructor
  · rintro ⟨i, hi, rfl⟩
    obtain ⟨j, hj, he, hb⟩ := hr.exists_source hi hkey
    refine ⟨⟨j, hj, by rw [he]⟩, ?_⟩
    rintro ⟨k, hk, hkk, hz⟩
    rw [← he] at hkk hkey
    exact hb (h.slot_unique hj hk hkey hkk ▸ hz)
  · rintro ⟨⟨j, hj, rfl⟩, hspent⟩
    obtain ⟨i, hi, he⟩ := hr.exists_target hj (fun hz => hspent ⟨j, hj, rfl, hz⟩) hkey
    exact ⟨i, hi, by rw [he]⟩

lemma BurnStep.present_iff {b : DustBurn} (h : BurnStep d table b) (key : M256i) :
    Present d b.table key ↔ Present d table key := by
  have hpk : ∀ i < 2 ^ d, (b.table i).publicKey = (table i).publicKey := by
    intro i hi
    obtain he | he := h.slot i hi <;> simp [he]
  exact exists_congr fun i => and_congr_right fun hi => by rw [hpk i hi]

lemma Withdrawal.present_iff (h : Withdrawal d s s' amount r) (key : M256i) :
    Present d s'.spectrum key ↔ Present d s.spectrum key := by
  have hpk : ∀ i, (s'.spectrum i).publicKey = (s.spectrum i).publicKey := by
    intro i
    by_cases hir : i = r
    · rw [hir, h.publicKey]
    · rw [h.other i hir]
  exact exists_congr fun i => and_congr_right fun _ => by rw [hpk i]

lemma Rebuilt.bounded {reorg : Nat → EntityRecord} (hr : Rebuilt d (2 ^ d) table reorg)
    (h : ∀ i < 2 ^ d, Bounded c (table i)) (hc : 0 ≤ c) :
    ∀ i < 2 ^ d, Bounded c (reorg i) := by
  intro i hi
  by_cases hz : (reorg i).publicKey = 0
  · rw [hr.free i hi hz]
    exact ⟨le_refl _, le_refl _, hc⟩
  · obtain ⟨j, hj, he, _⟩ := hr.exists_source hi hz
    exact he ▸ h j hj

lemma BurnStep.bounded {b : DustBurn} (hb : BurnStep d table b)
    (h : ∀ i < 2 ^ d, Bounded c (table i)) :
    ∀ i < 2 ^ d, Bounded c (b.table i) := by
  intro i hi
  have := h i hi
  obtain he | he := hb.slot i hi
  · rwa [he]
  · rw [he]
    exact ⟨this.outgoing_nonneg.trans this.outgoing_le, le_refl _, this.incoming_le⟩

lemma Deposit.bounded (hd : Deposit d s s' key amount r)
    (h : ∀ i < 2 ^ d, Bounded c (s.spectrum i)) (ha : 0 ≤ amount) (hc : c + amount < 2 ^ 63) :
    ∀ i < 2 ^ d, Bounded (c + amount) (s'.spectrum i) := by
  intro i hi
  obtain ⟨hout, hle, hin⟩ := h i hi
  by_cases hir : i = r
  · subst hir
    have hin' := hd.incomingAmount
    have hout' := hd.outgoingAmount
    rw [sint64_eq (by omega) (by omega)] at hin'
    exact ⟨by omega, by omega, by omega⟩
  · rw [hd.other i hir]
    exact (h i hi).mono (by omega)

lemma Withdrawal.bounded (hw : Withdrawal d s s' amount r)
    (h : ∀ i < 2 ^ d, Bounded c (s.spectrum i)) (ha : 0 ≤ amount)
    (hle : amount ≤ (s.spectrum r).balance) (hc : c < 2 ^ 63) :
    ∀ i < 2 ^ d, Bounded c (s'.spectrum i) := by
  intro i hi
  by_cases hir : i = r
  · subst hir
    rw [(h i hi).balance_eq hc] at hle
    obtain ⟨hout, _, hin⟩ := h i hi
    have hin' := hw.incomingAmount
    have hout' := hw.outgoingAmount
    rw [sint64_eq (by omega) (by omega)] at hout'
    exact ⟨by omega, by omega, by omega⟩
  · rw [hw.other i hir]
    exact h i hi

lemma RunInv.reorganize (h : RunInv d c s keys) (k12 : KangarooTwelve) (hc : c < 2 ^ 63) :
    ∃ s', reorganizeSpectrum d k12 s = some s' ∧
      RunInv d c s' {key ∈ keys | ¬Spent d s.spectrum key} := by
  obtain ⟨s', hs, hinv, hr, _, _⟩ := h.inv.reorganize k12 hc
  refine ⟨s', hs, hinv, hr.bounded h.bounded (h.inv.nonneg.trans h.inv.supply),
    fun key hkey => ?_, fun key hk => h.keys_ne key hk.1⟩
  rw [hr.present_iff h.inv.table hkey, Set.mem_ofPred_eq, h.keys_iff key hkey]

lemma RunInv.increase (h : RunInv d c s keys) (k12 : KangarooTwelve) (tick : Nat) (key : M256i)
    (amount : Int) (hc : Affordable d (c + max amount 0)) :
    ∃ s', increaseEnergy d k12 tick s key amount = some s' ∧
      RunInv d (c + max amount 0) s' (listed d s keys (.increaseEnergy tick key amount)) := by
  by_cases hskip : key = 0 ∨ amount < 0
  · refine ⟨s, ?_, ?_⟩
    · simp only [increaseEnergy]
      rw [if_neg (by simpa [imp_iff_not_or] using hskip)]
    · simp only [listed, if_pos hskip]
      exact { h with
        inv := h.inv.mono (by simp)
        bounded := fun i hi => (h.bounded i hi).mono (by simp) }
  · push Not at hskip
    obtain ⟨hkey, ha⟩ := hskip
    rw [max_eq_left ha] at hc ⊢
    obtain ⟨s₁, s', r, hroom, hs', h₁, hinv, hdep⟩ := h.inv.increaseEnergy k12 tick hkey ha hc
    have hmade : (∀ i < 2 ^ d, Bounded c (s₁.spectrum i)) ∧
        ∀ k ≠ 0, k ∈ listed d s keys (.increaseEnergy tick key amount) ↔
          k = key ∨ Present d s₁.spectrum k := by
      obtain ⟨s₂, hs₂, _, _, ⟨hcrowd, rfl⟩ | ⟨hcrowd, hr, _, _⟩⟩ :=
        h.inv.makeRoom k12 (hc.mono (by omega))
      · obtain rfl : s₁ = s₂ := by simpa [hs₂] using hroom.symm
        refine ⟨h.bounded, fun k hk => ?_⟩
        simp [listed, hkey, not_lt.mpr ha, hcrowd, h.keys_iff k hk]
      · obtain rfl : s₁ = s₂ := by simpa [hs₂] using hroom.symm
        have hburn := burnDust_step h.inv.table
        refine ⟨hr.bounded (hburn.bounded h.bounded) (h.inv.nonneg.trans h.inv.supply),
          fun k hk => ?_⟩
        rw [hr.present_iff hburn.inv hk, hburn.present_iff k, ← h.keys_iff k hk]
        simp [listed, hkey, not_lt.mpr ha, hcrowd]
    obtain ⟨hbounded, hkeys⟩ := hmade
    refine ⟨s', hs', hinv, hdep.bounded hbounded ha hc.lt, fun k hk => ?_, fun k hk => ?_⟩
    · rw [hkeys k hk, hdep.present_iff hk]
    · rintro rfl
      simp only [listed, hkey, not_lt.mpr ha, or_self, if_false] at hk
      split_ifs at hk
      · simp only [Set.mem_insert_iff, Set.mem_ofPred_eq, hkey.symm, false_or] at hk
        exact h.keys_ne 0 hk.1 rfl
      · simp only [Set.mem_insert_iff, hkey.symm, false_or] at hk
        exact h.keys_ne 0 hk rfl

lemma RunInv.step (h : RunInv d c s keys) (k12 : KangarooTwelve) (call : Call)
    (hcall : call.InTable d) (hc : Affordable d (c + call.deposit)) :
    ∃ s', step d k12 s call = some s' ∧ RunInv d (c + call.deposit) s' (listed d s keys call) := by
  cases call with
  | increaseEnergy tick key amount => exact h.increase k12 tick key amount hc
  | decreaseEnergy tick index amount =>
    simp only [Call.deposit, add_zero] at hc ⊢
    obtain ⟨hinv, hcases⟩ := h.inv.decreaseEnergy tick hc.lt hcall amount
    refine ⟨_, rfl, ?_⟩
    split_ifs at hcases with hok
    · refine ⟨hinv, hcases.2.bounded h.bounded hok.1 hok.2 hc.lt, fun key hkey => ?_, h.keys_ne⟩
      rw [hcases.2.present_iff]
      exact h.keys_iff key hkey
    · rw [hcases]
      exact h
  | reorganizeSpectrum =>
    simp only [Call.deposit, add_zero] at hc ⊢
    exact h.reorganize k12 hc.lt

/-- A whole run, by induction over its calls. -/
lemma RunInv.foldlM (k12 : KangarooTwelve) (calls : List Call) (h : RunInv d c s keys)
    (hcalls : ∀ call ∈ calls, call.InTable d)
    (hc : Affordable d (c + (calls.map Call.deposit).sum)) :
    ∃ st : Spectrum × Set M256i, calls.foldlM (fun st call => do
        let s ← Spectrum.step d k12 st.1 call
        return (s, listed d st.1 st.2 call)) (s, keys) = some st ∧
      RunInv d (c + (calls.map Call.deposit).sum) st.1 st.2 := by
  induction calls generalizing c s keys with
  | nil => exact ⟨(s, keys), rfl, by simpa using h⟩
  | cons call calls ih =>
    simp only [List.map_cons, List.sum_cons, ← add_assoc] at hc ⊢
    have hpos : 0 ≤ (calls.map Call.deposit).sum :=
      List.sum_nonneg fun x hx => by
        obtain ⟨y, _, rfl⟩ := List.mem_map.mp hx
        exact y.deposit_nonneg
    obtain ⟨s', hs', h'⟩ := h.step k12 call (hcalls call (by simp)) (hc.mono (by omega))
    obtain ⟨st, hst, hinv⟩ := ih h' (fun x hx => hcalls x (by simp [hx])) hc
    exact ⟨st, by simpa [List.foldlM_cons, hs'] using hst, hinv⟩

/-- Every run whose credits stay below `2^63` ends, and keeps the invariant. -/
lemma run_spec (hd : 17 ≤ d) (k12 : KangarooTwelve) (calls : List Call)
    (hcalls : ∀ call ∈ calls, call.InTable d) (hc : (calls.map Call.deposit).sum < 2 ^ 63) :
    ∃ s keys, run d k12 calls = some (s, keys) ∧
      RunInv d ((calls.map Call.deposit).sum) s keys := by
  have hstart : RunInv d 0 empty ∅ :=
    ⟨Inv.empty d, fun _ _ => ⟨le_refl _, le_refl _, le_refl _⟩,
      fun key hkey => by simp [Present, empty, EntityRecord.zero, hkey.symm],
      fun _ hk => absurd hk (Set.notMem_empty _)⟩
  obtain ⟨⟨s, keys⟩, hrun, h⟩ := hstart.foldlM k12 calls hcalls
    (affordable_of_depth hd (by simpa using hc))
  exact ⟨s, keys, hrun, by simpa using h⟩

/-- The spectrum as its users see it: slots, counters and balances agree. -/
structure Consistent (d : Nat) (s : Spectrum) : Prop where
  unique : ∀ i < 2 ^ d, ∀ j < 2 ^ d, (s.spectrum i).publicKey ≠ 0 →
    (s.spectrum i).publicKey = (s.spectrum j).publicKey → i = j
  chain : ∀ i < 2 ^ d, (s.spectrum i).publicKey ≠ 0 →
    Reach (2 ^ d) (Occupied s.spectrum) (homeSlot d (s.spectrum i).publicKey) i
  numberOfEntities : s.numberOfEntities = count (2 ^ d) (Occupied s.spectrum)
  totalAmount : s.totalAmount = ∑ i ∈ range (2 ^ d),
    ((s.spectrum i).incomingAmount - (s.spectrum i).outgoingAmount)
  balance_nonneg : ∀ i < 2 ^ d, 0 ≤ energy s i

lemma RunInv.consistent (h : RunInv d c s keys) (hc : c < 2 ^ 63) : Consistent d s where
  unique _ hi _ hj hne he := h.inv.table.slot_unique hi hj hne he.symm
  chain _ hi hne := h.inv.table.chained.reach hi (slotKey_eq_some.mpr ⟨rfl, hne⟩)
  numberOfEntities := h.inv.numberOfEntities
  totalAmount := h.inv.totalAmount.trans
    (sum_congr rfl fun i hi => (h.bounded i (mem_range.mp hi)).balance_eq hc)
  balance_nonneg := h.inv.table.balance_nonneg

/-- Every run from the empty spectrum stays consistent. A key is found exactly when it was
credited and no reorganization since then found its balance to be zero. -/
theorem run_consistent {d : Nat} (hd : 17 ≤ d) (k12 : KangarooTwelve) (calls : List Call)
    (hcalls : ∀ call ∈ calls, call.InTable d) (hc : (calls.map Call.deposit).sum < 2 ^ 63) :
    ∃ s keys, run d k12 calls = some (s, keys) ∧ Consistent d s ∧
      ∀ key, (key ∈ keys → ∃ i < 2 ^ d, (s.spectrum i).publicKey = key ∧
          spectrumIndex d s key = some (i : Int)) ∧
        (key ∉ keys → spectrumIndex d s key = some (-1)) := by
  obtain ⟨s, keys, hrun, h⟩ := run_spec hd k12 calls hcalls hc
  refine ⟨s, keys, hrun, h.consistent hc, fun key => ⟨fun hk => ?_, fun hk => ?_⟩⟩
  · have hkey := h.keys_ne key hk
    obtain ⟨i, hi, rfl⟩ := (h.keys_iff key hkey).mp hk
    exact ⟨i, hi, rfl, h.inv.spectrumIndex_of_slot hi hkey⟩
  · obtain ⟨i, hi, hik, hkey, _⟩ | ⟨_, hidx⟩ := h.inv.spectrumIndex_cases key
    · exact absurd ((h.keys_iff key hkey).mpr ⟨i, hi, hik⟩) hk
    · exact hidx

def zeroHash : KangarooTwelve := ⟨fun _ => 0, fun _ _ => 0⟩

/-- An id whose home slot is 5. -/
def holder : M256i := ⟨5⟩

/-- One entity is credited, spends everything, and the table is reorganized. -/
def spentRun : List Call := [.increaseEnergy 1 holder 7, .decreaseEnergy 2 5 7, .reorganizeSpectrum]

theorem run_consistent_spentRun :
    ∃ s keys, run 24 zeroHash spentRun = some (s, keys) ∧ Consistent 24 s := by
  obtain ⟨s, keys, hrun, h, _⟩ := run_consistent (d := 24) (by norm_num) zeroHash spentRun
    (by simp [spentRun, Call.InTable]) (by decide)
  exact ⟨s, keys, hrun, h⟩

/-- Spending is enough for a reorganization to drop a key. -/
lemma spentRun_result (hd : 17 ≤ d) (hcredit : increaseEnergy d zeroHash 1 empty holder 7 =
    some (create 1 empty 5 holder 7)) :
    ∃ s keys, run d zeroHash spentRun = some (s, keys) ∧ s.dustBurns = [] ∧
      spectrumIndex d s holder = some (-1) := by
  have hkey : holder ≠ 0 := by decide
  have hlt : 5 < 2 ^ d := Nat.lt_of_lt_of_le (by norm_num) (Nat.pow_le_pow_right two_pos hd)
  have hafford : Affordable d (0 + 7) := affordable_of_depth hd (by norm_num)
  obtain ⟨_, s₁, _, _, hs₁, _, h₁, _⟩ :=
    (Inv.empty d).increaseEnergy zeroHash 1 hkey (by norm_num) hafford
  obtain rfl := Option.some.inj (hcredit.symm.trans hs₁)
  obtain ⟨h₂, _⟩ := h₁.decreaseEnergy 2 hafford.lt hlt 7
  obtain ⟨s₃, hs₃, h₃, hr, _, hburns⟩ := h₂.reorganize zeroHash hafford.lt
  have hspent : Spent d (decreaseEnergy 2 (create 1 empty 5 holder 7) 5 7).2.spectrum holder :=
    ⟨5, hlt, by decide, by decide⟩
  have hrun : ∃ keys, run d zeroHash spentRun = some (s₃, keys) := by
    simp [run, spentRun, step, hs₁, hs₃]
  obtain ⟨keys, hrun⟩ := hrun
  refine ⟨s₃, keys, hrun, ?_, ?_⟩
  · rw [hburns]
    rfl
  · refine h₃.spectrumIndex_absent hkey fun hp => ?_
    exact ((hr.present_iff h₂.table hkey).mp hp).2 hspent

/-- A key that was credited, and of which nothing was ever burned, that is not found. -/
theorem spent_key_not_found :
    ∃ s keys, run 24 zeroHash spentRun = some (s, keys) ∧ s.dustBurns = [] ∧
      spectrumIndex 24 s holder = some (-1) :=
  -- the first credit of all goes to the home slot of its key
  spentRun_result (by norm_num) rfl

end QubicCore.Spectrum
