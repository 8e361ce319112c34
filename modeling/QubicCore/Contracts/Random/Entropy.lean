import QubicCore.Contracts.Random.Run

/-!
# The entropy of a tick

`END_TICK` walks over the providers of a stream from the last to the first. The invariant of the
walk is about the slots already passed: the reveals among them are mixed, unless somebody above them
in the same tier did not reveal.

The flag of a provider is decided when its slot is passed, and it is not taken back when a provider
further down turns out not to have revealed.
-/

namespace QubicCore.Contracts.Random

open Library State Function List

variable {host : Host} {s s' : State} {stream tier : Nat} {t n i j : Nat} {flags : BitVec 16}
  {x : Walk}

/-! ## What a tick should leave behind -/

/-- The provider of slot `i` revealed in this tick. -/
def Reveals (s : State) (stream i : Nat) : Prop :=
  (s.slot stream i).revealOrCommitFlag ∧ (s.slot stream i).revealedThisTickFlag

instance (s : State) (stream i : Nat) : Decidable (Reveals s stream i) :=
  inferInstanceAs (Decidable (_ ∧ _))

/-- The provider of slot `i`, in the given tier, did not take part in this tick. -/
def Misses (s : State) (stream tier i : Nat) : Prop :=
  (s.slot stream i).revealOrCommitFlag = false ∧ (s.slot stream i).collateralTier = tier

/-- Somebody in the tier did not take part, in a slot from `n` on. -/
def MissedFrom (s : State) (stream tier n : Nat) : Prop :=
  ∃ i, n ≤ i ∧ i < s.populations stream ∧ Misses s stream tier i

def xorReveals (s : State) (stream tier : Nat) (l : List Nat) : Bit4096 :=
  l.foldr (fun i entropy => if Reveals s stream i ∧ (s.slot stream i).collateralTier = tier then
    entropy ^^^ (s.slot stream i).reveal else entropy) 0

/-- The entropy of a tier is the xor of its reveals, or zero if one of them is missing. -/
def EntropyExact (s s' : State) (stream : Nat) : Prop :=
  ∀ tier < 10, (MissedFrom s stream tier 0 → s'.entropy (stream * 10 + tier) = 0) ∧
    (¬MissedFrom s stream tier 0 → s'.entropy (stream * 10 + tier) =
      xorReveals s stream tier (List.range (s.populations stream)))

/-- A provider is flagged exactly if its reveal is part of the entropy. -/
def FlagsExact (s s' : State) (stream : Nat) : Prop :=
  ∀ k < s'.populations stream, (s'.slot stream k).contributedToEntropyFlag ↔
    ∃ i < s.populations stream, (s.slot stream i).pair = (s'.slot stream k).pair ∧
      Reveals s stream i ∧ ¬MissedFrom s stream (s.slot stream i).collateralTier 0

def MissedAbove (s : State) (stream : Nat) : Prop :=
  ∀ i < s.populations stream, Reveals s stream i → (s.slot stream i).commit ≠ 0 →
    MissedFrom s stream (s.slot stream i).collateralTier 0 →
    MissedFrom s stream (s.slot stream i).collateralTier (i + 1)

/-! ## The entropy array -/

lemma setEntropy_entropy {t' : Nat} (v : Bit4096) :
    (s.setEntropy stream t v).entropy (stream * 10 + t') =
      if t' = t then v else s.entropy (stream * 10 + t') := by
  simp [setEntropy, update_apply]

lemma clearEntropy_entropy (ht : t < 10) :
    (s.clearEntropy stream).entropy (stream * 10 + t) = 0 := by
  have h := Cells.foldl_range (n := 10) (f := fun s i => s.setEntropy stream i 0) (a := s)
    (fun k s' => ∀ t < k, s'.entropy (stream * 10 + t) = 0) (by simp) fun k _ s' ih t ht => by
      rw [setEntropy_entropy]
      split_ifs with he
      · rfl
      · exact ih t (by omega)
  exact h t ht

lemma dropEntropy_entropy (ht : t < 10) (flags : BitVec 16) :
    (dropEntropy s stream flags).entropy (stream * 10 + t) =
      if flags.getLsbD t then 0 else s.entropy (stream * 10 + t) := by
  have h := Cells.foldl_range (n := 10) (f := fun s i =>
      if flags.getLsbD i then s.setEntropy stream i 0 else s) (a := s)
    (fun k s' => ∀ t, s'.entropy (stream * 10 + t) =
      if t < k ∧ flags.getLsbD t then 0 else s.entropy (stream * 10 + t)) (by simp)
    fun k _ s' ih t => by
      by_cases hk : flags.getLsbD k
      · rw [if_pos hk, setEntropy_entropy, ih]
        by_cases htk : t = k
        · subst htk
          rw [if_pos rfl, if_pos ⟨by omega, hk⟩]
        · have : t < k + 1 ↔ t < k := by omega
          simp only [if_neg htk, this]
      · rw [if_neg hk, ih]
        by_cases htk : t = k
        · subst htk
          simp [hk]
        · have : t < k + 1 ↔ t < k := by omega
          simp only [this]
  rw [dropEntropy, h t]
  simp only [ht, true_and]

/-! ## The walk -/

open Classical in
noncomputable def afterTick (s : State) (stream i : Nat) : Slot :=
  { s.slot stream i with
    reveal := if (s.slot stream i).revealedThisTickFlag then 0 else (s.slot stream i).reveal
    contributedToEntropyFlag := Reveals s stream i ∧
      ¬MissedFrom s stream (s.slot stream i).collateralTier (i + 1)
    revealOrCommitFlag := false
    revealedThisTickFlag := false }

/-- The provider of slot `i` is still there after the tick. -/
def Stays (s : State) (stream i : Nat) : Prop :=
  (s.slot stream i).revealOrCommitFlag ∧ (s.slot stream i).commit ≠ 0

instance (s : State) (stream i : Nat) : Decidable (Stays s stream i) :=
  inferInstanceAs (Decidable (_ ∧ _))

def slotsFrom (s : State) (stream n : Nat) : List Nat := List.range' n (s.populations stream - n)

lemma slotsFrom_eq_cons (hn : n < s.populations stream) :
    slotsFrom s stream n = n :: slotsFrom s stream (n + 1) := by
  obtain ⟨k, hk⟩ : ∃ k, s.populations stream - n = k + 1 := ⟨s.populations stream - n - 1, by omega⟩
  rw [slotsFrom, slotsFrom, hk, show s.populations stream - (n + 1) = k by omega, List.range'_succ]

structure Passed (s : State) (stream n : Nat) (x : Walk) : Prop where
  below : ∀ i < n, x.state.slot stream i = s.slot stream i
  le : n ≤ x.state.populations stream
  above : (x.state.bag stream).above n =
    ((slotsFrom s stream n).filter (Stays s stream ·)).map (afterTick s stream)
  flags : ∀ tier < 10, x.collateralTierFlags.getLsbD tier ↔ MissedFrom s stream tier n
  entropy : ∀ tier < 10, ¬MissedFrom s stream tier n →
    x.state.entropy (stream * 10 + tier) = xorReveals s stream tier (slotsFrom s stream n)

lemma missedFrom_succ (hn : n < s.populations stream) :
    MissedFrom s stream tier n ↔ Misses s stream tier n ∨ MissedFrom s stream tier (n + 1) := by
  constructor
  · rintro ⟨i, hi, hlt, hm⟩
    obtain rfl | hne := eq_or_ne i n
    · exact .inl hm
    · exact .inr ⟨i, by omega, hlt, hm⟩
  · rintro (hm | ⟨i, hi, hlt, hm⟩)
    · exact ⟨n, le_rfl, hn, hm⟩
    · exact ⟨i, by omega, hlt, hm⟩

lemma getLsbD_setBit {t' : Nat} (ht : t < 10) (ht' : t' < 10) :
    (flags ||| (1#16 <<< t)).getLsbD t' ↔ flags.getLsbD t' ∨ t = t' := by
  rw [BitVec.getLsbD_or, Bool.or_eq_true]
  refine or_congr_right ?_
  interval_cases t <;> interval_cases t' <;> decide

lemma visitedSlot_eq_afterTick (hf : (s.slot stream i).revealOrCommitFlag)
    (hc : (s.slot stream i).contributedToEntropyFlag = false)
    (hflags : flags.getLsbD (s.slot stream i).collateralTier ↔
      MissedFrom s stream (s.slot stream i).collateralTier (i + 1)) :
    visitedSlot (s.slot stream i) flags = afterTick s stream i := by
  simp only [visitedSlot, afterTick, hc, Bool.false_or, Slot.mk.injEq, true_and, and_true]
  simp [Reveals, hf, ← hflags]

lemma mixed_entropy :
    (mixed s stream i flags).entropy (stream * 10 + t) =
      if (s.slot stream i).revealedThisTickFlag ∧ flags.getLsbD t = false ∧
          (s.slot stream i).collateralTier = t then
        s.entropy (stream * 10 + t) ^^^ (s.slot stream i).reveal
      else s.entropy (stream * 10 + t) := by
  unfold mixed
  by_cases ht : (s.slot stream i).collateralTier = t
  · subst ht
    by_cases hm : (s.slot stream i).revealedThisTickFlag ∧
        flags.getLsbD (s.slot stream i).collateralTier = false
    · rw [if_pos (by simp [hm]), if_pos ⟨hm.1, hm.2, rfl⟩, setEntropy_entropy, if_pos rfl]
    · rw [if_neg (by simpa using hm), if_neg fun h => hm ⟨h.1, h.2.1⟩]
  · rw [if_neg (c := _ ∧ _ ∧ _) fun h => ht h.2.2]
    split_ifs
    · rw [setEntropy_entropy, if_neg (Ne.symm ht)]
    · rfl

lemma slot_setSlot_of_ne (h : j ≠ i) (v : Slot) :
    (s.setSlot stream i v).slot stream j = s.slot stream j :=
  (congrFun (congrArg Bag.cell (bag_setSlot v)) j).trans
    (Bag.set_cell_of_ne h v)

lemma slot_swapDelete_of_lt (hi : i < s.populations stream) (h : j < i) :
    (s.swapDelete stream i).slot stream j = s.slot stream j :=
  (congrFun (congrArg Bag.cell bag_swapDelete) j).trans
    (Bag.evict_cell_of_lt (b := s.bag stream) hi h .zero)

lemma xorReveals_cons (i : Nat) (l : List Nat) :
    xorReveals s stream tier (i :: l) =
      if Reveals s stream i ∧ (s.slot stream i).collateralTier = tier then
        xorReveals s stream tier l ^^^ (s.slot stream i).reveal
      else xorReveals s stream tier l := rfl

lemma Passed.visit (h : Passed s stream (i + 1) x) (hi : i < s.populations stream)
    (hx : Enrolled host (s.slot stream i))
    (hc : (s.slot stream i).contributedToEntropyFlag = false) :
    Passed s stream i (visit stream i x) := by
  obtain ⟨t, ps, flags⟩ := x
  obtain ⟨hbelow, hle, habove, hflags, hentropy⟩ := h
  dsimp only at hbelow hle habove hflags hentropy
  have hslot := hbelow i (by omega)
  have htier := hx.collateralTier_lt
  have hlist := slotsFrom_eq_cons hi
  cases hf : (s.slot stream i).revealOrCommitFlag with
  | true =>
    have hnot (tier : Nat) : MissedFrom s stream tier i ↔ MissedFrom s stream tier (i + 1) := by
      rw [missedFrom_succ hi]
      simp [Misses, hf]
    have hafter := visitedSlot_eq_afterTick hf hc (hflags _ htier)
    have hmix (tier : Nat) (ht : tier < 10) (hm : ¬MissedFrom s stream tier i) :
        (mixed t stream i flags).entropy (stream * 10 + tier) =
          xorReveals s stream tier (slotsFrom s stream i) := by
      rw [hnot] at hm
      have hbit : flags.getLsbD tier = false := by
        rw [← Bool.not_eq_true]
        exact fun hb => hm ((hflags tier ht).mp hb)
      rw [mixed_entropy, hslot, hentropy tier ht hm, hlist, xorReveals_cons]
      simp [Reveals, hf, hbit]
    rw [visit_present (by rw [hslot]; exact hf)]
    dsimp only
    rw [hslot, hafter]
    by_cases hcommit : (s.slot stream i).commit = 0
    · have hgone : ¬Stays s stream i := fun hs => hs.2 hcommit
      have hpop : i < ((mixed t stream i flags).setSlot stream i (afterTick s stream i)).populations
          stream := by
        simp only [setSlot, populations_mixed]
        omega
      rw [if_pos hcommit]
      refine ⟨fun j hj => ?_, ?_, ?_, fun tier ht => ?_, hmix⟩
      · rw [slot_swapDelete_of_lt hpop hj, slot_setSlot_of_ne (by omega), slot_mixed]
        exact hbelow j (by omega)
      · simp only [swapDelete, setSlot, update_self, populations_mixed]
        omega
      · rw [bag_swapDelete, bag_setSlot, Bag.evict_set, bag_mixed, Bag.above_evict hle, habove,
          hlist, filter_cons_of_neg (by simpa using hgone)]
      · rw [hflags tier ht, hnot]
    · have hstays : Stays s stream i := ⟨hf, hcommit⟩
      rw [if_neg hcommit]
      refine ⟨fun j hj => ?_, ?_, ?_, fun tier ht => ?_, hmix⟩
      · rw [slot_setSlot_of_ne (by omega), slot_mixed]
        exact hbelow j (by omega)
      · simp only [setSlot, populations_mixed]
        omega
      · rw [bag_setSlot, bag_mixed, Bag.above_set hle, habove, hlist,
          filter_cons_of_pos (by simpa using hstays)]
        rfl
      · rw [hflags tier ht, hnot]
  | false =>
    have hgone : ¬Stays s stream i := fun hs => by simp [hs.1] at hf
    have hf' : (t.slot stream i).revealOrCommitFlag = false := by rw [hslot]; exact hf
    rw [visit_absent hf' (by rw [hslot]; exact hx.locked_pos hf)]
    refine ⟨fun j hj => ?_, ?_, ?_, fun tier ht => ?_, fun tier ht hm => ?_⟩
    · exact (slot_swapDelete_of_lt hle hj).trans (hbelow j (by omega))
    · simp only [swapDelete, update_self]
      omega
    · rw [bag_swapDelete, hlist, filter_cons_of_neg (by simpa using hgone), ← habove]
      exact Bag.above_evict (b := t.bag stream) hle .zero
    · rw [hslot, getLsbD_setBit htier ht, hflags tier ht, missedFrom_succ hi, or_comm]
      simp [Misses, hf]
    · rw [missedFrom_succ hi, not_or] at hm
      rw [hlist, xorReveals_cons, if_neg (by simp [Reveals, hf])]
      exact hentropy tier ht hm.2

/-! ## The tick -/

def cleared (s : State) (stream : Nat) : State := (s.clearEntropy stream).clearContributed stream

lemma clearEntropy_frame (s : State) (stream : Nat) :
    (s.clearEntropy stream).slots = s.slots ∧ (s.clearEntropy stream).populations = s.populations :=
  Cells.foldl_range
    (fun _ (s' : State) => s'.slots = s.slots ∧ s'.populations = s.populations) ⟨rfl, rfl⟩
    fun _ _ _ ih => ih

lemma clearContributed_spec (s : State) (stream : Nat) :
    (s.clearContributed stream).populations = s.populations ∧
      (s.clearContributed stream).entropy = s.entropy ∧
      ∀ j < s.populations stream, (s.clearContributed stream).slot stream j =
        { s.slot stream j with contributedToEntropyFlag := false } := by
  have h := Cells.foldl_range (n := s.populations stream) (a := s)
    (f := fun s i => s.setSlot stream i
      { s.slot stream i with contributedToEntropyFlag := false })
    (fun k s' => s'.populations = s.populations ∧ s'.entropy = s.entropy ∧
      (∀ j < k, s'.slot stream j = { s.slot stream j with contributedToEntropyFlag := false }) ∧
      ∀ j, k ≤ j → s'.slot stream j = s.slot stream j)
    ⟨rfl, rfl, by simp, fun _ _ => rfl⟩ fun k _ s' ⟨hpop, hent, hlow, hhigh⟩ => by
      refine ⟨hpop, hent, fun j hj => ?_, fun j hj => ?_⟩
      · obtain rfl | hne := eq_or_ne j k
        · rw [slot_setSlot_self, hhigh j le_rfl]
        · rw [slot_setSlot_of_ne hne]
          exact hlow j (by omega)
      · rw [slot_setSlot_of_ne (by omega)]
        exact hhigh j (by omega)
  exact ⟨h.1, h.2.1, h.2.2.1⟩

lemma cleared_populations : (cleared s stream).populations = s.populations :=
  (clearContributed_spec _ _).1.trans (clearEntropy_frame s stream).2

lemma cleared_slot (hj : j < s.populations stream) :
    (cleared s stream).slot stream j =
      { s.slot stream j with contributedToEntropyFlag := false } := by
  obtain ⟨hslots, hpop⟩ := clearEntropy_frame s stream
  rw [cleared, (clearContributed_spec _ _).2.2 j (by rw [hpop]; exact hj)]
  simp only [slot, hslots]

lemma cleared_entropy (ht : t < 10) : (cleared s stream).entropy (stream * 10 + t) = 0 := by
  rw [cleared, (clearContributed_spec _ _).2.1]
  exact clearEntropy_entropy ht

lemma cleared_reveals (hi : i < s.populations stream) :
    Reveals (cleared s stream) stream i ↔ Reveals s stream i := by
  simp [Reveals, cleared_slot hi]

lemma cleared_missedFrom (n : Nat) :
    MissedFrom (cleared s stream) stream tier n ↔ MissedFrom s stream tier n := by
  unfold MissedFrom
  rw [cleared_populations]
  refine exists_congr fun i => and_congr_right fun _ => and_congr_right fun hi => ?_
  simp [Misses, cleared_slot hi]

lemma cleared_xorReveals (l : List Nat) (hl : ∀ i ∈ l, i < s.populations stream) :
    xorReveals (cleared s stream) stream tier l = xorReveals s stream tier l := by
  induction l with
  | nil => rfl
  | cons i l ih =>
    have hi := hl i (by simp)
    rw [xorReveals_cons, xorReveals_cons, ih fun j hj => hl j (by simp [hj]), cleared_slot hi]
    simp only [cleared_reveals hi]

/-- A tick without reveals changes no entropy and sets no flag. -/
lemma silent_spec (hn : n ≤ s.populations stream)
    (hflag : ∀ y ∈ (s.bag stream).contents, y.contributedToEntropyFlag = false) :
    let x := countdown (visitSilent stream) n (s, [])
    x.1.entropy = s.entropy ∧
      ∀ y ∈ (x.1.bag stream).contents, y.contributedToEntropyFlag = false := by
  refine (countdown_induction (fun k (x : State × List Payment) => k ≤ x.1.populations stream ∧
    x.1.entropy = s.entropy ∧ ∀ y ∈ (x.1.bag stream).contents, y.contributedToEntropyFlag = false)
    n (s, []) ⟨hn, rfl, hflag⟩ ?_).2
  rintro k ⟨t, ps⟩ _ ⟨hk, hent, hcontents⟩
  dsimp only at hk hent hcontents
  obtain ⟨rest, hb, hset, hevict⟩ := Bag.contents_split (b := t.bag stream) hk
  rw [hb] at hcontents
  unfold visitSilent
  dsimp only
  split
  · refine ⟨by simp only [setSlot]; omega, hent, fun y hy => ?_⟩
    rw [bag_setSlot, hset, Multiset.mem_cons] at hy
    obtain rfl | hy := hy
    · exact hcontents (t.slot stream k) (Multiset.mem_cons_self _ _)
    · exact hcontents y (Multiset.mem_cons_of_mem hy)
  · refine ⟨by simp only [swapDelete, update_self]; omega, hent, fun y hy => ?_⟩
    rw [bag_swapDelete, hevict] at hy
    exact hcontents y (Multiset.mem_cons_of_mem hy)

lemma xorReveals_eq_zero {l : List Nat} (h : ∀ i ∈ l, ¬Reveals s stream i) :
    xorReveals s stream tier l = 0 := by
  induction l with
  | nil => rfl
  | cons i l ih =>
    rw [xorReveals_cons, if_neg fun hr => h i (by simp) hr.1]
    exact ih fun j hj => h j (by simp [hj])

lemma afterTick_contributed :
    (afterTick s stream i).contributedToEntropyFlag ↔
      Reveals s stream i ∧ ¬MissedFrom s stream (s.slot stream i).collateralTier (i + 1) := by
  simp only [afterTick, decide_eq_true_eq]

lemma passed_walk (h : StreamInv host ((cleared s stream).bag stream)) :
    Passed (cleared s stream) stream 0
      (countdown (visit stream) ((cleared s stream).populations stream)
        ⟨cleared s stream, [], 0⟩) := by
  have hnone (tier : Nat) :
      ¬MissedFrom (cleared s stream) stream tier ((cleared s stream).populations stream) := by
    rintro ⟨i, hi, hlt, -⟩
    omega
  refine countdown_induction (Passed (cleared s stream) stream) _ _ ⟨fun _ _ => rfl, le_rfl, ?_,
    fun tier _ => ?_, fun tier ht _ => ?_⟩ fun i x hi hx => ?_
  · rw [← bag_size, Bag.above_size]
    simp [slotsFrom]
  · simp [hnone]
  · simp [slotsFrom, xorReveals, cleared_entropy ht]
  · rw [cleared_populations] at hi
    refine hx.visit (by rw [cleared_populations]; exact hi)
      (h.cell_enrolled (by rw [bag_size, cleared_populations]; exact hi)) ?_
    rw [cleared_slot hi]

lemma mem_range_populations (hi : i ∈ List.range (s.populations stream)) :
    i < s.populations stream := mem_range.mp hi

/-- Without reveals there is nothing to mix and nobody to flag. -/
lemma exact_silent (hsilent : (cleared s stream).noReveal stream) :
    let s' := (countdown (visitSilent stream) ((cleared s stream).populations stream)
      (cleared s stream, [])).1
    EntropyExact s s' stream ∧ FlagsExact s s' stream ∧ MissedAbove s stream := by
  intro s'
  have hnone (i : Nat) (hi : i < s.populations stream) : ¬Reveals s stream i := by
    rintro ⟨-, hr⟩
    have hno := of_decide_eq_true hsilent i (by rw [cleared_populations]; exact hi)
    rw [cleared_slot hi] at hno
    exact absurd (hr.symm.trans hno) (by decide)
  have hclear : ∀ y ∈ ((cleared s stream).bag stream).contents,
      y.contributedToEntropyFlag = false := by
    intro y hy
    obtain ⟨j, hj, rfl⟩ := Bag.mem_contents.mp hy
    rw [bag_size, cleared_populations] at hj
    rw [bag_cell, cleared_slot hj]
  obtain ⟨hent, hflags⟩ := silent_spec le_rfl hclear
  refine ⟨fun tier ht => ?_, fun k hk => ?_, fun i hi hr => absurd hr (hnone i hi)⟩
  · have hzero : s'.entropy (stream * 10 + tier) = 0 := (congrFun hent _).trans (cleared_entropy ht)
    refine ⟨fun _ => hzero, fun _ => hzero.trans (xorReveals_eq_zero fun i hi => ?_).symm⟩
    exact hnone i (mem_range_populations hi)
  · have hk' := hflags _ (Bag.mem_contents.mpr ⟨k, hk, rfl⟩)
    simp only [bag_cell] at hk'
    refine iff_of_false (by rw [hk']; decide) ?_
    rintro ⟨i, hi, -, hr, -⟩
    exact hnone i hi hr

/-- The slots after the walk, in terms of the slots before it. -/
lemma passed_slots (h : Passed (cleared s stream) stream 0 x) :
    (∀ k < x.state.populations stream, ∃ i < s.populations stream, Stays s stream i ∧
      (x.state.slot stream k).pair = (s.slot stream i).pair ∧
      ((x.state.slot stream k).contributedToEntropyFlag ↔ Reveals s stream i ∧
        ¬MissedFrom s stream (s.slot stream i).collateralTier (i + 1))) ∧
    ∀ i < s.populations stream, Stays s stream i → ∃ k < x.state.populations stream,
      (x.state.slot stream k).pair = (s.slot stream i).pair ∧
      ((x.state.slot stream k).contributedToEntropyFlag ↔ Reveals s stream i ∧
        ¬MissedFrom s stream (s.slot stream i).collateralTier (i + 1)) := by
  have hstays {i : Nat} (hi : i < s.populations stream) :
      Stays (cleared s stream) stream i ↔ Stays s stream i := by
    simp [Stays, cleared_slot hi]
  have hflag {i : Nat} (hi : i < s.populations stream) :
      (afterTick (cleared s stream) stream i).contributedToEntropyFlag ↔
        Reveals s stream i ∧ ¬MissedFrom s stream (s.slot stream i).collateralTier (i + 1) := by
    rw [afterTick_contributed, cleared_reveals hi, cleared_missedFrom, cleared_slot hi]
  have hpair {i : Nat} (hi : i < s.populations stream) :
      (afterTick (cleared s stream) stream i).pair = (s.slot stream i).pair := by
    simp only [Slot.pair, afterTick, cleared_slot hi]
  have hmem (y : Slot) : (∃ k < x.state.populations stream, x.state.slot stream k = y) ↔
      ∃ i < s.populations stream, Stays s stream i ∧ afterTick (cleared s stream) stream i = y := by
    refine (Bag.mem_contents (b := x.state.bag stream)).symm.trans ?_
    rw [Bag.contents, h.above]
    simp only [slotsFrom, cleared_populations, Multiset.mem_coe, mem_map, mem_filter,
      mem_range'_1, decide_eq_true_eq, Nat.sub_zero, zero_le, true_and, zero_add, and_assoc]
    exact exists_congr fun i => and_congr_right fun hi => by rw [hstays hi]
  refine ⟨fun k hk => ?_, fun i hi hs => ?_⟩
  · obtain ⟨i, hi, hs, he⟩ := (hmem _).mp ⟨k, hk, rfl⟩
    exact ⟨i, hi, hs, he ▸ hpair hi, he ▸ hflag hi⟩
  · obtain ⟨k, hk, he⟩ := (hmem _).mpr ⟨i, hi, hs, rfl⟩
    exact ⟨k, hk, he ▸ hpair hi, he ▸ hflag hi⟩

lemma dropEntropy_frame (s : State) (stream : Nat) (flags : BitVec 16) :
    (dropEntropy s stream flags).slots = s.slots ∧
      (dropEntropy s stream flags).populations = s.populations := by
  refine Cells.foldl_range (fun _ (s' : State) => s'.slots = s.slots ∧
    s'.populations = s.populations) ⟨rfl, rfl⟩ fun k _ s' ih => ?_
  split_ifs
  · exact ih
  · exact ih

lemma exact_mixed (h : StreamInv host (s.bag stream)) (hx : Passed (cleared s stream) stream 0 x) :
    EntropyExact s (dropEntropy x.state stream x.collateralTierFlags) stream ∧
      (FlagsExact s (dropEntropy x.state stream x.collateralTierFlags) stream ↔
        MissedAbove s stream) := by
  have hrange : slotsFrom (cleared s stream) stream 0 = List.range (s.populations stream) := by
    rw [slotsFrom, cleared_populations, Nat.sub_zero, range_eq_range']
  refine ⟨fun tier ht => ?_, ?_⟩
  · have hbit := hx.flags tier ht
    rw [cleared_missedFrom] at hbit
    rw [dropEntropy_entropy ht]
    refine ⟨fun hm => if_pos (hbit.mpr hm), fun hm => ?_⟩
    rw [if_neg fun hb => hm (hbit.mp hb), hx.entropy tier ht (by rwa [cleared_missedFrom]), hrange,
      cleared_xorReveals _ fun i => mem_range_populations]
  · obtain ⟨hslots, hpop⟩ := dropEntropy_frame x.state stream x.collateralTierFlags
    obtain ⟨hdown, hup⟩ := passed_slots hx
    unfold FlagsExact
    simp only [slot, hslots, hpop]
    constructor
    · intro hexact i hi hr hc hm
      by_contra hnot
      obtain ⟨k, hk, hpair, hflag⟩ := hup i hi ⟨hr.1, hc⟩
      obtain ⟨j, -, hj, -, hnone⟩ := (hexact k hk).mp (hflag.mpr ⟨hr, hnot⟩)
      have htier : (s.slot stream j).collateralTier = (s.slot stream i).collateralTier :=
        congrArg Prod.snd (hj.trans hpair)
      exact hnone (htier ▸ hm)
    · intro hcond k hk
      obtain ⟨i, hi, hs, hpair, hflag⟩ := hdown k hk
      constructor
      · intro hset
        obtain ⟨hr, hnot⟩ := hflag.mp hset
        exact ⟨i, hi, hpair.symm, hr, fun hm => hnot (hcond i hi hr hs.2 hm)⟩
      · rintro ⟨j, hj, hjk, hr, hnone⟩
        obtain rfl : j = i := h.cell_inj hj hi (hjk.trans hpair)
        refine hflag.mpr ⟨hr, ?_⟩
        rintro ⟨l, hl, hlt, hm⟩
        exact hnone ⟨l, Nat.zero_le _, hlt, hm⟩

/-- The entropy is exact after every tick. The flags are exact if and only if no provider that
reveals and stays sits above all the missing ones of its tier. -/
theorem endTick_exact_iff (h : Inv host s) (tick : Nat) :
    EntropyExact s (endTick tick s).1 (tick % 3) ∧
      (FlagsExact s (endTick tick s).1 (tick % 3) ↔ MissedAbove s (tick % 3)) := by
  have hinv := h (tick % 3) (Nat.mod_lt _ (by decide))
  obtain ⟨hcontrib, -⟩ := changed_clearContributed (changed_clearEntropy hinv).inv
  have hstart : StreamInv host ((cleared s (tick % 3)).bag (tick % 3)) := hcontrib.inv
  cases hsilent : (cleared s (tick % 3)).noReveal (tick % 3) with
  | true =>
    have hend : (endTick tick s).1 = (countdown (visitSilent (tick % 3))
        ((cleared s (tick % 3)).populations (tick % 3)) (cleared s (tick % 3), [])).1 :=
      congrArg Prod.fst (if_pos hsilent)
    obtain ⟨hent, hflags, habove⟩ := exact_silent hsilent
    rw [hend]
    exact ⟨hent, iff_of_true hflags habove⟩
  | false =>
    let x := countdown (visit (tick % 3)) ((cleared s (tick % 3)).populations (tick % 3))
      ⟨cleared s (tick % 3), [], 0⟩
    have hend : (endTick tick s).1 = dropEntropy x.state (tick % 3) x.collateralTierFlags :=
      congrArg Prod.fst (if_neg (c := (cleared s (tick % 3)).noReveal (tick % 3))
        (by rw [hsilent]; decide))
    rw [hend]
    exact exact_mixed hinv (passed_walk hstart)

/-! ## Two providers, one of them missing -/

def oneMissing : State :=
  let commit (user : M256i) (s : State) := (revealAndCommit smallHost ⟨user, 1⟩ 1 ⟨0, ⟨5⟩⟩ s).1
  (revealAndCommit smallHost ⟨⟨99⟩, 1⟩ 4 ⟨1, ⟨6⟩⟩
    (endTick 1 (commit ⟨99⟩ (commit ⟨98⟩ State.init))).1).1

lemma inv_oneMissing : Inv smallHost oneMissing := by
  have hcommit (user : M256i) (tick : Nat) (input : RevealAndCommitInput) {s : State}
      (h : Inv smallHost s) : Inv smallHost (revealAndCommit smallHost ⟨user, 1⟩ tick input s).1 :=
    have hreward : 0 ≤ (⟨user, 1⟩ : Invocation).invocationReward := zero_le_one
    have hout := handled_revealAndCommit h hreward tick input
    h.of_stream hout.changed.inv hout.changed.elsewhere
  have h := hcommit ⟨99⟩ 1 ⟨0, ⟨5⟩⟩ (hcommit ⟨98⟩ 1 ⟨0, ⟨5⟩⟩ inv_init)
  obtain ⟨hend, -⟩ := changed_endTick h 1
  exact hcommit ⟨99⟩ 4 ⟨1, ⟨6⟩⟩ (h.of_stream hend.inv hend.elsewhere)

theorem endTick_exact_iff_oneMissing : EntropyExact oneMissing (endTick 4 oneMissing).1 1 :=
  (endTick_exact_iff inv_oneMissing 4).1

/-- The first user loses its collateral and the entropy is dropped, but the second one is reported
as a contributor. -/
theorem endTick_flags_dropped_reveal :
    Inv smallHost oneMissing ∧ (endTick 4 oneMissing).1.populations 1 = 1 ∧
      ((endTick 4 oneMissing).1.slot 1 0).provider = ⟨99⟩ ∧
      ((endTick 4 oneMissing).1.slot 1 0).contributedToEntropyFlag ∧
      (endTick 4 oneMissing).1.entropy 10 = 0 ∧
      ¬FlagsExact oneMissing (endTick 4 oneMissing).1 1 := by
  have hpop : (endTick 4 oneMissing).1.populations 1 = 1 := by decide +kernel
  have hflag : ((endTick 4 oneMissing).1.slot 1 0).contributedToEntropyFlag := by decide +kernel
  refine ⟨inv_oneMissing, hpop, by decide +kernel, hflag, by decide +kernel, fun hexact => ?_⟩
  obtain ⟨i, hi, -, -, hnone⟩ := (hexact 0 (by rw [hpop]; decide)).mp hflag
  have hlt : i < 2 := hi.trans_eq (by decide +kernel)
  have htier : (oneMissing.slot 1 i).collateralTier = 0 := by interval_cases i <;> decide +kernel
  rw [htier] at hnone
  exact hnone ⟨0, le_rfl, by decide +kernel, by decide +kernel, by decide +kernel⟩

end QubicCore.Contracts.Random
