import QubicCore.Contracts.Random.Slots
import QubicCore.Contracts.Ledger
import QubicCore.Library.Cells

/-!
# The collateral of the providers

Over a whole run, the payments of each commitment alternate between locking its collateral and
giving it back or burning it, and the balance of the contract is what is locked plus what was
earned, plus donations.
-/

namespace QubicCore.Contracts.Random

open Library State Function List

variable {host : Host} {s s' : State} {stream i : Nat} {x : Walk} {tier : Nat} {call : Invocation}

/-! ## `END_TICK` -/

lemma changed_entropy {f : State → Nat → State}
    (hf : ∀ s i, f s i = s ∨ ∃ k v, f s i = { s with entropy := update s.entropy k v })
    (h : StreamInv host (s.bag stream)) (l : List Nat) :
    Changed host stream s (l.foldl f s) [] := by
  induction l generalizing s with
  | nil => exact .refl h
  | cons i l ih =>
    have hstep : Changed host stream s (f s i) [] := by
      obtain he | ⟨k, v, he⟩ := hf s i <;> rw [he]
      · exact .refl h
      · exact .of_eq h rfl rfl rfl rfl
    exact hstep.trans (ih hstep.inv)

lemma changed_clearEntropy (h : StreamInv host (s.bag stream)) :
    Changed host stream s (s.clearEntropy stream) [] :=
  changed_entropy (fun _ _ => .inr ⟨_, _, rfl⟩) h _

lemma changed_dropEntropy (h : StreamInv host (s.bag stream)) (flags : BitVec 16) :
    Changed host stream s (dropEntropy s stream flags) [] := by
  refine changed_entropy (fun s i => ?_) h _
  split_ifs
  · exact .inr ⟨_, _, rfl⟩
  · exact .inl rfl

lemma changed_clearContributed (h : StreamInv host (s.bag stream)) :
    Changed host stream s (s.clearContributed stream) [] ∧
      (s.clearContributed stream).populations stream = s.populations stream := by
  refine Cells.foldl_range (fun _ s' => Changed host stream s s' [] ∧
    s'.populations stream = s.populations stream) ⟨.refl h, rfl⟩ fun k hk s' ⟨hs', hpop⟩ => ?_
  have hk' : k < s'.populations stream := by omega
  have hx := hs'.inv.cell_enrolled hk'
  refine ⟨hs'.trans (.setSlot hs'.inv hk' ?_ rfl (by simp) (by simp) rfl), hpop⟩
  exact { hx with }

lemma visitSilent_present {ps : List Payment} (hf : (s.slot stream i).revealOrCommitFlag) :
    visitSilent stream i (s, ps) =
      (s.setSlot stream i { s.slot stream i with revealOrCommitFlag := false }, ps) := by
  simp [visitSilent, hf]

lemma visitSilent_absent {ps : List Payment} (hf : (s.slot stream i).revealOrCommitFlag = false)
    (hpos : 0 < (s.slot stream i).lockedCollateralAmount) :
    visitSilent stream i (s, ps) = (s.swapDelete stream i,
      ps ++ [.giveBack ((s.slot stream i).key stream) (s.slot stream i).provider
        (s.slot stream i).lockedCollateralAmount]) := by
  simp [visitSilent, hf, hpos, Slot.key]

/-- The state of the walk over a tick without reveals, with `n` slots to go. -/
structure SilentWalk (host : Host) (stream : Nat) (s : State) (n : Nat)
    (x : State × List Payment) : Prop where
  changed : Changed host stream s x.1 x.2
  charged : charged x.2 = 0
  le : n ≤ x.1.populations stream
  revealed : ∀ y ∈ (x.1.bag stream).contents, y.revealedThisTickFlag = false

lemma SilentWalk.visit {x : State × List Payment} (h : SilentWalk host stream s (i + 1) x) :
    SilentWalk host stream s i (visitSilent stream i x) := by
  obtain ⟨t, ps⟩ := x
  obtain ⟨hchanged, hcharged, hi, hr⟩ := h
  have hinv := hchanged.inv
  have hx := hinv.cell_enrolled hi
  have hxr := hr _ (Bag.mem_contents.mpr ⟨i, hi, rfl⟩)
  simp only [bag_cell] at hx hxr
  obtain ⟨rest, hb, hset, hevict⟩ := Bag.contents_split (b := t.bag stream) hi
  rw [hb] at hr
  cases hf : (t.slot stream i).revealOrCommitFlag with
  | true =>
    have hpledge := hx.pledge.resolve_right fun hl => by simp [hxr] at hl
    have henrolled : Enrolled host { t.slot stream i with revealOrCommitFlag := false } :=
      ⟨hx.user, hx.collateralTier_lt, .inl hpledge, fun hr => by simp [hxr] at hr⟩
    rw [visitSilent_present hf]
    have hstep : Changed host stream t _ [] :=
      .setSlot hinv hi henrolled rfl (by simp) (by simp) rfl
    refine ⟨by simpa using hchanged.trans hstep, hcharged, Nat.le_of_succ_le hi, fun y hy => ?_⟩
    rw [bag_setSlot, hset, Multiset.mem_cons] at hy
    obtain rfl | hy := hy
    · exact hxr
    · exact hr y (Multiset.mem_cons_of_mem hy)
  | false =>
    have hpos := hx.locked_pos hf
    rw [visitSilent_absent hf hpos]
    refine ⟨hchanged.trans (.evict hinv hi bag_swapDelete (elsewhere_swapDelete
      (Nat.lt_of_lt_of_le hi hinv.size_le) hinv.size_le (by omega)) rfl rfl ?_ ?_ ?_),
      by simpa using hcharged, ?_, fun y hy => ?_⟩
    · simp [Payment.key]
    · simp [Payment.Deliverable, hx.user]
    · simp [follow, Payment.key, Slot.key, hpos]
    · simp only [swapDelete, update_self]
      dsimp only at hi
      omega
    · rw [bag_swapDelete, hevict] at hy
      exact hr y (Multiset.mem_cons_of_mem hy)

/-- What a visit leaves in the slot of a provider that took part. -/
def visitedSlot (x : Slot) (collateralTierFlags : BitVec 16) : Slot :=
  { x with
    reveal := if x.revealedThisTickFlag then 0 else x.reveal
    contributedToEntropyFlag := x.contributedToEntropyFlag ||
      (x.revealedThisTickFlag && !collateralTierFlags.getLsbD x.collateralTier)
    revealOrCommitFlag := false
    revealedThisTickFlag := false }

/-- The state after the reveal of slot `i` has been mixed in, if it counts. -/
def mixed (s : State) (stream i : Nat) (collateralTierFlags : BitVec 16) : State :=
  if (s.slot stream i).revealedThisTickFlag &&
      !collateralTierFlags.getLsbD (s.slot stream i).collateralTier then
    s.setEntropy stream (s.slot stream i).collateralTier
      (s.entropy (stream * 10 + (s.slot stream i).collateralTier) ^^^ (s.slot stream i).reveal)
  else s

variable (flags : BitVec 16)

@[simp] lemma slot_mixed (st j : Nat) : (mixed s stream i flags).slot st j = s.slot st j := by
  unfold mixed
  split_ifs <;> rfl

@[simp] lemma slot_setSlot_self (x : Slot) : (s.setSlot stream i x).slot stream i = x := by
  simp [slot, setSlot]

lemma setSlot_setSlot (x y : Slot) :
    (s.setSlot stream i x).setSlot stream i y = s.setSlot stream i y := by
  simp [setSlot]

lemma setSlot_self (x : Slot) (h : s.slot stream i = x) : s.setSlot stream i x = s := by
  subst h
  simp [setSlot, slot]

lemma mixReveal_eq :
    mixReveal s stream i flags = (mixed s stream i flags).setSlot stream i
      { s.slot stream i with
        reveal := if (s.slot stream i).revealedThisTickFlag then 0 else (s.slot stream i).reveal
        contributedToEntropyFlag := (s.slot stream i).contributedToEntropyFlag ||
          ((s.slot stream i).revealedThisTickFlag &&
            !flags.getLsbD (s.slot stream i).collateralTier) } := by
  unfold mixReveal mixed
  cases hr : (s.slot stream i).revealedThisTickFlag with
  | false =>
    simp only [hr, Bool.false_eq_true, if_false, Bool.false_and, Bool.or_false]
    exact (setSlot_self _ (by rw [← hr])).symm
  | true => simp only [hr, if_true, Bool.true_and, Bool.or_comm]

lemma visit_present (hf : (x.state.slot stream i).revealOrCommitFlag) :
    visit stream i x = { x with
      state := if (x.state.slot stream i).commit = 0 then
          ((mixed x.state stream i x.collateralTierFlags).setSlot stream i
            (visitedSlot (x.state.slot stream i) x.collateralTierFlags)).swapDelete stream i
        else (mixed x.state stream i x.collateralTierFlags).setSlot stream i
          (visitedSlot (x.state.slot stream i) x.collateralTierFlags) } := by
  simp only [visit, hf, if_true, mixReveal_eq, setSlot_setSlot, slot_setSlot_self, visitedSlot]

lemma visit_absent (hf : (x.state.slot stream i).revealOrCommitFlag = false)
    (hpos : 0 < (x.state.slot stream i).lockedCollateralAmount) :
    visit stream i x =
      { state := { x.state with
          burnedAmount := (x.state.burnedAmount +
            (x.state.slot stream i).lockedCollateralAmount) % 2 ^ 64 }.swapDelete stream i
        payments := x.payments ++ [.slash ((x.state.slot stream i).key stream)
          (x.state.slot stream i).lockedCollateralAmount]
        collateralTierFlags := x.collateralTierFlags |||
          (1#16 <<< (x.state.slot stream i).collateralTier) } := by
  simp [visit, hf, hpos, Slot.key]

lemma changed_mixed (h : StreamInv host (s.bag stream)) (flags : BitVec 16) :
    Changed host stream s (mixed s stream i flags) [] := by
  unfold mixed
  split_ifs
  · exact .of_eq h rfl rfl rfl rfl
  · exact .refl h

lemma populations_mixed : (mixed s stream i flags).populations = s.populations := by
  unfold mixed
  split_ifs <;> rfl

lemma bag_mixed : (mixed s stream i flags).bag stream = s.bag stream := by
  refine Bag.ext ?_ ?_
  · simp [populations_mixed]
  · funext j
    simp

lemma enrolled_visitedSlot {x : Slot} (h : Enrolled host x) (hc : x.commit ≠ 0)
    (flags : BitVec 16) : Enrolled host (visitedSlot x flags) :=
  ⟨h.user, h.collateralTier_lt, .inl (h.pledge.resolve_right fun hl => hc hl.2.1),
    fun hr => absurd hr Bool.false_ne_true⟩

/-- The state of the walk over a tick with reveals, with `n` slots to go. -/
structure MixWalk (host : Host) (stream : Nat) (s : State) (n : Nat) (x : Walk) : Prop where
  changed : Changed host stream s x.state x.payments
  charged : charged x.payments = 0
  le : n ≤ x.state.populations stream

lemma MixWalk.visit (h : MixWalk host stream s (i + 1) x) :
    MixWalk host stream s i (visit stream i x) := by
  obtain ⟨t, ps, flags⟩ := x
  obtain ⟨hchanged, hcharged, hi⟩ := h
  dsimp only at hchanged hcharged hi
  have hinv := hchanged.inv
  have hlt : i < RANDOM_STREAM_CAPACITY := Nat.lt_of_lt_of_le hi hinv.size_le
  have hx : Enrolled host (t.slot stream i) := hinv.cell_enrolled hi
  cases hf : (t.slot stream i).revealOrCommitFlag with
  | true =>
    have hmixed := changed_mixed (i := i) hinv flags
    rw [visit_present hf]
    dsimp only
    split_ifs with hc
    · -- the provider leaves: its collateral was given back when it revealed
      have hempty : (t.slot stream i).lockedCollateralAmount = 0 :=
        (hx.pledge.resolve_left fun hl => hl.2 hc).1
      have hstep : Changed host stream t (((mixed t stream i flags).setSlot stream i
          (visitedSlot (t.slot stream i) flags)).swapDelete stream i) [] := by
        refine .evict hinv hi ?_ ?_ hmixed.earnedAmount hmixed.bitFee (by simp) (by simp) ?_
        · rw [bag_swapDelete, bag_setSlot, Bag.evict_set, bag_mixed]
        · refine (hmixed.elsewhere.trans (elsewhere_setSlot hlt
            (visitedSlot (t.slot stream i) flags))).trans (elsewhere_swapDelete hlt ?_ ?_)
          · exact (congrFun (populations_mixed flags) stream).trans_le hinv.size_le
          · exact (Nat.zero_lt_of_lt hi).trans_eq (congrFun (populations_mixed flags) stream).symm
        · simp [hempty]
      refine ⟨by simpa using hchanged.trans hstep, hcharged, ?_⟩
      simp only [swapDelete, setSlot, update_self, populations_mixed]
      omega
    · have hstep : Changed host stream (mixed t stream i flags) ((mixed t stream i flags).setSlot
          stream i (visitedSlot (t.slot stream i) flags)) [] := by
        refine .setSlot hmixed.inv ?_ (enrolled_visitedSlot hx hc flags) ?_ (by simp) (by simp) ?_
        · rw [populations_mixed]
          exact hi
        · rw [slot_mixed]
          rfl
        · rw [slot_mixed]
          rfl
      refine ⟨by simpa using hchanged.trans (hmixed.trans hstep), hcharged, ?_⟩
      simp only [setSlot, populations_mixed]
      omega
  | false =>
    have hpos := hx.locked_pos hf
    rw [visit_absent hf hpos]
    refine ⟨hchanged.trans (.evict hinv hi ?_ ?_ rfl rfl ?_ ?_ ?_), by simpa using hcharged, ?_⟩
    · rw [bag_swapDelete]
      rfl
    · have he := elsewhere_swapDelete (s := { t with
        burnedAmount := (t.burnedAmount + (t.slot stream i).lockedCollateralAmount) % 2 ^ 64 })
        hlt hinv.size_le (Nat.zero_lt_of_lt hi)
      exact ⟨he.populations, he.slot⟩
    · simp [Payment.key]
    · simp [Payment.Deliverable]
    · simp [follow, Payment.key, hpos]
    · simp only [swapDelete, update_self]
      omega

/-- `END_TICK` changes the stream of its tick only; it sends nothing back and locks nothing. -/
lemma changed_endTick (h : Inv host s) (tick : Nat) :
    Changed host (tick % 3) s (endTick tick s).1 (endTick tick s).2 ∧
      charged (endTick tick s).2 = 0 := by
  have hinv := h (tick % 3) (Nat.mod_lt _ (by decide))
  have hclear := changed_clearEntropy hinv
  obtain ⟨hcontrib, hpop⟩ := changed_clearContributed hclear.inv
  have hstart : Changed host (tick % 3) s _ [] := hclear.trans hcontrib
  unfold endTick
  dsimp only
  generalize ((s.clearEntropy (tick % 3)).clearContributed (tick % 3)) = t at hstart
  split_ifs with hsilent
  · have hrevealed : ∀ y ∈ (t.bag (tick % 3)).contents, y.revealedThisTickFlag = false := by
      intro y hy
      obtain ⟨j, hj, rfl⟩ := Bag.mem_contents.mp hy
      exact of_decide_eq_true hsilent j hj
    have hwalk := countdown_induction (SilentWalk host (tick % 3) s) _ (t, [])
      ⟨hstart, rfl, le_rfl, hrevealed⟩ fun k x _ hx => hx.visit
    exact ⟨hwalk.changed, hwalk.charged⟩
  · have hwalk := countdown_induction (MixWalk host (tick % 3) s) _ ⟨t, [], 0⟩
      ⟨hstart, rfl, le_rfl⟩ fun k x _ hx => hx.visit
    refine ⟨?_, hwalk.charged⟩
    simpa using hwalk.changed.trans (changed_dropEntropy hwalk.changed.inv _)

/-! ## `RevealAndCommit` -/

lemma find_cases (s : State) (stream : Nat) (provider : M256i) (tier : Nat) :
    (s.find stream provider tier < s.populations stream ∧
      (s.slot stream (s.find stream provider tier)).pair = (provider, tier)) ∨
    (s.find stream provider tier = s.populations stream ∧
      ∀ x ∈ (s.bag stream).contents, x.pair ≠ (provider, tier)) := by
  unfold find
  cases hfind : (List.range (s.populations stream)).find? fun i =>
      decide (provider = (s.slot stream i).provider ∧ tier = (s.slot stream i).collateralTier) with
  | some i =>
    have hp := List.find?_some hfind
    simp only [decide_eq_true_eq] at hp
    exact .inl ⟨mem_range.mp (mem_of_find?_eq_some hfind), by simp [Slot.pair, ← hp.1, ← hp.2]⟩
  | none =>
    refine .inr ⟨rfl, fun x hx hpair => ?_⟩
    obtain ⟨j, hj, rfl⟩ := Bag.mem_contents.mp hx
    have hnot := List.find?_eq_none.mp hfind j (mem_range.mpr hj)
    simp only [Slot.pair, bag_cell, Prod.mk.injEq] at hpair
    simp [hpair.1, hpair.2] at hnot

lemma collateralTierOf_eq_some {reward : Int} (h : collateralTierOf reward = some tier) :
    tier < 10 ∧ reward = (10 ^ tier : Nat) := by
  unfold collateralTierOf at h
  split at h <;> first | contradiction | (obtain rfl := Option.some.inj h; decide)

lemma toNat_uint64_pow (h : tier < 10) : (uint64 ((10 ^ tier : Nat) : Int)).toNat = 10 ^ tier := by
  have hle : 10 ^ tier ≤ 10 ^ 9 := Nat.pow_le_pow_right (by decide) (by omega)
  rw [uint64_eq (by positivity) (by omega), Int.toNat_natCast]

lemma changed_refund (h : StreamInv host (s.bag stream)) (destination : M256i) {amount : Int}
    (hamount : 0 ≤ amount) : Changed host stream s s [.refund destination amount] := by
  refine ⟨h, .refl, ⟨fun key _ => ?_, by simp [Payment.key], by simp [Payment.locked],
    by simpa [Payment.Deliverable] using hamount⟩, rfl, rfl⟩
  exact foldlM_follow_other (by simp [Payment.key]) _

lemma giveBack_spec (hcall : call.invocator = (s.slot stream i).provider)
    (huser : host.isContractId call.invocator = false) :
    (∀ p ∈ giveBack call s stream i, p.key = some ((s.slot stream i).key stream)) ∧
    (∀ p ∈ giveBack call s stream i, p.Deliverable host) ∧ charged (giveBack call s stream i) = 0 ∧
    (giveBack call s stream i).foldlM (follow ((s.slot stream i).key stream))
      (s.slot stream i).lockedCollateralAmount = some 0 := by
  unfold giveBack
  dsimp only
  split_ifs with hpos
  · refine ⟨by simp [Payment.key, Slot.key], by simp [Payment.Deliverable, huser],
      by simp [charged, Payment.outgoing, Payment.locked], ?_⟩
    simp [follow, Payment.key, Slot.key, hcall, Nat.pos_iff_ne_zero.mp hpos, Nat.pos_iff_ne_zero]
  · have hz : (s.slot stream i).lockedCollateralAmount = 0 := by omega
    simp [charged, hz]

/-- What every call of `RevealAndCommit` does: the stream changes as it may, and the reward is
sent back or locked. -/
structure Handled (host : Host) (call : Invocation) (stream : Nat) (s : State)
    (out : State × List Payment) : Prop where
  changed : Changed host stream s out.1 out.2
  charged : charged out.2 = call.invocationReward

lemma handled_refund (h : StreamInv host (s.bag stream)) (hreward : 0 ≤ call.invocationReward) :
    Handled host call stream s (s, [.refund call.invocator call.invocationReward]) :=
  ⟨changed_refund h _ hreward, charged_refund _ _⟩

/-- A reveal that is accepted is one of the provider in slot `i`. -/
lemma found_of_accepted {provider : M256i} {reveal : Bit4096}
    (hok : refusesReveal host s stream (s.find stream provider tier) reveal = false) :
    s.find stream provider tier < s.populations stream ∧
      (s.slot stream (s.find stream provider tier)).pair = (provider, tier) := by
  obtain hfound | ⟨hend, -⟩ := find_cases s stream provider tier
  · exact hfound
  · simp [refusesReveal, hend] at hok

section

variable {call : Invocation} {tier : Nat} (h : StreamInv host (s.bag stream))
  (huser : host.isContractId call.invocator = false) (hpos : 0 ≤ call.invocationReward)

include h huser

/-- The provider in slot `i` gets its collateral back; one more payment takes care of the
reward. -/
lemma handled_reveal (hi : i < s.populations stream)
    (hprovider : (s.slot stream i).provider = call.invocator) {x : Slot} {p : Payment}
    (hx : Enrolled host x) (hpair : x.pair = (s.slot stream i).pair)
    (hkey : p.key = none ∨ p.key = some ((s.slot stream i).key stream)) (hto : p.Deliverable host)
    (hfollow : follow ((s.slot stream i).key stream) 0 p = some x.lockedCollateralAmount)
    (hcharged : charged [p] = call.invocationReward) :
    Handled host call stream s (s.setSlot stream i x, giveBack call s stream i ++ [p]) := by
  obtain ⟨hback, hbackTo, hbackCharged, hbackFollow⟩ := giveBack_spec hprovider.symm huser
  refine ⟨.setSlot h hi hx hpair ?_ ?_ ?_, ?_⟩
  · simp only [mem_append, mem_singleton]
    rintro q (hq | rfl)
    · exact .inr (hback q hq)
    · exact hkey
  · simp only [mem_append, mem_singleton]
    rintro q (hq | rfl)
    · exact hbackTo q hq
    · exact hto
  · rw [foldlM_append, hbackFollow]
    simpa using hfollow
  · rw [charged_append, hbackCharged, hcharged, zero_add]

include hpos

lemma handled_revealAndLeave (tick : Nat) (reveal : Bit4096) :
    Handled host call stream s (revealAndLeave host call tick reveal stream tier s) := by
  unfold revealAndLeave
  dsimp only
  by_cases hz : reveal = 0
  · rw [if_pos hz]
    exact handled_refund h hpos
  rw [if_neg hz]
  cases hok : refusesReveal host s stream (s.find stream call.invocator tier) reveal with
  | true => exact handled_refund h hpos
  | false =>
    obtain ⟨hi, hpair⟩ := found_of_accepted hok
    have hx := h.cell_enrolled hi
    exact handled_reveal h huser hi (congrArg Prod.fst hpair)
      ⟨hx.user, hx.collateralTier_lt, .inr ⟨rfl, rfl, rfl⟩, fun _ => rfl⟩ rfl (.inl rfl) hpos
      rfl (charged_refund _ _)

variable (htier : tier < 10) (hreward : call.invocationReward = (10 ^ tier : Nat))

include htier hreward

lemma handled_revealAndRecommit (tick : Nat) {input : RevealAndCommitInput}
    (hcommit : input.commit ≠ 0) :
    Handled host call stream s (revealAndRecommit host call tick input stream tier s) := by
  unfold revealAndRecommit
  dsimp only
  cases hok : refusesReveal host s stream (s.find stream call.invocator tier) input.reveal with
  | true => exact handled_refund h hpos
  | false =>
    obtain ⟨hi, hpair⟩ := found_of_accepted hok
    have hx := h.cell_enrolled hi
    have hamount : (uint64 call.invocationReward).toNat = 10 ^ tier := by
      rw [hreward, toNat_uint64_pow htier]
    rw [if_neg Bool.false_ne_true, hamount]
    refine handled_reveal h huser hi (congrArg Prod.fst hpair)
      ⟨hx.user, hx.collateralTier_lt, .inl ⟨?_, hcommit⟩, fun _ => rfl⟩ rfl (.inr rfl) trivial ?_ ?_
    · exact congrArg (10 ^ ·) (congrArg Prod.snd hpair).symm
    · simp [follow, Payment.key, Slot.key]
    · rw [charged_lock, hreward]

lemma handled_firstCommit (tick : Nat) {commit : M256i} (hcommit : commit ≠ 0) :
    Handled host call stream s (firstCommit call tick commit stream tier s) := by
  unfold firstCommit
  by_cases hrefuse : s.find stream call.invocator tier < s.populations stream ∨
      s.find stream call.invocator tier = RANDOM_STREAM_CAPACITY
  · rw [if_pos hrefuse]
    exact handled_refund h hpos
  rw [if_neg hrefuse]
  obtain ⟨hlt, -⟩ | ⟨hend, hnew⟩ := find_cases s stream call.invocator tier
  · exact absurd (.inl hlt) hrefuse
  rw [hend] at hrefuse ⊢
  have hroom : s.populations stream < RANDOM_STREAM_CAPACITY :=
    lt_of_le_of_ne h.size_le fun he => hrefuse (.inr he)
  have hamount : (uint64 call.invocationReward).toNat = 10 ^ tier := by
    rw [hreward, toNat_uint64_pow htier]
  rw [hamount]
  refine ⟨.push h hroom ⟨huser, htier, .inl ⟨rfl, hcommit⟩, nofun⟩ hnew (by positivity), ?_⟩
  rw [charged_lock, hreward]

end

lemma handled_revealAndCommit (h : Inv host s) (hpos : 0 ≤ call.invocationReward) (tick : Nat)
    (input : RevealAndCommitInput) :
    Handled host call (tick % 3) s (revealAndCommit host call tick input s) := by
  have hinv := h (tick % 3) (Nat.mod_lt _ (by decide))
  unfold revealAndCommit
  cases huser : host.isContractId call.invocator with
  | true => exact handled_refund hinv hpos
  | false =>
    rw [if_neg Bool.false_ne_true]
    cases htier : collateralTierOf call.invocationReward with
    | none => exact handled_refund hinv hpos
    | some tier =>
      obtain ⟨hlt, hreward⟩ := collateralTierOf_eq_some htier
      split_ifs with hcommit hreveal
      · exact handled_revealAndLeave hinv huser hpos tick input.reveal
      · exact handled_revealAndRecommit hinv huser hpos hlt hreward tick hcommit
      · exact handled_firstCommit hinv huser hpos hlt hreward tick hcommit

end QubicCore.Contracts.Random
