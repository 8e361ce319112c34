import QubicCore.Contracts.Random.Collateral

/-!
# Runs of RANDOM

The contract takes calls in any order and with any tick. Beside the state and the node, a
configuration holds the payments that were made so far and the donations. Every payment goes to a
user or to the contract that is calling, and the node refuses none that the balance covers.
-/

namespace QubicCore.Contracts.Random

open Library State List Ledger Payment

variable {W : Type}

/-- The node moves exactly the amounts it is asked to move. -/
structure Exact (qpi : Qpi W) (balance : W → Int) : Prop where
  balance_nonneg : ∀ w, 0 ≤ balance w
  balance_le : ∀ w, balance w ≤ MAX_AMOUNT
  transfer : ∀ destination amount w, 0 ≤ amount → amount ≤ balance w →
    0 ≤ (qpi.transfer destination amount w).1 ∧
      balance (qpi.transfer destination amount w).2 = balance w - amount
  burn : ∀ amount w, 0 ≤ amount → amount ≤ balance w →
    0 ≤ (qpi.burn amount w).1 ∧ balance (qpi.burn amount w).2 = balance w - amount

structure Config (W : Type) where
  state : State
  world : W
  trace : List Payment
  donated : Int

def perform (qpi : Qpi W) (c : Config W) (p : Payment) : Config W :=
  match p with
  | .lock .. => { c with trace := c.trace ++ [p] }
  | .refund destination amount | .giveBack _ destination amount =>
    let (r, w) := qpi.transfer destination amount c.world
    { c with world := w, trace := if r < 0 then c.trace else c.trace ++ [p] }
  | .slash _ amount =>
    let (r, w) := qpi.burn amount c.world
    { c with world := w, trace := if r < 0 then c.trace else c.trace ++ [p] }

/-- Take over the state that a procedure returned and make its payments. -/
def settle (qpi : Qpi W) (c : Config W) (s : State) (ps : List Payment) : Config W :=
  ps.foldl (perform qpi) { c with state := s }

/-- One thing that happens to the contract. Between two calls the node may do anything, as long as
it takes nothing from the contract. -/
inductive Step (host : Host) (qpi : Qpi W) (balance : W → Int) : Config W → Config W → Prop where
  | donation (c : Config W) (amount : Int) (w : W) (hamount : 0 ≤ amount)
      (hw : balance w = balance c.world + amount) :
      Step host qpi balance c { c with world := w, donated := c.donated + amount }
  | buyEntropy (c : Config W) (call : Invocation) (tick : Nat) (input : BuyEntropyInput) (w : W)
      (hreward : 0 ≤ call.invocationReward)
      (hw : balance w = balance c.world + call.invocationReward) :
      Step host qpi balance c (settle qpi { c with world := w }
        (buyEntropy call tick input c.state).1 (buyEntropy call tick input c.state).2.1)
  | revealAndCommit (c : Config W) (call : Invocation) (tick : Nat)
      (input : RevealAndCommitInput) (w : W) (hreward : 0 ≤ call.invocationReward)
      (hw : balance w = balance c.world + call.invocationReward) :
      Step host qpi balance c (settle qpi { c with world := w }
        (revealAndCommit host call tick input c.state).1
        (revealAndCommit host call tick input c.state).2)
  | endTick (c : Config W) (tick : Nat) :
      Step host qpi balance c (settle qpi c (endTick tick c.state).1 (endTick tick c.state).2)

/-- The contract after its construction. What it owns then counts as a donation. -/
def Config.start (balance : W → Int) (w : W) : Config W := ⟨State.init, w, [], balance w⟩

section

variable {host : Host} {qpi : Qpi W} {balance : W → Int} {c : Config W}

lemma outgoing_nonneg {p : Payment} (h : p.Deliverable host) : 0 ≤ p.outgoing := by
  cases p with
  | refund => exact h
  | lock => exact le_rfl
  | giveBack | slash => exact Int.natCast_nonneg _

/-- What the payments of a procedure do to a configuration. -/
structure Paid (balance : W → Int) (c c' : Config W) (ps : List Payment) : Prop where
  state : c'.state = c.state
  donated : c'.donated = c.donated
  balance_eq : balance c'.world = balance c.world - (ps.map outgoing).sum
  trace : ∀ key held, c'.trace.foldlM (follow key) held = (c.trace ++ ps).foldlM (follow key) held

lemma Paid.trans {c' c'' : Config W} {ps ps' : List Payment} (h : Paid balance c c' ps)
    (h' : Paid balance c' c'' ps') : Paid balance c c'' (ps ++ ps') where
  state := h'.state.trans h.state
  donated := h'.donated.trans h.donated
  balance_eq := by
    rw [h'.balance_eq, h.balance_eq, map_append, sum_append]
    ring
  trace key held := by rw [h'.trace, foldlM_append, h.trace, ← foldlM_append, append_assoc]

lemma paid_perform (hexact : Exact qpi balance) {p : Payment} (hp : p.Deliverable host)
    (hle : p.outgoing ≤ balance c.world) : Paid balance c (perform qpi c p) [p] := by
  cases p with
  | lock key amount => exact ⟨rfl, rfl, by simp [perform, outgoing], fun _ _ => rfl⟩
  | refund destination amount | giveBack _ destination amount =>
    obtain ⟨hr, hb⟩ := hexact.transfer destination amount c.world (outgoing_nonneg hp) hle
    exact ⟨rfl, rfl, by simp [perform, hb, outgoing], fun _ _ => by simp [perform, not_lt.mpr hr]⟩
  | slash key amount =>
    obtain ⟨hr, hb⟩ := hexact.burn amount c.world (outgoing_nonneg hp) hle
    exact ⟨rfl, rfl, by simp [perform, hb, outgoing], fun _ _ => by simp [perform, not_lt.mpr hr]⟩

/-- All payments of a list go through if the balance covers their sum. -/
lemma paid_foldl (hexact : Exact qpi balance) {ps : List Payment}
    (hps : ∀ p ∈ ps, p.Deliverable host)
    (hle : (ps.map outgoing).sum ≤ balance c.world) :
    Paid balance c (ps.foldl (perform qpi) c) ps := by
  induction ps generalizing c with
  | nil => exact ⟨rfl, rfl, by simp, by simp⟩
  | cons p ps ih =>
    have hrest : 0 ≤ (ps.map outgoing).sum := by
      refine sum_nonneg fun x hx => ?_
      obtain ⟨q, hq, rfl⟩ := mem_map.mp hx
      exact outgoing_nonneg (hps q (by simp [hq]))
    rw [map_cons, sum_cons] at hle
    have hfirst := paid_perform (c := c) hexact (hps p (by simp)) (by omega)
    have hbalance := hfirst.balance_eq
    simp only [map_cons, map_nil, sum_singleton] at hbalance
    exact hfirst.trans (ih (fun q hq => hps q (by simp [hq])) (by omega))

end

/-! ## The invariant of a run -/

def totalLocked (s : State) : Nat := ∑ stream ∈ Finset.range 3, lockedSum (s.bag stream).contents

section

variable {host : Host} {qpi : Qpi W} {balance : W → Int} {c c' : Config W} {s s' : State}
  {stream : Nat} {ps : List Payment}

lemma contents_elsewhere (h : Inv host s) (he : Elsewhere s s' stream) {st : Nat} (hst : st < 3)
    (hne : st ≠ stream) : (s'.bag st).contents = (s.bag st).contents :=
  Bag.above_congr (he.populations st hne) fun j _ hj =>
    he.slot st hne j (hj.trans_le (h st hst).size_le)

lemma Changed.totalLocked (hc : Changed host stream s s' ps) (h : Inv host s)
    (hstream : stream < 3) :
    (totalLocked s' : Int) = totalLocked s + (ps.map locked).sum := by
  have hmem := Finset.mem_range.mpr hstream
  have hrest : ∑ st ∈ (Finset.range 3).erase stream, lockedSum (s'.bag st).contents =
      ∑ st ∈ (Finset.range 3).erase stream, lockedSum (s.bag st).contents := by
    refine Finset.sum_congr rfl fun st hst => ?_
    rw [Finset.mem_erase, Finset.mem_range] at hst
    rw [contents_elsewhere h hc.elsewhere hst.2 hst.1]
  have htotal := hc.moves.total
  rw [Random.totalLocked, Random.totalLocked, ← Finset.add_sum_erase _ _ hmem,
    ← Finset.add_sum_erase (Finset.range 3) (fun st => lockedSum (s.bag st).contents) hmem, hrest]
  push_cast
  omega

/-- The payments follow the collateral of every commitment. -/
lemma Changed.follow (hc : Changed host stream s s' ps) (h : Inv host s) {key : Key}
    (hkey : key.stream < 3) :
    ps.foldlM (follow key) (lockedOf (s.bag key.stream).contents key) =
      some (lockedOf (s'.bag key.stream).contents key) := by
  by_cases hst : key.stream = stream
  · rw [hst]
    exact hc.moves.follow key hst
  · rw [contents_elsewhere h hc.elsewhere hkey hst]
    exact foldlM_follow_other (fun p hp hpk => hst (hc.moves.stream p hp key hpk)) _

/-- What holds of every configuration of a run. -/
structure Sound (host : Host) (balance : W → Int) (c : Config W) : Prop where
  inv : Inv host c.state
  bitFee : c.state.bitFee = RANDOM_BITFEE
  trace : ∀ key, key.stream < 3 →
    c.trace.foldlM (Random.follow key) 0 = some (lockedOf (c.state.bag key.stream).contents key)
  donated : 0 ≤ c.donated
  balance_eq : balance c.world = totalLocked c.state + c.state.earnedAmount + c.donated

/-- A procedure that changes one stream, with a reward that is sent back, locked or earned. -/
lemma Sound.settle (h : Sound host balance c) (hexact : Exact qpi balance) {w : W}
    {reward : Int} (hw : balance w = balance c.world + reward) (hstream : stream < 3)
    (hc : Changed host stream c.state s ps) {earnedAmount : Nat}
    (hearned : earnedAmount + charged ps = c.state.earnedAmount + reward) :
    Sound host balance (settle qpi { c with world := w } { s with earnedAmount } ps) := by
  have hlocked : totalLocked { s with earnedAmount } = totalLocked s := rfl
  have htotal := hc.totalLocked h.inv hstream
  have hbalance := h.balance_eq
  have hsplit : charged ps = (ps.map outgoing).sum + (ps.map locked).sum := sum_map_add
  have hpaid : Paid balance { c with world := w, state := { s with earnedAmount } }
      (Random.settle qpi { c with world := w } { s with earnedAmount } ps) ps := by
    refine paid_foldl hexact hc.moves.deliverable ?_
    have := h.donated
    dsimp only
    omega
  have hpaidBalance := hpaid.balance_eq
  dsimp only at hpaidBalance
  refine ⟨?_, ?_, fun key hkey => ?_, ?_, ?_⟩
  · rw [hpaid.state]
    exact h.inv.of_stream hc.inv ⟨hc.elsewhere.populations, hc.elsewhere.slot⟩
  · rw [hpaid.state]
    exact hc.bitFee.trans h.bitFee
  · rw [hpaid.trace, foldlM_append, h.trace key hkey, hpaid.state]
    exact hc.follow h.inv hkey
  · rw [hpaid.donated]
    exact h.donated
  · rw [hpaid.state, hpaid.donated, hlocked]
    dsimp only
    omega

/-- What a purchase does: the reward is sent back, or the cost is kept and the rest sent back. -/
lemma buyEntropy_cases (call : Invocation) (tick : Nat) (input : BuyEntropyInput)
    (hfee : s.bitFee = RANDOM_BITFEE) :
    ((buyEntropy call tick input s).1 = s ∧
      (buyEntropy call tick input s).2.1 = [.refund call.invocator call.invocationReward]) ∨
    ∃ cost : Nat, (cost : Int) ≤ call.invocationReward ∧ (buyEntropy call tick input s).1 =
        { s with earnedAmount := (s.earnedAmount + cost) % 2 ^ 64 } ∧
      (buyEntropy call tick input s).2.1 = if call.invocationReward > cost then
        [.refund call.invocator (call.invocationReward - cost)] else [] := by
  unfold buyEntropy
  dsimp only
  by_cases hvalid : input.collateralTier ≤ 9 ∧ 1 ≤ input.numberOfBits ∧ input.numberOfBits ≤ 4096 ∧
      call.invocationReward ≥ sint64 (input.numberOfBits * s.bitFee : Int)
  · obtain ⟨-, -, hbits, hreward⟩ := hvalid
    have hcost : sint64 (input.numberOfBits * s.bitFee : Int) =
        (input.numberOfBits * RANDOM_BITFEE : Nat) := by
      rw [hfee, sint64_eq] <;> unfold RANDOM_BITFEE <;> push_cast <;> omega
    rw [hcost] at hreward ⊢
    have hnat : (uint64 ((input.numberOfBits * RANDOM_BITFEE : Nat) : Int)).toNat =
        input.numberOfBits * RANDOM_BITFEE := by
      rw [uint64_eq (by positivity) (by unfold RANDOM_BITFEE; omega), Int.toNat_natCast]
    rw [hnat]
    split_ifs <;> first
      | exact .inl ⟨rfl, rfl⟩
      | exact .inr ⟨_, hreward, rfl, by simp_all⟩
  · rw [if_neg hvalid]
    exact .inl ⟨rfl, rfl⟩

lemma Sound.step (h : Sound host balance c) (hexact : Exact qpi balance)
    (hstep : Step host qpi balance c c') : Sound host balance c' := by
  have hmod (tick : Nat) : tick % 3 < 3 := Nat.mod_lt _ (by decide)
  cases hstep with
  | donation amount w hamount hw =>
    refine ⟨h.inv, h.bitFee, h.trace, add_nonneg h.donated hamount, ?_⟩
    have := h.balance_eq
    dsimp only
    omega
  | buyEntropy call tick input w hreward hw =>
    have hinv := h.inv 0 (by decide)
    obtain ⟨hs, hps⟩ | ⟨cost, hcost, hs, hps⟩ := buyEntropy_cases call tick input h.bitFee
    · rw [hs, hps]
      exact h.settle hexact hw (by decide) (changed_refund hinv call.invocator hreward)
        (by rw [charged_refund])
    · -- what was earned is part of the balance, so the counter does not wrap
      have hbalance := h.balance_eq
      have hmax := hexact.balance_le w
      have hdonated := h.donated
      have hnowrap : (c.state.earnedAmount + cost) % 2 ^ 64 = c.state.earnedAmount + cost := by
        refine Nat.mod_eq_of_lt ?_
        have : MAX_AMOUNT < 2 ^ 64 := by decide
        omega
      rw [hs, hps, hnowrap]
      split_ifs with hmore
      · refine h.settle hexact hw (by decide) (changed_refund hinv call.invocator (by omega)) ?_
        rw [charged_refund]
        push_cast
        ring
      · refine h.settle hexact hw (by decide) (.refl hinv) ?_
        rw [charged_nil]
        omega
  | revealAndCommit call tick input w hreward hw =>
    have hout := handled_revealAndCommit h.inv hreward tick input
    exact h.settle hexact hw (hmod tick) hout.changed
      (by rw [hout.charged, hout.changed.earnedAmount])
  | endTick tick =>
    obtain ⟨hchanged, hcharged⟩ := changed_endTick h.inv tick
    exact h.settle hexact (add_zero _).symm (hmod tick) hchanged
      (by rw [hcharged, hchanged.earnedAmount])

lemma StreamInv.cell_inj {b : Bag Slot} (h : StreamInv host b) {i j : Nat} (hi : i < b.size)
    (hj : j < b.size) (hpair : (b.cell i).pair = (b.cell j).pair) : i = j := by
  have hnodup := h.distinct
  rw [Bag.contents, Bag.above, Multiset.map_coe, Multiset.coe_nodup, map_map] at hnodup
  refine inj_on_of_nodup_map hnodup ?_ ?_ hpair <;> simpa [mem_range'_1]

end

/-! ## One provider -/

def smallHost : Host := ⟨30, by decide, fun _ => ⟨5⟩⟩

end QubicCore.Contracts.Random
