import QubicCore.Contracts.Random.Basic

/-!
# The slots of a stream

The providers of a stream are a bag: the first slots are in use, the others are clear. `Enrolled`
says what a slot in use looks like between two calls.
-/

namespace QubicCore.Contracts.Random

open Library Function List State Multiset Payment Bag

variable {host : Host} {s s' : State} {stream i : Nat}
  {x : Slot}

namespace State

lemma index_inj {stream' j : Nat} (hi : i < RANDOM_STREAM_CAPACITY)
    (hj : j < RANDOM_STREAM_CAPACITY) (h : index stream i = index stream' j) :
    stream = stream' ∧ i = j := by
  unfold index RANDOM_STREAM_CAPACITY at *
  omega

def bag (s : State) (stream : Nat) : Bag Slot := ⟨s.populations stream, s.slot stream⟩

@[simp] lemma bag_size : (s.bag stream).size = s.populations stream := rfl

@[simp] lemma bag_cell : (s.bag stream).cell i = s.slot stream i := rfl

lemma update_index (f : Nat → Slot) (v : Slot) :
    (fun j => update f (index stream i) v (index stream j)) =
      update (fun j => f (index stream j)) i v := by
  funext j
  by_cases hj : j = i
  · simp [hj]
  · have : index stream j ≠ index stream i := by unfold index; omega
    simp [hj, this]

lemma bag_setSlot (v : Slot) : (s.setSlot stream i v).bag stream = (s.bag stream).set i v :=
  ext rfl (update_index _ _)

lemma bag_swapDelete : (s.swapDelete stream i).bag stream = (s.bag stream).evict i .zero := by
  refine ext (by simp [swapDelete, bag, evict]) ?_
  unfold swapDelete evict bag slot
  simp only [update_index]
  split_ifs with h
  · rw [update_index]
  · have : i = s.populations stream - 1 := by unfold index at h; omega
    subst this
    simp

/-- The other streams are as before. -/
structure Elsewhere (s s' : State) (stream : Nat) : Prop where
  populations : ∀ st ≠ stream, s'.populations st = s.populations st
  slot : ∀ st ≠ stream, ∀ j < RANDOM_STREAM_CAPACITY, s'.slot st j = s.slot st j

lemma Elsewhere.refl : Elsewhere s s stream := ⟨fun _ _ => rfl, fun _ _ _ _ => rfl⟩

lemma Elsewhere.trans {s'' : State} (h : Elsewhere s s' stream) (h' : Elsewhere s' s'' stream) :
    Elsewhere s s'' stream :=
  ⟨fun st hst => (h'.populations st hst).trans (h.populations st hst),
    fun st hst j hj => (h'.slot st hst j hj).trans (h.slot st hst j hj)⟩

lemma elsewhere_setSlot (hi : i < RANDOM_STREAM_CAPACITY) (v : Slot) :
    Elsewhere s (s.setSlot stream i v) stream := by
  refine ⟨fun _ _ => rfl, fun st hst j hj => ?_⟩
  have hne : index st j ≠ index stream i := fun h => hst (index_inj hj hi h).1
  simp only [slot, setSlot]
  rw [update_of_ne hne]

lemma elsewhere_swapDelete (hi : i < RANDOM_STREAM_CAPACITY)
    (hpop : s.populations stream ≤ RANDOM_STREAM_CAPACITY) (hpos : 0 < s.populations stream) :
    Elsewhere s (s.swapDelete stream i) stream := by
  refine ⟨fun st hst => update_of_ne hst _ _, fun st hst j hj => ?_⟩
  have hne (k : Nat) (hk : k < RANDOM_STREAM_CAPACITY) : index st j ≠ index stream k :=
    fun h => hst (index_inj hj hk h).1
  unfold swapDelete slot
  dsimp only
  rw [update_of_ne (hne _ (by omega))]
  split_ifs
  · exact update_of_ne (hne i hi) _ _
  · rfl

end State

/-- A slot in use. Either a collateral is locked for an open commit, or the provider is leaving
and has its collateral back. -/
structure Enrolled (host : Host) (x : Slot) : Prop where
  user : host.isContractId x.provider = false
  collateralTier_lt : x.collateralTier < 10
  pledge : (x.lockedCollateralAmount = 10 ^ x.collateralTier ∧ x.commit ≠ 0) ∨
    (x.lockedCollateralAmount = 0 ∧ x.commit = 0 ∧ x.revealedThisTickFlag)
  revealed : x.revealedThisTickFlag → x.revealOrCommitFlag

/-- Who has not taken part in the tick has a collateral to lose. -/
lemma Enrolled.locked_pos (h : Enrolled host x) (hf : x.revealOrCommitFlag = false) :
    0 < x.lockedCollateralAmount := by
  obtain ⟨hl, -⟩ | ⟨-, -, hr⟩ := h.pledge
  · rw [hl]
    positivity
  · rw [h.revealed hr] at hf
    contradiction

def Slot.pair (x : Slot) : M256i × Nat := (x.provider, x.collateralTier)

/-- The slots of one stream between two calls. -/
structure StreamInv (host : Host) (b : Bag Slot) : Prop where
  size_le : b.size ≤ RANDOM_STREAM_CAPACITY
  enrolled : ∀ x ∈ b.contents, Enrolled host x
  distinct : (b.contents.map Slot.pair).Nodup
  cleared : ∀ j, b.size ≤ j → j < RANDOM_STREAM_CAPACITY → b.cell j = .zero

namespace StreamInv

variable {b : Bag Slot}

lemma cell_enrolled (h : StreamInv host b) (hi : i < b.size) : Enrolled host (b.cell i) :=
  h.enrolled _ (mem_contents.mpr ⟨i, hi, rfl⟩)

lemma congr {b' : Bag Slot} (h : StreamInv host b) (hsize : b'.size = b.size)
    (hcell : ∀ j < RANDOM_STREAM_CAPACITY, b'.cell j = b.cell j) : StreamInv host b' := by
  have hc : b'.contents = b.contents :=
    above_congr hsize fun j _ hj => hcell j (hj.trans_le h.size_le)
  refine ⟨hsize ▸ h.size_le, hc ▸ h.enrolled, hc ▸ h.distinct, fun j hj hj' => ?_⟩
  rw [hcell j hj']
  exact h.cleared j (hsize ▸ hj) hj'

lemma set (h : StreamInv host b) (hi : i < b.size) (hx : Enrolled host x)
    (hpair : x.pair = (b.cell i).pair) : StreamInv host (b.set i x) := by
  obtain ⟨rest, hb, hset, -⟩ := Bag.contents_split hi
  have hdistinct := h.distinct
  refine ⟨h.size_le, fun y hy => ?_, ?_, fun j hj hj' => ?_⟩
  · rw [hset, Multiset.mem_cons] at hy
    obtain rfl | hy := hy
    · exact hx
    · exact h.enrolled y (by rw [hb]; exact mem_cons_of_mem hy)
  · rw [hb] at hdistinct
    rwa [hset, Multiset.map_cons, hpair, ← Multiset.map_cons]
  · rw [Bag.set_cell_of_ne (by simp only [Bag.set_size] at hj; omega)]
    exact h.cleared j hj hj'

lemma evict (h : StreamInv host b) (hi : i < b.size) : StreamInv host (b.evict i .zero) := by
  obtain ⟨rest, hb, -, hevict⟩ := Bag.contents_split hi
  have hle : rest ≤ b.contents := hb ▸ le_cons_self _ _
  refine ⟨(Nat.sub_le _ _).trans h.size_le, fun y hy => ?_, ?_, fun j hj hj' => ?_⟩
  · rw [hevict] at hy
    exact h.enrolled y (mem_of_le hle hy)
  · rw [hevict]
    exact nodup_of_le (map_le_map hle) h.distinct
  · simp only [Bag.evict] at hj ⊢
    by_cases hlast : j = b.size - 1
    · simp [hlast]
    · rw [update_of_ne hlast, update_of_ne (by omega)]
      exact h.cleared j (by omega) hj'

end StreamInv

def Inv (host : Host) (s : State) : Prop := ∀ stream < 3, StreamInv host (s.bag stream)

lemma Inv.of_stream (h : Inv host s) (hs : StreamInv host (s'.bag stream))
    (he : State.Elsewhere s s' stream) : Inv host s' := by
  intro st hst
  by_cases hne : st = stream
  · exact hne ▸ hs
  · exact (h st hst).congr (he.populations st hne) (he.slot st hne)

lemma inv_init : Inv host init := by
  refine fun stream _ => ⟨Nat.zero_le _, ?_, ?_, fun _ _ _ => rfl⟩ <;>
    simp [contents, above, init, bag]

/-! ## Collateral -/

def Payment.key : Payment → Option Key
  | .refund .. => none
  | .lock key _ => some key
  | .giveBack key _ _ => some key
  | .slash key _ => some key

def Payment.locked : Payment → Int
  | .refund .. => 0
  | .lock _ amount => amount
  | .giveBack _ _ amount => -amount
  | .slash _ amount => -amount

/-- What a payment takes from the balance of the contract. -/
def Payment.outgoing : Payment → Int
  | .refund _ amount => amount
  | .lock .. => 0
  | .giveBack _ _ amount => amount
  | .slash _ amount => amount

def Payment.Deliverable (host : Host) : Payment → Prop
  | .refund _ amount => 0 ≤ amount
  | .giveBack _ destination _ => host.isContractId destination = false
  | _ => True

/-- The part of the payments that is made with the reward of a call: it is sent back or locked. -/
def charged (ps : List Payment) : Int := (ps.map fun p => p.outgoing + p.locked).sum

@[simp] lemma charged_append (ps ps' : List Payment) :
    charged (ps ++ ps') = charged ps + charged ps' := by simp [charged]

@[simp] lemma charged_nil : charged [] = 0 := rfl

@[simp] lemma charged_refund (destination : M256i) (amount : Int) :
    charged [.refund destination amount] = amount := by
  simp [charged, outgoing, locked]

@[simp] lemma charged_lock (key : Key) (amount : Nat) : charged [.lock key amount] = amount := by
  simp [charged, outgoing, locked]

@[simp] lemma charged_giveBack (key : Key) (destination : M256i) (amount : Nat) :
    charged [.giveBack key destination amount] = 0 := by
  simp [charged, outgoing, locked]

@[simp] lemma charged_slash (key : Key) (amount : Nat) : charged [.slash key amount] = 0 := by
  simp [charged, outgoing, locked]

/-- The collateral of one commitment, followed through the payments: it is locked when there is
none, and given back to its provider or burned when it is there, in full. -/
def follow (key : Key) (held : Nat) (p : Payment) : Option Nat :=
  if p.key = some key then
    match p with
    | .refund .. => some held
    | .lock _ amount => if held = 0 ∧ 0 < amount then some amount else none
    | .giveBack _ destination amount =>
      if held = amount ∧ 0 < amount ∧ destination = key.provider then some 0 else none
    | .slash _ amount => if held = amount ∧ 0 < amount then some 0 else none
  else some held

lemma foldlM_follow_other {key : Key} {ps : List Payment} (h : ∀ p ∈ ps, p.key ≠ some key)
    (held : Nat) : ps.foldlM (follow key) held = some held := by
  induction ps with
  | nil => rfl
  | cons p ps ih =>
    have hp : follow key held p = some held := if_neg (h p (by simp))
    rw [foldlM_cons, hp]
    exact ih fun q hq => h q (by simp [hq])

lemma follow_total {key : Key} {p : Payment} (hkey : p.key = none ∨ p.key = some key)
    {old new : Nat} (h : follow key old p = some new) : (new : Int) = old + p.locked := by
  cases p with
  | refund destination amount =>
    simp only [follow, Payment.key, Payment.locked] at h ⊢
    simp_all
  | lock k amount | giveBack k destination amount | slash k amount =>
    obtain rfl : k = key := by simpa [Payment.key] using hkey
    simp only [follow, Payment.key, if_true, Payment.locked] at h ⊢
    split_ifs at h
    simp_all

lemma foldlM_follow_total {key : Key} {ps : List Payment}
    (h : ∀ p ∈ ps, p.key = none ∨ p.key = some key) {old new : Nat}
    (hf : ps.foldlM (follow key) old = some new) :
    (new : Int) = old + (ps.map locked).sum := by
  induction ps generalizing old with
  | nil => simpa using hf.symm
  | cons p ps ih =>
    obtain ⟨mid, hp, hf⟩ := Option.bind_eq_some_iff.mp hf
    have hmid := follow_total (h p (by simp)) hp
    rw [ih (fun q hq => h q (by simp [hq])) hf, hmid]
    simp [add_assoc]

def lockedOf (m : Multiset Slot) (key : Key) : Nat :=
  (m.map fun x => if x.pair = (key.provider, key.collateralTier) then x.lockedCollateralAmount
    else 0).sum

def lockedSum (m : Multiset Slot) : Nat := (m.map Slot.lockedCollateralAmount).sum

/-- The payments account for the collateral that is locked in a stream before and after. -/
structure Moves (host : Host) (stream : Nat) (m m' : Multiset Slot) (ps : List Payment) :
    Prop where
  follow : ∀ key, key.stream = stream →
    ps.foldlM (follow key) (lockedOf m key) = some (lockedOf m' key)
  stream : ∀ p ∈ ps, ∀ key, p.key = some key → key.stream = stream
  total : (lockedSum m' : Int) = lockedSum m + (ps.map locked).sum
  deliverable : ∀ p ∈ ps, p.Deliverable host

namespace Moves

variable {m m' m'' : Multiset Slot} {ps ps' : List Payment}

lemma refl : Moves host stream m m [] := ⟨fun _ _ => rfl, by simp, by simp, by simp⟩

lemma trans (h : Moves host stream m m' ps) (h' : Moves host stream m' m'' ps') :
    Moves host stream m m'' (ps ++ ps') := by
  refine ⟨fun key hkey => ?_, fun p hp => ?_, ?_, fun p hp => ?_⟩
  · rw [foldlM_append, h.follow key hkey]
    exact h'.follow key hkey
  · obtain hp | hp := mem_append.mp hp
    · exact h.stream p hp
    · exact h'.stream p hp
  · rw [h'.total, h.total, map_append, sum_append, add_assoc]
  · obtain hp | hp := mem_append.mp hp
    · exact h.deliverable p hp
    · exact h'.deliverable p hp

/-- One slot with an amount `old` locked in it takes part, and `new` is locked in it afterwards. -/
lemma of_slot (key : Key) (old new : Nat) {rest : Multiset Slot} (hkey : key.stream = stream)
    (hm : ∀ k, lockedOf m k =
      (if (key.provider, key.collateralTier) = (k.provider, k.collateralTier) then old else 0) +
        lockedOf rest k)
    (hm' : ∀ k, lockedOf m' k =
      (if (key.provider, key.collateralTier) = (k.provider, k.collateralTier) then new else 0) +
        lockedOf rest k)
    (hsum : lockedSum m = old + lockedSum rest) (hsum' : lockedSum m' = new + lockedSum rest)
    (hrest : lockedOf rest key = 0) (hps : ∀ p ∈ ps, p.key = none ∨ p.key = some key)
    (hfollow : ps.foldlM (Random.follow key) old = some new)
    (hdel : ∀ p ∈ ps, p.Deliverable host) : Moves host stream m m' ps := by
  have htotal := foldlM_follow_total hps hfollow
  refine ⟨fun k hk => ?_, fun p hp k hpk => ?_, by rw [hsum, hsum']; push_cast; omega, hdel⟩
  · by_cases hkk : k = key
    · subst hkk
      simpa [hm, hm', hrest] using hfollow
    · have hne : (key.provider, key.collateralTier) ≠ (k.provider, k.collateralTier) := by
        intro he
        refine hkk ?_
        cases k
        cases key
        simp_all
      rw [hm, hm', if_neg hne, if_neg hne]
      refine foldlM_follow_other (fun p hp hpk => ?_) _
      obtain h | h := hps p hp <;> rw [h] at hpk
      · contradiction
      · exact hkk (Option.some.inj hpk).symm
  · obtain h | h := hps p hp <;> rw [h] at hpk
    · contradiction
    · rw [← Option.some.inj hpk, hkey]

end Moves

lemma lockedOf_cons (x : Slot) (m : Multiset Slot) (key : Key) :
    lockedOf (x ::ₘ m) key = (if x.pair = (key.provider, key.collateralTier) then
      x.lockedCollateralAmount else 0) + lockedOf m key := by
  simp [lockedOf]

lemma lockedSum_cons (x : Slot) (m : Multiset Slot) :
    lockedSum (x ::ₘ m) = x.lockedCollateralAmount + lockedSum m := by simp [lockedSum]

def Slot.key (x : Slot) (stream : Nat) : Key := ⟨stream, x.provider, x.collateralTier⟩

lemma lockedOf_rest {rest : Multiset Slot} {key : Key} (h : ((x ::ₘ rest).map Slot.pair).Nodup)
    (hkey : x.pair = (key.provider, key.collateralTier)) : lockedOf rest key = 0 := by
  rw [Multiset.map_cons, Multiset.nodup_cons] at h
  refine Multiset.sum_eq_zero fun n hn => ?_
  obtain ⟨y, hy, rfl⟩ := mem_map.mp hn
  refine if_neg fun hpair => h.1 ?_
  rw [hkey, ← hpair]
  exact mem_map_of_mem _ hy

section

variable {b : Bag Slot} {ps : List Payment} (h : StreamInv host b) (hi : i < b.size)
  (hps : ∀ p ∈ ps, p.key = none ∨ p.key = some ((b.cell i).key stream))
  (hdel : ∀ p ∈ ps, p.Deliverable host)

include h hi hps hdel

lemma moves_set (hpair : x.pair = (b.cell i).pair)
    (hfollow : ps.foldlM (follow ((b.cell i).key stream)) (b.cell i).lockedCollateralAmount =
      some x.lockedCollateralAmount) :
    Moves host stream b.contents (b.set i x).contents ps := by
  obtain ⟨rest, hb, hset, -⟩ := contents_split hi
  have hdistinct := h.distinct
  rw [hb] at hdistinct
  rw [hb, hset]
  refine .of_slot ((b.cell i).key stream) _ _ rfl (lockedOf_cons _ _) (fun k => ?_)
    (lockedSum_cons _ _) (lockedSum_cons _ _) (lockedOf_rest hdistinct rfl) hps hfollow hdel
  rw [lockedOf_cons, hpair]
  rfl

lemma moves_evict
    (hfollow : ps.foldlM (follow ((b.cell i).key stream)) (b.cell i).lockedCollateralAmount =
      some 0) :
    Moves host stream b.contents (b.evict i .zero).contents ps := by
  obtain ⟨rest, hb, -, hevict⟩ := contents_split hi
  have hdistinct := h.distinct
  rw [hb] at hdistinct
  rw [hb, hevict]
  exact .of_slot ((b.cell i).key stream) _ 0 rfl (lockedOf_cons _ _) (fun k => by simp)
    (lockedSum_cons _ _) (by simp) (lockedOf_rest hdistinct rfl) hps hfollow hdel

end

/-! ## Changes of one stream -/

/-- What a procedure may do to the slots: one stream changes and keeps its invariant, and the
payments account for the collateral. -/
structure Changed (host : Host) (stream : Nat) (s s' : State) (ps : List Payment) : Prop where
  inv : StreamInv host (s'.bag stream)
  elsewhere : State.Elsewhere s s' stream
  moves : Moves host stream (s.bag stream).contents (s'.bag stream).contents ps
  earnedAmount : s'.earnedAmount = s.earnedAmount
  bitFee : s'.bitFee = s.bitFee

namespace Changed

variable {s'' : State} {ps ps' : List Payment}

section

variable (h : StreamInv host (s.bag stream))
include h

lemma refl : Changed host stream s s [] := ⟨h, .refl, .refl, rfl, rfl⟩

omit h in
lemma trans (h : Changed host stream s s' ps) (h' : Changed host stream s' s'' ps') :
    Changed host stream s s'' (ps ++ ps') :=
  ⟨h'.inv, h.elsewhere.trans h'.elsewhere, h.moves.trans h'.moves,
    h'.earnedAmount.trans h.earnedAmount, h'.bitFee.trans h.bitFee⟩

lemma of_eq (hslots : s'.slots = s.slots)
    (hpop : s'.populations = s.populations) (hearned : s'.earnedAmount = s.earnedAmount)
    (hfee : s'.bitFee = s.bitFee) : Changed host stream s s' [] := by
  have hslot : ∀ st, s'.slot st = s.slot st := fun st => by
    funext j
    simp only [slot, hslots]
  have hbag : s'.bag stream = s.bag stream := by rw [bag, bag, hpop, hslot]
  exact ⟨hbag ▸ h, ⟨fun st _ => by rw [hpop], fun st _ _ _ => by rw [hslot]⟩,
    by rw [hbag]; exact .refl, hearned, hfee⟩

lemma setSlot (hi : i < s.populations stream) (hx : Enrolled host x)
    (hpair : x.pair = (s.slot stream i).pair)
    (hps : ∀ p ∈ ps, p.key = none ∨ p.key = some ((s.slot stream i).key stream))
    (hdel : ∀ p ∈ ps, p.Deliverable host)
    (hfollow : ps.foldlM (follow ((s.slot stream i).key stream))
      (s.slot stream i).lockedCollateralAmount = some x.lockedCollateralAmount) :
    Changed host stream s (s.setSlot stream i x) ps := by
  refine ⟨?_, elsewhere_setSlot (hi.trans_le h.size_le) x, ?_, rfl, rfl⟩
  · rw [bag_setSlot]
    exact h.set hi hx hpair
  · rw [bag_setSlot]
    exact moves_set h hi hps hdel hpair hfollow

lemma evict (hi : i < s.populations stream)
    (hbag : s'.bag stream = (s.bag stream).evict i .zero) (he : State.Elsewhere s s' stream)
    (hearned : s'.earnedAmount = s.earnedAmount) (hfee : s'.bitFee = s.bitFee)
    (hps : ∀ p ∈ ps, p.key = none ∨ p.key = some ((s.slot stream i).key stream))
    (hdel : ∀ p ∈ ps, p.Deliverable host)
    (hfollow : ps.foldlM (follow ((s.slot stream i).key stream))
      (s.slot stream i).lockedCollateralAmount = some 0) :
    Changed host stream s s' ps := by
  refine ⟨?_, he, ?_, hearned, hfee⟩
  · rw [hbag]
    exact h.evict hi
  · rw [hbag]
    exact moves_evict h hi hps hdel hfollow

lemma push (hroom : s.populations stream < RANDOM_STREAM_CAPACITY) (hx : Enrolled host x)
    (hnew : ∀ y ∈ (s.bag stream).contents, y.pair ≠ x.pair)
    (hpos : 0 < x.lockedCollateralAmount) :
    Changed host stream s
      { s.setSlot stream (s.populations stream) x with
        populations := update s.populations stream (s.populations stream + 1) }
      [.lock (x.key stream) x.lockedCollateralAmount] := by
  set s' : State := { s.setSlot stream (s.populations stream) x with
    populations := update s.populations stream (s.populations stream + 1) } with hs'
  have hcell : (s'.bag stream).cell = update (s.slot stream) (s.populations stream) x :=
    update_index _ _
  have hsize : (s'.bag stream).size = (s.bag stream).size + 1 := by simp [hs']
  have hcontents : (s'.bag stream).contents = x ::ₘ (s.bag stream).contents := by
    have hold (j : Nat) (hj : j < s.populations stream) :
        (s'.bag stream).cell j = (s.bag stream).cell j := by
      rw [hcell, update_of_ne (Nat.ne_of_lt hj)]
      rfl
    rw [Bag.contents_push hsize hold, hcell]
    simp
  have hdistinct : ((x ::ₘ (s.bag stream).contents).map Slot.pair).Nodup := by
    rw [Multiset.map_cons, Multiset.nodup_cons]
    refine ⟨fun hmem => ?_, h.distinct⟩
    obtain ⟨y, hy, hpair⟩ := Multiset.mem_map.mp hmem
    exact hnew y hy hpair
  refine ⟨⟨?_, fun y hy => ?_, hcontents ▸ hdistinct, fun j hj hj' => ?_⟩, ?_, ?_, rfl, rfl⟩
  · rw [hsize]
    exact hroom
  · rw [hcontents, Multiset.mem_cons] at hy
    obtain rfl | hy := hy
    · exact hx
    · exact h.enrolled y hy
  · rw [hsize] at hj
    rw [hcell, update_of_ne (by simp only [bag_size] at hj; omega)]
    exact h.cleared j (by omega) hj'
  · have he : State.Elsewhere s (s.setSlot stream (s.populations stream) x) stream :=
      elsewhere_setSlot hroom x
    exact ⟨fun st hst => update_of_ne hst _ _, he.slot⟩
  · rw [hcontents]
    refine .of_slot (x.key stream) 0 _ rfl (fun k => by simp) (lockedOf_cons _ _) (by simp)
      (lockedSum_cons _ _) (lockedOf_rest hdistinct rfl) (by simp [Payment.key]) ?_
      (by simp [Payment.Deliverable])
    simp [Random.follow, Payment.key, hpos]

end

end Changed

end QubicCore.Contracts.Random
