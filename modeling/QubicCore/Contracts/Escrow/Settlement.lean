import QubicCore.Contracts.Escrow.Reservations

/-!
# Acceptance, all or nothing

`AcceptDeal` moves the shares of a deal one asset after the other and pays the QU at the end,
forward if the last move succeeded and back otherwise. Shares that moved before a failure are not
moved back.
-/

namespace QubicCore.Contracts.Escrow

open Library MathLib List
open QubicCore.Qpi (Collection Entry)

/-- The shares that reach the other side. -/
def AssetWithAmount.paid (x : AssetWithAmount) : Int := (counted x).1

def paidOf (xs : List AssetWithAmount) (a : Asset) : Int :=
  (xs.map fun x => if x.asset = a then x.paid else 0).sum

def paidQu (qu : Nat) : Int := qu - additionalFee qu

/-- Every asset and the QU reach the other side. -/
structure Exchanged (deal : Deal) (dealOwner : M256i) (call : Invocation) (moves : List Move) :
    Prop where
  offered : ∀ a, sharesMoved a dealOwner call.invocator moves = paidOf deal.offeredAssets a
  requested : ∀ a, sharesMoved a call.invocator dealOwner moves = paidOf deal.requestedAssets a
  offeredQU : quTo call.invocator moves =
    call.invocationReward - requestedQuAndFee deal + paidQu deal.offeredQU
  requestedQU : quTo dealOwner moves = paidQu deal.requestedQU

/-- Nothing passes from one side to the other: each side gets back at most its own QU. -/
structure Untouched (deal : Deal) (dealOwner : M256i) (call : Invocation) (moves : List Move) :
    Prop where
  offered : ∀ a, sharesMoved a dealOwner call.invocator moves = 0
  requested : ∀ a, sharesMoved a call.invocator dealOwner moves = 0
  acceptorQU : quTo call.invocator moves ≤ call.invocationReward
  ownerQU : quTo dealOwner moves ≤ deal.offeredQU

def AllOrNothing (deal : Deal) (dealOwner : M256i) (call : Invocation) (moves : List Move) : Prop :=
  Exchanged deal dealOwner call moves ∨ Untouched deal dealOwner call moves

/-- An amount can be moved out of some holdings. -/
def goes (leg : AssetWithAmount × Int) : Bool := 0 < leg.1.amount ∧ leg.1.paid ≤ leg.2

/-- The moves of a deal in their order, each with what its source holds. The acceptor may give what
was just received. -/
def legs {W : Type} (host : AssetHost W) (deal : Deal) (dealOwner acceptor : M256i) (w : W) :
    List (AssetWithAmount × Int) :=
  deal.offeredAssets.map (fun x => (x, host.shares SELF_INDEX x.asset dealOwner w)) ++
    deal.requestedAssets.map fun x =>
      (x, host.shares SELF_INDEX x.asset acceptor w + paidOf deal.offeredAssets x.asset)

/-- No move fails; or the first one does; or nothing is left to exchange when one fails. -/
def Settles {W : Type} (host : AssetHost W) (deal : Deal) (dealOwner acceptor : M256i) (w : W) :
    Prop :=
  (∀ leg ∈ legs host deal dealOwner acceptor w, goes leg) ∨
  (∃ leg rest, legs host deal dealOwner acceptor w = leg :: rest ∧ ¬goes leg) ∨
  ((∀ leg ∈ (legs host deal dealOwner acceptor w).dropWhile goes, leg.1.amount = 0) ∧
    paidQu deal.offeredQU = paidQu deal.requestedQU)

/-- The checks that `AcceptDeal` makes before it moves anything. -/
def Refused {W : Type} (host : AssetHost W) (call : Invocation) (index : Int) (deal : Deal)
    (s : State) (w : W) : Prop :=
  deal.index ≠ index ∨ (deal.acceptorId ≠ SELF ∧ deal.acceptorId ≠ call.invocator) ∨
    (∃ x ∈ deal.requestedAssets, lacks host call s.reservedAssets w x) ∨
    wide call.invocationReward < requestedQuAndFee deal

/-! ## Amounts -/

section

variable {x : AssetWithAmount} {xs : List AssetWithAmount} {a : Asset}

lemma paid_spec (hlt : (x.amount : Int) < MAX_AMOUNT) :
    0 ≤ x.paid ∧ (0 < x.paid ↔ 0 < x.amount) := by
  obtain ⟨hpaid, -, -⟩ := sint64_fee hlt
  have hfee := additionalFee_eq hlt
  unfold AssetWithAmount.paid counted
  split_ifs
  · simp only [sint64_amount hlt]
    omega
  · omega

lemma paidOf_cons (x : AssetWithAmount) (xs : List AssetWithAmount) (a : Asset) :
    paidOf (x :: xs) a = (if x.asset = a then x.paid else 0) + paidOf xs a := by
  rfl

lemma paidOf_append (xs ys : List AssetWithAmount) (a : Asset) :
    paidOf (xs ++ ys) a = paidOf xs a + paidOf ys a := by
  rw [paidOf, map_append, sum_append]
  rfl

lemma paidOf_nonneg (hlt : ∀ x ∈ xs, (x.amount : Int) < MAX_AMOUNT) (a : Asset) :
    0 ≤ paidOf xs a := by
  induction xs with
  | nil => exact le_rfl
  | cons x xs ih =>
    have hx := (paid_spec (hlt x mem_cons_self)).1
    have hrest := ih fun y hy => hlt y (mem_cons_of_mem x hy)
    rw [paidOf_cons]
    split_ifs <;> omega

lemma paidOf_eq_zero_iff (hlt : ∀ x ∈ xs, (x.amount : Int) < MAX_AMOUNT) :
    (∀ a, paidOf xs a = 0) ↔ ∀ x ∈ xs, x.amount = 0 := by
  induction xs with
  | nil => simp [paidOf]
  | cons x xs ih =>
    have hx := paid_spec (hlt x mem_cons_self)
    have hrest : ∀ y ∈ xs, (y.amount : Int) < MAX_AMOUNT := fun y hy =>
      hlt y (mem_cons_of_mem x hy)
    rw [forall_mem_cons, ← ih hrest]
    constructor
    · intro h
      have hzero : x.amount = 0 := by
        have hself := h x.asset
        have hnonneg := paidOf_nonneg hrest x.asset
        rw [paidOf_cons, if_pos rfl] at hself
        omega
      refine ⟨hzero, fun a => ?_⟩
      have ha := h a
      rw [paidOf_cons] at ha
      split_ifs at ha <;> omega
    · rintro ⟨hzero, h⟩ a
      rw [paidOf_cons, h a]
      split_ifs <;> omega

lemma paidQu_spec {qu : Nat} (h : (qu : Int) < MAX_AMOUNT) :
    0 ≤ paidQu qu ∧ paidQu qu ≤ qu ∧ sint64 (qu - additionalFee qu) = paidQu qu ∧
      (0 < qu ↔ 0 < paidQu qu) := by
  have hfee := additionalFee_eq h
  have hpaid := (sint64_fee h).1
  unfold paidQu
  refine ⟨by omega, by omega, hpaid, by omega⟩

lemma le_addShareFees (xs : List AssetWithAmount) {n : Nat} (h : n ≤ UINT64_MAX) :
    n ≤ addShareFees xs n ∧ addShareFees xs n ≤ UINT64_MAX := by
  induction xs generalizing n with
  | nil => exact ⟨le_rfl, h⟩
  | cons x xs ih =>
    have hadd : n ≤ (if x.issuer = NULL_ID then
        saddUnsigned (smulUnsigned x.amount ESCROW_FEE_PER_SHARE) n else n) ∧
        (if x.issuer = NULL_ID then
          saddUnsigned (smulUnsigned x.amount ESCROW_FEE_PER_SHARE) n else n) ≤ UINT64_MAX := by
      have hmul := smulUnsigned_le x.amount ESCROW_FEE_PER_SHARE
      unfold saddUnsigned
      split_ifs <;> omega
    exact ⟨hadd.1.trans (ih hadd.2).1, (ih hadd.2).2⟩

lemma le_requestedQuAndFee {d : Deal} (h : d.WellFormed) : d.requestedQU ≤ requestedQuAndFee d := by
  have hle : d.requestedQU ≤ UINT64_MAX := by
    have := amount_lt h.requestedQU_lt
    unfold UINT64_MAX
    omega
  have hfirst := le_addShareFees d.requestedAssets hle
  exact hfirst.1.trans (le_addShareFees d.offeredAssets hfirst.2).1

end

/-! ## Moves that are recorded -/

section

variable {W : Type} {host : AssetHost W} {balance : W → Int} {call : Invocation}
  {x : AssetWithAmount} {source destination : M256i} {p : W × List Move} {r : Int × W × List Move}
  {xs : List AssetWithAmount} {owner : M256i}

/-- What one move of an asset does to the record, and to the shares that it does not take. -/
structure Moved (host : AssetHost W) (balance : W → Int) (x : AssetWithAmount)
    (source destination : M256i) (p : W × List Move) (r : Int × W × List Move) : Prop where
  result : 0 ≤ r.1 ↔ goes (x, host.shares SELF_INDEX x.asset source p.1)
  moves : ∀ a y z, z ≠ SELF → sharesMoved a y z r.2.2 = sharesMoved a y z p.2 +
    if 0 ≤ r.1 ∧ x.asset = a ∧ source = y ∧ destination = z then x.paid else 0
  qu : ∀ y, quTo y r.2.2 = quTo y p.2
  balance : balance r.2.1 = balance p.1
  shares : ∀ a y, y ≠ SELF → a ≠ x.asset ∨ y ≠ source →
    host.shares SELF_INDEX a y r.2.1 = host.shares SELF_INDEX a y p.1 +
      if 0 ≤ r.1 ∧ x.asset = a ∧ destination = y then x.paid else 0

lemma moveShares_recorded (hexact : host.Exact SELF_INDEX balance)
    (hlt : (x.amount : Int) < MAX_AMOUNT) (source : M256i) (hzero : destination ≠ NULL_ID)
    (p : W × List Move) :
    Moved host balance x source destination p
      (host.recorded.moveShares x.asset source destination x.paid p) := by
  have hpaid := paid_spec hlt
  have hresult : 0 ≤ (host.recorded.moveShares x.asset source destination x.paid p).1 ↔
      goes (x, host.shares SELF_INDEX x.asset source p.1) := by
    rw [goes, decide_eq_true_eq]
    constructor
    · intro hmoved
      by_contra hnot
      have hrefused := (hexact.recorded.moveShares_refused x.asset source destination x.paid p
        fun h => hnot ⟨hpaid.2.mp h.1, h.2⟩).1
      exact absurd hmoved (not_le.mpr hrefused)
    · rintro ⟨hpos, hle⟩
      exact (hexact.recorded.moveShares_moved x.asset source destination x.paid p hzero
        (hpaid.2.mpr hpos) hle).1
  refine ⟨hresult, fun a y z _ => sharesMoved_moveShares .., fun y => quTo_moveShares ..,
    hexact.recorded.moveShares_balance .., fun a y _ hne => ?_⟩
  by_cases hgoes : 0 < x.paid ∧ x.paid ≤ host.shares SELF_INDEX x.asset source p.1
  · obtain ⟨hok, hshares⟩ := hexact.moveShares_moved x.asset source destination x.paid p.1
      hzero hgoes.1 hgoes.2
    refine (hshares a y).trans ?_
    rw [sharesLoss_of_ne hne, sub_zero, sharesLoss]
    have hok' : 0 ≤ (host.recorded.moveShares x.asset source destination x.paid p).1 := hok
    simp only [hok', true_and, eq_comm]
  · obtain ⟨hfail, hshares⟩ := hexact.moveShares_refused x.asset source destination x.paid p.1 hgoes
    refine (hshares a y).trans ?_
    have hfail' : ¬0 ≤ (host.recorded.moveShares x.asset source destination x.paid p).1 :=
      not_le.mpr hfail
    rw [if_neg fun h => hfail' h.1, add_zero]

/-- A fee goes to the contract, so it counts for neither side. -/
lemma Moved.fee (hexact : host.Exact SELF_INDEX balance)
    (h : Moved host balance x source destination p r) (fee : Int) :
    Moved host balance x source destination p
      (r.1, (host.recorded.moveShares x.asset source SELF fee r.2).2) := by
  refine ⟨h.result, fun a y z hz => ?_, fun y => ?_, ?_, fun a y hy hne => ?_⟩
  · rw [← h.moves a y z hz]
    refine (sharesMoved_moveShares ..).trans ?_
    rw [if_neg fun h => hz h.2.2.2.symm, add_zero]
  · exact (quTo_moveShares ..).trans (h.qu y)
  · exact (hexact.recorded.moveShares_balance ..).trans h.balance
  · refine Eq.trans ?_ (h.shares a y hy hne)
    by_cases hgoes : 0 < fee ∧ fee ≤ host.shares SELF_INDEX x.asset source r.2.1
    · have hmoved := (hexact.moveShares_moved x.asset source SELF fee r.2.1 (by decide) hgoes.1
        hgoes.2).2 a y
      refine hmoved.trans ?_
      rw [sharesLoss_of_ne hne, sharesLoss_of_ne (.inr hy), add_zero, sub_zero]
    · exact (hexact.moveShares_refused x.asset source SELF fee r.2.1 hgoes).2 a y

lemma moveAsset_recorded (hexact : host.Exact SELF_INDEX balance)
    (hlt : (x.amount : Int) < MAX_AMOUNT) (source : M256i) (hzero : destination ≠ NULL_ID)
    (p : W × List Move) :
    Moved host balance x source destination p
      (moveAsset host.recorded x source destination p) := by
  have hfirst := moveShares_recorded hexact hlt source hzero p
  unfold moveAsset
  split_ifs with hissuer
  · have hpaid : x.paid = sint64 x.amount := by rw [AssetWithAmount.paid, counted, if_pos hissuer]
    rwa [hpaid] at hfirst
  · have hpaid : x.paid = sint64 (x.amount - additionalFee x.amount) := by
      rw [AssetWithAmount.paid, counted, if_neg hissuer]
    rw [hpaid] at hfirst
    exact hfirst.fee hexact _

/-! ## The loops -/

/-- What the moves of a list of assets do, of which the first ones succeed. -/
structure Legs (host : AssetHost W) (balance : W → Int) (source destination : M256i)
    (xs gone : List AssetWithAmount) (p : W × List Move) (result : Int) (p' : W × List Move) :
    Prop where
  result : 0 ≤ result ↔ gone = xs
  moves : ∀ a y z, z ≠ SELF → sharesMoved a y z p'.2 = sharesMoved a y z p.2 +
    if source = y ∧ destination = z then paidOf gone a else 0
  qu : ∀ y, quTo y p'.2 = quTo y p.2
  balance : balance p'.1 = balance p.1
  received : gone = xs → destination ≠ SELF → destination ≠ source → ∀ a,
    host.shares SELF_INDEX a destination p'.1 =
      host.shares SELF_INDEX a destination p.1 + paidOf xs a

lemma Legs.nil (p : W × List Move) {result : Int} (h : 0 ≤ result) :
    Legs host balance source destination [] [] p result p := by
  refine ⟨iff_of_true h rfl, fun a y z _ => ?_, fun _ => rfl, rfl, fun _ _ _ a => ?_⟩
  · rw [show paidOf [] a = 0 from rfl, ite_self, add_zero]
  · rw [show paidOf [] a = 0 from rfl, add_zero]

lemma Legs.fail (xs : List AssetWithAmount) (h : Moved host balance x source destination p r)
    (hfail : r.1 < 0) :
    Legs host balance source destination (x :: xs) [] p r.1 r.2 := by
  refine ⟨iff_of_false (not_le.mpr hfail) (cons_ne_nil x xs).symm, fun a y z hz => ?_, h.qu,
    h.balance, fun hnil => absurd hnil.symm (cons_ne_nil x xs)⟩
  rw [h.moves a y z hz, if_neg fun h => absurd h.1 (not_le.mpr hfail),
    show paidOf [] a = 0 from rfl, ite_self]

lemma Legs.cons {p' : W × List Move} {gone : List AssetWithAmount} {result : Int}
    (h : Moved host balance x source destination p r) (hok : 0 ≤ r.1)
    (hrest : Legs host balance source destination xs gone r.2 result p') :
    Legs host balance source destination (x :: xs) (x :: gone) p result p' := by
  refine ⟨hrest.result.trans (by simp), fun a y z hz => ?_, fun y => (hrest.qu y).trans (h.qu y),
    hrest.balance.trans h.balance, fun hall hself hne a => ?_⟩
  · rw [hrest.moves a y z hz, h.moves a y z hz, paidOf_cons, add_assoc]
    congr 1
    by_cases hyz : source = y ∧ destination = z
    · simp [hyz, hok]
    · have hno : ¬(0 ≤ r.1 ∧ x.asset = a ∧ source = y ∧ destination = z) := fun h => hyz h.2.2
      rw [if_neg hyz, if_neg hyz, if_neg hno, add_zero]
  · rw [hrest.received (List.cons.inj hall).2 hself hne a, h.shares a destination hself (.inr hne),
      paidOf_cons, add_assoc]
    simp [hok]

/-- One move of a list, unless an earlier one failed. -/
def leg (host : AssetHost W) (source destination : M256i) (r : Int × W) (x : AssetWithAmount) :
    Int × W :=
  if 0 ≤ r.1 then moveAsset host x source destination r.2 else r

lemma offeredLegs_eq (t : Exchange W) :
    xs.foldl (leg host owner call.invocator) (t.transferResult, t.world) =
      ((xs.foldl (offeredLeg host call owner) t).transferResult,
        (xs.foldl (offeredLeg host call owner) t).world) := by
  refine List.foldl_hom (fun t : Exchange W => (t.transferResult, t.world)) fun t x => ?_
  unfold leg offeredLeg
  split_ifs <;> rfl

lemma legs_failed {r : Int × W} (h : r.1 < 0) :
    xs.foldl (leg host source destination) r = r :=
  foldl_fixed' (fun _ => if_neg (not_le.mpr h)) xs

lemma requestedLegs_eq {t : Exchange W} (h : 0 ≤ t.transferResult) :
    xs.foldl (leg host call.invocator owner) (t.transferResult, t.world) =
      ((requestedLegs host call owner xs t).transferResult,
        (requestedLegs host call owner xs t).world) := by
  induction xs generalizing t with
  | nil => rfl
  | cons x xs ih =>
    rw [foldl_cons, leg, if_pos h, requestedLegs]
    dsimp only
    split_ifs with hfail
    · exact legs_failed hfail
    · exact ih (t := ⟨_, _, _, t.transferredShares, t.transferredFeeShares⟩) (not_lt.mp hfail)

lemma legs_recorded (hexact : host.Exact SELF_INDEX balance) (hsource : source ≠ SELF)
    (hzero : destination ≠ NULL_ID) (hnodup : (xs.map AssetWithAmount.asset).Nodup)
    (hlt : ∀ x ∈ xs, (x.amount : Int) < MAX_AMOUNT) (holds : AssetWithAmount → Int)
    (hresult : 0 ≤ r.1)
    (hholds : ∀ x ∈ xs, host.shares SELF_INDEX x.asset source r.2.1 = holds x) :
    Legs host balance source destination xs (xs.takeWhile fun x => goes (x, holds x)) r.2
      (xs.foldl (leg host.recorded source destination) r).1
      (xs.foldl (leg host.recorded source destination) r).2 := by
  induction xs generalizing r with
  | nil => exact .nil r.2 hresult
  | cons x xs ih =>
    rw [map_cons, nodup_cons] at hnodup
    have hmoved := moveAsset_recorded hexact (hlt x mem_cons_self) source hzero r.2
    have hresult' := hmoved.result
    rw [hholds x mem_cons_self] at hresult'
    rw [foldl_cons, leg, if_pos hresult]
    by_cases hgoes : goes (x, holds x)
    · have hok := hresult'.mpr hgoes
      rw [takeWhile_cons, if_pos hgoes]
      refine Legs.cons hmoved hok (ih hnodup.2 (fun y hy => hlt y (mem_cons_of_mem x hy)) hok
        fun y hy => ?_)
      have hne : y.asset ≠ x.asset := fun heq => hnodup.1 (heq ▸ mem_map_of_mem hy)
      rw [hmoved.shares y.asset source hsource (.inl hne), if_neg fun h => hne h.2.1.symm, add_zero]
      exact hholds y (mem_cons_of_mem x hy)
    · have hfail := not_le.mp fun h => hgoes (hresult'.mp h)
      rw [takeWhile_cons, if_neg hgoes, legs_failed hfail]
      exact Legs.fail xs hmoved hfail

/-- The shares that change hands in one acceptance: the first ones of each list. -/
structure Settled (host : AssetHost W) (balance : W → Int) (d : Deal) (owner acceptor : M256i)
    (p : W × List Move) (result : Int) (p' : W × List Move)
    (gone rest gone' rest' : List AssetWithAmount) : Prop where
  offered : d.offeredAssets = gone ++ rest
  requested : d.requestedAssets = gone' ++ rest'
  taken : ((legs host d owner acceptor p.1).takeWhile goes).map Prod.fst = gone ++ gone'
  left : ((legs host d owner acceptor p.1).dropWhile goes).map Prod.fst = rest ++ rest'
  result : 0 ≤ result ↔ rest ++ rest' = []
  offeredMoves : ∀ a, sharesMoved a owner acceptor p'.2 =
    sharesMoved a owner acceptor p.2 + paidOf gone a
  requestedMoves : ∀ a, sharesMoved a acceptor owner p'.2 =
    sharesMoved a acceptor owner p.2 + paidOf gone' a
  qu : ∀ y, quTo y p'.2 = quTo y p.2
  balance : balance p'.1 = balance p.1

/-- Where all moves of the first list succeed, the second list decides. -/
lemma legs_split_all {h : AssetWithAmount → Int} (hall : ∀ x ∈ xs, goes (x, h x))
    (ys : List AssetWithAmount) (h' : AssetWithAmount → Int) :
    ((xs.map (fun x => (x, h x)) ++ ys.map fun x => (x, h' x)).takeWhile goes).map Prod.fst =
      xs ++ (ys.takeWhile fun x => goes (x, h' x)) ∧
    ((xs.map (fun x => (x, h x)) ++ ys.map fun x => (x, h' x)).dropWhile goes).map Prod.fst =
      ys.dropWhile fun x => goes (x, h' x) := by
  induction xs with
  | nil => simp [takeWhile_map, dropWhile_map, Function.comp_def]
  | cons x xs ih =>
    have hx := hall x mem_cons_self
    obtain ⟨htake, hdrop⟩ := ih fun y hy => hall y (mem_cons_of_mem x hy)
    rw [map_cons, cons_append, takeWhile_cons, if_pos hx, dropWhile_cons,
      if_pos hx, map_cons, htake, hdrop]
    exact ⟨rfl, rfl⟩

/-- Where a move of the first list fails, nothing of the second list moves. -/
lemma legs_split_fail {h : AssetWithAmount → Int} (hfail : ¬∀ x ∈ xs, goes (x, h x))
    (ys : List (AssetWithAmount × Int)) :
    ((xs.map (fun x => (x, h x)) ++ ys).takeWhile goes).map Prod.fst =
      (xs.takeWhile fun x => goes (x, h x)) ∧
    ((xs.map (fun x => (x, h x)) ++ ys).dropWhile goes).map Prod.fst =
      (xs.dropWhile fun x => goes (x, h x)) ++ ys.map Prod.fst := by
  induction xs with
  | nil => exact absurd (fun x hx => by cases hx) hfail
  | cons x xs ih =>
    rw [map_cons, cons_append]
    by_cases hx : goes (x, h x)
    · obtain ⟨htake, hdrop⟩ := ih fun hall => hfail (forall_mem_cons.mpr ⟨hx, hall⟩)
      simp only [takeWhile_cons, dropWhile_cons, hx, if_true, map_cons, htake, hdrop, and_self]
    · simp [hx, Function.comp_def]

lemma exchange_recorded (hexact : host.Exact SELF_INDEX balance) {d : Deal} (hd : d.WellFormed)
    (howner : Party owner) (hcall : Party call.invocator) (hparties : owner ≠ call.invocator)
    (s : State) (p : W × List Move) :
    ∃ gone rest gone' rest', Settled host balance d owner call.invocator p
      (exchange host.recorded call d owner s p).transferResult
      (exchange host.recorded call d owner s p).world gone rest gone' rest' := by
  let holds : AssetWithAmount → Int := fun x => host.shares SELF_INDEX x.asset owner p.1
  let holds' : AssetWithAmount → Int := fun x =>
    host.shares SELF_INDEX x.asset call.invocator p.1 + paidOf d.offeredAssets x.asset
  have hoffered := legs_recorded (r := (0, p)) hexact howner.1 hcall.2 hd.offered_nodup
    hd.offered_lt holds le_rfl fun x _ => rfl
  rw [offeredLegs_eq ⟨s, p, 0, 0, 0⟩] at hoffered
  by_cases hall : ∀ x ∈ d.offeredAssets, goes (x, holds x)
  · have hgone : (d.offeredAssets.takeWhile fun x => goes (x, holds x)) = d.offeredAssets :=
      takeWhile_eq_self_iff.mpr hall
    rw [hgone] at hoffered
    have hok := hoffered.result.mpr rfl
    have hexchange : exchange host.recorded call d owner s p =
        requestedLegs host.recorded call owner d.requestedAssets
          (d.offeredAssets.foldl (offeredLeg host.recorded call owner) ⟨s, p, 0, 0, 0⟩) :=
      if_pos hok
    have hrequested := legs_recorded hexact hcall.1 howner.2 hd.requested_nodup
      hd.requested_lt holds' hok fun x _ => hoffered.received rfl hcall.1 hparties.symm x.asset
    rw [requestedLegs_eq hok, ← hexchange] at hrequested
    obtain ⟨htaken, hleft⟩ := legs_split_all hall d.requestedAssets holds'
    refine ⟨d.offeredAssets, [], _, d.requestedAssets.dropWhile fun x => goes (x, holds' x),
      (append_nil _).symm, takeWhile_append_dropWhile.symm, htaken, hleft, ?_,
      fun a => ?_, fun a => ?_, fun y => (hrequested.qu y).trans (hoffered.qu y),
      hrequested.balance.trans hoffered.balance⟩
    · rw [hrequested.result, nil_append, takeWhile_eq_self_iff, dropWhile_eq_nil_iff]
    · rw [hrequested.moves a _ _ hcall.1, if_neg fun h => hparties h.1.symm, add_zero,
        hoffered.moves a _ _ hcall.1, if_pos ⟨rfl, rfl⟩]
    · rw [hrequested.moves a _ _ howner.1, if_pos ⟨rfl, rfl⟩, hoffered.moves a _ _ howner.1,
        if_neg fun h => hparties h.1, add_zero]
  · have hfail : ¬0 ≤ (d.offeredAssets.foldl (offeredLeg host.recorded call owner)
        ⟨s, p, 0, 0, 0⟩).transferResult := by
      rw [hoffered.result, takeWhile_eq_self_iff]
      exact hall
    have hexchange : exchange host.recorded call d owner s p =
        d.offeredAssets.foldl (offeredLeg host.recorded call owner) ⟨s, p, 0, 0, 0⟩ := if_neg hfail
    rw [hexchange]
    obtain ⟨htaken, hleft⟩ := legs_split_fail hall
      (d.requestedAssets.map fun x => (x, holds' x))
    rw [map_map, show Prod.fst ∘ (fun x => (x, holds' x)) = id from rfl, map_id] at hleft
    refine ⟨_, d.offeredAssets.dropWhile fun x => goes (x, holds x), [], d.requestedAssets,
      takeWhile_append_dropWhile.symm, rfl, htaken.trans (append_nil _).symm, hleft,
      iff_of_false hfail ?_, fun a => ?_, fun a => ?_, hoffered.qu, hoffered.balance⟩
    · intro hnil
      exact hall (dropWhile_eq_nil_iff.mp (append_eq_nil_iff.mp hnil).1)
    · rw [hoffered.moves a _ _ hcall.1, if_pos ⟨rfl, rfl⟩]
    · rw [hoffered.moves a _ _ howner.1, if_neg fun h => hparties h.1]
      rfl

/-! ## Payments -/

/-- What a payment of QU does to the record. -/
structure PaidOut (host : AssetHost W) (balance : W → Int) (account : M256i) (amount : Int)
    (p p' : W × List Move) : Prop where
  moves : ∀ a y z, sharesMoved a y z p'.2 = sharesMoved a y z p.2
  qu : ∀ y, quTo y p'.2 = quTo y p.2 + if account = y then amount else 0
  balance_le : balance p.1 ≤ balance p'.1 + amount
  shares : ∀ a y, host.shares SELF_INDEX a y p'.1 = host.shares SELF_INDEX a y p.1

lemma PaidOut.none (account : M256i) (p : W × List Move) : PaidOut host balance account 0 p p :=
  ⟨fun _ _ _ => rfl, fun y => by rw [ite_self, add_zero], by rw [add_zero], fun _ _ => rfl⟩

section

variable (hexact : host.Exact SELF_INDEX balance)
include hexact

lemma transfer_recorded (account : M256i) {amount : Int}
    (hnonneg : 0 ≤ amount) (hle : amount ≤ balance p.1) :
    PaidOut host balance account amount p (host.recorded.transfer account amount p).2 := by
  refine ⟨fun a y z => sharesMoved_transfer .., fun y => ?_, ?_, fun a y =>
    hexact.transfer_shares account amount p.1 a y⟩
  · exact quTo_transfer (hexact.recorded.transfer_paid account amount p hnonneg hle) y
  · have hbalance := hexact.transfer_balance account amount p.1
    rwa [max_eq_left hnonneg] at hbalance

lemma payQu_recorded (account : M256i) {qu : Nat}
    (hlt : (qu : Int) < MAX_AMOUNT) (hle : (qu : Int) ≤ balance p.1) :
    PaidOut host balance account (paidQu qu) p (payQu host.recorded account qu p) := by
  obtain ⟨hnonneg, hle', hsint, hpos⟩ := paidQu_spec hlt
  unfold payQu
  split_ifs with hqu
  · rw [hsint]
    exact transfer_recorded hexact account hnonneg (hle'.trans hle)
  · have hzero : paidQu qu = 0 := le_antisymm (not_lt.mp fun h => hqu (hpos.mpr h)) hnonneg
    rw [hzero]
    exact .none account p

lemma refundExcess_recorded
    (hreward : 0 ≤ call.invocationReward ∧ call.invocationReward ≤ MAX_AMOUNT) {fee : Nat}
    (hfee : ¬wide call.invocationReward < fee) (hle : call.invocationReward ≤ balance p.1) :
    PaidOut host balance call.invocator (call.invocationReward - fee) p
      (refundExcess host.recorded call fee p) := by
  have hmax : (MAX_AMOUNT : Int) < 2 ^ 63 := by decide
  have hwide : (wide call.invocationReward : Int) = call.invocationReward := by
    rw [wide, uint64_eq (by omega) (by omega)]
    omega
  unfold refundExcess
  split_ifs with hexcess
  · have hsint : sint64 (call.invocationReward - fee) = call.invocationReward - fee :=
      sint64_eq (by omega) (by omega)
    rw [hsint]
    exact transfer_recorded hexact call.invocator (by omega) (by omega)
  · have hzero : call.invocationReward - fee = 0 := by omega
    rw [hzero]
    exact .none call.invocator p

lemma exchangeQu_recorded {d : Deal} (hd : d.WellFormed)
    (hparties : owner ≠ call.invocator) (result : Int)
    (hle : (d.offeredQU + d.requestedQU : Int) ≤ balance p.1) :
    (∀ a y z, sharesMoved a y z (exchangeQu host.recorded call d owner result p).2 =
      sharesMoved a y z p.2) ∧
    quTo call.invocator (exchangeQu host.recorded call d owner result p).2 =
      quTo call.invocator p.2 + (if 0 ≤ result then paidQu d.offeredQU else paidQu d.requestedQU) ∧
    quTo owner (exchangeQu host.recorded call d owner result p).2 =
      quTo owner p.2 + (if 0 ≤ result then paidQu d.requestedQU else paidQu d.offeredQU) := by
  have hpair : ∀ {x y : M256i} {n m : Nat}, x ≠ y → (n : Int) < MAX_AMOUNT →
      (m : Int) < MAX_AMOUNT → (n + m : Int) ≤ balance p.1 → ∀ p', p' = payQu host.recorded y m
        (payQu host.recorded x n p) → (∀ a u v, sharesMoved a u v p'.2 = sharesMoved a u v p.2) ∧
        quTo x p'.2 = quTo x p.2 + paidQu n ∧ quTo y p'.2 = quTo y p.2 + paidQu m := by
    rintro x y n m hne hn hm hsum p' rfl
    have hfirst := payQu_recorded hexact x hn (p := p) (by omega)
    have hbalance := hfirst.balance_le
    have hspec := paidQu_spec hn
    have hsecond := payQu_recorded hexact y hm (p := payQu host.recorded x n p) (by omega)
    refine ⟨fun a u v => (hsecond.moves a u v).trans (hfirst.moves a u v), ?_, ?_⟩
    · rw [hsecond.qu, if_neg hne.symm, add_zero, hfirst.qu, if_pos rfl]
    · rw [hsecond.qu, if_pos rfl, hfirst.qu, if_neg hne, add_zero]
  unfold exchangeQu
  split_ifs
  · exact hpair hparties.symm hd.offeredQU_lt hd.requestedQU_lt hle _ rfl
  · obtain ⟨hmoves, howner, hcaller⟩ := hpair hparties hd.offeredQU_lt hd.requestedQU_lt hle _ rfl
    exact ⟨hmoves, hcaller, howner⟩

end

end

/-! ## All or nothing -/

section

variable {W : Type} {host : AssetHost W} {balance : W → Int} {call : Invocation} {d : Deal}
  {owner : M256i}

/-- The record of a whole acceptance decides whether it was all or nothing. -/
lemma allOrNothing_iff_settles (hd : d.WellFormed) {p p' : W × List Move} {result : Int}
    {gone rest gone' rest' : List AssetWithAmount}
    (h : Settled host balance d owner call.invocator p result p' gone rest gone' rest')
    {moves : List Move}
    (hoffered : ∀ a, sharesMoved a owner call.invocator moves = paidOf gone a)
    (hrequested : ∀ a, sharesMoved a call.invocator owner moves = paidOf gone' a)
    (hcaller : quTo call.invocator moves = call.invocationReward - requestedQuAndFee d +
      if 0 ≤ result then paidQu d.offeredQU else paidQu d.requestedQU)
    (howner : quTo owner moves =
      if 0 ≤ result then paidQu d.requestedQU else paidQu d.offeredQU) :
    AllOrNothing d owner call moves ↔ Settles host d owner call.invocator p.1 := by
  have hrest : ∀ x ∈ rest, (x.amount : Int) < MAX_AMOUNT := fun x hx =>
    hd.offered_lt x (h.offered ▸ mem_append_right _ hx)
  have hrest' : ∀ x ∈ rest', (x.amount : Int) < MAX_AMOUNT := fun x hx =>
    hd.requested_lt x (h.requested ▸ mem_append_right _ hx)
  have hgone : ∀ x ∈ gone, (x.amount : Int) < MAX_AMOUNT := fun x hx =>
    hd.offered_lt x (h.offered ▸ mem_append_left _ hx)
  have hgone' : ∀ x ∈ gone', (x.amount : Int) < MAX_AMOUNT := fun x hx =>
    hd.requested_lt x (h.requested ▸ mem_append_left _ hx)
  have hfee := le_requestedQuAndFee hd
  have hqu := paidQu_spec hd.requestedQU_lt
  have hqu' := paidQu_spec hd.offeredQU_lt
  have hall : (∀ leg ∈ legs host d owner call.invocator p.1, goes leg) ↔ rest ++ rest' = [] := by
    rw [← h.left, map_eq_nil_iff, dropWhile_eq_nil_iff]
  have hleft : (∀ leg ∈ (legs host d owner call.invocator p.1).dropWhile goes,
      leg.1.amount = 0) ↔ ∀ x ∈ rest ++ rest', x.amount = 0 := by
    rw [← h.left, forall_mem_map]
  have hpos : ∀ x ∈ gone ++ gone', 0 < x.amount := by
    intro x hx
    rw [← h.taken] at hx
    obtain ⟨leg, hleg, rfl⟩ := mem_map.mp hx
    have hgoes := mem_takeWhile_imp hleg
    rw [goes, decide_eq_true_eq] at hgoes
    exact hgoes.1
  have hexchanged : (∀ x ∈ rest ++ rest', x.amount = 0) →
      (0 ≤ result ∨ paidQu d.offeredQU = paidQu d.requestedQU) →
      Exchanged d owner call moves := by
    intro hzero hmoney
    have hpaid := (paidOf_eq_zero_iff hrest).mpr fun x hx => hzero x (mem_append_left _ hx)
    have hpaid' := (paidOf_eq_zero_iff hrest').mpr fun x hx => hzero x (mem_append_right _ hx)
    refine ⟨fun a => ?_, fun a => ?_, ?_, ?_⟩
    · rw [hoffered, h.offered, paidOf_append, hpaid, add_zero]
    · rw [hrequested, h.requested, paidOf_append, hpaid', add_zero]
    · rw [hcaller]
      split_ifs with hok
      · rfl
      · rw [hmoney.resolve_left hok]
    · rw [howner]
      split_ifs with hok
      · rfl
      · exact hmoney.resolve_left hok
  constructor
  · intro hboth
    by_cases hok : rest ++ rest' = []
    · exact .inl (hall.mpr hok)
    have hfail : ¬0 ≤ result := fun hres => hok (h.result.mp hres)
    obtain hex | hun := hboth
    · -- Everything was exchanged although a move failed: nothing was left to exchange.
      refine .inr (.inr ⟨hleft.mpr fun x hx => ?_, ?_⟩)
      · have hpaid : ∀ a, paidOf rest a = 0 := fun a => by
          have := (hoffered a).symm.trans (hex.offered a)
          rw [h.offered, paidOf_append] at this
          omega
        have hpaid' : ∀ a, paidOf rest' a = 0 := fun a => by
          have := (hrequested a).symm.trans (hex.requested a)
          rw [h.requested, paidOf_append] at this
          omega
        obtain hx | hx := mem_append.mp hx
        · exact (paidOf_eq_zero_iff hrest).mp hpaid x hx
        · exact (paidOf_eq_zero_iff hrest').mp hpaid' x hx
      · have := howner.symm.trans hex.requestedQU
        rwa [if_neg hfail] at this
    · -- Nothing moved, so the first move failed.
      have hnone : gone ++ gone' = [] := by
        refine eq_nil_iff_forall_not_mem.mpr fun x hx => ?_
        have hx' := hpos x hx
        have hzero : x.amount = 0 := by
          obtain hx | hx := mem_append.mp hx
          · exact (paidOf_eq_zero_iff hgone).mp (fun a => (hoffered a).symm.trans (hun.offered a))
              x hx
          · exact (paidOf_eq_zero_iff hgone').mp
              (fun a => (hrequested a).symm.trans (hun.requested a)) x hx
        omega
      have htaken := h.taken
      rw [hnone, map_eq_nil_iff] at htaken
      refine .inr (.inl ?_)
      cases hlegs : legs host d owner call.invocator p.1 with
      | nil => exact absurd (hall.mp fun leg hleg => by rw [hlegs] at hleg; cases hleg) hok
      | cons leg left =>
        refine ⟨leg, left, rfl, fun hgoes => ?_⟩
        rw [hlegs, takeWhile_cons, if_pos hgoes] at htaken
        exact cons_ne_nil _ _ htaken
  · rintro (hgo | ⟨leg, left, hlegs, hstop⟩ | ⟨hzero, hequal⟩)
    · have hnil := hall.mp hgo
      exact .inl (hexchanged (by rw [hnil]; exact fun x hx => by cases hx)
        (.inl (h.result.mpr hnil)))
    · have hnone : gone ++ gone' = [] := by
        rw [← h.taken, hlegs, takeWhile_cons, if_neg hstop]
        rfl
      obtain ⟨hnil, hnil'⟩ := append_eq_nil_iff.mp hnone
      have hfail : ¬0 ≤ result := fun hres =>
        hstop (hall.mpr (h.result.mp hres) leg (hlegs ▸ mem_cons_self))
      refine .inr ⟨fun a => ?_, fun a => ?_, ?_, ?_⟩
      · rw [hoffered, hnil]
        rfl
      · rw [hrequested, hnil']
        rfl
      · omega
      · rw [howner, if_neg hfail]
        exact hqu'.2.1
    · exact .inl (hexchanged (hleft.mp hzero) (.inr hequal))

end

/-! ## Deals of a run -/

section

variable {W : Type} {host : AssetHost W} {call : Invocation} {s : State} {w : W} {s' : State}

/-- Every deal passed the checks of `CreateDeal`, and none belongs to the contract. -/
structure Formed (s : State) : Prop where
  deals : ∀ e ∈ s.deals.entries, e.2.WellFormed
  owners : ∀ e ∈ s.dealIndexOwnerMap.entries, Party e.2

/-- No deal is added or changed. -/
structure Keeps (s s' : State) : Prop where
  deals : s'.deals.entries ⊆ s.deals.entries
  owners : s'.dealIndexOwnerMap.entries ⊆ s.dealIndexOwnerMap.entries

lemma Keeps.of_eq (hdeals : s'.deals = s.deals)
    (howners : s'.dealIndexOwnerMap = s.dealIndexOwnerMap) : Keeps s s' :=
  ⟨hdeals ▸ List.Subset.refl _, howners ▸ List.Subset.refl _⟩

lemma Keeps.refl (s : State) : Keeps s s := .of_eq rfl rfl

lemma Keeps.trans {s'' : State} (h : Keeps s s') (h' : Keeps s' s'') : Keeps s s'' :=
  ⟨List.Subset.trans h'.deals h.deals, List.Subset.trans h'.owners h.owners⟩

lemma Formed.of_keeps (h : Formed s) (hkeeps : Keeps s s') : Formed s' :=
  ⟨fun e he => h.deals e (hkeeps.deals he), fun e he => h.owners e (hkeeps.owners he)⟩

lemma erase_subset {V : Type} (m : AList fun _ : Int => V) (k : Int) :
    (m.erase k).entries ⊆ m.entries := (kerase_sublist k m.entries).subset

lemma mem_insert_entries {V : Type} {m : AList fun _ : Int => V} {k : Int} {v : V}
    {e : Sigma fun _ : Int => V} (h : e ∈ (m.insert k v).entries) : e = ⟨k, v⟩ ∨ e ∈ m.entries := by
  exact (mem_cons.mp h).imp id fun h => (kerase_sublist k m.entries).subset h

lemma mem_setMap_entries {V : Type} {L : Nat} {m : AList fun _ : Int => V} {k : Int} {v : V}
    {e : Sigma fun _ : Int => V} (h : e ∈ (setMap L m k v).entries) :
    e = ⟨k, v⟩ ∨ e ∈ m.entries := by
  unfold setMap at h
  split_ifs at h
  · exact mem_insert_entries h
  · exact .inr h

lemma removeDeal_keeps (index : Int) (owner acceptor : M256i) (s : State) :
    Keeps s (removeDeal index owner acceptor s) := ⟨erase_subset _ _, erase_subset _ _⟩

lemma earnToken_keeps (x : AssetWithAmount) (s : State) : Keeps s (earnToken x s) := by
  obtain ⟨tokens, htokens⟩ := earnToken_eq x s
  rw [htokens]
  exact .of_eq rfl rfl

lemma offeredLegs_keeps (owner : M256i) (xs : List AssetWithAmount) (t : Exchange W) :
    Keeps t.state (xs.foldl (offeredLeg host call owner) t).state := by
  induction xs generalizing t with
  | nil => exact .refl _
  | cons x xs ih =>
    refine Keeps.trans ?_ (ih _)
    have hearn := earnToken_keeps x t.state
    unfold offeredLeg
    split_ifs
    · exact ⟨hearn.deals, hearn.owners⟩
    · exact ⟨hearn.deals, hearn.owners⟩

lemma requestedLegs_keeps (owner : M256i) (xs : List AssetWithAmount) (t : Exchange W) :
    Keeps t.state (requestedLegs host call owner xs t).state := by
  induction xs generalizing t with
  | nil => exact .refl _
  | cons x xs ih =>
    rw [requestedLegs]
    split_ifs
    · exact .of_eq rfl rfl
    · exact (earnToken_keeps x t.state).trans
        (ih ⟨_, _, _, t.transferredShares, t.transferredFeeShares⟩)

lemma acceptDeal_keeps (index : Int) : Keeps s (acceptDeal host call index s w).1 := by
  unfold acceptDeal
  split
  · rename_i d owner hd ho
    split_ifs
    · exact .refl s
    · have hexchange : ∀ w', Keeps s (exchange host call d owner s w').state := by
        intro w'
        unfold exchange
        dsimp only
        split_ifs
        · exact (offeredLegs_keeps owner _ ⟨s, w', 0, 0, 0⟩).trans (requestedLegs_keeps owner _ _)
        · exact offeredLegs_keeps owner _ ⟨s, w', 0, 0, 0⟩
      have hremove := (hexchange (refundExcess host call (requestedQuAndFee d) w)).trans
        (removeDeal_keeps index owner call.invocator _)
      exact ⟨hremove.deals, hremove.owners⟩
  · exact .refl s

lemma beginEpoch_keeps (epoch : Nat) (owners : List M256i) :
    Keeps s (beginEpoch host epoch owners s w).1 := by
  have hdeals : ∀ (owner : M256i) (ks : List Int) (t : Expiry W),
      Keeps t.state (ks.foldl (expireDeal host epoch owner) t).state := by
    intro owner ks
    induction ks with
    | nil => exact fun t => .refl _
    | cons k ks ih =>
      intro t
      refine Keeps.trans ?_ (ih _)
      unfold expireDeal
      dsimp only
      split_ifs
      · exact .refl _
      · exact ⟨erase_subset _ _, erase_subset _ _⟩
      · exact ⟨erase_subset _ _, erase_subset _ _⟩
  have howners : ∀ t : Expiry W, Keeps t.state (owners.foldl (expireDeals host epoch) t).state := by
    induction owners with
    | nil => exact fun t => .refl _
    | cons o os ih => exact fun t => (hdeals o _ t).trans (ih _)
  exact howners ⟨s, w, noDeal⟩

lemma endEpoch_keeps (tokens : List Asset) : Keeps s (endEpoch host tokens s w).1 := by
  have hqu : Keeps s (distributeQu host s w).1 := by
    unfold distributeQu
    dsimp only
    split_ifs <;> exact .of_eq rfl rfl
  have htokens : ∀ p : State × W, Keeps p.1 (tokens.foldl (distributeToken host) p).1 := by
    induction tokens with
    | nil => exact fun p => .refl _
    | cons token tokens ih =>
      intro p
      refine Keeps.trans ?_ (ih _)
      unfold distributeToken
      dsimp only
      split_ifs <;> exact .of_eq rfl rfl
  exact hqu.trans (htokens _)

lemma Call.run_formed (h : Formed s) (hcall : Party call.invocator) (c : Call) :
    Formed (c.run host call s w).1 := by
  cases c with
  | createDeal epoch input =>
    change Formed (Escrow.createDeal host call epoch input s w).1
    unfold Escrow.createDeal
    split_ifs with hlength herror
    · exact h
    · exact h
    · rw [not_or] at herror
      have hwell := (newDeal_wellFormed epoch hlength herror.1).1
      refine ⟨fun e he => ?_, fun e he => ?_⟩
      · obtain rfl | he := mem_setMap_entries he
        · exact hwell
        · exact h.deals e he
      · obtain rfl | he := mem_setMap_entries he
        · exact hcall
        · exact h.owners e he
  | acceptDeal index => exact h.of_keeps (acceptDeal_keeps index)
  | makeDealPublic index =>
    change Formed (Escrow.makeDealPublic host call index s w).1
    unfold Escrow.makeDealPublic
    split
    · rename_i d owner hd ho
      have hwell := h.deals ⟨index, d⟩ (AList.mem_lookup_iff.mp hd)
      have hpublic :
          Formed { s with deals := s.deals.insert index { d with acceptorId := SELF } } := by
        refine ⟨fun e he => ?_, h.owners⟩
        obtain rfl | he := mem_insert_entries he
        · exact { hwell with }
        · exact h.deals e he
      split_ifs
      · exact h
      · exact ⟨hpublic.deals, hpublic.owners⟩
      · exact ⟨hpublic.deals, hpublic.owners⟩
    · exact h
  | cancelDeal index =>
    apply h.of_keeps
    dsimp only [Call.run, Escrow.cancelDeal]
    split
    · split_ifs
      · exact .refl s
      · exact ⟨erase_subset _ _, erase_subset _ _⟩
    · exact .refl s
  | transferShareManagementRights input =>
    apply h.of_keeps
    dsimp only [Call.run, Escrow.transferShareManagementRights]
    split_ifs <;> exact .refl s
  | beginEpoch epoch owners => exact h.of_keeps (beginEpoch_keeps epoch owners)
  | endEpoch tokens => exact h.of_keeps (endEpoch_keeps tokens)

lemma formed_of_run {allowed : State → Call → Prop} {devAddress : M256i} {w₀ : W} {p : State × W}
    (hrun : Relation.ReflTransGen (Step host allowed) (State.init devAddress, w₀) p) :
    Formed p.1 := by
  induction hrun with
  | refl => exact ⟨fun e he => (by cases he), fun e he => (by cases he)⟩
  | tail _ hstep ih =>
    obtain ⟨s, w, w', call, c, -, hcall, -, -⟩ := hstep
    exact Call.run_formed ih hcall c

end

section

variable {W : Type} {host : AssetHost W} {balance : W → Int} {call : Invocation} {s : State} {w : W}
  {d : Deal} {owner : M256i} {index : Int}

lemma lacks_recorded (c : Collection AssetWithAmount) (w : W) (moves : List Move)
    (x : AssetWithAmount) :
    lacks host.recorded call c (w, moves) x = lacks host call c w x := rfl

lemma acceptDeal_refused (hexact : host.Exact SELF_INDEX balance)
    (hd : s.deals.lookup index = some d) (ho : s.dealIndexOwnerMap.lookup index = some owner)
    (hparties : owner ≠ call.invocator) (hle : call.invocationReward ≤ balance w)
    (hreward : 0 ≤ call.invocationReward) (hrefused : Refused host call index d s w) :
    Untouched d owner call (acceptDeal host.recorded call index s (w, [])).2.2 := by
  have hworld : acceptDeal host.recorded call index s (w, []) =
      (s, refund host.recorded call (w, [])) := by
    rw [acceptDeal, hd, ho]
    refine if_pos ?_
    simpa [Refused, any_eq_true, lacks_recorded] using hrefused
  have hpaid : PaidOut host balance call.invocator call.invocationReward (w, [])
      (refund host.recorded call (w, [])) := by
    unfold refund
    split_ifs with hpos
    · exact transfer_recorded hexact call.invocator hreward hle
    · rw [le_antisymm (not_lt.mp hpos) hreward]
      exact .none call.invocator _
  rw [hworld]
  refine ⟨fun a => hpaid.moves a _ _, fun a => hpaid.moves a _ _, ?_, ?_⟩
  · rw [hpaid.qu, if_pos rfl]
    exact (zero_add _).le
  · rw [hpaid.qu, if_neg hparties.symm]
    exact Int.natCast_nonneg _

/-- In every state that the contract reaches, the acceptance of a live deal by another account is
all or nothing exactly if it is refused, or no move of shares fails, or the first one does, or
nothing is left to exchange when one fails. -/
theorem acceptDeal_allOrNothing_iff (hexact : host.Exact SELF_INDEX balance) {devAddress : M256i}
    {w₀ w' : W}
    (hrun : Relation.ReflTransGen (Step host fun _ _ => True) (State.init devAddress, w₀) (s, w'))
    (hd : s.deals.lookup index = some d) (ho : s.dealIndexOwnerMap.lookup index = some owner)
    (hcall : Party call.invocator) (hparties : owner ≠ call.invocator)
    (hreward : 0 ≤ call.invocationReward ∧ call.invocationReward ≤ MAX_AMOUNT)
    (hfunds : d.offeredQU + call.invocationReward ≤ balance w) :
    AllOrNothing d owner call (acceptDeal host.recorded call index s (w, [])).2.2 ↔
      Refused host call index d s w ∨ Settles host d owner call.invocator w := by
  have hformed := formed_of_run hrun
  have hwell : d.WellFormed := hformed.deals ⟨index, d⟩ (AList.mem_lookup_iff.mp hd)
  have howner : Party owner := hformed.owners ⟨index, owner⟩ (AList.mem_lookup_iff.mp ho)
  by_cases hrefused : Refused host call index d s w
  · have huntouched := acceptDeal_refused hexact hd ho hparties (by omega) hreward.1 hrefused
    exact iff_of_true (.inr huntouched) (.inl hrefused)
  · rw [or_iff_right hrefused]
    have hfee : ¬wide call.invocationReward < requestedQuAndFee d := fun h =>
      hrefused (.inr (.inr (.inr h)))
    have hexcess := refundExcess_recorded hexact hreward hfee (p := (w, [])) (by
      change call.invocationReward ≤ balance w
      omega)
    set p := refundExcess host.recorded call (requestedQuAndFee d) (w, [])
    obtain ⟨gone, rest, gone', rest', hsettled⟩ := exchange_recorded hexact hwell howner hcall
      hparties s p
    set r := exchange host.recorded call d owner s p
    have hbalance : (d.offeredQU + d.requestedQU : Int) ≤ balance r.world.1 := by
      have hle := hexcess.balance_le
      have hrequested := le_requestedQuAndFee hwell
      rw [hsettled.balance]
      change balance w ≤ _ at hle
      omega
    obtain ⟨hmoves, hcaller, howns⟩ := exchangeQu_recorded hexact hwell hparties
      r.transferResult hbalance
    have hworld : (acceptDeal host.recorded call index s (w, [])).2 =
        exchangeQu host.recorded call d owner r.transferResult r.world := by
      rw [acceptDeal, hd, ho]
      refine congrArg Prod.snd (if_neg ?_)
      simpa [Refused, any_eq_true, lacks_recorded] using hrefused
    have hlegs : Settles host d owner call.invocator p.1 ↔
        Settles host d owner call.invocator w := by
      unfold Settles legs
      simp only [hexcess.shares]
    rw [hworld, ← hlegs]
    refine allOrNothing_iff_settles hwell hsettled (fun a => ?_) (fun a => ?_) ?_ ?_
    · rw [hmoves, hsettled.offeredMoves, hexcess.moves]
      exact zero_add _
    · rw [hmoves, hsettled.requestedMoves, hexcess.moves]
      exact zero_add _
    · rw [hcaller, hsettled.qu, hexcess.qu, if_pos rfl]
      exact congrArg (· + _) (zero_add _)
    · rw [howns, hsettled.qu, hexcess.qu, if_neg hparties.symm]
      exact zero_add _

end

/-! ### An offer that is half empty -/

/-- The seller offers ten shares of one token and none of another for a hundred QU. -/
def halfEmptyOffer : CreateDealInput where
  acceptorId := buyer
  offeredQU := 0
  offeredAssets := [⟨seller, 7, 10⟩, ⟨seller, 8, 0⟩]
  requestedQU := 100
  requestedAssets := []

def halfEmptyDeal : Deal := newDeal ⟨seller, 250000⟩ 200 halfEmptyOffer (State.init NULL_ID)

def halfEmpty : State × Market :=
  (Call.createDeal 200 halfEmptyOffer).run Market.host ⟨seller, 250000⟩ (State.init NULL_ID)
    smallMarket

lemma halfEmpty_reached :
    Relation.ReflTransGen (Step Market.host fun _ _ => True) (State.init NULL_ID, smallMarket)
      (halfEmpty.1, halfEmpty.2) := by
  have hstep : Step Market.host (fun _ _ => True) (State.init NULL_ID, smallMarket) halfEmpty :=
    .call _ _ _ ⟨seller, 250000⟩ (.createDeal 200 halfEmptyOffer) (.refl _) (by decide) trivial
      trivial
  exact .single hstep

def halfEmptyMoves : List Move :=
  (acceptDeal Market.host.recorded ⟨buyer, 100⟩ 1 halfEmpty.1 (smallMarket, [])).2.2

theorem acceptDeal_allOrNothing_iff_halfEmpty :
    AllOrNothing halfEmptyDeal seller ⟨buyer, 100⟩ halfEmptyMoves ↔
      Refused Market.host ⟨buyer, 100⟩ 1 halfEmptyDeal halfEmpty.1 smallMarket ∨
        Settles Market.host halfEmptyDeal seller buyer smallMarket :=
  acceptDeal_allOrNothing_iff (Market.qpi_exact SELF_INDEX) halfEmpty_reached
    (by decide +kernel) (by decide +kernel) (by decide) (by decide) (by decide) (by decide +kernel)

/-- The buyer receives the shares of the first token and gets the price back. -/
theorem halfEmptyOffer_not_allOrNothing :
    halfEmpty.1.deals.lookup 1 = some halfEmptyDeal ∧
      ¬AllOrNothing halfEmptyDeal seller ⟨buyer, 100⟩ halfEmptyMoves := by
  have hshares : sharesMoved token seller buyer halfEmptyMoves = 10 := by decide +kernel
  have hseller : quTo seller halfEmptyMoves = 0 := by decide +kernel
  refine ⟨by decide +kernel, ?_⟩
  rintro (hex | hun)
  · have hpaid : paidQu halfEmptyDeal.requestedQU = 99 := by decide +kernel
    have := hseller.symm.trans (hex.requestedQU.trans hpaid)
    omega
  · have := hshares.symm.trans (hun.offered token)
    omega

end QubicCore.Contracts.Escrow
