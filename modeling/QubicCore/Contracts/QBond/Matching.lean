import QubicCore.Contracts.QBond.Orders

/-!
# Matching orders

The loops over the orders of the other side. Bonds that are asked for are there when they are
bought, and a seller with enough bonds keeps enough of them for the rest of the loop.
-/

namespace QubicCore.Contracts.QBond

open Library MathLib List
open QubicCore.Qpi (Collection Entry)

variable {W : Type} {host : Host W} {balance : W → Int} {call : Invocation}
  {l : Collection Order}

/-- The node is exact, and locking QU in QEARN takes no bonds. -/
structure Host.Lawful (host : Host W) (balance : W → Int) : Prop where
  qpi : host.toQpi.Exact SELF_INDEX balance
  lock : ∀ amount w, host.SharesFall SELF_INDEX w (host.lock amount w) 0

/-- Payments, and moves of bonds that are there, keep a property of the node. -/
structure Calm (host : Host W) (P : W → Prop) : Prop where
  pay : ∀ destination amount w, P w → P (pay host destination amount w)
  move : ∀ name source destination amount w, destination ≠ NULL_ID → 0 < amount →
    amount ≤ bonds host name source w → P w →
    P (moveBonds host name source destination amount w).2

section

variable {w w' : W} {lost : Asset → M256i → Int}

lemma bonds_le_of_fall {name : Nat} {owner : M256i} {amount : Int}
    (h : host.SharesFall SELF_INDEX w w' (sharesLoss (bond name) owner amount)) (other : Nat)
    (x : M256i) : bonds host other x w ≤
      bonds host other x w' + if owner = x ∧ name = other then amount else 0 := by
  have hx := h (bond other) x
  have hsame : bond other = bond name ∧ x = owner ↔ owner = x ∧ name = other := by
    simp only [bond, Asset.mk.injEq, true_and, and_comm, eq_comm]
  simp only [sharesLoss, hsame] at hx
  exact hx

lemma bonds_le_of_fall_zero (h : host.SharesFall SELF_INDEX w w' 0) (name : Nat) (x : M256i) :
    bonds host name x w ≤ bonds host name x w' := by
  simpa [bonds] using h (bond name) x

variable (hlaw : host.Lawful balance)
include hlaw

lemma pay_fall (destination : M256i) (amount : Int) (w : W) :
    host.SharesFall SELF_INDEX w (pay host destination amount w) 0 :=
  hlaw.qpi.transfer_fall destination amount w

lemma bonds_pay (destination : M256i) (amount : Int) (w : W) (name : Nat) (x : M256i) :
    bonds host name x (pay host destination amount w) = bonds host name x w :=
  hlaw.qpi.transfer_shares destination amount w (bond name) x

lemma moveBonds_others (name : Nat) (source destination : M256i) (amount : Int) (w : W)
    {other : Nat} {x : M256i} (hne : ¬(source = x ∧ name = other)) : bonds host other x w ≤
      bonds host other x (moveBonds host name source destination amount w).2 := by
  by_cases hmove : 0 < amount ∧ amount ≤ bonds host name source w
  · have hfall := bonds_le_of_fall
      (hlaw.qpi.moveShares_fall (bond name) source destination hmove.1.le w) other x
    rwa [if_neg hne, add_zero] at hfall
  · exact ((hlaw.qpi.moveShares_refused (bond name) source destination amount w hmove).2
      (bond other) x).ge

end

/-! ## Buying -/

section

variable {names : Int → Option Nat} {P : W → Prop} {s : State} {name : Nat} {price : Int}
  {e : Entry Order} {amount : Int} {b : Buying W}

lemma buy_fall (hlaw : host.Lawful balance) (hamount : 0 ≤ amount) :
    host.SharesFall SELF_INDEX b.world (buy host call s name price e amount b).world
      (sharesLoss (bond name) e.value.owner amount) := by
  have hmove := hlaw.qpi.moveShares_fall (bond name) e.value.owner call.invocator hamount b.world
  intro a x
  refine (hmove a x).trans (le_of_eq ?_)
  unfold buy
  split_ifs
  · exact congrArg (· + _) (((hlaw.qpi.transfer_shares _ _ _ a x).trans
      (hlaw.qpi.transfer_shares _ _ _ a x)).symm)
  · exact congrArg (· + _) (hlaw.qpi.transfer_shares _ _ _ a x).symm

lemma buy_calm (hcalm : Calm host P) (hcall : Party call.invocator) (hamount : 0 < amount)
    (hbonds : amount ≤ bonds host name e.value.owner b.world) (hP : P b.world) :
    P (buy host call s name price e amount b).world := by
  have hmove := hcalm.move name e.value.owner call.invocator amount b.world hcall.2 hamount hbonds
    hP
  unfold buy
  split_ifs
  · exact hcalm.pay _ _ _ (hcalm.pay _ _ _ hmove)
  · exact hcalm.pay _ _ _ hmove

/-- What the loop over the ask orders keeps, with `extra` for the orders that it passed. -/
structure Bought (host : Host W) (names : Int → Option Nat) (P : W → Prop)
    (extra : M256i → Nat → Int) (l : Collection Order) (b : Buying W) : Prop where
  booked : ∀ e ∈ l, Booked names e
  covered : ∀ owner name, extra owner name + asked names owner name l ≤
    bonds host name owner b.world
  calm : P b.world
  nonneg : 0 ≤ b.numberOfMBonds

lemma Bought.buy (hlaw : host.Lawful balance) (hcalm : Calm host P) (hcall : Party call.invocator)
    {extra : M256i → Nat → Int} (hextra : ∀ owner name, 0 ≤ extra owner name)
    (h : Bought host names P extra (e :: l) b) (hname : names e.value.epoch = some name)
    (hamount : 0 < amount) (hle : amount ≤ e.value.numberOfMBonds)
    (hwanted : amount ≤ b.numberOfMBonds) {l' : Collection Order}
    (hbooked : ∀ e ∈ l', Booked names e)
    (hl' : ∀ owner other, asked names owner other l' + (if e.value.owner = owner ∧ name = other then
      amount else 0) ≤ asked names owner other (e :: l)) :
    Bought host names P extra l' (QBond.buy host call s name price e amount b) := by
  have hfall : host.SharesFall SELF_INDEX b.world
      (QBond.buy host call s name price e amount b).world
      (sharesLoss (bond name) e.value.owner amount) := buy_fall hlaw hamount.le
  have hbonds : amount ≤ bonds host name e.value.owner b.world := by
    have hcov := h.covered e.value.owner name
    have hrest : 0 ≤ asked names e.value.owner name l := asked_nonneg fun x hx =>
      (h.booked x (mem_cons_of_mem e hx)).pos
    have := hextra e.value.owner name
    rw [asked_cons, if_pos ⟨rfl, hname⟩] at hcov
    omega
  refine ⟨hbooked, fun owner other => ?_, buy_calm hcalm hcall hamount hbonds h.calm,
    sub_nonneg.mpr hwanted⟩
  have hcov := h.covered owner other
  have hlost := bonds_le_of_fall hfall other owner
  have hasked := hl' owner other
  omega

/-- The loop over the ask orders keeps them covered. -/
lemma matchAsks_bought (hlaw : host.Lawful balance) (hcalm : Calm host P)
    (hcall : Party call.invocator) (hnames : ∀ epoch n, names epoch = some n → n < 2 ^ 64)
    {epoch : Int} (hname : name < 2 ^ 64) {extra : M256i → Nat → Int}
    (hextra : ∀ owner other, 0 ≤ extra owner other) (hpos : 0 < b.numberOfMBonds)
    (h : Bought host names P extra l b) :
    Bought host names P extra (matchAsks host call s name (mbondIdentity name epoch) price l b).1
      (matchAsks host call s name (mbondIdentity name epoch) price l b).2 := by
  induction l generalizing b extra with
  | nil => exact h
  | cons e es ih =>
    have he := h.booked e mem_cons_self
    have hes : ∀ x ∈ es, Booked names x := fun x hx => h.booked x (mem_cons_of_mem e hx)
    obtain ⟨n, hn, hpov⟩ := he.listed
    rw [matchAsks]
    split_ifs with hother hprice hlast hpart
    · -- An order of another book counts as passed.
      have hpassed : Bought host names P (fun owner other => extra owner other +
          if e.value.owner = owner ∧ names e.value.epoch = some other then e.value.numberOfMBonds
          else 0) es b := by
        refine ⟨hes, fun owner other => ?_, h.calm, h.nonneg⟩
        have hcov := h.covered owner other
        rw [asked_cons] at hcov
        omega
      have hrest := ih (fun owner other => by
        have := hextra owner other
        have := he.pos
        split_ifs <;> omega) hpos hpassed
      refine ⟨fun x hx => ?_, fun owner other => ?_, hrest.calm, hrest.nonneg⟩
      · cases mem_cons.mp hx with
        | inl hhead => exact hhead ▸ he
        | inr htail => exact hrest.booked x htail
      · have hcov := hrest.covered owner other
        dsimp only
        rw [asked_cons]
        omega
    · exact h
    all_goals
      have hsame : n = name :=
        mbondIdentity_name (hnames _ _ hn) hname (hpov.symm.trans (not_not.mp hother))
      rw [hsame] at hn
    · -- The order is bought in part.
      refine h.buy hlaw hcalm hcall hextra hn hpos hlast le_rfl (fun x hx => ?_)
        fun owner other => ?_
      · cases mem_cons.mp hx with
        | inl hhead => exact hhead ▸ ⟨sub_pos.mpr hpart, he.priority_neg, he.party, he.listed⟩
        | inr htail => exact hes x htail
      · rw [asked_cons, asked_cons]
        simp only [Order.take, hn, Option.some_inj]
        split_ifs <;> omega
    · exact h.buy hlaw hcalm hcall hextra hn hpos hlast le_rfl hes fun owner other => by
        rw [asked_cons]
        simp only [hn, Option.some_inj]
        split_ifs <;> omega
    · -- The order is bought whole, and the loop goes on.
      refine ih hextra (sub_pos.mpr (not_le.mp hlast)) (h.buy hlaw hcalm hcall hextra hn he.pos
        le_rfl (not_le.mp hlast).le hes fun owner other => ?_)
      rw [asked_cons]
      simp only [hn, Option.some_inj]
      split_ifs <;> omega

end

/-! ## Selling -/

section

variable {P : W → Prop} {name : Nat} {pov : M256i} {price : Int}

def Standing (e : Entry Order) : Prop := 0 < e.value.numberOfMBonds ∧ Party e.value.owner

/-- What the loop over the bid orders does: it sells some of the bonds, all of which were there. -/
structure Sold (host : Host W) (call : Invocation) (name : Nat) (P : W → Prop) (m : Matching W)
    (r : Collection Order × Matching W) : Prop where
  standing : ∀ e ∈ r.1, Standing e
  nonneg : 0 ≤ r.2.numberOfMBonds
  le : r.2.numberOfMBonds ≤ m.numberOfMBonds
  fall : host.SharesFall SELF_INDEX m.world r.2.world
    (sharesLoss (bond name) call.invocator (m.numberOfMBonds - r.2.numberOfMBonds))
  calm : P r.2.world

lemma sell_fall (hlaw : host.Lawful balance) (e : Entry Order) {amount : Int}
    (hamount : 0 ≤ amount) (m : Matching W) :
    host.SharesFall SELF_INDEX m.world (sell host call name e amount m).world
      (sharesLoss (bond name) call.invocator amount) :=
  hlaw.qpi.moveShares_fall (bond name) call.invocator e.value.owner hamount m.world

lemma Sold.sell (hlaw : host.Lawful balance) {e : Entry Order} {amount : Int} {m : Matching W}
    {r : Collection Order × Matching W} (hamount : 0 ≤ amount)
    (h : Sold host call name P (sell host call name e amount m) r) :
    Sold host call name P m r := by
  have hle : r.2.numberOfMBonds ≤ m.numberOfMBonds - amount := h.le
  refine ⟨h.standing, h.nonneg, by omega, fun a x => ?_, h.calm⟩
  have hboth := ((sell_fall hlaw e hamount m).trans h.fall) a x
  have hsum : (sharesLoss (bond name) call.invocator amount +
      sharesLoss (bond name) call.invocator
        ((QBond.sell host call name e amount m).numberOfMBonds - r.2.numberOfMBonds)) a x =
      sharesLoss (bond name) call.invocator (m.numberOfMBonds - r.2.numberOfMBonds) a x := by
    simp only [Pi.add_apply, sharesLoss, QBond.sell]
    split_ifs <;> omega
  rwa [hsum] at hboth

lemma matchBids_sold (hlaw : host.Lawful balance) (hcalm : Calm host P) (hl : ∀ e ∈ l, Standing e)
    {m : Matching W} (hpos : 0 < m.numberOfMBonds)
    (hbonds : m.numberOfMBonds ≤ bonds host name call.invocator m.world) (hP : P m.world) :
    Sold host call name P m (matchBids host call name pov price l m) := by
  have hstay : ∀ {l : Collection Order}, (∀ e ∈ l, Standing e) → ∀ {m : Matching W},
      0 ≤ m.numberOfMBonds → P m.world → Sold host call name P m (l, m) := by
    intro l hl m hnonneg hP
    refine ⟨hl, hnonneg, le_rfl, fun a x => ?_, hP⟩
    simp [sharesLoss]
  induction l generalizing m with
  | nil => exact hstay hl hpos.le hP
  | cons e es ih =>
    have he := hl e mem_cons_self
    have hes : ∀ x ∈ es, Standing x := fun x hx => hl x (mem_cons_of_mem e hx)
    rw [matchBids]
    split_ifs with hother hprice hlast hpart
    · have hrest := ih hes hpos hbonds hP
      refine ⟨fun x hx => ?_, hrest.nonneg, hrest.le, hrest.fall, hrest.calm⟩
      cases mem_cons.mp hx with
      | inl hhead => exact hhead ▸ he
      | inr htail => exact hrest.standing x htail
    · exact hstay hl hpos.le hP
    · refine Sold.sell hlaw hpos.le (hstay (fun x hx => ?_) (sub_self _).ge
        (hcalm.move name call.invocator e.value.owner _ m.world he.2.2 hpos hbonds hP))
      cases mem_cons.mp hx with
      | inl hhead => exact hhead ▸ ⟨sub_pos.mpr hpart, he.2⟩
      | inr htail => exact hes x htail
    · exact Sold.sell hlaw hpos.le (hstay hes (sub_self _).ge
        (hcalm.move name call.invocator e.value.owner _ m.world he.2.2 hpos hbonds hP))
    · have hless := not_le.mp hlast
      have hmoved := hcalm.move name call.invocator e.value.owner e.value.numberOfMBonds m.world
        he.2.2 he.1 (hless.le.trans hbonds) hP
      have hfall : host.SharesFall SELF_INDEX m.world
          (sell host call name e e.value.numberOfMBonds m).world
          (sharesLoss (bond name) call.invocator e.value.numberOfMBonds) :=
        sell_fall hlaw e he.1.le m
      have hleft := bonds_le_of_fall hfall name call.invocator
      rw [if_pos ⟨rfl, rfl⟩] at hleft
      refine Sold.sell hlaw he.1.le (ih hes (sub_pos.mpr hless) ?_ hmoved)
      change m.numberOfMBonds - e.value.numberOfMBonds ≤ _
      omega

end

end QubicCore.Contracts.QBond
