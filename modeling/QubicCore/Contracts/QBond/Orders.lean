import QubicCore.Contracts.QBond.Basic

/-!
# The ask orders of QBOND

What the ask orders of an owner come to for one bond asset, over all epochs that use the asset, and
how the operations on the book change it.
-/

namespace QubicCore.Contracts.QBond

open Library MathLib List
open QubicCore.Qpi (Collection Entry)

/-- An account that can call the contract, which is neither the contract itself nor the zero
identity. -/
abbrev Party (account : M256i) : Prop := account ≠ SELF ∧ account ≠ NULL_ID

def State.nameOf (s : State) (epoch : Int) : Option Nat := (s.info epoch).map MBondInfo.name

section

variable {names : Int → Option Nat} {owner : M256i} {name : Nat} {l l' : Collection Order}

def asked (names : Int → Option Nat) (owner : M256i) (name : Nat) (l : Collection Order) : Int :=
  ((l.filter fun e => e.value.owner = owner ∧ names e.value.epoch = some name).map
    fun e => e.value.numberOfMBonds).sum

lemma asked_cons (e : Entry Order) (l : Collection Order) :
    asked names owner name (e :: l) =
      (if e.value.owner = owner ∧ names e.value.epoch = some name then e.value.numberOfMBonds
        else 0) + asked names owner name l := by
  unfold asked
  by_cases h : e.value.owner = owner ∧ names e.value.epoch = some name
  · rw [filter_cons_of_pos (by simpa using h), if_pos h, map_cons, sum_cons]
  · rw [filter_cons_of_neg (by simpa using h), if_neg h, zero_add]

lemma asked_perm (h : l.Perm l') : asked names owner name l = asked names owner name l' :=
  ((h.filter _).map _).sum_eq

lemma asked_nonneg (h : ∀ e ∈ l, 0 < e.value.numberOfMBonds) : 0 ≤ asked names owner name l := by
  apply sum_nonneg
  intro n hn
  obtain ⟨e, he, rfl⟩ := mem_map.mp hn
  exact (h e (mem_of_mem_filter he)).le

lemma asked_eq_zero (h : ∀ e ∈ l, e.value.owner = owner → names e.value.epoch ≠ some name) :
    asked names owner name l = 0 := by
  have hnil : (l.filter fun e => e.value.owner = owner ∧ names e.value.epoch = some name) = [] := by
    rw [filter_eq_nil_iff]
    intro e he hcounts
    obtain ⟨howner, hname⟩ := of_decide_eq_true hcounts
    exact h e he howner hname
  rw [asked, hnil]
  rfl

lemma asked_congr {names' : Int → Option Nat}
    (h : ∀ e ∈ l, names' e.value.epoch = names e.value.epoch) :
    asked names' owner name l = asked names owner name l := by
  unfold asked
  congr 2
  apply filter_congr
  intro e he
  rw [h e he]

lemma asked_sublist (hsub : l'.Sublist l) (h : ∀ e ∈ l, 0 < e.value.numberOfMBonds) :
    asked names owner name l' ≤ asked names owner name l := by
  induction hsub with
  | slnil => exact le_rfl
  | cons e _ ih =>
    have hpos := h e mem_cons_self
    have hrest := ih fun x hx => h x (mem_cons_of_mem e hx)
    rw [asked_cons]
    split_ifs <;> omega
  | cons_cons e _ ih =>
    have hrest := ih fun x hx => h x (mem_cons_of_mem e hx)
    rw [asked_cons, asked_cons]
    omega

end

/-! ## Booked orders -/

/-- An ask order stands under the identity of its epoch. -/
structure Booked (names : Int → Option Nat) (e : Entry Order) : Prop where
  pos : 0 < e.value.numberOfMBonds
  priority_neg : e.priority < 0
  party : Party e.value.owner
  listed : ∃ name, names e.value.epoch = some name ∧ e.pov = mbondIdentity name e.value.epoch

lemma mbondIdentity_name {name name' : Nat} {epoch epoch' : Int} (h : name < 2 ^ 64)
    (h' : name' < 2 ^ 64) (heq : mbondIdentity name epoch = mbondIdentity name' epoch') :
    name = name' := by
  have hbits := congrArg (fun i : M256i => (i.bits.extractLsb' 192 64).toNat) heq
  have hword : ∀ (n : Nat) (rest : BitVec 192),
      (((BitVec.ofNat 64 n ++ rest : BitVec 256)).extractLsb' 192 64).toNat = n % 2 ^ 64 := by
    intro n rest
    rw [BitVec.extractLsb'_append_eq_left]
    exact BitVec.toNat_ofNat n 64
  have hname : name % 2 ^ 64 = name' % 2 ^ 64 :=
    (hword name _).symm.trans (hbits.trans (hword name' _))
  rwa [Nat.mod_eq_of_lt h, Nat.mod_eq_of_lt h'] at hname

/-! ## Placing and reducing an order -/

section

variable {c c' : Collection Order} {pov : M256i} {priority : Int} {order : Order}

def joined (order : Order) (e : Entry Order) : Entry Order :=
  { e with
    value := { e.value with
      numberOfMBonds := e.value.numberOfMBonds + order.numberOfMBonds
      feeDebt := e.value.feeDebt + order.feeDebt } }

/-- What placing an order can do to a book. -/
inductive Placed (c : Collection Order) (pov : M256i) (priority : Int) (order : Order) :
    Collection Order → Prop where
  | dropped : Placed c pov priority order c
  | added (feeDebt : Int) {c' : Collection Order}
      (hperm : c'.Perm (⟨pov, priority, { order with feeDebt := feeDebt }⟩ :: c)) :
      Placed c pov priority order c'
  | merged {e : Entry Order} {rest c' : Collection Order} (hkey : orderKey e =
      (pov, priority, order.owner)) (hc : c.Perm (e :: rest))
      (hperm : c'.Perm (joined order e :: rest)) : Placed c pov priority order c'

lemma add_placed (c : Collection Order) (pov : M256i) (priority : Int) (order : Order)
    (feeDebt : Int) : Placed c pov priority order
      (c.add ORDER_CAPACITY pov { order with feeDebt := feeDebt } priority) := by
  by_cases hroom : c.length < ORDER_CAPACITY
  · exact .added feeDebt (Collection.add_perm hroom pov _ priority)
  · rw [Collection.add, if_neg hroom]
    exact .dropped

lemma mergeOrder_placed (c : Collection Order) (pov : M256i) (priority : Int) (order : Order) :
    Placed c pov priority order (mergeOrder c pov priority order) := by
  cases hfirst : Keyed.first orderKey (pov, priority, order.owner) c with
  | none =>
    rw [mergeOrder, Keyed.alter_of_first_none (Keyed.first_eq_none.mp hfirst)]
    exact .dropped
  | some e =>
    obtain ⟨rest, hc, hperm⟩ := Keyed.alter_perm hfirst fun e => some (joined order e)
    exact .merged (Keyed.key_of_first hfirst) hc hperm

lemma placeOrder_placed (c : Collection Order) (queue : List (Entry Order)) (pov : M256i)
    (priority : Int) (order : Order) :
    Placed c pov priority order (placeOrder c queue pov priority order) := by
  unfold placeOrder
  split_ifs
  · exact add_placed c pov priority order order.feeDebt
  · cases placement priority order.owner queue with
    | skip => exact .dropped
    | insert => exact add_placed c pov priority order order.feeDebt
    | merge => exact mergeOrder_placed c pov priority order
    | append => exact add_placed c pov priority order 0

/-- A property of entries that the new order has, and that joining it to an entry keeps, holds of
the whole book. -/
lemma Placed.forall_mem {P : Entry Order → Prop} (h : Placed c pov priority order c')
    (hc : ∀ e ∈ c, P e) (hnew : ∀ feeDebt, P ⟨pov, priority, { order with feeDebt := feeDebt }⟩)
    (hjoin : ∀ e ∈ c, P e → P (joined order e)) : ∀ e ∈ c', P e := by
  cases h with
  | dropped => exact hc
  | added feeDebt hperm =>
    intro e he
    cases mem_cons.mp (hperm.mem_iff.mp he) with
    | inl hhead => exact hhead ▸ hnew feeDebt
    | inr htail => exact hc e htail
  | @merged x rest _ hkey hperm hperm' =>
    intro e he
    have hx : x ∈ c := hperm.mem_iff.mpr mem_cons_self
    cases mem_cons.mp (hperm'.mem_iff.mp he) with
    | inl hhead => exact hhead ▸ hjoin x hx (hc x hx)
    | inr htail => exact hc e (hperm.mem_iff.mpr (mem_cons_of_mem x htail))

variable {names : Int → Option Nat} {name : Nat}

lemma Placed.asked_le (h : Placed c (mbondIdentity name order.epoch) priority order c')
    (hbook : ∀ e ∈ c, Booked names e) (hnames : ∀ epoch n, names epoch = some n → n < 2 ^ 64)
    (hname : names order.epoch = some name) (hpos : 0 < order.numberOfMBonds) (owner : M256i)
    (other : Nat) : asked names owner other c' ≤ asked names owner other c +
      if order.owner = owner ∧ name = other then order.numberOfMBonds else 0 := by
  cases h with
  | dropped => split_ifs <;> omega
  | added feeDebt hperm =>
    rw [asked_perm hperm, asked_cons, add_comm]
    simp only [hname, Option.some_inj, le_refl]
  | @merged x rest _ hkey hperm hperm' =>
    have hx : Booked names x := hbook x (hperm.mem_iff.mpr mem_cons_self)
    obtain ⟨n, hn, hpov⟩ := hx.listed
    simp only [orderKey, Prod.mk.injEq] at hkey
    -- The entry may name another epoch, but its identity fixes the name.
    have hsame : n = name :=
      mbondIdentity_name (hnames _ _ hn) (hnames _ _ hname) (hpov.symm.trans hkey.1)
    rw [asked_perm hperm, asked_perm hperm', asked_cons, asked_cons]
    simp only [joined, hkey.2.2, hn, hsame, Option.some_inj]
    split_ifs <;> omega

lemma Placed.booked (h : Placed c (mbondIdentity name order.epoch) priority order c')
    (hbook : ∀ e ∈ c, Booked names e) (hname : names order.epoch = some name)
    (hpos : 0 < order.numberOfMBonds) (hpriority : priority < 0) (hparty : Party order.owner) :
    ∀ e ∈ c', Booked names e := by
  refine h.forall_mem hbook (fun _ => ⟨hpos, hpriority, hparty, name, hname, rfl⟩) ?_
  intro e _ he
  exact ⟨add_pos he.pos hpos, he.priority_neg, he.party, he.listed⟩

/-- Taking bonds out of an ask order leaves a booked order with fewer bonds, or none. -/
lemma reduceAsk_booked {amount : Int} {e : Entry Order} (hamount : 0 < amount)
    (he : Booked names e) : ∀ e' ∈ reduceAsk amount e, Booked names e' ∧
      e'.value.owner = e.value.owner ∧ e'.value.epoch = e.value.epoch ∧
      e'.value.numberOfMBonds ≤ e.value.numberOfMBonds := by
  intro e' he'
  unfold reduceAsk at he'
  split_ifs at he' with hall
  · cases he'
  · cases he'
    exact ⟨⟨sub_pos.mpr (not_le.mp hall), he.priority_neg, he.party, he.listed⟩, rfl, rfl,
      sub_le_self _ hamount.le⟩

lemma alter_reduceAsk {amount : Int} (hamount : 0 < amount) (key : M256i × Int × M256i)
    (hbook : ∀ e ∈ c, Booked names e) :
    (∀ e ∈ Keyed.alter orderKey key (reduceAsk amount) c, Booked names e) ∧
      ∀ owner other, asked names owner other (Keyed.alter orderKey key (reduceAsk amount) c) ≤
        asked names owner other c := by
  cases hfirst : Keyed.first orderKey key c with
  | none =>
    rw [Keyed.alter_of_first_none (Keyed.first_eq_none.mp hfirst)]
    exact ⟨hbook, fun _ _ => le_rfl⟩
  | some x =>
    obtain ⟨rest, hc, hperm⟩ := Keyed.alter_perm hfirst (reduceAsk amount)
    have hx := hbook x (Keyed.mem_of_first hfirst)
    have hrest : ∀ e ∈ rest, Booked names e := fun e he =>
      hbook e (hc.mem_iff.mpr (mem_cons_of_mem x he))
    have hreduced := reduceAsk_booked hamount hx
    cases hr : reduceAsk amount x with
    | none =>
      rw [hr] at hperm
      refine ⟨fun e he => hrest e (hperm.mem_iff.mp he), fun owner other => ?_⟩
      rw [asked_perm hperm, asked_perm hc]
      exact asked_sublist (sublist_cons_self x rest) fun e he =>
        (hbook e (hc.mem_iff.mpr he)).pos
    | some x' =>
      rw [hr] at hperm hreduced
      obtain ⟨hx', howner, hepoch, hle⟩ := hreduced x' rfl
      refine ⟨fun e he => ?_, fun owner other => ?_⟩
      · cases mem_cons.mp (hperm.mem_iff.mp he) with
        | inl hhead => exact hhead ▸ hx'
        | inr htail => exact hrest e htail
      · rw [asked_perm hperm, asked_perm hc]
        change asked names owner other (x' :: rest) ≤ _
        rw [asked_cons, asked_cons, howner, hepoch]
        split_ifs <;> omega

end

end QubicCore.Contracts.QBond
