import QubicCore.Library.Cells

/-!
# Views of a vote

`n` voters vote once each, and a view holds the votes received so far. `Decides n q e votes x`
is a decision by quorum: for a value with `q` votes, and for the empty value `e` once it has a
veto or once no value can reach the quorum any more. If two quorums intersect, decisions from
any two views of the same votes agree and last.
-/

namespace QubicCore.Library.Tally

open Cells Finset Function

variable {α : Type*} {n q : Nat} {v w : Nat → Option α} {x y e : α}

def received (n : Nat) (v : Nat → Option α) : Nat := count n fun i => v i ≠ none

lemma received_succ (n : Nat) (v : Nat → Option α) :
    received (n + 1) v = received n v + if v n ≠ none then 1 else 0 := count_succ n _

/-- Every vote in `v` is the same in `w`. -/
def View (n : Nat) (v w : Nat → Option α) : Prop := ∀ i < n, ∀ x, v i = some x → w i = some x

lemma received_le (n : Nat) (v : Nat → Option α) : received n v ≤ n := count_le n _

lemma View.received_le (h : View n v w) : received n v ≤ received n w := by
  refine count_mono fun i hi hv => ?_
  obtain ⟨x, hx⟩ := Option.ne_none_iff_exists'.mp hv
  simp [h i hi x hx]

lemma received_update {i : Nat} (hi : i < n) (hv : v i = none) (x : α) :
    received n (update v i (some x)) = received n v + 1 := by
  refine count_insert hi (by simpa using hv) (by simp) fun j _ hj => ?_
  rw [update_of_ne hj]

variable [DecidableEq α]

def tally (n : Nat) (v : Nat → Option α) (x : α) : Nat := count n fun i => v i = some x

lemma tally_le (n : Nat) (v : Nat → Option α) (x : α) : tally n v x ≤ n := count_le n _

lemma tally_succ (n : Nat) (v : Nat → Option α) (x : α) :
    tally (n + 1) v x = tally n v x + if v n = some x then 1 else 0 := count_succ n _

lemma View.tally_le (h : View n v w) (x : α) : tally n v x ≤ tally n w x :=
  count_mono fun i hi => h i hi x

lemma tally_le_received (n : Nat) (v : Nat → Option α) (x : α) : tally n v x ≤ received n v :=
  count_mono fun i _ hi => by simp [hi]

lemma tally_update {i : Nat} (hi : i < n) (hv : v i = none) (x y : α) :
    tally n (update v i (some x)) y = tally n v y + if x = y then 1 else 0 := by
  split_ifs with hxy
  · refine count_insert hi (by simp [hv]) (by simp [hxy]) fun j _ hj => ?_
    rw [update_of_ne hj]
  · refine count_congr fun j _ => ?_
    obtain rfl | hj := Decidable.eq_or_ne j i
    · simp [hv, hxy]
    · rw [update_of_ne hj]

lemma tally_add_tally_le (hxy : x ≠ y) : tally n v x + tally n v y ≤ n := by
  have hor : count n (fun i => v i = some x ∨ v i = some y) = tally n v x + tally n v y := by
    refine count_add fun i _ => ⟨Iff.rfl, ?_⟩
    rintro ⟨hx, hy⟩
    exact hxy (Option.some.inj (hx.symm.trans hy))
  rw [← hor]
  exact count_le n _

/-- A value gains at most the votes that were missing. -/
lemma View.tally_add_received_le (h : View n v w) (x : α) :
    tally n w x + received n v ≤ tally n v x + received n w := by
  simp only [tally, received, count_eq_sum, ← sum_add_distrib]
  refine sum_le_sum fun i hi => ?_
  cases hv : v i with
  | none => by_cases hw : w i = some x <;> simp [hw]
  | some y => simp [h i (mem_range.mp hi) y hv]

/-- No value can reach `q` votes any more, however the missing votes turn out. -/
def Hopeless (n q : Nat) (v : Nat → Option α) : Prop := ∀ x, tally n v x + (n - received n v) < q

lemma Hopeless.mono (hvw : View n v w) (h : Hopeless n q v) : Hopeless n q w := by
  intro x
  have := h x
  have := hvw.tally_add_received_le x
  have := Tally.received_le n w
  omega

lemma hopeless_iff : Hopeless n q v ↔ ∀ w, View n v w → ∀ x, tally n w x < q := by
  constructor
  · intro h w hvw x
    have := h.mono hvw x
    omega
  · intro h x
    -- all missing votes go to `x`
    have hfill : count n (fun i => (v i).or (some x) = some x) =
        tally n v x + count n (fun i => ¬v i ≠ none) := by
      refine count_add fun i _ => ?_
      cases v i <;> simp
    have hall : count n (fun _ => True) = received n v + count n (fun i => ¬v i ≠ none) :=
      count_add fun i _ => by tauto
    have hn : count n (fun _ => True) = n := by simp [count]
    have := h (fun i => (v i).or (some x)) (fun i _ y hy => by simp [hy]) x
    rw [tally, hfill] at this
    omega

inductive Decides (n q : Nat) (e : α) (v : Nat → Option α) : α → Prop
  | quorum {x : α} : q ≤ tally n v x → Decides n q e v x
  | veto : (∀ y, tally n v y < q) → n - q < tally n v e → Decides n q e v e
  | hopeless : (∀ y, tally n v y + (n - received n v) < q) → Decides n q e v e

/-- A quorum in some view rules out every other decision. -/
lemma Decides.eq_of_quorum {full : Nat → Option α} (hq : n < 2 * q) (hv : View n v full)
    (hw : View n w full) (hx : q ≤ tally n v x) (hd : Decides n q e w y) : x = y := by
  have hfull := hx.trans (hv.tally_le x)
  by_contra hne
  have hpair := tally_add_tally_le (n := n) (v := full) hne
  cases hd with
  | quorum hy | veto _ he =>
    have := hw.tally_le y
    omega
  | hopeless hnone =>
    have := hnone x
    have := hw.tally_add_received_le x
    have := received_le n full
    have := hw.received_le
    omega

/-- Decisions from two views of the same votes agree. -/
lemma Decides.agree {full : Nat → Option α} (hq : n < 2 * q) (hv : View n v full)
    (hw : View n w full) (hx : Decides n q e v x) (hy : Decides n q e w y) : x = y := by
  cases hx with
  | quorum hx => exact Decides.eq_of_quorum hq hv hw hx hy
  | veto hno hveto =>
    cases hy with
    | quorum hy => exact (Decides.eq_of_quorum hq hw hv hy (.veto hno hveto)).symm
    | veto => rfl
    | hopeless => rfl
  | hopeless hnone =>
    cases hy with
    | quorum hy => exact (Decides.eq_of_quorum hq hw hv hy (.hopeless hnone)).symm
    | veto => rfl
    | hopeless => rfl

/-- A decision lasts when more votes come in. -/
lemma Decides.mono (h : View n v w) (hx : Decides n q e v x) :
    Decides n q e w x := by
  cases hx with
  | quorum hx => exact .quorum (hx.trans (h.tally_le x))
  | veto _ hveto =>
    have he := h.tally_le x
    by_cases hnone : ∀ y, tally n w y < q
    · exact .veto hnone (by omega)
    · push Not at hnone
      obtain ⟨y, hy⟩ := hnone
      -- The value with a quorum can only be the one with a veto.
      have hyx : y = x := by
        by_contra hne
        have := tally_add_tally_le (n := n) (v := w) hne
        omega
      exact .quorum (hyx ▸ hy)
  | hopeless hnone => exact .hopeless (Hopeless.mono h hnone)

end QubicCore.Library.Tally
