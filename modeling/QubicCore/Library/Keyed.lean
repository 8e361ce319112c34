import Mathlib

/-!
# Lists of entries with a key

Searching a list for the first entry with a given key, and altering or removing that entry. An
alteration is stated up to a permutation, so that sums, keys and distinctness follow from the
lemmas about permutations.
-/

namespace QubicCore.Library.Keyed

open List

variable {K E : Type*} [DecidableEq K] (key : E → K) {e : E}

def first (k : K) (l : List E) : Option E := l.find? fun e => key e = k

/-- Replace the first entry with the key, or remove it. -/
def alter (k : K) (f : E → Option E) : List E → List E
  | [] => []
  | e :: es => if key e = k then (f e).toList ++ es else e :: alter k f es

def total (amount : E → Nat) (k : K) (l : List E) : Nat :=
  ((l.filter fun e => key e = k).map amount).sum

variable {key} {k : K} {f : E → Option E} {l : List E}

lemma key_of_first (h : first key k l = some e) : key e = k := by simpa using List.find?_some h

lemma mem_of_first (h : first key k l = some e) : e ∈ l := mem_of_find?_eq_some h

lemma first_eq_none : first key k l = none ↔ k ∉ l.map key := by simp [first, List.find?_eq_none]

lemma exists_first (h : k ∈ l.map key) : ∃ e, first key k l = some e :=
  Option.ne_none_iff_exists'.mp fun hnone => first_eq_none.mp hnone h

/-! ## Alterations -/

lemma alter_of_first_none (h : k ∉ l.map key) : alter key k f l = l := by
  induction l with
  | nil => rfl
  | cons e es ih =>
    rw [map_cons, mem_cons, not_or] at h
    rw [alter, if_neg (Ne.symm h.1), ih h.2]

lemma alter_perm (h : first key k l = some e) (f : E → Option E) :
    ∃ rest, l.Perm (e :: rest) ∧ (alter key k f l).Perm ((f e).toList ++ rest) := by
  induction l with
  | nil => cases h
  | cons x xs ih =>
    by_cases hx : key x = k
    · rw [first, List.find?_cons_of_pos (by simpa using hx)] at h
      cases h
      exact ⟨xs, .refl _, by rw [alter, if_pos hx]⟩
    · rw [first, List.find?_cons_of_neg (by simpa using hx)] at h
      obtain ⟨rest, hl, halter⟩ := ih h
      refine ⟨x :: rest, (hl.cons x).trans (.swap e x rest), ?_⟩
      rw [alter, if_neg hx]
      exact (halter.cons x).trans perm_middle.symm

lemma map_key_remove (k : K) (l : List E) :
    (alter key k (fun _ => none) l).map key = (l.map key).erase k := by
  induction l with
  | nil => rfl
  | cons e es ih =>
    by_cases he : key e = k
    · rw [alter, if_pos he, map_cons, he, erase_cons_head]
      rfl
    · rw [alter, if_neg he, map_cons, map_cons, ih, erase_cons_tail (by simpa using he)]

lemma map_key_remove_perm {ks : List K} (h : (l.map key).Perm (k :: ks)) :
    ((alter key k (fun _ => none) l).map key).Perm ks := by
  have herase := h.erase k
  rwa [erase_cons_head, ← map_key_remove] at herase

/-! ## Sums -/

variable {amount : E → Nat}

lemma total_perm {l' : List E} (h : l.Perm l') : total key amount k l = total key amount k l' :=
  ((h.filter _).map amount).sum_eq

lemma total_cons (e : E) (l : List E) : total key amount k (e :: l) =
    (if k = key e then amount e else 0) + total key amount k l := by
  unfold total
  by_cases h : key e = k
  · rw [filter_cons_of_pos (by simpa using h), if_pos h.symm, map_cons, sum_cons]
  · rw [filter_cons_of_neg (by simpa using h), if_neg (Ne.symm h), zero_add]

lemma total_eq_zero (h : k ∉ l.map key) : total key amount k l = 0 := by
  have hnil : l.filter (fun e => key e = k) = [] := by
    simp only [filter_eq_nil_iff, decide_eq_true_eq]
    exact fun e he hk => h (mem_map.mpr ⟨e, he, hk⟩)
  rw [total, hnil]
  rfl

lemma first_eq_total (amount : E → Nat) (h : (l.map key).Nodup) (k : K) :
    ((first key k l).map amount).getD 0 = total key amount k l := by
  induction l with
  | nil => rfl
  | cons e es ih =>
    rw [map_cons, nodup_cons] at h
    rw [total_cons]
    by_cases he : key e = k
    · subst he
      rw [first, List.find?_cons_of_pos (by simp), if_pos rfl, total_eq_zero h.1]
      rfl
    · rw [first, List.find?_cons_of_neg (by simpa using he), if_neg (Ne.symm he), zero_add]
      exact ih h.2

lemma total_pos_iff (hpos : ∀ e ∈ l, 0 < amount e) : 0 < total key amount k l ↔ k ∈ l.map key := by
  induction l with
  | nil => simp [total]
  | cons e es ih =>
    have hrest := ih fun x hx => hpos x (mem_cons_of_mem e hx)
    have he := hpos e mem_cons_self
    rw [total_cons, map_cons, mem_cons]
    split_ifs with hk
    · exact ⟨fun _ => .inl hk, fun _ => by omega⟩
    · rw [zero_add, hrest]
      exact ⟨.inr, fun h => h.resolve_left hk⟩

end QubicCore.Library.Keyed
