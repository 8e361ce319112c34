import QubicCore.Mining.AntColony.Basic

/-!
# The best solutions of an epoch

Every solution that passes the rules is offered to the export set. The set keeps the best ones,
ordered through an array of indices, in which the storage of the worst is used again.
-/

namespace QubicCore.Mining.AntColony

open Function List

structure Candidate (Ann : Type) where
  pubkey : M256i
  rating : Rating
  depth : Nat
  ann : Ann

variable {Ann PackedAnn : Type} (scorer : Scorer Ann PackedAnn)

def Candidate.entry (c : Candidate Ann) : AntExportSlot PackedAnn :=
  ⟨c.pubkey, c.rating.error, c.rating.shift, c.depth, scorer.store c.ann⟩

/-- The better one of two arrivals, or the earlier one of two with equal ratings. -/
def Before (x y : Candidate Ann × Nat) : Prop :=
  x.1.rating.isBetterThan y.1.rating ∨ ¬y.1.rating.isBetterThan x.1.rating ∧ x.2 < y.2

/-- The set after the candidates `cs`, of which it keeps those before the rest. -/
structure Best (cs : List (Candidate Ann)) (set : ExportSet PackedAnn) : Prop where
  perm : set.order.Perm (range (min cs.length ANT_EXPORT_MAX_SOLUTIONS))
  ranked : ∃ kept rest : List (Candidate Ann × Nat), (kept ++ rest).Perm cs.zipIdx ∧
    kept.Pairwise Before ∧ (∀ x ∈ kept, ∀ y ∈ rest, Before x y) ∧
    set.order.map set.slots = kept.map fun x => x.1.entry scorer

variable {scorer} {a b : Rating} {x y : Candidate Ann × Nat} {l : List (Candidate Ann × Nat)}

lemma Rating.isBetterThan_iff :
    a.isBetterThan b ↔ b.shift < a.shift ∨ a.shift = b.shift ∧ a.error < b.error := by
  unfold isBetterThan
  split_ifs <;> simp <;> omega

lemma Before.lasts (h : Before x y) (hx : a.isBetterThan x.1.rating) :
    a.isBetterThan y.1.rating := by
  simp only [Before, Rating.isBetterThan_iff] at *
  omega

/-- The search from the end for the place of a new element. -/
def place {α : Type} (p : α → Bool) (x : α) (l : List α) : List α :=
  l.rdropWhile p ++ x :: l.rtakeWhile p

lemma map_place {α β : Type} (p : β → Bool) (f : α → β) (x : α) (l : List α) :
    (place (p ∘ f) x l).map f = place p (f x) (l.map f) := by
  simp [place, rdropWhile, rtakeWhile, ← map_reverse, dropWhile_map, takeWhile_map]

lemma place_perm {α : Type} (p : α → Bool) (x : α) (l : List α) :
    (place p x l).Perm (x :: l) := by
  refine perm_middle.trans ?_
  rw [rdropWhile_append_rtakeWhile]

/-- The latest arrival goes behind those it does not beat. -/
lemma pairwise_place (h : l.Pairwise Before) (hlatest : ∀ y ∈ l, y.2 < x.2) :
    (place (fun y => x.1.rating.isBetterThan y.1.rating) x l).Pairwise Before := by
  set p := fun y : Candidate Ann × Nat => x.1.rating.isBetterThan y.1.rating
  rw [← rdropWhile_append_rtakeWhile (p := p) (l := l)] at h
  obtain ⟨hahead, hbehind, hcross⟩ := pairwise_append.mp h
  refine pairwise_append.mpr ⟨hahead, pairwise_cons.mpr ⟨fun y hy => ?_, hbehind⟩,
    fun y hy => forall_mem_cons.mpr ⟨.inr ⟨fun hbetter => ?_, ?_⟩, hcross y hy⟩⟩
  · exact .inl (mem_rtakeWhile_imp (p := p) hy)
  · have hlast := (hahead.imp fun hbefore => hbefore.lasts).rel_getLast_of_rel_getLast_getLast
      (R := fun y z => p y → p z) hy id hbetter
    exact rdropWhile_last_not p l (ne_nil_of_mem hy) hlast
  · exact hlatest y <| IsPrefix.mem hy <| rdropWhile_prefix p l

variable {cs : List (Candidate Ann)} {s : ExportSet PackedAnn}

lemma Best.insertSlot {c : Candidate Ann} {slot : Nat} {order : List Nat}
    {kept rest : List (Candidate Ann × Nat)}
    (hperm : (slot :: order).Perm (range (min (cs.length + 1) ANT_EXPORT_MAX_SOLUTIONS)))
    (hall : (kept ++ rest).Perm cs.zipIdx) (hkept : kept.Pairwise Before)
    (hrest : ∀ x ∈ kept, ∀ y ∈ rest, Before x y)
    (hmap : order.map s.slots = kept.map fun x => x.1.entry scorer)
    (hbetter : ∀ y ∈ rest, c.rating.isBetterThan y.1.rating) :
    Best scorer (cs ++ [c]) (insertSlot slot (c.entry scorer) order s) := by
  have hslot : slot ∉ order := (nodup_cons.mp (hperm.nodup_iff.mpr nodup_range)).1
  have hlatest : ∀ y ∈ kept, y.2 < cs.length := fun y hy => by
    simpa using snd_lt_of_mem_zipIdx (hall.mem_iff.mp (mem_append_left _ hy))
  have hsame : order.map (update s.slots slot (c.entry scorer)) = order.map s.slots :=
    map_congr_left fun o ho => update_of_ne (ne_of_mem_of_not_mem ho hslot) ..
  refine ⟨?_, _, rest, ?_, pairwise_place (x := (c, cs.length)) hkept hlatest, ?_, ?_⟩
  · rw [length_append]
    exact (place_perm ..).trans hperm
  · rw [zipIdx_append, zero_add]
    exact ((place_perm ..).append_right _).trans
      ((hall.cons _).trans (perm_append_singleton ..).symm)
  · intro y hy z hz
    obtain rfl | hy := mem_cons.mp ((place_perm ..).mem_iff.mp hy)
    · exact .inl (hbetter z hz)
    · exact hrest y hy z hz
  · refine (map_place (fun e => c.rating.isBetterThan e.rating) (update s.slots slot _) slot
      order).trans ?_
    rw [update_self, hsame, hmap]
    exact (map_place _ (fun y : Candidate Ann × Nat => y.1.entry scorer) (c, cs.length) kept).symm

lemma Best.note (h : Best scorer cs s) (c : Candidate Ann) : Best scorer (cs ++ [c])
    (noteExportCandidate scorer c.pubkey c.rating c.depth c.ann s) := by
  obtain ⟨slots, order⟩ := s
  obtain ⟨hperm, kept, rest, hall, hkept, hrest, hmap⟩ := h
  have hlength := hperm.length_eq.trans length_range
  have hcount : kept.length + rest.length = cs.length := by simpa using hall.length_eq
  have hsame : order.length = kept.length := by simpa using congrArg length hmap
  unfold noteExportCandidate
  dsimp only at *
  split_ifs with hroom hworse
  · obtain rfl : rest = [] := length_eq_zero_iff.mp (by omega)
    refine .insertSlot ?_ hall hkept hrest hmap (by simp)
    rw [show min (cs.length + 1) ANT_EXPORT_MAX_SOLUTIONS = order.length + 1 by omega, range_succ]
    exact ((hlength ▸ hperm).cons _).trans (perm_append_singleton ..).symm
  all_goals
    have hfull : min (cs.length + 1) ANT_EXPORT_MAX_SOLUTIONS =
      min cs.length ANT_EXPORT_MAX_SOLUTIONS := by omega
    have hpos : 0 < ANT_EXPORT_MAX_SOLUTIONS := by decide
    obtain ⟨order, last, rfl⟩ := (eq_nil_or_concat' order).resolve_left (by grind)
    obtain ⟨kept, worst, rfl⟩ := (eq_nil_or_concat' kept).resolve_left (by grind)
    obtain ⟨hmap', hlast⟩ : order.map slots = kept.map (fun x => x.1.entry scorer) ∧
      slots last = worst.1.entry scorer := by simpa using hmap
    rw [getLastD_concat, hlast] at hworse
    obtain ⟨hkept', -, hworst⟩ := pairwise_append.mp hkept
  · -- the worst entry gives its slot to the candidate and joins the rest
    rw [getLastD_concat, dropLast_concat]
    have hall' : (kept ++ worst :: rest).Perm cs.zipIdx := by simpa using hall
    refine .insertSlot ?_ hall' hkept' ?_ hmap' ?_
    · exact (perm_append_singleton ..).symm.trans (hfull ▸ hperm)
    · intro y hy
      exact forall_mem_cons.mpr ⟨hworst y hy worst (by simp), hrest y (by simp [hy])⟩
    · exact forall_mem_cons.mpr ⟨hworse, fun y hy => (hrest worst (by simp) y hy).lasts hworse⟩
  · refine ⟨?_, kept ++ [worst], (c, cs.length) :: rest, ?_, hkept, fun y hy => ?_, hmap⟩
    · rwa [length_append, length_singleton, hfull]
    · rw [zipIdx_append, zero_add]
      exact perm_middle.trans ((hall.cons _).trans (perm_append_singleton ..).symm)
    · refine forall_mem_cons.mpr ⟨.inr ⟨fun hbetter => hworse ?_, ?_⟩, hrest y hy⟩
      · obtain hy | hy := mem_append.mp hy
        · exact (hworst y hy worst (by simp)).lasts hbetter
        · exact mem_singleton.mp hy ▸ hbetter
      · simpa using snd_lt_of_mem_zipIdx (hall.mem_iff.mp (mem_append_left _ hy))

/-- The export set after any sequence of candidates, from an empty one. -/
theorem noteExportCandidate_best (scorer : Scorer Ann PackedAnn)
    (slots : Nat → AntExportSlot PackedAnn) (cs : List (Candidate Ann)) :
    Best scorer cs (cs.foldl (fun set c =>
      noteExportCandidate scorer c.pubkey c.rating c.depth c.ann set) ⟨slots, []⟩) := by
  induction cs using reverseRecOn with
  | nil => exact ⟨.refl _, [], [], .refl _, .nil, by simp, rfl⟩
  | append_singleton cs c ih =>
    rw [foldl_concat]
    exact ih.note c

end QubicCore.Mining.AntColony
