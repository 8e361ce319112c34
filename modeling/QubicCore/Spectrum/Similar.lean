import QubicCore.Spectrum.Operations

/-!
# Tables that differ in the transfer statistics only

The anti-dust step looks at public keys and balances. Two tables that agree on these burn the same
slots and are rebuilt to tables that agree again, so where an entity moves does not depend on the
transfers counted in its record.
-/

namespace QubicCore.Spectrum

open Library.Probing Library.Cells

variable {e e' : EntityRecord} {t t' : Nat → EntityRecord} {b b' : DustBurn}

structure SameBalance (e e' : EntityRecord) : Prop where
  publicKey : e.publicKey = e'.publicKey
  balance : e.balance = e'.balance

lemma SameBalance.refl (e : EntityRecord) : SameBalance e e := ⟨rfl, rfl⟩

lemma SameBalance.unsignedBalance (h : SameBalance e e') :
    e.unsignedBalance = e'.unsignedBalance := by
  unfold EntityRecord.unsignedBalance
  rw [← uint64_sint64, ← uint64_sint64 (e'.incomingAmount - e'.outgoingAmount)]
  exact congrArg uint64 h.balance

def Similar (t t' : Nat → EntityRecord) : Prop := ∀ i, SameBalance (t i) (t' i)

lemma Similar.update (h : Similar t t') (i : Nat) (he : SameBalance e e') :
    Similar (Function.update t i e) (Function.update t' i e') := by
  intro j
  by_cases hj : j = i
  · subst hj; simpa using he
  · simpa [hj] using h j

lemma Similar.burnThresholds (h : Similar t t') (d : Nat) :
    updateAndAnalzeEntityCategoryPopulations d t =
      updateAndAnalzeEntityCategoryPopulations d t' := by
  simp only [updateAndAnalzeEntityCategoryPopulations, entityCategoryPopulations,
    fun i => (h i).unsignedBalance]

/-- Burning states that go through the same slots. -/
def SimilarBurn (b b' : DustBurn) : Prop :=
  Similar b.table b'.table ∧ b.countBurnCandidates = b'.countBurnCandidates

lemma SimilarBurn.burn (h : SimilarBurn b b') (i : Nat) : SimilarBurn (b.burn i) (b'.burn i) :=
  ⟨h.1.update i ⟨(h.1 i).publicKey, by simp⟩, h.2⟩

lemma SimilarBurn.isDust_eq (h : SimilarBurn b b') (threshold : Int) (i : Nat) :
    isDust threshold (b.table i) = isDust threshold (b'.table i) := by
  simp only [isDust, (h.1 i).unsignedBalance]

lemma SimilarBurn.burnAll (h : SimilarBurn b b') (d : Nat) (threshold : Int) :
    SimilarBurn (burnAll d threshold b) (burnAll d threshold b') := by
  refine List.foldl_rel h fun i _ b b' hb => ?_
  rw [hb.isDust_eq]
  split_ifs
  · exact hb.burn i
  · exact hb

lemma SimilarBurn.burnHalf (h : SimilarBurn b b') (d : Nat) (threshold : Int) :
    SimilarBurn (burnHalf d threshold b) (burnHalf d threshold b') := by
  refine List.foldl_rel (show SimilarBurn { b with countBurnCandidates := 0 }
    { b' with countBurnCandidates := 0 } from ⟨h.1, rfl⟩) fun i _ b b' hb => ?_
  have hcount : SimilarBurn { b with countBurnCandidates := b.countBurnCandidates + 1 }
      { b' with countBurnCandidates := b'.countBurnCandidates + 1 } :=
    ⟨hb.1, congrArg (· + 1) hb.2⟩
  rw [hb.isDust_eq]
  dsimp only
  rw [hb.2]
  split_ifs
  · exact hb.2 ▸ hcount.burn i
  · exact hb.2 ▸ hcount
  · exact hb

lemma Similar.burnDust (h : Similar t t') (d : Nat) :
    Similar (burnDust d t).table (burnDust d t').table := by
  have hstart : SimilarBurn ⟨t, 0, []⟩ ⟨t', 0, []⟩ := ⟨h, rfl⟩
  unfold Spectrum.burnDust
  rw [h.burnThresholds d]
  dsimp only
  split_ifs
  · exact ((hstart.burnAll d _).burnHalf d _).1
  · exact (hstart.burnHalf d _).1
  · exact (hstart.burnAll d _).1
  · exact h

lemma Similar.reorgInsert {r : Nat → EntityRecord} (h : Similar t t')
    (he : SameBalance e e') {d : Nat} (hr : reorgInsert d t e = some r) :
    ∃ r', Spectrum.reorgInsert d t' e' = some r' ∧ Similar r r' := by
  simp only [Spectrum.reorgInsert, fun i => (h i).publicKey, he.publicKey, Option.bind_eq_bind,
    Option.bind_eq_some_iff] at hr ⊢
  obtain ⟨index, hprobe, hr⟩ := hr
  obtain rfl := Option.some.inj hr
  exact ⟨_, ⟨index, hprobe, rfl⟩, h.update index he⟩

lemma Similar.reorgSpectrum {r : Nat → EntityRecord} (h : Similar t t') {d : Nat}
    (hr : reorgSpectrum d t = some r) :
    ∃ r', Spectrum.reorgSpectrum d t' = some r' ∧ Similar r r' := by
  refine foldlM_rel (r := Similar) (fun i reorg reorg' next hs hnext => ?_)
    (fun _ => SameBalance.refl _) hr
  rw [(h i).balance] at hnext
  split_ifs at hnext ⊢ with hz
  · exact hs.reorgInsert (h i) hnext
  · obtain rfl := Option.some.inj hnext
    exact ⟨reorg', rfl, hs⟩

end QubicCore.Spectrum
