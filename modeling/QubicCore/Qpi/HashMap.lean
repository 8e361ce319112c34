import QubicCore.Qpi.HashTable

/-!
# `HashMap` and `HashSet`

Whole runs of the two containers, from the state after construction, against finite maps and
finite sets. `removeByIndex` is given the key that the container itself reports for the slot.
-/

universe u

namespace QubicCore.Qpi

open Function HashTable.Represents

structure HashMap.Element (K V : Type u) where
  key : K
  value : V

instance {K V : Type u} [Inhabited K] [Inhabited V] : Inhabited (HashMap.Element K V) :=
  ⟨⟨default, default⟩⟩

abbrev HashMap (K V : Type u) := HashTable (HashMap.Element K V)

/-- The class `HashSet<KeyT, L, HashFunc>`. -/
abbrev HashSet (K : Type u) := HashTable K

section

variable {K V : Type u} [DecidableEq K] [Inhabited K] [Inhabited V] (L : Nat) (hash : K → Nat)

namespace HashMap

def getElementIndex (m : HashMap K V) (key : K) : Option Nat :=
  HashTable.getElementIndex L hash Element.key m key

variable (m : HashMap K V)

def contains (key : K) : Bool := (getElementIndex L hash m key).isSome

/-- The value written to the reference argument, if the result is `true`. -/
def get (key : K) : Option V :=
  (getElementIndex L hash m key).map fun elementIndex => (m.entries elementIndex).value

def key (m : HashMap K V) (elementIndex : Int) : K :=
  (m.entries (HashTable.maskIndex L elementIndex)).key

def set (key : K) (value : V) : Option Nat × HashMap K V :=
  HashTable.insert L hash Element.key m ⟨key, value⟩ fun e => { e with value := value }

def removeByKey (m : HashMap K V) (key : K) : Option Nat × HashMap K V :=
  HashTable.removeByKey L hash Element.key m key

def removeByIndex (m : HashMap K V) (elementIdx : Int) : HashMap K V :=
  HashTable.removeByIndex L m elementIdx

def cleanup (m : HashMap K V) : HashMap K V := HashTable.cleanup L hash Element.key m

def cleanupIfNeeded (m : HashMap K V) (removalThresholdPercent : Nat) : HashMap K V :=
  HashTable.cleanupIfNeeded L hash Element.key m removalThresholdPercent

def replace (key : K) (newValue : V) : Bool × HashMap K V :=
  match getElementIndex L hash m key with
  | some elementIndex =>
    (true, { m with
      entries := update m.entries elementIndex
        { m.entries elementIndex with value := newValue } })
  | none => (false, m)

inductive Call (K V : Type u) where
  | set (key : K) (value : V)
  | removeByKey (key : K)
  | removeByIndex (elementIdx : Int)
  | cleanup
  | cleanupIfNeeded (removalThresholdPercent : Nat)
  | replace (key : K) (newValue : V)
  | reset

def step : Call K V → HashMap K V
  | .set key value => (set L hash m key value).2
  | .removeByKey key => (removeByKey L hash m key).2
  | .removeByIndex elementIdx => removeByIndex L m elementIdx
  | .cleanup => cleanup L hash m
  | .cleanupIfNeeded percent => cleanupIfNeeded L hash m percent
  | .replace key newValue => (replace L hash m key newValue).2
  | .reset => HashTable.reset

/-- What a call means for the finite map, of at most `L` keys. -/
def specStep (f : Finmap fun _ : K => V) : Call K V → Finmap fun _ : K => V
  | .set key value => if key ∉ f ∧ f.keys.card = L then f else f.insert key value
  | .removeByKey key => f.erase key
  | .removeByIndex elementIdx =>
    if HashTable.isEmptySlot L m elementIdx then f else f.erase (key L m elementIdx)
  | .cleanup => f
  | .cleanupIfNeeded _ => f
  | .replace key newValue => if key ∈ f then f.insert key newValue else f
  | .reset => ∅

def run (calls : List (Call K V)) : HashMap K V × Finmap fun _ : K => V :=
  calls.foldl (fun st call => (step L hash st.1 call, specStep L st.1 st.2 call))
    (HashTable.reset, ∅)

end HashMap

namespace HashSet

def getElementIndex (s : HashSet K) (key : K) : Option Nat :=
  HashTable.getElementIndex L hash id s key

variable (s : HashSet K)

def contains (key : K) : Bool := (getElementIndex L hash s key).isSome

def key (elementIndex : Int) : K := s.entries (HashTable.maskIndex L elementIndex)

def add (key : K) : Option Nat × HashSet K := HashTable.insert L hash id s key id

def remove (key : K) : Option Nat × HashSet K := HashTable.removeByKey L hash id s key

def removeByIndex (s : HashSet K) (elementIdx : Int) : HashSet K :=
  HashTable.removeByIndex L s elementIdx

def cleanup (s : HashSet K) : HashSet K := HashTable.cleanup L hash id s

def cleanupIfNeeded (s : HashSet K) (removalThresholdPercent : Nat) : HashSet K :=
  HashTable.cleanupIfNeeded L hash id s removalThresholdPercent

inductive Call (K : Type u) where
  | add (key : K)
  | remove (key : K)
  | removeByIndex (elementIdx : Int)
  | cleanup
  | cleanupIfNeeded (removalThresholdPercent : Nat)
  | reset

def step : Call K → HashSet K
  | .add key => (add L hash s key).2
  | .remove key => (remove L hash s key).2
  | .removeByIndex elementIdx => removeByIndex L s elementIdx
  | .cleanup => cleanup L hash s
  | .cleanupIfNeeded percent => cleanupIfNeeded L hash s percent
  | .reset => HashTable.reset

def specStep (keys : Finset K) : Call K → Finset K
  | .add key => if key ∉ keys ∧ keys.card = L then keys else insert key keys
  | .remove key => keys.erase key
  | .removeByIndex elementIdx =>
    if HashTable.isEmptySlot L s elementIdx then keys else keys.erase (key L s elementIdx)
  | .cleanup => keys
  | .cleanupIfNeeded _ => keys
  | .reset => ∅

def run (calls : List (Call K)) : HashSet K × Finset K :=
  calls.foldl (fun st call => (step L hash st.1 call, specStep L st.1 st.2 call))
    (HashTable.reset, ∅)

end HashSet

end

/-! ## `HashMap` as a finite map -/

namespace HashMap

variable {K V : Type u} [DecidableEq K] {N : Nat} {hash : K → Nat} {m : HashMap K V}
  {f : Finmap fun _ : K => V}

def stored (f : Finmap fun _ : K => V) (k : K) : Option (Element K V) :=
  (f.lookup k).map (Element.mk k)

lemma stored_eq_none {k : K} : stored f k = none ↔ k ∉ f := by
  rw [stored, Option.map_eq_none_iff, Finmap.lookup_eq_none]

lemma stored_insert (f : Finmap fun _ : K => V) (k : K) (v : V) :
    stored (f.insert k v) = update (stored f) k (some ⟨k, v⟩) := by
  funext k'
  by_cases h : k' = k
  · subst h
    simp [stored]
  · simp [stored, h]

lemma stored_erase (f : Finmap fun _ : K => V) (k : K) :
    stored (f.erase k) = update (stored f) k none := by
  funext k'
  by_cases h : k' = k
  · subst h
    simp [stored]
  · simp [stored, h]

def Models (N : Nat) (hash : K → Nat) (m : HashMap K V) (f : Finmap fun _ : K => V) : Prop :=
  HashTable.Represents N hash Element.key m (stored f)

lemma Models.population (h : Models N hash m f) : f.keys.card = m.population :=
  card_keys h fun k => by rw [Finmap.mem_keys, ne_eq, stored_eq_none, not_not]

lemma Models.getElementIndex_eq_none (h : Models N hash m f) (k : K) :
    getElementIndex (2 ^ N) hash m k = none ↔ k ∉ f :=
  (HashTable.Represents.getElementIndex_eq_none h).trans stored_eq_none

lemma Models.set (h : Models N hash m f) (k : K) (v : V) :
    ((HashMap.set (2 ^ N) hash m k v).1 = none ↔ k ∉ f ∧ f.keys.card = 2 ^ N) ∧
    Models N hash (HashMap.set (2 ^ N) hash m k v).2
      (if k ∉ f ∧ f.keys.card = 2 ^ N then f else f.insert k v) := by
  obtain ⟨hnone, hrep⟩ :=
    insert h ⟨k, v⟩ (fun e => { e with value := v }) fun _ => rfl
  have hvalue : (stored f k).elim ⟨k, v⟩ (fun e => { e with value := v }) = ⟨k, v⟩ := by
    unfold stored
    cases f.lookup k <;> rfl
  simp only [stored_eq_none, ← h.population, hvalue, ← stored_insert, ← apply_ite stored]
    at hnone hrep
  exact ⟨hnone, hrep⟩

lemma Models.replace (h : Models N hash m f) (k : K) (v : V) :
    ((HashMap.replace (2 ^ N) hash m k v).1 ↔ k ∈ f) ∧
    Models N hash (HashMap.replace (2 ^ N) hash m k v).2 (if k ∈ f then f.insert k v else f) := by
  have hidx := h.getElementIndex_eq_none k
  unfold HashMap.replace
  split
  · next i hi =>
    obtain ⟨hlt, hslot, rfl⟩ := (getElementIndex_eq_some h).mp hi
    have hmem : (m.entries i).key ∈ f := by simpa [hi] using hidx
    rw [if_pos hmem, Models, stored_insert]
    exact ⟨by simp [hmem], overwrite h hlt hslot rfl⟩
  · next hi =>
    have hmem := hidx.mp hi
    rw [if_neg hmem]
    exact ⟨by simp [hmem], h⟩

variable [Inhabited K] [Inhabited V]

lemma Models.cleanup (h : Models N hash m f) : Models N hash (HashMap.cleanup (2 ^ N) hash m) f :=
  HashTable.Represents.cleanup h

/-- Every call keeps the container and the map together. -/
lemma Models.step (h : Models N hash m f) (call : Call K V) :
    Models N hash (HashMap.step (2 ^ N) hash m call) (specStep (2 ^ N) m f call) := by
  cases call with
  | set key value => exact (h.set key value).2
  | removeByKey key =>
    rw [specStep, Models, stored_erase]
    exact (HashTable.Represents.removeByKey h key).2
  | removeByIndex elementIdx =>
    rw [specStep, Models, apply_ite stored, stored_erase]
    exact HashTable.Represents.removeByIndex h elementIdx
  | cleanup => exact h.cleanup
  | cleanupIfNeeded percent =>
    simp only [HashMap.step, HashMap.cleanupIfNeeded, HashTable.cleanupIfNeeded]
    split_ifs
    exacts [h.cleanup, h]
  | replace key newValue => exact (h.replace key newValue).2
  | reset => exact HashTable.Represents.reset N hash Element.key

lemma Models.run (N : Nat) (hash : K → Nat) (calls : List (Call K V)) :
    Models N hash (HashMap.run (2 ^ N) hash calls).1 (HashMap.run (2 ^ N) hash calls).2 := by
  exact List.foldlRecOn calls _
    (motive := fun st : HashMap K V × (Finmap fun _ : K => V) => Models N hash st.1 st.2)
    (reset N hash Element.key) fun st h call _ => h.step call

structure Refines (N : Nat) (hash : K → Nat) (m : HashMap K V) (f : Finmap fun _ : K => V) :
    Prop where
  get : ∀ k, HashMap.get (2 ^ N) hash m k = f.lookup k
  contains : ∀ k, HashMap.contains (2 ^ N) hash m k ↔ k ∈ f
  index_none : ∀ k, getElementIndex (2 ^ N) hash m k = none ↔ k ∉ f
  index : ∀ k i, getElementIndex (2 ^ N) hash m k = some i ↔
    i < 2 ^ N ∧ HashTable.isEmptySlot (2 ^ N) m i = false ∧ HashMap.key (2 ^ N) m i = k
  unique : ∀ i < 2 ^ N, ∀ j < 2 ^ N, HashTable.isEmptySlot (2 ^ N) m (i : Nat) = false →
    HashTable.isEmptySlot (2 ^ N) m (j : Nat) = false →
    HashMap.key (2 ^ N) m (i : Nat) = HashMap.key (2 ^ N) m (j : Nat) → i = j
  population : m.population = f.keys.card
  population_le : f.keys.card ≤ 2 ^ N
  set : ∀ k v, (HashMap.set (2 ^ N) hash m k v).1 = none ↔ k ∉ f ∧ f.keys.card = 2 ^ N
  removeByKey : ∀ k, (HashMap.removeByKey (2 ^ N) hash m k).1 = none ↔ k ∉ f
  replace : ∀ k v, (HashMap.replace (2 ^ N) hash m k v).1 ↔ k ∈ f

lemma Models.refines (h : Models N hash m f) : Refines N hash m f where
  get k := by
    have hmap := congrArg (Option.map Element.value) (HashTable.Represents.getElementIndex_map h k)
    rw [Option.map_map, stored, Option.map_map] at hmap
    simpa [HashMap.get, HashMap.getElementIndex, Function.comp_def] using hmap
  contains k := by
    rw [HashMap.contains, Option.isSome_iff_ne_none, ne_eq, h.getElementIndex_eq_none, not_not]
  index_none := h.getElementIndex_eq_none
  index := HashTable.Represents.getElementIndex_iff h
  unique _ hi _ hj := HashTable.Represents.slot_unique h hi hj
  population := h.population.symm
  population_le := h.population.trans_le (HashTable.Represents.population_le h)
  set k v := (h.set k v).1
  removeByKey k := (HashTable.Represents.removeByKey h k).1.trans stored_eq_none
  replace k v := (h.replace k v).1

end HashMap

/-! ## `HashSet` as a finite set -/

namespace HashSet

variable {K : Type u} [DecidableEq K] {N : Nat} {hash : K → Nat} {s : HashSet K} {keys : Finset K}

def stored (keys : Finset K) (k : K) : Option K := if k ∈ keys then some k else none

lemma stored_eq_none {k : K} : stored keys k = none ↔ k ∉ keys := by simp [stored]

lemma stored_insert (keys : Finset K) (k : K) :
    stored (insert k keys) = update (stored keys) k (some k) := by
  funext k'
  by_cases h : k' = k
  · subst h
    simp [stored]
  · simp [stored, h]

lemma stored_erase (keys : Finset K) (k : K) :
    stored (keys.erase k) = update (stored keys) k none := by
  funext k'
  by_cases h : k' = k
  · subst h
    simp [stored]
  · simp [stored, h]

def Models (N : Nat) (hash : K → Nat) (s : HashSet K) (keys : Finset K) : Prop :=
  HashTable.Represents N hash id s (stored keys)

lemma Models.population (h : Models N hash s keys) : keys.card = s.population :=
  card_keys h fun k => by rw [ne_eq, stored_eq_none, not_not]

lemma Models.getElementIndex_eq_none (h : Models N hash s keys) (k : K) :
    getElementIndex (2 ^ N) hash s k = none ↔ k ∉ keys :=
  (HashTable.Represents.getElementIndex_eq_none h).trans stored_eq_none

lemma Models.add (h : Models N hash s keys) (k : K) :
    ((HashSet.add (2 ^ N) hash s k).1 = none ↔ k ∉ keys ∧ keys.card = 2 ^ N) ∧
    Models N hash (HashSet.add (2 ^ N) hash s k).2
      (if k ∉ keys ∧ keys.card = 2 ^ N then keys else insert k keys) := by
  obtain ⟨hnone, hrep⟩ := insert h k id fun _ => rfl
  have hkey : (stored keys k).elim k id = k := by
    unfold stored
    split_ifs <;> rfl
  simp only [id_eq, stored_eq_none, ← h.population, hkey, ← stored_insert, ← apply_ite stored]
    at hnone hrep
  exact ⟨hnone, hrep⟩

variable [Inhabited K]

lemma Models.cleanup (h : Models N hash s keys) :
    Models N hash (HashSet.cleanup (2 ^ N) hash s) keys := HashTable.Represents.cleanup h

/-- Every call keeps the container and the set together. -/
lemma Models.step (h : Models N hash s keys) (call : Call K) :
    Models N hash (HashSet.step (2 ^ N) hash s call) (specStep (2 ^ N) s keys call) := by
  cases call with
  | add key => exact (h.add key).2
  | remove key =>
    rw [specStep, Models, stored_erase]
    exact (HashTable.Represents.removeByKey h key).2
  | removeByIndex elementIdx =>
    rw [specStep, Models, apply_ite stored, stored_erase]
    exact HashTable.Represents.removeByIndex h elementIdx
  | cleanup => exact h.cleanup
  | cleanupIfNeeded percent =>
    simp only [HashSet.step, HashSet.cleanupIfNeeded, HashTable.cleanupIfNeeded]
    split_ifs
    exacts [h.cleanup, h]
  | reset => exact HashTable.Represents.reset N hash id

lemma Models.run (N : Nat) (hash : K → Nat) (calls : List (Call K)) :
    Models N hash (HashSet.run (2 ^ N) hash calls).1 (HashSet.run (2 ^ N) hash calls).2 := by
  exact List.foldlRecOn calls _
    (motive := fun st : HashSet K × Finset K => Models N hash st.1 st.2)
    (reset N hash id) fun st h call _ => h.step call

structure Refines (N : Nat) (hash : K → Nat) (s : HashSet K) (keys : Finset K) : Prop where
  contains : ∀ k, HashSet.contains (2 ^ N) hash s k ↔ k ∈ keys
  index_none : ∀ k, getElementIndex (2 ^ N) hash s k = none ↔ k ∉ keys
  index : ∀ k i, getElementIndex (2 ^ N) hash s k = some i ↔
    i < 2 ^ N ∧ HashTable.isEmptySlot (2 ^ N) s i = false ∧ HashSet.key (2 ^ N) s i = k
  unique : ∀ i < 2 ^ N, ∀ j < 2 ^ N, HashTable.isEmptySlot (2 ^ N) s (i : Nat) = false →
    HashTable.isEmptySlot (2 ^ N) s (j : Nat) = false →
    HashSet.key (2 ^ N) s (i : Nat) = HashSet.key (2 ^ N) s (j : Nat) → i = j
  population : s.population = keys.card
  population_le : keys.card ≤ 2 ^ N
  add : ∀ k, (HashSet.add (2 ^ N) hash s k).1 = none ↔ k ∉ keys ∧ keys.card = 2 ^ N
  remove : ∀ k, (HashSet.remove (2 ^ N) hash s k).1 = none ↔ k ∉ keys

lemma Models.refines (h : Models N hash s keys) : Refines N hash s keys where
  contains k := by
    rw [HashSet.contains, Option.isSome_iff_ne_none, ne_eq, h.getElementIndex_eq_none, not_not]
  index_none := h.getElementIndex_eq_none
  index := getElementIndex_iff h
  unique _ hi _ hj := slot_unique h hi hj
  population := h.population.symm
  population_le := h.population.trans_le (population_le h)
  add k := (h.add k).1
  remove k := (removeByKey h k).1.trans stored_eq_none

end HashSet

/-- After any calls, with any capacity `2^N` and any hash function, `HashMap` is the finite map
and `HashSet` the finite set that the calls describe. -/
theorem hashContainers_refine {K V : Type u} [DecidableEq K] [Inhabited K] [Inhabited V]
    (N : Nat) (hash : K → Nat) :
    (∀ calls : List (HashMap.Call K V), HashMap.Refines N hash
      (HashMap.run (2 ^ N) hash calls).1 (HashMap.run (2 ^ N) hash calls).2) ∧
    ∀ calls : List (HashSet.Call K), HashSet.Refines N hash
      (HashSet.run (2 ^ N) hash calls).1 (HashSet.run (2 ^ N) hash calls).2 := by
  constructor
  · intro calls
    exact (HashMap.Models.run N hash calls).refines
  · intro calls
    exact (HashSet.Models.run N hash calls).refines

end QubicCore.Qpi
