import Mathlib.Tactic

/-!
# The request queue and the response queue

Both queues run one algorithm, so they are one model. The messages lie in a ring of bytes that
goes back to its start early enough for every message to be in one piece. A second ring of 65536
elements keeps the peer and the offset of each message. The positions of the byte ring stay below
`2 ^ 32`. An enqueue and a dequeue hold their lock, so each is one step.
-/

namespace QubicCore.MessageQueue

open Function List Option

inductive Build
  | mainnet
  | testnet
  | testnetLiteRam

def NETWORK_QUEUEUE_REDUCED_TIME : Build → Nat
  | .mainnet => 1
  | .testnet => 4
  | .testnetLiteRam => 16

def BUFFER_SIZE : Nat := 33554432
def QUEUE_LENGTH : Nat := 65536

/-- `REQUEST_QUEUE_BUFFER_SIZE` and `RESPONSE_QUEUE_BUFFER_SIZE`. -/
def QUEUE_BUFFER_SIZE (b : Build) : Nat := 1073741824 / NETWORK_QUEUEUE_REDUCED_TIME b

/-- `RequestResponseHeader::size`, read from the first three bytes of a message. -/
def headerSize (bytes : Nat → UInt8) : Nat :=
  (bytes 0).toNat + 256 * (bytes 1).toNat + 65536 * (bytes 2).toNat

/-- A message with its header of 8 bytes, which states the size of the whole. -/
structure Message where
  bytes : List UInt8
  header_le : 8 ≤ bytes.length
  size_eq : headerSize (bytes.getD · 0) = bytes.length

/-- The message that `enqueueResponse` builds from a type, a dejavu and data. -/
def Message.response (type : UInt8) (dejavu : BitVec 32) (data : List UInt8)
    (h : 8 + data.length ≤ 0xFFFFFF) : Message where
  bytes :=
    let size := 8 + data.length
    [.ofNat size, .ofNat (size / 256), .ofNat (size / 65536), type,
      .ofNat dejavu.toNat, .ofNat (dejavu.toNat / 256), .ofNat (dejavu.toNat / 65536),
      .ofNat (dejavu.toNat / 16777216)] ++ data
  header_le := by simp
  size_eq := by
    simp [headerSize]
    omega

lemma Message.length_response {type : UInt8} {dejavu : BitVec 32} {data : List UInt8}
    {h : 8 + data.length ≤ 0xFFFFFF} :
    (Message.response type dejavu data h).bytes.length = 8 + data.length := by
  simp [Message.response]
  omega

structure Element (Peer : Type*) where
  offset : Nat
  peer : Peer

structure Queue (Peer : Type*) where
  buffer : Nat → UInt8
  elements : Nat → Element Peer
  (bufferHead bufferTail elementHead elementTail : Nat)

def copyMem (dst : Nat → UInt8) (offset : Nat) (src : List UInt8) : Nat → UInt8 :=
  fun i => if offset ≤ i ∧ i < offset + src.length then src.getD (i - offset) 0 else dst i

def bytesAt (buffer : Nat → UInt8) (offset size : Nat) : List UInt8 :=
  ofFn fun i : Fin size => buffer (offset + i)

def wrap (b : Build) (position : Nat) : Nat :=
  if position > QUEUE_BUFFER_SIZE b - BUFFER_SIZE then 0 else position

variable {Peer : Type*} (b : Build)

def Queue.start (buffer : Nat → UInt8) (elements : Nat → Element Peer) : Queue Peer :=
  ⟨buffer, elements, 0, 0, 0, 0⟩

variable (q : Queue Peer)

/-- `none` means that the message is refused. -/
def enqueue (peer : Peer) (m : Message) : Option (Queue Peer) :=
  let size := headerSize (m.bytes.getD · 0)
  if (q.bufferHead ≥ q.bufferTail ∨ q.bufferHead + size < q.bufferTail) ∧
      (q.elementHead + 1) % QUEUE_LENGTH ≠ q.elementTail then
    some { q with
      elements := update q.elements q.elementHead ⟨q.bufferHead, peer⟩
      buffer := copyMem q.buffer q.bufferHead m.bytes
      bufferHead := wrap b (q.bufferHead + size)
      elementHead := (q.elementHead + 1) % QUEUE_LENGTH }
  else none

/-- The peer and the bytes of the message that is taken out; `none` if no element waits. -/
def dequeue : Option ((Peer × List UInt8) × Queue Peer) :=
  if q.elementTail = q.elementHead then none
  else
    let e := q.elements q.elementTail
    let size := headerSize fun i => q.buffer (e.offset + i)
    some ((e.peer, bytesAt q.buffer e.offset size),
      { q with
        bufferTail := wrap b (q.bufferTail + size)
        elementTail := (q.elementTail + 1) % QUEUE_LENGTH })

/-- The accepted messages that have not been dequeued, the oldest first. -/
abbrev Waiting (Peer : Type*) := List (Peer × Message)

abbrev Config (Peer : Type*) := Queue Peer × Waiting Peer

/-- The steps of a queue in which a message is accepted only in a state that is `allowed`. -/
inductive Step (allowed : Queue Peer → Prop) : Config Peer → Config Peer → Prop
  | accepted {q q' ws} (peer m) : allowed q → enqueue b q peer m = some q' →
      Step allowed (q, ws) (q', ws ++ [(peer, m)])
  | refused {q ws peer m} : enqueue b q peer m = none → Step allowed (q, ws) (q, ws)
  | dequeued {q q' ws out} : dequeue b q = some (out, q') → Step allowed (q, ws) (q', ws.tail)
  | idle {q ws} : dequeue b q = none → Step allowed (q, ws) (q, ws)

/-- The next message to be dequeued is the oldest that waits, with its bytes and its peer. Every
waiting message lies unchanged in the ring. -/
def Fifo (ws : Waiting Peer) : Prop :=
  ws.length < QUEUE_LENGTH ∧
  (dequeue b q).map Prod.fst = ws.head?.map (fun w => (w.1, w.2.bytes)) ∧
  ∀ i w, ws[i]? = some w →
    let e := q.elements ((q.elementTail + i) % QUEUE_LENGTH)
    e.peer = w.1 ∧ e.offset + w.2.bytes.length < QUEUE_BUFFER_SIZE b ∧
      bytesAt q.buffer e.offset w.2.bytes.length = w.2.bytes

/-- The positions of the byte ring tell a full ring from an empty one. -/
def Distinguishable : Prop := q.elementHead = q.elementTail ∨ q.bufferHead ≠ q.bufferTail

/-! ## The invariant -/

def span (ws : Waiting Peer) : Nat := (ws.map fun w => w.2.bytes.length).sum

def Lies (i offset : Nat) (w : Peer × Message) : Prop :=
  q.elements (i % QUEUE_LENGTH) = ⟨offset, w.1⟩ ∧
  offset ≤ QUEUE_BUFFER_SIZE b - BUFFER_SIZE ∧
  bytesAt q.buffer offset w.2.bytes.length = w.2.bytes

/-- The messages lie one after the other from `offset` on, with their elements from `i` on. -/
def Stored (q : Queue Peer) : Nat → Nat → Waiting Peer → Prop
  | _, _, [] => True
  | i, offset, w :: ws => Lies b q i offset w ∧ Stored q (i + 1) (offset + w.2.bytes.length) ws

/-- The messages lie in one piece from the tail to the head, or go round the end of the ring
behind the message `l`. -/
inductive Layout (q : Queue Peer) : Waiting Peer → Prop
  | straight {ws} : Stored b q q.elementTail q.bufferTail ws →
      q.bufferHead = q.bufferTail + span ws →
      q.bufferHead ≤ QUEUE_BUFFER_SIZE b - BUFFER_SIZE → Layout q ws
  | around {ws l vs} : Stored b q q.elementTail q.bufferTail (ws ++ [l]) →
      Stored b q (q.elementTail + (ws.length + 1)) 0 vs →
      QUEUE_BUFFER_SIZE b - BUFFER_SIZE < q.bufferTail + span (ws ++ [l]) →
      q.bufferHead = span vs → q.bufferHead ≤ q.bufferTail → Layout q (ws ++ [l] ++ vs)

structure Inv (q : Queue Peer) (ws : Waiting Peer) : Prop where
  tail_lt : q.elementTail < QUEUE_LENGTH
  length_lt : ws.length < QUEUE_LENGTH
  elementHead_eq : q.elementHead = (q.elementTail + ws.length) % QUEUE_LENGTH
  layout : Layout b q ws

variable {b} {q q' : Queue Peer} {ws vs : Waiting Peer} {w : Peer × Message} {peer : Peer}
  {m : Message} {buffer : Nat → UInt8} {i j k offset : Nat}

@[simp]
lemma span_nil : span ([] : Waiting Peer) = 0 := rfl

@[simp]
lemma span_cons : span (w :: ws) = w.2.bytes.length + span ws := by simp [span]

@[simp]
lemma span_append : span (ws ++ vs) = span ws + span vs := by simp [span]

lemma bytesAt_eq_iff {bytes : List UInt8} :
    bytesAt buffer offset bytes.length = bytes ↔
      ∀ k < bytes.length, buffer (offset + k) = bytes.getD k 0 := by
  rw [ext_getElem_iff]
  simp +contextual [bytesAt]

lemma headerSize_of_bytesAt
    (h : bytesAt buffer offset m.bytes.length = m.bytes) :
    headerSize (fun i => buffer (offset + i)) = m.bytes.length := by
  have hle := m.header_le
  rw [← m.size_eq]
  have hk := bytesAt_eq_iff.mp h
  simp only [headerSize]
  rw [hk 0 (by omega), hk 1 (by omega), hk 2 (by omega)]

lemma Message.length_lt (m : Message) : m.bytes.length < BUFFER_SIZE := by
  rw [← m.size_eq]
  have h (x : UInt8) : x.toNat < 256 := x.toNat_lt
  have := h (m.bytes.getD 0 0)
  have := h (m.bytes.getD 1 0)
  have := h (m.bytes.getD 2 0)
  simp only [headerSize, BUFFER_SIZE]
  omega

lemma stored_append :
    Stored b q i offset (ws ++ vs) ↔
      Stored b q i offset ws ∧ Stored b q (i + ws.length) (offset + span ws) vs := by
  induction ws generalizing i offset with
  | nil => simp [Stored]
  | cons w ws ih => simp [Stored, ih, Nat.add_assoc, Nat.add_comm 1, and_assoc]

/-- Messages stay where they are if neither their elements nor their bytes are written. -/
lemma Stored.frame (h : Stored b q i offset ws)
    (he : ∀ k < ws.length, q'.elements ((j + k) % QUEUE_LENGTH) =
      q.elements ((i + k) % QUEUE_LENGTH))
    (hb : ∀ k < span ws, q'.buffer (offset + k) = q.buffer (offset + k)) :
    Stored b q' j offset ws := by
  induction ws generalizing i j offset with
  | nil => trivial
  | cons w ws ih =>
    obtain ⟨⟨hel, hle, hby⟩, hrest⟩ := h
    refine ⟨⟨(he 0 (by simp)).trans hel, hle, ?_⟩, ih hrest (fun k hk => ?_) (fun k hk => ?_)⟩
    · rw [bytesAt_eq_iff] at hby ⊢
      intro k hk
      rw [hb k (by simp; omega), hby k hk]
    · simpa [Nat.add_assoc, Nat.add_comm 1] using he (k + 1) (by simpa using hk)
    · simpa [Nat.add_assoc] using hb (w.2.bytes.length + k) (by simpa using hk)

lemma Stored.get (h : Stored b q i offset ws) (hw : ws[k]? = some w) :
    ∃ o, Lies b q (i + k) o w := by
  induction ws generalizing i offset k with
  | nil => simp at hw
  | cons v ws ih =>
    cases k with
    | zero =>
      obtain rfl : v = w := by simpa using hw
      exact ⟨offset, h.1⟩
    | succ k => simpa [Nat.add_assoc, Nat.add_comm 1] using ih h.2 (by simpa using hw)

lemma Layout.get (h : Layout b q ws) (hw : ws[k]? = some w) :
    ∃ o, Lies b q (q.elementTail + k) o w := by
  cases h with
  | straight hs => exact hs.get hw
  | @around ws l vs ha hs =>
    rw [getElem?_append] at hw
    split at hw
    · exact ha.get hw
    · next hk =>
      have := hs.get hw
      simp only [length_append, length_singleton] at hk this
      rwa [show q.elementTail + (ws.length + 1) + (k - (ws.length + 1)) = q.elementTail + k by
        omega] at this

lemma Inv.dequeue_eq (h : Inv b q (w :: ws)) :
    dequeue b q = some ((w.1, w.2.bytes),
      { q with
        bufferTail := wrap b (q.bufferTail + w.2.bytes.length)
        elementTail := (q.elementTail + 1) % QUEUE_LENGTH }) := by
  obtain ⟨htail, hlen, hhead, hlay⟩ := h
  obtain ⟨o, hel, -, hby⟩ := hlay.get (k := 0) rfl
  have hne : q.elementTail ≠ q.elementHead := by
    simp only [QUEUE_LENGTH, length_cons] at *
    omega
  rw [Nat.add_zero, Nat.mod_eq_of_lt htail] at hel
  simp [dequeue, hne, hel, headerSize_of_bytesAt hby, hby]

lemma Inv.fifo (h : Inv b q ws) : Fifo b q ws := by
  refine ⟨h.length_lt, ?_, fun i w hw => ?_⟩
  · cases ws with
    | nil =>
      have : q.elementTail = q.elementHead := by
        simpa [Nat.mod_eq_of_lt h.tail_lt] using h.elementHead_eq.symm
      simp [dequeue, this]
    | cons w ws => simp [h.dequeue_eq]
  · obtain ⟨o, hel, hle, hby⟩ := h.layout.get hw
    have := w.2.length_lt
    have : BUFFER_SIZE < QUEUE_BUFFER_SIZE b := by cases b <;> decide
    rw [hel]
    exact ⟨rfl, by dsimp only; omega, hby⟩

/-- An accepted message is written at the head, and what lies elsewhere stays as it is. -/
lemma Stored.enqueue (h : Inv b q vs) (he : enqueue b q peer m = some q')
    (hs : Stored b q (q.elementTail + j) offset ws) (hj : j + ws.length ≤ vs.length)
    (hd : offset + span ws ≤ q.bufferHead ∨ q.bufferHead + m.bytes.length ≤ offset) :
    Stored b q' (q.elementTail + j) offset ws := by
  obtain ⟨htail, hlen, hhead, -⟩ := h
  simp only [MessageQueue.enqueue, ite_none_right_eq_some, some.injEq] at he
  obtain ⟨-, rfl⟩ := he
  refine hs.frame (fun k hk => update_of_ne ?_ ..) (fun k hk => if_neg ?_)
  · simp only [QUEUE_LENGTH] at *
    omega
  · omega

lemma Inv.enqueue (h : Inv b q ws) (hd : Distinguishable q)
    (he : enqueue b q peer m = some q') : Inv b q' (ws ++ [(peer, m)]) := by
  have hframe {j offset vs} := @Stored.enqueue _ b q q' vs ws peer m j offset h he
  obtain ⟨htail, hlen, hhead, hlay⟩ := h
  simp only [MessageQueue.enqueue, ite_none_right_eq_some, some.injEq,
    m.size_eq] at he
  obtain ⟨⟨hroom, hfull⟩, he⟩ := he
  have hnew (hle : q.bufferHead ≤ QUEUE_BUFFER_SIZE b - BUFFER_SIZE) :
      Stored b q' (q.elementTail + ws.length) q.bufferHead [(peer, m)] := by
    subst he
    refine ⟨⟨by simp [← hhead], hle, bytesAt_eq_iff.mpr fun k hk => ?_⟩, trivial⟩
    simp [copyMem, hk]
  have hbh : q'.bufferHead = wrap b (q.bufferHead + m.bytes.length) := by rw [← he]
  have hbt : q'.bufferTail = q.bufferTail := by rw [← he]
  have het : q'.elementTail = q.elementTail := by rw [← he]
  refine ⟨het ▸ htail, ?_, ?_, ?_⟩
  · simp only [QUEUE_LENGTH, length_append, length_singleton] at *
    omega
  · subst he
    simp [hhead, Nat.add_assoc]
  cases hlay with
  | straight hs hspan hle =>
    have hs' := stored_append.mpr ⟨hframe (j := 0) hs (by simp) (.inl hspan.ge), hspan ▸ hnew hle⟩
    by_cases hw : q.bufferHead + m.bytes.length > QUEUE_BUFFER_SIZE b - BUFFER_SIZE
    · rw [wrap, if_pos hw] at hbh
      have : Layout b q' (ws ++ [(peer, m)] ++ []) :=
        .around (by rwa [het, hbt]) trivial (by simp [hbt]; omega) hbh (by omega)
      simpa using this
    · rw [wrap, if_neg hw] at hbh
      exact .straight (by rwa [het, hbt]) (by simp [hbh, hbt]; omega) (by omega)
  | @around ws l vs ha hs hend hspan hle =>
    -- messages wait, so that the head may not stand on the tail
    have hlt : q.bufferHead < q.bufferTail := by
      rcases hd with hd | hd
      · simp only [QUEUE_LENGTH, length_append, length_singleton] at *
        omega
      · omega
    have htl := (stored_append.mp ha).2.1.2.1
    rw [wrap, if_neg (by omega)] at hbh
    rw [append_assoc]
    refine .around ?_ ?_ (hbt ▸ hend) (by simp [hbh, hspan]) (by omega)
    · rw [het, hbt]
      exact hframe (j := 0) ha (by simp) (.inr (by omega))
    · rw [het]
      refine stored_append.mpr ⟨hframe hs (by simp; omega) (.inl (by omega)), ?_⟩
      simpa [hspan, Nat.add_assoc, Nat.add_comm 1] using hnew (by omega)

lemma Inv.dequeue {out : Peer × List UInt8} (h : Inv b q ws)
    (hq : dequeue b q = some (out, q')) : Inv b q' ws.tail := by
  cases ws with
  | nil => simpa [hq] using h.fifo.2.1
  | cons w ws =>
    rw [h.dequeue_eq] at hq
    obtain ⟨-, rfl⟩ := Prod.mk.inj (some.inj hq)
    obtain ⟨htail, hlen, hhead, hlay⟩ := h
    refine ⟨Nat.mod_lt _ (by decide), Nat.lt_of_succ_lt hlen, ?_, ?_⟩
    · simp [hhead, Nat.add_assoc, Nat.add_comm 1]
    have hmove {t i offset vs} (hs : Stored b q (q.elementTail + 1 + i) offset vs) :
        Stored b { q with bufferTail := t, elementTail := (q.elementTail + 1) % QUEUE_LENGTH }
          ((q.elementTail + 1) % QUEUE_LENGTH + i) offset vs :=
      hs.frame (fun k _ => by simp [Nat.add_assoc]) fun _ _ => rfl
    generalize hws : w :: ws = us at hlay
    cases hlay with
    | straight hs hspan hle =>
      subst hws
      rw [span_cons] at hspan
      rw [wrap, if_neg (by omega)]
      exact .straight (hmove (i := 0) hs.2) (by simp; omega) hle
    | @around as l vs ha hs hend hspan hle =>
      cases as with
      | nil =>
        obtain ⟨rfl, rfl⟩ := cons.inj hws
        have := ha.1.2.1
        rw [wrap, if_pos (by simpa using hend)]
        exact .straight (hmove (i := 0) hs) (by simp [hspan]) (by dsimp only; omega)
      | cons a as =>
        obtain ⟨rfl, rfl⟩ := cons.inj hws
        have := (stored_append.mp ha).2.1.2.1
        rw [span_cons] at this
        rw [wrap, if_neg (by omega)]
        refine .around (hmove (i := 0) ha.2) (hmove ?_) ?_ hspan ?_
        · simpa [Nat.add_assoc, Nat.add_comm 1] using hs
        · simpa [Nat.add_assoc] using hend
        · dsimp only
          omega

lemma Inv.step {c c' : Config Peer} (h : Inv b c.1 c.2)
    (hstep : Step b Distinguishable c c') : Inv b c'.1 c'.2 := by
  cases hstep with
  | accepted peer m hd he => exact h.enqueue hd he
  | dequeued hq => exact h.dequeue hq
  | refused | idle => exact h

/-- In every run whose messages are accepted only in a state that tells a full ring from an empty
one, the queue is a bounded queue: first in, first out, with every byte and every peer kept. -/
theorem fifo_of_distinguishable (b : Build) (buffer : Nat → UInt8)
    (elements : Nat → Element Peer) (c : Config Peer)
    (hrun : Relation.ReflTransGen (Step b Distinguishable) (.start buffer elements, []) c) :
    Fifo b c.1 c.2 := by
  suffices Inv b c.1 c.2 from this.fifo
  induction hrun with
  | refl =>
    have hlt : 0 < QUEUE_LENGTH := by decide
    exact ⟨hlt, hlt, rfl, .straight trivial rfl (Nat.zero_le _)⟩
  | tail _ hstep ih => exact ih.step hstep

def smallest : Message := .response 0 0 [] (by decide)

/-- Two messages wait, and the first is taken. -/
theorem fifo_of_distinguishable_single : ∃ q q' q'' : Queue Nat,
    enqueue .mainnet (.start (fun _ => 0) fun _ => ⟨0, 0⟩) 7 smallest = some q ∧
      enqueue .mainnet q 8 smallest = some q' ∧
      dequeue .mainnet q' = some ((7, smallest.bytes), q'') ∧
      Fifo .mainnet q'' [(8, smallest)] := by
  have hfirst : Step .mainnet Distinguishable (.start (fun _ => 0) fun _ => ⟨0, 0⟩, []) _ :=
    .accepted 7 smallest (.inl rfl) rfl
  have hrun := (Relation.ReflTransGen.single hfirst).tail
    (.accepted 8 smallest (.inr (by decide)) rfl)
  have hfifo := fifo_of_distinguishable .mainnet _ _ _ (hrun.tail (.dequeued rfl))
  exact ⟨_, _, _, rfl, rfl, rfl, hfifo⟩

def largest : Message := .response 0 0 (replicate 16777207 0) (by rw [length_replicate])

lemma length_largest : largest.bytes.length = 16777215 := by
  rw [largest, Message.length_response, length_replicate]

/-- As long as nothing is dequeued, every largest message is accepted. -/
lemma exists_run_largest (n : Nat) (hn : n ≤ 63) :
    ∃ q : Queue Nat, Relation.ReflTransGen (Step .mainnet fun _ => True)
        (.start (fun _ => 0) fun _ => ⟨0, 0⟩, []) (q, replicate n (0, largest)) ∧
      q.bufferHead = wrap .mainnet (n * 16777215) ∧ q.bufferTail = 0 ∧
      q.elementHead = n ∧ q.elementTail = 0 ∧ q.elements 0 = ⟨0, 0⟩ := by
  induction n with
  | zero => exact ⟨_, .refl, rfl, rfl, rfl, rfl, rfl⟩
  | succ n ih =>
    obtain ⟨q, hrun, hbh, hbt, heh, het, hel⟩ := ih (by omega)
    have hw : wrap .mainnet (n * 16777215) = n * 16777215 := if_neg (by
      simp only [QUEUE_BUFFER_SIZE, NETWORK_QUEUEUE_REDUCED_TIME, BUFFER_SIZE]
      omega)
    have hmod : (n + 1) % QUEUE_LENGTH = n + 1 := Nat.mod_eq_of_lt (by unfold QUEUE_LENGTH; omega)
    have hstep : Step .mainnet (fun _ => True) (q, replicate n (0, largest)) _ :=
      .accepted 0 largest trivial (if_pos ⟨.inl (by omega), by rw [heh, het, hmod]; omega⟩)
    rw [largest.size_eq, length_largest, hbh, hw, heh, hmod, ← replicate_succ'] at hstep
    refine ⟨_, hrun.tail hstep, by rw [Nat.succ_mul], hbt, rfl, het, ?_⟩
    cases n with
    | zero => simp
    | succ n => simpa using hel

/-- With 63 of the largest messages the ring is full, its head is back at the tail, and one more
message is written over the first. -/
theorem first_message_overwritten :
    ∃ c : Config Nat, Relation.ReflTransGen (Step .mainnet fun _ => True)
        (.start (fun _ => 0) fun _ => ⟨0, 0⟩, []) c ∧
      c.2 = replicate 63 (0, largest) ++ [(0, smallest)] ∧ ¬Fifo .mainnet c.1 c.2 := by
  obtain ⟨q, hrun, hbh, hbt, heh, het, hel⟩ := exists_run_largest 63 le_rfl
  have hstep : Step .mainnet (fun _ => True) (q, replicate 63 (0, largest)) _ :=
    .accepted 0 smallest trivial (if_pos ⟨.inl (by omega), by rw [heh, het]; decide⟩)
  refine ⟨_, hrun.tail hstep, rfl, fun hfifo => ?_⟩
  have hdeq := hfifo.2.1
  simp only [dequeue, heh, het, hbh] at hdeq
  rw [if_neg (by decide), update_of_ne (by decide), hel] at hdeq
  have hbytes : bytesAt (copyMem q.buffer 0 smallest.bytes) 0 8 = largest.bytes :=
    (Prod.mk.inj (some.inj hdeq)).2
  have hlen := congrArg length hbytes
  rw [bytesAt, length_ofFn, length_largest] at hlen
  omega

end QubicCore.MessageQueue
