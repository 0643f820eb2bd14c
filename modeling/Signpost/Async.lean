/-
The asynchronous receive path as `signpost_api.c` drives it: one static packet
buffer, one static callback slot, and a call stack.

Everything runs on one stack. A frame that waits lets callbacks run on top of
it, and goes on when they have returned: `get_message` waits for a packet,
`signbus_app_send` for the bus, a handler or a timer's task for what it calls.
An event is what happens at such a point. After it, `settle` lets a
`get_message` that is on top take the packet that waits, if there is one.
-/
import Mathlib.Data.List.Forall2
import Signpost.App
import Signpost.Bus

namespace Signpost

open Lib

/-- `INCOMING_MESSAGE_BUFFER_LENGTH`. -/
def incomingMessageBufferLength : UInt32 := 1024

/-- What the layers above `get_message` are given: the cryptographic library,
what their stack holds, and the keys. -/
structure Layers where
  mb : Mbedtls
  digestStack : Digest
  addrToKey : Option (UInt8 → Option Key)

namespace Async

inductive Frame
  /-- `get_message`, waiting for `newpkt.new`. -/
  | getMessage (loc : GetMessage)
  /-- `signpost_api_recv_callback` and the handler it runs. -/
  | recvCallback
  /-- The callback of a timer, or another task. -/
  | task
  /-- `signpost_api_send`, waiting for the bus. -/
  | send

structure State where
  packetBuf : Mem UInt8
  newpkt : NewPacket
  asyncActive : Bool
  /-- `async_callback` is not `NULL`. -/
  asyncCallback : Bool
  /-- `incoming_protocol_buffer`, and the flag and address received with it. -/
  io : RecvOut
  /-- `incoming_message_buffer`. -/
  recvBuf : Mem UInt8
  stack : List Frame

/-- One call of `signpost_api_recv_callback`: the message `get_message` was on,
what it received of it, and the call the layers above make of that. -/
structure Delivery where
  key : UInt8 × UInt16
  result : Result
  call : AppCall

inductive Event
  /-- `signbus_io_slave_write_callback`, with what the stack of a `get_message` it calls holds. -/
  | arrive (b : Bytes) (stack : GetMessage)
  /-- A timer's callback begins. -/
  | timer
  /-- The frame on top, or the main program, calls `signpost_api_send`. -/
  | startSend
  /-- The bus is done, or refused; the send starts a new receive and returns. -/
  | sendDone
  /-- The handler or the task on top returns. -/
  | ret

/-- The key in the header of the packet in memory. -/
def headerKey (m : Mem UInt8) : UInt8 × UInt16 :=
  ((Packet.ofMem m).header.src, htons (Packet.ofMem m).header.sequenceNumber)

namespace State

/-- `signpost_api_start_new_async_recv`. -/
def startNewAsyncRecv (s : State) : State := { s with asyncActive := true, asyncCallback := true }

/-- `signbus_io_slave_write_callback`, up to where it waits or returns. -/
def slaveWrite (s : State) (b : Bytes) (stack : GetMessage) : State :=
  let s := { s with packetBuf := s.packetBuf.copy 0 b, newpkt := ⟨true, UInt8.ofNat b.length⟩ }
  if s.asyncActive then
    { s with asyncActive := false, stack := .getMessage { stack with lengthReceived := 0 } :: s.stack }
  else s

def act (s : State) : Event → Option State
  | .arrive b stack => some (s.slaveWrite b stack)
  | .timer => some { s with stack := .task :: s.stack }
  | .startSend =>
    match s.stack with
    | .getMessage _ :: _ | .send :: _ => none
    | stack => some { s with stack := .send :: stack }
  | .sendDone =>
    match s.stack with
    | .send :: below => some { s with stack := below }.startNewAsyncRecv
    | _ => none
  | .ret =>
    match s.stack with
    -- The callback starts the next receive before it returns.
    | .recvCallback :: below => some { s with stack := below }.startNewAsyncRecv
    | .task :: below => some { s with stack := below }
    | _ => none

/-- The end of `get_message`: the callback is cleared and called, if there is one. -/
def finish (layers : Layers) (s : State) (loc : GetMessage) (below : List Frame) : State × List Delivery :=
  if s.asyncCallback then
    let cb := protocolAsyncCallback layers.mb layers.digestStack layers.addrToKey loc.lengthReceived s.io s.recvBuf
      incomingMessageBufferLength
    ({ s with asyncCallback := false, recvBuf := cb.2, stack := .recvCallback :: below },
      [{ key := (loc.messageSourceAddress, htons loc.messageSequenceNumber)
         result := ⟨loc.lengthReceived, s.io⟩
         call := appLayerCallback cb.1 s.io.src cb.2 }])
  else ({ s with stack := below }, [])

/-- A `get_message` on top takes the packet that waits. -/
def settle (layers : Layers) (s : State) : State × List Delivery :=
  match s.stack with
  | .getMessage loc :: below =>
    if s.newpkt.new then
      let t := getMessageTurn incomingMessageBufferLength (.ofMem s.packetBuf) s.newpkt.len loc s.io
      let s := { s with newpkt := { s.newpkt with new := false }, io := t.out }
      if t.done then s.finish layers t.loc below else ({ s with stack := .getMessage t.loc :: below }, [])
    else (s, [])
  | _ => (s, [])

def step (layers : Layers) (s : State) (e : Event) : Option (State × List Delivery) :=
  (s.act e).map (settle layers)

/-- No packet of a message with one of these keys is lost by this arrival: none
of them waits, and if it is one itself, the first of its message finds the
receive armed and any other finds it not armed. -/
def Ready (keys : List (UInt8 × UInt16)) (s : State) : Event → Prop
  | .arrive b _ => (s.newpkt.new = true → headerKey s.packetBuf ∉ keys) ∧
      ((packetKey b).any (· ∈ keys) → if (Packet.ofMem (s.packetBuf.copy 0 b)).header.fragmentOffset = 0 then
        s.asyncActive = true ∧ s.asyncCallback = true
      else s.asyncActive = false)
  | _ => True

instance (keys : List (UInt8 × UInt16)) (s : State) : ∀ e, Decidable (s.Ready keys e)
  | .arrive _ _ => inferInstanceAs (Decidable ((_ → _) ∧ (_ → ite _ _ _)))
  | .timer => .isTrue trivial
  | .startSend => .isTrue trivial
  | .sendDone => .isTrue trivial
  | .ret => .isTrue trivial

/-- Before anything has arrived, with only the main program running. -/
def Init (s : State) : Prop := s.newpkt.new = false ∧ s.stack = []

end State

def Event.arrival : Event → Option Bytes
  | .arrive b _ => some b
  | _ => none

def arrivals (es : List Event) : List Bytes := es.filterMap Event.arrival

@[simp] theorem arrivals_nil : arrivals [] = [] := rfl

@[simp] theorem arrivals_arrive (b : Bytes) (stack : GetMessage) (es : List Event) :
    arrivals (.arrive b stack :: es) = b :: arrivals es := rfl

theorem arrivals_of_none {e : Event} (he : e.arrival = none) (es : List Event) :
    arrivals (e :: es) = arrivals es := by
  rw [arrivals, List.filterMap_cons_none he, arrivals]

/-! ## Other messages -/

/-- The key of the message a `get_message` is on. -/
def keyOf (loc : GetMessage) : UInt8 × UInt16 := (loc.messageSourceAddress, htons loc.messageSequenceNumber)

/-- None of these frames is on a message with one of these keys. -/
def FramesFree (keys : List (UInt8 × UInt16)) (stack : List Frame) : Prop :=
  ∀ loc, .getMessage loc ∈ stack → loc.lengthReceived ≠ 0 → keyOf loc ∉ keys

/-- No message with one of these keys has begun, and no packet of one waits. -/
structure KeyFree (keys : List (UInt8 × UInt16)) (s : State) : Prop where
  frames : FramesFree keys s.stack
  pending : s.newpkt.new = true → headerKey s.packetBuf ∉ keys

/-- A packet of a message with none of these keys. -/
def Other (keys : List (UInt8 × UInt16)) (b : Bytes) : Prop := ∃ k, packetKey b = some k ∧ k ∉ keys

section
variable {keys : List (UInt8 × UInt16)} {layers : Layers} {s s' : State} {e : Event} {b : Bytes}
  {m : Message}
  {stack below : List Frame} {loc : GetMessage}

theorem headerKey_copy {k : UInt8 × UInt16} (hb : packetKey b = some k) (pb : Mem UInt8) :
    headerKey (pb.copy 0 b) = k := by
  obtain ⟨hsrc, hseq⟩ := header_of_packetKey hb pb
  rw [headerKey, hsrc, hseq, htons_htons]

theorem FramesFree.of_cons {f : Frame} (h : FramesFree keys (f :: stack)) : FramesFree keys stack :=
  fun loc hloc => h loc (List.mem_cons_of_mem f hloc)

/-- A frame that is no `get_message` is on no message. -/
theorem FramesFree.cons {f : Frame} (h : FramesFree keys stack) (hf : ∀ loc, f ≠ .getMessage loc) :
    FramesFree keys (f :: stack) := by
  intro loc hloc
  rcases List.mem_cons.mp hloc with heq | hloc
  · exact absurd heq.symm (hf loc)
  · exact h loc hloc

theorem FramesFree.cons_getMessage (h : FramesFree keys stack)
    (hloc : loc.lengthReceived ≠ 0 → keyOf loc ∉ keys) :
    FramesFree keys (.getMessage loc :: stack) := by
  intro loc' hmem
  rcases List.mem_cons.mp hmem with heq | hmem
  · cases heq
    exact hloc
  · exact h loc' hmem

theorem getMessageTurn_keyFree (len : UInt32) (newLen : UInt8) (out : RecvOut) {m : Mem UInt8} {t : Turn}
    (ht : getMessageTurn len (.ofMem m) newLen loc out = t) (hm : headerKey m ∉ keys)
    (hloc : loc.lengthReceived ≠ 0 → keyOf loc ∉ keys) :
    (t.loc.lengthReceived ≠ 0 → keyOf t.loc ∉ keys) ∧ (t.done = true → keyOf t.loc ∉ keys) := by
  unfold getMessageTurn at ht
  by_cases hdrop : loc.lengthReceived ≠ 0 ∧ ¬ (loc.messageSequenceNumber = (Packet.ofMem m).header.sequenceNumber ∧
      loc.messageSourceAddress = (Packet.ofMem m).header.src)
  · simp only [if_pos hdrop] at ht
    subst ht
    exact ⟨hloc, fun h => by cases h⟩
  · simp only [if_neg hdrop] at ht
    subst ht
    have hkey : ∀ n : UInt32, keyOf
        { lengthReceived := n
          messageSequenceNumber := if decide (loc.lengthReceived = 0) = true then
            (Packet.ofMem m).header.sequenceNumber else loc.messageSequenceNumber
          messageSourceAddress := if decide (loc.lengthReceived = 0) = true then
            (Packet.ofMem m).header.src else loc.messageSourceAddress } ∉ keys := by
      intro n
      by_cases hz : loc.lengthReceived = 0
      · simp only [hz, decide_true, if_true]
        exact hm
      · simp only [hz, decide_false, Bool.false_eq_true, if_false]
        exact hloc hz
    exact ⟨fun _ => hkey _, fun _ => hkey _⟩

theorem finish_keyFree (hbelow : FramesFree keys below) (hnew : s.newpkt.new = false) :
    KeyFree keys (s.finish layers loc below).1 := by
  unfold State.finish
  split
  · refine ⟨hbelow.cons (by simp), fun h => ?_⟩
    rw [hnew] at h
    cases h
  · refine ⟨hbelow, fun h => ?_⟩
    rw [hnew] at h
    cases h

theorem finish_key {d : Delivery} (hd : d ∈ (s.finish layers loc below).2) : d.key = keyOf loc := by
  unfold State.finish at hd
  split at hd
  · rw [List.mem_singleton.mp hd, keyOf]
  · cases hd

variable (layers) in
theorem settle_keyFree (h : KeyFree keys s) :
    KeyFree keys (s.settle layers).1 ∧ ∀ d ∈ (s.settle layers).2, d.key ∉ keys := by
  unfold State.settle
  split
  · next loc below hstack =>
    have hframes := h.frames
    rw [hstack] at hframes
    split
    · next hnew =>
      obtain ⟨hloc, hdone⟩ := getMessageTurn_keyFree incomingMessageBufferLength s.newpkt.len s.io rfl
        (h.pending hnew) (hframes loc List.mem_cons_self)
      simp only
      split
      · next hd =>
        refine ⟨finish_keyFree hframes.of_cons rfl, fun d hmem => ?_⟩
        rw [finish_key hmem]
        exact hdone hd
      · exact ⟨⟨hframes.of_cons.cons_getMessage hloc, fun h => by cases h⟩, by simp⟩
    · exact ⟨h, by simp⟩
  · exact ⟨h, by simp⟩

theorem act_keyFree (h : KeyFree keys s) (he : ∀ b stack, e = .arrive b stack → Other keys b)
    (hact : s.act e = some s') : KeyFree keys s' := by
  have hframes := h.frames
  cases e with
  | arrive b stack =>
    obtain ⟨k, hk, hkeys⟩ := he b stack rfl
    have hpending : headerKey (s.packetBuf.copy 0 b) ∉ keys := by
      rw [headerKey_copy hk]
      exact hkeys
    cases hact
    simp only [State.slaveWrite]
    split
    · exact ⟨hframes.cons_getMessage fun h => absurd rfl h, fun _ => hpending⟩
    · exact ⟨hframes, fun _ => hpending⟩
  | timer =>
    cases hact
    exact ⟨hframes.cons (by simp), h.pending⟩
  | startSend =>
    simp only [State.act] at hact
    split at hact
    · cases hact
    · cases hact
    · cases hact
      exact ⟨hframes.cons (by simp), h.pending⟩
  | sendDone =>
    simp only [State.act] at hact
    split at hact
    · next hstack =>
      cases hact
      rw [hstack] at hframes
      exact ⟨hframes.of_cons, h.pending⟩
    · cases hact
  | ret =>
    simp only [State.act] at hact
    split at hact
    · next hstack =>
      cases hact
      rw [hstack] at hframes
      exact ⟨hframes.of_cons, h.pending⟩
    · next hstack =>
      cases hact
      rw [hstack] at hframes
      exact ⟨hframes.of_cons, h.pending⟩
    · cases hact

/-! ## One message -/

/-- A message one receive takes in full. -/
def Whole (m : Message) : Prop := 1 ≤ m.data.length ∧ m.data.length ≤ incomingMessageBufferLength.toNat

instance (m : Message) : Decidable (Whole m) := inferInstanceAs (Decidable (_ ∧ _))

theorem Whole.fits (h : Whole m) : m.Fits := Nat.le_trans h.2 (by decide)

theorem Whole.count_pos (h : Whole m) : 0 < m.count := Message.lt_count.mpr (by have := h.1; omega)

/-- `m` is being received: the topmost `get_message` has its first `i`
fragments, only tasks and their sends are above it, and the next fragment may
be waiting. -/
structure Inside (keys : List (UInt8 × UInt16)) (m : Message) (i : Nat) (above : List Frame)
    (loc : GetMessage) (below : List Frame) (s : State) : Prop where
  stack : s.stack = above ++ .getMessage loc :: below
  tasks : ∀ f ∈ above, f = .task ∨ f = .send
  assembling : Assembling m incomingMessageBufferLength i loc s.io
  lt : i < m.count
  callback : s.asyncCallback = true
  free : FramesFree keys below
  pending : s.newpkt.new = true → (∃ pb : Mem UInt8, s.packetBuf = pb.copy 0 (m.fragment i)) ∧
    s.newpkt.len = UInt8.ofNat (m.fragment i).length

/-- A delivery of this message, in full. -/
def Delivered (m : Message) (d : Delivery) : Prop := d.key = m.key ∧ Delivers m d.result

variable (layers) in
/-- The fragment that waits is taken: the message is delivered, or one fragment
further. -/
theorem Inside.take {i : Nat} (h : Inside keys m i [] loc below s) (hm : Whole m)
    (hnew : s.newpkt.new = true) :
    (s.settle layers).1.newpkt.new = false ∧
      ((m.count ≤ i + 1 ∧ KeyFree keys (s.settle layers).1 ∧ ∃ d, (s.settle layers).2 = [d] ∧ Delivered m d) ∨
        ((s.settle layers).2 = [] ∧ ∃ loc', Inside keys m (i + 1) [] loc' below (s.settle layers).1)) := by
  obtain ⟨⟨pb, hpb⟩, hlen⟩ := h.pending hnew
  obtain ⟨hdone, hcomplete, hnext, hseq, hsrc⟩ := h.assembling.turn hm.fits h.lt pb rfl
  simp only [State.settle, h.stack, List.nil_append, hnew, if_true, hpb, hlen]
  split
  · next hd =>
    have hend := of_decide_eq_true (hdone.symm.trans hd)
    have hlast : i + 1 < m.count ↔ 247 * (i + 1) < m.data.length := Message.lt_count
    have hsize := hm.2
    simp only [State.finish, h.callback, if_true]
    refine ⟨trivial, .inl ⟨by omega, ⟨h.free.cons (by simp), fun hn => by cases hn⟩, _, rfl, ?_, ?_⟩⟩
    · rw [hseq, hsrc, htons_htons]
      rfl
    · exact (hcomplete hd).delivers hm.2
  · next hd =>
    rw [Bool.not_eq_true] at hd
    have hmore := of_decide_eq_false (hdone.symm.trans hd)
    refine ⟨rfl, .inr ⟨rfl, _, rfl, by simp, hnext hd, by omega, h.callback, h.free, fun hn => by cases hn⟩⟩

/-! ## Messages one after the other -/

/-- The packets of these messages, each message's in one piece, with packets of
others between them. -/
inductive Apart (keys : List (UInt8 × UInt16)) : List Message → List Bytes → Prop
  | nil : Apart keys [] []
  | message {m ms bs} : Whole m → m.key ∈ keys → Apart keys ms bs → Apart keys (m :: ms) (m.fragments ++ bs)
  | other {b ms bs} : Other keys b → Apart keys ms bs → Apart keys ms (b :: bs)

theorem Apart.nil_inv {ms : List Message} (h : Apart keys ms []) : ms = [] := by
  generalize hb : ([] : List Bytes) = bs at h
  cases h with
  | nil => rfl
  | message hm _ _ =>
    rw [← List.drop_zero (l := Message.fragments _), Message.drop_fragments hm.count_pos] at hb
    cases hb
  | other => cases hb

theorem Apart.cons_inv {ms : List Message} {bs : List Bytes} (h : Apart keys ms (b :: bs)) :
    (Other keys b ∧ Apart keys ms bs) ∨ ∃ m ms' rest,
    ms = m :: ms' ∧ Whole m ∧ m.key ∈ keys ∧ b = m.fragment 0 ∧
      bs = m.fragments.drop 1 ++ rest ∧ Apart keys ms' rest := by
  generalize hb : b :: bs = packets at h
  cases h with
  | nil => cases hb
  | @message m ms rest hm hk hrest =>
    rw [← List.drop_zero (l := m.fragments), Message.drop_fragments hm.count_pos, List.cons_append] at hb
    obtain ⟨rfl, rfl⟩ := List.cons.inj hb
    exact .inr ⟨m, ms, rest, rfl, hm, hk, rfl, rfl, hrest⟩
  | other hother hrest =>
    cases hb
    exact .inl ⟨hother, hrest⟩

/-- A run between two messages, or inside the first of those to come. -/
inductive Phase (keys : List (UInt8 × UInt16)) : List Message → List Bytes → State → Prop
  | outside {ms bs s} : KeyFree keys s → Apart keys ms bs → Phase keys ms bs s
  | inside {m ms i above loc below rest bs s} : Whole m → m.key ∈ keys → 0 < i →
      Inside keys m i above loc below s → (s.newpkt.new = true → above ≠ []) →
      bs = m.fragments.drop (if s.newpkt.new then i + 1 else i) ++ rest → Apart keys ms rest →
      Phase keys (m :: ms) bs s

/-- The deliveries of messages with these keys are the messages that are no
longer to come, in order. -/
def Progress (keys : List (UInt8 × UInt16)) (ms ms' : List Message) (ds : List Delivery) : Prop :=
  ∃ done, ms = done ++ ms' ∧ List.Forall₂ Delivered done (ds.filter fun d => d.key ∈ keys)

theorem Progress.none {ms : List Message} {ds : List Delivery} (h : ∀ d ∈ ds, d.key ∉ keys) :
    Progress keys ms ms ds := by
  refine ⟨[], rfl, ?_⟩
  rw [List.filter_eq_nil_iff.mpr (by simpa using h)]
  exact .nil

theorem Progress.one {ms : List Message} {d : Delivery} (hk : m.key ∈ keys) (h : Delivered m d) :
    Progress keys (m :: ms) ms [d] := by
  refine ⟨[m], rfl, ?_⟩
  rw [List.filter_cons_of_pos (by simpa [h.1] using hk)]
  exact .cons h .nil

theorem Progress.append {ms ms' ms'' : List Message} {ds ds' : List Delivery} (h : Progress keys ms ms' ds)
    (h' : Progress keys ms' ms'' ds') : Progress keys ms ms'' (ds ++ ds') := by
  obtain ⟨done, rfl, hd⟩ := h
  obtain ⟨done', rfl, hd'⟩ := h'
  refine ⟨done ++ done', (List.append_assoc ..).symm, ?_⟩
  rw [List.filter_append]
  exact List.rel_append hd hd'

theorem Inside.settle {i : Nat} {above : List Frame} {ms : List Message} {bs rest : List Bytes}
    (h : Inside keys m i above loc below s) (hm : Whole m) (hk : m.key ∈ keys)
    (hpos : 0 < i ∨ s.newpkt.new = true ∧ above = [])
    (hbs : bs = m.fragments.drop (if s.newpkt.new then i + 1 else i) ++ rest) (hrest : Apart keys ms rest) :
    ∃ ms', Phase keys ms' bs (s.settle layers).1 ∧ Progress keys (m :: ms) ms' (s.settle layers).2 := by
  by_cases htop : s.newpkt.new = true ∧ above = []
  · obtain ⟨hnew, rfl⟩ := htop
    rw [if_pos hnew] at hbs
    obtain ⟨hnew', hd | ⟨hnone, loc', hinside⟩⟩ := h.take layers hm hnew
    · obtain ⟨hlast, hfree, d, hds, hdel⟩ := hd
      have hdrop : m.fragments.drop (i + 1) = [] := List.drop_eq_nil_of_le (by simpa using hlast)
      rw [hdrop, List.nil_append] at hbs
      subst hbs
      refine ⟨ms, .outside hfree hrest, ?_⟩
      rw [hds]
      exact .one hk hdel
    · refine ⟨m :: ms, .inside hm hk (Nat.succ_pos i) hinside (fun h => ?_) (by simpa [hnew'] using hbs) hrest, ?_⟩
      · rw [hnew'] at h
        cases h
      rw [hnone]
      exact .none (by simp)
  · have hsame : s.settle layers = (s, []) := by
      simp only [State.settle, h.stack]
      cases above with
      | nil =>
        simp only [List.nil_append]
        rw [if_neg fun hnew => htop ⟨hnew, rfl⟩]
      | cons f above =>
        rcases h.tasks f List.mem_cons_self with rfl | rfl <;> rfl
    rw [hsame]
    exact ⟨m :: ms, .inside hm hk (hpos.resolve_right htop) h (fun hnew habove => htop ⟨hnew, habove⟩) hbs hrest,
      .none (by simp)⟩

theorem Inside.begin (h : KeyFree keys s) (hm : Whole m) {stack : GetMessage}
    (hactive : s.asyncActive = true) (hcallback : s.asyncCallback = true) :
    Inside keys m 0 [] { stack with lengthReceived := 0 } s.stack (s.slaveWrite (m.fragment 0) stack) := by
  simp only [State.slaveWrite, hactive, if_true]
  exact ⟨rfl, by simp, .zero rfl, hm.count_pos, hcallback, h.frames, fun _ => ⟨⟨s.packetBuf, rfl⟩, rfl⟩⟩

theorem Inside.next {i : Nat} {above : List Frame} (h : Inside keys m i above loc below s)
    {stack : GetMessage} (hactive : s.asyncActive = false) :
    Inside keys m i above loc below (s.slaveWrite (m.fragment i) stack) := by
  simp only [State.slaveWrite, hactive, Bool.false_eq_true, if_false]
  exact ⟨h.stack, h.tasks, h.assembling, h.lt, h.callback, h.free, fun _ => ⟨⟨s.packetBuf, rfl⟩, rfl⟩⟩

theorem Inside.act {i : Nat} {above : List Frame} (h : Inside keys m i above loc below s)
    (he : e.arrival = none) (hact : s.act e = some s') : s'.newpkt = s.newpkt ∧ ∃ above',
    Inside keys m i above' loc below s' := by
  have hstack := h.stack
  cases e with
  | arrive b stack => cases he
  | timer =>
    cases hact
    exact ⟨rfl, .task :: above, congrArg _ hstack, List.forall_mem_cons.mpr ⟨.inl rfl, h.tasks⟩,
      h.assembling, h.lt, h.callback, h.free, h.pending⟩
  | startSend =>
    simp only [State.act] at hact
    split at hact
    · cases hact
    · cases hact
    · cases hact
      exact ⟨rfl, .send :: above, congrArg _ hstack, List.forall_mem_cons.mpr ⟨.inr rfl, h.tasks⟩,
        h.assembling, h.lt, h.callback, h.free, h.pending⟩
  | sendDone =>
    cases above with
    | nil => simp [State.act, hstack] at hact
    | cons f above =>
      obtain ⟨hf, htasks⟩ := List.forall_mem_cons.mp h.tasks
      rcases hf with rfl | rfl
      · simp [State.act, hstack] at hact
      · simp only [State.act, hstack, List.cons_append] at hact
        cases hact
        exact ⟨rfl, above, rfl, htasks, h.assembling, h.lt, rfl, h.free, h.pending⟩
  | ret =>
    cases above with
    | nil => simp [State.act, hstack] at hact
    | cons f above =>
      obtain ⟨hf, htasks⟩ := List.forall_mem_cons.mp h.tasks
      rcases hf with rfl | rfl
      · simp only [State.act, hstack, List.cons_append] at hact
        cases hact
        exact ⟨rfl, above, rfl, htasks, h.assembling, h.lt, h.callback, h.free, h.pending⟩
      · simp [State.act, hstack] at hact

theorem fragment_offset (hm : Whole m) {i : Nat} (hi : i < m.count) (pb : Mem UInt8) :
    (Packet.ofMem (pb.copy 0 (m.fragment i))).header.fragmentOffset = 0 ↔ i = 0 := by
  constructor
  · exact Message.fragment_first hm.fits hi
  · rintro rfl
    rw [Message.fragment, (Packet.ofMem_copy ..).1]
    rfl

theorem fragment_any (hk : m.key ∈ keys) (i : Nat) : (packetKey (m.fragment i)).any (· ∈ keys) = true := by
  rw [Message.packetKey_fragment]
  exact decide_eq_true hk

theorem Phase.step {ms : List Message} {es : List Event} {ds : List Delivery}
    (h : Phase keys ms (arrivals (e :: es)) s) (hstep : s.step layers e = some (s', ds))
    (hready : s.Ready keys e) :
    ∃ ms', Phase keys ms' (arrivals es) s' ∧ Progress keys ms ms' ds := by
  obtain ⟨s₁, hact, hsettle⟩ := Option.map_eq_some_iff.mp hstep
  obtain rfl : (s₁.settle layers).1 = s' := congrArg Prod.fst hsettle
  obtain rfl : (s₁.settle layers).2 = ds := congrArg Prod.snd hsettle
  have hquiet : KeyFree keys s₁ → Apart keys ms (arrivals es) →
      ∃ ms', Phase keys ms' (arrivals es) (s₁.settle layers).1 ∧
      Progress keys ms ms' (s₁.settle layers).2 := by
    intro hfree hapart
    obtain ⟨hfree', hds⟩ := settle_keyFree layers hfree
    exact ⟨ms, .outside hfree' hapart, .none hds⟩
  cases h with
  | outside hfree hapart =>
    cases e with
    | arrive b stack =>
      rw [arrivals_arrive] at hapart
      obtain ⟨hother, hrest⟩ | ⟨m, ms', rest, rfl, hm, hk, rfl, hbs, hrest⟩ := hapart.cons_inv
      · exact hquiet (act_keyFree hfree (fun b' stack' heq => by cases heq; exact hother) hact) hrest
      · have harmed := hready.2 (fragment_any hk 0)
        rw [if_pos ((fragment_offset hm hm.count_pos _).mpr rfl)] at harmed
        cases hact
        have hnew : (s.slaveWrite (m.fragment 0) stack).newpkt.new = true := by
          simp only [State.slaveWrite]
          split <;> rfl
        exact (Inside.begin hfree hm harmed.1 harmed.2).settle hm hk (.inr ⟨hnew, rfl⟩)
          (by rw [hnew]; exact hbs) hrest
    | timer | startSend | sendDone | ret =>
      rw [arrivals_of_none rfl] at hapart
      exact hquiet (act_keyFree hfree (fun b stack heq => by cases heq) hact) hapart
  | @inside m ms i above loc below rest _ _ hm hk hpos hinside _ hbs hrest =>
    cases e with
    | arrive b stack =>
      obtain ⟨hwaits, harmed⟩ := hready
      have hnew : s.newpkt.new = false := by
        rw [← Bool.not_eq_true]
        intro hnew
        obtain ⟨⟨pb, hpb⟩, -⟩ := hinside.pending hnew
        refine hwaits hnew ?_
        rw [hpb, headerKey_copy (Message.packetKey_fragment i)]
        exact hk
      rw [arrivals_arrive, hnew, if_neg Bool.false_ne_true, Message.drop_fragments hinside.lt,
        List.cons_append] at hbs
      obtain ⟨rfl, htail⟩ := List.cons.inj hbs
      have hactive := harmed (fragment_any hk i)
      rw [if_neg fun h0 => absurd ((fragment_offset hm hinside.lt _).mp h0) (by omega)] at hactive
      cases hact
      have hnew' : (s.slaveWrite (m.fragment i) stack).newpkt.new = true := by
        simp only [State.slaveWrite]
        split <;> rfl
      exact (hinside.next hactive).settle hm hk (.inl hpos) (by rw [hnew']; exact htail) hrest
    | timer | startSend | sendDone | ret =>
      rw [arrivals_of_none rfl] at hbs
      obtain ⟨hnewpkt, above', hinside'⟩ := hinside.act rfl hact
      exact hinside'.settle hm hk (.inl hpos) (by rw [hnewpkt]; exact hbs) hrest

theorem Phase.run {ms : List Message} {es : List Event} {ds : List Delivery}
    (hrun : Run (fun s e s' ds => s.step layers e = some (s', ds) ∧ s.Ready keys e) s es s' ds)
    (h : Phase keys ms (arrivals es) s) : ∃ ms', Phase keys ms' [] s' ∧ Progress keys ms ms' ds := by
  induction hrun generalizing ms with
  | nil => exact ⟨ms, h, .none (by simp)⟩
  | cons hstep _ ih =>
    obtain ⟨ms₁, hphase, hfirst⟩ := h.step hstep.1 hstep.2
    obtain ⟨ms', hphase', hrest⟩ := ih hphase
    exact ⟨ms', hphase', hfirst.append hrest⟩

/-- A packet waits, for the task on top to return. -/
def State.Waits (s : State) : Prop := s.newpkt.new = true ∧ ∃ f ∈ s.stack.head?, f = .task ∨ f = .send

theorem Phase.nil_inv {ms : List Message} (h : Phase keys ms [] s) : ms = [] ∨ ∃ m, ms = [m] ∧ s.Waits := by
  cases h with
  | outside _ hapart => exact .inl hapart.nil_inv
  | @inside m ms i above loc below rest _ _ hm hk hpos hinside habove hbs hrest =>
    obtain ⟨hdrop, rfl⟩ := List.append_eq_nil_iff.mp hbs.symm
    obtain rfl := hrest.nil_inv
    refine .inr ⟨m, rfl, ?_⟩
    by_cases hnew : s.newpkt.new = true
    · refine ⟨hnew, ?_⟩
      cases above with
      | nil => exact absurd rfl (habove hnew)
      | cons f above => exact ⟨f, by rw [hinside.stack]; rfl, hinside.tasks f List.mem_cons_self⟩
    · rw [if_neg hnew, Message.drop_fragments hinside.lt] at hdrop
      cases hdrop

/-- **No message is lost or duplicated where no packet is.** From the start, in
a run whose packets arrive where they are not lost, with each message's packets
in one piece: the callback has each message once, in order, but for a last one
whose last packet still waits for a task to return. -/
theorem recvCallback_delivered {ms : List Message} {es : List Event} {ds : List Delivery} (hinit : s.Init)
    (hms : Apart (ms.map Message.key) ms (arrivals es))
    (hrun : Run (fun s e s' ds => s.step layers e = some (s', ds) ∧ s.Ready (ms.map Message.key) e) s es s' ds) :
    ∃ done, List.Forall₂ Delivered done (ds.filter fun d => d.key ∈ ms.map Message.key) ∧
      (ms = done ∨ ∃ m, ms = done ++ [m] ∧ s'.Waits) := by
  obtain ⟨hnew, hstack⟩ := hinit
  have hfree : KeyFree (ms.map Message.key) s := by
    refine ⟨?_, fun h => ?_⟩
    · rw [hstack]
      exact fun loc hloc => by cases hloc
    · rw [hnew] at h
      cases h
  obtain ⟨ms', hphase, done, hsplit, hdone⟩ := Phase.run hrun (.outside hfree hms)
  refine ⟨done, hdone, ?_⟩
  obtain rfl | ⟨m, rfl, hwaits⟩ := hphase.nil_inv
  · exact .inl (by rw [hsplit, List.append_nil])
  · exact .inr ⟨m, hsplit, hwaits⟩

end

/-! ## Two modules' messages -/

def longMessage : Message := ⟨1, 0, false, List.replicate 248 7⟩

def shortMessage (src : UInt8) : Message := ⟨src, 0, false, [1, 5, 2]⟩

def twoMessages : List Message := [longMessage, shortMessage 2]

def sampleLayers : Layers := ⟨sampleLibrary, sampleHash, none⟩

def armedState : State := ⟨fun _ => 0, ⟨false, 0⟩, true, true, ⟨fun _ => 0, false, 0⟩, fun _ => 0, []⟩

/-- A timer fires between the packets of the first message, and its handler
sends before it returns. -/
def sampleEvents : List Event :=
  [.arrive (longMessage.fragment 0) ⟨0, 0, 0⟩, .timer, .arrive (longMessage.fragment 1) ⟨0, 0, 0⟩,
    .ret, .startSend, .sendDone, .ret, .arrive ((shortMessage 2).fragment 0) ⟨0, 0, 0⟩, .ret]

theorem recvCallback_delivered_sample : ∃ s' ds done,
    Run (fun s e s' ds => s.step sampleLayers e = some (s', ds) ∧ s.Ready (twoMessages.map Message.key) e)
        armedState sampleEvents s' ds ∧
      List.Forall₂ Delivered done (ds.filter fun d => d.key ∈ twoMessages.map Message.key) ∧
      (twoMessages = done ∨ ∃ m, twoMessages = done ++ [m] ∧ s'.Waits) := by
  have hlong : Whole longMessage := by decide +kernel
  have hshort : Whole (shortMessage 2) := by decide
  have harrivals : arrivals sampleEvents = longMessage.fragments ++ ((shortMessage 2).fragments ++ []) := by
    decide +kernel
  have hrun : (Run.exec (fun s e => if s.Ready (twoMessages.map Message.key) e then s.step sampleLayers e else none)
      armedState sampleEvents).isSome = true := by decide +kernel
  have hapart : Apart (twoMessages.map Message.key) twoMessages
      (longMessage.fragments ++ ((shortMessage 2).fragments ++ [])) :=
    .message hlong (by decide) (.message hshort (by decide) .nil)
  obtain ⟨⟨s', ds⟩, hexec⟩ := Option.isSome_iff_exists.mp hrun
  have hsteps := Run.of_exec_guard hexec
  obtain ⟨done, hdone⟩ := recvCallback_delivered ⟨rfl, rfl⟩
    (harrivals ▸ hapart) hsteps
  exact ⟨s', ds, done, hsteps, hdone⟩

/-- The second message arrives while the handler of the first one sends, and
the third after the handler has returned. -/
def lostEvents : List Event :=
  [.arrive ((shortMessage 1).fragment 0) ⟨0, 0, 0⟩, .startSend,
    .arrive ((shortMessage 2).fragment 0) ⟨0, 0, 0⟩,
    .sendDone, .ret, .arrive ((shortMessage 3).fragment 0) ⟨0, 0, 0⟩, .ret]

/-- Three messages of one packet each arrive, and the callback has the first
and the third. The second is gone. -/
theorem shortMessage_lost : ∃ s' ds,
    Run (fun s e s' ds => s.step sampleLayers e = some (s', ds)) armedState lostEvents s' ds ∧
      arrivals lostEvents = [1, 2, 3].flatMap (fun src => (shortMessage src).fragments) ∧
      ds.map Delivery.key = [1, 3].map (fun src => (shortMessage src).key) ∧ s'.newpkt.new = false := by
  have hrun : (Run.exec (State.step sampleLayers) armedState lostEvents).any (fun p =>
      p.2.map Delivery.key = [1, 3].map (fun src => (shortMessage src).key) ∧ p.1.newpkt.new = false) = true := by
    decide +kernel
  obtain ⟨⟨s', ds⟩, hexec, hds⟩ := (Option.any_eq_true _ _).mp hrun
  exact ⟨s', ds, Run.of_exec hexec, by decide +kernel, of_decide_eq_true hds⟩

end Async

end Signpost
