/-
A receiver on the bus: packets arrive, and calls of `get_message` take them.

`get_message` leaves its loop only to wait for `newpkt.new`, so a packet that
arrives while it waits is taken at once; one that arrives between two calls
stays in `packet_buf` for the next, unless another overwrites it first.

The result is over every run, with the packets of any senders interleaved: each
call ends with a message that was sent, or with parts of two, and which of the
two it is depends on whether the call begins on a first fragment.
-/
import Mathlib.Data.List.Nodup
import Signpost.Lib.Run
import Signpost.Reassembly

namespace Signpost

open Lib

/-- `new_packet`. -/
structure NewPacket where
  new : Bool
  len : UInt8

/-- A call of `get_message` waiting for a packet. -/
structure Call where
  len : UInt32
  loc : GetMessage
  out : RecvOut

/-- What a call returned into its buffer. -/
structure Result where
  lengthReceived : UInt32
  out : RecvOut

structure Receiver where
  packetBuf : Mem UInt8
  newpkt : NewPacket
  running : Option Call

inductive Receiver.Event
  /-- `signbus_io_slave_write_callback` with these received bytes. -/
  | arrive (b : Bytes)
  /-- A call of `get_message`, with what its stack and its caller's buffer hold. -/
  | call (len : UInt32) (stack : GetMessage) (out : RecvOut)

namespace Receiver

/-- Nothing waits, neither a call nor a packet. -/
def Idle (s : Receiver) : Prop := s.running = none ∧ s.newpkt.new = false

def arrive (s : Receiver) (b : Bytes) : Receiver :=
  { s with packetBuf := s.packetBuf.copy 0 b, newpkt := ⟨true, UInt8.ofNat b.length⟩ }

/-- The running call takes the packet that waits, if there is one. -/
def wake (s : Receiver) : Receiver × List Result :=
  match s.running with
  | none => (s, [])
  | some c =>
    if s.newpkt.new then
      let s := { s with newpkt := { s.newpkt with new := false } }
      let t := getMessageTurn c.len (.ofMem s.packetBuf) s.newpkt.len c.loc c.out
      if t.done then ({ s with running := none }, [⟨t.loc.lengthReceived, t.out⟩])
      else ({ s with running := some { c with loc := t.loc, out := t.out } }, [])
    else (s, [])

def step (s : Receiver) : Event → Option (Receiver × List Result)
  | .arrive b => some (s.arrive b).wake
  | .call len stack out =>
    match s.running with
    | none => some { s with running := some ⟨len, { stack with lengthReceived := 0 }, out⟩ }.wake
    | some _ => none

/-- Where a call takes its first packet, that packet's fragment offset is 0. -/
def StartsWhole (s : Receiver) : Event → Prop
  | .arrive b => ∀ c ∈ s.running, c.loc.lengthReceived = 0 →
      (Packet.ofMem (s.packetBuf.copy 0 b)).header.fragmentOffset = 0
  | .call .. => s.newpkt.new = true → (Packet.ofMem s.packetBuf).header.fragmentOffset = 0

instance (s : Receiver) : ∀ e, Decidable (s.StartsWhole e)
  | .arrive b =>
    match h : s.running with
    | none => .isTrue fun c hc => by rw [h] at hc; cases hc
    | some c =>
      decidable_of_iff (c.loc.lengthReceived = 0 →
        (Packet.ofMem (s.packetBuf.copy 0 b)).header.fragmentOffset = 0) (by simp [StartsWhole, h])
  | .call .. => inferInstanceAs (Decidable (_ → _))

def Event.arrival : Event → Option Bytes
  | .arrive b => some b
  | .call .. => none

/-- The packets that arrive in a run. -/
def arrivals (es : List Event) : List Bytes := es.filterMap Event.arrival

@[simp] theorem arrivals_nil : arrivals [] = [] := rfl

@[simp] theorem arrivals_arrive (b : Bytes) (es : List Event) :
    arrivals (.arrive b :: es) = b :: arrivals es := rfl

@[simp] theorem arrivals_call (len : UInt32) (stack : GetMessage) (out : RecvOut) (es : List Event) :
    arrivals (.call len stack out :: es) = arrivals es := rfl

end Receiver

/-! ## Messages on the bus -/

/-- The result is this message, from its first byte to its last. -/
structure Delivers (m : Message) (r : Result) : Prop where
  received : r.lengthReceived.toNat = m.data.length
  data : r.out.data.read 0 m.data.length = m.data
  encrypted : r.out.encrypted = m.encrypted
  src : r.out.src = m.src

/-- A call of `signbus_io_send` whose writes the port all takes. -/
structure CompleteSend where
  write : MasterWrite
  device : Device
  dest : UInt8
  encrypted : Bool
  data : Mem UInt8
  len : UInt32
  accepted : ∀ k dest bytes, 0 ≤ write k dest bytes

namespace CompleteSend

variable (x : CompleteSend)

def packets : List Bytes := (signbusIoSend x.write x.device x.dest x.encrypted x.data x.len).packets

def message : Message := .ofSend x.device x.encrypted x.data x.len

theorem packets_eq {x : CompleteSend} (h : x.message.Fits) : x.packets = x.message.fragments := by
  have hp := (signbusIoSend_packets x.write x.dest h (Nat.le_refl _)
    (fun j _ => x.accepted j _ _) (fun h => absurd h (Nat.lt_irrefl _))).1
  rw [List.take_of_length_le (by simp)] at hp
  exact hp

theorem length_message (x : CompleteSend) : x.message.data.length = x.len.toNat := Mem.length_read ..

end CompleteSend

/-- The packets of these sends in some order, each send's own in theirs. -/
structure Interleaving (sends : List CompleteSend) (bs : List Bytes) : Prop where
  mem : ∀ b ∈ bs, ∃ x ∈ sends, packetKey b = some x.message.key
  own : ∀ x ∈ sends, bs.filter (fun b => packetKey b = some x.message.key) = x.packets

/-- The arrivals still to come of `m` are its fragments from `i` on. -/
def Rest (m : Message) (i : Nat) (bs : List Bytes) : Prop :=
  bs.filter (fun b => packetKey b = some m.key) = m.fragments.drop i

section
variable {m m' : Message} {i : Nat} {b : Bytes} {bs : List Bytes}

theorem Complete.delivers {len lengthReceived : UInt32} {out : RecvOut}
    (h : Complete m len lengthReceived out) (hlen : m.data.length ≤ len.toNat) :
    Delivers m ⟨lengthReceived, out⟩ := by
  obtain ⟨hn, hdata, he, hs⟩ := h
  rw [Nat.min_eq_left hlen] at hn hdata
  exact ⟨hn, hdata.trans List.take_length, he, hs⟩

/-- The next arrival of `m` is its next fragment. -/
theorem Rest.own (h : Rest m i (b :: bs)) (hb : packetKey b = some m.key) :
    i < m.count ∧ b = m.fragment i ∧ Rest m (i + 1) bs := by
  rw [Rest, List.filter_cons_of_pos (by simpa using hb)] at h
  have hi : i < m.count := by
    rcases Nat.lt_or_ge i m.count with hi | hi
    · exact hi
    · rw [List.drop_eq_nil_of_le (by simpa using hi)] at h
      cases h
  rw [Message.drop_fragments hi] at h
  obtain ⟨hb, hrest⟩ := List.cons.inj h
  exact ⟨hi, hb, hrest⟩

theorem Rest.other (h : Rest m i (b :: bs)) (hb : packetKey b ≠ some m.key) : Rest m i bs := by
  rwa [Rest, List.filter_cons_of_neg (by simpa using hb)] at h

theorem Rest.unique {j : Nat} (h : Rest m i bs) (h' : Rest m j bs) (hi : i < m.count) (hj : j < m.count) :
    i = j := by
  have hlen := congrArg List.length (h.symm.trans h')
  simp only [List.length_drop, Message.length_fragments] at hlen
  omega

theorem Message.fragment_first (hfit : m.Fits) (hi : i < m.count) {pb : Mem UInt8}
    (h : (Packet.ofMem (pb.copy 0 (m.fragment i))).header.fragmentOffset = 0) : i = 0 := by
  rw [Message.fragment, (Packet.ofMem_copy ..).1] at h
  have hoff : htons (htons (UInt16.ofNat (247 * i))) = htons 0 := congrArg htons h
  rw [htons_htons, ← UInt16.toNat_inj, UInt16.toNat_ofNat_of_lt' (hfit.offset_lt hi)] at hoff
  have : (htons 0).toNat = 0 := rfl
  omega

end

/-! ## Every call starts on a first fragment -/

/-- A call that waits with the rest of its message still to come, or with
nothing yet. -/
def CallOk (ms : List Message) (bs : List Bytes) (c : Call) : Prop :=
  c.loc.lengthReceived = 0 ∨
    ∃ m ∈ ms, ∃ i, 0 < i ∧ i < m.count ∧ Assembling m c.len i c.loc c.out ∧ Rest m i bs

/-- The receiver while packets of `ms` arrive, `bs` of them still to come. -/
structure Receiving (ms : List Message) (bs : List Bytes) (s : Receiver) : Prop where
  mem : ∀ b ∈ bs, ∃ m ∈ ms, packetKey b = some m.key
  rest : ∀ m ∈ ms, ∃ i, Rest m i bs
  running : ∀ c ∈ s.running, s.newpkt.new = false ∧ CallOk ms bs c ∧ ∀ m ∈ ms, m.data.length ≤ c.len.toNat
  pending : s.newpkt.new = true → ∃ m ∈ ms, ∃ i < m.count, Rest m (i + 1) bs ∧
    (∃ pb : Mem UInt8, s.packetBuf = pb.copy 0 (m.fragment i)) ∧
    s.newpkt.len = UInt8.ofNat (m.fragment i).length

section
variable {ms : List Message} {bs : List Bytes} {b : Bytes} {c : Call} {s : Receiver}

/-- A waiting call takes fragment `i`: it returns the message, or waits for
the rest. -/
theorem Assembling.wake {m : Message} {i : Nat} (h : Assembling m c.len i c.loc c.out) (hm : m ∈ ms)
    (hfit : m.Fits) (hi : i < m.count) (hrest : Rest m (i + 1) bs) (hbig : m.data.length ≤ c.len.toNat)
    (hrun : s.running = some c) (hnew : s.newpkt.new = true)
    (hbuf : ∃ pb : Mem UInt8, s.packetBuf = pb.copy 0 (m.fragment i))
    (hlen : s.newpkt.len = UInt8.ofNat (m.fragment i).length) :
    s.wake.1.newpkt.new = false ∧
      (∀ c' ∈ s.wake.1.running, CallOk ms bs c' ∧ c'.len = c.len) ∧
      ∀ r ∈ s.wake.2, Delivers m r := by
  obtain ⟨pb, hpb⟩ := hbuf
  obtain ⟨hdone, hcomplete, hnext, -⟩ := h.turn hfit hi pb rfl
  simp only [Receiver.wake, hrun, hnew, if_true, hpb, hlen]
  split
  · next hd => exact ⟨rfl, by simp, by simpa using (hcomplete hd).delivers hbig⟩
  · next hd =>
    rw [Bool.not_eq_true] at hd
    have hmore := of_decide_eq_false (hdone.symm.trans hd)
    refine ⟨rfl, ?_, by simp⟩
    intro c' hc'
    cases hc'
    exact ⟨.inr ⟨m, hm, i + 1, Nat.succ_pos i, by omega, hnext hd, hrest⟩, rfl⟩

theorem Receiving.of_wake {len : UInt32} (hmem : ∀ b ∈ bs, ∃ m ∈ ms, packetKey b = some m.key)
    (hrest : ∀ m ∈ ms, ∃ i, Rest m i bs) (hbig : ∀ m ∈ ms, m.data.length ≤ len.toNat)
    (hnew : s.newpkt.new = false) (hrun : ∀ c ∈ s.running, CallOk ms bs c ∧ c.len = len) :
    Receiving ms bs s where
  mem := hmem
  rest := hrest
  running := fun c hc => ⟨hnew, (hrun c hc).1, (hrun c hc).2 ▸ hbig⟩
  pending := fun h => by rw [hnew] at h; cases h

theorem Assembling.wake_foreign {m : Message} {i : Nat} (h : Assembling m c.len i c.loc c.out)
    (hpos : 0 < i) (hb : Foreign m.key b) (hrun : s.running = some c) :
    (s.arrive b).wake =
      ({ s.arrive b with newpkt := ⟨false, UInt8.ofNat b.length⟩ }, []) := by
  obtain ⟨hbegun, hseq, hsrc⟩ := h.key hpos
  simp only [Receiver.wake, Receiver.arrive, hrun, if_true, getMessageTurn_foreign hbegun hseq hsrc hb,
    Bool.false_eq_true, if_false]

end

theorem Receiving.step {ms : List Message} (hfit : ∀ m ∈ ms, m.Fits)
    (hkeys : ∀ m ∈ ms, ∀ m' ∈ ms, m.key = m'.key → m = m') {s s' : Receiver} {e : Receiver.Event}
    {es : List Receiver.Event} {rs : List Result} (h : Receiving ms (Receiver.arrivals (e :: es)) s)
    (hbig : ∀ len stack out, e = .call len stack out → ∀ m ∈ ms, m.data.length ≤ len.toNat)
    (hwhole : s.StartsWhole e) (hstep : s.step e = some (s', rs)) :
    Receiving ms (Receiver.arrivals es) s' ∧ ∀ r ∈ rs, ∃ m ∈ ms, Delivers m r := by
  cases e with
  | arrive b =>
    obtain ⟨hmem, hrest, hrunning, hpending⟩ := h
    simp only [Receiver.arrivals_arrive] at hmem hrest
    obtain ⟨⟨m, hm, hb⟩, hmem'⟩ := List.forall_mem_cons.mp hmem
    obtain ⟨i, hi⟩ := hrest m hm
    obtain ⟨hlt, rfl, hi'⟩ := hi.own hb
    have hrest' : ∀ m' ∈ ms, ∃ j, Rest m' j (Receiver.arrivals es) := by
      intro m' hm'
      by_cases hk : m'.key = m.key
      · obtain rfl := hkeys m' hm' m hm hk
        exact ⟨i + 1, hi'⟩
      · obtain ⟨j, hj⟩ := hrest m' hm'
        exact ⟨j, hj.other fun h => hk (Option.some.inj (h.symm.trans hb))⟩
    obtain rfl : (s.arrive (m.fragment i)).wake.1 = s' := congrArg Prod.fst (Option.some.inj hstep)
    obtain rfl : (s.arrive (m.fragment i)).wake.2 = rs := congrArg Prod.snd (Option.some.inj hstep)
    cases hrun : s.running with
    | none =>
      simp only [Receiver.wake, Receiver.arrive, hrun]
      refine ⟨⟨hmem', hrest', by simp, fun _ => ?_⟩, by simp⟩
      exact ⟨m, hm, i, hlt, hi', ⟨s.packetBuf, rfl⟩, rfl⟩
    | some c =>
      obtain ⟨hnew, hok, hc⟩ := hrunning c hrun
      -- The call takes fragment `k` of `m`: its first, or the next of what it has.
      have htake : ∀ {k}, Assembling m c.len k c.loc c.out → k = i →
          Receiving ms (Receiver.arrivals es) (s.arrive (m.fragment i)).wake.1 ∧
            ∀ r ∈ (s.arrive (m.fragment i)).wake.2, ∃ m ∈ ms, Delivers m r := by
        rintro k ha rfl
        obtain ⟨hnew, hrun, hres⟩ := ha.wake (s := s.arrive (m.fragment k)) hm (hfit m hm) hlt hi' (hc m hm)
          hrun rfl ⟨s.packetBuf, rfl⟩ rfl
        exact ⟨.of_wake hmem' hrest' hc hnew hrun, fun r hr => ⟨m, hm, hres r hr⟩⟩
      rcases hok with hz | ⟨m', hm', j, hpos, hj, ha, hr⟩
      · exact htake (.zero hz) (Message.fragment_first (hfit m hm) hlt (hwhole c hrun hz)).symm
      · by_cases hk : m'.key = m.key
        · obtain rfl := hkeys m' hm' m hm hk
          exact htake ha (hr.unique hi hj hlt)
        · rw [ha.wake_foreign hpos ⟨m.key, hb, fun h => hk h.symm⟩ hrun]
          refine ⟨.of_wake hmem' hrest' hc rfl ?_, by simp⟩
          intro c' hc'
          obtain rfl : c = c' := Option.some.inj (hrun.symm.trans hc')
          refine ⟨.inr ⟨m', hm', j, hpos, hj, ha, hr.other fun h => hk ?_⟩, rfl⟩
          exact Option.some.inj (h.symm.trans hb)
  | call len stack out =>
    obtain ⟨hmem, hrest, -, hpending⟩ := h
    have hbuf := hbig len stack out rfl
    simp only [Receiver.step] at hstep
    split at hstep
    · next hrun =>
      obtain rfl := congrArg Prod.fst (Option.some.inj hstep)
      obtain rfl := congrArg Prod.snd (Option.some.inj hstep)
      cases hnew : s.newpkt.new with
      | false =>
        simp only [Receiver.wake, hnew, Bool.false_eq_true, if_false]
        refine ⟨.of_wake hmem hrest hbuf hnew ?_, by simp⟩
        intro c hc
        cases hc
        exact ⟨.inl rfl, rfl⟩
      | true =>
        obtain ⟨m, hm, i, hlt, hi, ⟨pb, hpb⟩, hlen⟩ := hpending hnew
        have hoff := hwhole hnew
        rw [hpb] at hoff
        obtain rfl := Message.fragment_first (hfit m hm) hlt hoff
        have hzero : Assembling m len 0 { stack with lengthReceived := 0 } out := .zero rfl
        obtain ⟨hnew', hrun', hres⟩ := hzero.wake
          (s := { s with running := some ⟨len, { stack with lengthReceived := 0 }, out⟩ })
          (c := ⟨len, { stack with lengthReceived := 0 }, out⟩) hm (hfit m hm) hlt hi (hbuf m hm) rfl hnew
          ⟨pb, hpb⟩ hlen
        exact ⟨.of_wake hmem hrest hbuf hnew' hrun', fun r hr => ⟨m, hm, hres r hr⟩⟩
    · cases hstep

/-- **When no message is fabricated.** The packets of complete sends with
distinct keys arrive in any interleaving, with calls of `get_message` anywhere
between them. If every call starts on a packet with offset 0, every result is
one of the messages, in full. -/
theorem results_delivered {sends : List CompleteSend} {s s' : Receiver} {es : List Receiver.Event}
    {rs : List Result} (hkeys : (sends.map fun x => x.message.key).Nodup) (hidle : s.Idle)
    (hmix : Interleaving sends (Receiver.arrivals es))
    (hbig : ∀ len stack out, .call len stack out ∈ es → ∀ x ∈ sends, x.len ≤ len)
    (hfit : ∀ x ∈ sends, x.message.Fits)
    (hrun : Run (fun s e s' rs => s.step e = some (s', rs) ∧ s.StartsWhole e) s es s' rs) :
    ∀ r ∈ rs, ∃ x ∈ sends, Delivers x.message r := by
  let ms := sends.map CompleteSend.message
  have hfits : ∀ m ∈ ms, m.Fits := List.forall_mem_map.mpr hfit
  have hinj : ∀ m ∈ ms, ∀ m' ∈ ms, m.key = m'.key → m = m' := by
    simp only [ms, List.mem_map]
    rintro _ ⟨x, hx, rfl⟩ _ ⟨y, hy, rfl⟩ hxy
    rw [List.inj_on_of_nodup_map hkeys hx hy hxy]
  have hstart : Receiving ms (Receiver.arrivals es) s := by
    refine ⟨fun b hb => ?_, ?_, fun c hc => ?_, fun hnew => ?_⟩
    · obtain ⟨x, hx, hkey⟩ := hmix.mem b hb
      exact ⟨_, List.mem_map_of_mem hx, hkey⟩
    · refine List.forall_mem_map.mpr fun x hx => ⟨0, ?_⟩
      rw [Rest, hmix.own x hx, CompleteSend.packets_eq (hfit x hx), List.drop_zero]
    · rw [hidle.1] at hc
      cases hc
    · rw [hidle.2] at hnew
      cases hnew
  have hbig' : ∀ e ∈ es, ∀ len stack out, e = .call len stack out → ∀ m ∈ ms,
    m.data.length ≤ len.toNat := by
    rintro e he len stack out rfl
    refine List.forall_mem_map.mpr fun x hx => ?_
    rw [CompleteSend.length_message]
    exact UInt32.le_iff_toNat_le.mp (hbig len stack out he x hx)
  have hruns := hrun.outputs
    (fun s es => Receiving ms (Receiver.arrivals es) s ∧
      ∀ e ∈ es, ∀ len stack out, e = .call len stack out → ∀ m ∈ ms, m.data.length ≤ len.toNat)
    (fun r => ∃ m ∈ ms, Delivers m r)
    (fun ⟨hinv, hb⟩ ⟨hstep, hwhole⟩ => by
      obtain ⟨hb, hbs⟩ := List.forall_mem_cons.mp hb
      obtain ⟨hinv', hgood⟩ := hinv.step hfits hinj hb hwhole hstep
      exact ⟨⟨hinv', hbs⟩, hgood⟩)
    ⟨hstart, hbig'⟩
  intro r hr
  obtain ⟨m, hm, hd⟩ := hruns.2 r hr
  obtain ⟨x, hx, rfl⟩ := List.mem_map.mp hm
  exact ⟨x, hx, hd⟩

/-- A receiver before anything has arrived, and the buffers of its calls. -/
def Receiver.init : Receiver := ⟨fun _ => 0, ⟨false, 0⟩, none⟩

def Receiver.Event.recv (len : UInt32) : Receiver.Event := .call len ⟨0, 0, 0⟩ ⟨fun _ => 0, false, 0⟩

/-- A send of `len` bytes from `src`. -/
def sendOf (src : UInt8) (len : UInt32) : CompleteSend :=
  ⟨fun _ _ _ => 0, ⟨src, 0⟩, 9, false, fun _ => src, len, fun _ _ _ => by decide⟩

def twoPackets (src : UInt8) : CompleteSend := sendOf src 248

theorem twoPackets_packets (src : UInt8) : (twoPackets src).packets =
    [(twoPackets src).message.fragment 0, (twoPackets src).message.fragment 1] := by
  have hlength : (twoPackets src).message.data.length = 248 := (twoPackets src).length_message
  rw [CompleteSend.packets_eq (by rw [Message.Fits, hlength]; decide), Message.fragments,
    Message.count, hlength]
  rfl

theorem twoPackets_fits : ∀ x ∈ [twoPackets 1, twoPackets 2], x.message.Fits := by
  simp [Message.Fits, CompleteSend.length_message, twoPackets, sendOf]

theorem twoPackets_recv {es : List Receiver.Event} (h : ∀ e ∈ es, e = .recv 300 ∨ ∃ b, e = .arrive b) :
    ∀ len stack out, .call len stack out ∈ es → ∀ x ∈ [twoPackets 1, twoPackets 2], x.len ≤ len := by
  intro len stack out hmem
  rcases h _ hmem with heq | ⟨b, heq⟩
  · cases heq
    decide
  · cases heq

/-- Two sends whose packets alternate. -/
def alternating : List Bytes :=
  [(twoPackets 1).message.fragment 0, (twoPackets 2).message.fragment 0,
   (twoPackets 1).message.fragment 1, (twoPackets 2).message.fragment 1]

theorem alternating_interleaving : Interleaving [twoPackets 1, twoPackets 2] alternating where
  mem := by
    simp only [alternating, List.forall_mem_cons, Message.packetKey_fragment]
    exact ⟨⟨_, by simp, rfl⟩, ⟨_, by simp, rfl⟩, ⟨_, by simp, rfl⟩, ⟨_, by simp, rfl⟩, by simp⟩
  own := by
    simp only [List.forall_mem_cons, twoPackets_packets, alternating, List.filter_cons,
      Message.packetKey_fragment]
    exact ⟨rfl, rfl, by simp⟩

/-- A call takes the first of them, and no call starts on what is left of the
second. -/
theorem results_delivered_alternating : ∃ s' rs,
    Run.exec (fun s e => if s.StartsWhole e then s.step e else none) Receiver.init
      (.recv 300 :: alternating.map .arrive) = some (s', rs) ∧ rs.length = 1 ∧
    ∀ r ∈ rs, ∃ x ∈ [twoPackets 1, twoPackets 2], Delivers x.message r := by
  have hlen : (Run.exec (fun s e => if Receiver.StartsWhole s e then s.step e else none) Receiver.init
      (.recv 300 :: alternating.map .arrive)).map (fun p => p.2.length) = some 1 := by decide +kernel
  obtain ⟨⟨s', rs⟩, he, hl⟩ := Option.map_eq_some_iff.mp hlen
  have hmix : Interleaving [twoPackets 1, twoPackets 2]
    (Receiver.arrivals (.recv 300 :: alternating.map .arrive)) :=
    alternating_interleaving
  exact ⟨s', rs, he, hl, results_delivered (by decide) ⟨rfl, rfl⟩ hmix
    (twoPackets_recv (by simp [alternating])) twoPackets_fits (Run.of_exec_guard he)⟩

/-- When a second call is there for the last packet, it returns that packet's
one byte as a message. -/
theorem results_fabricated : ¬ ∀ (sends : List CompleteSend) (s s' : Receiver) (es : List Receiver.Event)
    (rs : List Result), (sends.map fun x => x.message.key).Nodup → s.Idle →
    Interleaving sends (Receiver.arrivals es) →
    (∀ len stack out, .call len stack out ∈ es → ∀ x ∈ sends, x.len ≤ len) →
    (∀ x ∈ sends, x.message.Fits) → Run (fun s e s' rs => s.step e = some (s', rs)) s es s' rs →
    ∀ r ∈ rs, ∃ x ∈ sends, Delivers x.message r := by
  intro h
  let es : List Receiver.Event :=
    [.recv 300] ++ (alternating.take 3).map .arrive ++ [.recv 300] ++ (alternating.drop 3).map .arrive
  have hlen : (Run.exec Receiver.step Receiver.init es).map (fun p => p.2.map (·.lengthReceived)) =
      some [248, 1] := by decide +kernel
  obtain ⟨⟨s', rs⟩, he, hl⟩ := Option.map_eq_some_iff.mp hlen
  have hall := h [twoPackets 1, twoPackets 2] Receiver.init s' es rs (by decide) ⟨rfl, rfl⟩
    alternating_interleaving (twoPackets_recv (by simp [es, alternating])) twoPackets_fits (Run.of_exec he)
  have hone : 1 ∈ rs.map (·.lengthReceived) := by rw [hl]; simp
  obtain ⟨r, hr, hr1⟩ := List.mem_map.mp hone
  obtain ⟨x, hx, hd⟩ := hall r hr
  have hn := hd.received
  rw [hr1, CompleteSend.length_message] at hn
  simp only [List.mem_cons, List.not_mem_nil, or_false] at hx
  rcases hx with rfl | rfl <;> exact absurd hn (by decide)

end Signpost
