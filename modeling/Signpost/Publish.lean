/-
A message published by a module, from `signpost_networking_publish` over the
radio's queue to the two servers.

The module puts its name, a slash and the topic before the data. When the topic
starts with a slash, or the name ends with one, it leaves its own slash out,
but copies the topic to where it would be after one: a byte of whatever was in the
memory before is sent then, and the topic's last one is not. The servers make a text
of the topic, so that what is asked of it is that its UTF-8 is what the module meant.
-/
import Signpost.StorageMaster
import Signpost.Uplink

namespace Signpost

open Lib
open Utf16 (IsUtf8 ofUtf8 toUtf8 toUtf8_ofUtf8_iff filter_toUtf8_ofUtf8)

/-! ## `signpost_networking_publish` -/

def nameLen : Nat := 16

/-- What the message of a publish is made from: memory from `i2c_address` of
`module_info` on, with `self_name` behind it, and what the call is given. -/
structure PublishCall where
  moduleInfo : Mem UInt8
  topic : Mem UInt8
  data : Mem UInt8
  dataLen : UInt8
  /-- What is in the memory the message is put in. -/
  heap : Mem UInt8

namespace PublishCall

variable (p : PublishCall)

def selfName : Mem UInt8 := fun i => p.moduleInfo (i + 1)

def name : Bytes := strn p.selfName nameLen

/-- The topic, at most 14 bytes of it. -/
def topicName : Bytes := strn p.topic 14

def payload : Bytes := p.data.read 0 p.dataLen.toNat

def nlen : Nat := strnlen p.selfName nameLen

def slen : Nat := strnlen p.topic 14

/-- Neither the topic nor the name has a slash there. For an empty name, its
last character is the byte before it. -/
def Slash : Prop := p.topic 0 ≠ 0x2F ∧ p.moduleInfo p.nlen ≠ 0x2F

instance : Decidable p.Slash := by
  unfold Slash
  infer_instance

def slash : Nat := if p.Slash then 1 else 0

def len : Nat := p.nlen + p.slash + p.slen + p.dataLen.toNat + 2

def buf : Mem UInt8 :=
  let buf := p.heap.copy 0 [UInt8.ofNat (p.slen + p.nlen + p.slash)]
  let buf := buf.copy 1 p.name
  let buf := if p.Slash then buf.copy (p.nlen + 1) [0x2F] else buf
  let buf := buf.copy (1 + p.nlen + 1) p.topicName
  let buf := buf.copy (p.slen + p.nlen + p.slash + 1) [p.dataLen]
  buf.copy (1 + p.slen + 1 + p.nlen + p.slash) p.payload

/-- The record that should be published: the name, a slash and the topic, and the data. -/
def record : Record := ⟨p.name ++ 0x2F :: p.topicName, p.payload⟩

end PublishCall

/-! ## To the servers -/

/-- A message of a radio's queue is published as this: from the head of the queue
as a LoRa packet that is not dropped, and in a batch among other well-formed
messages, in its place. -/
structure Arrives (f : Firmware) (e : Entry) (m : ParsedRecord) : Prop where
  lora : ∀ (q : Queue f.bufferSize) (sn : UInt8) (l : LoraReceiver), q.entries.head? = some e →
    ¬ l.Drops (q.loraPacket (f.header sn)) →
    (l.receive (q.loraPacket (f.header sn))).2 = [⟨m, .lora, deviceId f.address, sn⟩]
  http : ∀ (q : Queue f.bufferSize) (sn : UInt8) (counts : PacketCounts) (before after : List Entry)
    (rs rs' : List Record), q.entries = before ++ e :: after →
      before.map Entry.bytes = rs.map Record.encode →
    after.map Entry.bytes = rs'.map Record.encode → (∀ r ∈ rs ++ rs', r.Fits) →
    before.length < (q.fill queueSize ⟨f.header sn, q.queueHead, counts, 0⟩).count →
    httpReceive (q.fill queueSize ⟨f.header sn, q.queueHead, counts, 0⟩).cellBuffer =
      rs.map (Record.publication (deviceId f.address) sn .http) ++ ⟨m, .http, deviceId f.address, sn⟩ ::
        (rs'.take ((q.fill queueSize ⟨f.header sn, q.queueHead, counts, 0⟩).count - before.length - 1)).map
          (Record.publication (deviceId f.address) sn .http)

variable {f : Firmware} {e : Entry} {r : Record}

theorem Queue.head_ne_of_head? {bufferSize : Nat} {q : Queue bufferSize} (h : q.entries.head? = some e) :
    q.queueHead ≠ q.queueTail ∧ q.slot q.queueHead = e := by
  have hne : q.queueHead ≠ q.queueTail := fun heq => by
    rw [Queue.entries_eq_nil.mpr heq] at h
    cases h
  rw [Queue.entries_cons hne] at h
  exact ⟨hne, Option.some.inj h⟩

theorem arrives_of_encode (hr : r.Fits) (he : e.bytes = r.encode) : Arrives f e r.parsed where
  lora := fun q sn l hhead hdrops => by
    have hpacket : q.loraPacket (f.header sn) = f.packet sn [e] .lora := by
      rw [q.loraPacket_eq (f.length_header sn), (Queue.head_ne_of_head? hhead).2]
      simp [Firmware.packet]
    rw [hpacket] at hdrops ⊢
    exact receive_packet hr he hdrops
  http := fun q sn counts before after rs rs' hq hbefore hafter hfits hin => by
    have hne : q.queueHead ≠ q.queueTail := fun heq => by
      rw [Queue.entries_eq_nil.mpr heq] at hq
      simp at hq
    obtain ⟨k, -, -, hbuf, -, hcount⟩ := @Queue.fill_head _ q _ counts (f.length_header sn) hne
    rw [hcount] at hin ⊢
    obtain ⟨j, rfl⟩ : ∃ j, k = before.length + 1 + j := ⟨k - before.length - 1, by omega⟩
    have hj : before.length + 1 + j - before.length - 1 = j := by omega
    have htake : q.entries.take (before.length + 1 + j) = before ++ e :: after.take j := by
      rw [hq, Nat.add_assoc, List.take_length_add_append, Nat.add_comm 1 j, List.take_succ_cons]
    have hes : (q.entries.take (before.length + 1 + j)).map Entry.bytes =
      (rs ++ r :: rs'.take j).map Record.encode := by
      rw [htake, List.map_append, List.map_cons, List.map_take, hbefore, hafter, he]
      simp
    have hshort : ∀ r' ∈ rs ++ r :: rs'.take j, r'.Fits ∧ r'.encode.length < 256 := fun r' hr' => by
      have hmem : r'.encode ∈ (q.entries.take (before.length + 1 + j)).map Entry.bytes := by
        rw [hes]
        exact List.mem_map_of_mem hr'
      obtain ⟨x, hx, hbytes⟩ := List.mem_map.mp hmem
      refine ⟨?_, hbytes ▸ Queue.length_bytes_lt (List.mem_of_mem_take hx)⟩
      rcases List.mem_append.mp hr' with h | h
      · exact hfits r' (List.mem_append_left _ h)
      · rcases List.mem_cons.mp h with rfl | h
        · exact hr
        · exact hfits r' (List.mem_append_right _ (List.mem_of_mem_take h))
    have hpacket : (q.fill queueSize ⟨f.header sn, q.queueHead, counts, 0⟩).cellBuffer =
        f.packet sn (q.entries.take (before.length + 1 + j)) .cellular := hbuf
    rw [hj, hpacket, httpReceive_packet (by simp) hshort hes, List.map_append, List.map_cons]
    rfl

/-- A packet that is published as one record holds its topic and its data, and no other bytes. -/
theorem loraRecords_single {fuel : Nat} {bytes : Bytes} {m : ParsedRecord} (h : loraRecords fuel bytes = some [m]) :
    ∃ (tlen dlen : UInt8) (topic : Bytes), bytes = tlen :: (topic ++ dlen :: m.data) ∧
      topic.length = tlen.toNat ∧ m.topic = ofUtf8 topic := by
  unfold loraRecords at h
  split at h
  · cases h
  · cases h
  · next tlen rest =>
    split at h
    · cases h
    · next dlen rest' hdrop =>
      have hlen := congrArg List.length hdrop
      rw [List.length_drop, List.length_cons] at hlen
      simp only at h
      split at h
      · next hend =>
        cases h
        refine ⟨tlen, dlen, rest.take tlen.toNat, ?_, ?_, rfl⟩
        · simp only
          rw [List.take_of_length_le (List.drop_eq_nil_iff.mp hend), ← hdrop, List.take_append_drop]
        · rw [List.length_take]
          omega
      · next hmore =>
        rw [Option.map_eq_some_iff] at h
        obtain ⟨ps, hps, heq⟩ := h
        obtain ⟨-, rfl⟩ := List.cons.inj heq
        exact absurd rfl (loraRecords_ne_nil hps)

theorem exists_queue {addr len : UInt8} {buffer : Mem UInt8} (hlen : len.toNat ≤ f.bufferSize) :
    ∃ q : Queue f.bufferSize, q.entries = [⟨addr, buffer.read 0 len.toNat⟩] := by
  obtain ⟨rc, q, hadd⟩ : ∃ rc q, (Queue.empty : Queue f.bufferSize).addBufferToQueue addr buffer len =
    (rc, q) :=
    ⟨_, _, rfl⟩
  rcases Queue.addBufferToQueue_cases hadd with ⟨-, hfull, -⟩ | ⟨-, -, hlong, -⟩ | ⟨-, -, -, hq, -⟩
  · rw [Queue.entries_empty] at hfull
    cases hfull
  · omega
  · exact ⟨q, by rw [hq, Queue.entries_empty]; rfl⟩

theorem Arrives.loraRecords_eq {addr len : UInt8} {buffer : Mem UInt8} {m : ParsedRecord}
    (hlen : len.toNat ≤ f.bufferSize) (harrives : Arrives f ⟨addr, buffer.read 0 len.toNat⟩ m) :
    ∃ fuel, loraRecords fuel (buffer.read 0 len.toNat) = some [m] := by
  obtain ⟨q, hq⟩ := @exists_queue f addr len buffer hlen
  have hhead : q.entries.head? = some ⟨addr, buffer.read 0 len.toNat⟩ := by rw [hq]; rfl
  have hpacket : q.loraPacket (f.header 0) = f.packet 0 [⟨addr, buffer.read 0 len.toNat⟩] .lora := by
    rw [q.loraPacket_eq (f.length_header 0), (Queue.head_ne_of_head? hhead).2]
    simp [Firmware.packet]
  have hdrops : ¬ LoraReceiver.init.Drops (q.loraPacket (f.header 0)) := by
    unfold LoraReceiver.Drops LoraReceiver.init
    simp
  have hreceive := harrives.lora q 0 LoraReceiver.init hhead hdrops
  have hbody : Firmware.body [⟨addr, buffer.read 0 len.toNat⟩] .lora = buffer.read 0 len.toNat := by
    simp [Firmware.body]
  rw [LoraReceiver.receive, LoraReceiver.parse, if_neg hdrops, hpacket,
    if_pos (by rw [Firmware.length_packet]; omega)] at hreceive
  simp only [Firmware.drop_packet, hbody, Firmware.deviceId_packet,
    Firmware.sequenceNumber_packet] at hreceive
  generalize List.length (f.packet 0 [⟨addr, buffer.read 0 len.toNat⟩] .lora) = fuel at hreceive
  refine ⟨fuel, ?_⟩
  cases hps : loraRecords fuel (buffer.read 0 len.toNat) with
  | none =>
    rw [hps] at hreceive
    cases hreceive
  | some ps =>
    rw [hps] at hreceive
    rcases ps with _ | ⟨m', _ | _⟩
    · cases hreceive
    · cases hreceive
      rfl
    · cases hreceive

/-! ## The message of a publish -/

namespace PublishCall

variable {p : PublishCall}

theorem length_name : p.name.length = p.nlen := rfl

theorem length_topicName : p.topicName.length = p.slen := rfl

theorem length_payload : p.payload.length = p.dataLen.toNat := Mem.length_read _ _ _

theorem strnlen_le (m : Mem UInt8) (n : Nat) : strnlen m n ≤ n := by
  have hle := (List.takeWhile_prefix (l := m.read 0 n) fun b => decide (b ≠ 0)).length_le
  rwa [Mem.length_read] at hle

theorem length_topic (p : PublishCall) : p.record.topic.length = p.slen + p.nlen + 1 := by
  rw [record, List.length_append, List.length_cons, length_name, length_topicName]
  omega

theorem fits_record : p.record.Fits where
  topic := by
    have hn : p.nlen ≤ 16 := strnlen_le _ _
    have hs : p.slen ≤ 14 := strnlen_le _ _
    rw [length_topic]
    omega
  data := by
    rw [record, length_payload]
    exact p.dataLen.toNat_lt

theorem read_copy_end (m : Mem UInt8) (off : Nat) (xs : Bytes) {n : Nat} (h : n = off + xs.length) :
    (m.copy off xs).read 0 n = m.read 0 off ++ xs := h ▸ m.read_copy_append off xs

theorem read_buf (hslash : p.Slash) : p.buf.read 0 p.len = p.record.encode := by
  have hone : p.slash = 1 := if_pos hslash
  rw [buf, if_pos hslash]
  rw [read_copy_end _ _ _ (by rw [length_payload, len]; omega), read_copy_end _ _ _ (by simp; omega),
    read_copy_end _ _ _ (by rw [length_topicName]; omega), read_copy_end _ _ _ (by simp; omega),
    read_copy_end _ _ _ (by rw [length_name]; omega), read_copy_end _ _ _ (by simp)]
  have htlen : p.slen + p.nlen + p.slash = (p.name ++ 0x2F :: p.topicName).length := by
    rw [hone]
    exact p.length_topic.symm
  have hdlen : p.dataLen = UInt8.ofNat p.payload.length := by rw [length_payload, UInt8.ofNat_toNat]
  simp only [Record.encode, record, ← htlen, ← hdlen, Mem.read_zero]
  simp

/-- Without one, a byte that was there before is sent in its place, and the topic but for its last byte. -/
theorem read_buf_gap (hslash : ¬ p.Slash) : p.buf.read 0 (p.slen + p.nlen + 1) =
    UInt8.ofNat (p.slen + p.nlen) :: (p.name ++ (p.heap (p.nlen + 1) :: p.topicName).take p.slen) := by
  have hzero : p.slash = 0 := if_neg hslash
  have hbefore : ((p.heap.copy 0 [UInt8.ofNat (p.slen + p.nlen)]).copy 1 p.name).read 0 (1 + p.nlen + 1) =
      UInt8.ofNat (p.slen + p.nlen) :: (p.name ++ [p.heap (p.nlen + 1)]) := by
    rw [Mem.read_add, read_copy_end _ _ _ (by rw [length_name]), read_copy_end _ _ _ (by simp),
      Mem.read_copy_disjoint (.inr (by rw [length_name]; omega)),
      Mem.read_copy_disjoint (.inr (by simp only [List.length_singleton]; omega)), Nat.zero_add, Nat.add_comm 1]
    rfl
  have htake := congrArg (List.take (p.slen + p.nlen + 1)) (read_copy_end
    ((p.heap.copy 0 [UInt8.ofNat (p.slen + p.nlen)]).copy 1 p.name) (1 + p.nlen + 1) p.topicName rfl)
  rw [Mem.take_read, hbefore, Nat.min_eq_left (by rw [length_topicName]; omega)] at htake
  rw [buf, if_neg hslash, hzero, Mem.read_copy_disjoint (.inl (by omega)),
    Mem.read_copy_disjoint (.inl (by omega)), Nat.add_zero, htake, List.cons_append, List.append_assoc,
    List.take_succ_cons, Nat.add_comm, List.singleton_append, ← length_name, List.take_length_add_append]

theorem buf_zero (p : PublishCall) : p.buf 0 = UInt8.ofNat (p.slen + p.nlen + p.slash) := by
  rw [buf, Mem.copy_before (by omega), Mem.copy_before (by omega), Mem.copy_before (by omega)]
  split
  · rw [Mem.copy_before (by omega), Mem.copy_before (by omega), Mem.copy_singleton]
  · rw [Mem.copy_before (by omega), Mem.copy_singleton]

/-- Whatever the message's memory held before, the servers publish this topic and these data. -/
def Published (p : PublishCall) (q : Queue f.bufferSize) (sourceAddress : UInt8) : Prop :=
  ∀ (heap message : Mem UInt8), message.read 0 p.len = ({ p with heap }).buf.read 0 p.len →
    ∃ e m, (q.addBufferToQueue sourceAddress message (UInt32.ofNat p.len).toUInt8).2.entries = q.entries ++ [e] ∧
      Arrives f e m ∧ toUtf8 m.topic = p.record.topic ∧ m.data = p.record.data

/-- What the servers make of a message that arrives with all its data: it was not cut, and its topic is
what stands in its place. -/
theorem arrives_parts {message : Mem UInt8} {sourceAddress : UInt8} {m : ParsedRecord}
    (hreceived : message.read 0 p.len = p.buf.read 0 p.len)
    (hle : (UInt32.ofNat p.len).toUInt8.toNat ≤ f.bufferSize)
    (harrives : Arrives f ⟨sourceAddress, message.read 0 (UInt32.ofNat p.len).toUInt8.toNat⟩ m)
    (hdata : m.data = p.payload) :
    p.len < 256 ∧ ∃ dlen topic, topic.length = p.slen + p.nlen + p.slash ∧
      p.buf.read 0 p.len = UInt8.ofNat (p.slen + p.nlen + p.slash) :: (topic ++ dlen :: p.payload) ∧
      m.topic = ofUtf8 topic := by
  have hn : p.nlen ≤ 16 := strnlen_le _ _
  have hs : p.slen ≤ 14 := strnlen_le _ _
  have hd := p.dataLen.toNat_lt
  have hslash : p.slash ≤ 1 := by
    unfold slash
    split <;> omega
  have hlen : p.len = p.nlen + p.slash + p.slen + p.dataLen.toNat + 2 := rfl
  have hmod : (UInt32.ofNat p.len).toUInt8.toNat = p.len % 256 := by
    rw [UInt32.toNat_toUInt8, UInt32.toNat_ofNat_of_lt' (Nat.lt_of_lt_of_le (by omega : p.len < 300) (by decide))]
  obtain ⟨fuel, hparsed⟩ := harrives.loraRecords_eq hle
  obtain ⟨tlen, dlen, topic, hbytes, htopic, hutf⟩ := loraRecords_single hparsed
  have hlength := congrArg List.length hbytes
  rw [Mem.length_read, List.length_cons, List.length_append, List.length_cons, hdata, length_payload, hmod] at hlength
  have htlen : tlen = UInt8.ofNat (p.slen + p.nlen + p.slash) := by
    have hfirst := congrArg (List.take 1) hbytes
    rw [Mem.take_read, Nat.min_eq_left (by omega)] at hfirst
    have hsame : message 0 = p.buf 0 := Mem.read_eq_iff.mp hreceived 0 (by omega)
    exact (List.cons.inj hfirst).1.symm.trans (hsame.trans p.buf_zero)
  have htlen' : tlen.toNat = p.slen + p.nlen + p.slash := by
    rw [htlen, UInt8.toNat_ofNat_of_lt' (Nat.lt_of_le_of_lt (by omega : _ ≤ 31) (by decide))]
  refine ⟨by omega, dlen, topic, htopic.trans htlen', ?_, hutf⟩
  rw [hmod, Nat.mod_eq_of_lt (by omega), hreceived, htlen, hdata] at hbytes
  exact hbytes

theorem slash_of_utf8 {topic data : Bytes} (hheap : p.heap (p.nlen + 1) = 0x58)
    (hlength : topic.length = p.slen + p.nlen + p.slash)
    (hread : p.buf.read 0 p.len = UInt8.ofNat (p.slen + p.nlen + p.slash) :: (topic ++ data))
    (hutf : toUtf8 (ofUtf8 topic) = p.record.topic) : p.Slash := by
  by_contra hslash
  have hzero : p.slash = 0 := if_neg hslash
  have hbegin := congrArg (List.take (p.slen + p.nlen + 1)) hread
  rw [Mem.take_read, Nat.min_eq_left (by unfold len; omega), read_buf_gap hslash, hheap, hzero,
    List.take_succ_cons, List.take_left' (by omega)] at hbegin
  have hascii := filter_toUtf8_ofUtf8 topic
  rw [hutf, ← (List.cons.inj hbegin).2, record, List.filter_append, List.filter_append,
    List.append_cancel_left_eq] at hascii
  cases hs : p.slen with
  | zero =>
    rw [hs, List.take_zero] at hascii
    cases hascii
  | succ k =>
    rw [hs, List.take_succ_cons, List.filter_cons_of_pos (by decide), List.filter_cons_of_pos (by decide)] at hascii
    exact absurd (List.cons.inj hascii).1 (by decide)

end PublishCall

/-! ## The round trip -/

variable {p : PublishCall} {q : Queue f.bufferSize} {sourceAddress len : UInt8}

theorem Queue.addBufferToQueue_zero {message : Mem UInt8} (h : (q.addBufferToQueue sourceAddress message len).1 = 0)
    (message' : Mem UInt8) : len.toNat ≤ f.bufferSize ∧
      (q.addBufferToQueue sourceAddress message' len).2.entries =
        q.entries ++ [⟨sourceAddress, message'.read 0 len.toNat⟩] := by
  obtain ⟨hroom, hle⟩ : q.entries.length ≠ queueSize - 1 ∧ len.toNat ≤ f.bufferSize := by
    have hadd : q.addBufferToQueue sourceAddress message len = (0, _) := Prod.ext h rfl
    rcases Queue.addBufferToQueue_cases hadd with ⟨hfail, -⟩ | ⟨hfail, -⟩ | ⟨-, hroom, hle, -⟩
    · cases hfail
    · cases hfail
    · exact ⟨hroom, hle⟩
  obtain ⟨rc, q', hadd⟩ : ∃ rc q', q.addBufferToQueue sourceAddress message' len = (rc, q') := ⟨_, _, rfl⟩
  rw [hadd]
  rcases Queue.addBufferToQueue_cases hadd with ⟨-, hfull, -⟩ | ⟨-, -, hlong, -⟩ | ⟨-, -, -, hentries, -⟩
  · exact absurd hfull hroom
  · omega
  · exact ⟨hle, hentries⟩

theorem PublishCall.of_published
    (hqueued : (q.addBufferToQueue sourceAddress p.buf (UInt32.ofNat p.len).toUInt8).1 = 0)
    (hpublished : p.Published q sourceAddress) : p.Slash ∧ p.len < 256 ∧ IsUtf8 p.record.topic := by
  obtain ⟨hle, hentries⟩ := Queue.addBufferToQueue_zero hqueued ({ p with heap := fun _ => 0x58 } : PublishCall).buf
  obtain ⟨e, m, he, harrives, htopic, hdata⟩ := hpublished (fun _ => 0x58) _ rfl
  obtain rfl := (List.cons.inj (List.append_cancel_left (hentries.symm.trans he))).1
  obtain ⟨hshort, dlen, topic, hlength, hread, hparsed⟩ :=
    PublishCall.arrives_parts (p := { p with heap := fun _ => 0x58 }) rfl hle harrives hdata
  rw [hparsed] at htopic
  have hslash : p.Slash := PublishCall.slash_of_utf8 (p := { p with heap := fun _ => 0x58 }) rfl hlength hread htopic
  refine ⟨hslash, hshort, ?_⟩
  have hencode := (PublishCall.read_buf (p := { p with heap := fun _ => 0x58 }) hslash).symm.trans hread
  have hone : p.slash = 1 := if_pos hslash
  have hsame : p.record.topic = topic :=
    List.append_inj_left (List.cons.inj hencode).2 (p.length_topic.trans (hone ▸ hlength.symm))
  exact p.record.toUtf8_topic_iff.mp ((congrArg (fun b => toUtf8 (ofUtf8 b)) hsame).trans htopic)

/-- A publish that the radio queues is published by the servers as it should be
exactly when the module puts a slash of its own, the message's length fits a byte, and
the topic with its name is UTF-8. -/
theorem publish_arrives_iff
    (hqueued : (q.addBufferToQueue sourceAddress p.buf (UInt32.ofNat p.len).toUInt8).1 = 0) :
    p.Published q sourceAddress ↔ p.Slash ∧ p.len < 256 ∧ IsUtf8 p.record.topic := by
  constructor
  · exact PublishCall.of_published hqueued
  · rintro ⟨hslash, hshort, hutf⟩ heap message hreceived
    obtain ⟨-, hentries⟩ := Queue.addBufferToQueue_zero hqueued message
    have hmod : (UInt32.ofNat p.len).toUInt8.toNat = p.len := by
      rw [UInt32.toNat_toUInt8, UInt32.toNat_ofNat_of_lt' (Nat.lt_of_lt_of_le hshort (by decide)),
        Nat.mod_eq_of_lt hshort]
    have hread : message.read 0 (UInt32.ofNat p.len).toUInt8.toNat = p.record.encode := by
      rw [hmod, hreceived]
      exact PublishCall.read_buf (p := { p with heap }) hslash
    exact ⟨_, p.record.parsed, hentries, arrives_of_encode PublishCall.fits_record hread,
      p.record.toUtf8_topic_iff.mpr hutf, rfl⟩

/-- The publish of a module "m" to a topic, with one byte of data. -/
def samplePublish (topic : Bytes) : PublishCall where
  moduleInfo := .ofList [0x31, 0x6D] 0
  topic := .ofList topic 0
  data := .ofList [7] 0
  dataLen := 1
  heap := fun _ => 0

theorem publish_arrives_iff_topic :
    (samplePublish [0x61]).Published (Queue.empty : Queue sampleApp.bufferSize) 0x31 ∧
    ¬ (samplePublish [0xFF]).Published (Queue.empty : Queue sampleApp.bufferSize) 0x31 :=
  ⟨(publish_arrives_iff (by decide +kernel)).mpr (by decide +kernel),
    mt (publish_arrives_iff (by decide +kernel)).mp (by decide +kernel)⟩

/-- The topic "/a" of a module "m" is published as "m", a byte of whatever is in memory, and "/". -/
theorem slashTopic_lost : ¬ ∀ (p : PublishCall) (q : Queue sampleApp.bufferSize) (sourceAddress : UInt8),
    (q.addBufferToQueue sourceAddress p.buf (UInt32.ofNat p.len).toUInt8).1 = 0 → p.Published q sourceAddress := by
  intro h
  have hqueued : ((Queue.empty : Queue sampleApp.bufferSize).addBufferToQueue 0x31 (samplePublish [0x2F, 0x61]).buf
      (UInt32.ofNat (samplePublish [0x2F, 0x61]).len).toUInt8).1 = 0 := by decide +kernel
  have hslash := (PublishCall.of_published hqueued (h _ _ _ hqueued)).1
  exact absurd hslash (by decide +kernel)

end Signpost
