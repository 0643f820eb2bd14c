/-
Reassembly inverts fragmentation: `get_message` on the packets
`signbus_io_send` writes.

`Assembling m len i loc out` ties the two cursors together: after the first
`i` fragments of `m` the receiver has counted `247 * i` bytes and holds them at
the start of its buffer. `Assembling.turn` is the one turn that takes fragment
`i`; everything else follows from it by induction on the arrivals.
-/
import Signpost.Lib.Mix
import Signpost.Send
import Signpost.GetMessage

namespace Signpost

open Lib

/-- The (source, sequence number) pair that names a message. -/
def Message.key (m : Message) : UInt8 × UInt16 := (m.src, m.seq)

/-- What `get_message` returns for `m` into a buffer of `len` bytes: as much of
it as fits. -/
structure Complete (m : Message) (len lengthReceived : UInt32) (out : RecvOut) : Prop where
  received : lengthReceived.toNat = min m.data.length len.toNat
  data : out.data.read 0 (min m.data.length len.toNat) = m.data.take (min m.data.length len.toNat)
  encrypted : out.encrypted = m.encrypted
  src : out.src = m.src

/-- The state of `get_message` after the first `i` fragments of `m`. -/
structure Assembling (m : Message) (len : UInt32) (i : Nat) (loc : GetMessage) (out : RecvOut) : Prop where
  fits : 247 * i ≤ len.toNat
  received : loc.lengthReceived.toNat = 247 * i
  data : out.data.read 0 (247 * i) = m.data.take (247 * i)
  started : 0 < i → loc.messageSequenceNumber = htons m.seq ∧ loc.messageSourceAddress = m.src ∧
    out.encrypted = m.encrypted

section
variable {m : Message} {len : UInt32} {i : Nat} {loc : GetMessage} {out : RecvOut} {pb : Mem UInt8}

theorem Assembling.zero (h : loc.lengthReceived = 0) : Assembling m len 0 loc out where
  fits := Nat.zero_le _
  received := by rw [h]; rfl
  data := by simp
  started := fun h => absurd h (Nat.lt_irrefl 0)

theorem Assembling.lengthReceived_eq_zero (h : Assembling m len i loc out) :
    loc.lengthReceived = 0 ↔ i = 0 := by
  rw [← UInt32.toNat_inj, h.received, UInt32.toNat_zero]
  omega

/-! ## One fragment -/

theorem Message.length_fragment (i : Nat) : (m.fragment i).length = 8 + (m.chunk i).length := by
  simp [fragment]

theorem Message.packetKey_fragment (i : Nat) : packetKey (m.fragment i) = some m.key := by
  simp [packetKey, fragment, NetworkHeader.bytes, le16, ofLe16_le16, key, header, baseHeader,
    NetworkHeader.setFragment]

/-- The payload length a turn goes by on fragment `i` is the fragment's own. -/
theorem payloadLength_fragment (hi : i < m.count) :
    payloadLength (decide (247 * (i + 1) < m.data.length)) (UInt8.ofNat (m.fragment i).length) =
      (m.chunk i).length := by
  have hlt := Message.lt_count.mp hi
  rw [Message.length_fragment, Message.length_chunk, payloadLength]
  split
  · next h => have := of_decide_eq_true h; omega
  · rw [UInt8.toNat_ofNat']; omega

/-- What a turn copies from fragment `i`: its bytes, cut to the room left. -/
theorem copyLength_fragment (hfit : m.Fits) (hi : i < m.count) (hlen : 247 * i ≤ len.toNat) :
    let n := copyLength len (UInt16.ofNat (247 * i)) (decide (247 * (i + 1) < m.data.length))
      (UInt8.ofNat (m.fragment i).length)
    n.1.toNat = min (m.chunk i).length (len.toNat - 247 * i) ∧
      n.2 = decide (m.count ≤ i + 1 ∨ len.toNat < 247 * (i + 1)) := by
  have hoff := hfit.offset_lt hi
  have hlast : i + 1 < m.count ↔ 247 * (i + 1) < m.data.length := Message.lt_count
  have hlt := Message.lt_count.mp hi
  obtain ⟨h1, h2⟩ := copyLength_eq len (UInt16.ofNat (247 * i)) (decide (247 * (i + 1) < m.data.length))
    (UInt8.ofNat (m.fragment i).length)
  have hc := Message.length_chunk (m := m) i
  rw [payloadLength_fragment hi, UInt16.toNat_ofNat', Nat.mod_eq_of_lt hoff, hc] at h1 h2
  refine ⟨?_, ?_⟩
  · rw [h1, hc]
    split <;> omega
  · rw [h2, Bool.eq_iff_iff]
    simp only [Bool.or_eq_true, Bool.not_eq_true', decide_eq_false_iff_not, decide_eq_true_eq, ← hlast]
    omega

/-- A buffer that holds the first `247 * i` bytes of `m` grows by what is
copied from fragment `i`. -/
theorem read_copy_chunk {data : Mem UInt8} (h : data.read 0 (247 * i) = m.data.take (247 * i)) {n : Nat}
    (hn : n ≤ (m.chunk i).length) :
    (data.copy (247 * i) ((m.chunk i).take n)).read 0 (247 * i + n) = m.data.take (247 * i + n) := by
  have hlen : ((m.chunk i).take n).length = n := by rw [List.length_take]; omega
  have hcopy := Mem.read_copy_append data (247 * i) ((m.chunk i).take n)
  rw [hlen] at hcopy
  rw [hcopy, h, List.take_add, Message.chunk, List.take_take, Nat.min_eq_left]
  rw [Message.length_chunk] at hn
  omega

/-- **One turn on fragment `i`**: it either adds its 247 bytes, or returns with
the message complete. -/
theorem Assembling.turn (h : Assembling m len i loc out) (hfit : m.Fits) (hi : i < m.count)
    (pb : Mem UInt8) {t : Turn}
    (ht : getMessageTurn len (.ofMem (pb.copy 0 (m.fragment i))) (UInt8.ofNat (m.fragment i).length) loc
      out = t) :
    t.done = decide (m.count ≤ i + 1 ∨ len.toNat < 247 * (i + 1)) ∧
      (t.done = true → Complete m len t.loc.lengthReceived t.out) ∧
      (t.done = false → Assembling m len (i + 1) t.loc t.out) ∧
      t.loc.messageSequenceNumber = htons m.seq ∧ t.loc.messageSourceAddress = m.src := by
  obtain ⟨hheader, hdata⟩ := Packet.ofMem_copy pb (m.header i) (m.chunk i)
  obtain ⟨hn, hdone⟩ := copyLength_fragment hfit hi h.fits
  have hfits := h.fits
  have hlt := Message.lt_count.mp hi
  have hlast : i + 1 < m.count ↔ 247 * (i + 1) < m.data.length := Message.lt_count
  have hoff := hfit.offset_lt hi
  have hc := Message.length_chunk (m := m) i
  have hoffset : htons (m.header i).fragmentOffset = UInt16.ofNat (247 * i) := by
    simp [Message.header, NetworkHeader.setFragment]
  have hmore : (m.header i).flags.isFragment = decide (247 * (i + 1) < m.data.length) := rfl
  have hmine : ¬ (loc.lengthReceived ≠ 0 ∧
      ¬ (loc.messageSequenceNumber = (m.header i).sequenceNumber ∧
        loc.messageSourceAddress = (m.header i).src)) := by
    rintro ⟨hne, hk⟩
    obtain ⟨hs, ha, -⟩ := h.started (Nat.pos_of_ne_zero (mt h.lengthReceived_eq_zero.mpr hne))
    exact hk ⟨hs, ha⟩
  simp only [Message.fragment] at hn hdone ht
  simp only [getMessageTurn, hheader, if_neg hmine, hoffset, hmore] at ht
  generalize copyLength len _ _ _ = nd at hn hdone ht
  obtain ⟨n, done⟩ := nd
  simp only at hn hdone
  have hread : (Packet.ofMem (pb.copy 0 ((m.header i).bytes ++ m.chunk i))).data.read 0 n.toNat =
      (m.chunk i).take n.toNat := by
    conv_rhs => rw [← hdata, Mem.take_read, Nat.min_eq_left (by omega)]
  have hreceived : (loc.lengthReceived + n).toNat = 247 * i + n.toNat := by
    rw [UInt32.toNat_add, h.received]
    unfold Message.Fits at hfit
    omega
  have hbytes := read_copy_chunk h.data (n := n.toNat) (by omega)
  have hstart : (if decide (loc.lengthReceived = 0) then (m.header i).sequenceNumber
        else loc.messageSequenceNumber) = htons m.seq ∧
      (if decide (loc.lengthReceived = 0) then (m.header i).src else loc.messageSourceAddress) = m.src ∧
      (if decide (loc.lengthReceived = 0) then (m.header i).flags.isEncrypted else out.encrypted) =
        m.encrypted := by
    by_cases hz : loc.lengthReceived = 0
    · simp only [hz, decide_true, if_true]
      exact ⟨rfl, rfl, rfl⟩
    · simp only [hz, decide_false, Bool.false_eq_true, if_false]
      exact h.started (Nat.pos_of_ne_zero (mt h.lengthReceived_eq_zero.mpr hz))
  have hoffNat : (UInt16.ofNat (247 * i)).toNat = 247 * i := UInt16.toNat_ofNat_of_lt' hoff
  subst ht
  simp only [hread, hoffNat]
  refine ⟨hdone, fun hd => ⟨?_, ?_, hstart.2.2, rfl⟩, fun hd => ⟨?_, ?_, ?_, fun _ => hstart⟩, hstart.1,
    hstart.2.1⟩
  · have := of_decide_eq_true (hdone.symm.trans hd)
    rw [hreceived]
    omega
  · have := of_decide_eq_true (hdone.symm.trans hd)
    have hall : min m.data.length len.toNat = 247 * i + n.toNat := by omega
    rw [hall, hbytes]
  · have := of_decide_eq_false (hdone.symm.trans hd)
    omega
  · have := of_decide_eq_false (hdone.symm.trans hd)
    rw [hreceived]
    omega
  · have := of_decide_eq_false (hdone.symm.trans hd)
    have hall : 247 * (i + 1) = 247 * i + n.toNat := by omega
    rw [hall, hbytes]

/-! ## All of them -/

theorem Assembling.key (h : Assembling m len i loc out) (hpos : 0 < i) :
    loc.lengthReceived ≠ 0 ∧ loc.messageSequenceNumber = htons m.key.2 ∧
      loc.messageSourceAddress = m.key.1 := by
  obtain ⟨hs, ha, -⟩ := h.started hpos
  exact ⟨mt h.lengthReceived_eq_zero.mp (by omega), hs, ha⟩

/-- On a fragment of `m` the loop returns with the message complete, or goes on to the next. -/
theorem Assembling.loop (h : Assembling m len i loc out) (hfit : m.Fits) (hi : i < m.count) (pb : Mem UInt8)
    {arrivals : List Bytes}
    (hgo : ∀ {loc : GetMessage} {out : RecvOut} {pb : Mem UInt8}, i + 1 < m.count → Assembling m len (i + 1) loc out →
      ∃ r, (getMessageLoop len pb loc out arrivals).returned = some r ∧ Complete m len r.lengthReceived r.out) :
    ∃ r, (getMessageLoop len pb loc out (m.fragment i :: arrivals)).returned = some r ∧
      Complete m len r.lengthReceived r.out := by
  obtain ⟨hdone, hcomplete, hnext, -⟩ := h.turn hfit hi pb rfl
  rw [getMessageLoop]
  split
  · next hd => exact ⟨_, rfl, hcomplete hd⟩
  · next hd =>
    rw [Bool.not_eq_true] at hd
    have hmore := of_decide_eq_false (hdone.symm.trans hd)
    exact hgo (by omega) (hnext hd)

/-- The loop in the middle of `m`, on its remaining fragments and whatever
other packets come between them. -/
theorem getMessageLoop_mix (hfit : m.Fits) {rest arrivals : List Bytes}
    (hmix : Mix (Foreign m.key) rest arrivals) :
    ∀ {i : Nat} {loc : GetMessage} {out : RecvOut} {pb : Mem UInt8}, 0 < i → i < m.count →
      rest = m.fragments.drop i → Assembling m len i loc out →
      ∃ r, (getMessageLoop len pb loc out arrivals).returned = some r ∧
        Complete m len r.lengthReceived r.out := by
  induction hmix with
  | nil =>
    intro i loc out pb hpos hi hrest
    rw [Message.drop_fragments hi] at hrest
    cases hrest
  | @own b rest arrivals hmix ih =>
    intro i loc out pb hpos hi hrest h
    rw [Message.drop_fragments hi] at hrest
    obtain ⟨rfl, rfl⟩ := List.cons.inj hrest
    exact h.loop hfit hi pb fun hlt hnext => ih (Nat.succ_pos i) hlt rfl hnext
  | @extra b rest arrivals hb hmix ih =>
    intro i loc out pb hpos hi hrest h
    obtain ⟨hbegun, hseq, hsrc⟩ := h.key hpos
    rw [getMessageLoop, getMessageTurn_foreign hbegun hseq hsrc hb]
    exact ih hpos hi hrest h

theorem getMessage_fragments (len : UInt32) (pb : Mem UInt8) (stack : GetMessage) (out : RecvOut)
    (hfit : m.Fits) (hne : 0 < m.data.length) {arrivals : List Bytes}
    (hmix : Mix (Foreign m.key) (m.fragments.drop 1) arrivals) :
    ∃ r, (getMessage len pb stack out (m.fragment 0 :: arrivals)).returned = some r ∧
      Complete m len r.lengthReceived r.out := by
  have hzero : Assembling m len 0 { stack with lengthReceived := 0 } out := .zero rfl
  have hcount : 0 < m.count := Message.lt_count.mpr (by omega)
  rw [getMessage]
  exact hzero.loop hfit hcount pb fun hlt hnext => getMessageLoop_mix hfit hmix Nat.one_pos hlt rfl hnext

end

/-- **Reassembly inverts fragmentation.** A message of 1 to 65535 bytes is
sent with no write refused, and its packets arrive in order at a waiting
`get_message`, packets of other messages anywhere after the first: the call
returns as much of the message as its buffer takes, whose flag and source are
the sender's. -/
theorem getMessage_signbusIoSend {write : MasterWrite} {d : Device} {dest : UInt8} {encrypted : Bool}
    {data : Mem UInt8} {len bufLen : UInt32} {packetBuf : Mem UInt8} {stack : GetMessage} {out : RecvOut}
    {first : Bytes} {rest arrivals : List Bytes}
    (hlen : 1 ≤ len.toNat ∧ len.toNat ≤ 65535)
    (hwrite : ∀ k dest bytes, 0 ≤ write k dest bytes)
    (hsent : (signbusIoSend write d dest encrypted data len).packets = first :: rest)
    (hmix : Mix (Foreign (d.thisDeviceAddress, d.sequenceNumber + 1)) rest arrivals) :
    ∃ r, (getMessage bufLen packetBuf stack out (first :: arrivals)).returned = some r ∧
      r.lengthReceived.toNat = min len.toNat bufLen.toNat ∧
      r.out.data.read 0 (min len.toNat bufLen.toNat) = data.read 0 (min len.toNat bufLen.toNat) ∧
      r.out.encrypted = encrypted ∧ r.out.src = d.thisDeviceAddress := by
  have hlength : (Message.ofSend d encrypted data len).data.length = len.toNat := Mem.length_read ..
  have hfit : (Message.ofSend d encrypted data len).Fits := by rw [Message.Fits, hlength]; omega
  have hcount : 0 < (Message.ofSend d encrypted data len).count := Message.lt_count.mpr (by omega)
  obtain ⟨hpackets, -⟩ := signbusIoSend_packets write dest hfit (Nat.le_refl _)
    (fun j _ => hwrite j dest _) (fun h => absurd h (Nat.lt_irrefl _))
  rw [List.take_of_length_le (by simp), hsent, ← List.drop_zero (l := Message.fragments _),
    Message.drop_fragments hcount] at hpackets
  obtain ⟨rfl, rfl⟩ := List.cons.inj hpackets
  obtain ⟨r, hr, hc⟩ := getMessage_fragments bufLen packetBuf stack out hfit (by omega) hmix
  obtain ⟨hn, hdata, hencrypted, hsrc⟩ := hc
  rw [hlength] at hn hdata
  refine ⟨r, hr, hn, ?_, hencrypted, hsrc⟩
  rw [hdata]
  simp only [Message.ofSend]
  rw [Mem.take_read]
  congr 1
  omega

/-- Two fragments with another sender's packet between them, into a buffer that
cuts the second. -/
theorem getMessage_signbusIoSend_cut :
    let m := Message.ofSend ⟨1, 4⟩ true UInt8.ofNat 300
    ∃ r, (getMessage 256 (fun _ => 0) ⟨0, 0, 0⟩ ⟨fun _ => 0, false, 0⟩
        [m.fragment 0, [16, 2, 0, 5], m.fragment 1]).returned = some r ∧
      r.lengthReceived.toNat = 256 ∧ r.out.data.read 0 256 = Mem.read UInt8.ofNat 0 256 ∧
      r.out.encrypted = true ∧ r.out.src = 1 := by
  intro m
  have hlength : m.data.length = 300 := Mem.length_read ..
  have hfit : m.Fits := by rw [Message.Fits, hlength]; decide
  have hcount : m.count = 2 := by rw [Message.count, hlength]
  have hsent : (signbusIoSend (fun _ _ _ => 0) ⟨1, 4⟩ 2 true UInt8.ofNat 300).packets =
      [m.fragment 0, m.fragment 1] := by
    rw [(signbusIoSend_packets _ _ hfit (Nat.le_refl _) (fun _ _ => by decide)
      (fun h => absurd h (Nat.lt_irrefl _))).1, List.take_of_length_le (by simp), Message.fragments]
    change (List.range m.count).map m.fragment = _
    rw [hcount]
    rfl
  exact getMessage_signbusIoSend (by decide) (fun _ _ _ => by decide) hsent
    (.extra ⟨_, rfl, by decide⟩ (.own .nil))

end Signpost
