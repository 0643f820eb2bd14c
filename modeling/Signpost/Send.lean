/-
`signbus_io_send`, and what it puts on the bus.

The C loop keeps `toSend`, the bytes still to go, and reuses one `Packet`
whose header fields it rewrites. `Message` is what such a send means: the
sender, its sequence number, and the bytes, cut into `count` fragments of at
most 247 (`MAX_DATA_LEN`). `signbusIoSend_packets` says the packets of the
loop are exactly those fragments, up to the first write the port refuses.
-/
import Signpost.Packet

namespace Signpost

open Lib

/-- The statics the send path keeps: this device's address and the sequence
number of its last message. -/
structure Device where
  thisDeviceAddress : UInt8
  sequenceNumber : UInt16
  deriving DecidableEq

/-- `port_signpost_i2c_master_write`: the code its `k`-th call in a send
returns, for the destination and the bytes it is given. -/
abbrev MasterWrite := Nat → UInt8 → Bytes → Int

theorem maxDataLen_lt {toSend : UInt32} : maxDataLen < toSend ↔ 247 < toSend.toNat := by
  rw [UInt32.lt_iff_toNat_lt]; rfl

theorem toNat_sub_maxDataLen {toSend : UInt32} (h : 247 < toSend.toNat) :
    (toSend - maxDataLen).toNat = toSend.toNat - 247 := by
  have hle : maxDataLen ≤ toSend := UInt32.le_iff_toNat_le.mpr (Nat.le_of_lt (show (247 : Nat) < _ from h))
  rw [UInt32.toNat_sub_of_le _ _ hle]
  rfl

theorem sendLoop_decreasing {toSend : UInt32} (h : 0 < toSend) :
    (toSend - if toSend > maxDataLen then maxDataLen else toSend).toNat < toSend.toNat := by
  have hpos : 0 < toSend.toNat := UInt32.lt_iff_toNat_lt.mp h
  split
  · next hm => rw [toNat_sub_maxDataLen (maxDataLen_lt.mp hm)]; omega
  · rwa [UInt32.sub_self]

/-- The `while` loop of `signbus_io_send`: the packets the port took, in
order, and the code returned. -/
def sendLoop (write : MasterWrite) (dest : UInt8) (data : Mem UInt8) (len : UInt32) (packet : Packet)
    (toSend : UInt32) (k : Nat) : List Bytes × Int :=
  if _h : 0 < toSend then
    let morePackets : Bool := toSend > maxDataLen
    let offset : UInt16 := (len - toSend).toUInt16
    -- Both branches of the source copy, write and subtract the same count.
    let n := if toSend > maxDataLen then maxDataLen else toSend
    let packet : Packet :=
      { header := packet.header.setFragment morePackets offset
        data := packet.data.copy 0 (data.read offset.toNat n.toNat) }
    let bytes := packet.bytes n.toNat
    let rc := write k dest bytes
    if rc < 0 then ([], rc)
    else
      let rest := sendLoop write dest data len packet (toSend - n) (k + 1)
      (bytes :: rest.1, rest.2)
  else ([], toInt len)
termination_by toSend.toNat
decreasing_by exact sendLoop_decreasing _h

structure Sent where
  device : Device
  packets : List Bytes
  rc : Int

def signbusIoSend (write : MasterWrite) (d : Device) (dest : UInt8) (encrypted : Bool) (data : Mem UInt8)
    (len : UInt32) : Sent :=
  let sequenceNumber := d.sequenceNumber + 1
  let numPackets : UInt16 :=
    if len % maxDataLen ≠ 0 then (len / maxDataLen + 1).toUInt16 else (len / maxDataLen).toUInt16
  let packet : Packet :=
    { header :=
        { flags := { isFragment := false, isEncrypted := encrypted, rsvWireBit5 := false,
                     rsvWireBit4 := false, version := sentVersion }
          src := d.thisDeviceAddress
          sequenceNumber := htons sequenceNumber
          length := htons (numPackets.toUInt32 * sizeofHeader + len).toUInt16
          fragmentOffset := 0 }
      data := fun _ => 0 }
  let out := sendLoop write dest data len packet len 0
  { device := { d with sequenceNumber }, packets := out.1, rc := out.2 }

/-! ## Messages -/

/-- A message on the bus: who sent it, under which sequence number, and what. -/
structure Message where
  src : UInt8
  seq : UInt16
  encrypted : Bool
  data : Bytes
  deriving DecidableEq

namespace Message

variable (m : Message)

def count : Nat := (m.data.length + 246) / 247

/-- Every fragment offset fits its 16-bit header field. -/
def Fits : Prop := m.data.length ≤ 266 * 247

/-- What the headers of its fragments share. -/
def baseHeader : NetworkHeader where
  flags := { isFragment := false, isEncrypted := m.encrypted, rsvWireBit5 := false, rsvWireBit4 := false,
             version := sentVersion }
  src := m.src
  sequenceNumber := htons m.seq
  length := htons (UInt16.ofNat (8 * m.count + m.data.length))
  fragmentOffset := 0

/-- The header of fragment `i`. -/
def header (i : Nat) : NetworkHeader :=
  m.baseHeader.setFragment (decide (247 * (i + 1) < m.data.length)) (UInt16.ofNat (247 * i))

/-- The payload of fragment `i`. -/
def chunk (i : Nat) : Bytes := (m.data.drop (247 * i)).take 247

/-- Fragment `i` as bytes on the bus. -/
def fragment (i : Nat) : Bytes := (m.header i).bytes ++ m.chunk i

def fragments : List Bytes := (List.range m.count).map m.fragment

variable {m}

theorem lt_count {i : Nat} : i < m.count ↔ 247 * i < m.data.length := by
  unfold count; omega

theorem Fits.offset_lt (h : m.Fits) {i : Nat} (hi : i < m.count) : 247 * i < 2 ^ 16 := by
  have := lt_count.mp hi
  unfold Fits at h; omega

theorem length_chunk (i : Nat) : (m.chunk i).length = min 247 (m.data.length - 247 * i) := by
  simp [chunk]

@[simp] theorem length_fragments : m.fragments.length = m.count := by simp [fragments]

theorem drop_fragments {i : Nat} (h : i < m.count) :
    m.fragments.drop i = m.fragment i :: m.fragments.drop (i + 1) := by
  rw [List.drop_eq_getElem_cons (by simpa using h)]
  simp [fragments]

end Message

/-! ## The loop sends the fragments -/

/-- A header of `m`, up to what the loop rewrites each turn. -/
def HeaderOf (m : Message) (h : NetworkHeader) : Prop :=
  ∀ more offset, h.setFragment more offset = m.baseHeader.setFragment more offset

section
variable {m : Message} (write : MasterWrite) (dest : UInt8) {data : Mem UInt8} {len : UInt32}

theorem chunk_eq_read (hdata : data.read 0 len.toNat = m.data) (hlen : len.toNat = m.data.length) {i : Nat}
    (hi : i < m.count) : m.chunk i = data.read (247 * i) (min 247 (m.data.length - 247 * i)) := by
  have := Message.lt_count.mp hi
  rw [Message.chunk]
  conv_lhs => rw [← hdata]
  rw [Mem.drop_read (by omega), Mem.take_read, hlen, Nat.zero_add]

/-- One turn of the loop builds fragment `i`. -/
theorem sendLoop_turn (hfit : m.Fits) (hlen : len.toNat = m.data.length)
    (hdata : data.read 0 len.toNat = m.data) {packet : Packet} (hp : HeaderOf m packet.header)
    {toSend : UInt32} {i : Nat} (hi : i < m.count) (hto : toSend.toNat = m.data.length - 247 * i) :
    ∃ packet' toSend', HeaderOf m packet'.header ∧ toSend'.toNat = m.data.length - 247 * (i + 1) ∧
      sendLoop write dest data len packet toSend i =
        if write i dest (m.fragment i) < 0 then ([], write i dest (m.fragment i))
        else
          let rest := sendLoop write dest data len packet' toSend' (i + 1)
          (m.fragment i :: rest.1, rest.2) := by
  have hlt := Message.lt_count.mp hi
  have hoff := hfit.offset_lt hi
  have hpos : 0 < toSend := UInt32.lt_iff_toNat_lt.mpr (by simp; omega)
  have hoffset : (len - toSend).toUInt16 = UInt16.ofNat (247 * i) := by
    refine UInt16.toNat_inj.mp ?_
    have hle : toSend ≤ len := UInt32.le_iff_toNat_le.mpr (by omega)
    rw [UInt32.toNat_toUInt16, UInt32.toNat_sub_of_le _ _ hle, UInt16.toNat_ofNat']
    congr 1; omega
  have hoffsetNat : (UInt16.ofNat (247 * i)).toNat = 247 * i := by
    rw [UInt16.toNat_ofNat']; exact Nat.mod_eq_of_lt hoff
  have hmore : decide (toSend > maxDataLen) = decide (247 * (i + 1) < m.data.length) := by
    rw [decide_eq_decide, gt_iff_lt, maxDataLen_lt]; omega
  have hn : (if toSend > maxDataLen then maxDataLen else toSend).toNat =
      min 247 (m.data.length - 247 * i) := by
    split
    · next h => have := maxDataLen_lt.mp h; rw [maxDataLen_eq]; simp; omega
    · next h => rw [gt_iff_lt, maxDataLen_lt] at h; omega
  have hheader : packet.header.setFragment (decide (toSend > maxDataLen)) (len - toSend).toUInt16 =
      m.header i := by
    rw [hp, hmore, hoffset]; rfl
  have hbytes : (Packet.mk (m.header i) (packet.data.copy 0 (data.read (247 * i)
      (min 247 (m.data.length - 247 * i))))).bytes (min 247 (m.data.length - 247 * i)) = m.fragment i := by
    have hread := Mem.read_copy packet.data 0 (data.read (247 * i) (min 247 (m.data.length - 247 * i)))
    rw [Mem.length_read] at hread
    rw [Packet.bytes, hread, Message.fragment, chunk_eq_read hdata hlen hi]
  refine ⟨⟨m.header i, packet.data.copy 0 (m.chunk i)⟩,
    toSend - if toSend > maxDataLen then maxDataLen else toSend, fun _ _ => rfl, ?_, ?_⟩
  · have hle : (if toSend > maxDataLen then maxDataLen else toSend) ≤ toSend :=
      UInt32.le_iff_toNat_le.mpr (by omega)
    rw [UInt32.toNat_sub_of_le _ _ hle]; omega
  · rw [sendLoop, dif_pos hpos]
    simp only [hheader]
    simp only [hoffset, hoffsetNat, hn, hbytes, chunk_eq_read hdata hlen hi]

theorem sendLoop_packets (hfit : m.Fits) (hlen : len.toNat = m.data.length)
    (hdata : data.read 0 len.toNat = m.data) {k : Nat} (hk : k ≤ m.count)
    (hok : ∀ j < k, 0 ≤ write j dest (m.fragment j))
    (hstop : k < m.count → write k dest (m.fragment k) < 0) :
    ∀ (n i : Nat) (packet : Packet) (toSend : UInt32), i + n = k → HeaderOf m packet.header →
      toSend.toNat = m.data.length - 247 * i →
      sendLoop write dest data len packet toSend i =
        ((m.fragments.take k).drop i, if k < m.count then write k dest (m.fragment k) else toInt len) := by
  intro n
  induction n with
  | zero =>
    intro i packet toSend hik hp hto
    obtain rfl : i = k := hik
    have hnil : (m.fragments.take i).drop i = [] := List.drop_eq_nil_of_le (List.length_take_le ..)
    by_cases hlt : i < m.count
    · obtain ⟨_, _, _, _, hs⟩ := sendLoop_turn write dest hfit hlen hdata hp hlt hto
      rw [hs, if_pos (hstop hlt), if_pos hlt, hnil]
    · have hz : ¬ 0 < toSend := by
        rw [UInt32.lt_iff_toNat_lt, hto]
        have := mt Message.lt_count.mpr hlt
        simp; omega
      rw [sendLoop, dif_neg hz, if_neg hlt, hnil]
  | succ n ih =>
    intro i packet toSend hik hp hto
    have hlt : i < m.count := by omega
    obtain ⟨packet', toSend', hp', hto', hs⟩ :=
      sendLoop_turn write dest hfit hlen hdata hp hlt hto
    rw [hs, if_neg (by have := hok i (by omega); omega), ih (i + 1) packet' toSend' (by omega) hp' hto']
    have hlt' : i < (m.fragments.take k).length := by simp; omega
    rw [List.drop_eq_getElem_cons hlt']
    simp [Message.fragments]

end

theorem numPackets_eq {len : UInt32} (h : len.toNat ≤ 266 * 247) :
    (if len % maxDataLen ≠ 0 then (len / maxDataLen + 1).toUInt16
      else (len / maxDataLen).toUInt16).toNat = (len.toNat + 246) / 247 := by
  have hz : len % maxDataLen ≠ 0 ↔ len.toNat % 247 ≠ 0 := by
    rw [Ne, ← UInt32.toNat_inj, UInt32.toNat_mod]; rfl
  have hd : (len / maxDataLen).toNat = len.toNat / 247 := UInt32.toNat_div ..
  simp only [hz]
  split
  · rw [UInt32.toNat_toUInt16, UInt32.toNat_add, hd]; simp; omega
  · rw [UInt32.toNat_toUInt16, hd]; simp; omega

/-- The message a call of `signbus_io_send` is for. -/
def Message.ofSend (d : Device) (encrypted : Bool) (data : Mem UInt8) (len : UInt32) : Message where
  src := d.thisDeviceAddress
  seq := d.sequenceNumber + 1
  encrypted := encrypted
  data := data.read 0 len.toNat

/-- **What `signbus_io_send` puts on the bus**: the fragments of its message,
in order, up to the first write the port refuses; it returns that refusal, or
the length when there is none. -/
theorem signbusIoSend_packets (write : MasterWrite) (dest : UInt8) {d : Device} {encrypted : Bool}
    {data : Mem UInt8} {len : UInt32} {k : Nat} (hfit : (Message.ofSend d encrypted data len).Fits)
    (hk : k ≤ (Message.ofSend d encrypted data len).count)
    (hok : ∀ j < k, 0 ≤ write j dest ((Message.ofSend d encrypted data len).fragment j))
    (hstop : k < (Message.ofSend d encrypted data len).count →
      write k dest ((Message.ofSend d encrypted data len).fragment k) < 0) :
    (signbusIoSend write d dest encrypted data len).packets =
      (Message.ofSend d encrypted data len).fragments.take k ∧
    (signbusIoSend write d dest encrypted data len).rc =
      if k < (Message.ofSend d encrypted data len).count then
        write k dest ((Message.ofSend d encrypted data len).fragment k) else toInt len := by
  have hlen : len.toNat = (Message.ofSend d encrypted data len).data.length := by simp [Message.ofSend]
  have hs := fun p hp => sendLoop_packets write dest hfit hlen rfl hk hok hstop k 0 p len
    (by omega) hp (by omega)
  simp only [signbusIoSend]
  rw [hs]
  · exact ⟨rfl, rfl⟩
  · intro more offset
    simp only [NetworkHeader.setFragment, Message.baseHeader, Message.ofSend, NetworkHeader.mk.injEq,
      and_true, true_and, htons_inj]
    refine UInt16.toNat_inj.mp ?_
    have hf : len.toNat ≤ 266 * 247 := Nat.le_trans (Nat.le_of_eq hlen) hfit
    rw [UInt32.toNat_toUInt16, UInt32.toNat_add, UInt32.toNat_mul, UInt16.toNat_toUInt32,
      numPackets_eq hf, UInt16.toNat_ofNat', sizeofHeader_eq]
    simp [Message.count]
    omega

/-- The first of `n` writes that is refused, or `n`. -/
theorem exists_first_refused (rc : Nat → Int) (n : Nat) :
    ∃ k ≤ n, (∀ j < k, 0 ≤ rc j) ∧ (k < n → rc k < 0) := by
  induction n with
  | zero => exact ⟨0, Nat.le_refl 0, by simp, by simp⟩
  | succ n ih =>
    obtain ⟨k, hk, hok, hstop⟩ := ih
    rcases Nat.lt_or_eq_of_le hk with hlt | rfl
    · exact ⟨k, by omega, hok, fun _ => hstop hlt⟩
    · by_cases hrc : rc k < 0
      · exact ⟨k, by omega, hok, fun _ => hrc⟩
      · refine ⟨k + 1, Nat.le_refl _, fun j hj => ?_, by simp⟩
        rcases Nat.lt_succ_iff_lt_or_eq.mp hj with hj | rfl
        · exact hok j hj
        · exact Int.not_lt.mp hrc

theorem signbusIoSend_ok {write : MasterWrite} {d : Device} {dest : UInt8} {encrypted : Bool}
    {data : Mem UInt8} {len : UInt32} (hfit : (Message.ofSend d encrypted data len).Fits)
    (hrc : 0 ≤ (signbusIoSend write d dest encrypted data len).rc) :
    (signbusIoSend write d dest encrypted data len).packets =
    (Message.ofSend d encrypted data len).fragments := by
  obtain ⟨k, hk, hok, hstop⟩ := exists_first_refused
    (fun j => write j dest ((Message.ofSend d encrypted data len).fragment j))
      (Message.ofSend d encrypted data len).count
  obtain ⟨hp, hr⟩ := signbusIoSend_packets write dest hfit hk hok hstop
  rcases Nat.lt_or_eq_of_le hk with hlt | rfl
  · rw [hr, if_pos hlt] at hrc
    exact absurd hrc (Int.not_le.mpr (hstop hlt))
  · rw [hp, List.take_of_length_le (by simp)]

end Signpost
