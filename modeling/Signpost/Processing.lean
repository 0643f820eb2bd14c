/-
The messages of the processing API: the requests of `signpost_processing_init`,
`signpost_processing_oneway_send` and `signpost_processing_twoway_send`, which
put a length and a CRC before a buffer byte by byte, and
`signpost_processing_twoway_receive`, which takes the two as words.

`CRC16_Calc` is a parameter.

The high bytes of both words are a comparison where a shift is meant, and one of
the three requests leaves out two bytes of its buffer, so whether a request is
what the other side reads depends on its length and on the CRC.
-/
import Signpost.Api
import Signpost.Strings

namespace Signpost

open Lib

/-- `CRC16_Calc`, of the bytes it reads and its initial value. -/
abbrev Crc16 := Bytes → UInt16 → UInt16

/-! ## Requests -/

/-- `(x & 0xff00) > 8`, which stands in the header for `x >> 8`. -/
def headerHigh (x : UInt16) : UInt8 := if x &&& 0xff00 > 8 then 1 else 0

/-- The buffer that the three functions fill: a header, and `len` bytes of `buf`. -/
def processingBuffer (crc16 : Crc16) (buf : Mem UInt8) (len : UInt16) : Bytes :=
  let crc := crc16 (buf.read 0 len.toNat) 0xFFFF
  [(len &&& 0xff).toUInt8, headerHigh len, (crc &&& 0xff).toUInt8, headerHigh crc] ++ buf.read 0 len.toNat

/-- What `signpost_processing_init` sends. -/
def signpostProcessingInitMessage (crc16 : Crc16) (path : Bytes) : Bytes :=
  let size := UInt16.ofNat (cstr path).length
  (processingBuffer crc16 (.ofList path 0) size).take (size.toNat + 4)

/-- What `signpost_processing_oneway_send` sends. -/
def signpostProcessingOnewaySendMessage (crc16 : Crc16) (buf : Mem UInt8) (len : UInt16) : Bytes :=
  (processingBuffer crc16 buf len).take (len.toNat + 2)

/-- What `signpost_processing_twoway_send` sends. -/
def signpostProcessingTwowaySendMessage (crc16 : Crc16) (buf : Mem UInt8) (len : UInt16) : Bytes :=
  (processingBuffer crc16 buf len).take (len.toNat + 4)

inductive ProcessingCall
  | init (path : Bytes)
  | onewaySend (buf : Mem UInt8) (len : UInt16)
  | twowaySend (buf : Mem UInt8) (len : UInt16)

namespace ProcessingCall

def message (crc16 : Crc16) : ProcessingCall → Bytes
  | init path => signpostProcessingInitMessage crc16 path
  | onewaySend buf len => signpostProcessingOnewaySendMessage crc16 buf len
  | twowaySend buf len => signpostProcessingTwowaySendMessage crc16 buf len

def buffer : ProcessingCall → Bytes
  | init path => cstr path
  | onewaySend buf len => buf.read 0 len.toNat
  | twowaySend buf len => buf.read 0 len.toNat

def IsOneway : ProcessingCall → Prop
  | onewaySend .. => True
  | _ => False

end ProcessingCall

/-! ## The response -/

def processingSizeError : Int := 2

def processingCRCError : Int := 3

/-- `signpost_processing_twoway_receive`, with what it leaves in `buf` and `len`. -/
def signpostProcessingTwowayReceive (crc16 : Crc16) (incoming : Parsed) (buf : Mem UInt8) (len : UInt16) :
    Int × Mem UInt8 × UInt16 :=
  let size := ofLe16 (incoming.message 0) (incoming.message 1)
  let crc := ofLe16 (incoming.message 2) (incoming.message 3)
  if size.toUInt32 ≠ incoming.messageLength - 4 then (processingSizeError, buf, len)
  else if crc ≠ crc16 (incoming.message.read 4 size.toNat) 0xFFFF then (processingCRCError, buf, len)
  else (processingSuccess, buf.copy 0 (incoming.message.read 4 size.toNat), size)

structure Parsed.Holds (incoming : Parsed) (message : Bytes) : Prop where
  length : incoming.messageLength.toNat = message.length
  read : incoming.message.read 0 message.length = message

/-- The format: length, CRC and the whole buffer. -/
def processingFrame (crc16 : Crc16) (data : Bytes) : Bytes :=
  le16 (UInt16.ofNat data.length) ++ le16 (crc16 data 0xFFFF) ++ data

theorem length_processingFrame (crc16 : Crc16) (data : Bytes) :
    (processingFrame crc16 data).length = data.length + 4 := by
  simp [processingFrame, le16]

namespace ProcessingCall

/-- The message is in the format, and the buffer is what is received of it. -/
structure RoundTrips (crc16 : Crc16) (call : ProcessingCall) : Prop where
  framed : call.message crc16 = processingFrame crc16 call.buffer
  received : ∀ (incoming : Parsed) (buf : Mem UInt8) (len : UInt16), incoming.Holds (call.message crc16) →
    signpostProcessingTwowayReceive crc16 incoming buf len =
      (processingSuccess, buf.copy 0 call.buffer, UInt16.ofNat call.buffer.length)

/-- All of the message is sent, and the high bytes of its length and its CRC are zero or one. -/
structure HighBytes (crc16 : Crc16) (call : ProcessingCall) : Prop where
  whole : ¬ call.IsOneway
  length : call.buffer.length < 512
  crc : (crc16 call.buffer 0xFFFF).toNat < 512

end ProcessingCall

variable {crc16 : Crc16}

/-! ### What is received is in the format -/

/-- Memory is in the format when its length and its CRC are those of what is behind them. -/
theorem read_eq_processingFrame_iff {m : Mem UInt8} {data : Bytes} :
    m.read 0 (2 + (2 + data.length)) = processingFrame crc16 data ↔
      ofLe16 (m 0) (m 1) = UInt16.ofNat data.length ∧ ofLe16 (m 2) (m 3) = crc16 data 0xFFFF ∧
        m.read 4 data.length = data := by
  have hcrc : m.read 2 (2 + data.length) = m.read 2 2 ++ m.read 4 data.length := Mem.read_add ..
  rw [Mem.read_add, hcrc, processingFrame, List.append_assoc]
  constructor
  · intro h
    obtain ⟨hsize, h⟩ := List.append_inj h rfl
    obtain ⟨hcrc, hdata⟩ := List.append_inj h rfl
    exact ⟨read_two_eq_le16.mp hsize, read_two_eq_le16.mp hcrc, hdata⟩
  · rintro ⟨hsize, hcrc, hdata⟩
    rw [read_two_eq_le16.mpr hsize, read_two_eq_le16.mpr hcrc, hdata]

section
variable {incoming : Parsed} {buf : Mem UInt8} {len : UInt16} {data message : Bytes}

theorem signpostProcessingTwowayReceive_eq_iff (hdata : data.length < 2 ^ 16) :
    signpostProcessingTwowayReceive crc16 incoming buf len =
        (processingSuccess, buf.copy 0 data, UInt16.ofNat data.length) ↔
      incoming.messageLength = UInt32.ofNat (data.length + 4) ∧
        incoming.message.read 0 (2 + (2 + data.length)) = processingFrame crc16 data := by
  have hlen : (UInt16.ofNat data.length).toNat = data.length := UInt16.toNat_ofNat_of_lt' hdata
  have hlength : ∀ n : UInt32, (UInt16.ofNat data.length).toUInt32 = n - 4 ↔
      n = UInt32.ofNat (data.length + 4) := by
    intro n
    have hword : UInt32.ofNat (data.length + 4) = (UInt16.ofNat data.length).toUInt32 + 4 := by
      refine UInt32.toNat_inj.mp ?_
      rw [UInt32.toNat_add, UInt16.toNat_toUInt32, hlen, UInt32.toNat_ofNat']
      rfl
    rw [hword]
    exact ⟨fun h => by rw [h, UInt32.sub_add_cancel], fun h => by rw [h, UInt32.add_sub_cancel]⟩
  rw [read_eq_processingFrame_iff, ← hlength, signpostProcessingTwowayReceive]
  generalize ofLe16 (incoming.message 0) (incoming.message 1) = size
  generalize ofLe16 (incoming.message 2) (incoming.message 3) = crc
  constructor
  · intro h
    split_ifs at h with hsize hcrc
    · exact absurd (Prod.mk.inj h).1 (by decide)
    · exact absurd (Prod.mk.inj h).1 (by decide)
    · obtain ⟨hcopy, rfl⟩ := Prod.mk.inj (Prod.mk.inj h).2
      rw [hlen] at hcopy hcrc
      have hread := (Mem.copy_inj (by simp)).mp hcopy
      rw [hread] at hcrc
      exact ⟨not_not.mp hsize, rfl, not_not.mp hcrc, hread⟩
  · rintro ⟨hsize, rfl, hcrc, hread⟩
    simp only [hlen, hread]
    rw [if_neg (not_not.mpr hsize), if_neg (not_not.mpr hcrc)]

theorem received_iff_framed (hdata : data.length < 2 ^ 16) (hheld : incoming.Holds message) :
    signpostProcessingTwowayReceive crc16 incoming buf len =
        (processingSuccess, buf.copy 0 data, UInt16.ofNat data.length) ↔
      message = processingFrame crc16 data := by
  rw [signpostProcessingTwowayReceive_eq_iff hdata]
  have hfour : 2 + (2 + data.length) = data.length + 4 := by omega
  constructor
  · rintro ⟨hlength, hread⟩
    have hmessage := hheld.length
    rw [hlength, UInt32.toNat_ofNat_of_lt' (by simp [UInt32.size]; omega)] at hmessage
    rw [← hread, hfour, hmessage, hheld.read]
  · rintro rfl
    have hlength := hheld.length
    have hread := hheld.read
    rw [length_processingFrame] at hlength hread
    exact ⟨by rw [← hlength, UInt32.ofNat_toNat], by rw [hfour, hread]⟩

end

/-! ### What is sent -/

theorem headerHigh_eq_iff (x : UInt16) : headerHigh x = (x >>> 8).toUInt8 ↔ x.toNat < 512 := by
  have hx := x.toNat_lt
  have hmask : x &&& (0xff00 : UInt16) = (x >>> 8) <<< 8 := by
    refine uint16_ext fun i hi => ?_
    rcases lt_sixteen_cases hi with rfl | rfl | rfl | rfl | rfl | rfl | rfl | rfl | rfl | rfl | rfl |
      rfl | rfl | rfl | rfl | rfl <;> simp
  have hshift : (x >>> 8).toNat = x.toNat / 256 := by simp [Nat.shiftRight_eq_div_pow]
  have hhigh : ((x >>> 8).toUInt8).toNat = x.toNat / 256 := by
    rw [UInt16.toNat_toUInt8, hshift]
    omega
  have hmasked : (x &&& (0xff00 : UInt16)).toNat = x.toNat / 256 * 256 := by
    rw [hmask, UInt16.toNat_shiftLeft, hshift]
    simp [Nat.shiftLeft_eq]
    omega
  have hcond : (x &&& 0xff00 : UInt16) > 8 ↔ 256 ≤ x.toNat := by
    rw [gt_iff_lt, UInt16.lt_iff_toNat_lt, hmasked]
    simp
    omega
  rw [← UInt8.toNat_inj, hhigh, headerHigh]
  split_ifs with h
  · rw [hcond] at h
    simp
    omega
  · rw [hcond] at h
    simp
    omega

theorem length_processingBuffer (buf : Mem UInt8) (len : UInt16) :
    (processingBuffer crc16 buf len).length = len.toNat + 4 := by
  rw [processingBuffer, List.length_append, Mem.length_read, Nat.add_comm]
  rfl

theorem processingBuffer_eq_iff {buf : Mem UInt8} {len : UInt16} {data : Bytes} (hread : buf.read 0 len.toNat = data) :
    processingBuffer crc16 buf len = processingFrame crc16 data ↔
      data.length < 512 ∧ (crc16 data 0xFFFF).toNat < 512 := by
  have hlow : ∀ x : UInt16, (x &&& 0xff).toUInt8 = x.toUInt8 := fun x => by
    refine UInt8.toNat_inj.mp ?_
    rw [UInt16.toNat_toUInt8, UInt16.toNat_toUInt8, UInt16.toNat_and]
    exact (Nat.and_two_pow_sub_one_eq_mod x.toNat 8).symm ▸ Nat.mod_mod ..
  have hlength : len.toNat = data.length := by rw [← hread, Mem.length_read]
  have hlen : len = UInt16.ofNat data.length := by rw [← hlength, UInt16.ofNat_toNat]
  rw [← hlength, ← headerHigh_eq_iff, ← headerHigh_eq_iff]
  simp [processingBuffer, processingFrame, le16, hlow, hread, ← hlen]

theorem read_cstr (path : Bytes) : (Mem.ofList path 0).read 0 (cstr path).length = cstr path := by
  have hle := length_cstr_le path
  have htake : cstr path = path.take (cstr path).length := List.prefix_iff_eq_take.mp (List.takeWhile_prefix _)
  have hread := Mem.take_read (.ofList path 0) 0 (cstr path).length path.length
  rw [Mem.read_ofList, Nat.min_eq_left hle, ← htake] at hread
  exact hread.symm

namespace ProcessingCall

theorem highBytes_iff {call : ProcessingCall} (h : ¬ call.IsOneway) :
    call.HighBytes crc16 ↔ call.buffer.length < 512 ∧ (crc16 call.buffer 0xFFFF).toNat < 512 :=
  ⟨fun hbytes => ⟨hbytes.length, hbytes.crc⟩, fun hbytes => ⟨h, hbytes.1, hbytes.2⟩⟩

theorem onewaySend_not_framed (buf : Mem UInt8) (len : UInt16) (data : Bytes) (h : data.length = len.toNat) :
    (onewaySend buf len).message crc16 ≠ processingFrame crc16 data := by
  intro hframe
  have hlength := congrArg List.length hframe
  rw [length_processingFrame, message, signpostProcessingOnewaySendMessage, List.length_take,
    length_processingBuffer] at hlength
  omega

theorem framed_iff {call : ProcessingCall} (h : call.buffer.length ≤ 960) :
    call.message crc16 = processingFrame crc16 call.buffer ↔ call.HighBytes crc16 := by
  cases call with
  | init path =>
    have hlen : (UInt16.ofNat (cstr path).length).toNat = (cstr path).length :=
      UInt16.toNat_ofNat_of_lt' (Nat.lt_of_le_of_lt h (by decide))
    have hread : (Mem.ofList path 0).read 0 (UInt16.ofNat (cstr path).length).toNat = (init path).buffer := by
      rw [hlen]
      exact read_cstr path
    have hmessage : (init path).message crc16 =
        processingBuffer crc16 (.ofList path 0) (UInt16.ofNat (cstr path).length) :=
      List.take_of_length_le (length_processingBuffer _ _).le
    rw [hmessage]
    exact (processingBuffer_eq_iff hread).trans (highBytes_iff id).symm
  | onewaySend buf len =>
    exact ⟨fun hframe => absurd hframe (onewaySend_not_framed buf len _ (Mem.length_read ..)),
      fun hbytes => absurd trivial hbytes.whole⟩
  | twowaySend buf len =>
    have hmessage : (twowaySend buf len).message crc16 = processingBuffer crc16 buf len :=
      List.take_of_length_le (length_processingBuffer _ _).le
    have hread : buf.read 0 len.toNat = (twowaySend buf len).buffer := rfl
    rw [hmessage]
    exact (processingBuffer_eq_iff hread).trans (highBytes_iff id).symm

/-- **The round trip of the processing messages.** A buffer of at most 960 bytes
comes back of its message exactly if neither its end nor a high byte is lost. -/
theorem round_trips_iff {call : ProcessingCall} (h : call.buffer.length ≤ 960) :
    call.RoundTrips crc16 ↔ call.HighBytes crc16 := by
  rw [← framed_iff h]
  refine ⟨RoundTrips.framed, fun hframe => ⟨hframe, fun incoming buf len hheld => ?_⟩⟩
  exact (received_iff_framed (Nat.lt_of_le_of_lt h (by decide)) hheld).mpr hframe

/-! ### With the CRC of the repository -/

end ProcessingCall

/-- `CRC16_POLYNOM` -/
def crc16Polynom : UInt16 := 0x8408

/-- One round of the inner loop of `CRC16_Calc`, with `byte` and `crc`. -/
def crc16Bit : UInt8 × UInt16 → UInt8 × UInt16 := fun (byte, crc) =>
  (byte >>> 1, if (byte &&& 1).toUInt16 ^^^ (crc &&& 1) ≠ 0 then (crc >>> 1) ^^^ crc16Polynom else crc >>> 1)

/-- `CRC16_Calc`, as it is without its table. -/
def crc16Calc : Crc16 := fun data initVal => data.foldl (fun crc byte => (crc16Bit^[8] (byte, crc)).2) initVal

namespace ProcessingCall

theorem round_trips_iff_byte :
    (twowaySend (.ofList [0xEE] 0) 1).buffer.length ≤ 960 ∧
      (twowaySend (.ofList [0xEE] 0) 1).RoundTrips crc16Calc :=
  ⟨by decide, (round_trips_iff (by decide)).mpr ⟨id, by decide, by decide⟩⟩

/-- A letter, sent in both ways. -/
theorem letter_not_returned :
    ¬ (onewaySend (.ofList [0x41] 0) 1).RoundTrips crc16Calc ∧
      ¬ (twowaySend (.ofList [0x41] 0) 1).RoundTrips crc16Calc :=
  ⟨fun h => onewaySend_not_framed _ _ _ rfl h.framed, fun h => absurd h.framed (by decide)⟩

end ProcessingCall

end Signpost
