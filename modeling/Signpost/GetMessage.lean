/-
`get_message`: the receiving side of `signbus_io_interface.c`.

The port fills `slave_write_buf` and calls `signbus_io_slave_write_callback`,
which copies the received bytes over the start of `packet_buf` and sets
`newpkt`. `get_message` waits for `newpkt.new`, reads a whole `Packet` from
`packet_buf` (so a short packet shows what an earlier one left there) and
copies its payload into the caller's buffer. `getMessageTurn` is one turn of
its loop, with every `size_t` wrapping at 2^32; `getMessage` the loop over
packets that arrive one at a time while it waits.
-/
import Signpost.Packet

namespace Signpost

open Lib

/-- The locals of `get_message` that live from turn to turn. -/
structure GetMessage where
  lengthReceived : UInt32
  messageSequenceNumber : UInt16
  messageSourceAddress : UInt8
  deriving DecidableEq

/-- What the caller's pointers reach: `data`, `*encrypted` and `*src`. -/
structure RecvOut where
  data : Mem UInt8
  encrypted : Bool
  src : UInt8

/-- One `memcpy(data + dst, packet.data, n)`. -/
structure Copy where
  dst : Nat
  n : Nat
  deriving DecidableEq

/-- What one turn of the loop leaves. -/
structure Turn where
  loc : GetMessage
  out : RecvOut
  copy : Option Copy
  done : Bool

/-- The number of bytes a turn copies from a packet with this offset and
more-fragments bit, and whether it ends the message. -/
def copyLength (len : UInt32) (fragmentOffset : UInt16) (moreFragments : Bool) (newLen : UInt8) :
    UInt32 × Bool :=
  let remainder : UInt16 := (len - fragmentOffset.toUInt32).toUInt16
  if moreFragments then
    if fragmentOffset.toUInt32 + maxDataLen > len then (remainder.toUInt32, true)
    else (maxDataLen, false)
  else if fragmentOffset.toUInt32 + (newLen.toUInt32 - sizeofHeader) > len then
    (remainder.toUInt32, true)
  else (newLen.toUInt32 - sizeofHeader, true)

/-- One turn of `get_message`'s loop, on the packet in `packet_buf`. -/
def getMessageTurn (len : UInt32) (packet : Packet) (newLen : UInt8) (loc : GetMessage) (out : RecvOut) :
    Turn :=
  let header := packet.header
  if loc.lengthReceived ≠ 0 ∧
      ¬ (loc.messageSequenceNumber = header.sequenceNumber ∧ loc.messageSourceAddress = header.src) then
    -- Not the first packet, and not of its message: dropped.
    { loc, out, copy := none, done := false }
  else
    let first : Bool := loc.lengthReceived = 0
    let fragmentOffset := htons header.fragmentOffset
    let n := copyLength len fragmentOffset header.flags.isFragment newLen
    { loc :=
        { lengthReceived := loc.lengthReceived + n.1
          messageSequenceNumber := if first then header.sequenceNumber else loc.messageSequenceNumber
          messageSourceAddress := if first then header.src else loc.messageSourceAddress }
      out :=
        { data := out.data.copy fragmentOffset.toNat (packet.data.read 0 n.1.toNat)
          encrypted := if first then header.flags.isEncrypted else out.encrypted
          src := header.src }
      copy := some ⟨fragmentOffset.toNat, n.1.toNat⟩
      done := n.2 }

/-- What `get_message` left behind when it returned. -/
structure Returned where
  lengthReceived : UInt32
  out : RecvOut
  packetBuf : Mem UInt8
  rest : List Bytes

/-- A run of `get_message`: each copy it made, with the received length of
the packet it copied from, and how it returned if it did. -/
structure GetMessageRun where
  copies : List (Copy × Nat)
  returned : Option Returned

/-- The loop, over the packets that arrive while it waits. -/
def getMessageLoop (len : UInt32) :
    Mem UInt8 → GetMessage → RecvOut → List Bytes → GetMessageRun
  | _, _, _, [] => ⟨[], none⟩
  | packetBuf, loc, out, b :: bs =>
    let packetBuf := packetBuf.copy 0 b
    let t := getMessageTurn len (.ofMem packetBuf) (UInt8.ofNat b.length) loc out
    let copies := (t.copy.map fun c => (c, b.length)).toList
    if t.done then ⟨copies, some ⟨t.loc.lengthReceived, t.out, packetBuf, bs⟩⟩
    else
      let run := getMessageLoop len packetBuf t.loc t.out bs
      ⟨copies ++ run.copies, run.returned⟩

/-- `get_message` called with no packet waiting. Its uninitialised locals are
whatever `stack` holds. -/
def getMessage (len : UInt32) (packetBuf : Mem UInt8) (stack : GetMessage) (out : RecvOut)
    (arrivals : List Bytes) : GetMessageRun :=
  getMessageLoop len packetBuf { stack with lengthReceived := 0 } out arrivals

/-! ## The copy length in natural numbers -/

/-- The payload length a turn goes by: `MAX_DATA_LEN`, or what the received
length leaves past a header, wrapped when it is shorter than one. -/
def payloadLength (moreFragments : Bool) (newLen : UInt8) : Nat :=
  if moreFragments then 247 else (newLen.toNat + (2 ^ 32 - 8)) % 2 ^ 32

theorem toNat_payload (moreFragments : Bool) (newLen : UInt8) :
    (if moreFragments then maxDataLen else newLen.toUInt32 - sizeofHeader).toNat =
      payloadLength moreFragments newLen := by
  unfold payloadLength
  split
  · rfl
  · rw [UInt32.toNat_sub, UInt8.toNat_toUInt32, sizeofHeader_eq, Nat.add_comm]; rfl

theorem toNat_remainder (len : UInt32) (fragmentOffset : UInt16) :
    (len - fragmentOffset.toUInt32).toUInt16.toUInt32.toNat =
      (len.toNat + 2 ^ 32 - fragmentOffset.toNat) % 2 ^ 16 := by
  have := fragmentOffset.toNat_lt
  rw [UInt16.toNat_toUInt32, UInt32.toNat_toUInt16, UInt32.toNat_sub, UInt16.toNat_toUInt32]
  omega

/-- A turn copies the payload, or the room behind the offset (as a `uint16_t`)
when the two do not fit. -/
theorem copyLength_eq (len : UInt32) (fragmentOffset : UInt16) (moreFragments : Bool) (newLen : UInt8) :
    (copyLength len fragmentOffset moreFragments newLen).1.toNat =
        (if len.toNat < (fragmentOffset.toNat + payloadLength moreFragments newLen) % 2 ^ 32 then
          (len.toNat + 2 ^ 32 - fragmentOffset.toNat) % 2 ^ 16
        else payloadLength moreFragments newLen) ∧
      (copyLength len fragmentOffset moreFragments newLen).2 =
        (!moreFragments || decide (len.toNat < (fragmentOffset.toNat + payloadLength moreFragments newLen)
          % 2 ^ 32)) := by
  have hp := toNat_payload moreFragments newLen
  have hr := toNat_remainder len fragmentOffset
  simp only [copyLength, gt_iff_lt, UInt32.lt_iff_toNat_lt, UInt32.toNat_add, UInt16.toNat_toUInt32]
  cases moreFragments with
  | true =>
    simp only [if_true] at hp
    rw [if_pos rfl, hp]
    split
    · next h => exact ⟨hr, (decide_eq_true h).symm⟩
    · next h => exact ⟨hp, (decide_eq_false h).symm⟩
  | false =>
    simp only [Bool.false_eq_true, if_false] at hp
    rw [if_neg Bool.false_ne_true, hp]
    split
    · next h => exact ⟨hr, rfl⟩
    · next h => exact ⟨hp, rfl⟩

/-! ## Keys -/

/-- The (source, sequence number) pair in a packet's bytes. -/
def packetKey : Bytes → Option (UInt8 × UInt16)
  | _ :: src :: lo :: hi :: _ => some (src, htons (ofLe16 lo hi))
  | _ => none

/-- A packet that carries another pair than `key`. -/
def Foreign (key : UInt8 × UInt16) (b : Bytes) : Prop := ∃ k, packetKey b = some k ∧ k ≠ key

/-- A packet's key is the one read from `packet_buf` after it arrived. -/
theorem header_of_packetKey {b : Bytes} {k : UInt8 × UInt16} (hb : packetKey b = some k) (pb : Mem UInt8) :
    (Packet.ofMem (pb.copy 0 b)).header.src = k.1 ∧
      (Packet.ofMem (pb.copy 0 b)).header.sequenceNumber = htons k.2 := by
  match b with
  | _ :: src :: lo :: hi :: _ =>
    simp only [packetKey, Option.some.injEq] at hb
    subst hb
    simp [Packet.ofMem, NetworkHeader.ofMem, Mem.copy]
  | [] | [_] | [_, _] | [_, _, _] => simp [packetKey] at hb

theorem getMessageTurn_foreign {len : UInt32} {pb : Mem UInt8} {b : Bytes} {newLen : UInt8}
    {loc : GetMessage} {out : RecvOut} {key : UInt8 × UInt16} (hbegun : loc.lengthReceived ≠ 0)
    (hseq : loc.messageSequenceNumber = htons key.2) (hsrc : loc.messageSourceAddress = key.1)
    (hb : Foreign key b) :
    getMessageTurn len (.ofMem (pb.copy 0 b)) newLen loc out =
      { loc, out, copy := none, done := false } := by
  obtain ⟨k, hk, hne⟩ := hb
  obtain ⟨h1, h2⟩ := header_of_packetKey hk pb
  rw [getMessageTurn, if_pos]
  refine ⟨hbegun, fun ⟨hs, ha⟩ => hne (Prod.ext ?_ ?_)⟩
  · rw [← h1, ← ha, hsrc]
  · rw [← htons_inj, ← h2, ← hs, hseq]

end Signpost
