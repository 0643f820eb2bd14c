/-
Reads of a slave (`signbus_io_set_read_buffer` and `signbus_iterate_slave_read`)
on the Tock port, and a master that reads as `net.py` does.

The kernel answers a read from the buffer that the port filled; whether it does
so again when it is not set up again is left open (`rearm`). A read that is not
answered stalls. An app does not set another buffer in its read callback.
-/
import Signpost.MbedPort

namespace Signpost

open Lib

namespace SlaveRead

/-- The statics of slave reads, and those of the port. -/
structure Slave where
  device : Device
  bytesRemaining : UInt32
  dataLen : UInt32
  readPacket : Packet
  data : Mem UInt8
  /-- `slave_read_callback` is not `NULL`. -/
  readCallback : Bool
  slaveReadBuf : Mem UInt8
  /-- The kernel answers a read. -/
  slaveReadEnabled : Bool
  port : TockPort.Port

/-- `port_signpost_i2c_slave_read_setup`, of a packet of `PORT_I2C_MAX_LEN` bytes. -/
def Slave.readSetup (s : Slave) (packet : Packet) : Slave where
  device := s.device
  bytesRemaining := s.bytesRemaining
  dataLen := s.dataLen
  readPacket := packet
  data := s.data
  readCallback := s.readCallback
  slaveReadBuf := s.slaveReadBuf.copy 0 (packet.bytes maxDataLen.toNat)
  slaveReadEnabled := true
  port := s.port

/-- The branch of `signbus_iterate_slave_read` with bytes to send. -/
def Slave.prepare (s : Slave) : Slave :=
  let isFragment : Bool := s.bytesRemaining > maxDataLen
  let offset : UInt16 := (s.dataLen - s.bytesRemaining).toUInt16
  let dataLen := if isFragment then maxDataLen else s.bytesRemaining
  { s with bytesRemaining := s.bytesRemaining - dataLen }.readSetup
    { header := s.readPacket.header.setFragment isFragment offset
      data := s.readPacket.data.copy 0 (s.data.read offset.toNat dataLen.toNat) }

/-- `signbus_iterate_slave_read`, with what the read callback is called with. It
is not checked before it is called. -/
def Slave.iterate (s : Slave) : Option (Slave × List Int) :=
  if 0 < s.bytesRemaining then some (s.prepare, [])
  else if s.readCallback = false ∧ 0 < s.dataLen then
    -- The function calls itself, with bytes to send.
    some ({ s with bytesRemaining := s.dataLen }.prepare, [])
  else if s.readCallback then some (s, [0])
  else none

/-- What `signbus_io_set_read_buffer` keeps track of, and the metadata of the packets. -/
def Slave.provide (s : Slave) (data : Mem UInt8) (len : UInt32) : Slave :=
  let sequenceNumber := s.device.sequenceNumber + 1
  let numPackets : UInt16 :=
    if len % maxDataLen ≠ 0 then (len / maxDataLen + 1).toUInt16 else (len / maxDataLen).toUInt16
  let header : NetworkHeader :=
    { s.readPacket.header with
      flags := { s.readPacket.header.flags with version := sentVersion }
      src := s.device.thisDeviceAddress
      sequenceNumber := htons sequenceNumber
      length := htons (numPackets.toUInt32 * sizeofHeader + len).toUInt16 }
  { s with
    device := { s.device with sequenceNumber }
    bytesRemaining := len
    dataLen := len
    data
    readPacket := { s.readPacket with header } }

/-- `signbus_io_set_read_buffer`. The port's `listen` returns `rc`. -/
def Slave.setReadBuffer (s : Slave) (rc : Int) (data : Mem UInt8) (len : UInt32) :
    Option (Slave × Int × List Int) :=
  if rc < 0 then some (s, rc, [])
  else (s.provide data len).iterate.map fun r => (r.1, portSuccess, r.2)

/-- A master reads `n` bytes. The port is called back with a type that it does
not know. -/
def Slave.masterRead (s : Slave) (rearm : Bool) (callbackType : Int) (n : Nat) : Option (Bytes × Slave) :=
  if s.slaveReadEnabled then
    some (s.slaveReadBuf.read 0 n,
      { s with
        slaveReadEnabled := rearm
        port := (TockPort.i2cMasterSlaveCallback s.port (.other callbackType) n).1 })
  else none

/-- `NetworkLayer.MAX_MESSAGE_SIZE`, less the header. -/
def maxLen : Nat := 247

/-- The flag of `FLAG_FRAGMENT_SHIFT`. -/
def moreFragments (packet : Bytes) : Bool := (packet.headD 0).toNat.testBit 0

/-- The loop of `read` in `net.py`, until a packet without the flag. -/
def readLoop (rearm : Bool) (callbackType : Int) : Nat → Slave → Nat → Option Bytes
  | 0, _, _ => none
  | fuel + 1, s, toReceive =>
    let n := if toReceive > maxLen then 255 else 8 + toReceive
    (s.masterRead rearm callbackType n).bind fun r =>
      if moreFragments r.1 then
        (readLoop rearm callbackType fuel r.2 (toReceive - maxLen)).map (r.1.drop 8 ++ ·)
      else some (r.1.drop 8)

/-! ## What a master obtains -/

section
variable {rearm : Bool} {callbackType : Int} {s : Slave}

theorem moreFragments_read {m : Mem UInt8} {n : Nat} (hn : 0 < n) :
    moreFragments (m.read 0 n) = (m 0).toNat.testBit 0 := by
  obtain ⟨k, rfl⟩ : ∃ k, n = k + 1 := ⟨n - 1, by omega⟩
  rw [moreFragments, Nat.add_comm, Mem.read_add]
  rfl

theorem readLength_pos {toReceive : Nat} : 0 < if toReceive > maxLen then 255 else 8 + toReceive := by
  split <;> omega

/-- The first packet stays where it is: a master that waits for another one
does not come to an end. -/
theorem readLoop_of_more (hmore : (s.slaveReadBuf 0).toNat.testBit 0 = true) :
    ∀ fuel toReceive, readLoop rearm callbackType fuel s toReceive = none := by
  intro fuel
  induction fuel generalizing s with
  | zero => exact fun _ => rfl
  | succ fuel ih =>
    intro toReceive
    rw [readLoop, Slave.masterRead]
    split
    · rw [Option.bind_some, moreFragments_read readLength_pos, if_pos hmore,
        Option.map_eq_none_iff]
      apply ih
      exact hmore
    · rfl

theorem readLoop_of_last (henabled : s.slaveReadEnabled = true)
    (hlast : (s.slaveReadBuf 0).toNat.testBit 0 = false) {fuel len : Nat} (hlen : len ≤ maxLen) :
    readLoop rearm callbackType (fuel + 1) s len = some (s.slaveReadBuf.read 8 len) := by
  have hn : ¬ len > maxLen := Nat.not_lt.mpr hlen
  rw [readLoop, Slave.masterRead, if_pos henabled, Option.bind_some, moreFragments_read readLength_pos, hlast,
    if_neg Bool.false_ne_true, if_neg hn, Mem.drop_read (by omega), Nat.add_sub_cancel_left]

theorem readLoop_of_disabled (hdisabled : s.slaveReadEnabled = false) :
    ∀ fuel toReceive, readLoop rearm callbackType fuel s toReceive = none := by
  rintro (_ | fuel) toReceive
  · rfl
  · rw [readLoop, Slave.masterRead, hdisabled]
    rfl

/-! ## What is prepared -/

section
variable {data : Mem UInt8} {len : UInt32} {rc : Int}

theorem prepare_enabled : s.prepare.slaveReadEnabled = true := rfl

theorem prepare_more : (s.prepare.slaveReadBuf 0).toNat.testBit 0 = decide (247 < s.bytesRemaining.toNat) := by
  have hflags := NetworkFlags.ofStorage_storage
    { s.readPacket.header.flags with isFragment := decide (s.bytesRemaining > maxDataLen) }
  have hbit := congrArg NetworkFlags.isFragment hflags
  exact hbit.trans (decide_eq_decide.mpr maxDataLen_lt)

theorem prepare_data (hlen : s.dataLen = s.bytesRemaining) (hle : s.bytesRemaining.toNat ≤ 247) :
    s.prepare.slaveReadBuf.read 8 s.bytesRemaining.toNat = s.data.read 0 s.bytesRemaining.toNat := by
  have hmore : ¬ s.bytesRemaining > maxDataLen := fun h => Nat.not_lt.mpr hle (maxDataLen_lt.mp h)
  have hoffset : (s.dataLen - s.bytesRemaining).toUInt16.toNat = 0 := by
    rw [hlen, UInt32.sub_self]
    rfl
  let header := s.readPacket.header.setFragment false (s.dataLen - s.bytesRemaining).toUInt16
  let sent := s.data.read 0 s.bytesRemaining.toNat
  let rest := (s.readPacket.data.copy 0 sent).read s.bytesRemaining.toNat (247 - s.bytesRemaining.toNat)
  have hsplit : (s.readPacket.data.copy 0 sent).read 0 247 = sent ++ rest := by
    have hcopy := Mem.read_copy s.readPacket.data 0 sent
    rw [Mem.length_read] at hcopy
    have hsum : 247 = s.bytesRemaining.toNat + (247 - s.bytesRemaining.toNat) := by omega
    conv_lhs => rw [hsum]
    rw [Mem.read_add, hcopy, Nat.zero_add]
  have hbuf : s.prepare.slaveReadBuf = s.slaveReadBuf.copy 0 (header.bytes ++ (sent ++ rest)) := by
    simp only [Slave.prepare, Slave.readSetup, hmore, decide_false, Bool.false_eq_true, if_false, hoffset]
    rw [Packet.bytes, maxDataLen_eq]
    exact congrArg (fun l => s.slaveReadBuf.copy 0 (header.bytes ++ l)) hsplit
  have hread := Mem.read_copy s.slaveReadBuf 0 (header.bytes ++ (sent ++ rest))
  rw [hbuf]
  have hpart := Mem.read_part hread
  rwa [Mem.length_read, NetworkHeader.length_bytes, Nat.zero_add] at hpart

theorem setReadBuffer_of_pos (hrc : 0 ≤ rc) (hlen : 0 < len.toNat) :
    s.setReadBuffer rc data len = some ((s.provide data len).prepare, portSuccess, []) := by
  have hpos : 0 < (s.provide data len).bytesRemaining := UInt32.lt_iff_toNat_lt.mpr hlen
  rw [Slave.setReadBuffer, if_neg (Int.not_lt.mpr hrc), Slave.iterate, if_pos hpos, Option.map_some]

theorem setReadBuffer_zero (hrc : 0 ≤ rc) : s.setReadBuffer rc data 0 =
    if s.readCallback then some (s.provide data 0, portSuccess, [0]) else none := by
  have hzero : ¬ 0 < (s.provide data 0).bytesRemaining := UInt32.lt_irrefl 0
  have hlen : ¬ ((s.provide data 0).readCallback = false ∧ 0 < (s.provide data 0).dataLen) :=
    fun h => UInt32.lt_irrefl 0 h.2
  rw [Slave.setReadBuffer, if_neg (Int.not_lt.mpr hrc), Slave.iterate, if_neg hzero, if_neg hlen]
  show Option.map _ (if s.readCallback then _ else _) = _
  split <;> rfl

/-- A master obtains what fits one packet, and nothing longer. Of nothing, it
obtains what an earlier packet says. -/
theorem slave_read_whole (hrc : 0 ≤ rc) :
    (∃ s' os fuel, s.setReadBuffer rc data len = some (s', portSuccess, os) ∧
      readLoop rearm callbackType fuel s' len.toNat = some (data.read 0 len.toNat)) ↔
    (1 ≤ len.toNat ∧ len.toNat ≤ 247) ∨
      (len.toNat = 0 ∧ s.readCallback = true ∧ s.slaveReadEnabled = true ∧
        (s.slaveReadBuf 0).toNat.testBit 0 = false) := by
  rcases Nat.eq_zero_or_pos len.toNat with hzero | hpos
  · obtain rfl : len = 0 := UInt32.toNat_inj.mp hzero
    rw [setReadBuffer_zero hrc, hzero]
    constructor
    · rintro ⟨s', os, fuel, hset, hread⟩
      split at hset
      · next hcallback =>
        obtain ⟨rfl, -⟩ := Prod.mk.inj (Option.some.inj hset)
        refine .inr ⟨rfl, hcallback, ?_, ?_⟩
        · rw [← Bool.not_eq_false]
          intro hdisabled
          rw [readLoop_of_disabled (s := s.provide data 0) hdisabled] at hread
          cases hread
        · rw [← Bool.not_eq_true]
          intro hmore
          rw [readLoop_of_more (s := s.provide data 0) hmore] at hread
          cases hread
      · cases hset
    · rintro (⟨h, -⟩ | ⟨-, hcallback, henabled, hlast⟩)
      · cases h
      · refine ⟨s.provide data 0, [0], 1, by rw [if_pos hcallback], ?_⟩
        exact readLoop_of_last (s := s.provide data 0) henabled hlast (Nat.zero_le _)
  · rw [setReadBuffer_of_pos hrc hpos]
    constructor
    · rintro ⟨s', os, fuel, hset, hread⟩
      obtain ⟨rfl, -⟩ := Prod.mk.inj (Option.some.inj hset)
      refine .inl ⟨hpos, Nat.not_lt.mp fun hlong => ?_⟩
      rw [readLoop_of_more (prepare_more.trans (decide_eq_true hlong))] at hread
      cases hread
    · rintro (⟨-, hle⟩ | ⟨hzero, -⟩)
      · refine ⟨_, _, 1, rfl, ?_⟩
        rw [readLoop_of_last prepare_enabled (prepare_more.trans (decide_eq_false (Nat.not_lt.mpr hle))) hle]
        exact congrArg some (prepare_data (s := s.provide data len) rfl hle)
      · omega

end

end

def sampleSlave : Slave where
  device := ⟨0x32, 0⟩
  bytesRemaining := 0
  dataLen := 0
  readPacket := ⟨.ofMem fun _ => 0, fun _ => 0⟩
  data := fun _ => 0
  readCallback := false
  slaveReadBuf := fun _ => 0
  slaveReadEnabled := false
  port := ⟨false, 0⟩

theorem slave_read_whole_short :
    ∃ s' os fuel, sampleSlave.setReadBuffer 0 (fun i => UInt8.ofNat i) 3 = some (s', portSuccess, os) ∧
      readLoop true 2 fuel s' 3 = some [0, 1, 2] :=
  (slave_read_whole (s := sampleSlave) (Int.le_refl 0)).mpr (.inl (by decide))

/-- Of 248 bytes, a master obtains the first packet over and over. -/
theorem slave_read_long : ¬ ∃ s' os fuel,
    sampleSlave.setReadBuffer 0 (fun i => UInt8.ofNat i) 248 = some (s', portSuccess, os) ∧
      readLoop true 2 fuel s' 248 = some (Mem.read (fun i => UInt8.ofNat i) 0 248) := by
  rintro ⟨s', os, fuel, hset, hread⟩
  rw [setReadBuffer_of_pos (Int.le_refl 0) (by decide)] at hset
  obtain ⟨rfl, -⟩ := Prod.mk.inj (Option.some.inj hset)
  rw [readLoop_of_more (prepare_more.trans (by decide))] at hread
  cases hread

end SlaveRead

end Signpost
