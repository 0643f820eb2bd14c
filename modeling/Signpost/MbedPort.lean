/-
The listener of the mbed port (`port_signpost_mbed.cpp`), which is told that it
was written to, but not how much: it takes the length from the header. The Tock
port is told, and hands it on.

`I2CSlave::read` puts the packet at the start of the buffer; what it does to the
rest of the buffer is left open.

Both ports are given the same packets, those of a message of any length. The
length in a header is that of the whole message, so the mbed port is right about
messages of one packet that does not fill its buffer.
-/
import Signpost.Protocol

namespace Signpost

open Lib

/-! ## The Tock port -/

/-- `TOCK_I2C_CB_*`, of which the port knows two. -/
inductive I2cCallback
  | masterWrite
  | slaveWrite
  | other (callbackType : Int)
  deriving DecidableEq

namespace TockPort

structure Port where
  masterWriteYieldFlag : Bool
  masterWriteLenOrRc : Int

/-- `i2c_master_slave_callback`, and what it calls `global_slave_write_cb` with. -/
def i2cMasterSlaveCallback (s : Port) (callbackType : I2cCallback) (length : Int) : Port × Option Int :=
  if callbackType = .slaveWrite then (s, some length)
  else if callbackType = .masterWrite then ({ masterWriteYieldFlag := true, masterWriteLenOrRc := length }, none)
  else (s, none)

end TockPort

/-! ## The mbed port -/

namespace MbedPort

structure Port where
  listenBuf : Mem UInt8
  listenLen : Nat
  readBuf : Mem UInt8
  readLen : Nat

/-- What `receive` says, with the packet where one was written. -/
inductive Received
  | readAddressed
  | writeAddressed (packet : Bytes)
  | other

inductive Output
  | write (bytes : Bytes)
  /-- `listen_cb` -/
  | listenCb (lenOrRc : Int)
  deriving DecidableEq

/-- `(listen_buf[4] << 8) + listen_buf[5]`, as the `uint16_t` it is stored in. -/
def headerLength (buf : Mem UInt8) : UInt16 := ((buf 4).toUInt16 <<< 8) + (buf 5).toUInt16

/-- A turn of `i2c_listen_loop`. -/
def i2cListenLoop (read : Mem UInt8 → Bytes → Mem UInt8) (s : Port) : Received → Port × List Output
  | .readAddressed => (s, [.write (s.readBuf.read 0 s.readLen)])
  | .writeAddressed packet =>
    let s := { s with listenBuf := read s.listenBuf packet }
    let len := (headerLength s.listenBuf).toNat
    (s, [.listenCb (if len < s.listenLen then len else portFail)])
  | .other => (s, [])

/-- `port_signpost_i2c_slave_listen` -/
def i2cSlaveListen (s : Port) (buf : Mem UInt8) (maxLen : Nat) : Port :=
  { s with listenBuf := buf, listenLen := maxLen }

/-- `port_signpost_i2c_slave_read_setup` -/
def i2cSlaveReadSetup (s : Port) (buf : Mem UInt8) (len : Nat) : Port := { s with readBuf := buf, readLen := len }

end MbedPort

/-! ## The length in the header -/

theorem htons_ofLe16 (lo hi : UInt8) : htons (ofLe16 lo hi) = ofLe16 hi lo := by
  refine uint16_ext fun i hi => ?_
  rcases lt_sixteen_cases hi with rfl | rfl | rfl | rfl | rfl | rfl | rfl | rfl | rfl | rfl | rfl |
    rfl | rfl | rfl | rfl | rfl <;> simp [htons, ofLe16]

theorem mem_packets {write : MasterWrite} {dest : UInt8} {d : Device} {encrypted : Bool} {data : Mem UInt8}
    {len : UInt32} {p : Bytes} (hfit : (Message.ofSend d encrypted data len).Fits)
    (hp : p ∈ (signbusIoSend write d dest encrypted data len).packets) :
    ∃ i < (Message.ofSend d encrypted data len).count, p = (Message.ofSend d encrypted data len).fragment i := by
  obtain ⟨k, hk, hok, hstop⟩ := exists_first_refused
    (fun j => write j dest ((Message.ofSend d encrypted data len).fragment j))
    (Message.ofSend d encrypted data len).count
  rw [(signbusIoSend_packets write dest hfit hk hok hstop).1] at hp
  obtain ⟨i, hi, rfl⟩ := List.mem_map.mp (List.mem_of_mem_take hp)
  exact ⟨i, List.mem_range.mp hi, rfl⟩

namespace MbedPort

theorem toNat_headerLength (buf : Mem UInt8) :
    (headerLength buf).toNat = (htons (NetworkHeader.ofMem buf).length).toNat := by
  have h4 := (buf 4).toNat_lt
  have h5 := (buf 5).toNat_lt
  rw [NetworkHeader.ofMem, htons_ofLe16, toNat_ofLe16, headerLength, UInt16.toNat_add, UInt16.toNat_shiftLeft]
  simp [Nat.shiftLeft_eq]
  omega

section
variable {read : Mem UInt8 → Bytes → Mem UInt8}
  (hread : ∀ buf p, p.length ≤ 255 → (read buf p).read 0 p.length = p)
include hread

/-- What the listener makes of a fragment: the length of its whole message, if
that is less than the buffer's. -/
theorem listen_fragment {m : Message} {i : Nat} (s : Port) :
    (i2cListenLoop read s (.writeAddressed (m.fragment i))).2 =
      [.listenCb (if (8 * m.count + m.data.length) % 65536 < s.listenLen then
        ((8 * m.count + m.data.length) % 65536 : Nat) else portFail)] := by
  have hlength : (m.fragment i).length = 8 + (m.chunk i).length := by
    rw [Message.fragment, List.length_append, NetworkHeader.length_bytes]
  have hle : (m.fragment i).length ≤ 255 := by
    rw [hlength, Message.length_chunk]
    omega
  have hbuf := hread s.listenBuf _ hle
  rw [hlength, Mem.read_add, Message.fragment] at hbuf
  have hheader := NetworkHeader.ofMem_of_read (List.append_inj hbuf (by simp)).1
  have hlen : (headerLength (read s.listenBuf (m.fragment i))).toNat = (8 * m.count + m.data.length) % 65536 := by
    rw [toNat_headerLength, show NetworkHeader.ofMem (read s.listenBuf (m.fragment i)) = m.header i from hheader]
    simp [Message.header, NetworkHeader.setFragment, Message.baseHeader]
  simp only [i2cListenLoop, hlen]

/-- The listener is right about the packets of short messages only. -/
theorem listen_true_length {write : MasterWrite} {d : Device} {dest : UInt8} {encrypted : Bool}
    {data : Mem UInt8} {len : UInt32} {p : Bytes} {buf : Mem UInt8} (s : Port) (t : TockPort.Port)
    (hpos : 1 ≤ len.toNat) (hlen : len.toNat ≤ 65535)
    (hp : p ∈ (signbusIoSend write d dest encrypted data len).packets) :
    (TockPort.i2cMasterSlaveCallback t .slaveWrite p.length).2 = some (p.length : Int) ∧
    ((i2cListenLoop read (i2cSlaveListen s buf portI2cMaxLen.toNat) (.writeAddressed p)).2 =
      [.listenCb p.length] ↔ len.toNat ≤ 246) := by
  have hdata : (Message.ofSend d encrypted data len).data.length = len.toNat := by simp [Message.ofSend]
  have hfit : (Message.ofSend d encrypted data len).Fits := by
    rw [Message.Fits, hdata]
    omega
  obtain ⟨i, hi, rfl⟩ := mem_packets hfit hp
  refine ⟨rfl, ?_⟩
  have hcount := hi
  rw [Message.count, hdata] at hcount
  rw [listen_fragment hread, Message.fragment, List.length_append, NetworkHeader.length_bytes,
    Message.length_chunk, Message.count, hdata]
  have hmax : (i2cSlaveListen s buf portI2cMaxLen.toNat).listenLen = 255 := rfl
  rw [hmax, List.cons.injEq, Output.listenCb.injEq, and_iff_left rfl]
  rcases Nat.lt_or_ge ((8 * ((len.toNat + 246) / 247) + len.toNat) % 65536) 255 with hshort | hlong
  · rw [if_pos hshort, Int.natCast_inj]
    -- Behind the first fragment, the two differ by `255 * (count - 1)` modulo `65536`.
    omega
  · rw [if_neg (Nat.not_lt.mpr hlong), portFail]
    omega

end

def sampleWrite : MasterWrite := fun _ _ _ => 0

theorem fragment_mem_packets {d : Device} (dest : UInt8) {encrypted : Bool} {data : Mem UInt8} {len : UInt32}
    {i : Nat} (hfit : len.toNat ≤ 266 * 247) (hi : i < (Message.ofSend d encrypted data len).count) :
    (Message.ofSend d encrypted data len).fragment i ∈
      (signbusIoSend sampleWrite d dest encrypted data len).packets := by
  have hfit' : (Message.ofSend d encrypted data len).Fits := by
    rwa [Message.Fits, Message.ofSend, Mem.length_read]
  rw [(signbusIoSend_packets sampleWrite dest hfit' (Nat.le_refl _) (fun _ _ => Int.le_refl 0)
    (fun h => absurd h (Nat.lt_irrefl _))).1, List.take_of_length_le (by simp)]
  exact List.mem_map.mpr ⟨i, List.mem_range.mpr hi, rfl⟩

/-- What is read in is put at the start of the buffer. -/
def sampleRead (buf : Mem UInt8) (p : Bytes) : Mem UInt8 := buf.copy 0 p

theorem sampleRead_spec (buf : Mem UInt8) (p : Bytes) (_ : p.length ≤ 255) : (sampleRead buf p).read 0 p.length = p :=
  Mem.read_copy buf 0 p

def samplePort : Port := ⟨fun _ => 0, 0, fun _ => 0, 0⟩

theorem listen_true_length_short :
    (TockPort.i2cMasterSlaveCallback ⟨false, 0⟩ .slaveWrite
      ((Message.ofSend ⟨0x20, 0⟩ false (fun _ => 7) 3).fragment 0).length).2 = some 11 ∧
    (i2cListenLoop sampleRead (i2cSlaveListen samplePort (fun _ => 0) portI2cMaxLen.toNat)
      (.writeAddressed ((Message.ofSend ⟨0x20, 0⟩ false (fun _ => 7) 3).fragment 0))).2 = [.listenCb 11] := by
  have hpacket : (Message.ofSend ⟨0x20, 0⟩ false (fun _ => 7) 3).fragment 0 ∈
      (signbusIoSend sampleWrite ⟨0x20, 0⟩ 0x22 false (fun _ => 7) 3).packets :=
    fragment_mem_packets 0x22 (by decide) (by decide)
  obtain ⟨htock, hmbed⟩ := listen_true_length sampleRead_spec samplePort ⟨false, 0⟩ (by decide) (by decide) hpacket
  exact ⟨htock, hmbed.mpr (by decide)⟩

/-- A packet that fills the buffer is taken for an error. -/
theorem listen_length_full : ∃ p ∈ (signbusIoSend sampleWrite ⟨0x20, 0⟩ 0x22 false (fun _ => 7) 247).packets,
    p.length = 255 ∧
    (i2cListenLoop sampleRead (i2cSlaveListen samplePort (fun _ => 0) portI2cMaxLen.toNat) (.writeAddressed p)).2 =
      [.listenCb (-1)] :=
  ⟨(Message.ofSend ⟨0x20, 0⟩ false (fun _ => 7) 247).fragment 0,
    fragment_mem_packets 0x22 (by decide) (by decide +kernel),
    by decide +kernel, by decide +kernel⟩

end MbedPort

end Signpost
