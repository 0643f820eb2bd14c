/-
The application layer (`signbus_app_layer.c`) over the protocol layer: three
bytes of frame, API and message type before the message.

`signbusAppRecvAsync` is the receive path armed by the function of that name,
from the packets that arrive to the call of the application's callback: through
`get_message`, `protocol_async_callback` and `app_layer_callback`.
-/
import Signpost.Reassembly
import Signpost.Protocol

namespace Signpost

open Lib

/-! ## Frames -/

/-- What `app_parse` finds in a received buffer. -/
structure Parsed where
  frameType : UInt8
  apiType : UInt8
  messageType : UInt8
  messageLength : UInt32
  message : Mem UInt8

def appParse (recvBuf : Mem UInt8) (receivedLength : UInt32) : Parsed where
  frameType := recvBuf 0
  apiType := recvBuf 1
  messageType := recvBuf 2
  messageLength := receivedLength - 3
  message := fun i => recvBuf (3 + i)

def signbusAppSend (mb : Mbedtls) (rand : Int × Iv) (write : MasterWrite) (d : Device) (dest : UInt8)
    (addrToKey : UInt8 → Option Key) (frameType apiType messageType : UInt8) (messageLength : UInt32)
    (message : Mem UInt8) : Sent :=
  signbusProtocolSend mb rand write d dest addrToKey
    (frameType :: apiType :: messageType :: message.read 0 messageLength.toNat)

theorem appParse_frame {recvBuf message : Mem UInt8} {frameType apiType messageType : UInt8}
    {n len : UInt32}
    (hlen : len.toNat = n.toNat + 3) (hbuf : recvBuf.read 0 len.toNat =
      frameType :: apiType :: messageType :: message.read 0 n.toNat) :
    (appParse recvBuf len).frameType = frameType ∧ (appParse recvBuf len).apiType = apiType ∧
      (appParse recvBuf len).messageType = messageType ∧ (appParse recvBuf len).messageLength = n ∧
      (appParse recvBuf len).message.read 0 n.toNat = message.read 0 n.toNat := by
  rw [hlen, Nat.add_comm, Mem.read_add] at hbuf
  simp only [Mem.read, List.range_succ, List.range_zero, List.nil_append, List.cons_append, List.map_cons,
    List.map_nil, Nat.zero_add, List.cons.injEq] at hbuf
  obtain ⟨h0, h1, h2, hrest⟩ := hbuf
  refine ⟨h0, h1, h2, ?_, ?_⟩
  · have h3 : (3 : UInt32) ≤ len := UInt32.le_iff_toNat_le.mpr (by simp; omega)
    refine UInt32.toNat_inj.mp ?_
    rw [appParse, UInt32.toNat_sub_of_le _ _ h3, hlen]
    exact Nat.add_sub_cancel ..
  · simpa [appParse, Mem.read] using hrest

/-! ## Receiving -/

/-- The key a received message is checked with. -/
def recvKey (addrToKey : Option (UInt8 → Option Key)) (encrypted : Bool) (src : UInt8) : Option Key :=
  match addrToKey with
  | none => none
  | some addrToKey => if encrypted then addrToKey src else none

/-- `protocol_async_callback`: the code it calls back with, and the clear
buffer. The count it is called with is an `int`. -/
def protocolAsyncCallback (mb : Mbedtls) (stack : Digest) (addrToKey : Option (UInt8 → Option Key))
    (len : UInt32) (io : RecvOut) (buf : Mem UInt8) (buflen : UInt32) : Int × Mem UInt8 :=
  if toInt len < 0 then (toInt len, buf)
  else
    let r := protocolEncryptedBufferReceived mb stack
      (recvKey addrToKey io.encrypted io.src) io.data len buf buflen
    (r.rc, r.output)

/-- One call of the application's callback: its argument, the sender, and the
frame when there is one. -/
structure AppCall where
  lenOrRc : Int
  senderAddress : UInt8
  frame : Option Parsed

def appLayerCallback (lenOrRc : Int) (senderAddress : UInt8) (recvBuf : Mem UInt8) : AppCall :=
  if lenOrRc < 0 then { lenOrRc, senderAddress, frame := none }
  else
    let frame := appParse recvBuf (UInt32.ofInt lenOrRc)
    { lenOrRc := toInt frame.messageLength, senderAddress, frame := some frame }

/-- The buffers a receive is armed with, and what the memory it will use holds. -/
structure Armed where
  packetBuf : Mem UInt8
  stack : GetMessage
  digestStack : Digest
  /-- `async_buf`, the flag and the sender's address, before the message. -/
  io : RecvOut
  asyncBuflen : UInt32
  recvBuf : Mem UInt8
  recvBuflen : UInt32

/-- The receive path of `signbus_app_recv_async`. -/
def signbusAppRecvAsync (mb : Mbedtls) (addrToKey : Option (UInt8 → Option Key)) (armed : Armed)
    (arrivals : List Bytes) : Option AppCall :=
  (getMessage armed.asyncBuflen armed.packetBuf armed.stack armed.io arrivals).returned.map fun r =>
    let cb := protocolAsyncCallback mb armed.digestStack addrToKey r.lengthReceived r.out armed.recvBuf
      armed.recvBuflen
    appLayerCallback cb.1 r.out.src cb.2

theorem signbusAppRecvAsync_fragments (mb : Mbedtls) (addrToKey : Option (UInt8 → Option Key))
    (armed : Armed) {m : Message} (hfit : m.Fits) (hne : 0 < m.data.length)
    (hlen : m.data.length ≤ armed.asyncBuflen.toNat) :
    ∃ (len : UInt32) (io : RecvOut), len.toNat = m.data.length ∧ io.data.read 0 len.toNat = m.data ∧
      io.encrypted = m.encrypted ∧ io.src = m.src ∧
      signbusAppRecvAsync mb addrToKey armed m.fragments = some
        (let cb := protocolAsyncCallback mb armed.digestStack addrToKey len io armed.recvBuf armed.recvBuflen
        appLayerCallback cb.1 m.src cb.2) := by
  have hcount : 0 < m.count := Message.lt_count.mpr (by omega)
  obtain ⟨r, hr, hc⟩ :=
    getMessage_fragments armed.asyncBuflen armed.packetBuf armed.stack armed.io hfit hne
    (Mix.refl (P := Foreign m.key) (m.fragments.drop 1))
  obtain ⟨hn, hdata, hencrypted, hsrc⟩ := hc
  rw [Nat.min_eq_left hlen] at hn hdata
  refine ⟨r.lengthReceived, r.out, hn, ?_, hencrypted, hsrc, ?_⟩
  · rw [hn, hdata, List.take_length]
  · rw [signbusAppRecvAsync, ← List.drop_zero (l := m.fragments), Message.drop_fragments hcount, hr,
      Option.map_some, hsrc]

/-- **The stack's round trip.** A message of at most 973 bytes is sent without
an error by a sender that shares a key with the receiver, or has none for it.
Its packets reach a receiver with buffers of 1024 bytes: the callback gets the
frame that was sent, from the sender. -/
theorem signbusAppRecvAsync_signbusAppSend {mb : Mbedtls} (hctr : mb.CtrLength) (hinv : mb.CtrInverse)
    {rand : Int × Iv} {write : MasterWrite} {d : Device} {dest : UInt8}
    {senderKeys receiverKeys : UInt8 → Option Key} {frameType apiType messageType : UInt8}
    {messageLength : UInt32} {message : Mem UInt8} {armed : Armed} (hlen : messageLength.toNat ≤ 973)
    (hkey : senderKeys dest = none ∨ receiverKeys d.thisDeviceAddress = senderKeys dest)
    (hsent : 0 ≤ (signbusAppSend mb rand write d dest senderKeys frameType apiType messageType messageLength
      message).rc)
    (hasync : armed.asyncBuflen = 1024) (hrecv : armed.recvBuflen = 1024) :
    ∃ frame, signbusAppRecvAsync mb (some receiverKeys) armed
    (signbusAppSend mb rand write d dest senderKeys
        frameType apiType messageType messageLength message).packets =
          some ⟨messageLength.toNat, d.thisDeviceAddress, some frame⟩ ∧
      frame.frameType = frameType ∧ frame.apiType = apiType ∧ frame.messageType = messageType ∧
      frame.messageLength = messageLength ∧
      frame.message.read 0 messageLength.toNat = message.read 0 messageLength.toNat := by
  obtain ⟨clear, hclear⟩ : ∃ clear, clear = frameType :: apiType :: messageType ::
    message.read 0 messageLength.toNat := ⟨_, rfl⟩
  have hclearLen : clear.length = messageLength.toNat + 3 := by simp [hclear]
  rw [signbusAppSend, ← hclear] at hsent ⊢
  rw [signbusProtocolSend] at hsent ⊢
  cases hp : protocolPayload mb rand (senderKeys dest) clear with
  | none =>
    simp only [hp] at hsent
    exact absurd hsent (by decide)
  | some buf =>
    simp only [hp] at hsent ⊢
    have hbuf := length_protocolPayload hctr hp
    have hover := overhead_le (senderKeys dest)
    have hbufNat : (UInt32.ofNat buf.length).toNat = buf.length :=
      UInt32.toNat_ofNat_of_lt' (by simp [UInt32.size]; omega)
    have hdata :
        (Message.ofSend d (senderKeys dest).isSome (.ofList buf 0) (UInt32.ofNat buf.length)).data = buf := by
      rw [Message.ofSend, hbufNat, Mem.read_ofList]
    have hfit : (Message.ofSend d (senderKeys dest).isSome (.ofList buf 0) (UInt32.ofNat buf.length)).Fits := by
      rw [Message.Fits, hdata]; omega
    rw [signbusIoSend_ok hfit hsent]
    obtain ⟨len, io, hlenIo, hio, hencrypted, hsrc, hrun⟩ := signbusAppRecvAsync_fragments mb
      (some receiverKeys) armed hfit (by rw [hdata]; omega)
      (by rw [hdata, hasync]; simp; omega)
    rw [hdata] at hlenIo hio
    have hrecvKey : recvKey (some receiverKeys) io.encrypted io.src = senderKeys dest := by
      simp only [recvKey, hencrypted, hsrc, Message.ofSend]
      rcases hkey with hnone | hshared
      · simp [hnone]
      · cases hk : senderKeys dest with
        | none => rfl
        | some key => rw [hshared, hk]; rfl
    obtain ⟨hrc, hout⟩ :=
      received_payload hctr hinv hp armed.digestStack armed.recvBuf armed.recvBuflen hio
      (by rw [hrecv]; simp; omega) (by omega)
    have hlenInt : toInt len = len.toNat := toInt_of_lt (by omega)
    have hofInt : (UInt32.ofInt clear.length).toNat = clear.length := toNat_ofInt (by omega)
    obtain ⟨h0, h1, h2, h3, h4⟩ := appParse_frame
      (hofInt.trans hclearLen) (by rw [hofInt, hout, hclear])
    rw [hrun]
    refine ⟨_, ?_, h0, h1, h2, h3, h4⟩
    simp only [protocolAsyncCallback, if_neg (show ¬ toInt len < 0 by omega), hrecvKey, hrc,
      appLayerCallback, if_neg (show ¬ (clear.length : Int) < 0 by omega), h3, Message.ofSend]
    rw [toInt_of_lt (by omega)]

/-- What a send returns: an error that the port has, or of the digest or the cipher,
or else how much it has sent. -/
theorem signbusAppSend_cases {mb : Mbedtls} (hctr : mb.CtrLength) {rand : Int × Iv} {write : MasterWrite}
    {d : Device} {dest : UInt8} {addrToKey : UInt8 → Option Key} {frameType apiType messageType : UInt8}
    {messageLength : UInt32} {message : Mem UInt8} {rc : Int} (hlen : messageLength.toNat ≤ 973)
    (h : (signbusAppSend mb rand write d dest addrToKey frameType apiType messageType messageLength message).rc =
      rc) :
    rc = portFail ∨ (rc < 0 ∧ ∃ k bytes, rc = write k dest bytes) ∨
      rc = messageLength.toNat + 3 + overhead (addrToKey dest) := by
  rw [signbusAppSend, signbusProtocolSend] at h
  cases hp : protocolPayload mb rand (addrToKey dest)
      (frameType :: apiType :: messageType :: message.read 0 messageLength.toNat) with
  | none =>
    simp only [hp] at h
    exact .inl h.symm
  | some buf =>
    simp only [hp] at h
    have hbuf := length_protocolPayload hctr hp
    have hover := overhead_le (addrToKey dest)
    simp only [List.length_cons, Mem.length_read] at hbuf
    have hbufNat : (UInt32.ofNat buf.length).toNat = buf.length :=
      UInt32.toNat_ofNat_of_lt' (by simp only [UInt32.size]; omega)
    have hfit : (Message.ofSend d (addrToKey dest).isSome (.ofList buf 0) (UInt32.ofNat buf.length)).Fits := by
      rw [Message.Fits, Message.ofSend, Mem.length_read, hbufNat]
      omega
    obtain ⟨k, hk, hok, hstop⟩ := exists_first_refused (fun j => write j dest
      ((Message.ofSend d (addrToKey dest).isSome (.ofList buf 0) (UInt32.ofNat buf.length)).fragment j))
      (Message.ofSend d (addrToKey dest).isSome (.ofList buf 0) (UInt32.ofNat buf.length)).count
    rw [(signbusIoSend_packets write dest hfit hk hok hstop).2] at h
    split at h
    · next hlt => exact .inr (.inl ⟨h ▸ hstop hlt, k, _, h.symm⟩)
    · rw [toInt_of_lt (by omega), hbufNat] at h
      exact .inr (.inr (by omega))

theorem signbusAppSend_ne_zero {mb : Mbedtls} (hctr : mb.CtrLength) {rand : Int × Iv} {write : MasterWrite}
    {d : Device}
    {dest : UInt8} {addrToKey : UInt8 → Option Key} {frameType apiType messageType : UInt8} {messageLength : UInt32}
    {message : Mem UInt8} (hlen : messageLength.toNat ≤ 973) :
    (signbusAppSend mb rand write d dest addrToKey frameType apiType messageType messageLength message).rc ≠ 0 := by
  rcases signbusAppSend_cases hctr hlen rfl with hfail | ⟨hneg, -⟩ | hsent
  · rw [hfail]
    decide
  · exact Int.ne_of_lt hneg
  · omega

/-- A library that computes the digest of the bytes 1, 5, 2, 42, 7, their encryption and its HMAC under
the key of zeros as the real one does. -/
def commandLibrary : Mbedtls :=
  { sampleLibrary with
    hmac := fun _ _ =>
      (0, ⟨[23, 17, 206, 62, 196, 249, 0, 108, 71, 49, 220, 33, 32, 128, 118, 12, 2, 78, 164, 181, 143, 139, 150,
        60, 54, 253, 148, 78, 142, 9, 234, 172], rfl⟩)
    sha256 := fun _ =>
      (0, ⟨[248, 221, 201, 20, 246, 216, 78, 20, 121, 52, 66, 24, 67, 150, 169, 217, 27, 69, 25, 215, 46, 12, 145,
        11, 104, 247, 41, 121, 34, 27, 14, 216], rfl⟩) }

/-- A command with a payload of two bytes, under a shared key. -/
theorem signbusAppRecvAsync_signbusAppSend_command :
    ∃ frame, signbusAppRecvAsync commandLibrary (some fun _ => some zeroKey)
        ⟨fun _ => 0, ⟨0, 0, 0⟩, sampleHash, ⟨fun _ => 0, false, 0⟩, 1024, fun _ => 0, 1024⟩
        (signbusAppSend commandLibrary (0, zeroIv) (fun _ _ _ => 0) ⟨1, 0⟩ 9 (fun _ => some zeroKey)
          1 5 2 2 (.ofList [42, 7] 0)).packets = some ⟨2, 1, some frame⟩ ∧
      frame.frameType = 1 ∧ frame.apiType = 5 ∧ frame.messageType = 2 ∧ frame.messageLength = 2 ∧
      frame.message.read 0 2 = [42, 7] := by
  have hctr : commandLibrary.CtrLength := sampleLibrary_ctrLength
  have hinv : commandLibrary.CtrInverse := sampleLibrary_ctrInverse
  refine signbusAppRecvAsync_signbusAppSend hctr hinv (by decide) (.inr rfl) ?_ rfl rfl
  have hpayload : protocolPayload commandLibrary (0, zeroIv) (some zeroKey) [1, 5, 2, 42, 7] =
      some (zeroIv.val ++ [221, 144, 194, 82, 165] ++ (commandLibrary.hmac zeroKey []).2.val) := by decide +kernel
  have hfit : (Message.ofSend ⟨1, 0⟩ true
      (.ofList (zeroIv.val ++ [221, 144, 194, 82, 165] ++ (commandLibrary.hmac zeroKey []).2.val) 0) 53).Fits := by
    rw [Message.Fits, Message.ofSend, Mem.length_read]
    decide
  have hrc := (signbusIoSend_packets (fun _ _ _ => 0) 9 hfit (Nat.le_refl _)
    (fun _ _ => Int.le_refl 0) (fun h => absurd h (Nat.lt_irrefl _))).2
  rw [if_neg (Nat.lt_irrefl _)] at hrc
  have hmessage : Mem.read (.ofList [42, 7] (0 : UInt8)) 0 (2 : UInt32).toNat = [42, 7] := rfl
  rw [signbusAppSend, signbusProtocolSend, hmessage, hpayload]
  exact hrc.symm ▸ (by decide : (0 : Int) ≤ toInt 53)

end Signpost
