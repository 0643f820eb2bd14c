/-
The Python stack (`net.py`, `protocol.py` and `app.py`), and its packets on the
receive path of the C stack.

It writes a header without the fragment offset, so the C stack takes that from
the frame and API types. `hashlib` computes what the C stack's library does.

What is received is taken apart as the C stack does it, with the bytes where it
looks for them. The length it would have to find is that of the packet less
eight, and there are only six before the data, whatever the payload is.
-/
import Signpost.App

namespace Signpost

open Lib

namespace PythonStack

inductive PyError
  | overflowError
  | typeError
  deriving DecidableEq

/-- `int.to_bytes(2, 'big')` -/
def toBytes2 (n : Nat) : Except PyError Bytes :=
  if n < 65536 then .ok [UInt8.ofNat (n / 256), UInt8.ofNat n] else .error .overflowError

structure NetworkLayer where
  sourceAddress : UInt8
  sequenceNumber : Nat

/-- `MAX_MESSAGE_SIZE` -/
def maxMessageSize : Nat := 255

/-- `(version << 4) | flags` -/
def versionFlags : UInt8 := ((0x1 : UInt8) <<< 4) ||| 0x0

/-- `NetworkLayer.send`: the messages of the transfer, or what is raised before it. -/
def NetworkLayer.send (net : NetworkLayer) (data : Bytes) : NetworkLayer × Except PyError (List Bytes) :=
  let net := { net with sequenceNumber := net.sequenceNumber + 1 }
  (net, do
    let sequenceNumber ← toBytes2 net.sequenceNumber
    let length ← toBytes2 data.length
    let buf := versionFlags :: net.sourceAddress :: (sequenceNumber ++ length)
    let goodputLen := maxMessageSize - buf.length
    -- `to_send[0] |= ..` in the loop: `to_send` is `bytes`, which does not take an assignment.
    if data.length > goodputLen then .error .typeError
    else .ok [buf ++ data.take goodputLen])

/-- `ProtocolLayer.send` without a key. -/
def protocolSend (sha256 : Bytes → Digest) (net : NetworkLayer) (data : Bytes) :
    NetworkLayer × Except PyError (List Bytes) := net.send (data ++ (sha256 data).val)

/-- `AppLayer.send`. The address has no key. -/
def appSend (sha256 : Bytes → Digest) (net : NetworkLayer) (frameType apiType messageType : UInt8)
    (payload : Bytes) : NetworkLayer × Except PyError (List Bytes) :=
  protocolSend sha256 net (frameType :: apiType :: messageType :: payload)

def transferred (r : NetworkLayer × Except PyError (List Bytes)) : List Bytes := r.2.toOption.getD []

theorem length_toBytes2 {n : Nat} {bs : Bytes} (h : toBytes2 n = .ok bs) : bs.length = 2 := by
  rw [toBytes2] at h
  split at h
  · cases h
    rfl
  · cases h

theorem transferred_send (net : NetworkLayer) (data : Bytes) :
    transferred (net.send data) = [] ∨ ∃ header : Bytes, header.length = 6 ∧ header.headD 0 = versionFlags ∧
      data.length ≤ 249 ∧ transferred (net.send data) = [header ++ data] := by
  rw [transferred, NetworkLayer.send]
  cases hseq : toBytes2 (net.sequenceNumber + 1) with
  | error e => exact .inl rfl
  | ok seq =>
    cases hlen : toBytes2 data.length with
    | error e => exact .inl rfl
    | ok len =>
      have hheader : (versionFlags :: net.sourceAddress :: (seq ++ len)).length = 6 := by
        simp [length_toBytes2 hseq, length_toBytes2 hlen]
      simp only [bind, Except.bind, hheader]
      by_cases hlong : data.length > maxMessageSize - 6
      · rw [if_pos hlong]
        exact .inl rfl
      · rw [if_neg hlong, List.take_of_length_le (Nat.not_lt.mp hlong)]
        exact .inr ⟨_, hheader, rfl, Nat.not_lt.mp hlong, rfl⟩

end PythonStack

/-! ## The receive path on one packet -/

section
variable {mb : Mbedtls} {armed : Armed} {p : Bytes} {call : AppCall} {frame : Parsed}

/-- Of a packet that is not a fragment, as much is received as it is long behind
a header of eight bytes, or as fits behind its offset. -/
theorem getMessage_single (len : UInt32) (packetBuf : Mem UInt8) (stack : GetMessage) (out : RecvOut)
    (hp : p ≠ []) (hflag : (p.headD 0).toNat.testBit 0 = false) :
    ∃ r off, (getMessage len packetBuf stack out [p]).returned = some r ∧
      r.lengthReceived = (copyLength len off false (UInt8.ofNat p.length)).1 := by
  obtain ⟨b, bs, rfl⟩ := List.exists_cons_of_ne_nil hp
  have hfragment : (Packet.ofMem (packetBuf.copy 0 (b :: bs))).header.flags.isFragment = false := hflag
  have hdone : ∀ off newLen, (copyLength len off false newLen).2 = true := by
    intro off newLen
    rw [copyLength, if_neg Bool.false_ne_true]
    split <;> rfl
  rw [getMessage, getMessageLoop]
  simp only [getMessageTurn, hfragment, hdone, if_true, ne_eq, not_true, false_and, if_false, decide_true]
  exact ⟨_, _, rfl, UInt32.zero_add _⟩

theorem received_none {stack : Digest} {protocolBuf outputBuf : Mem UInt8} {len outputLen : UInt32} :
    (protocolEncryptedBufferReceived mb stack none protocolBuf len outputBuf outputLen).rc < 0 ∨
    (protocolEncryptedBufferReceived mb stack none protocolBuf len outputBuf outputLen).rc =
      toInt (len - sha256Len) := by
  rw [protocolEncryptedBufferReceived, saneLength_eq, if_neg (UInt32.not_lt.mpr UInt32.zero_le)]
  simp only
  by_cases hdigest : ((messageDigest mb none (protocolBuf.read 0 (len - sha256Len).toNat)).getD stack).val ≠
      protocolBuf.read (len - sha256Len).toNat 32
  · rw [if_pos hdigest]
    exact .inl (show portEnomem < 0 by decide)
  · rw [if_neg hdigest]
    by_cases hout : outputLen < len - sha256Len
    · rw [if_pos hout]
      exact .inl (show portEsize < 0 by decide)
    · rw [if_neg hout]
      exact .inr rfl

theorem protocolAsyncCallback_none {len : UInt32} {io : RecvOut} {stack : Digest} {buf : Mem UInt8}
    {buflen : UInt32} (h : 0 ≤ (protocolAsyncCallback mb stack none len io buf buflen).1) :
    (protocolAsyncCallback mb stack none len io buf buflen).1 = toInt (len - sha256Len) := by
  rw [protocolAsyncCallback] at h ⊢
  by_cases hlen : toInt len < 0
  · rw [if_pos hlen] at h
    exact absurd h (Int.not_le.mpr hlen)
  · rw [if_neg hlen] at h ⊢
    exact received_none.resolve_left (Int.not_lt.mpr h)

/-- A frame that is delivered without a key is as long as what was received, but
for the digest and the frame's header. -/
theorem messageLength_of_delivered {len : UInt32} {io : RecvOut} {stack : Digest} {buf : Mem UInt8} {buflen : UInt32}
    {src : UInt8}
    (h : (appLayerCallback (protocolAsyncCallback mb stack none len io buf buflen).1 src
      (protocolAsyncCallback mb stack none len io buf buflen).2).frame = some frame) :
    frame.messageLength = len - sha256Len - 3 := by
  rw [appLayerCallback] at h
  split at h
  · cases h
  · next hrc =>
    cases h
    rw [appParse, protocolAsyncCallback_none (Int.not_lt.mp hrc), ofInt_toInt]

end

namespace PythonStack

/-- The callback gets this frame, from this sender. -/
def Delivered (mb : Mbedtls) (armed : Armed) (packets : List Bytes) (src frameType apiType messageType : UInt8)
    (payload : Bytes) : Prop :=
  ∃ call frame, signbusAppRecvAsync mb none armed packets = some call ∧ call.senderAddress = src ∧
    call.frame = some frame ∧ frame.frameType = frameType ∧ frame.apiType = apiType ∧
    frame.messageType = messageType ∧ frame.messageLength.toNat = payload.length ∧
    frame.message.read 0 payload.length = payload

/-- Of a packet with a header of six bytes, the C stack never takes as much as
it has data: two bytes less, or what fits behind the offset. -/
theorem copyLength_ne (off : UInt16) {newLen : UInt8} {n : Nat} (hn : n + 35 ≤ 249) (hnew : newLen.toNat = n + 41) :
    (copyLength 1024 off false newLen).1.toNat ≠ n + 35 := by
  have hoff := off.toNat_lt
  have hdata : (newLen.toUInt32 - sizeofHeader).toNat = n + 33 := by
    rw [UInt32.toNat_sub_of_le _ _ (UInt32.le_iff_toNat_le.mpr (by simp [hnew, sizeofHeader_eq])),
      UInt8.toNat_toUInt32, hnew]
    rfl
  have hsum : (off.toUInt32 + (newLen.toUInt32 - sizeofHeader)).toNat = off.toNat + (n + 33) := by
    rw [UInt32.toNat_add, hdata, UInt16.toNat_toUInt32]
    omega
  rw [copyLength, if_neg Bool.false_ne_true]
  by_cases hlong : off.toUInt32 + (newLen.toUInt32 - sizeofHeader) > 1024
  · rw [if_pos hlong]
    have hlt : 1024 < off.toNat + (n + 33) := by
      have := UInt32.lt_iff_toNat_lt.mp hlong
      rwa [hsum] at this
    show ((1024 : UInt32) - off.toUInt32).toUInt16.toUInt32.toNat ≠ n + 35
    rw [UInt16.toNat_toUInt32, UInt32.toNat_toUInt16, UInt32.toNat_sub, UInt16.toNat_toUInt32]
    simp only [UInt32.reduceToNat]
    omega
  · rw [if_neg hlong, hdata]
    omega

/-- Of what the Python stack sends, the C stack delivers nothing as it was meant. -/
theorem python_not_delivered {mb : Mbedtls} {armed : Armed} (hasync : armed.asyncBuflen = 1024) (net : NetworkLayer)
    (frameType apiType messageType : UInt8) (payload : Bytes) :
    ¬ Delivered mb armed
      (transferred (appSend (fun xs => (mb.sha256 xs).2) net frameType apiType messageType payload))
      net.sourceAddress frameType apiType messageType payload := by
  rintro ⟨call, frame, hrecv, -, hframe, -, -, -, hlength, -⟩
  rw [appSend, protocolSend] at hrecv
  have hdata : (frameType :: apiType :: messageType :: payload ++
      (mb.sha256 (frameType :: apiType :: messageType :: payload)).2.val).length = payload.length + 35 := by
    rw [List.length_append, (mb.sha256 _).2.property]
    rfl
  rcases transferred_send net (frameType :: apiType :: messageType :: payload ++
      (mb.sha256 (frameType :: apiType :: messageType :: payload)).2.val) with
    hnone | ⟨header, hheader, hflags, hle, hsent⟩
  · rw [hnone] at hrecv
    cases hrecv
  · rw [hsent] at hrecv
    rw [hdata] at hle
    generalize hp : header ++ _ = p at hrecv
    have hplen : p.length = payload.length + 41 := by
      rw [← hp, List.length_append, hheader, hdata]
      omega
    have hpflag : (p.headD 0).toNat.testBit 0 = false := by
      obtain ⟨b, bs, rfl⟩ := List.exists_cons_of_ne_nil (List.ne_nil_of_length_pos (by omega : 0 < header.length))
      rw [← hp]
      show b.toNat.testBit 0 = false
      rw [show b = versionFlags from hflags]
      decide
    obtain ⟨r, off, hr, hreceived⟩ := getMessage_single armed.asyncBuflen armed.packetBuf armed.stack
      armed.io (p := p) (List.ne_nil_of_length_pos (by omega)) hpflag
    rw [signbusAppRecvAsync, hr, Option.map_some] at hrecv
    obtain rfl := Option.some.inj hrecv
    have hmessage := messageLength_of_delivered hframe
    have hlen : r.lengthReceived = frame.messageLength + 3 + sha256Len := by
      rw [hmessage, UInt32.sub_add_cancel, UInt32.sub_add_cancel]
    refine copyLength_ne off hle (?_ : (UInt8.ofNat p.length).toNat = _) ?_
    · rw [UInt8.toNat_ofNat', hplen]
      omega
    · rw [← hasync, ← hreceived, hlen, UInt32.toNat_add, UInt32.toNat_add, hlength]
      rw [show UInt32.toNat 3 = 3 from rfl, show sha256Len.toNat = 32 from rfl]
      omega

def sampleArmed : Armed :=
  ⟨fun _ => 0, ⟨0, 0, 0⟩, sampleHash, ⟨fun _ => 0, false, 0⟩, 1024, fun _ => 0, 1024⟩

theorem python_not_delivered_command :
    ¬ Delivered commandLibrary sampleArmed
      (transferred (appSend (fun xs => (commandLibrary.sha256 xs).2) ⟨0x40, 0⟩ 1 5 2 [42, 7])) 0x40 1 5 2 [42, 7] :=
  python_not_delivered rfl ⟨0x40, 0⟩ 1 5 2 [42, 7]

/-- Of a command without a payload, the C stack takes the types for an offset
and finds no digest. -/
theorem python_refused :
    (transferred (appSend (fun xs => (sampleLibrary.sha256 xs).2) ⟨0x40, 0⟩ 1 5 2 [])).length = 1 ∧
    (signbusAppRecvAsync sampleLibrary none sampleArmed
      (transferred (appSend (fun xs => (sampleLibrary.sha256 xs).2) ⟨0x40, 0⟩ 1 5 2 []))).map
      (fun call => (call.lenOrRc, call.frame.isSome)) = some (portEnomem, false) ∧
    ¬ Delivered sampleLibrary sampleArmed
      (transferred (appSend (fun xs => (sampleLibrary.sha256 xs).2) ⟨0x40, 0⟩ 1 5 2 [])) 0x40 1 5 2 [] := by
  have hcall : (signbusAppRecvAsync sampleLibrary none sampleArmed
      (transferred (appSend (fun xs => (sampleLibrary.sha256 xs).2) ⟨0x40, 0⟩ 1 5 2 []))).map
      (fun call => (call.lenOrRc, call.frame.isSome)) = some (portEnomem, false) := by decide +kernel
  refine ⟨by decide +kernel, hcall, ?_⟩
  rintro ⟨call, frame, hrecv, -, hframe, -⟩
  rw [hrecv, Option.map_some, hframe] at hcall
  cases (Prod.mk.inj (Option.some.inj hcall)).2

end PythonStack

end Signpost
