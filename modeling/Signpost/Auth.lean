/-
What the protocol layer passes up of the messages of a module that has a key.

The digest of a message is keyed only when the flag in its header says it is
encrypted, and the header is outside the digest: the flag decides whether the
key of the source is looked at. Both ways up are here: `signbus_protocol_recv`,
which blocks, and the callback of `signbus_protocol_recv_async`.
-/
import Signpost.App
import Signpost.Modules

namespace Signpost

open Lib

/-- The size of the buffer `signbus_protocol_recv` receives into. -/
def protocolBuflen (clearBuflen : UInt32) : UInt32 :=
  maxIvLength + (16 * (clearBuflen / 16 + if clearBuflen % 16 ≠ 0 then 1 else 0) + 16) + sha256Len

/-- `signbus_protocol_recv`: its code and the clear buffer, if `get_message`
returns. `listen` is what `port_signpost_i2c_slave_listen` returns. -/
def signbusProtocolRecv (mb : Mbedtls) (listen : Int) (addrToKey : Option (UInt8 → Option Key))
    (digestStack : Digest) (packetBuf : Mem UInt8) (stack : GetMessage) (io : RecvOut)
    (clearBuflen : UInt32) (clearBuf : Mem UInt8) (arrivals : List Bytes) : Option (Int × Mem UInt8) :=
  if listen < 0 then some (listen, clearBuf)
  else
    (getMessage (protocolBuflen clearBuflen) packetBuf stack io arrivals).returned.map fun r =>
      if toInt r.lengthReceived < 0 then (toInt r.lengthReceived, clearBuf)
      else
        let d := protocolEncryptedBufferReceived mb digestStack
          (recvKey addrToKey r.out.encrypted r.out.src) r.out.data
          r.lengthReceived clearBuf clearBuflen
        (d.rc, d.output)

/-- The trailing digest of a received message is its HMAC under this key. -/
def Authentic (mb : Mbedtls) (key : Key) (r : Returned) : Prop :=
  (mb.hmac key (r.out.data.read 0 (r.lengthReceived.toNat - 32))).2.val =
    r.out.data.read (r.lengthReceived.toNat - 32) 32

instance (mb : Mbedtls) (key : Key) (r : Returned) : Decidable (Authentic mb key r) :=
  inferInstanceAs (Decidable (_ = _))

/-- A message `get_message` returned was passed up with data, by the blocking
receive or to the callback of the asynchronous one. -/
inductive PassedUp (mb : Mbedtls) (addrToKey : UInt8 → Option Key) (arrivals : List Bytes) : Returned → Prop
  | recv {listen digestStack packetBuf stack io clearBuflen clearBuf rc clear r} :
      (getMessage (protocolBuflen clearBuflen) packetBuf stack io arrivals).returned = some r →
      signbusProtocolRecv mb listen (some addrToKey) digestStack packetBuf stack io clearBuflen clearBuf arrivals =
        some (rc, clear) → 0 ≤ rc → PassedUp mb addrToKey arrivals r
  | recvAsync {armed call r} :
      (getMessage armed.asyncBuflen armed.packetBuf armed.stack armed.io arrivals).returned = some r →
      signbusAppRecvAsync mb (some addrToKey) armed arrivals = some call → call.frame.isSome = true →
      PassedUp mb addrToKey arrivals r

section
variable {mb : Mbedtls} {stack : Digest} {key : Option Key} {protocolBuf outputBuf : Mem UInt8}
  {buflen outlen : UInt32}

theorem received_digest (hrc : 0 ≤ (protocolEncryptedBufferReceived mb stack key protocolBuf buflen outputBuf
    outlen).rc) :
    ((messageDigest mb key (protocolBuf.read 0 (buflen - sha256Len).toNat)).getD stack).val =
      protocolBuf.read (buflen - sha256Len).toNat 32 := by
  rw [protocolEncryptedBufferReceived, saneLength_eq, if_neg (UInt32.not_lt.mpr UInt32.zero_le)] at hrc
  simp only at hrc
  split at hrc
  · exact absurd hrc (show ¬ (0 : Int) ≤ portEnomem by decide)
  · next h => exact Decidable.not_not.mp h

theorem received_authentic (hmd : mb.DigestTotal) {key : Key} {r : Returned}
    (hlen : 32 ≤ r.lengthReceived.toNat)
    (hrc : 0 ≤ (protocolEncryptedBufferReceived mb stack (some key) r.out.data r.lengthReceived outputBuf
      outlen).rc) :
    Authentic mb key r := by
  have h := received_digest hrc
  rwa [hmd.messageDigest, Option.getD_some, toNat_digestLen hlen] at h

end

theorem appLayerCallback_frame {lenOrRc : Int} {senderAddress : UInt8} {recvBuf : Mem UInt8}
    (h : (appLayerCallback lenOrRc senderAddress recvBuf).frame.isSome = true) : 0 ≤ lenOrRc := by
  rw [appLayerCallback] at h
  split at h
  · cases h
  · next hrc => exact Int.not_lt.mp hrc

/-- **No downgrade within encrypted messages.** Whatever packets arrive, a
message of at least a digest's length, marked encrypted, from a source that has
a key, is passed up with data only if it is authentic under that key. -/
theorem passedUp_authentic {mb : Mbedtls} (hmd : mb.DigestTotal) {moduleInfo : ModuleState}
    {arrivals : List Bytes} {r : Returned} {key : Key}
    (hkey : signpostApiAddrToKey moduleInfo r.out.src = some key)
    (hencrypted : r.out.encrypted = true) (hlen : 32 ≤ r.lengthReceived.toNat)
    (hup : PassedUp mb (signpostApiAddrToKey moduleInfo) arrivals r) : Authentic mb key r := by
  have hrecv : recvKey (some (signpostApiAddrToKey moduleInfo)) r.out.encrypted r.out.src = some key := by
    rw [recvKey, if_pos hencrypted, hkey]
  cases hup with
  | recv hr hcall hrc =>
    rw [signbusProtocolRecv, hr] at hcall
    split at hcall
    · next hlisten =>
      cases hcall
      exact absurd hrc (Int.not_le.mpr hlisten)
    · simp only [Option.map_some, hrecv] at hcall
      split at hcall
      · next hneg =>
        cases hcall
        exact absurd hrc (Int.not_le.mpr hneg)
      · cases hcall
        exact received_authentic hmd hlen hrc
  | recvAsync hr hcall hframe =>
    rw [signbusAppRecvAsync, hr, Option.map_some] at hcall
    cases hcall
    have hrc := appLayerCallback_frame hframe
    simp only [protocolAsyncCallback, hrecv] at hrc
    split at hrc
    · next hneg => exact absurd hrc (Int.not_le.mpr hneg)
    · exact received_authentic hmd hlen hrc

/-! ## The flag decides -/

/-- A module that has a key of zeros for address 1. -/
def keyedModule : ModuleState where
  magic := 0xDEADBEEF
  selfModNum := 0
  i2cAddress := 9
  selfName := ⟨List.replicate 16 0, length_zeros⟩
  names := fun _ => ⟨List.replicate 16 0, length_zeros⟩
  i2cAddressMods := fun i => if i = 0 then 1 else 0
  nonces := fun _ => 0
  haskey := fun i => i = 0
  keys := fun _ => zeroKey

/-- A receive of this module with nothing in its buffers. -/
def emptyArmed : Armed :=
  ⟨fun _ => 0, ⟨0, 0, 0⟩, sampleHash, ⟨fun _ => 0, false, 0⟩, 1024, fun _ => 0, 1024⟩

/-- The packet of a command from address 1, encrypted with its HMAC. -/
def encryptedCommand : List Bytes :=
  [(Message.mk 1 1 true (zeroIv.val ++ [221, 144, 194] ++ encryptedHmac.val)).fragment 0]

/-- The same command in the clear, with its hash. -/
def clearCommand : List Bytes := [(Message.mk 1 1 false ([1, 5, 2] ++ sampleHash.val)).fragment 0]

theorem PassedUp.of_any {mb : Mbedtls} {addrToKey : UInt8 → Option Key} (armed : Armed)
    {arrivals : List Bytes} {r : Returned}
    (hr : (getMessage armed.asyncBuflen armed.packetBuf armed.stack armed.io arrivals).returned = some r)
    (hup : (signbusAppRecvAsync mb (some addrToKey) armed arrivals).any (·.frame.isSome) = true) :
    PassedUp mb addrToKey arrivals r := by
  cases hcall : signbusAppRecvAsync mb (some addrToKey) armed arrivals with
  | none =>
    rw [hcall] at hup
    cases hup
  | some call =>
    rw [hcall] at hup
    exact .recvAsync hr hcall hup

/-- The encrypted command is passed up, and is authentic. -/
theorem passedUp_authentic_sample : ∃ r, (getMessage emptyArmed.asyncBuflen emptyArmed.packetBuf emptyArmed.stack
      emptyArmed.io encryptedCommand).returned = some r ∧ Authentic sampleLibrary zeroKey r :=
  ⟨_, rfl, passedUp_authentic sampleLibrary_digestTotal (by decide +kernel) (by decide +kernel) (by decide +kernel)
    (show PassedUp sampleLibrary (signpostApiAddrToKey keyedModule) encryptedCommand _ from
      .of_any emptyArmed rfl (by decide +kernel))⟩

/-- The command in the clear is passed up from the same source, and is not
authentic. -/
theorem passedUp_unencrypted : ∃ r, (getMessage emptyArmed.asyncBuflen emptyArmed.packetBuf emptyArmed.stack
      emptyArmed.io clearCommand).returned = some r ∧
    signpostApiAddrToKey keyedModule r.out.src = some zeroKey ∧
    PassedUp sampleLibrary (signpostApiAddrToKey keyedModule) clearCommand r ∧
    ¬ Authentic sampleLibrary zeroKey r :=
  ⟨_, rfl, by decide +kernel, .of_any emptyArmed rfl (by decide +kernel), by decide +kernel⟩

end Signpost
