/-
The protocol layer (`signbus_protocol_layer.c`): a message is its clear text,
or an IV and a cipher text, followed by a digest, keyed when it is encrypted.

The cryptographic library is a parameter, `Mbedtls`. `Received` records, next
to what `protocol_encrypted_buffer_received` returns, which bytes of its two
buffers it reached, since its lengths are unsigned and can wrap.
-/
import Signpost.Send

namespace Signpost

open Lib

/-! ## Return codes -/

def portSuccess : Int := 0
def portFail : Int := -1
def portEbusy : Int := -2
def portEinval : Int := -6
def portEsize : Int := -7
def portEnomem : Int := -9
def portEcrypt : Int := -101
def portEnosat : Int := -102

/-! ## Keys and digests -/

/-- `SHA256_LEN`. -/
def sha256Len : UInt32 := 32

/-- `MBEDTLS_MAX_IV_LENGTH`. -/
def maxIvLength : UInt32 := 16

/-- `ECDH_KEY_LENGTH` bytes. -/
abbrev Key := { k : Bytes // k.length = 32 }

abbrev Digest := { h : Bytes // h.length = 32 }

abbrev Iv := { iv : Bytes // iv.length = 16 }

/-- The bytes of memory at `off`, as an IV. -/
def Iv.ofMem (m : Mem UInt8) (off : Nat) : Iv := ⟨m.read off 16, Mem.length_read ..⟩

/-- `mbedtls_operation_t`. -/
inductive Operation
  | encrypt
  | decrypt
  deriving DecidableEq

/-- The library calls of this layer, each with the first negative code of the
calls it stands for, or 0, and its output: AES-256-CTR (`mbedtls_cipher_*`), and
SHA-256 with a key and without (`mbedtls_md_*`). -/
structure Mbedtls where
  aesCtr : Operation → Key → Iv → Bytes → Int × Bytes
  hmac : Key → Bytes → Int × Digest
  sha256 : Bytes → Int × Digest

namespace Mbedtls

variable (mb : Mbedtls)

/-- Counter mode keeps the length of its input. -/
def CtrLength : Prop :=
  ∀ op key iv xs, 0 ≤ (mb.aesCtr op key iv xs).1 → (mb.aesCtr op key iv xs).2.length = xs.length

/-- Decryption under the same key and IV inverts encryption. -/
def CtrInverse : Prop :=
  ∀ key iv xs, 0 ≤ (mb.aesCtr .encrypt key iv xs).1 →
    mb.aesCtr .decrypt key iv (mb.aesCtr .encrypt key iv xs).2 = (0, xs)

def DigestTotal : Prop := (∀ key xs, 0 ≤ (mb.hmac key xs).1) ∧ ∀ xs, 0 ≤ (mb.sha256 xs).1

end Mbedtls

/-- `cipher`, which takes a fresh IV to encrypt with: the IV used and its
output, or `none` for `PORT_FAIL`. `rand` is what `signpost_entropy_rand` gives. -/
def cipher (mb : Mbedtls) (rand : Int × Iv) (operation : Operation) (key : Key) (iv : Iv) (input : Bytes) :
    Option (Iv × Bytes) :=
  if operation = .encrypt ∧ rand.1 < 0 then none
  else
    let iv := if operation = .encrypt then rand.2 else iv
    let out := mb.aesCtr operation key iv input
    if out.1 < 0 then none else some (iv, out.2)

theorem cipher_length {mb : Mbedtls} (hctr : mb.CtrLength) {rand : Int × Iv} {operation : Operation}
    {key : Key} {iv iv' : Iv} {input output : Bytes}
    (h : cipher mb rand operation key iv input = some (iv', output)) :
    output.length = input.length := by
  unfold cipher at h
  split at h
  · cases h
  · generalize (if operation = .encrypt then rand.2 else iv) = used at h
    simp only at h
    split at h
    · cases h
    · next hrc =>
      cases h
      exact hctr _ _ _ _ (Int.not_lt.mp hrc)

/-- `message_digest`, `none` for `PORT_FAIL`. -/
def messageDigest (mb : Mbedtls) (key : Option Key) (input : Bytes) : Option Digest :=
  let out :=
    match key with
    | some key => mb.hmac key input
    | none => mb.sha256 input
  if out.1 < 0 then none else some out.2

theorem Mbedtls.DigestTotal.messageDigest {mb : Mbedtls} (h : mb.DigestTotal) (key : Option Key)
    (input : Bytes) :
    messageDigest mb key input = some
      (match key with
      | some key => (mb.hmac key input).2
      | none => (mb.sha256 input).2) := by
  cases key with
  | none => exact if_neg (Int.not_lt.mpr (h.2 input))
  | some key => exact if_neg (Int.not_lt.mpr (h.1 key input))

/-! ## Sending -/

/-- The clear text, or the IV and the cipher text. -/
def protocolBody (mb : Mbedtls) (rand : Int × Iv) (key : Option Key) (clearBuf : Bytes) : Option Bytes :=
  match key with
  | some key =>
    -- The IV passed in is room for the fresh one.
    (cipher mb rand .encrypt key rand.2 clearBuf).map fun p => p.1.val ++ p.2
  | none => some clearBuf

def protocolPayload (mb : Mbedtls) (rand : Int × Iv) (key : Option Key) (clearBuf : Bytes) :
    Option Bytes := do
  let body ← protocolBody mb rand key clearBuf
  let hmac ← messageDigest mb key body
  some (body ++ hmac.val)

def signbusProtocolSend (mb : Mbedtls) (rand : Int × Iv) (write : MasterWrite) (d : Device) (dest : UInt8)
    (addrToKey : UInt8 → Option Key) (clearBuf : Bytes) : Sent :=
  match protocolPayload mb rand (addrToKey dest) clearBuf with
  | none => { device := d, packets := [], rc := portFail }
  | some buf =>
    -- `encrypted` is set where there is a key, and cleared where there is none.
    signbusIoSend write d dest (addrToKey dest).isSome (.ofList buf 0) (UInt32.ofNat buf.length)

/-! ## Receiving -/

/-- The two buffers of `protocol_encrypted_buffer_received`. -/
inductive Buffer
  | protocol
  | output
  deriving DecidableEq

/-- A range of one of them that is read or written. -/
structure Access where
  buffer : Buffer
  off : Nat
  len : Nat
  deriving DecidableEq

structure Received where
  rc : Int
  output : Mem UInt8
  accesses : List Access

/-- `sane_length`: the conditional operator takes the whole sum before it as
its condition. -/
def saneLength (key : Option Key) : UInt32 :=
  if sha256Len + (if key.isNone then 1 else 0) ≠ 0 then 0 else maxIvLength

/-- `protocol_encrypted_buffer_received`; `stack` is what the digest array
holds before it is computed. -/
def protocolEncryptedBufferReceived (mb : Mbedtls) (stack : Digest) (key : Option Key)
    (protocolBuf : Mem UInt8) (protocolBuflen : UInt32) (outputBuf : Mem UInt8)
    (outputBuflen : UInt32) : Received :=
  if protocolBuflen < saneLength key then { rc := portEsize, output := outputBuf, accesses := [] }
  else
    let digestLen := protocolBuflen - sha256Len
    -- The code message_digest returns is not looked at.
    let hmacOrHash := (messageDigest mb key (protocolBuf.read 0 digestLen.toNat)).getD stack
    let checked := [⟨.protocol, 0, digestLen.toNat⟩, ⟨.protocol, digestLen.toNat, 32⟩]
    if hmacOrHash.val ≠ protocolBuf.read digestLen.toNat 32 then
      { rc := portEnomem, output := outputBuf, accesses := checked }
    else
      match key with
      | some key =>
        let encryptedBuflen := protocolBuflen - maxIvLength - sha256Len
        if outputBuflen < encryptedBuflen then { rc := portEsize, output := outputBuf, accesses := checked }
        else
          let read := [⟨.protocol, 0, 16⟩, ⟨.protocol, 16, encryptedBuflen.toNat⟩]
          let iv := Iv.ofMem protocolBuf 0
          match cipher mb (0, iv) .decrypt key iv (protocolBuf.read 16 encryptedBuflen.toNat) with
          | none => { rc := portFail, output := outputBuf, accesses := checked ++ read }
          | some (_, clear) =>
            { rc := toInt (UInt32.ofNat clear.length)
              output := outputBuf.copy 0 clear
              accesses := checked ++ read ++ [⟨.output, 0, clear.length⟩] }
      | none =>
        let clearLen := protocolBuflen - sha256Len
        if outputBuflen < clearLen then { rc := portEsize, output := outputBuf, accesses := checked }
        else
          { rc := toInt clearLen
            output := outputBuf.copy 0 (protocolBuf.read 0 clearLen.toNat)
            accesses := checked ++ [⟨.protocol, 0, clearLen.toNat⟩, ⟨.output, 0, clearLen.toNat⟩] }

/-! ## The length check -/

/-- What is stripped of a received buffer: the digest, and the IV before an
encrypted payload. -/
def overhead (key : Option Key) : Nat := 32 + if key.isSome then 16 else 0

theorem overhead_le (key : Option Key) : overhead key ≤ 48 := by
  unfold overhead
  split <;> decide

/-- A buffer too short for what is stripped is refused before anything is read;
otherwise every access is inside its buffer. -/
def LengthSafe (key : Option Key) (protocolBuflen outputBuflen : UInt32) (r : Received) : Prop :=
  if protocolBuflen.toNat < overhead key then r.rc = portEsize ∧ r.accesses = []
  else ∀ a ∈ r.accesses, a.off + a.len ≤
    match a.buffer with
    | .protocol => protocolBuflen.toNat
    | .output => outputBuflen.toNat

theorem saneLength_eq (key : Option Key) : saneLength key = 0 := by
  cases key <;> rfl

section
variable {mb : Mbedtls} {stack : Digest} {key : Option Key} {protocolBuf outputBuf : Mem UInt8}
  {protocolBuflen outputBuflen : UInt32}

theorem received_checked (mb : Mbedtls) (stack : Digest) (key : Option Key) (protocolBuf : Mem UInt8)
    (protocolBuflen : UInt32) (outputBuf : Mem UInt8) (outputBuflen : UInt32) : ∃ rest,
    (protocolEncryptedBufferReceived mb stack key protocolBuf protocolBuflen outputBuf
    outputBuflen).accesses =
      [⟨.protocol, 0, (protocolBuflen - sha256Len).toNat⟩,
      ⟨.protocol, (protocolBuflen - sha256Len).toNat, 32⟩] ++
        rest := by
  rw [protocolEncryptedBufferReceived, saneLength_eq, if_neg (UInt32.not_lt.mpr UInt32.zero_le)]
  simp only
  split
  · exact ⟨[], rfl⟩
  · split
    · split
      · exact ⟨[], rfl⟩
      · split
        · exact ⟨_, rfl⟩
        · exact ⟨_, List.append_assoc ..⟩
    · split
      · exact ⟨[], rfl⟩
      · exact ⟨_, rfl⟩

theorem toNat_digestLen (h : 32 ≤ protocolBuflen.toNat) :
    (protocolBuflen - sha256Len).toNat = protocolBuflen.toNat - 32 :=
  UInt32.toNat_sub_of_le _ _ (UInt32.le_iff_toNat_le.mpr h)

theorem toNat_encryptedBuflen (h : 48 ≤ protocolBuflen.toNat) :
    (protocolBuflen - maxIvLength - sha256Len).toNat = protocolBuflen.toNat - 48 := by
  have hiv : (protocolBuflen - maxIvLength).toNat = protocolBuflen.toNat - 16 :=
    UInt32.toNat_sub_of_le _ _ (UInt32.le_iff_toNat_le.mpr (Nat.le_trans (by decide) h))
  rw [toNat_digestLen (by omega), hiv]
  omega

/-- **When the length check is right**: exactly when it has nothing to refuse. -/
theorem received_lengthSafe_iff (hctr : mb.CtrLength) :
    LengthSafe key protocolBuflen outputBuflen (protocolEncryptedBufferReceived mb stack key protocolBuf
      protocolBuflen outputBuf outputBuflen) ↔ overhead key ≤ protocolBuflen.toNat := by
  constructor
  · intro h
    by_contra hlt
    rw [LengthSafe, if_pos (Nat.not_le.mp hlt)] at h
    obtain ⟨rest, hr⟩ := received_checked mb stack key protocolBuf protocolBuflen outputBuf outputBuflen
    rw [h.2] at hr
    cases hr
  · intro hle
    have h32 : 32 ≤ protocolBuflen.toNat := Nat.le_trans (Nat.le_add_right ..) hle
    rw [LengthSafe, if_neg (Nat.not_lt.mpr hle), protocolEncryptedBufferReceived, saneLength_eq,
      if_neg (UInt32.not_lt.mpr UInt32.zero_le)]
    simp only [toNat_digestLen h32]
    split
    · simp; omega
    · cases key with
      | none =>
        simp only
        split
        · simp; omega
        · next hout =>
          rw [UInt32.not_lt, UInt32.le_iff_toNat_le, toNat_digestLen h32] at hout
          simp; omega
      | some key =>
        have h48 : 48 ≤ protocolBuflen.toNat := hle
        simp only [toNat_encryptedBuflen h48]
        split
        · simp; omega
        · next hout =>
          rw [UInt32.not_lt, UInt32.le_iff_toNat_le, toNat_encryptedBuflen h48] at hout
          split
          · simp; omega
          · next hc =>
            have hlen := cipher_length hctr hc
            rw [Mem.length_read] at hlen
            simp; omega

end

/-- A key of zeros, and an IV of zeros. -/
def zeroKey : Key := ⟨List.replicate 32 0, rfl⟩

theorem length_zeros : (List.replicate 16 (0 : UInt8)).length = 16 := rfl

def zeroIv : Iv := ⟨List.replicate 16 0, length_zeros⟩

/-- The first block AES-256-CTR adds under these. -/
def zeroKeystream : Bytes :=
  [220, 149, 192, 120, 162, 64, 137, 137, 173, 72, 162, 20, 146, 132, 32, 135]

/-- The SHA-256 digest of the bytes 1, 5, 2. -/
def sampleHash : Digest :=
  ⟨[68, 154, 84, 128, 111, 110, 40, 248, 143, 187, 159, 196, 126, 84, 76, 97, 190, 190, 87, 197, 196,
    221, 73, 16, 157, 203, 119, 239, 180, 144, 85, 172], rfl⟩

/-- Their HMAC under the key of zeros. -/
def sampleHmac : Digest :=
  ⟨[53, 13, 33, 37, 46, 80, 70, 169, 23, 156, 150, 114, 85, 148, 5, 234, 248, 115, 173, 12, 143, 163,
    53, 39, 146, 8, 140, 237, 243, 134, 83, 57], rfl⟩

/-- The HMAC of their encryption under the key of zeros, after the IV of zeros. -/
def encryptedHmac : Digest :=
  ⟨[158, 242, 41, 252, 77, 95, 221, 238, 184, 29, 226, 81, 118, 59, 252, 113, 184, 12, 188, 160, 206,
    230, 247, 115, 106, 94, 29, 62, 217, 123, 242, 172], rfl⟩

/-- A library that computes these as the real one does. -/
def sampleLibrary : Mbedtls where
  aesCtr := fun _ _ _ xs => (0, xs.mapIdx fun i x => x ^^^ zeroKeystream.getD (i % 16) 0)
  hmac := fun _ xs => (0, if xs = [1, 5, 2] then sampleHmac else encryptedHmac)
  sha256 := fun _ => (0, sampleHash)

theorem sampleLibrary_ctrLength : sampleLibrary.CtrLength := fun _ _ _ _ _ => List.length_mapIdx

theorem sampleLibrary_ctrInverse : sampleLibrary.CtrInverse := by
  intro key iv xs _
  refine Prod.ext rfl (List.ext_getElem (by simp [sampleLibrary]) fun i h _ => ?_)
  simp only [sampleLibrary, List.getElem_mapIdx]
  rw [UInt8.xor_assoc, UInt8.xor_self, UInt8.xor_zero]

theorem sampleLibrary_digestTotal : sampleLibrary.DigestTotal :=
  ⟨fun _ _ => Int.le_refl 0, fun _ => Int.le_refl 0⟩

/-- The three bytes and their digest pass. -/
theorem received_lengthSafe_iff_sample : LengthSafe none 35 3
    (protocolEncryptedBufferReceived sampleLibrary sampleHash
    none (.ofList ([1, 5, 2] ++ sampleHash.val) 0) 35 (fun _ => 0) 3) :=
  (received_lengthSafe_iff sampleLibrary_ctrLength).mpr (by decide)

/-- A buffer one byte shorter than a digest is digested, over a wrapped length. -/
theorem received_short : ¬ LengthSafe none 31 64
    (protocolEncryptedBufferReceived sampleLibrary sampleHash none
    (fun _ => 0) 31 (fun _ => 0) 64) := by
  rintro ⟨-, hnone⟩
  obtain ⟨rest, hr⟩ := received_checked sampleLibrary sampleHash none (fun _ => 0) 31 (fun _ => 0) 64
  rw [hnone] at hr
  cases hr

/-! ## Round trip -/

theorem protocolPayload_eq {mb : Mbedtls} {rand : Int × Iv} {key : Option Key} {clear buf : Bytes}
    (h : protocolPayload mb rand key clear = some buf) :
    ∃ body hmac, buf = body ++ hmac.val ∧ messageDigest mb key body = some hmac ∧
      match key with
      | none => body = clear
      | some key => 0 ≤ (mb.aesCtr .encrypt key rand.2 clear).1 ∧
          body = rand.2.val ++ (mb.aesCtr .encrypt key rand.2 clear).2 := by
  simp only [protocolPayload, Option.bind_eq_bind, Option.bind_eq_some_iff] at h
  obtain ⟨body, hbody, hmac, hdigest, heq⟩ := h
  cases heq
  refine ⟨body, hmac, rfl, hdigest, ?_⟩
  cases key with
  | none =>
    cases hbody
    rfl
  | some key =>
    obtain ⟨⟨iv, enc⟩, hc, rfl⟩ := Option.map_eq_some_iff.mp hbody
    simp only [cipher, if_true, true_and] at hc
    split at hc
    · cases hc
    · split at hc
      · cases hc
      · next hrc =>
        cases hc
        exact ⟨Int.not_lt.mp hrc, rfl⟩

theorem length_protocolPayload {mb : Mbedtls} (hctr : mb.CtrLength) {rand : Int × Iv} {key : Option Key}
    {clear buf : Bytes} (h : protocolPayload mb rand key clear = some buf) :
    buf.length = clear.length + overhead key := by
  obtain ⟨body, hmac, rfl, -, hkey⟩ := protocolPayload_eq h
  rw [List.length_append, hmac.2]
  cases key with
  | none =>
    obtain rfl : body = clear := hkey
    rfl
  | some key =>
    obtain ⟨hrc, rfl⟩ := hkey
    rw [List.length_append, rand.2.2, hctr _ _ _ _ hrc]
    simp only [overhead, Option.isSome_some, if_true]
    omega

/-- **The protocol layer's round trip**: a received payload gives back the
clear text it was made for. -/
theorem received_payload {mb : Mbedtls} (hctr : mb.CtrLength) (hinv : mb.CtrInverse) {rand : Int × Iv}
    {key : Option Key} {clear buf : Bytes} (h : protocolPayload mb rand key clear = some buf)
    (stack : Digest) (out : Mem UInt8) (outlen : UInt32) {m : Mem UInt8} {buflen : UInt32}
    (hm : m.read 0 buflen.toNat = buf) (hclear : clear.length ≤ outlen.toNat)
    (hsmall : clear.length < 2 ^ 31) :
    (protocolEncryptedBufferReceived mb stack key m buflen out outlen).rc = clear.length ∧
      (protocolEncryptedBufferReceived mb stack key m buflen out outlen).output.read 0 clear.length =
      clear := by
  obtain ⟨body, hmac, rfl, hdigest, hkey⟩ := protocolPayload_eq h
  have hbuflen : buflen.toNat = body.length + 32 := by
    have := congrArg List.length hm
    rwa [Mem.length_read, List.length_append, hmac.2] at this
  have hdl : (buflen - sha256Len).toNat = body.length := by rw [toNat_digestLen (by omega)]; omega
  rw [hbuflen, Mem.read_add] at hm
  obtain ⟨hbody, hmac'⟩ := List.append_inj hm (Mem.length_read ..)
  rw [Nat.zero_add] at hmac'
  rw [protocolEncryptedBufferReceived, saneLength_eq, if_neg (UInt32.not_lt.mpr UInt32.zero_le)]
  simp only [hdl, hbody, hdigest, Option.getD_some, hmac', ne_eq, not_true_eq_false, if_false]
  cases key with
  | none =>
    obtain rfl : body = clear := hkey
    have hroom : ¬ outlen < buflen - sha256Len := by
      rw [UInt32.not_lt, UInt32.le_iff_toNat_le, hdl]
      exact hclear
    simp only [if_neg hroom]
    exact ⟨by rw [toInt_of_lt (by omega), hdl], Mem.read_copy ..⟩
  | some key =>
    obtain ⟨hrc, rfl⟩ := hkey
    have hlen : (mb.aesCtr .encrypt key rand.2 clear).2.length = clear.length := hctr _ _ _ _ hrc
    rw [List.length_append, rand.2.2, hlen] at hbuflen
    have hel : (buflen - maxIvLength - sha256Len).toNat = clear.length := by
      rw [toNat_encryptedBuflen (by omega)]; omega
    have hroom : ¬ outlen < buflen - maxIvLength - sha256Len := by
      rw [UInt32.not_lt, UInt32.le_iff_toNat_le, hel]
      exact hclear
    rw [List.length_append, rand.2.2, hlen, Mem.read_add] at hbody
    obtain ⟨hiv, henc⟩ := List.append_inj hbody (by rw [Mem.length_read, rand.2.2])
    have hiv' : Iv.ofMem m 0 = rand.2 := Subtype.ext hiv
    rw [Nat.zero_add] at henc
    have hc : cipher mb (0, rand.2) .decrypt key rand.2 (mb.aesCtr .encrypt key rand.2 clear).2 =
        some (rand.2, clear) := by
      simp only [cipher, reduceCtorEq, false_and, if_false, hinv _ _ _ hrc, Int.lt_irrefl]
    simp only [if_neg hroom, hiv', hel, henc, hc]
    refine ⟨?_, Mem.read_copy ..⟩
    rw [toInt_of_lt] <;> rw [UInt32.toNat_ofNat_of_lt' (by simp [UInt32.size]; omega)]
    exact hsmall

end Signpost
