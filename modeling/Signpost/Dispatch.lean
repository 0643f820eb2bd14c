/-
From a payload of the protocol layer to what `signpost_api.c` calls for it: the
callback of a handler, or the one that waits for a response.

Before a message come three bytes. The length of a shorter payload, less three,
wraps around as a `size_t`, and is negative as the `int` that is called back with.

So each step is stated for payloads of any length, and the short ones are
followed to their end, on both receive paths: nothing is called for them.
-/
import Signpost.Auth
import Signpost.Calls

namespace Signpost

open Lib

/-! ## What the protocol layer delivers -/

/-- The clear text of a buffer, behind its checks. -/
def protocolClear (mb : Mbedtls) (key : Option Key) (protocolBuf : Mem UInt8) (protocolBuflen : UInt32) :
    Option Bytes :=
  match key with
  | some key =>
    let iv := Iv.ofMem protocolBuf 0
    (cipher mb (0, iv) .decrypt key iv
      (protocolBuf.read 16 (protocolBuflen - maxIvLength - sha256Len).toNat)).map Prod.snd
  | none => some (protocolBuf.read 0 (protocolBuflen - sha256Len).toNat)

/-- A buffer does not pass, and nothing changes, or its clear text is put in front of
what was in the output. -/
theorem received_cases {mb : Mbedtls} (hctr : mb.CtrLength) {stack : Digest} {key : Option Key}
    {protocolBuf outputBuf : Mem UInt8} {protocolBuflen outputBuflen : UInt32} {r : Received}
    (hr : protocolEncryptedBufferReceived mb stack key protocolBuf protocolBuflen outputBuf outputBuflen = r) :
    (r.rc < 0 ∧ r.output = outputBuf) ∨
      ∃ clear, protocolClear mb key protocolBuf protocolBuflen = some clear ∧
        clear.length ≤ outputBuflen.toNat ∧ r.rc = toInt (UInt32.ofNat clear.length) ∧
        r.output = outputBuf.copy 0 clear := by
  have hsize : (portEsize : Int) < 0 := by decide
  have hmem : (portEnomem : Int) < 0 := by decide
  have hfail : (portFail : Int) < 0 := by decide
  simp only [protocolEncryptedBufferReceived, saneLength_eq, if_neg (UInt32.not_lt.mpr UInt32.zero_le)] at hr
  split at hr
  · subst hr
    exact .inl ⟨hmem, rfl⟩
  · cases key with
    | some key =>
      simp only at hr
      split at hr
      · subst hr
        exact .inl ⟨hsize, rfl⟩
      · next hroom =>
        rw [UInt32.not_lt, UInt32.le_iff_toNat_le] at hroom
        cases hcipher : cipher mb (0, Iv.ofMem protocolBuf 0) .decrypt key (Iv.ofMem protocolBuf 0)
            (protocolBuf.read 16 (protocolBuflen - maxIvLength - sha256Len).toNat) with
        | none =>
          simp only [hcipher] at hr
          subst hr
          exact .inl ⟨hfail, rfl⟩
        | some out =>
          obtain ⟨iv, clear⟩ := out
          simp only [hcipher] at hr
          subst hr
          have hlen : clear.length = (protocolBuflen - maxIvLength - sha256Len).toNat :=
            (cipher_length hctr hcipher).trans (Mem.length_read ..)
          exact .inr ⟨clear, by simp only [protocolClear, hcipher, Option.map_some], hlen ▸ hroom, rfl, rfl⟩
    | none =>
      simp only at hr
      split at hr
      · subst hr
        exact .inl ⟨hsize, rfl⟩
      · next hroom =>
        rw [UInt32.not_lt, UInt32.le_iff_toNat_le] at hroom
        subst hr
        refine .inr ⟨_, rfl, ?_, ?_, rfl⟩
        · rwa [Mem.length_read]
        · rw [Mem.length_read, UInt32.ofNat_toNat]

theorem received_clear {mb : Mbedtls} (hctr : mb.CtrLength) {stack : Digest} {key : Option Key}
    {protocolBuf outputBuf : Mem UInt8} {protocolBuflen outputBuflen : UInt32} {r : Received}
    (hr : protocolEncryptedBufferReceived mb stack key protocolBuf protocolBuflen outputBuf outputBuflen = r)
    (hrc : 0 ≤ r.rc) : ∃ clear, protocolClear mb key protocolBuf protocolBuflen = some clear ∧
      r.rc = clear.length ∧ clear.length < 2 ^ 31 ∧ r.output = outputBuf.copy 0 clear := by
  rcases received_cases hctr hr with ⟨hneg, -⟩ | ⟨clear, hclear, hlen, hrc', hout⟩
  · exact absurd hrc (Int.not_le.mpr hneg)
  · have hnat : (UInt32.ofNat clear.length).toNat = clear.length :=
      UInt32.toNat_ofNat_of_lt' (Nat.lt_of_le_of_lt hlen outputBuflen.toNat_lt)
    rw [hrc'] at hrc
    obtain ⟨heq, hlt⟩ := toInt_of_nonneg hrc
    rw [hnat] at heq hlt
    exact ⟨clear, hclear, hrc'.trans heq, hlt, hout⟩

/-! ## What the application layer makes of it -/

/-- Header and message make up the payload. -/
def Parsed.Makes (frame : Parsed) (payload : Bytes) : Prop :=
  payload = frame.frameType :: frame.apiType :: frame.messageType :: frame.message.read 0 frame.messageLength.toNat

/-- The callback is called with an error for a payload that is too short for a
header, and else with what makes up the payload. -/
structure AppCall.Takes (call : AppCall) (payload : Bytes) : Prop where
  short : payload.length < 3 → call.lenOrRc < 0
  whole : 3 ≤ payload.length → ∃ frame, call.frame = some frame ∧ frame.Makes payload ∧
    call.lenOrRc = frame.messageLength.toNat

theorem appLayerCallback_takes {payload : Bytes} (hlen : payload.length < 2 ^ 31) (src : UInt8) (buf : Mem UInt8) :
    (appLayerCallback payload.length src (buf.copy 0 payload)).Takes payload := by
  have hofInt : (UInt32.ofInt payload.length).toNat = payload.length := toNat_ofInt (by omega)
  rw [appLayerCallback, if_neg (by omega)]
  constructor
  case short =>
    intro hshort
    have hcases : payload.length = 0 ∨ payload.length = 1 ∨ payload.length = 2 := by omega
    rcases hcases with h | h | h <;> simp only [appParse, h] <;> decide
  case whole =>
    intro hwhole
    obtain ⟨a, b, c, message, rfl⟩ : ∃ a b c message, payload = a :: b :: c :: message := by
      rcases payload with _ | ⟨a, _ | ⟨b, _ | ⟨c, message⟩⟩⟩
      case cons.cons.cons => exact ⟨a, b, c, message, rfl⟩
      all_goals exact absurd hwhole (by simp)
    have hmessage : (a :: b :: c :: message).length = message.length + 3 := rfl
    have hn : (UInt32.ofNat message.length).toNat = message.length :=
      UInt32.toNat_ofNat_of_lt' (by simp only [UInt32.size]; omega)
    have hread : (buf.copy 0 (a :: b :: c :: message)).read 0 (a :: b :: c :: message).length =
        a :: b :: c :: (Mem.ofList message 0).read 0 (UInt32.ofNat message.length).toNat := by
      rw [Mem.read_copy, hn, Mem.read_ofList]
    obtain ⟨h0, h1, h2, h3, h4⟩ := appParse_frame (hofInt.trans (by rw [hn, hmessage])) (by rw [hofInt, hread])
    have hsmall : (UInt32.ofNat message.length).toNat < 2 ^ 31 := by omega
    refine ⟨_, rfl, ?_, ?_⟩
    · rw [Parsed.Makes, h0, h1, h2, h3, h4, hn, Mem.read_ofList]
    · simp only [h3]
      exact toInt_of_lt hsmall

/-! ## What is called for it -/

/-- The call of a handler's callback, with its arguments. -/
structure HandlerCall where
  handler : Nat
  sourceAddress : UInt8
  frame : Parsed

/-- The call that `signpost_api_recv_callback` makes of a handler. -/
def Api.handlerCall (s : Api) (call : AppCall) : Option HandlerCall :=
  match s.recv call with
  | (s', some (.handler i)) => some ⟨i, call.senderAddress, s'.incoming⟩
  | _ => none

section
variable {s : Api} {call : AppCall} {payload : Bytes}

theorem Api.recv_error (h : call.lenOrRc < 0) :
    s.recv call = ({ s with incoming := call.frame.getD s.incoming }, none) ∧ s.taker call = none ∧
      s.handlerCall call = none := by
  have hrecv : s.recv call = ({ s with incoming := call.frame.getD s.incoming }, none) := by
    rw [Api.recv, signpostApiRecvCallback, if_pos h]
  refine ⟨hrecv, ?_, ?_⟩
  · rw [Api.taker]
    exact if_neg fun hle => absurd hle.1 (Int.not_le.mpr h)
  · rw [Api.handlerCall, hrecv]

theorem Api.taker_nonneg {cb : Callback} (h : s.taker call = some cb) : 0 ≤ call.lenOrRc := by
  rw [← Int.not_lt]
  intro hneg
  rw [(Api.recv_error hneg).2.1] at h
  cases h

theorem Api.handlerCall_nonneg {c : HandlerCall} (h : s.handlerCall call = some c) : 0 ≤ call.lenOrRc := by
  rw [← Int.not_lt]
  intro hneg
  rw [(Api.recv_error hneg).2.2] at h
  cases h

theorem AppCall.Takes.of_nonneg (h : call.Takes payload) (hrc : 0 ≤ call.lenOrRc) :
    ∃ frame, call.frame = some frame ∧ frame.Makes payload ∧ call.lenOrRc = frame.messageLength.toNat := by
  refine h.whole ?_
  by_contra hlt
  have := h.short (by omega)
  omega

theorem Api.handlerCall_eq {c : HandlerCall} {frame : Parsed} (h : s.handlerCall call = some c)
    (hframe : call.frame = some frame) : c.frame = frame ∧ c.sourceAddress = call.senderAddress ∧
      (frame.frameType = notificationFrame ∨ frame.frameType = commandFrame) ∧
      s.apiHandlers.findIdx? (fun api => api = frame.apiType) = some c.handler := by
  have hrc := Int.not_lt.mpr (Api.handlerCall_nonneg h)
  cases htaker : s.taker call with
  | some cb =>
    rw [Api.handlerCall, Api.recv_taker htaker] at h
    have hcalled : ∀ s i, (cb.run call.lenOrRc s).2 ≠ some (.handler i) := by
      intro s i
      cases cb with
      | energyQueryAsync => grind [Callback.run, energyQueryAsyncCallback]
      | initializationGetState | storageScan | storageWrite | storageRead | networking | energyReport | energyReset
      | timelocation | processing | watchdog | other => simp [Callback.run]
    split at h
    · next hrun => exact absurd (congrArg Prod.snd hrun) (hcalled _ _)
    · cases h
  | none =>
    simp only [Api.handlerCall, Api.recv, signpostApiRecvCallback, hframe, Option.getD_some, if_neg hrc] at h
    simp only [Api.taker, hframe, Option.getD_some] at htaker
    by_cases hcommand : frame.frameType = notificationFrame ∨ frame.frameType = commandFrame
    · simp only [if_pos hcommand] at h
      split at h
      · next s' i hsome =>
        obtain ⟨hs, hi⟩ := Prod.mk.inj hsome
        obtain ⟨j, hj, hij⟩ := Option.map_eq_some_iff.mp hi
        cases hij
        cases h
        subst hs
        exact ⟨rfl, rfl, hcommand, hj⟩
      · cases h
    · simp only [if_neg hcommand] at h
      split at h
      · next hsome => grind
      · cases h

end

/-- What is called for a payload: nothing for one that is too short for a
header; and a handler or the callback that waits gets what makes up the
payload, as its frame type and its API say. -/
structure Api.Dispatches (s : Api) (call : AppCall) (payload : Bytes) : Prop where
  short : payload.length < 3 →
    s.recv call = ({ s with incoming := call.frame.getD s.incoming }, none) ∧ s.taker call = none
  handler : ∀ c, s.handlerCall call = some c → c.frame.Makes payload ∧
    (c.frame.frameType = notificationFrame ∨ c.frame.frameType = commandFrame) ∧
    s.apiHandlers.findIdx? (fun api => api = c.frame.apiType) = some c.handler
  callback : ∀ cb, s.taker call = some cb → ∃ frame : Parsed, frame.Makes payload ∧
    (frame.frameType = responseFrame ∨ frame.frameType = errorFrame) ∧
    s.recv call = cb.run frame.messageLength.toNat { s with incoming := frame, incomingActiveCallback := none }

theorem AppCall.Takes.dispatches {call : AppCall} {payload : Bytes} (h : call.Takes payload) (s : Api) :
    s.Dispatches call payload := by
  constructor
  case short =>
    intro hshort
    obtain ⟨hrecv, htaker, -⟩ := Api.recv_error (s := s) (h.short hshort)
    exact ⟨hrecv, htaker⟩
  case handler =>
    intro c hc
    obtain ⟨frame, hframe, hmakes, -⟩ := h.of_nonneg (Api.handlerCall_nonneg hc)
    obtain ⟨hc', -, htype, hfind⟩ := Api.handlerCall_eq hc hframe
    rw [hc']
    exact ⟨hmakes, htype, hfind⟩
  case callback =>
    intro cb hcb
    obtain ⟨frame, hframe, hmakes, hlen⟩ := h.of_nonneg (Api.taker_nonneg hcb)
    refine ⟨frame, hmakes, ?_, ?_⟩
    · rw [Api.taker, hframe, Option.getD_some] at hcb
      split at hcb
      · next hle => exact hle.2
      · cases hcb
    · rw [Api.recv_taker hcb, hframe, Option.getD_some, hlen]

/-! ## The synchronous path -/

/-- `signbus_app_recv`: its code, and what it parses. -/
def signbusAppRecv (mb : Mbedtls) (listen : Int) (addrToKey : Option (UInt8 → Option Key)) (digestStack : Digest)
    (packetBuf : Mem UInt8) (stack : GetMessage) (io : RecvOut) (recvBuflen : UInt32) (recvBuf : Mem UInt8)
    (arrivals : List Bytes) : Option (Int × Option Parsed) :=
  (signbusProtocolRecv mb listen addrToKey digestStack packetBuf stack io recvBuflen recvBuf arrivals).map
    fun (lenOrRc, buf) =>
      if lenOrRc < 0 then (lenOrRc, none)
      else
        let frame := appParse buf (UInt32.ofInt lenOrRc)
        (toInt frame.messageLength, some frame)

/-! ## Short payloads -/

section
variable {mb : Mbedtls} {digestStack : Digest} {addrToKey : Option (UInt8 → Option Key)} {len : UInt32} {io : RecvOut}
  {buf : Mem UInt8} {buflen : UInt32}

theorem protocolAsyncCallback_takes (hctr : mb.CtrLength) {cb : Int × Mem UInt8}
    (hcb : protocolAsyncCallback mb digestStack addrToKey len io buf buflen = cb) (hrc : 0 ≤ cb.1) (src : UInt8) :
    ∃ payload, protocolClear mb (recvKey addrToKey io.encrypted io.src) io.data len = some payload ∧
      cb.1 = payload.length ∧ (appLayerCallback cb.1 src cb.2).Takes payload := by
  rw [protocolAsyncCallback] at hcb
  split at hcb
  · next hneg =>
    subst hcb
    exact absurd hrc (Int.not_le.mpr hneg)
  · subst hcb
    obtain ⟨payload, hclear, hlen, hsmall, hout⟩ := received_clear hctr rfl hrc
    refine ⟨payload, hclear, hlen, ?_⟩
    simp only [hlen, hout]
    exact appLayerCallback_takes hsmall src buf

theorem appLayerCallback_neg {lenOrRc : Int} (h : lenOrRc < 0) (src : UInt8) (buf : Mem UInt8) :
    appLayerCallback lenOrRc src buf = ⟨lenOrRc, src, none⟩ := if_pos h

/-- **Short payloads reach nobody.** For every buffer that is received: an error
of the protocol layer calls nothing; a payload that is shorter than a header is
an error of the application layer, and calls nothing; and what is called for
any other payload gets what makes it up. The synchronous path returns an error
where the other one calls back with it. -/
theorem short_dispatches_nothing (hctr : mb.CtrLength) :
    (∀ s : Api, ∀ cb, protocolAsyncCallback mb digestStack addrToKey len io buf buflen = cb →
      (cb.1 < 0 → s.recv (appLayerCallback cb.1 io.src cb.2) = (s, none)) ∧
      (0 ≤ cb.1 → ∃ payload, protocolClear mb (recvKey addrToKey io.encrypted io.src) io.data len = some payload ∧
        cb.1 = payload.length ∧ s.Dispatches (appLayerCallback cb.1 io.src cb.2) payload)) ∧
    ∀ listen packetBuf stack arrivals rc parsed,
      signbusAppRecv mb listen addrToKey digestStack packetBuf stack io buflen buf arrivals = some (rc, parsed) →
        0 ≤ rc → ∃ payload frame, 3 ≤ payload.length ∧ parsed = some frame ∧ frame.Makes payload ∧
          rc = frame.messageLength.toNat ∧
          ∃ r ∈ (getMessage (protocolBuflen buflen) packetBuf stack io arrivals).returned,
            protocolClear mb (recvKey addrToKey r.out.encrypted r.out.src) r.out.data r.lengthReceived =
              some payload := by
  refine ⟨fun s cb hcb => ⟨fun hneg => ?_, fun hrc => ?_⟩, ?_⟩
  · rw [appLayerCallback_neg hneg]
    exact (Api.recv_error hneg).1
  · obtain ⟨payload, hclear, hlen, htakes⟩ := protocolAsyncCallback_takes hctr hcb hrc io.src
    exact ⟨payload, hclear, hlen, htakes.dispatches s⟩
  · intro listen packetBuf stack arrivals rc parsed hcall hrc
    obtain ⟨⟨lenOrRc, out⟩, hrecv, heq⟩ := Option.map_eq_some_iff.mp hcall
    have hpos : 0 ≤ lenOrRc := by
      by_contra hneg
      simp only [if_pos (Int.not_le.mp hneg)] at heq
      cases heq
      exact hneg hrc
    rw [signbusProtocolRecv] at hrecv
    split at hrecv
    · next hneg =>
      cases hrecv
      exact absurd hpos (Int.not_le.mpr hneg)
    · obtain ⟨r, hr, hcb⟩ := Option.map_eq_some_iff.mp hrecv
      -- It goes on as the callback does.
      obtain ⟨payload, hclear, -, htakes⟩ := protocolAsyncCallback_takes hctr hcb hpos r.out.src
      simp only [appLayerCallback, if_neg (Int.not_lt.mpr hpos)] at heq htakes
      cases heq
      have hlong : ¬ payload.length < 3 := fun hshort => absurd hrc (Int.not_le.mpr (htakes.short hshort))
      obtain ⟨frame, hframe, hmakes, hlen⟩ := htakes.whole (Nat.not_lt.mp hlong)
      exact ⟨payload, frame, Nat.not_lt.mp hlong, hframe, hmakes, hlen, r, hr, hclear⟩

end

def sampleShort : RecvOut := ⟨.ofList ([1, 5] ++ sampleHash.val) 0, false, 0x20⟩

def sampleShortCall : Int × Mem UInt8 :=
  protocolAsyncCallback sampleLibrary sampleHash none 34 sampleShort (fun _ => 0) 1024

theorem short_dispatches_nothing_two : ∃ payload : Bytes, payload.length = 2 ∧
    Calls.quietApi.Dispatches (appLayerCallback sampleShortCall.1 0x20 sampleShortCall.2) payload := by
  have hrc : sampleShortCall.1 = 2 := by decide +kernel
  obtain ⟨payload, -, hlen, hdispatches⟩ :=
    ((short_dispatches_nothing sampleLibrary_ctrLength).1 Calls.quietApi sampleShortCall rfl).2 (hrc ▸ by decide)
  exact ⟨payload, by omega, hdispatches⟩

end Signpost
