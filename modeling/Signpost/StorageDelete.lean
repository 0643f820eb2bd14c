/-
A delete of a log, and the messages before it: what `storage_api_callback` finds
behind a name that is sent without the zero that ends it.

All messages are received in one buffer. Each leaves what is behind it there as it was.

The bytes behind a message are followed over any run of messages, so the name that is deleted is
known for every history of the buffer: it is the one that was sent exactly if the byte behind it
happens to be zero.
-/
import Signpost.Async
import Signpost.Dispatch
import Signpost.StorageRequests

namespace Signpost

open Lib

/-! ## The message buffer -/

section
variable {mb : Mbedtls} {digestStack : Digest} {addrToKey : Option (UInt8 → Option Key)} {len : UInt32} {io : RecvOut}
  {buf : Mem UInt8} {buflen : UInt32}

/-- A callback of the protocol layer: an error, or a payload, behind which the buffer is as it was. -/
theorem protocolAsyncCallback_cases (hctr : mb.CtrLength) (hbuflen : buflen.toNat < 2 ^ 31) {cb : Int × Mem UInt8}
    (hcb : protocolAsyncCallback mb digestStack addrToKey len io buf buflen = cb) :
    (cb.1 < 0 ∧ cb.2 = buf) ∨
      ∃ payload : Bytes, cb.1 = payload.length ∧ payload.length < 2 ^ 31 ∧ cb.2 = buf.copy 0 payload := by
  unfold protocolAsyncCallback at hcb
  split at hcb
  · next hneg =>
    subst hcb
    exact .inl ⟨hneg, rfl⟩
  · subst hcb
    rcases received_cases hctr rfl with hrefused | ⟨payload, -, hlen, hrc, hout⟩
    · exact .inl hrefused
    · have hnat : (UInt32.ofNat payload.length).toNat = payload.length :=
        UInt32.toNat_ofNat_of_lt' (Nat.lt_of_le_of_lt hlen buflen.toNat_lt)
      have hsmall : payload.length < 2 ^ 31 := Nat.lt_of_le_of_lt hlen hbuflen
      rw [toInt_of_lt (by omega), hnat] at hrc
      exact .inr ⟨payload, hrc, hsmall, hout⟩

end

namespace Async

/-- The byte at an offset of a message that was delivered, if the message goes so far. -/
def Delivery.byte (i : Nat) (d : Delivery) : Option UInt8 :=
  d.call.frame.bind fun frame => if (i : Int) < d.call.lenOrRc then some (frame.message i) else none

/-- The byte of the last message that went so far. -/
def lastByte (i : Nat) (ds : List Delivery) : Option UInt8 := (ds.filterMap (Delivery.byte i)).getLast?

theorem lastByte_append (i : Nat) (ds ds' : List Delivery) :
    lastByte i (ds ++ ds') = (lastByte i ds').or (lastByte i ds) := by
  rw [lastByte, List.filterMap_append, List.getLast?_append]
  rfl

/-- A delivery of what is in the buffer: an error, or a message of this length. -/
structure Leaves (d : Delivery) (before after : Mem UInt8) : Prop where
  frame : ∀ frame ∈ d.call.frame, frame.message = (fun i => after (3 + i)) ∧
    d.call.lenOrRc = toInt frame.messageLength
  byte : ∀ i, after (3 + i) = (d.byte i).getD (before (3 + i))

section
variable {layers : Layers} {s s' : State} {e : Event} {es : List Event} {d : Delivery} {ds : List Delivery}

theorem lenOrRc_payload {payload : Bytes} (hlen : payload.length < 2 ^ 31) (src : UInt8) (buf : Mem UInt8) :
    (appLayerCallback payload.length src buf).lenOrRc = payload.length - 3 := by
  have hnat : (UInt32.ofInt payload.length).toNat = payload.length := toNat_ofInt (by omega)
  have hthree : (3 : UInt32).toNat = 3 := rfl
  rw [appLayerCallback, if_neg (by omega)]
  simp only [appParse, toInt_eq, UInt32.toNat_sub, hnat, hthree]
  split <;> omega

theorem leaves_callback {key : UInt8 × UInt16} {result : Result} {cb : Int × Mem UInt8} {src : UInt8}
    {buf : Mem UInt8} (hcb : (cb.1 < 0 ∧ cb.2 = buf) ∨
      ∃ payload : Bytes, cb.1 = payload.length ∧ payload.length < 2 ^ 31 ∧ cb.2 = buf.copy 0 payload) :
    Leaves ⟨key, result, appLayerCallback cb.1 src cb.2⟩ buf cb.2 := by
  rcases hcb with ⟨hneg, hbuf⟩ | ⟨payload, hrc, hlen, hbuf⟩
  · rw [appLayerCallback_neg hneg]
    exact ⟨by simp, fun i => by rw [hbuf]; rfl⟩
  · have hcount := lenOrRc_payload hlen src cb.2
    rw [hrc]
    have hframe : (appLayerCallback payload.length src cb.2).frame =
        some (appParse cb.2 (UInt32.ofInt payload.length)) :=
      congrArg AppCall.frame (if_neg (by omega))
    constructor
    · intro frame hmem
      rw [hframe] at hmem
      cases hmem
      refine ⟨rfl, ?_⟩
      rw [appLayerCallback, if_neg (by omega)]
    · intro i
      simp only [Delivery.byte, hframe, hcount, Option.bind_some]
      split
      · rfl
      · next hshort => rw [hbuf, Mem.copy_after (by omega), Option.getD_none]

theorem step_leaves (hctr : layers.mb.CtrLength) (hstep : s.step layers e = some (s', ds)) :
    (ds = [] ∧ s'.recvBuf = s.recvBuf) ∨ ∃ d, ds = [d] ∧ Leaves d s.recvBuf s'.recvBuf := by
  obtain ⟨t, hact, heq⟩ := Option.map_eq_some_iff.mp hstep
  have hsame : t.recvBuf = s.recvBuf := by
    cases e with
    | arrive b stack =>
      cases hact
      simp only [State.slaveWrite]
      split <;> rfl
    | timer =>
      cases hact
      rfl
    | startSend | sendDone | ret =>
      simp only [State.act] at hact
      split at hact <;> cases hact <;> rfl
  rw [← hsame]
  unfold State.settle at heq
  split at heq
  · split at heq
    · simp only at heq
      split at heq
      · simp only [State.finish] at heq
        split at heq
        · cases heq
          exact .inr ⟨_, rfl, leaves_callback (protocolAsyncCallback_cases hctr (by decide) rfl)⟩
        · cases heq
          exact .inl ⟨rfl, rfl⟩
      · cases heq
        exact .inl ⟨rfl, rfl⟩
    · cases heq
      exact .inl ⟨rfl, rfl⟩
  · cases heq
    exact .inl ⟨rfl, rfl⟩

/-- After any run, the buffer has the last bytes that went as far, or what it had at first. -/
theorem recvBuf_run (hctr : layers.mb.CtrLength)
    (hrun : Run (fun s e s' ds => s.step layers e = some (s', ds)) s es s' ds) (i : Nat) :
    s'.recvBuf (3 + i) = (lastByte i ds).getD (s.recvBuf (3 + i)) := by
  refine hrun.history (fun ds t => t.recvBuf (3 + i) = (lastByte i ds).getD (s.recvBuf (3 + i))) ?_ rfl
  intro ds t e t' o hbuf hstep
  rcases step_leaves hctr hstep with ⟨rfl, hsame⟩ | ⟨d, rfl, hleaves⟩
  · rw [hsame, List.append_nil, hbuf]
  · rw [hleaves.byte, hbuf, lastByte_append]
    cases hd : d.byte i with
    | none => simp [lastByte, hd]
    | some b => simp [lastByte, hd]

end

end Async

/-! ## Deletes -/

/-- The payload of `signpost_storage_delete`. -/
def storageDeleteMarshal (heap : Mem UInt8) (recordPointer : Ptr) : Bytes := logName heap recordPointer

/-- What `storage_api_callback` is called with. -/
def AppCall.command (call : AppCall) (frame : Parsed) : Command :=
  ⟨call.senderAddress, frame.apiType, frame.messageType, frame.messageLength, frame.message⟩

section
variable {σ φ : Type} {layers : Layers} {s s' s'' : Async.State} {e : Async.Event} {es : List Async.Event}
  {d : Async.Delivery} {ds : List Async.Delivery} {frame : Parsed} {heap : Mem UInt8} {record : Ptr}

theorem fileRequest_delete {m : Master σ φ} {c : Command} {name : Bytes}
    (hdelete : c.Asks storageDeleteMessage name) :
    c.fileRequest m = some (.del (requestLogname m c.message)) := by
  obtain ⟨source, _, _, n, message⟩ := c
  obtain ⟨rfl, rfl, -⟩ := hdelete
  simp only [Command.fileRequest, ne_eq, not_true_eq_false, if_false, if_true]
  rw [if_neg (by decide), if_neg (by decide), if_neg (by decide)]

theorem behind_message (hctr : layers.mb.CtrLength) (hzero : s.recvBuf = fun _ => 0)
    (hrun : Run (fun s e s' ds => s.step layers e = some (s', ds)) s es s' ds)
    (hstep : s'.step layers e = some (s'', [d])) (hframe : d.call.frame = some frame)
    (hsmall : frame.messageLength.toNat < 2 ^ 31) :
    frame.message frame.messageLength.toNat = (Async.lastByte frame.messageLength.toNat ds).getD 0 := by
  obtain ⟨hnil, -⟩ | ⟨d', hd, hleaves⟩ := Async.step_leaves hctr hstep
  · cases hnil
  · cases hd
    obtain ⟨hmessage, hlength⟩ := hleaves.frame frame hframe
    have hnone : d.byte frame.messageLength.toNat = none := by
      rw [Async.Delivery.byte, hframe, Option.bind_some, hlength, toInt_of_lt hsmall]
      exact if_neg (Int.lt_irrefl _)
    have hbuf := hleaves.byte frame.messageLength.toNat
    rw [hnone, Option.getD_none, Async.recvBuf_run hctr hrun, hzero] at hbuf
    rwa [hmessage]

/-- **When a delete deletes the log it names.** After every history of messages in the
buffer, which is zero at first: the one call that is made for a delete has the name of the
record if and only if what the history has left behind it is a zero, where the last
message that went so far has its byte there; or, behind a name of 32 bytes, a zero was on
the stack. -/
theorem delete_exact_iff (hctr : layers.mb.CtrLength) (hzero : s.recvBuf = fun _ => 0)
    (hrun : Run (fun s e s' ds => s.step layers e = some (s', ds)) s es s' ds)
    (hstep : s'.step layers e = some (s'', [d])) (hframe : d.call.frame = some frame)
    (hdelete : (d.call.command frame).Asks storageDeleteMessage (storageDeleteMarshal heap record))
    (m : Master σ φ) :
    (∃ filename, (d.call.command frame).fileRequest m = some (.del filename) ∧
        StringAt filename (logName heap record)) ↔
      (if (logName heap record).length < storageLogLen then (Async.lastByte (logName heap record).length ds).getD 0
        else m.stack storageLogLen) = 0 := by
  have hzeroName : 0 ∉ logName heap record := zero_not_mem_strn _ _
  have hle : (logName heap record).length ≤ storageLogLen := length_strn_le _ _
  have hpayload : frame.message.read 0 frame.messageLength.toNat = logName heap record := hdelete.payload
  have hlen : frame.messageLength.toNat = (logName heap record).length := by rw [← hpayload, Mem.length_read]
  have hsmall : frame.messageLength.toNat < 2 ^ 31 := by
    rw [hlen]
    exact Nat.lt_of_le_of_lt hle (by decide)
  have hbehind := behind_message hctr hzero hrun hstep hframe hsmall
  rw [hlen] at hbehind hpayload
  have hstring := stringAt_requestLogname_iff (m := m) hzeroName hle hpayload
  rw [hbehind] at hstring
  rw [fileRequest_delete hdelete, ← hstring]
  constructor
  · rintro ⟨filename, hcall, hname⟩
    cases hcall
    exact hname
  · intro hname
    exact ⟨_, rfl, hname⟩

end

/-! ## A delete after a write -/

/-- A library that computes the digests of these payloads as the real one does: a write to
the log `ab`, a delete of `a`, and one of `ab`. -/
def deleteLibrary : Mbedtls :=
  { sampleLibrary with
    sha256 := fun xs =>
      if xs = [1, 2, 2, 0x61] then
        (0, ⟨[30, 205, 183, 122, 62, 228, 5, 49, 3, 210, 160, 236, 222, 200, 138, 23, 241, 191, 14, 158, 200, 58,
          26, 89, 144, 114, 114, 202, 213, 247, 243, 105], rfl⟩)
      else if xs = [1, 2, 2, 0x61, 0x62] then
        (0, ⟨[148, 242, 94, 177, 232, 84, 177, 58, 191, 80, 64, 24, 208, 135, 183, 105, 18, 103, 138, 66, 100,
          161, 139, 186, 15, 251, 143, 50, 176, 240, 163, 225], rfl⟩)
      else
        (0, ⟨[132, 23, 199, 72, 20, 131, 101, 23, 214, 89, 164, 87, 156, 63, 18, 215, 34, 91, 178, 25, 40, 183,
          5, 66, 71, 126, 81, 203, 24, 187, 112, 27], rfl⟩) }

def deleteLayers : Layers := ⟨deleteLibrary, sampleHash, none⟩

/-- The packet of a message with this payload. -/
def commandPacket (seq : UInt16) (clear : Bytes) : Bytes :=
  (⟨0x31, seq, false, clear ++ (deleteLibrary.sha256 clear).2.val⟩ : Message).fragment 0

/-- The packet arrives, and the handler answers before it returns. -/
def writeEvents : List Async.Event :=
  [.arrive (commandPacket 0 [1, 2, 0, 0x61, 0x62, 0, 1, 2, 3, 4]) ⟨0, 0, 0⟩, .startSend, .sendDone, .ret]

/-- After them, a packet with a delete of this name. -/
def deletePacket (name : Bytes) : Async.Event := .arrive (commandPacket 1 ([1, 2, 2] ++ name)) ⟨0, 0, 0⟩

/-- The delete is delivered after the write, and finds `ab` in the buffer. -/
structure FindsAb (name : Bytes) (s' : Async.State) (ds : List Async.Delivery) (s'' : Async.State)
    (d : Async.Delivery) (frame : Parsed) : Prop where
  run : Run (fun s e s' ds => s.step deleteLayers e = some (s', ds)) Async.armedState writeEvents s' ds
  step : s'.step deleteLayers (deletePacket name) = some (s'', [d])
  delivered : d.call.frame = some frame
  delete : (d.call.command frame).Asks storageDeleteMessage name
  found : frame.message.read 0 3 = [0x61, 0x62, 0]

theorem FindsAb.letters {name : Bytes} {s' s'' : Async.State} {ds : List Async.Delivery} {d : Async.Delivery}
    {frame : Parsed} (h : FindsAb name s' ds s'' d frame) : frame.message 1 = 0x62 ∧ frame.message 2 = 0 :=
  ⟨congrArg (fun b => b.getD 1 0) h.found, congrArg (fun b => b.getD 2 0) h.found⟩

theorem exists_findsAb {name : Bytes}
    (h : (Run.exec (Async.State.step deleteLayers) Async.armedState writeEvents).any (fun before =>
      (before.1.step deleteLayers (deletePacket name)).any fun after =>
        after.2.map (fun d => d.call.frame.map fun f =>
            (f.apiType, f.messageType, f.message.read 0 f.messageLength.toNat, f.message.read 0 3)) =
          [some (storageApiType, storageDeleteMessage, name, [0x61, 0x62, 0])]) = true) :
    ∃ s' ds s'' d frame, FindsAb name s' ds s'' d frame := by
  obtain ⟨⟨s', ds⟩, hexec, hafter⟩ := (Option.any_eq_true _ _).mp h
  obtain ⟨⟨s'', ds''⟩, hstep, hds⟩ := (Option.any_eq_true _ _).mp hafter
  obtain ⟨d, rfl, hd⟩ := List.map_eq_singleton_iff.mp (of_decide_eq_true hds)
  obtain ⟨frame, hframe, hparts⟩ := Option.map_eq_some_iff.mp hd
  simp only [Prod.mk.injEq] at hparts
  obtain ⟨hapi, htype, hname, hfound⟩ := hparts
  exact ⟨s', ds, s'', d, frame, Run.of_exec hexec, hstep, hframe, ⟨hapi, htype, hname⟩, hfound⟩

/-- A delete of `ab` after the write finds the zero that ended the name there. -/
theorem delete_exact_iff_ab : ∃ s' ds s'' d frame, FindsAb [0x61, 0x62] s' ds s'' d frame ∧
    ∃ filename, (d.call.command frame).fileRequest cardMaster = some (.del filename) ∧
      StringAt filename (logName (.ofList [0x61, 0x62] 0) 0) := by
  have hctr : deleteLayers.mb.CtrLength := sampleLibrary_ctrLength
  have hname : storageDeleteMarshal (.ofList [0x61, 0x62] 0) 0 = [0x61, 0x62] := by decide +kernel
  obtain ⟨s', ds, s'', d, frame, hfinds⟩ : ∃ s' ds s'' d frame, FindsAb [0x61, 0x62] s' ds s'' d frame :=
    exists_findsAb (by decide +kernel)
  have hlen : frame.messageLength.toNat = 2 := by
    have h := congrArg List.length hfinds.delete.payload
    rwa [Mem.length_read] at h
  have hbehind := behind_message hctr rfl hfinds.run hfinds.step hfinds.delivered (by rw [hlen]; decide)
  rw [hlen, hfinds.letters.2] at hbehind
  refine ⟨s', ds, s'', d, frame, hfinds, ?_⟩
  refine (delete_exact_iff hctr rfl hfinds.run hfinds.step hfinds.delivered (hname ▸ hfinds.delete) cardMaster).mpr ?_
  have hlength : (logName (.ofList [0x61, 0x62] 0) 0).length = 2 := congrArg List.length hname
  rw [hlength, if_pos (by decide)]
  exact hbehind.symm

/-- A delete of `a` after the write finds the next letter there, and deletes `ab`. -/
theorem delete_other : ∃ s' ds s'' d frame, FindsAb (storageDeleteMarshal (.ofList [0x61] 0) 0) s' ds s'' d frame ∧
    ∃ filename, (d.call.command frame).fileRequest cardMaster = some (.del filename) ∧
      StringAt filename [0x61, 0x62] ∧ ¬ StringAt filename (logName (.ofList [0x61] 0) 0) := by
  have hname : storageDeleteMarshal (.ofList [0x61] 0) 0 = [0x61] := by decide +kernel
  have hlog : logName (.ofList [0x61] 0) 0 = [0x61] := hname
  obtain ⟨s', ds, s'', d, frame, hfinds⟩ : ∃ s' ds s'' d frame, FindsAb [0x61] s' ds s'' d frame :=
    exists_findsAb (by decide +kernel)
  have htwo : frame.message.read 0 2 = [0x61, 0x62] := congrArg (List.take 2) hfinds.found
  have hone : frame.message.read 0 1 = [0x61] := congrArg (List.take 1) hfinds.found
  rw [hname, hlog]
  refine ⟨s', ds, s'', d, frame, hfinds, _, fileRequest_delete hfinds.delete, ?_, ?_⟩
  · rw [stringAt_requestLogname_iff (by decide) (by decide) htwo, if_pos (by decide)]
    exact hfinds.letters.2
  · rw [stringAt_requestLogname_iff (by decide) (by decide) hone, if_pos (by decide)]
    show frame.message 1 ≠ 0
    rw [hfinds.letters.1]
    decide

end Signpost
