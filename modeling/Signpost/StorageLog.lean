/-
A write to a log and a later read of it, from one module's call to another's:
the payloads of the requests, the storage master, and the response.

A record is where a write's bytes are in the log: the file's length before it,
and their number. `signpost_storage_read` takes its length for the place where
they end.

The card is any that appends: the file functions are a parameter with what they
are documented to do. Each part of the way has a lemma, and the claim's
condition comes from the one that subtracts an offset from a length.
-/
import Signpost.Storage
import Signpost.StorageMaster

namespace Signpost

open Lib

/-! ## Payloads -/

def logName (heap : Mem UInt8) (record : Ptr) : Bytes := strn (fun i => heap (record + i)) storageLogLen

/-- The payload of `signpost_storage_write`. -/
def storageWriteMarshal (heap : Mem UInt8) (recordPointer : Ptr) (data : Bytes) : Bytes :=
  logName heap recordPointer ++ 0 :: data

/-- The payload of `signpost_storage_read`, with what its start has left. -/
def storageReadMarshal (heap : Mem UInt8) (len recordPointer : Ptr) : Bytes :=
  logName heap recordPointer ++
    0 :: (heap.read (recordPointer + 36) 4 ++ 0 :: heap.read len 4)

/-! ## Characters in memory -/

theorem read_requestLogname {σ φ : Type} (m : Master σ φ) (message : Mem UInt8) :
    (requestLogname m message).read 0 storageLogLen = strncpy message storageLogLen := by
  have h := Mem.read_copy m.stack 0 (strncpy message storageLogLen)
  rwa [length_strncpy] at h

theorem strn_requestLogname {σ φ : Type} (m : Master σ φ) (message : Mem UInt8) :
    strn (requestLogname m message) storageLogLen = strn message storageLogLen :=
  strn_of_strncpy (read_requestLogname m message)

theorem read_message {message : Mem UInt8} {name rest : Bytes} {len : Nat}
    (hread : message.read 0 len = name ++ 0 :: rest) :
    len = name.length + 1 + rest.length ∧ message.read 0 (name.length + 1) = name ++ [0] ∧
      message.read (name.length + 1) rest.length = rest := by
  have hlen : len = name.length + 1 + rest.length := by
    have h := congrArg List.length hread
    simp only [Mem.length_read, List.length_append, List.length_cons] at h
    omega
  refine ⟨hlen, ?_⟩
  rw [hlen, Mem.read_add, Nat.zero_add, List.append_cons] at hread
  exact List.append_inj hread (by simp)

theorem strn_message {message : Mem UInt8} {name rest : Bytes} {len n : Nat} (hzero : 0 ∉ name)
    (hlen : name.length ≤ n) (hread : message.read 0 len = name ++ 0 :: rest) : strn message n = name := by
  obtain ⟨-, hname, -⟩ := read_message hread
  rcases Nat.lt_or_eq_of_le hlen with hlt | heq
  · exact strn_append_zero hzero hlt hname
  · rw [Mem.read_add, Nat.zero_add] at hname
    exact strn_full hzero (heq ▸ (List.append_inj hname (by simp)).1)

/-! ## Records in memory -/

theorem record_fields {heap m : Mem UInt8} {r : Ptr} {logname : Bytes} {offset length : UInt32}
    (hname : logname.length = 32) (hread : heap.read r 44 = (setRecord m 0 logname offset length).read 0 44) :
    (Mem.read (fun i => heap (r + i)) 0 32) = logname ∧ heap.read (r + 36) 4 = le32 offset ∧
    u32 heap (r + 36) = offset ∧
      u32 heap (r + 40) = length := by
  have hcell := Mem.read_eq_iff.mp hread
  have h32 : (setRecord m 0 logname offset length).read 0 32 = logname := by
    rw [setRecord, Mem.read_copy_disjoint (.inl (by decide)), Mem.read_copy_disjoint (.inl (by decide))]
    have h := Mem.read_copy m 0 logname
    rwa [hname] at h
  have h36 : (setRecord m 0 logname offset length).read 36 4 = le32 offset := by
    rw [setRecord, Mem.read_copy_disjoint (.inl (by decide))]
    exact Mem.read_copy _ _ (le32 offset)
  have h40 : (setRecord m 0 logname offset length).read 40 4 = le32 length :=
    Mem.read_copy _ _ (le32 length)
  have hoff : heap.read (r + 36) 4 = (setRecord m 0 logname offset length).read 36 4 := by
    rw [Mem.read_eq_iff]
    intro i hi
    rw [Nat.add_assoc, hcell (36 + i) (by omega), Nat.zero_add]
  have hlength : heap.read (r + 40) 4 = (setRecord m 0 logname offset length).read 40 4 := by
    rw [Mem.read_eq_iff]
    intro i hi
    rw [Nat.add_assoc, hcell (40 + i) (by omega), Nat.zero_add]
  refine ⟨?_, hoff.trans h36, u32_of_read (hoff.trans h36), u32_of_read (hlength.trans h40)⟩
  rw [← h32, Mem.read_eq_iff]
  intro i hi
  rw [Nat.zero_add, hcell i (by omega), Nat.zero_add]

/-! ## Logs -/

section
variable {σ φ : Type}

/-- The file system keeps what has been written: `data` is what the file of a
name holds. Nothing but a delete takes bytes away, writes append at the end of
the file, and reads at an offset return the bytes there. -/
structure Ff.Appends (ff : Ff σ φ) (data : σ → Bytes → Bytes) : Prop where
  openAppend_grows (m s n) : data s n <+: data (ff.openAppend m s).2.2 n
  openRead_grows (m s n) : data s n <+: data (ff.openRead m s).2.2 n
  write_grows (fp buf s n) : data s n <+: data (ff.write fp buf s).2.2.2 n
  lseek_grows (fp offset s n) : data s n <+: data (ff.lseek fp offset s).2.2 n
  read_grows (fp length s n) : data s n <+: data (ff.read fp length s).2.2.2 n
  close_grows (fp s n) : data s n <+: data (ff.close fp s).2 n
  append {m s buf} : strnlen m storageLogLen < storageLogLen → (ff.openAppend m s).1 = .ok →
    let o := (ff.openAppend m s).2
    (ff.write o.1 buf o.2).1 = .ok → (ff.fptr o.1).toNat = (data s (strn m storageLogLen)).length ∧
      data (ff.write o.1 buf o.2).2.2.2 (strn m storageLogLen) =
        data s (strn m storageLogLen) ++ buf.take (ff.write o.1 buf o.2).2.1.toNat
  read {m s offset length} : strnlen m storageLogLen < storageLogLen → 0 < length.toNat →
    offset.toNat + length.toNat ≤ (data s (strn m storageLogLen)).length →
    let o := (ff.openRead m s).2
    let l := (ff.lseek o.1 offset o.2).2
    let r := (ff.read l.1 length l.2).2
    (ff.openRead m s).1 = .ok ∧ (ff.lseek o.1 offset o.2).1 = .ok ∧ (ff.read l.1 length l.2).1 = .ok ∧
      (ff.close r.2.1 r.2.2).1 = .ok ∧ r.1 = ((data s (strn m storageLogLen)).drop offset.toNat).take length.toNat

/-- A command to the storage master. -/
structure Command where
  sourceAddress : UInt8
  apiType : UInt8
  messageType : UInt8
  messageLength : UInt32
  message : Mem UInt8

def Master.handle (m : Master σ φ) (c : Command) (s : σ) : Handled σ :=
  storageApiCallback m c.sourceAddress c.apiType c.messageType c.messageLength c.message commandFrame s

/-- What commands leave of the file system, one after the other. -/
def Master.serve (m : Master σ φ) (s : σ) (cs : List Command) : σ :=
  cs.foldl (fun s c => (m.handle c s).fs) s

variable {m : Master σ φ} {data : σ → Bytes → Bytes} {s : σ} {c : Command} {n : Bytes}

@[simp] theorem errorReply_fs {a t d : UInt8} {code : Int} {steps : List FileStep} :
    (errorReply m d a t code steps s).fs = s := rfl

@[simp] theorem response_fs {a t d y : UInt8} {payload : Bytes} {steps : List FileStep} :
    (response m d a t y payload steps s).fs = s := by
  unfold response
  simp only
  split <;> rfl

theorem storageWriteData_grows {ff : Ff σ φ} (h : ff.Appends data) (filename : Mem UInt8)
    (buf : Bytes) (s : σ) (n : Bytes) :
    data s n <+: data (storageWriteData ff filename buf s).fs n := by
  have hopen := h.openAppend_grows filename s n
  have hwrite := hopen.trans (h.write_grows (ff.openAppend filename s).2.1 buf (ff.openAppend filename s).2.2 n)
  unfold storageWriteData
  split
  · exact List.prefix_rfl
  · split
    · exact List.prefix_rfl
    · simp only
      split
      · exact hopen
      · split
        · exact hwrite
        · exact hwrite.trans (h.close_grows _ _ n)

theorem storageReadData_grows {ff : Ff σ φ} (h : ff.Appends data) (filename : Mem UInt8)
    (offset length : UInt32) (s : σ) (n : Bytes) :
    data s n <+: data (storageReadData ff filename offset length s).fs n := by
  have hopen := h.openRead_grows filename s n
  have hseek := hopen.trans (h.lseek_grows (ff.openRead filename s).2.1 offset (ff.openRead filename s).2.2 n)
  unfold storageReadData
  simp only
  split
  · exact hopen
  · split
    · exact hseek
    · split
      · exact hseek.trans (h.read_grows _ _ _ n)
      · exact (hseek.trans (h.read_grows _ _ _ n)).trans (h.close_grows _ _ n)

theorem handle_grows (h : m.ff.Appends data) (hc : c.messageType ≠ storageDeleteMessage) (s : σ)
    (n : Bytes) :
    data s n <+: data (m.handle c s).fs n := by
  unfold Master.handle storageApiCallback
  split
  · exact List.prefix_rfl
  · rw [if_pos rfl]
    split
    · unfold storageScanRequest
      split
      · exact List.prefix_rfl
      · simp only
        split
        · exact List.prefix_rfl
        · rw [apply_ite Handled.fs, errorReply_fs, response_fs, ite_self]
          unfold storageScanFiles
          simp only
          split <;> exact List.prefix_rfl
    · split
      · unfold storageWriteRequest
        simp only
        split
        · exact List.prefix_rfl
        · rw [apply_ite Handled.fs, errorReply_fs, response_fs, ite_self]
          exact storageWriteData_grows h _ _ s n
      · split
        · unfold storageReadRequest
          simp only
          split
          · exact List.prefix_rfl
          · split
            · exact List.prefix_rfl
            · rw [apply_ite Handled.fs, errorReply_fs, response_fs, ite_self]
              exact storageReadData_grows h _ _ _ s n
        · exact List.prefix_rfl

theorem serve_grows (h : m.ff.Appends data) {cs : List Command}
    (hcs : ∀ c ∈ cs, c.messageType ≠ storageDeleteMessage) (s : σ) (n : Bytes) :
    data s n <+: data (m.serve s cs) n := by
  induction cs generalizing s with
  | nil => exact List.prefix_rfl
  | cons c cs ih =>
    have hlater := ih (fun c' hc' => hcs c' (List.mem_cons_of_mem c hc')) (m.handle c s).fs
    exact (handle_grows h (hcs c List.mem_cons_self) s n).trans hlater

/-! ## Writes -/

/-- The answer to a request that has been carried out. -/
def Handled.Answers (h : Handled σ) (r : Reply) : Prop := h.replies = [r] ∧ r.frameType = responseFrame

theorem not_answers_error {a t d : UInt8} {code : Int} {steps : List FileStep} {r : Reply} :
    ¬ (errorReply m d a t code steps s).Answers r := by
  rintro ⟨hr, hframe⟩
  simp only [errorReply, signpostApiErrorReplyRepeating, ite_self, List.cons.injEq, and_true] at hr
  rw [← hr] at hframe
  exact absurd hframe (by decide : errorFrame ≠ responseFrame)

theorem answers_response {a t d y : UInt8} {payload : Bytes} {steps : List FileStep} {r : Reply}
    (h : (response m d a t y payload steps s).Answers r) :
    r.message = payload ∧ 0 ≤ m.send responseFrame := by
  obtain ⟨hr, -⟩ := h
  unfold response at hr
  by_cases hsend : m.send responseFrame < tockSuccess
  · rw [if_pos hsend] at hr
    simp [errorReply, signpostApiErrorReplyRepeating] at hr
  · rw [if_neg hsend] at hr
    exact ⟨(congrArg Reply.message (List.cons.inj hr).1).symm, Int.not_lt.mp hsend⟩

theorem response_answers (hsend : 0 ≤ m.send responseFrame) {a t d y : UInt8} {payload : Bytes}
    {steps : List FileStep} :
    (response m d a t y payload steps s).Answers ⟨d, responseFrame, storageApiType, y, payload⟩ := by
  have hsent : ¬ m.send responseFrame < tockSuccess := Int.not_lt.mpr hsend
  unfold response
  simp only
  rw [if_neg hsent]
  exact ⟨rfl, rfl⟩

theorem storageWriteData_done {ff : Ff σ φ} (h : ff.Appends data) {filename : Mem UInt8} {buf : Bytes}
    (hrc : ¬ (storageWriteData ff filename buf s).rc < tockSuccess)
    (hfull : ¬ (storageWriteData ff filename buf s).value.1.toNat < buf.length) :
    strnlen filename storageLogLen < storageLogLen ∧
      (storageWriteData ff filename buf s).value.2.toNat = (data s (strn filename storageLogLen)).length ∧
      data s (strn filename storageLogLen) ++ buf <+:
        data (storageWriteData ff filename buf s).fs (strn filename storageLogLen) := by
  have hfail : ¬ ¬ tockFail < tockSuccess := by decide
  unfold storageWriteData at hrc hfull ⊢
  split at hrc
  · exact absurd (by decide : tockEinval < tockSuccess) hrc
  · next hslash =>
    rw [if_neg hslash] at hfull ⊢
    split at hrc
    · exact absurd (by decide : tockEsize < tockSuccess) hrc
    · next hsize =>
      rw [if_neg hsize] at hfull ⊢
      have hlen : strnlen filename storageLogLen < storageLogLen :=
        Nat.lt_of_le_of_ne (length_strn_le filename storageLogLen) hsize
      simp only at hrc hfull ⊢
      split at hrc
      · exact absurd hrc hfail
      · next hopen =>
        rw [if_neg hopen] at hfull ⊢
        split at hrc
        · exact absurd hrc hfail
        · next hwrite =>
          rw [if_neg hwrite] at hfull ⊢
          obtain ⟨hoffset, hdata⟩ :=
            h.append hlen (Classical.not_not.mp hopen) (Classical.not_not.mp hwrite)
          refine ⟨hlen, hoffset, ?_⟩
          rw [List.take_of_length_le (Nat.not_lt.mp hfull)] at hdata
          exact hdata ▸ h.close_grows _ _ _

/-- A write that is answered has appended its data, and the answer is a record of where. -/
theorem write_answered (h : m.ff.Appends data) {sourceAddress : UInt8} {messageLength : UInt32}
    {message : Mem UInt8} {name bytes : Bytes} {r : Reply} (hname : 0 ∉ name)
    (hlen : name.length ≤ storageLogLen) (hread : message.read 0 messageLength.toNat = name ++ 0 :: bytes)
    (hr : (m.handle ⟨sourceAddress, storageApiType, storageWriteMessage, messageLength, message⟩ s).Answers r) :
    ∃ logname offset, logname.length = 32 ∧ logname.takeWhile (· ≠ 0) = name ∧ name.length < storageLogLen ∧
      offset.toNat = (data s name).length ∧ 4 ≤ bytes.length ∧ 0 ≤ m.send responseFrame ∧
      r.message = (setRecord (fun _ => 0) 0 logname offset (UInt32.ofNat bytes.length)).read 0 44 ∧
      data s name ++ bytes <+:
        data (m.handle ⟨sourceAddress, storageApiType, storageWriteMessage, messageLength, message⟩ s).fs name := by
  obtain ⟨hmlen, -, hbytes⟩ := read_message hread
  have hlogname : strn (requestLogname m message) storageLogLen = name :=
    (strn_requestLogname m message).trans (strn_message hname hlen hread)
  have hreq : m.handle ⟨sourceAddress, storageApiType, storageWriteMessage, messageLength, message⟩ s =
      storageWriteRequest m sourceAddress storageApiType storageWriteMessage messageLength message s := by
    simp [Master.handle, storageApiCallback, storageWriteMessage, storageScanMessage]
  rw [hreq] at hr ⊢
  unfold storageWriteRequest at hr ⊢
  simp only [strnlen, hlogname] at hr ⊢
  have hdataLen : messageLength.toNat - name.length - 1 = bytes.length := by omega
  rw [hdataLen, hbytes] at hr ⊢
  split at hr
  · exact absurd hr not_answers_error
  · next hlong =>
    rw [if_neg hlong]
    split at hr
    · exact absurd hr not_answers_error
    · next hdone =>
      rw [if_neg hdone, response_fs]
      obtain ⟨hrc, hfull⟩ := not_or.mp hdone
      obtain ⟨hshort, hoffset, happend⟩ := storageWriteData_done h hrc hfull
      rw [strnlen, hlogname] at hshort
      rw [hlogname] at hoffset happend
      obtain ⟨hmessage, hsend⟩ := answers_response hr
      exact ⟨_, _, length_strncpy _ _, (takeWhile_strncpy _ _).trans hlogname, hshort,
        hoffset, by omega, hsend, hmessage,
        happend⟩

/-! ## Reads -/

theorem storageReadData_done {ff : Ff σ φ} (h : ff.Appends data) (filename : Mem UInt8)
    {offset length : UInt32} (hlen : strnlen filename storageLogLen < storageLogLen)
    (hpos : 0 < length.toNat) (hin : offset.toNat + length.toNat ≤ (data s (strn filename storageLogLen)).length) :
    (storageReadData ff filename offset length s).rc = tockSuccess ∧
      (storageReadData ff filename offset length s).value =
        ((data s (strn filename storageLogLen)).drop offset.toNat).take length.toNat := by
  obtain ⟨hopen, hseek, hread, hclose, hbytes⟩ := h.read hlen hpos hin
  unfold storageReadData
  simp only [hopen, hseek, hread, hclose, ne_eq, not_true_eq_false, if_false]
  exact ⟨trivial, hbytes⟩

theorem read_parsed {message heap : Mem UInt8} {len record : Ptr} {messageLength : Nat}
    (hread : message.read 0 messageLength = storageReadMarshal heap len record) :
    let name := logName heap record
    messageLength = name.length + 10 ∧ strn message storageLogLen = name ∧
      u32 message (name.length + 1) = u32 heap (record + 36) ∧
      u32 message (name.length + 6) = u32 heap len := by
  intro name
  have hzero : 0 ∉ name := zero_not_mem_strn _ _
  have hle : name.length ≤ storageLogLen := length_strn_le ..
  obtain ⟨hlen, -, hrest⟩ := read_message hread
  rw [show (heap.read (record + 36) 4 ++ 0 :: heap.read len 4).length = 4 + 1 + 4 by simp, Mem.read_add, Mem.read_add,
    List.append_cons] at hrest
  obtain ⟨hfirst, hlast⟩ := List.append_inj hrest (by simp)
  have hoffset := (List.append_inj hfirst (by simp)).1
  refine ⟨?_, strn_message hzero hle hread, u32_congr hoffset, u32_congr hlast⟩
  rw [hlen]
  simp [name]

theorem handle_read {sourceAddress : UInt8} {messageLength : UInt32} {message : Mem UInt8} :
    m.handle ⟨sourceAddress, storageApiType, storageReadMessage, messageLength, message⟩ s =
      storageReadRequest m sourceAddress storageApiType storageReadMessage messageLength message s := by
  simp [Master.handle, storageApiCallback, storageWriteMessage, storageScanMessage, storageReadMessage]

/-- The answer to a read has as many bytes as are asked for, and there was memory for them. -/
theorem read_answered_length {sourceAddress : UInt8} {messageLength : UInt32}
    {message heap : Mem UInt8} {len record : Ptr} {r : Reply}
    (hread : message.read 0 messageLength.toNat = storageReadMarshal heap len record)
    (hr : (m.handle ⟨sourceAddress, storageApiType, storageReadMessage, messageLength, message⟩ s).Answers r) :
    r.message.length = (u32 heap len).toNat ∧ (m.malloc (u32 heap len)).isSome = true := by
  obtain ⟨hlen, hname, -, hlength⟩ := read_parsed hread
  rw [handle_read] at hr
  unfold storageReadRequest at hr
  simp only [strnlen, strn_requestLogname, hname] at hr
  split at hr
  · exact absurd hr not_answers_error
  · rw [hlength] at hr
    split at hr
    · exact absurd hr not_answers_error
    · next buf hbuf =>
      refine ⟨?_, by rw [hbuf]; rfl⟩
      split at hr
      · exact absurd hr not_answers_error
      · next hdone =>
        rw [(answers_response hr).1, List.length_take, Nat.min_eq_left (Nat.not_lt.mp (not_or.mp hdone).2)]

theorem read_answered (h : m.ff.Appends data) (hsend : 0 ≤ m.send responseFrame) {sourceAddress : UInt8}
    {messageLength : UInt32} {message heap : Mem UInt8} {len record : Ptr}
    (hread : message.read 0 messageLength.toNat = storageReadMarshal heap len record)
    (hshort : (logName heap record).length < storageLogLen) (hpos : 0 < (u32 heap len).toNat)
    (hin : (u32 heap (record + 36)).toNat + (u32 heap len).toNat ≤
      (data s (logName heap record)).length)
    (hmalloc : (m.malloc (u32 heap len)).isSome = true) :
    ∃ r, (m.handle ⟨sourceAddress, storageApiType, storageReadMessage, messageLength, message⟩ s).Answers r ∧
      r.message = ((data s (logName heap record)).drop (u32 heap (record + 36)).toNat).take
        (u32 heap len).toNat := by
  obtain ⟨hlen, hname, hoffset, hlength⟩ := read_parsed hread
  have hlog := (strn_requestLogname m message).trans hname
  obtain ⟨buf, hbuf⟩ := Option.isSome_iff_exists.mp hmalloc
  rw [handle_read]
  unfold storageReadRequest
  simp only [strnlen, hlog]
  rw [if_neg (by omega), hoffset, hlength, hbuf]
  simp only
  obtain ⟨hrc, hvalue⟩ := storageReadData_done h (requestLogname m message) (s := s)
    (by rw [strnlen, hlog]; exact hshort) hpos (by rw [hlog]; exact hin)
  rw [hlog] at hvalue
  have hcount : ((data s (logName heap record)).drop (u32 heap (record + 36)).toNat |>.take
      (u32 heap len).toNat).length = (u32 heap len).toNat := by
    rw [List.length_take, List.length_drop]
    omega
  rw [hrc, hvalue, hcount, if_neg (by simp), List.take_take, Nat.min_self]
  exact ⟨_, response_answers hsend, rfl⟩

end

/-! ## The reader -/

/-- The reply as the application layer hands it on. -/
structure AppCall.Carries (call : AppCall) (r : Reply) : Prop where
  length : call.lenOrRc = r.message.length
  frame : ∃ frame ∈ call.frame, frame.frameType = r.frameType ∧
    frame.message.read 0 r.message.length = r.message

/-- What `signpost_storage_read` leaves and returns when its send has returned
`err` and then this comes in. -/
def storageReadReply (api : Api) (data len record : Ptr) (err : Int) (call : AppCall) :
    Option (Api × Int) :=
  let c := signpostStorageRead data len record
  c.wait.map fun w => w.woken err portSuccess ((c.sent err (c.start api).1).1.recv call).1

section
variable {api : Api} {data len record : Ptr} {err : Int} {call : AppCall} {r : Reply}

/-- The bytes that a record leaves to be read. -/
def left (api : Api) (record : Ptr) : UInt32 := u32 api.heap (record + 40) - u32 api.heap (record + 36)

variable (data len record) in
theorem storageRead_start (hslot : api.incomingActiveCallback = none) :
    ((signpostStorageRead data len record).start api).1 = { api.set .storageReady false with
      storageResult := false
      callbackRecord := record
      callbackData := data
      callbackLength := len
      incomingActiveCallback := some .storageRead
      heap :=
        if u32 api.heap len > left api record then api.heap.copy len (le32 (left api record)) else api.heap } := by
  simp [signpostStorageRead, Api.set, left, hslot, portSuccess]

theorem signpostStorageReadCallback_all {s : Api} {n : Nat} (hdata : s.callbackData ≠ 0)
    (hlen : s.callbackLength ≠ 0) (hn : n = (u32 s.heap s.callbackLength).toNat) :
    (signpostStorageReadCallback n s).storageResult = false ∧
      (signpostStorageReadCallback n s).heap = s.heap.copy s.callbackData
      (s.incoming.message.read 0 n) := by
  have hneg : ¬ (n : Int) < portSuccess := Int.not_lt.mpr (Int.natCast_nonneg n)
  have hfits : ¬ UInt32.ofInt n > u32 s.heap s.callbackLength := by
    have hlt := (u32 s.heap s.callbackLength).toNat_lt
    rw [gt_iff_lt, UInt32.lt_iff_toNat_lt, toNat_ofInt (by omega), hn]
    exact Nat.lt_irrefl _
  unfold signpostStorageReadCallback
  simp only
  rw [if_neg hneg, if_neg hlen, if_neg hfits]
  simp [Api.set, hdata, portSuccess, ← hn]

theorem storageReadReply_eq (hslot : api.incomingActiveCallback = none) (hdata : data ≠ 0)
    (hlen : len ≠ 0) (herr : 0 ≤ err) (hcall : call.Carries r) (hframe : r.frameType = responseFrame)
    {heap : Mem UInt8} (hheap : ((signpostStorageRead data len record).start api).1.heap = heap)
    (hlength : r.message.length = (u32 heap len).toNat) :
    ∃ api', storageReadReply api data len record err call = some (api', portSuccess) ∧
      api'.heap = heap.copy data r.message := by
  obtain ⟨frame, hsome, htype, hmessage⟩ := hcall.frame
  obtain ⟨s₁, hs₁⟩ : ∃ s₁, ((signpostStorageRead data len record).start api).1 = s₁ := ⟨_, rfl⟩
  have hstart := hs₁ ▸ storageRead_start data len record hslot
  have htaker : s₁.taker call = some .storageRead := by
    unfold Api.taker
    rw [hsome, hcall.length, Option.getD_some,
      if_pos ⟨Int.natCast_nonneg _, .inl (htype.trans hframe)⟩, hstart]
  have hsent : (signpostStorageRead data len record).sent err s₁ = (s₁, none) := by
    have herr' : ¬ err < portSuccess := Int.not_lt.mpr herr
    simp only [signpostStorageRead]
    rw [if_neg herr']
  obtain ⟨t, ht⟩ : ∃ t : Api, { s₁ with incoming := frame, incomingActiveCallback := none } = t := ⟨_, rfl⟩
  obtain ⟨hresult, hcopy⟩ := signpostStorageReadCallback_all (s := t) (n := r.message.length)
    (by rw [← ht, hstart]; exact hdata) (by rw [← ht, hstart]; exact hlen)
    (by rw [hlength, ← hheap, hs₁, ← ht, hstart])
  have hrecv : (s₁.recv call).1 = signpostStorageReadCallback r.message.length t := by
    rw [Api.recv_taker htaker, hsome, hcall.length, ← ht]
    rfl
  refine ⟨signpostStorageReadCallback r.message.length t, ?_, ?_⟩
  · unfold storageReadReply
    simp only [hs₁, hsent, hrecv]
    simp [signpostStorageRead, portSuccess, hresult]
  · rw [hcopy, ← hheap, hs₁, ← ht]
    simp [hstart, hmessage]

end

/-! ## A write, and a read of it -/

/-- A command of the storage API with this payload. -/
structure Command.Asks (c : Command) (messageType : UInt8) (payload : Bytes) : Prop where
  apiType : c.apiType = storageApiType
  messageType : c.messageType = messageType
  payload : c.message.read 0 c.messageLength.toNat = payload

/-- The read gets a response that is these bytes, returns success, and leaves
them in the caller's buffer and all else in its memory as it was. -/
def Handled.Returns {σ : Type} (h : Handled σ) (api : Api) (data len record : Ptr) (err : Int)
    (bytes : Bytes) : Prop :=
  ∃ r, h.Answers r ∧ r.message = bytes ∧ ∀ call : AppCall, call.Carries r →
    ∃ api', storageReadReply api data len record err call = some (api', portSuccess) ∧
      api'.heap = api.heap.copy data bytes

/-- Whether a read of `n` bytes asks for fewer. -/
theorem left_lt_iff (n offset : UInt32) : n > n - offset ↔ 0 < offset.toNat ∧ offset.toNat ≤ n.toNat := by
  have hn := n.toNat_lt
  have ho := offset.toNat_lt
  rw [gt_iff_lt, UInt32.lt_iff_toNat_lt, UInt32.toNat_sub]
  omega

section
variable {σ φ : Type} {m : Master σ φ} {contents : σ → Bytes → Bytes} {s : σ} {wheap : Mem UInt8}
  {wrecord : Ptr}
  {bytes : Bytes} {w q : Command} {r : Reply} {cs : List Command} {api : Api} {data len record : Ptr}
    {err : Int}

/-- **When a read returns what was written.** In every file system that appends
and keeps, after any commands: a write is answered with a record, any commands
but deletes follow, and then a read is made with that record and as many bytes
as were written. It returns exactly the bytes written if and only if the log
was empty before the write or longer than its data, and the storage master has
memory for the read. -/
theorem storageRead_storageWrite_iff (happends : m.ff.Appends contents)
    (hwrite : w.Asks storageWriteMessage (storageWriteMarshal wheap wrecord bytes))
    (hr : (m.handle w s).Answers r) (hcs : ∀ c ∈ cs, c.messageType ≠ storageDeleteMessage)
    (hslot : api.incomingActiveCallback = none) (hdata : data ≠ 0) (hlen : len ≠ 0) (herr : 0 ≤ err)
    (hrecord : api.heap.read record 44 = r.message) (hlength : (u32 api.heap len).toNat = bytes.length)
    (hread : q.Asks storageReadMessage
      (storageReadMarshal ((signpostStorageRead data len record).start api).1.heap len record)) :
    (m.handle q (m.serve (m.handle w s).fs cs)).Returns api data len record err bytes ↔
      ((contents s (logName wheap wrecord)).length = 0 ∨ bytes.length < (contents s (logName wheap wrecord)).length) ∧
        (m.malloc (u32 api.heap len)).isSome = true := by
  obtain ⟨source, _, _, wlen, wmessage⟩ := w
  obtain ⟨rfl, rfl, hwrite⟩ := hwrite
  obtain ⟨qsource, _, _, qlen, qmessage⟩ := q
  obtain ⟨rfl, rfl, hread⟩ := hread
  simp only at hwrite hread
  have hzero : 0 ∉ logName wheap wrecord := zero_not_mem_strn _ _
  have hle : (logName wheap wrecord).length ≤ storageLogLen := length_strn_le _ _
  obtain ⟨logname, offset, hlogname, hname, hshort, hoffset, hfour, hsend, hmessage, hlog⟩ :=
    write_answered happends hzero hle hwrite hr
  obtain ⟨hchars, -, hoff, hcount⟩ := record_fields hlogname (hrecord.trans hmessage)
  have hn : u32 api.heap len = UInt32.ofNat bytes.length := by
    rw [← hlength, UInt32.ofNat_toNat]
  have hleft : left api record = u32 api.heap len - offset := by
    rw [left, hcount, hoff, hn]
  have hheap := congrArg Api.heap (storageRead_start data len record hslot)
  simp only at hheap
  rw [hleft] at hheap
  have hclamp := left_lt_iff (u32 api.heap len) offset
  rw [hlength, hoffset] at hclamp
  by_cases hless : u32 api.heap len > u32 api.heap len - offset
  · -- Fewer bytes are asked for, and the answer has no more.
    rw [if_pos hless] at hheap
    obtain ⟨hpos, hle⟩ := hclamp.mp hless
    rw [hheap] at hread
    refine ⟨?_, fun h => by omega⟩
    rintro ⟨r', hr', hbytes, -⟩
    have hcount' := (read_answered_length hread hr').1
    rw [u32_copy_le32, hbytes, ← hlength] at hcount'
    rw [gt_iff_lt, UInt32.lt_iff_toNat_lt, ← hcount'] at hless
    exact absurd hless (Nat.lt_irrefl _)
  · rw [if_neg hless] at hheap
    have hends := mt hclamp.mpr hless
    rw [hheap] at hread
    constructor
    · rintro ⟨r', hr', -⟩
      exact ⟨by omega, (read_answered_length hread hr').2⟩
    · rintro ⟨-, hmalloc⟩
      have hread_name : logName api.heap record = logName wheap wrecord := by
        rw [← hname, ← hchars]
        rfl
      obtain ⟨rest, hkept⟩ := hlog.trans (serve_grows happends hcs _ _)
      have hin : (u32 api.heap (record + 36)).toNat + (u32 api.heap len).toNat ≤
          (contents (m.serve (m.handle ⟨source, storageApiType, storageWriteMessage, wlen, wmessage⟩ s).fs cs)
            (logName api.heap record)).length := by
        rw [hread_name, ← hkept, hoff, hlength, hoffset]
        simp
      obtain ⟨r', hr', hbytes⟩ :=
        read_answered happends hsend hread (hread_name ▸ hshort) (by omega) hin hmalloc
      rw [hread_name, ← hkept, hoff, hlength, hoffset, List.append_assoc, List.drop_left,
        List.take_left] at hbytes
      refine ⟨r', hr', hbytes, fun call hcall => ?_⟩
      have hreply := storageReadReply_eq hslot hdata hlen herr hcall hr'.2 hheap
        (by rw [hbytes, hlength])
      rwa [hbytes] at hreply

end

/-! ## Logs on a card -/

theorem Card.put_data_grows (s : Card) (name : Bytes) (extra : Bytes) (n : Bytes) :
    s.data n <+: (s.put name (some (s.data name ++ extra))).data n := by
  by_cases hn : n = name
  · rw [hn]
    simp [Card.data, Card.put]
  · simp [Card.data, Card.put, hn]

theorem cardName_eq {m : Mem UInt8} (h : strnlen m storageLogLen < storageLogLen) :
    cardName m = strn m storageLogLen := by
  have hne : ((m.read 0 storageLogLen).takeWhile (· ≠ 0)).length ≠ storageLogLen := Nat.ne_of_lt h
  rw [cardName, strn, Mem.read_add, List.takeWhile_append, Mem.length_read, if_neg hne]
  rfl

theorem cardFf_appends : cardFf.Appends Card.data where
  openAppend_grows m s n := by
    simp only [cardFf]
    split
    · exact List.prefix_rfl
    · split
      · exact List.prefix_rfl
      · next hnone =>
        have hdata : s.data (cardName m) = [] := by
          rw [Card.data, Option.not_isSome_iff_eq_none.mp hnone]
          rfl
        have h := s.put_data_grows (cardName m) [] n
        rwa [hdata] at h
  openRead_grows m s n := List.prefix_rfl
  write_grows fp buf s n := by
    simp only [cardFf]
    split
    · exact s.put_data_grows fp.name buf n
    · exact List.prefix_rfl
  lseek_grows fp offset s n := List.prefix_rfl
  read_grows fp length s n := List.prefix_rfl
  close_grows fp s n := List.prefix_rfl
  append := by
    intro m s buf hshort hopen o hwrite
    rw [← cardName_eq hshort]
    have ho : o.1 = ⟨cardName m, (s.data (cardName m)).length⟩ ∧
      o.2.data (cardName m) = s.data (cardName m) := by
      simp only [cardFf] at hopen
      simp only [o, cardFf]
      split at hopen
      · cases hopen
      · next hname =>
        rw [if_neg hname]
        split
        · exact ⟨rfl, rfl⟩
        · next hnone =>
          have hdata : s.data (cardName m) = [] := by
            rw [Card.data, Option.not_isSome_iff_eq_none.mp hnone]
            rfl
          rw [hdata]
          exact ⟨rfl, by simp [Card.data, Card.put]⟩
    clear_value o
    obtain ⟨fp, s'⟩ := o
    obtain ⟨rfl, hdata⟩ := ho
    simp only [cardFf, hdata] at hwrite ⊢
    split at hwrite
    · next hfits =>
      rw [if_pos hfits]
      refine ⟨by rw [UInt32.toNat_ofNat']; omega, ?_⟩
      rw [UInt32.toNat_ofNat', Nat.mod_eq_of_lt (by omega)]
      simp [Card.data, Card.put]
    · cases hwrite
  read := by
    intro m s offset length hshort hpos hin o l r
    rw [← cardName_eq hshort] at hin ⊢
    have hfile : (s.file (cardName m)).isSome = true := by
      by_contra hnone
      rw [Card.data, Option.not_isSome_iff_eq_none.mp hnone] at hin
      simp only [Option.getD_none, List.length_nil] at hin
      omega
    simp only [r, l, o, cardFf, hfile, if_true]
    rw [Nat.min_eq_left (by omega)]
    simp

/-! ## Two writes to a log -/

/-- A write of these bytes to the log `a`. -/
def writeCommand (bytes : Bytes) : Command :=
  ⟨0x31, storageApiType, storageWriteMessage, UInt32.ofNat (bytes.length + 2),
    .ofList (0x61 :: 0 :: bytes) 0⟩

/-- The answer to a write, with where the bytes are in the log `a`. -/
def writeAnswer (offset length : UInt32) : Reply :=
  ⟨0x31, responseFrame, storageApiType, storageWriteMessage,
    (setRecord (fun _ => 0) 0 (0x61 :: List.replicate 31 0) offset length).read 0 44⟩

/-- A reader with a record at 100, and the number of bytes at 200. -/
def readerApi (r : Reply) (n : UInt32) : Api :=
  { Calls.quietApi with heap := (Mem.copy (fun _ => 0) 100 r.message).copy 200 (le32 n) }

def readCommand (api : Api) : Command :=
  let payload := storageReadMarshal ((signpostStorageRead 300 200 100).start api).1.heap 200 100
  ⟨0x31, storageApiType, storageReadMessage, UInt32.ofNat payload.length, .ofList payload 0⟩

def tenBytes : Bytes := List.replicate 10 7
def twentyBytes : Bytes := List.replicate 20 9

/-- The first write is read back, after the second. -/
theorem storageRead_storageWrite_iff_first :
    (cardMaster.handle (readCommand (readerApi (writeAnswer 0 10) 10))
      (cardMaster.serve (cardMaster.handle (writeCommand tenBytes) emptyCard).fs [writeCommand twentyBytes])).Returns
      (readerApi (writeAnswer 0 10) 10) 300 200 100 1 tenBytes := by
  have hwrite : (writeCommand tenBytes).Asks storageWriteMessage
    (storageWriteMarshal (.ofList [0x61] 0) 0 tenBytes) :=
    ⟨rfl, rfl, by decide +kernel⟩
  have hr : (cardMaster.handle (writeCommand tenBytes) emptyCard).Answers (writeAnswer 0 10) :=
    ⟨by decide +kernel, rfl⟩
  have hempty : (emptyCard.data (logName (.ofList [0x61] 0) 0)).length = 0 := by decide +kernel
  exact (storageRead_storageWrite_iff cardFf_appends hwrite hr (by decide) rfl (by decide) (by decide) (by decide)
    (by decide +kernel) (by decide +kernel) ⟨rfl, rfl, by decide +kernel⟩).mpr ⟨.inl hempty, rfl⟩

/-- The second write is answered with its place, 20 bytes from 10 on, and read
back as the first ten of them. -/
theorem secondWrite_cut :
    (cardMaster.handle (writeCommand twentyBytes) (cardMaster.handle (writeCommand tenBytes) emptyCard).fs).Answers
      (writeAnswer 10 20) ∧
    (cardMaster.handle (readCommand (readerApi (writeAnswer 10 20) 20))
      (cardMaster.serve emptyCard [writeCommand tenBytes, writeCommand twentyBytes])).replies.map Reply.message =
        [List.replicate 10 9] ∧
    ¬ (cardMaster.handle (readCommand (readerApi (writeAnswer 10 20) 20))
      (cardMaster.serve emptyCard [writeCommand tenBytes, writeCommand twentyBytes])).Returns
      (readerApi (writeAnswer 10 20) 20) 300 200 100 1 twentyBytes := by
  have hcut : (cardMaster.handle (readCommand (readerApi (writeAnswer 10 20) 20))
      (cardMaster.serve emptyCard [writeCommand tenBytes, writeCommand twentyBytes])).replies.map Reply.message =
        [List.replicate 10 9] := by decide +kernel
  refine ⟨⟨by decide +kernel, rfl⟩, hcut, ?_⟩
  rintro ⟨r, ⟨hr, -⟩, hbytes, -⟩
  rw [hr, List.map_singleton, hbytes] at hcut
  exact absurd hcut (by decide)

end Signpost
