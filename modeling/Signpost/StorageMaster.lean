/-
The storage master: the file layer (`signpost_storage.c`) over FatFs, and the
callback that answers the requests of the storage API (`storage_manager`).

FatFs is a parameter, and so are the contents of memory that is read before it
is written. The steps a request takes in it are kept beside what the code
computes, and so is whether it writes past a block of memory: the size of the
block for the records of a scan is computed in 32 bits, and a request for enough
of them gets one that is too small. What the model says of such a scan besides is
what would come of memory without an end.
-/
import Signpost.Chars
import Signpost.Reply

namespace Signpost

open Lib

/-! ## FatFs -/

/-- `FRESULT` -/
inductive FResult
  | ok
  | diskErr
  | intErr
  | notReady
  | noFile
  | noPath
  | invalidName
  | denied
  | exist
  | invalidObject
  | writeProtected
  | invalidDrive
  | notEnabled
  | noFilesystem
  | mkfsAborted
  | timeout
  | locked
  | notEnoughCore
  | tooManyOpenFiles
  | invalidParameter
  deriving DecidableEq

def FResult.toInt (res : FResult) : Int := res.ctorIdx

/-- `FILINFO`, as far as it is looked at. -/
structure FilInfo where
  fname : Bytes
  isDir : Bool
  fsize : UInt32

/-- What is read from a directory: its items, the result of the call that ends
the listing, and that of `f_closedir`. -/
structure Dir where
  items : List FilInfo
  last : FResult
  closed : FResult

/-- The functions of FatFs that are used, on a file system in a state `σ`, with
open files `φ`. A name is where its characters are in memory. -/
structure Ff (σ φ : Type) where
  opendir : σ → FResult × Dir
  openAppend : Mem UInt8 → σ → FResult × φ × σ
  openRead : Mem UInt8 → σ → FResult × φ × σ
  /-- The offset in an open file. -/
  fptr : φ → UInt32
  /-- With the number of bytes written. -/
  write : φ → Bytes → σ → FResult × UInt32 × φ × σ
  lseek : φ → UInt32 → σ → FResult × φ × σ
  /-- With the bytes read, of as many as are asked for. -/
  read : φ → UInt32 → σ → FResult × Bytes × φ × σ
  close : φ → σ → FResult × σ
  unlink : Mem UInt8 → σ → FResult × σ

/-! ## Files -/

def storageLogLen : Nat := 32

/-- A step in the file system: its result, and whether all that was asked for was done. -/
structure FileStep where
  res : FResult
  full : Bool

/-- What a function of the file layer returns, the steps it took, and what they
left of the file system. -/
structure FileCall (σ α : Type) where
  rc : Int
  value : α
  steps : List FileStep
  fs : σ

/-- A `Storage_Record_t` written at an offset, but for its last character. -/
def setRecord (m : Mem UInt8) (at_ : Nat) (logname : Bytes) (offset length : UInt32) : Mem UInt8 :=
  ((m.copy at_ logname).copy (at_ + 36) (le32 offset)).copy (at_ + 40) (le32 length)

/-- The loop over a directory, with the records so far: it stops at the end, or
at a file there is no room for. -/
def scanItems (maxListLen : Nat) (last : FResult) :
    List FilInfo → Mem UInt8 → Nat → FResult × Mem UInt8 × Nat
  | [], list, listLen => (last, list, listLen)
  | fno :: items, list, listLen =>
    if fno.isDir then scanItems maxListLen last items list listLen
    else if listLen ≥ maxListLen then (.ok, list, listLen)
    else
      scanItems maxListLen last items
        (setRecord list (44 * listLen) (strncpy (.ofList fno.fname 0) storageLogLen) 0 fno.fsize)
        (listLen + 1)

section
variable {σ φ : Type} (ff : Ff σ φ)

/-- `storage_scan_files`, with the list and its length. -/
def storageScanFiles (list : Mem UInt8) (maxListLen : Nat) (s : σ) : FileCall σ (Mem UInt8 × Nat) :=
  let (res, dir) := ff.opendir s
  if res ≠ .ok then ⟨res.toInt, (list, 0), [⟨res, true⟩], s⟩
  else
    let (res₁, list, listLen) := scanItems maxListLen dir.last dir.items list 0
    ⟨res₁.toInt, (list, listLen), [⟨res, true⟩, ⟨res₁, true⟩, ⟨dir.closed, true⟩], s⟩

/-- `storage_write_data`, with the number of bytes written and the offset. -/
def storageWriteData (filename : Mem UInt8) (buf : Bytes) (s : σ) : FileCall σ (UInt32 × UInt32) :=
  if 0x2F ∈ filename.read 0 storageLogLen then ⟨tockEinval, (0, 0), [], s⟩
  else if strnlen filename storageLogLen = storageLogLen then ⟨tockEsize, (0, 0), [], s⟩
  else
    let (res, fp, s) := ff.openAppend filename s
    if res ≠ .ok then ⟨tockFail, (0, 0), [⟨res, true⟩], s⟩
    else
      let offset := ff.fptr fp
      let (res₁, written, fp, s) := ff.write fp buf s
      let full : Bool := buf.length ≤ written.toNat
      if res₁ ≠ .ok then ⟨tockFail, (written, offset), [⟨res, true⟩, ⟨res₁, full⟩], s⟩
      else
        let (res₂, s) := ff.close fp s
        ⟨if res₂ ≠ .ok then tockFail else tockSuccess, (written, offset),
          [⟨res, true⟩, ⟨res₁, full⟩, ⟨res₂, true⟩], s⟩

/-- `storage_read_data`, with the bytes read. -/
def storageReadData (filename : Mem UInt8) (offset length : UInt32) (s : σ) : FileCall σ Bytes :=
  let (res, fp, s) := ff.openRead filename s
  if res ≠ .ok then ⟨tockFail, [], [⟨res, true⟩], s⟩
  else
    let (res₁, fp, s) := ff.lseek fp offset s
    if res₁ ≠ .ok then ⟨tockFail, [], [⟨res, true⟩, ⟨res₁, true⟩], s⟩
    else
      let (res₂, data, fp, s) := ff.read fp length s
      let full : Bool := length.toNat ≤ data.length
      if res₂ ≠ .ok then ⟨tockFail, data, [⟨res, true⟩, ⟨res₁, true⟩, ⟨res₂, full⟩], s⟩
      else
        let (res₃, s) := ff.close fp s
        ⟨if res₃ ≠ .ok then tockFail else tockSuccess, data,
          [⟨res, true⟩, ⟨res₁, true⟩, ⟨res₂, full⟩, ⟨res₃, true⟩], s⟩

def storageDelData (filename : Mem UInt8) (s : σ) : FileCall σ Unit :=
  let (res, s) := ff.unlink filename s
  ⟨if res ≠ .ok then tockFail else tockSuccess, (), [⟨res, true⟩], s⟩

end

/-! ## Requests -/

/-- What the storage master runs on. -/
structure Master (σ φ : Type) where
  ff : Ff σ φ
  /-- Memory of this size, with what is in it. -/
  malloc : UInt32 → Option (Mem UInt8)
  /-- What is in the `logname` of a request before it is copied there. -/
  stack : Mem UInt8
  /-- What `signpost_api_send` returns for a message of this frame type. -/
  send : UInt8 → Int

/-- What a request makes the master send, the steps it took, and what they left. -/
structure Handled (σ : Type) where
  replies : List Reply
  steps : List FileStep
  fs : σ
  /-- It has written past a block of memory. -/
  overrun : Bool

section
variable {σ φ : Type} (m : Master σ φ) (sourceAddress apiType messageType : UInt8) (messageLength : UInt32)
  (message : Mem UInt8)

def errorReply (errorCode : Int) (steps : List FileStep) (s : σ) : Handled σ :=
  ⟨signpostApiErrorReplyRepeating (m.send errorFrame)
    (signpostApiErrorReply sourceAddress apiType messageType errorCode) 1, steps, s, false⟩

/-- A response is sent, and an error if that fails. -/
def response (replyType : UInt8) (payload : Bytes) (steps : List FileStep) (s : σ) : Handled σ :=
  let r : Reply := ⟨sourceAddress, responseFrame, storageApiType, replyType, payload⟩
  let err := m.send responseFrame
  if err < tockSuccess then
    let e := errorReply m sourceAddress apiType messageType err steps s
    { e with replies := r :: e.replies }
  else ⟨[r], steps, s, false⟩

/-- `logname`, copied from the message. -/
def requestLogname : Mem UInt8 := m.stack.copy 0 (strncpy message storageLogLen)

def storageScanRequest (s : σ) : Handled σ :=
  if messageLength < 4 then errorReply m sourceAddress apiType messageType tockEsize [] s
  else
    let listLen := u32 message 0
    match m.malloc (listLen * sizeofStorageRecord) with
    | none => errorReply m sourceAddress apiType messageType tockEnomem [] s
    | some list =>
      let r := storageScanFiles m.ff list listLen.toNat s
      let h :=
        if r.rc < tockSuccess then errorReply m sourceAddress apiType messageType r.rc r.steps r.fs
        else
          response m sourceAddress apiType messageType storageScanMessage
            (r.value.1.read 0 (sizeofStorageRecord.toNat * r.value.2)) r.steps r.fs
      { h with overrun := (listLen * sizeofStorageRecord).toNat < sizeofStorageRecord.toNat * r.value.2 }

def storageWriteRequest (s : σ) : Handled σ :=
  let logname := requestLogname m message
  let lognameLen := strnlen logname storageLogLen
  if lognameLen + 4 + 1 > messageLength.toNat then errorReply m sourceAddress apiType messageType tockEnomem [] s
  else
    let dataLen := messageLength.toNat - lognameLen - 1
    let data := message.read (lognameLen + 1) dataLen
    let r := storageWriteData m.ff logname data s
    if r.rc < tockSuccess ∨ r.value.1.toNat < dataLen then
      errorReply m sourceAddress apiType messageType r.rc r.steps r.fs
    else
      let writeRecord :=
        setRecord (fun _ => 0) 0 (strncpy logname storageLogLen) r.value.2 (UInt32.ofNat dataLen)
      response m sourceAddress apiType messageType storageWriteMessage
        (writeRecord.read 0 sizeofStorageRecord.toNat) r.steps r.fs

def storageReadRequest (s : σ) : Handled σ :=
  let logname := requestLogname m message
  let lognameLen := strnlen logname storageLogLen
  if lognameLen + 4 * 2 + 2 > messageLength.toNat then errorReply m sourceAddress apiType messageType tockEnomem [] s
  else
    let offset := u32 message (lognameLen + 1)
    let length := u32 message (lognameLen + 2 + 4)
    match m.malloc length with
    | none => errorReply m sourceAddress apiType messageType tockEnomem [] s
    | some _ =>
      let r := storageReadData m.ff logname offset length s
      if r.rc < tockSuccess ∨ r.value.length < length.toNat then
        errorReply m sourceAddress apiType messageType r.rc r.steps r.fs
      else
        -- Sent as the answer to a write, as the source has it.
        response m sourceAddress apiType messageType storageWriteMessage
          (r.value.take length.toNat) r.steps r.fs

def storageDeleteRequest (s : σ) : Handled σ :=
  let logname := requestLogname m message
  let r := storageDelData m.ff logname s
  -- The code of `storage_del_data` is not looked at.
  response m sourceAddress apiType messageType storageDeleteMessage
    ((setRecord (fun _ => 0) 0 (strncpy logname storageLogLen) 0 0).read 0 sizeofStorageRecord.toNat) r.steps r.fs

def storageApiCallback (frameType : UInt8) (s : σ) : Handled σ :=
  if apiType ≠ storageApiType then errorReply m sourceAddress apiType messageType tockEinval [] s
  else if frameType = commandFrame then
    if messageType = storageScanMessage then
      storageScanRequest m sourceAddress apiType messageType messageLength message s
    else if messageType = storageWriteMessage then
      storageWriteRequest m sourceAddress apiType messageType messageLength message s
    else if messageType = storageReadMessage then
      storageReadRequest m sourceAddress apiType messageType messageLength message s
    else if messageType = storageDeleteMessage
      then storageDeleteRequest m sourceAddress apiType messageType message s
    else ⟨[], [], s, false⟩
  else ⟨[], [], s, false⟩

end

/-! ## True answers -/

/-- It has been carried out: every step in the file system was taken, and in full. -/
def Succeeded (steps : List FileStep) : Prop := steps ≠ [] ∧ ∀ st ∈ steps, st.res = .ok ∧ st.full = true

/-- One reply: a response if the request has been carried out, else an error with a negative code;
and no write past a block of memory, after which there might be any. -/
structure Handled.Truthful {σ : Type} (h : Handled σ) : Prop where
  inside : h.overrun = false
  reply : ∃ r, h.replies = [r] ∧ (Succeeded h.steps → r.frameType = responseFrame) ∧
    (¬ Succeeded h.steps → r.frameType = errorFrame ∧ r.errorCode < 0)

/-- The records of the files of the directory, or as many as are asked for, fit into the block
for as many as are asked for, the size of which is computed in 32 bits. -/
def ListFits {σ φ : Type} (m : Master σ φ) (message : Mem UInt8) (s : σ) : Prop :=
  sizeofStorageRecord.toNat * min (u32 message 0).toNat ((m.ff.opendir s).2.items.countP fun fno => !fno.isDir) ≤
    (u32 message 0 * sizeofStorageRecord).toNat

/-- The type is one of the four, a scan that gets a block for its records gets one that they fit,
no step of a scan or of a delete fails, a write or a read of which no step fails is complete, and
the response gets sent. -/
structure Answerable {σ φ : Type} (m : Master σ φ) (messageType : UInt8) (messageLength : UInt32)
    (message : Mem UInt8) (s : σ) (steps : List FileStep) : Prop where
  known : messageType = storageScanMessage ∨ messageType = storageWriteMessage ∨
    messageType = storageReadMessage ∨
    messageType = storageDeleteMessage
  room : messageType = storageScanMessage → ¬ messageLength < 4 →
    (m.malloc (u32 message 0 * sizeofStorageRecord)).isSome = true → ListFits m message s
  unchecked : messageType = storageScanMessage ∨ messageType = storageDeleteMessage → ∀ st ∈ steps,
    st.res = .ok
  complete : (∀ st ∈ steps, st.res = .ok) → ∀ st ∈ steps, st.full = true
  sent : Succeeded steps → 0 ≤ m.send responseFrame

section
variable {σ φ : Type} {m : Master σ φ} {sourceAddress apiType messageType replyType : UInt8} {code : Int}
  {payload : Bytes} {steps : List FileStep} {s : σ}

theorem errorReply_truthful_iff : (errorReply m sourceAddress apiType messageType code steps s).Truthful ↔
    ¬ Succeeded steps ∧ (signpostApiErrorReply sourceAddress apiType messageType code).errorCode < 0 := by
  have hframe : errorFrame ≠ responseFrame := by decide
  simp only [errorReply, signpostApiErrorReplyRepeating, ite_self]
  constructor
  · rintro ⟨-, r, hr, hok, herr⟩
    obtain ⟨rfl, -⟩ := List.cons.inj hr
    have hfail : ¬ Succeeded steps := fun h => hframe (hok h)
    exact ⟨hfail, (herr hfail).2⟩
  · rintro ⟨hfail, hcode⟩
    exact ⟨rfl, _, rfl, fun h => absurd h hfail, fun _ => ⟨rfl, hcode⟩⟩

theorem response_truthful_iff : (response m sourceAddress apiType messageType replyType payload steps s).Truthful ↔
    Succeeded steps ∧ 0 ≤ m.send responseFrame := by
  have hframe : responseFrame ≠ errorFrame := by decide
  unfold response
  by_cases hsend : m.send responseFrame < tockSuccess
  · rw [if_pos hsend]
    refine ⟨?_, fun h => absurd h.2 (Int.not_le.mpr hsend)⟩
    rintro ⟨-, r, hr, -⟩
    simp [errorReply, signpostApiErrorReplyRepeating] at hr
  · rw [if_neg hsend]
    constructor
    · rintro ⟨-, r, hr, -, herr⟩
      obtain ⟨rfl, -⟩ := List.cons.inj hr
      refine ⟨?_, Int.not_lt.mp hsend⟩
      by_cases hok : Succeeded steps
      · exact hok
      · exact absurd (herr hok).1 hframe
    · rintro ⟨hok, -⟩
      exact ⟨rfl, _, rfl, fun _ => rfl, fun h => absurd hok h⟩

theorem response_overrun :
    (response m sourceAddress apiType messageType replyType payload steps s).overrun = false := by
  unfold response
  simp only
  split <;> rfl

theorem truthful_overrun_iff {h : Handled σ} (hinside : h.overrun = false) (b : Bool) :
    ({ h with overrun := b } : Handled σ).Truthful ↔ b = false ∧ h.Truthful :=
  ⟨fun ht => ⟨ht.inside, hinside, ht.reply⟩, fun ⟨hb, ht⟩ => ⟨hb, ht.reply⟩⟩

/-! ## What the file layer returns -/

theorem FResult.toInt_nonneg (res : FResult) : 0 ≤ res.toInt := Int.natCast_nonneg _

theorem storageScanFiles_rc (ff : Ff σ φ) (list : Mem UInt8) (maxListLen : Nat) (s : σ) :
    0 ≤ (storageScanFiles ff list maxListLen s).rc ∧
    (storageScanFiles ff list maxListLen s).steps ≠ [] := by
  unfold storageScanFiles
  simp only
  split
  · exact ⟨FResult.toInt_nonneg _, by simp⟩
  · exact ⟨FResult.toInt_nonneg _, by simp⟩

theorem scanItems_length {maxListLen : Nat} {last : FResult} {items : List FilInfo} {list : Mem UInt8}
    {listLen : Nat} (hle : listLen ≤ maxListLen) : (scanItems maxListLen last items list listLen).2.2 =
      min maxListLen (listLen + items.countP fun fno => !fno.isDir) := by
  induction items generalizing list listLen with
  | nil => exact (Nat.min_eq_right hle).symm
  | cons fno items ih =>
    rw [scanItems]
    split_ifs with hdir hfull
    · rw [ih hle, List.countP_cons_of_neg (by simp [hdir])]
    · rw [Nat.min_eq_left (by omega)]
      exact Nat.le_antisymm hle hfull
    · rw [ih (by omega), List.countP_cons_of_pos (by simpa using hdir), Nat.add_right_comm, Nat.add_assoc]

theorem storageScanFiles_length {ff : Ff σ φ} {list : Mem UInt8} {maxListLen : Nat}
    (hok : ∀ st ∈ (storageScanFiles ff list maxListLen s).steps, st.res = .ok) :
    (storageScanFiles ff list maxListLen s).value.2 =
      min maxListLen ((ff.opendir s).2.items.countP fun fno => !fno.isDir) := by
  unfold storageScanFiles at hok ⊢
  simp only at hok ⊢
  split at hok
  · next hres => exact absurd (hok _ List.mem_cons_self) hres
  · next hres =>
    rw [if_neg hres]
    simp only
    rw [scanItems_length (Nat.zero_le _), Nat.zero_add]

/-- A negative code of the file layer is an `int`'s, and comes from no step or
from one that failed; another is success, after steps none of which did. -/
structure FileCall.Coded {α : Type} (r : FileCall σ α) (full : Bool) : Prop where
  failed : r.rc < 0 → -2147483648 ≤ r.rc ∧ ((∀ st ∈ r.steps, st.res = .ok) → r.steps = [])
  done : ¬ r.rc < 0 → r.rc = tockSuccess ∧ r.steps ≠ [] ∧ (∀ st ∈ r.steps, st.res = .ok) ∧
    ((∀ st ∈ r.steps, st.full = true) ↔ full = true)

theorem FileCall.Coded.fail {α : Type} {value : α} {full : Bool} (h : ¬ ∀ st ∈ steps, st.res = .ok) :
    (FileCall.mk tockFail value steps s).Coded full := by
  have hneg : tockFail < 0 := by decide
  have hint : -2147483648 ≤ tockFail := by decide
  exact ⟨fun _ => ⟨hint, fun hok => absurd hok h⟩, fun h => absurd hneg h⟩

theorem FileCall.Coded.ok {α : Type} {value : α} {full : Bool} (hsome : steps ≠ []) (hok : ∀ st ∈ steps, st.res = .ok)
    (hfull : (∀ st ∈ steps, st.full = true) ↔ full = true) : (FileCall.mk tockSuccess value steps s).Coded full := by
  have hnonneg : ¬ tockSuccess < 0 := by decide
  exact ⟨fun h => absurd h hnonneg, fun _ => ⟨rfl, hsome, hok, hfull⟩⟩

theorem storageWriteData_coded (ff : Ff σ φ) (filename : Mem UInt8) (buf : Bytes) (s : σ) :
    (storageWriteData ff filename buf s).Coded
    (buf.length ≤ (storageWriteData ff filename buf s).value.1.toNat) := by
  unfold storageWriteData
  split
  · exact ⟨fun _ => ⟨show -2147483648 ≤ tockEinval by decide, fun _ => rfl⟩,
      fun h => absurd (show tockEinval < 0 by decide) h⟩
  · split
    · exact ⟨fun _ => ⟨show -2147483648 ≤ tockEsize by decide, fun _ => rfl⟩,
        fun h => absurd (show tockEsize < 0 by decide) h⟩
    · simp only
      split
      · next hres => exact .fail (by simp [hres])
      · next hopen =>
        split
        · next hres => exact .fail (by simp [hres])
        · next hwrite =>
          split
          · next hres => exact .fail (by simp [hres])
          · next hclose =>
            refine .ok (by simp) ?_ (by simp)
            simpa using ⟨Classical.not_not.mp hopen, Classical.not_not.mp hwrite,
              Classical.not_not.mp hclose⟩

theorem storageReadData_coded (ff : Ff σ φ) (filename : Mem UInt8) (offset length : UInt32) (s : σ) :
    (storageReadData ff filename offset length s).Coded
      (length.toNat ≤ (storageReadData ff filename offset length s).value.length) := by
  unfold storageReadData
  simp only
  split
  · next hres => exact .fail (by simp [hres])
  · next hopen =>
    split
    · next hres => exact .fail (by simp [hres])
    · next hseek =>
      split
      · next hres => exact .fail (by simp [hres])
      · next hread =>
        split
        · next hres => exact .fail (by simp [hres])
        · next hclose =>
          refine .ok (by simp) ?_ (by simp)
          simpa using ⟨Classical.not_not.mp hopen, Classical.not_not.mp hseek, Classical.not_not.mp hread,
            Classical.not_not.mp hclose⟩

/-! ## When the answers are true -/

theorem FileCall.Coded.truthful_iff {α : Type} {r : FileCall σ α} {full : Bool} (h : r.Coded full)
    {short : Prop} [Decidable short] (hshort : short ↔ full = false) :
    (if r.rc < tockSuccess ∨ short then errorReply m sourceAddress apiType messageType r.rc r.steps r.fs
      else response m sourceAddress apiType messageType replyType payload r.steps r.fs).Truthful ↔
    ((∀ st ∈ r.steps, st.res = .ok) → ∀ st ∈ r.steps, st.full = true) ∧
    (Succeeded r.steps → 0 ≤ m.send responseFrame) := by
  by_cases hrc : r.rc < tockSuccess
  · obtain ⟨hint, hsteps⟩ := h.failed hrc
    have hfail : ¬ Succeeded r.steps := fun hok => hok.1 (hsteps fun st hst => (hok.2 st hst).1)
    have hcode : (signpostApiErrorReply sourceAddress apiType messageType r.rc).errorCode < 0 := by
      rw [errorCode_reply hint (Int.lt_trans hrc (by decide))]
      exact hrc
    rw [if_pos (.inl hrc), errorReply_truthful_iff]
    refine ⟨fun _ => ⟨fun hok => ?_, fun hok => absurd hok hfail⟩, fun _ => ⟨hfail, hcode⟩⟩
    rw [hsteps hok]
    simp
  · obtain ⟨hzero, hne, hok, hfull⟩ := h.done hrc
    cases hf : full with
    | true =>
      have hdone : Succeeded r.steps := ⟨hne, fun st hst => ⟨hok st hst, hfull.mpr hf st hst⟩⟩
      have hlong : ¬ short := by simp [hshort, hf]
      rw [if_neg (not_or.mpr ⟨hrc, hlong⟩), response_truthful_iff]
      exact ⟨fun h => ⟨fun _ => hfull.mpr hf, fun _ => h.2⟩, fun h => ⟨hdone, h.2 hdone⟩⟩
    | false =>
      have hpart : ¬ ∀ st ∈ r.steps, st.full = true := by rw [hfull, hf]; exact Bool.false_ne_true
      rw [if_pos (.inr (hshort.mpr hf)), errorReply_truthful_iff, hzero,
        errorCode_reply (by decide) (by decide)]
      exact ⟨fun h => absurd h.2 (by decide), fun h => absurd (h.1 hok) hpart⟩

variable (code) in
theorem refused_truthful (hcode : code < 0) (hcode' : -2147483648 ≤ code) :
    (errorReply m sourceAddress apiType messageType code [] s).Truthful := by
  rw [errorReply_truthful_iff, errorCode_reply hcode' (Int.lt_trans hcode (by decide))]
  exact ⟨fun h => h.1 rfl, hcode⟩

variable {messageLength : UInt32} {message : Mem UInt8}

@[simp] theorem errorReply_steps : (errorReply m sourceAddress apiType messageType code steps s).steps = steps := rfl

@[simp] theorem response_steps :
    (response m sourceAddress apiType messageType replyType payload steps s).steps = steps := by
  unfold response
  simp only
  split <;> rfl

theorem response_always_iff (hne : steps ≠ []) :
    (response m sourceAddress apiType messageType replyType payload steps s).Truthful ↔
      (∀ st ∈ steps, st.res = .ok) ∧ (∀ st ∈ steps, st.full = true) ∧
      (Succeeded steps → 0 ≤ m.send responseFrame) := by
  rw [response_truthful_iff]
  constructor
  · rintro ⟨hok, hsend⟩
    exact ⟨fun st hst => (hok.2 st hst).1, fun st hst => (hok.2 st hst).2, fun _ => hsend⟩
  · rintro ⟨hok, hfull, hsend⟩
    have hdone : Succeeded steps := ⟨hne, fun st hst => ⟨hok st hst, hfull st hst⟩⟩
    exact ⟨hdone, hsend hdone⟩

theorem storageScanRequest_truthful_iff {h : Handled σ}
    (hh : storageScanRequest m sourceAddress apiType messageType messageLength message s = h) :
    h.Truthful ↔ (¬ messageLength < 4 → (m.malloc (u32 message 0 * sizeofStorageRecord)).isSome = true →
        ListFits m message s) ∧
      (∀ st ∈ h.steps, st.res = .ok) ∧ (∀ st ∈ h.steps, st.full = true) ∧
      (Succeeded h.steps → 0 ≤ m.send responseFrame) := by
  subst hh
  unfold storageScanRequest
  split
  · next hshort => simp [refused_truthful tockEsize (by decide) (by decide), Succeeded, hshort]
  · next hlong =>
    simp only
    split
    · next hnone => simp [refused_truthful tockEnomem (by decide) (by decide), Succeeded, hnone]
    · next list hsome =>
      obtain ⟨hrc, hne⟩ := storageScanFiles_rc m.ff list (u32 message 0).toNat s
      have hcode : ¬ (storageScanFiles m.ff list (u32 message 0).toNat s).rc < tockSuccess :=
        Int.not_lt.mpr hrc
      rw [if_neg hcode, truthful_overrun_iff response_overrun, response_steps, response_always_iff hne]
      refine and_congr_left fun hdone => ?_
      rw [storageScanFiles_length hdone.1, decide_eq_false_iff_not, Nat.not_lt]
      exact ⟨fun hfits _ _ => hfits, fun hfits => hfits hlong (by rw [hsome]; rfl)⟩

theorem storageWriteRequest_truthful_iff {h : Handled σ}
    (hh : storageWriteRequest m sourceAddress apiType messageType messageLength message s = h) :
    h.Truthful ↔ ((∀ st ∈ h.steps, st.res = .ok) → ∀ st ∈ h.steps, st.full = true) ∧
      (Succeeded h.steps → 0 ≤ m.send responseFrame) := by
  subst hh
  unfold storageWriteRequest
  simp only
  split
  · simp [refused_truthful tockEnomem (by decide) (by decide), Succeeded]
  · rw [(storageWriteData_coded m.ff _ _ s).truthful_iff (by rw [Mem.length_read, decide_eq_false_iff_not, Nat.not_le]),
        apply_ite Handled.steps, errorReply_steps,
      response_steps, ite_self]

theorem storageReadRequest_truthful_iff {h : Handled σ}
    (hh : storageReadRequest m sourceAddress apiType messageType messageLength message s = h) :
    h.Truthful ↔ ((∀ st ∈ h.steps, st.res = .ok) → ∀ st ∈ h.steps, st.full = true) ∧
      (Succeeded h.steps → 0 ≤ m.send responseFrame) := by
  subst hh
  unfold storageReadRequest
  simp only
  split
  · simp [refused_truthful tockEnomem (by decide) (by decide), Succeeded]
  · split
    · simp [refused_truthful tockEnomem (by decide) (by decide), Succeeded]
    · rw [(storageReadData_coded m.ff _ _ _ s).truthful_iff (by rw [decide_eq_false_iff_not, Nat.not_le]),
          apply_ite Handled.steps, errorReply_steps,
        response_steps, ite_self]

theorem storageDeleteRequest_truthful_iff {h : Handled σ}
    (hh : storageDeleteRequest m sourceAddress apiType messageType message s = h) :
    h.Truthful ↔ (∀ st ∈ h.steps, st.res = .ok) ∧ (∀ st ∈ h.steps, st.full = true) ∧
      (Succeeded h.steps → 0 ≤ m.send responseFrame) := by
  subst hh
  unfold storageDeleteRequest storageDelData
  simp only
  rw [response_steps, response_always_iff (List.cons_ne_nil _ _)]

/-- **When the storage master answers truly.** For every command of every API,
type, length and contents, and every result of every step in the file system:
it sends exactly one reply, a response if the request has been carried out and
else an error with a negative code, and writes nothing past its memory, exactly if
the request is of another API or is answerable. -/
theorem storageApiCallback_truthful_iff (m : Master σ φ) (sourceAddress apiType messageType : UInt8)
    (messageLength : UInt32) (message : Mem UInt8) (s : σ) :
    let h := storageApiCallback m sourceAddress apiType messageType messageLength message commandFrame s
    h.Truthful ↔ (apiType = storageApiType → Answerable m messageType messageLength message s h.steps) := by
  intro h
  have hh : storageApiCallback m sourceAddress apiType messageType messageLength message commandFrame s = h := rfl
  clear_value h
  unfold storageApiCallback at hh
  by_cases hapi : apiType = storageApiType
  · rw [if_neg (not_not.mpr hapi), if_pos rfl] at hh
    split at hh
    · next hscan =>
      rw [storageScanRequest_truthful_iff hh]
      exact ⟨fun ⟨hroom, hok, hfull, hsent⟩ _ => ⟨.inl hscan, fun _ => hroom, fun _ => hok, fun _ => hfull, hsent⟩,
        fun ha => ⟨(ha hapi).room hscan, (ha hapi).unchecked (.inl hscan),
          (ha hapi).complete ((ha hapi).unchecked (.inl hscan)), (ha hapi).sent⟩⟩
    · next hscan =>
      split at hh
      · next hwrite =>
        have hdelete : messageType ≠ storageDeleteMessage := by rw [hwrite]; decide
        rw [storageWriteRequest_truthful_iff hh]
        exact ⟨fun ht _ => ⟨.inr (.inl hwrite), fun h => absurd h hscan,
            fun h => absurd h (not_or.mpr ⟨hscan, hdelete⟩), ht.1, ht.2⟩,
          fun ha => ⟨(ha hapi).complete, (ha hapi).sent⟩⟩
      · split at hh
        · next hread =>
          have hdelete : messageType ≠ storageDeleteMessage := by rw [hread]; decide
          rw [storageReadRequest_truthful_iff hh]
          exact ⟨fun ht _ => ⟨.inr (.inr (.inl hread)), fun h => absurd h hscan,
              fun h => absurd h (not_or.mpr ⟨hscan, hdelete⟩), ht.1, ht.2⟩,
            fun ha => ⟨(ha hapi).complete, (ha hapi).sent⟩⟩
        · split at hh
          · next hdelete =>
            rw [storageDeleteRequest_truthful_iff hh]
            exact ⟨fun ht _ => ⟨.inr (.inr (.inr hdelete)), fun h => absurd h hscan, fun _ => ht.1,
                fun _ => ht.2.1, ht.2.2⟩,
              fun ha =>
              ⟨(ha hapi).unchecked (.inr hdelete), (ha hapi).complete ((ha hapi).unchecked (.inr hdelete)),
                (ha hapi).sent⟩⟩
          · next hwrite hread hdelete =>
            subst hh
            refine ⟨fun ⟨_, r, hr, _⟩ => (List.cons_ne_nil _ _ hr.symm).elim, fun ha => ?_⟩
            rcases (ha hapi).known with h | h | h | h
            · exact absurd h hscan
            · exact absurd h hwrite
            · exact absurd h hread
            · exact absurd h hdelete
  · rw [if_pos hapi] at hh
    subst hh
    exact ⟨fun _ h => absurd h hapi, fun _ => refused_truthful _ (by decide) (by decide)⟩

end

/-! ## A card -/

structure Card where
  names : List Bytes
  file : Bytes → Option Bytes

/-- An open file, and the offset in it. -/
structure CardFile where
  name : Bytes
  fptr : Nat

def Card.put (s : Card) (name : Bytes) (data : Option Bytes) : Card :=
  { s with file := fun n => if n = name then data else s.file n }

def Card.data (s : Card) (name : Bytes) : Bytes := (s.file name).getD []

/-- The name at `m`. -/
def cardName (m : Mem UInt8) : Bytes := strn m (storageLogLen + 1)

def cardFf : Ff Card CardFile where
  opendir s := (.ok, ⟨s.names.map fun n => ⟨n, false, UInt32.ofNat (s.data n).length⟩, .ok, .ok⟩)
  openAppend m s :=
    let name := cardName m
    if name = [] then (.invalidName, ⟨name, 0⟩, s)
    else if (s.file name).isSome then (.ok, ⟨name, (s.data name).length⟩, s)
    else (.ok, ⟨name, 0⟩, { s.put name (some []) with names := s.names ++ [name] })
  openRead m s := (if (s.file (cardName m)).isSome then .ok else .noFile, ⟨cardName m, 0⟩, s)
  fptr fp := UInt32.ofNat fp.fptr
  write fp buf s :=
    if (s.data fp.name).length + buf.length < 4294967296 then
      (.ok, UInt32.ofNat buf.length, ⟨fp.name, fp.fptr + buf.length⟩,
        s.put fp.name (some (s.data fp.name ++ buf)))
    else (.denied, 0, fp, s)
  lseek fp offset s := (.ok, ⟨fp.name, min offset.toNat (s.data fp.name).length⟩, s)
  read fp length s := (.ok, ((s.data fp.name).drop fp.fptr).take length.toNat, fp, s)
  close _ s := (.ok, s)
  unlink m s := (if (s.file (cardName m)).isSome then .ok else .noFile, s.put (cardName m) none)

/-- The storage master with this card, all of whose messages are sent. -/
def cardMaster : Master Card CardFile := ⟨cardFf, fun _ => some fun _ => 0, fun _ => 0, fun _ => 1⟩

def emptyCard : Card := ⟨[], fun _ => none⟩

/-- A list of 97612894 records is given 40 bytes, in which a record does not fit. -/
example : (storageApiCallback cardMaster 0x31 storageApiType storageScanMessage 4 (.ofList (le32 97612894) 0)
    commandFrame ⟨[[0x61]], fun _ => some []⟩).overrun = true := by decide +kernel

/-- A delete of the log `a`, when there is none. -/
def deleteMissing : Handled Card :=
  storageApiCallback cardMaster 0x31 storageApiType storageDeleteMessage 1
    (.ofList [0x61] 0) commandFrame emptyCard

/-- The one reply is a response, though the step it took has failed. -/
theorem deleteMissing_response : deleteMissing.replies.map Reply.frameType = [responseFrame] ∧
    deleteMissing.steps.map FileStep.res = [.noFile] ∧ ¬ deleteMissing.Truthful := by
  have hres : deleteMissing.steps.map FileStep.res = [.noFile] := by decide
  have hreq : storageDeleteRequest cardMaster 0x31 storageApiType storageDeleteMessage
    (.ofList [0x61] 0) emptyCard =
      deleteMissing := rfl
  refine ⟨by decide, hres, fun htrue => ?_⟩
  have hok := ((storageDeleteRequest_truthful_iff hreq).mp htrue).1
  have hall : ∀ res ∈ deleteMissing.steps.map FileStep.res, res = .ok := by
    intro res hmem
    obtain ⟨st, hst, rfl⟩ := List.mem_map.mp hmem
    exact hok st hst
  rw [hres] at hall
  exact absurd (hall .noFile List.mem_cons_self) (by decide)

end Signpost
