/-
What a command asks of the file layer: the call that `storage_api_callback`
makes for it, and what was marshalled in the message.

A name is sent as its characters. Where they end is found in the message by
`strncpy`, and in the copy by FatFs.

The message is a function from offsets, so what is behind a name in the buffer
is read with it. A request is decoded rightly if the zero is found where the
name ends, and a write with too little behind its name is refused.
-/
import Signpost.StorageLog

namespace Signpost

open Lib

inductive FileRequest
  | scan (list : Mem UInt8) (maxListLen : Nat)
  | write (filename : Mem UInt8) (buf : Bytes)
  | read (filename : Mem UInt8) (offset length : UInt32)
  | del (filename : Mem UInt8)

section
variable {σ φ : Type}

/-- The steps it takes in the file system, and what they leave. -/
def FileRequest.run (ff : Ff σ φ) (s : σ) : FileRequest → List FileStep × σ
  | .scan list maxListLen =>
    ((storageScanFiles ff list maxListLen s).steps, (storageScanFiles ff list maxListLen s).fs)
  | .write filename buf => ((storageWriteData ff filename buf s).steps, (storageWriteData ff filename buf s).fs)
  | .read filename offset length =>
    ((storageReadData ff filename offset length s).steps, (storageReadData ff filename offset length s).fs)
  | .del filename => ((storageDelData ff filename s).steps, (storageDelData ff filename s).fs)

/-- The call that `storage_api_callback` makes for a command, where it does not refuse it. -/
def Command.fileRequest (m : Master σ φ) (c : Command) : Option FileRequest :=
  let logname := requestLogname m c.message
  let lognameLen := strnlen logname storageLogLen
  if c.apiType ≠ storageApiType then none
  else if c.messageType = storageScanMessage then
    if c.messageLength < 4 then none
    else (m.malloc (u32 c.message 0 * sizeofStorageRecord)).map fun list => .scan list (u32 c.message 0).toNat
  else if c.messageType = storageWriteMessage then
    if lognameLen + 4 + 1 > c.messageLength.toNat then none
    else some (.write logname (c.message.read (lognameLen + 1) (c.messageLength.toNat - lognameLen - 1)))
  else if c.messageType = storageReadMessage then
    if lognameLen + 4 * 2 + 2 > c.messageLength.toNat then none
    else
      (m.malloc (u32 c.message (lognameLen + 2 + 4))).map fun _ =>
        .read logname (u32 c.message (lognameLen + 1)) (u32 c.message (lognameLen + 2 + 4))
  else if c.messageType = storageDeleteMessage then some (.del logname)
  else none

/-- What a command does to the file system is what the call does that it makes, if it makes one. -/
theorem Master.handle_fileRequest (m : Master σ φ) (c : Command) (s : σ) :
    ((m.handle c s).steps, (m.handle c s).fs) = (c.fileRequest m).elim ([], s) (FileRequest.run m.ff s) := by
  unfold Master.handle storageApiCallback Command.fileRequest
  by_cases hapi : c.apiType = storageApiType
  · simp only [if_neg (not_not.mpr hapi), if_true]
    by_cases hscan : c.messageType = storageScanMessage
    · simp only [if_pos hscan, storageScanRequest]
      split
      · rfl
      · cases m.malloc (u32 c.message 0 * sizeofStorageRecord) with
        | none => rfl
        | some list =>
          simp only [apply_ite Handled.steps, apply_ite Handled.fs, errorReply_steps, response_steps, errorReply_fs,
            response_fs, ite_self]
          rfl
    · simp only [if_neg hscan]
      by_cases hwrite : c.messageType = storageWriteMessage
      · simp only [if_pos hwrite, storageWriteRequest]
        split
        · rfl
        · simp only [apply_ite Handled.steps, apply_ite Handled.fs, errorReply_steps, response_steps, errorReply_fs,
            response_fs, ite_self]
          rfl
      · simp only [if_neg hwrite]
        by_cases hread : c.messageType = storageReadMessage
        · simp only [if_pos hread, storageReadRequest]
          split
          · rfl
          · cases m.malloc (u32 c.message (strnlen (requestLogname m c.message) storageLogLen + 2 + 4)) with
            | none => rfl
            | some _ =>
              simp only [apply_ite Handled.steps, apply_ite Handled.fs, errorReply_steps, response_steps,
                errorReply_fs, response_fs, ite_self]
              rfl
        · simp only [if_neg hread]
          by_cases hdelete : c.messageType = storageDeleteMessage
          · simp only [if_pos hdelete, storageDeleteRequest, response_steps, response_fs]
            rfl
          · simp only [if_neg hdelete]
            rfl
  · simp only [if_pos hapi]
    rfl

/-! ## Names -/

/-- A string in memory, and the zero that ends it. -/
def StringAt (m : Mem UInt8) (name : Bytes) : Prop := 0 ∉ name ∧ m.read 0 (name.length + 1) = name ++ [0]

/-- A message that starts with these characters has them copied, and behind them what is
behind them in the message, or on the stack where there is no more room. -/
theorem requestLogname_read {m : Master σ φ} {message : Mem UInt8} {name : Bytes} (hzero : 0 ∉ name)
    (hlen : name.length ≤ storageLogLen) (hname : message.read 0 name.length = name) :
    (requestLogname m message).read 0 (name.length + 1) =
      name ++ [if name.length < storageLogLen then message name.length else m.stack storageLogLen] := by
  obtain ⟨room, hroom⟩ := Nat.exists_eq_add_of_le hlen
  have hchars : strn message storageLogLen =
      name ++ (message.read name.length room).takeWhile (· ≠ 0) := by
    rw [strn, hroom, Mem.read_add, hname, Nat.zero_add, List.takeWhile_append_of_pos (ne_zero_of_not_mem hzero)]
  cases room with
  | zero =>
    have hfull : name.length = storageLogLen := hroom.symm
    have hstack : requestLogname m message storageLogLen = m.stack storageLogLen :=
      Mem.copy_after (by rw [length_strncpy, Nat.zero_add])
    have hcopy : strncpy message storageLogLen = name := by
      rw [strncpy, strnlen, hchars]
      simp [hfull]
    rw [if_neg (by omega), hfull, Mem.read_add, read_requestLogname, hcopy, Nat.zero_add]
    simp [Mem.read, hstack]
  | succ room =>
    have hnext : message.read name.length (room + 1) =
        message name.length :: message.read (name.length + 1) room := by
      rw [Nat.add_comm room, Mem.read_add]
      rfl
    have htake : name.take (name.length + 1) = name := List.take_of_length_le (Nat.le_succ name.length)
    have hcopy : (strncpy message storageLogLen).take (name.length + 1) = name ++ [message name.length] := by
      rw [strncpy, strnlen, hchars, hnext]
      by_cases hend : message name.length = 0
      · have hpad : storageLogLen - name.length = room + 1 := by omega
        simp [hend, hpad, htake, List.take_append, List.replicate_succ]
      · simp [hend, htake, List.take_append]
    rw [if_pos (by omega), ← hcopy, ← read_requestLogname m, Mem.take_read, Nat.min_eq_left (by omega)]

theorem stringAt_requestLogname_iff {m : Master σ φ} {message : Mem UInt8} {name : Bytes} (hzero : 0 ∉ name)
    (hlen : name.length ≤ storageLogLen) (hname : message.read 0 name.length = name) :
    StringAt (requestLogname m message) name ↔
      (if name.length < storageLogLen then message name.length else m.stack storageLogLen) = 0 := by
  rw [StringAt, requestLogname_read hzero hlen hname]
  simp [hzero]

/-! ## Writes and reads -/

variable {m : Master σ φ} {heap rheap : Mem UInt8} {wrecord len record : Ptr} {bytes : Bytes} {w q : Command}

theorem stringAt_of_message {message : Mem UInt8} {name rest : Bytes} {n : Nat} (hzero : 0 ∉ name)
    (hlen : name.length < storageLogLen) (hread : message.read 0 n = name ++ 0 :: rest) :
    StringAt (requestLogname m message) name := by
  obtain ⟨-, hname, -⟩ := read_message hread
  rw [Mem.read_add, Nat.zero_add] at hname
  obtain ⟨hchars, hend⟩ := List.append_inj hname (Mem.length_read ..)
  rw [stringAt_requestLogname_iff hzero (Nat.le_of_lt hlen) hchars, if_pos hlen]
  exact (List.cons.inj hend).1

theorem fileRequest_write {name : Bytes} (hzero : 0 ∉ name) (hlen : name.length < storageLogLen)
    (hwrite : w.Asks storageWriteMessage (name ++ 0 :: bytes)) : w.fileRequest m =
      if bytes.length < 4 then none else some (.write (requestLogname m w.message) bytes) := by
  obtain ⟨source, _, _, n, message⟩ := w
  obtain ⟨rfl, rfl, hread⟩ := hwrite
  simp only at hread ⊢
  obtain ⟨hn, -, hrest⟩ := read_message hread
  have hcount : strnlen (requestLogname m message) storageLogLen = name.length := by
    rw [strnlen, strn_requestLogname, strn_message hzero (Nat.le_of_lt hlen) hread]
  have hdata : name.length + 1 + bytes.length - name.length - 1 = bytes.length := by omega
  simp only [Command.fileRequest, hcount, hn, ne_eq, not_true_eq_false, if_false, if_true]
  rw [if_neg (by decide), hdata, hrest]
  exact if_congr (by omega) rfl rfl

theorem fileRequest_read (hread : q.Asks storageReadMessage (storageReadMarshal heap len record)) :
    q.fileRequest m = (m.malloc (u32 heap len)).map fun _ =>
      .read (requestLogname m q.message) (u32 heap (record + 36)) (u32 heap len) := by
  obtain ⟨source, _, _, n, message⟩ := q
  obtain ⟨rfl, rfl, hread⟩ := hread
  simp only at hread ⊢
  obtain ⟨hn, hname, hoffset, hlength⟩ := read_parsed hread
  have hcount : strnlen (requestLogname m message) storageLogLen = (logName heap record).length := by
    rw [strnlen, strn_requestLogname, hname]
  simp only [Command.fileRequest, hcount, hn, ne_eq, not_true_eq_false, if_false, if_true]
  rw [if_neg (by decide), if_neg (by decide), if_neg (by omega), hoffset, hlength]

/-- **When a request comes to the file layer as it was made.** For every name of at most
31 bytes, every data, every offset and every length: a write comes there with its name and
its data if and only if there are at least four bytes of them, and a read with its name,
its offset and its length, which its call may have lowered, if and only if the storage
master has memory for it. -/
theorem request_decoded_iff (m : Master σ φ) (hwname : (logName heap wrecord).length ≤ 31)
    (hwrite : w.Asks storageWriteMessage (storageWriteMarshal heap wrecord bytes))
    (hrname : (logName rheap record).length ≤ 31)
    (hread : q.Asks storageReadMessage (storageReadMarshal rheap len record)) :
    ((∃ filename, w.fileRequest m = some (.write filename bytes) ∧ StringAt filename (logName heap wrecord)) ↔
      4 ≤ bytes.length) ∧
    ((∃ filename, q.fileRequest m = some (.read filename (u32 rheap (record + 36)) (u32 rheap len)) ∧
        StringAt filename (logName rheap record)) ↔ (m.malloc (u32 rheap len)).isSome = true) := by
  have hwlen : (logName heap wrecord).length < storageLogLen := Nat.lt_succ_of_le hwname
  have hrlen : (logName rheap record).length < storageLogLen := Nat.lt_succ_of_le hrname
  constructor
  · rw [fileRequest_write (zero_not_mem_strn _ _) hwlen hwrite]
    constructor
    · rintro ⟨filename, hcall, -⟩
      split at hcall
      · cases hcall
      · next hlong => exact Nat.not_lt.mp hlong
    · intro hlong
      exact ⟨_, if_neg (Nat.not_lt.mpr hlong),
        stringAt_of_message (zero_not_mem_strn _ _) hwlen hwrite.payload⟩
  · rw [fileRequest_read hread]
    constructor
    · rintro ⟨filename, hcall, -⟩
      obtain ⟨buf, hbuf, -⟩ := Option.map_eq_some_iff.mp hcall
      rw [hbuf]
      rfl
    · intro hmalloc
      obtain ⟨buf, hbuf⟩ := Option.isSome_iff_exists.mp hmalloc
      refine ⟨_, by rw [hbuf]; rfl, ?_⟩
      exact stringAt_of_message (zero_not_mem_strn _ _) hrlen hread.payload

/-- Four bytes for the log `a`, and a read of them. -/
theorem request_decoded_iff_four :
    (∃ filename, (writeCommand [1, 2, 3, 4]).fileRequest cardMaster = some (.write filename [1, 2, 3, 4]) ∧
      StringAt filename [0x61]) ∧
    ∃ filename, (readCommand (readerApi (writeAnswer 0 4) 4)).fileRequest cardMaster = some (.read filename 0 4) ∧
      StringAt filename [0x61] := by
  have hwname : logName (.ofList [0x61] 0) 0 = [0x61] := by decide +kernel
  have hwrite : (writeCommand [1, 2, 3, 4]).Asks storageWriteMessage
      (storageWriteMarshal (.ofList [0x61] 0) 0 [1, 2, 3, 4]) :=
    ⟨rfl, rfl, by decide +kernel⟩
  obtain ⟨rheap, hrheap⟩ : ∃ rheap,
      ((signpostStorageRead 300 200 100).start (readerApi (writeAnswer 0 4) 4)).1.heap = rheap := ⟨_, rfl⟩
  have hrname : logName rheap 100 = [0x61] := by
    rw [← hrheap]
    decide +kernel
  have hoffset : u32 rheap (100 + 36) = 0 := by
    rw [← hrheap]
    decide +kernel
  have hlength : u32 rheap 200 = 4 := by
    rw [← hrheap]
    decide +kernel
  have hread : (readCommand (readerApi (writeAnswer 0 4) 4)).Asks storageReadMessage
      (storageReadMarshal rheap 200 100) := by
    rw [← hrheap]
    exact ⟨rfl, rfl, by decide +kernel⟩
  have hiff := request_decoded_iff cardMaster (by rw [hwname]; decide) hwrite (by rw [hrname]; decide) hread
  rw [hwname, hrname, hoffset, hlength] at hiff
  exact ⟨hiff.1.mpr (by decide), hiff.2.mpr rfl⟩

/-- Three bytes for it are refused, and do not come to the file layer. -/
theorem shortWrite_refused :
    (writeCommand [1, 2, 3]).Asks storageWriteMessage (storageWriteMarshal (.ofList [0x61] 0) 0 [1, 2, 3]) ∧
      (cardMaster.handle (writeCommand [1, 2, 3]) emptyCard).replies.map Reply.errorCode = [tockEnomem] ∧
      ¬ ∃ filename, (writeCommand [1, 2, 3]).fileRequest cardMaster = some (.write filename [1, 2, 3]) ∧
        StringAt filename (logName (.ofList [0x61] 0) 0) := by
  have hnone : ((writeCommand [1, 2, 3]).fileRequest cardMaster).isNone = true := by decide +kernel
  refine ⟨⟨rfl, rfl, by decide +kernel⟩, by decide +kernel, ?_⟩
  rintro ⟨filename, hcall, -⟩
  rw [hcall] at hnone
  cases hnone

end

end Signpost
