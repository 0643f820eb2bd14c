/-
What `signpost_storage_scan` and `signpost_storage_read` return, and what they
leave in the caller's buffer and in the caller's length.

A code of `storage_result` is a `bool`. A scan returns the code of its send; a
read copies as many bytes as it asked for, whatever came in.

Each call is followed from its begin to its return, through the answer that it
gets, and the caller's memory is compared with what was answered. The two
results are put into one by the kind of call.
-/
import Signpost.Answers

namespace Signpost.Calls

open Lib

variable {mktime : Tm → Bytes} {s s' : State} {es : List Event} {r : Returned} {api api' : Api} {m : Incoming}

/-- What is promised of a buffer with room for `*len` parts of this size: on
success it holds a response and `*len` its parts, and nothing else is written;
otherwise the code is negative and the buffer is as it was. -/
def StorageTruthful (size buf len : Nat) (s s' : State) (r : Returned) : Prop :=
  let room := (u32 s.api.heap len).toNat * size
  if r.rc = portSuccess then ∃ m ∈ r.used, m.IsResponse ∧ m.payload.length ≤ room ∧
    s'.api.heap.read buf m.payload.length = m.payload ∧ (u32 s'.api.heap len).toNat * size = m.payload.length ∧
    ∀ i, (i < buf ∨ buf + m.payload.length ≤ i) → (i < len ∨ len + 4 ≤ i) → s'.api.heap i = s.api.heap i
  else r.rc < 0 ∧ s'.api.heap.read buf room = s.api.heap.read buf room

/-- The caller's buffer and its length are apart. -/
def Apart (size buf len : Nat) (s : State) : Prop :=
  buf + (u32 s.api.heap len).toNat * size ≤ len ∨ len + 4 ≤ buf

theorem Apart.read_eq {size buf len n : Nat} (h : Apart size buf len s) {heap : Mem UInt8}
    (hother : ∀ i, (i < len ∨ len + 4 ≤ i) → heap i = s.api.heap i) (hn : n ≤ (u32 s.api.heap len).toNat * size) :
    heap.read buf n = s.api.heap.read buf n := by
  refine Mem.read_eq_iff.mpr fun i hi => hother _ ?_
  rw [Apart] at h
  omega

theorem toNat_lenOrRc (hm : m.IsAnswer) : (UInt32.ofInt m.call.lenOrRc).toNat = m.payload.length := by
  have hlt : m.call.lenOrRc < 2 ^ 31 := by
    have h := hm.1
    simp only [Incoming.call, appLayerCallback] at h ⊢
    split at h
    · next hneg => exact absurd h (Int.not_le.mpr hneg)
    · next hneg =>
      rw [if_neg hneg]
      obtain ⟨heq, hlt⟩ := toInt_of_nonneg h
      simp only at heq ⊢
      omega
  have hcast : m.call.lenOrRc = (m.call.lenOrRc.toNat : Int) := (Int.toNat_of_nonneg hm.1).symm
  rw [hcast, toNat_ofInt (by omega), Incoming.length_payload]

/-! ## Scan -/

section
variable {recordList listLen : Ptr}

theorem storageScan_failed (mktime : Tm → Bytes) (recordList listLen : Ptr) (api : Api) {err : Int} (herr : err < 0) :
    (((Api.Call.storageScan recordList listLen).code mktime).sent err api).1.heap = api.heap ∧
      (((Api.Call.storageScan recordList listLen).code mktime).sent err api).2 = some err := by
  simp only [Api.Call.code, signpostStorageScan]
  rw [if_pos (show err < portSuccess from herr)]
  exact ⟨rfl, rfl⟩

theorem storageScan_waits (mktime : Tm → Bytes) (recordList listLen : Ptr) :
    ∃ w, Waits mktime (.storageScan recordList listLen) w :=
  ⟨_, rfl, rfl, rfl, rfl, fun _ => rfl, fun herr => if_neg (Int.not_lt.mpr herr),
    fun herr => (storageScan_failed mktime recordList listLen _ herr).2⟩

/-- What the call leaves before it sends. -/
structure ScanStarted (recordList listLen : Ptr) (api api' : Api) : Prop where
  heap : api'.heap = api.heap
  slot : api'.incomingActiveCallback = some .storageScan
  callbackRecord : api'.callbackRecord = recordList
  callbackLength : api'.callbackLength = listLen

theorem storageScan_start {rc : Option Int}
    (h : ((Api.Call.storageScan recordList listLen).code mktime).start api = (api', rc)) :
    (rc = some portEbusy ∧ api'.heap = api.heap) ∨ rc = none ∧ ScanStarted recordList listLen api api' := by
  simp only [Api.Call.code, signpostStorageScan] at h
  split at h
  · obtain ⟨rfl, rfl⟩ := Prod.mk.inj h
    exact .inl ⟨rfl, rfl⟩
  · obtain ⟨rfl, rfl⟩ := Prod.mk.inj h
    exact .inr ⟨rfl, rfl, rfl, rfl, rfl⟩

theorem ScanStarted.recv (h : ScanStarted recordList listLen api api') (hm : m.IsAnswer) (hlist : recordList ≠ 0)
    (hlen : listLen ≠ 0) : (api'.recv m.call).1.heap =
      if m.payload.length ≤ (u32 api.heap listLen * sizeofStorageRecord).toNat then
        (api.heap.copy listLen (le32 (UInt32.ofInt m.call.lenOrRc / sizeofStorageRecord))).copy recordList m.payload
      else api.heap := by
  obtain ⟨frame, hframe, hmessage⟩ := Incoming.incoming_of_answer hm
  have hnneg : ¬ m.call.lenOrRc < portSuccess := Int.not_lt.mpr hm.1
  rw [Api.recv_taker ((Incoming.taker_of_answer hm api').trans h.slot), hframe, Option.getD_some, ← h.heap]
  simp only [Callback.run, signpostStorageScanCallback, if_neg hnneg, h.callbackLength, h.callbackRecord]
  by_cases hfit : m.payload.length ≤ (u32 api'.heap listLen * sizeofStorageRecord).toNat
  · have hle : ¬ UInt32.ofInt m.call.lenOrRc > u32 api'.heap listLen * sizeofStorageRecord := by
      rw [gt_iff_lt, UInt32.lt_iff_toNat_lt, toNat_lenOrRc hm]
      exact Nat.not_lt.mpr hfit
    rw [if_neg hle, if_pos hfit]
    simp only [Api.set, hlist, hlen, ne_eq, not_false_eq_true, and_self, if_true, hmessage]
    rfl
  · have hgt : UInt32.ofInt m.call.lenOrRc > u32 api'.heap listLen * sizeofStorageRecord := by
      rw [gt_iff_lt, UInt32.lt_iff_toNat_lt, toNat_lenOrRc hm]
      exact Nat.not_le.mp hfit
    rw [if_pos hgt, if_neg hfit]
    rfl

/-- The buffer is as it was exactly when what came in, if anything did, does not
fit, or is what the buffer has. -/
theorem ScanStarted.kept (h : ScanStarted recordList listLen s.api api) (hlist : recordList ≠ 0) (hlen : listLen ≠ 0)
    (hapart : Apart sizeofStorageRecord.toNat recordList listLen s) {a : Option Incoming} (ha : ∀ m ∈ a, m.IsAnswer) :
    (afterAnswer api a).heap.read recordList ((u32 s.api.heap listLen).toNat * sizeofStorageRecord.toNat) =
        s.api.heap.read recordList ((u32 s.api.heap listLen).toNat * sizeofStorageRecord.toNat) ↔
      ∀ m ∈ a, m.payload.length ≤ (u32 s.api.heap listLen * sizeofStorageRecord).toNat →
        s.api.heap.read recordList m.payload.length = m.payload := by
  cases a with
  | none =>
    rw [show afterAnswer api none = api from rfl, h.heap]
    exact iff_of_true rfl fun m hm => by cases hm
  | some m =>
    simp only [Option.mem_some_iff, forall_eq']
    rw [show (afterAnswer api (some m)).heap = (api.recv m.call).1.heap from rfl, h.recv (ha m rfl) hlist hlen]
    split
    · next hfit =>
      have hroom : m.payload.length ≤ (u32 s.api.heap listLen).toNat * sizeofStorageRecord.toNat := by
        rw [UInt32.toNat_mul] at hfit
        exact Nat.le_trans hfit (Nat.mod_le _ _)
      have hcounted : ∀ i : Nat, (i < listLen ∨ listLen + 4 ≤ i) →
          s.api.heap.copy listLen (le32 (UInt32.ofInt m.call.lenOrRc / sizeofStorageRecord)) i = s.api.heap i :=
        fun i hi => Mem.copy_outside hi
      rw [← hapart.read_eq hcounted (Nat.le_refl _), Mem.read_copy_eq_iff hroom, hapart.read_eq hcounted hroom]
      exact ⟨fun heq _ => heq, fun heq => heq hfit⟩
    · next hfit => exact iff_of_true rfl fun heq => absurd heq hfit

/-- The code is one of the send of a scan. -/
def ScanSends (err : Int) : Prop := ∃ mb rand write d addrToKey message, Mbedtls.CtrLength mb ∧
  err = (signbusAppSend mb rand write d moduleAddressStorage addrToKey commandFrame storageApiType storageScanMessage
    4 message).rc

/-- The send fails, and what an answer that comes in before has for the buffer is in it. -/
def ScanFails (recordList listLen : Ptr) (s : State) (es : List Event) : Prop :=
  (∀ err ∈ sendCode es, err < 0) ∧ ∀ m ∈ firstAnswer es,
    m.payload.length ≤ (u32 s.api.heap listLen * sizeofStorageRecord).toNat →
      s.api.heap.read recordList m.payload.length = m.payload

theorem scan_truthful (hlist : recordList ≠ 0) (hlen : listLen ≠ 0)
    (hapart : Apart sizeofStorageRecord.toNat recordList listLen s)
    (h : Returns mktime (.storageScan recordList listLen) s es s' r) (hsends : ∀ err ∈ sendCode es, ScanSends err) :
    StorageTruthful sizeofStorageRecord.toNat recordList listLen s s' r ↔ ScanFails recordList listLen s es := by
  obtain ⟨w, hw⟩ := storageScan_waits mktime recordList listLen
  have hwait := hw.wait
  cases hwait
  have hne : ∀ err ∈ sendCode es, err ≠ portSuccess := by
    intro err hcode
    obtain ⟨mb, rand, write, d, addrToKey, message, hctr, heq⟩ := hsends err hcode
    rw [heq]
    exact signbusAppSend_ne_zero hctr (by decide)
  -- A send that has not failed has a positive code, which is returned.
  have hpositive : ∀ err, sendCode es = some err → 0 ≤ err → r.rc = err →
      (StorageTruthful sizeofStorageRecord.toNat recordList listLen s s' r ↔ ScanFails recordList listLen s es) := by
    intro err hcode herr hrc
    rw [StorageTruthful, hrc, if_neg (hne err hcode)]
    exact iff_of_false (fun htrue => absurd htrue.1 (Int.not_lt.mpr herr))
      fun hfails => absurd (hfails.1 err hcode) (Int.not_lt.mpr herr)
  rcases h.ends hw with ⟨rfl, hrefused⟩ | ⟨api, hstart, hends⟩
  · rcases storageScan_start hrefused with ⟨hrc, hheap⟩ | ⟨hrc, -⟩
    · rw [StorageTruthful, Option.some.inj hrc, if_neg (by decide), hheap]
      refine iff_of_true ⟨by decide, rfl⟩ ⟨fun err herr => ?_, fun m hm => ?_⟩
      · cases herr
      · cases hm
    · cases hrc
  obtain ⟨hbusy, -⟩ | ⟨-, hstarted⟩ := storageScan_start hstart
  · cases hbusy
  cases hends with
  | @failed err incoming hcode herr hanswer hsent =>
    obtain ⟨hheap, hrc⟩ := storageScan_failed mktime recordList listLen
      { afterAnswer api (firstAnswer es) with incoming } herr
    rw [hsent] at hheap hrc
    rw [StorageTruthful, ScanFails, Option.some.inj hrc, if_neg (hne err hcode), hheap, hcode]
    simp only [Option.mem_some_iff, forall_eq', herr, true_and]
    exact hstarted.kept hlist hlen hapart hanswer
  | @answered m err incoming hfirst hm hcode herr hused hwoken =>
    dsimp only at hwoken
    rw [if_pos (show err ≠ 0 from hne err hcode)] at hwoken
    exact hpositive err hcode herr (Prod.mk.inj hwoken).2.symm
  | @timedOut err incoming hfirst hcode herr hwoken =>
    dsimp only at hwoken
    rw [if_pos (show err ≠ 0 from hne err hcode)] at hwoken
    exact hpositive err hcode herr (Prod.mk.inj hwoken).2.symm

end

/-! ## Read -/

section
variable {data len recordPointer : Ptr}

theorem storageRead_failed (mktime : Tm → Bytes) (data len recordPointer : Ptr) (api : Api) {err : Int}
    (herr : err < 0) : (((Api.Call.storageRead data len recordPointer).code mktime).sent err api).1.heap = api.heap ∧
      (((Api.Call.storageRead data len recordPointer).code mktime).sent err api).2 = some err := by
  simp only [Api.Call.code, signpostStorageRead]
  rw [if_pos (show err < portSuccess from herr)]
  exact ⟨rfl, rfl⟩

theorem storageRead_waits (mktime : Tm → Bytes) (data len recordPointer : Ptr) :
    ∃ w, Waits mktime (.storageRead data len recordPointer) w :=
  ⟨_, rfl, rfl, rfl, rfl, fun _ => rfl, fun herr => if_neg (Int.not_lt.mpr herr),
    fun herr => (storageRead_failed mktime data len recordPointer _ herr).2⟩

/-- What is asked for: `*len`, but no more than the record has behind its offset. -/
def readLength (heap : Mem UInt8) (len recordPointer : Ptr) : UInt32 :=
  let left := u32 heap (recordPointer + 40) - u32 heap (recordPointer + 36)
  if u32 heap len > left then left else u32 heap len

theorem readLength_le (heap : Mem UInt8) (len recordPointer : Ptr) :
    (readLength heap len recordPointer).toNat ≤ (u32 heap len).toNat := by
  simp only [readLength]
  split
  · next hgt => exact Nat.le_of_lt (UInt32.lt_iff_toNat_lt.mp hgt)
  · exact Nat.le_refl _

/-- Where it is less than `*len`, it is written there. -/
theorem u32_readLength (heap : Mem UInt8) (len recordPointer : Nat) :
    let left := u32 heap (recordPointer + 40) - u32 heap (recordPointer + 36)
    let heap' := if u32 heap len > left then heap.copy len (le32 left) else heap
    u32 heap' len = readLength heap len recordPointer ∧ ∀ i, (i < len ∨ len + 4 ≤ i) → heap' i = heap i := by
  simp only [readLength]
  split
  · exact ⟨u32_copy_le32 .., fun i hi => Mem.copy_outside hi⟩
  · exact ⟨rfl, fun i _ => rfl⟩

/-- What the call leaves before it sends: `*len` is what is asked for. -/
structure ReadStarted (data len recordPointer : Nat) (api api' : Api) : Prop where
  length : u32 api'.heap len = readLength api.heap len recordPointer
  other : ∀ i : Nat, (i < len ∨ len + 4 ≤ i) → api'.heap i = api.heap i
  slot : api'.incomingActiveCallback = some .storageRead
  callbackData : api'.callbackData = data
  callbackLength : api'.callbackLength = len

theorem storageRead_start {rc : Option Int}
    (h : ((Api.Call.storageRead data len recordPointer).code mktime).start api = (api', rc)) :
    (rc = some portEbusy ∧ api'.heap = api.heap) ∨ rc = none ∧ ReadStarted data len recordPointer api api' := by
  simp only [Api.Call.code, signpostStorageRead] at h
  split at h
  · obtain ⟨rfl, rfl⟩ := Prod.mk.inj h
    exact .inl ⟨rfl, rfl⟩
  · obtain ⟨rfl, rfl⟩ := Prod.mk.inj h
    obtain ⟨hasked, hother⟩ := u32_readLength api.heap len recordPointer
    exact .inr ⟨rfl, hasked, hother, rfl, rfl, rfl⟩

theorem ReadStarted.recv (h : ReadStarted data len recordPointer api api') (hm : m.IsAnswer) (hdata : data ≠ 0)
    (hlen : len ≠ 0) : if m.payload.length ≤ (readLength api.heap len recordPointer).toNat then
        (api'.recv m.call).1.storageResult = false ∧ (api'.recv m.call).1.heap =
          api'.heap.copy data (m.message.read 0 (readLength api.heap len recordPointer).toNat)
      else (api'.recv m.call).1.storageResult = true ∧ (api'.recv m.call).1.heap = api'.heap := by
  obtain ⟨frame, hframe, hmessage⟩ := Incoming.incoming_of_answer hm
  have hnneg : ¬ m.call.lenOrRc < portSuccess := Int.not_lt.mpr hm.1
  rw [Api.recv_taker ((Incoming.taker_of_answer hm api').trans h.slot), hframe, Option.getD_some]
  simp only [Callback.run, signpostStorageReadCallback, if_neg hnneg, h.callbackLength, if_neg hlen, h.callbackData,
    h.length]
  by_cases hfit : m.payload.length ≤ (readLength api.heap len recordPointer).toNat
  · have hle : ¬ UInt32.ofInt m.call.lenOrRc > readLength api.heap len recordPointer := by
      rw [gt_iff_lt, UInt32.lt_iff_toNat_lt, toNat_lenOrRc hm]
      exact Nat.not_lt.mpr hfit
    rw [if_neg hle, if_pos hfit]
    rw [if_pos hdata, hmessage]
    exact ⟨rfl, rfl⟩
  · have hgt : UInt32.ofInt m.call.lenOrRc > readLength api.heap len recordPointer := by
      rw [gt_iff_lt, UInt32.lt_iff_toNat_lt, toNat_lenOrRc hm]
      exact Nat.not_le.mp hfit
    rw [if_pos hgt, if_neg hfit]
    exact ⟨rfl, rfl⟩

/-- The buffer is as it was exactly when what came in, if anything did, is
longer than what was asked for, or what is copied is what the buffer has. -/
theorem ReadStarted.kept (h : ReadStarted data len recordPointer s.api api) (hdata : data ≠ 0) (hlen : len ≠ 0)
    (hapart : Apart 1 data len s) {a : Option Incoming} (ha : ∀ m ∈ a, m.IsAnswer) :
    (afterAnswer api a).heap.read data ((u32 s.api.heap len).toNat * 1) =
        s.api.heap.read data ((u32 s.api.heap len).toNat * 1) ↔
      ∀ m ∈ a, m.payload.length ≤ (readLength s.api.heap len recordPointer).toNat →
        s.api.heap.read data (readLength s.api.heap len recordPointer).toNat =
          m.message.read 0 (readLength s.api.heap len recordPointer).toNat := by
  have hbuf := hapart.read_eq h.other (Nat.le_refl _)
  cases a with
  | none =>
    rw [show afterAnswer api none = api from rfl, hbuf]
    exact iff_of_true rfl fun m hm => by cases hm
  | some m =>
    simp only [Option.mem_some_iff, forall_eq']
    rw [show (afterAnswer api (some m)).heap = (api.recv m.call).1.heap from rfl]
    have hrecv := h.recv (ha m rfl) hdata hlen
    split at hrecv
    · next hfit =>
      have hroom : (m.message.read 0 (readLength s.api.heap len recordPointer).toNat).length ≤
          (u32 s.api.heap len).toNat * 1 := by
        rw [Mem.length_read, Nat.mul_one]
        exact readLength_le ..
      rw [hrecv.2, ← hbuf, Mem.read_copy_eq_iff hroom, hapart.read_eq h.other hroom, Mem.length_read]
      exact ⟨fun heq _ => heq, fun heq => heq hfit⟩
    · next hfit =>
      rw [hrecv.2, hbuf]
      exact iff_of_true rfl fun heq => absurd heq hfit

/-- The first answer, if one comes in, is a response of as many bytes as were
asked for. If the send fails, it is longer, or what would be copied is in the
buffer. -/
def ReadAnswered (data len recordPointer : Ptr) (s : State) (es : List Event) : Prop :=
  let asked := (readLength s.api.heap len recordPointer).toNat
  ∀ m ∈ firstAnswer es,
    if (sendCode es).any (· < 0) then
      m.payload.length ≤ asked → s.api.heap.read data asked = m.message.read 0 asked
    else m.IsResponse ∧ m.payload.length = asked

/-- After an answer that is not too long, the buffer and the length are as
promised exactly when it is a response of as many bytes as were asked for. -/
theorem ReadStarted.copied (h : ReadStarted data len recordPointer s.api api) (hapart : Apart 1 data len s)
    {heap : Mem UInt8}
    (hheap : heap = api.heap.copy data (m.message.read 0 (readLength s.api.heap len recordPointer).toNat)) :
    (m.IsResponse ∧ m.payload.length ≤ (u32 s.api.heap len).toNat * 1 ∧
      heap.read data m.payload.length = m.payload ∧ (u32 heap len).toNat * 1 = m.payload.length ∧
      ∀ i : Nat, (i < data ∨ data + m.payload.length ≤ i) → (i < len ∨ len + 4 ≤ i) → heap i = s.api.heap i) ↔
    m.IsResponse ∧ m.payload.length = (readLength s.api.heap len recordPointer).toNat := by
  have hasked := readLength_le s.api.heap len recordPointer
  have hlength : u32 heap len = readLength s.api.heap len recordPointer := by
    rw [hheap, ← h.length]
    refine u32_congr (Mem.read_copy_disjoint ?_)
    rw [Mem.length_read]
    rw [h.length]
    rw [Apart, Nat.mul_one] at hapart
    omega
  rw [hlength, Nat.mul_one, Nat.mul_one]
  constructor
  · rintro ⟨hresponse, -, -, hn, -⟩
    exact ⟨hresponse, hn.symm⟩
  · rintro ⟨hresponse, hn⟩
    have hcopy : heap = api.heap.copy data m.payload := by
      rw [hheap, ← hn, Incoming.length_payload]
      rfl
    refine ⟨hresponse, hn ▸ hasked, ?_, hn.symm, fun i hi hi' => ?_⟩
    · rw [hcopy, Mem.read_copy]
    · rw [hcopy, Mem.copy_outside hi, h.other i hi']

theorem read_truthful (hdata : data ≠ 0) (hlen : len ≠ 0) (hapart : Apart 1 data len s)
    (h : Returns mktime (.storageRead data len recordPointer) s es s' r) :
    StorageTruthful 1 data len s s' r ↔ ReadAnswered data len recordPointer s es := by
  obtain ⟨w, hw⟩ := storageRead_waits mktime data len recordPointer
  have hwait := hw.wait
  cases hwait
  rcases h.ends hw with ⟨rfl, hrefused⟩ | ⟨api, hstart, hends⟩
  · rcases storageRead_start hrefused with ⟨hrc, hheap⟩ | ⟨hrc, -⟩
    · rw [StorageTruthful, Option.some.inj hrc, if_neg (by decide), hheap]
      exact iff_of_true ⟨by decide, rfl⟩ fun m hm => by cases hm
    · cases hrc
  obtain ⟨hbusy, -⟩ | ⟨-, hstarted⟩ := storageRead_start hstart
  · cases hbusy
  cases hends with
  | @failed err incoming hcode herr hanswer hsent =>
    obtain ⟨hheap, hrc⟩ := storageRead_failed mktime data len recordPointer
      { afterAnswer api (firstAnswer es) with incoming } herr
    rw [hsent] at hheap hrc
    rw [StorageTruthful, ReadAnswered, Option.some.inj hrc, if_neg (show ¬ err = portSuccess from Int.ne_of_lt herr),
      hheap, hcode]
    simp only [herr, true_and, Option.any_some, decide_true, if_true]
    exact hstarted.kept hdata hlen hapart hanswer
  | @answered m err incoming hfirst hm hcode herr hused hwoken =>
    obtain ⟨hapi, hrc⟩ := Prod.mk.inj hwoken
    have hheap : s'.api.heap = (api.recv m.call).1.heap := by
      rw [← hapi]
    have hresult : r.rc = ((api.recv m.call).1.storageResult.toNat : Int) := hrc.symm
    have hrecv := hstarted.recv hm hdata hlen
    rw [StorageTruthful, ReadAnswered, hused, hheap, hfirst, hcode, hresult]
    simp only [Option.mem_some_iff, forall_eq', Option.any_some, decide_eq_false (Int.not_lt.mpr herr),
      Bool.false_eq_true, if_false, List.mem_singleton, exists_eq_left]
    split at hrecv
    · next hfit =>
      rw [hrecv.1, if_pos (by decide)]
      exact hstarted.copied hapart hrecv.2
    · next hfit =>
      rw [hrecv.1, if_neg (by decide)]
      exact iff_of_false (fun htrue => absurd htrue.1 (by decide)) fun htrue => hfit (Nat.le_of_eq htrue.2)
  | @timedOut err incoming hfirst hcode herr hwoken =>
    obtain ⟨hapi, hrc⟩ := Prod.mk.inj hwoken
    have hheap : s'.api.heap = api.heap := by
      rw [← hapi]
      rfl
    rw [StorageTruthful, ReadAnswered, ← hrc, hheap, if_neg (by decide),
      hapart.read_eq hstarted.other (Nat.le_refl _), hfirst]
    exact iff_of_true ⟨by decide, rfl⟩ fun m hm => by cases hm

end

/-! ## Both -/

/-- **When the storage calls are truthful**: a scan only where its send fails, and
a read where it is answered with a response of as many bytes as it asked for, or
with nothing. -/
theorem storage_truthful_iff {buf len recordPointer : Ptr} (hbuf : buf ≠ 0) (hlen : len ≠ 0) :
    (Apart sizeofStorageRecord.toNat buf len s → (∀ err ∈ sendCode es, ScanSends err) →
      Returns mktime (.storageScan buf len) s es s' r →
        (StorageTruthful sizeofStorageRecord.toNat buf len s s' r ↔ ScanFails buf len s es)) ∧
    (Apart 1 buf len s → Returns mktime (.storageRead buf len recordPointer) s es s' r →
      (StorageTruthful 1 buf len s s' r ↔ ReadAnswered buf len recordPointer s es)) :=
  ⟨fun hapart hsends h => scan_truthful hbuf hlen hapart h hsends, fun hapart h => read_truthful hbuf hlen hapart h⟩

/-- A buffer length of 3 at 32, and a record of three bytes at 64. -/
def sampleStorage : State :=
  { quietState with api := { quietApi with heap := fun i => if i = 32 ∨ i = 104 then 3 else 0 } }

/-- A storage call whose send returns this code is answered with these bytes. -/
def storageEvents (code : Int) (messageType : UInt8) (payload : Bytes) : List Event :=
  [.request, .sent code, .recv (answer responseFrame moduleAddressStorage storageApiType messageType payload 2)]

theorem storage_truthful_iff_sample :
    (∃ s' r, Returns sampleMktime (.storageScan 200 32) sampleStorage [.sent portFail] s' r ∧
      StorageTruthful sizeofStorageRecord.toNat 200 32 sampleStorage s' r) ∧
    ∃ s' r, Returns sampleMktime (.storageRead 16 32 64) sampleStorage
      (storageEvents 45 storageReadMessage [1, 2, 3] ++ [.wake]) s' r ∧
        StorageTruthful 1 16 32 sampleStorage s' r := by
  have hscan : (execCall sampleMktime (.storageScan 200 32) sampleStorage [] (.sent portFail)).isSome := by
    decide +kernel
  have hread : (execCall sampleMktime (.storageRead 16 32 64) sampleStorage
      (storageEvents 45 storageReadMessage [1, 2, 3]) .wake).isSome := by decide +kernel
  have hsends : ∀ err ∈ sendCode [.sent portFail], ScanSends err := by
    rintro _ ⟨⟩
    exact ⟨sampleLibrary, (0, zeroIv), fun _ _ _ => portFail, ⟨1, 0⟩, fun _ => none, fun _ => 0,
      sampleLibrary_ctrLength, by decide +kernel⟩
  obtain ⟨⟨s₁, r₁⟩, hcall₁⟩ := Option.isSome_iff_exists.mp hscan
  obtain ⟨⟨s₂, r₂⟩, hcall₂⟩ := Option.isSome_iff_exists.mp hread
  have hreturns₁ := Returns.of_exec hcall₁
  have hreturns₂ := Returns.of_exec hcall₂
  refine ⟨⟨s₁, r₁, hreturns₁, ?_⟩, ⟨s₂, r₂, hreturns₂, ?_⟩⟩
  · have hiff := @storage_truthful_iff sampleMktime sampleStorage s₁ [.sent portFail] r₁ 200 32 64 (by decide)
      (by decide)
    refine (hiff.1 ?_ hsends hreturns₁).mpr ?_
    · exact .inr (by decide)
    · exact ⟨by rintro _ ⟨⟩; decide, fun m hm => by cases hm⟩
  · refine ((storage_truthful_iff (by decide) (by decide)).2 ?_ hreturns₂).mpr ?_
    · exact .inl (by decide +kernel)
    · unfold ReadAnswered
      decide +kernel

/-- A scan returns the code of its send, though it is answered with a record. A
read that is answered with two bytes of three is a success, of three bytes. -/
theorem storage_untruthful :
    (∃ s' r, Returns sampleMktime (.storageScan 200 32) sampleStorage
      (storageEvents 39 storageScanMessage (List.replicate 44 1) ++ [.wake]) s' r ∧ r.rc = 39 ∧
      ¬ StorageTruthful sizeofStorageRecord.toNat 200 32 sampleStorage s' r) ∧
    ∃ s' r, Returns sampleMktime (.storageRead 16 32 64) sampleStorage
      (storageEvents 45 storageReadMessage [1, 2] ++ [.wake]) s' r ∧ r.rc = portSuccess ∧
      ¬ StorageTruthful 1 16 32 sampleStorage s' r := by
  have hscan : (execCall sampleMktime (.storageScan 200 32) sampleStorage
      (storageEvents 39 storageScanMessage (List.replicate 44 1)) .wake).any (fun p => p.2.rc = 39) = true := by
    decide +kernel
  have hread : (execCall sampleMktime (.storageRead 16 32 64) sampleStorage
      (storageEvents 45 storageReadMessage [1, 2]) .wake).any (fun p => p.2.rc = portSuccess ∧
        p.2.used.map (·.payload.length) = [2] ∧ (u32 p.1.api.heap 32).toNat = 3) = true := by decide +kernel
  obtain ⟨⟨s₁, r₁⟩, hcall₁, hp₁⟩ := (Option.any_eq_true _ _).mp hscan
  obtain ⟨⟨s₂, r₂⟩, hcall₂, hp₂⟩ := (Option.any_eq_true _ _).mp hread
  have hrc₁ : r₁.rc = 39 := of_decide_eq_true hp₁
  obtain ⟨hrc₂, hused, hcount⟩ := of_decide_eq_true hp₂
  refine ⟨⟨s₁, r₁, Returns.of_exec hcall₁, hrc₁, fun htrue => ?_⟩,
    ⟨s₂, r₂, Returns.of_exec hcall₂, hrc₂, fun htrue => ?_⟩⟩
  · rw [StorageTruthful, hrc₁, if_neg (by decide)] at htrue
    exact absurd htrue.1 (by decide)
  · rw [StorageTruthful, hrc₂, if_pos rfl] at htrue
    obtain ⟨m, hm, -, -, -, hlen, -⟩ := htrue
    have hmem := List.mem_map_of_mem (f := (·.payload.length)) hm
    rw [hused, List.mem_singleton, ← hlen, Nat.mul_one, hcount] at hmem
    cases hmem

end Signpost.Calls
