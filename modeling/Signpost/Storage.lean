/-
The calls of the storage API that are refused.

The four calls share five variables, and set theirs before they look whether
another call is outstanding. A handler that runs while one is may make another.

The refused call is any of the four, in every state of the variables. It leaves
the slot alone; whether it leaves what the answer to the outstanding one will be
written to depends on its arguments being those that the variables hold.
-/
import Signpost.Calls

namespace Signpost

open Lib

/-- `callback_record` to `storage_result`. -/
structure StorageVars where
  callbackRecord : Ptr
  callbackData : Ptr
  callbackLength : Ptr
  storageReady : Bool
  storageResult : Bool
  deriving DecidableEq

def Api.storageVars (s : Api) : StorageVars :=
  ⟨s.callbackRecord, s.callbackData, s.callbackLength, s.flag .storageReady, s.storageResult⟩

namespace Api.Call

def Storage : Api.Call → Prop
  | .storageScan .. | .storageWrite _ | .storageRead .. | .storageDelete _ => True
  | _ => False

/-- What it makes of the variables it shares with the others. -/
def overwrite (v : StorageVars) : Api.Call → StorageVars
  | .storageScan recordList listLen =>
    ⟨recordList, v.callbackData, listLen, false, false⟩
  | .storageWrite recordPointer | .storageDelete recordPointer =>
    ⟨recordPointer, v.callbackData, v.callbackLength, false, false⟩
  | .storageRead data len recordPointer => ⟨recordPointer, data, len, false, false⟩
  | _ => v

/-- It is given the pointers that are held, and what is waited for is outstanding. -/
def Repeats (v : StorageVars) : Api.Call → Prop
  | .storageScan recordList listLen =>
    v.storageReady = false ∧ v.storageResult = false ∧ v.callbackRecord = recordList ∧
    v.callbackLength = listLen
  | .storageWrite recordPointer | .storageDelete recordPointer =>
    v.storageReady = false ∧ v.storageResult = false ∧ v.callbackRecord = recordPointer
  | .storageRead data len recordPointer =>
    v.storageReady = false ∧ v.storageResult = false ∧ v.callbackRecord = recordPointer ∧
    v.callbackData = data ∧
      v.callbackLength = len
  | _ => True

variable {mktime : Tm → Bytes} {c : Api.Call} {s : Api}

theorem overwrite_eq_iff {v : StorageVars} : c.overwrite v = v ↔ c.Repeats v := by
  obtain ⟨record, data, length, ready, result⟩ := v
  cases c with
  | storageScan => simp only [overwrite, Repeats, StorageVars.mk.injEq]; grind
  | storageWrite => simp only [overwrite, Repeats, StorageVars.mk.injEq]; grind
  | storageDelete => simp only [overwrite, Repeats, StorageVars.mk.injEq]; grind
  | storageRead => simp only [overwrite, Repeats, StorageVars.mk.injEq]; grind
  | _ => simp [overwrite, Repeats]

theorem busy_start (hc : c.Storage) (hbusy : ((c.code mktime).start s).2 = some portEbusy) :
    ((c.code mktime).start s).1 = { s with
      callbackRecord := (c.overwrite s.storageVars).callbackRecord
      callbackData := (c.overwrite s.storageVars).callbackData
      callbackLength := (c.overwrite s.storageVars).callbackLength
      storageResult := (c.overwrite s.storageVars).storageResult
      flag := fun f => if f = .storageReady then (c.overwrite s.storageVars).storageReady else s.flag f } := by
  cases c with
  | storageScan | storageWrite | storageRead | storageDelete =>
    grind [code, signpostStorageScan, signpostStorageWrite, signpostStorageRead,
      signpostStorageDelete, Api.set, overwrite, Api.storageVars, portSuccess]
  | _ => cases hc

theorem storageVars_busy (hc : c.Storage) (hbusy : ((c.code mktime).start s).2 = some portEbusy) :
    ((c.code mktime).start s).1.storageVars = c.overwrite s.storageVars := by
  rw [busy_start hc hbusy]
  simp [Api.storageVars]

theorem busy_start_repeats (hc : c.Storage) (hbusy : ((c.code mktime).start s).2 = some portEbusy)
    (h : c.Repeats s.storageVars) : ((c.code mktime).start s).1 = s := by
  rw [busy_start hc hbusy, overwrite_eq_iff.mpr h]
  have hflag : (fun f => if f = .storageReady then s.storageVars.storageReady else s.flag f) = s.flag := by
    funext f
    split
    · next hf => rw [hf]; rfl
    · rfl
  rw [hflag]
  rfl

end Api.Call

/-- **When a refused storage call changes nothing.** In every state, with any
calls outstanding: a call of the storage API that is refused as busy leaves the
variables of the API as they were exactly if it is given the very pointers they
hold while a response is waited for. Then nothing at all has changed, so that
the response goes where it would have, and the outstanding call returns what it
would have. -/
theorem storage_refused_iff {mktime : Tm → Bytes} {s s' : Calls.State} {c : Api.Call}
    {rs : List Calls.Returned} (hc : c.Storage) (hstep : s.step mktime (.begin c) = some (s', rs))
    (hbusy : rs.map Calls.Returned.rc = [portEbusy]) :
    (s'.api.storageVars = s.api.storageVars ↔ c.Repeats s.api.storageVars) ∧
      (c.Repeats s.api.storageVars → s'.api = s.api ∧ s'.stack = s.stack) := by
  obtain ⟨s₁, hstepped, rfl⟩ := Calls.step_stepped hstep
  cases hstepped with
  | started => cases hbusy
  | refused hrc =>
    cases hbusy
    simp only [Calls.State.put]
    refine ⟨?_, fun h => ⟨Api.Call.busy_start_repeats hc hrc h, trivial⟩⟩
    rw [Api.Call.storageVars_busy hc hrc, Api.Call.overwrite_eq_iff]

/-! ## A scan, and a call in a handler -/

/-- Two lists have room for one record: their lengths are at 200 and 400. -/
def scanState : Calls.State :=
  { Calls.quietState with api := { Calls.quietApi with heap := fun i => if i = 200 ∨ i = 400 then 1 else 0 } }

/-- A scan waits, and a handler begins. -/
def scanEvents : List Calls.Event := [.begin (.storageScan 100 200), .request, .sent 0, .task]

/-- The handler scans with the same pointers. -/
theorem storage_refused_iff_scan : ∃ (s s' : Calls.State) (rs : List Calls.Returned),
    s.step Calls.sampleMktime (.begin (.storageScan 100 200)) = some (s', rs) ∧
      rs.map Calls.Returned.rc = [portEbusy] ∧ s'.api.storageVars = s.api.storageVars := by
  have hrun : (Run.exec (Calls.State.step Calls.sampleMktime) scanState scanEvents).any (fun r =>
      (r.1.step Calls.sampleMktime (.begin (.storageScan 100 200))).any fun r' =>
        r'.2.map Calls.Returned.rc = [portEbusy] ∧ r.1.api.storageVars = ⟨100, 0, 200, false, false⟩) = true := by
    decide +kernel
  obtain ⟨⟨s, os⟩, hexec, hbegin⟩ := (Option.any_eq_true _ _).mp hrun
  obtain ⟨⟨s', rs⟩, hstep, hs⟩ := (Option.any_eq_true _ _).mp hbegin
  obtain ⟨hbusy, hvars⟩ := of_decide_eq_true hs
  refine ⟨s, s', rs, hstep, hbusy, (storage_refused_iff (c := .storageScan 100 200) trivial hstep hbusy).1.mpr ?_⟩
  rw [hvars]
  exact ⟨rfl, rfl, rfl, rfl⟩

/-- The handler reads; then the scan's response comes, one record of sevens. -/
def readEvents : List Calls.Event :=
  scanEvents ++ [.begin (.storageRead 300 400 500),
    .recv (Calls.answer responseFrame moduleAddressStorage storageApiType storageScanMessage (List.replicate 44 7) 4),
    .ret, .wake]

/-- The read is refused, and the scan returns success with its list as it was:
its record is where the read's record was to be. -/
theorem read_takes_scan : ∃ s os,
    Run (fun s e s' rs => s.step Calls.sampleMktime e = some (s', rs)) scanState readEvents s os ∧
    os.map Calls.Returned.rc = [portEbusy, portSuccess] ∧ s.api.heap.read 100 44 = List.replicate 44 0 ∧
      s.api.heap.read 500 44 = List.replicate 44 7 := by
  have hrun : (Run.exec (Calls.State.step Calls.sampleMktime) scanState readEvents).any (fun r =>
      r.2.map Calls.Returned.rc = [portEbusy, portSuccess] ∧ r.1.api.heap.read 100 44 = List.replicate 44 0 ∧
        r.1.api.heap.read 500 44 = List.replicate 44 7) = true := by decide +kernel
  obtain ⟨⟨s, os⟩, hexec, hs⟩ := (Option.any_eq_true _ _).mp hrun
  exact ⟨s, os, Run.of_exec hexec, of_decide_eq_true hs⟩

end Signpost
