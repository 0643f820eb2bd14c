/-
The calls of `signpost_api.c` that send a request and wait for its response,
and the callback that takes what is received.

A call yields while its request is sent and while it waits, and other code runs
then: an `ApiCall` is the parts of its function between these points. The
requests' payloads are left out. `signpost_processing_twoway_receive`, which
requests nothing, is not among the calls.
-/
import Signpost.App
import Signpost.Modules

namespace Signpost

open Lib

/-! ## Types and constants -/

def notificationFrame : UInt8 := 0
def commandFrame : UInt8 := 1
def responseFrame : UInt8 := 2
def errorFrame : UInt8 := 3

def initializationApiType : UInt8 := 1
def storageApiType : UInt8 := 2
def networkingApiType : UInt8 := 3
def processingApiType : UInt8 := 4
def energyApiType : UInt8 := 5
def timeLocationApiType : UInt8 := 6
def watchdogApiType : UInt8 := 9

def initializationGetState : UInt8 := 4
def storageWriteMessage : UInt8 := 0
def storageReadMessage : UInt8 := 1
def storageDeleteMessage : UInt8 := 2
def storageScanMessage : UInt8 := 3
def networkingPublishMessage : UInt8 := 0
def processingInitMessage : UInt8 := 0
def processingOneWayMessage : UInt8 := 1
def processingTwoWayMessage : UInt8 := 2
def energyQueryMessage : UInt8 := 0
def energyResetMessage : UInt8 := 1
def energyReportModuleConsumptionMessage : UInt8 := 2
def timeLocationGetTimeMessage : UInt8 := 0
def timeLocationGetLocationMessage : UInt8 := 1
def watchdogStartMessage : UInt8 := 0
def watchdogTickleMessage : UInt8 := 1

def moduleAddressController : UInt8 := 0x20
def moduleAddressStorage : UInt8 := 0x21
def moduleAddressRadio : UInt8 := 0x22

def processingSuccess : Int := 0

/-- `sizeof(Storage_Record_t)`: a name of 33 bytes, and two `size_t`. -/
def sizeofStorageRecord : UInt32 := 44

/-- `sizeof(signpost_energy_information_t)`. -/
def sizeofEnergyInformation : Nat := 14

/-- `sizeof(signpost_timelocation_time_t)`. -/
def sizeofTime : UInt32 := 8

/-- `sizeof(signpost_timelocation_location_t)`. -/
def sizeofLocation : UInt32 := 9

/-- An address in the caller's memory; `NULL` is 0. -/
abbrev Ptr := Nat

/-- `struct tm`, as far as it is set. -/
structure Tm where
  year : Int
  mon : Int
  mday : Int
  hour : Int
  min : Int
  sec : Int

/-! ## The module's variables -/

/-- The functions `incoming_active_callback` points to. -/
inductive Callback
  | initializationGetState
  | storageScan
  | storageWrite
  | storageRead
  | networking
  | energyQueryAsync
  | energyReport
  | energyReset
  | timelocation
  | processing
  | watchdog
  /-- A function of other code. -/
  | other
  deriving DecidableEq

/-- The variables the calls wait on. -/
inductive Flag
  | getStateComplete
  | storageReady
  | networkingReady
  | energyQueryReady
  | energyReportReceived
  | energyResetReceived
  | timelocationQueryAnswered
  | processingReady
  | watchdogReply
  deriving DecidableEq

/-- What `energy_cb` points to. -/
inductive EnergyCb
  /-- `energy_query_sync_callback`. -/
  | sync
  | user
  deriving DecidableEq

structure Api where
  /-- The memory callers pass pointers to. -/
  heap : Mem UInt8
  /-- `incoming_frame_type` to `incoming_message`. -/
  incoming : Parsed
  incomingActiveCallback : Option Callback
  /-- The API types of `module_api.api_handlers`. -/
  apiHandlers : List UInt8
  moduleInfo : ModuleState
  flag : Flag → Bool
  storageResult : Bool
  callbackRecord : Ptr
  callbackData : Ptr
  callbackLength : Ptr
  networkingResult : Bool
  energyQueryResult : Int
  energyCb : Option EnergyCb
  energyCbData : Ptr
  energyReportResult : Int
  energyResetResult : Int
  timelocationQueryResult : Int

namespace Api

def set (s : Api) (f : Flag) (b : Bool) : Api := { s with flag := fun g => if g = f then b else s.flag g }

@[simp] theorem set_flag (s : Api) (f g : Flag) (b : Bool) : (s.set f b).flag g = if g = f then b
    else s.flag g := rfl

@[simp] theorem set_incomingActiveCallback (s : Api) (f : Flag) (b : Bool) :
    (s.set f b).incomingActiveCallback = s.incomingActiveCallback := rfl

@[simp] theorem set_energyCb (s : Api) (f : Flag) (b : Bool) : (s.set f b).energyCb = s.energyCb := rfl

end Api

/-! ## Callbacks -/

def signpostInitializationGetStateCallback (_lenOrRc : Int) (s : Api) : Api := s.set .getStateComplete true

def signpostStorageScanCallback (lenOrRc : Int) (s : Api) : Api :=
  let s :=
    if lenOrRc < portSuccess then { s with storageResult := lenOrRc ≠ 0 }
    else if UInt32.ofInt lenOrRc > u32 s.heap s.callbackLength * sizeofStorageRecord then
      { s with storageResult := portFail ≠ 0 }
    else
      { s with
        heap :=
          if s.callbackRecord ≠ 0 ∧ s.callbackLength ≠ 0 then
            (s.heap.copy s.callbackLength (le32 (UInt32.ofInt lenOrRc / sizeofStorageRecord))).copy s.callbackRecord
              (s.incoming.message.read 0 lenOrRc.toNat)
          else s.heap
        callbackRecord := 0
        callbackLength := 0
        storageResult := portSuccess ≠ 0 }
  s.set .storageReady true

def signpostStorageWriteCallback (lenOrRc : Int) (s : Api) : Api :=
  let s :=
    if lenOrRc < portSuccess then { s with storageResult := lenOrRc ≠ 0 }
    else if lenOrRc ≠ sizeofStorageRecord.toNat then { s with storageResult := portFail ≠ 0 }
    else
      { s with
        heap :=
          if s.callbackRecord ≠ 0 then s.heap.copy s.callbackRecord (s.incoming.message.read 0 lenOrRc.toNat)
          else s.heap
        callbackRecord := 0
        storageResult := portSuccess ≠ 0 }
  s.set .storageReady true

def signpostStorageReadCallback (lenOrRc : Int) (s : Api) : Api :=
  let s :=
    if lenOrRc < portSuccess then { s with storageResult := lenOrRc ≠ 0 }
    else if s.callbackLength = 0 then { s with storageResult := portEinval ≠ 0 }
    else if UInt32.ofInt lenOrRc > u32 s.heap s.callbackLength then { s with storageResult := portFail ≠ 0 }
    else
      { s with
        heap :=
          if s.callbackData ≠ 0 then
            s.heap.copy s.callbackData (s.incoming.message.read 0 (u32 s.heap s.callbackLength).toNat)
          else s.heap
        callbackData := 0
        callbackLength := 0
        storageResult := portSuccess ≠ 0 }
  s.set .storageReady true

def signpostNetworkingCallback (result : Int) (s : Api) : Api :=
  { s.set .networkingReady true with networkingResult := result ≠ 0 }

def energyQuerySyncCallback (result : Int) (s : Api) : Api :=
  { s.set .energyQueryReady true with energyQueryResult := result }

def signpostEnergyReportCallback (result : Int) (s : Api) : Api :=
  { s with energyReportResult := result }.set .energyReportReceived true

def signpostEnergyResetCallback (result : Int) (s : Api) : Api :=
  { s with energyResetResult := result }.set .energyResetReceived true

def timelocationCallback (result : Int) (s : Api) : Api :=
  { s.set .timelocationQueryAnswered true with timelocationQueryResult := result }

def signpostProcessingCallback (_result : Int) (s : Api) : Api := s.set .processingReady true

def signpostWatchdogCb (_result : Int) (s : Api) : Api := s.set .watchdogReply true

/-- The code of the application that a received message makes run. -/
inductive Called
  /-- The callback of the handler at this place of the table. -/
  | handler (i : Nat)
  /-- The callback given to `signpost_energy_query_async`. -/
  | energyCb
  deriving DecidableEq

def energyQueryAsyncCallback (lenOrRc : Int) (s : Api) : Api × Option Called :=
  let s :=
    if lenOrRc ≠ sizeofEnergyInformation then s
    else
      { s with
        heap :=
          if s.energyCbData ≠ 0 then s.heap.copy s.energyCbData (s.incoming.message.read 0 lenOrRc.toNat)
          else s.heap
        energyCbData := 0 }
  match s.energyCb with
  | none => (s, none)
  | some .sync => (energyQuerySyncCallback lenOrRc { s with energyCb := none }, none)
  | some .user => ({ s with energyCb := none }, some .energyCb)

def Callback.run (cb : Callback) (lenOrRc : Int) (s : Api) : Api × Option Called :=
  match cb with
  | .initializationGetState => (signpostInitializationGetStateCallback lenOrRc s, none)
  | .storageScan => (signpostStorageScanCallback lenOrRc s, none)
  | .storageWrite => (signpostStorageWriteCallback lenOrRc s, none)
  | .storageRead => (signpostStorageReadCallback lenOrRc s, none)
  | .networking => (signpostNetworkingCallback lenOrRc s, none)
  | .energyQueryAsync => energyQueryAsyncCallback lenOrRc s
  | .energyReport => (signpostEnergyReportCallback lenOrRc s, none)
  | .energyReset => (signpostEnergyResetCallback lenOrRc s, none)
  | .timelocation => (timelocationCallback lenOrRc s, none)
  | .processing => (signpostProcessingCallback lenOrRc s, none)
  | .watchdog => (signpostWatchdogCb lenOrRc s, none)
  | .other => (s, none)

/-- `signpost_api_recv_callback`, up to the application's code it calls. -/
def signpostApiRecvCallback (lenOrRc : Int) (s : Api) : Api × Option Called :=
  if lenOrRc < 0 then (s, none)
  else if s.incoming.frameType = notificationFrame ∨ s.incoming.frameType = commandFrame then
    (s, (s.apiHandlers.findIdx? fun api => api = s.incoming.apiType).map .handler)
  else if s.incoming.frameType = responseFrame ∨ s.incoming.frameType = errorFrame then
    match s.incomingActiveCallback with
    | some cb => cb.run lenOrRc { s with incomingActiveCallback := none }
    | none => (s, none)
  else (s, none)

/-- What the layers below make of a message: they parse it, if it has passed,
and call back. -/
def Api.recv (s : Api) (call : AppCall) : Api × Option Called :=
  signpostApiRecvCallback call.lenOrRc { s with incoming := call.frame.getD s.incoming }

/-- The variable a callback sets, with what `energy_cb` points to. -/
def Callback.raises (cb : Callback) (energyCb : Option EnergyCb) : Option Flag :=
  match cb with
  | .initializationGetState => some .getStateComplete
  | .storageScan | .storageWrite | .storageRead => some .storageReady
  | .networking => some .networkingReady
  | .energyQueryAsync => if energyCb = some .sync then some .energyQueryReady else none
  | .energyReport => some .energyReportReceived
  | .energyReset => some .energyResetReceived
  | .timelocation => some .timelocationQueryAnswered
  | .processing => some .processingReady
  | .watchdog => some .watchdogReply
  | .other => none

section
variable (cb : Callback) (lenOrRc : Int) (s : Api)

/-- What the callbacks leave alone, all but `storage_ready` and what goes with it. -/
theorem signpostStorageScanCallback_slots : (signpostStorageScanCallback lenOrRc s).flag =
    (s.set .storageReady true).flag ∧
    (signpostStorageScanCallback lenOrRc s).incomingActiveCallback = s.incomingActiveCallback ∧
    (signpostStorageScanCallback lenOrRc s).energyCb = s.energyCb := by
  simp only [signpostStorageScanCallback]
  split
  · exact ⟨rfl, rfl, rfl⟩
  · split <;> exact ⟨rfl, rfl, rfl⟩

theorem signpostStorageWriteCallback_slots :
    (signpostStorageWriteCallback lenOrRc s).flag = (s.set .storageReady true).flag ∧
      (signpostStorageWriteCallback lenOrRc s).incomingActiveCallback = s.incomingActiveCallback ∧
      (signpostStorageWriteCallback lenOrRc s).energyCb = s.energyCb := by
  simp only [signpostStorageWriteCallback]
  split
  · exact ⟨rfl, rfl, rfl⟩
  · split <;> exact ⟨rfl, rfl, rfl⟩

theorem signpostStorageReadCallback_slots :
    (signpostStorageReadCallback lenOrRc s).flag = (s.set .storageReady true).flag ∧
      (signpostStorageReadCallback lenOrRc s).incomingActiveCallback = s.incomingActiveCallback ∧
      (signpostStorageReadCallback lenOrRc s).energyCb = s.energyCb := by
  simp only [signpostStorageReadCallback]
  split
  · exact ⟨rfl, rfl, rfl⟩
  · split
    · exact ⟨rfl, rfl, rfl⟩
    · split <;> exact ⟨rfl, rfl, rfl⟩

theorem Callback.run_flag (f : Flag) :
    (cb.run lenOrRc s).1.flag f = if cb.raises s.energyCb = some f then true else s.flag f := by
  cases cb with
  | storageScan => simp [run, raises, signpostStorageScanCallback_slots, eq_comm]
  | storageWrite => simp [run, raises, signpostStorageWriteCallback_slots, eq_comm]
  | storageRead => simp [run, raises, signpostStorageReadCallback_slots, eq_comm]
  | energyQueryAsync =>
    grind [run, raises, energyQueryAsyncCallback, energyQuerySyncCallback, Api.set]
  | initializationGetState | networking | energyReport | energyReset | timelocation | processing | watchdog | other =>
    grind [run, raises, signpostInitializationGetStateCallback, signpostNetworkingCallback,
      signpostEnergyReportCallback, signpostEnergyResetCallback, timelocationCallback, signpostProcessingCallback,
      signpostWatchdogCb, Api.set]

theorem Callback.run_slots : (cb.run lenOrRc s).1.incomingActiveCallback = s.incomingActiveCallback ∧
    (cb.run lenOrRc s).1.energyCb = if cb = .energyQueryAsync then none else s.energyCb := by
  cases cb with
  | storageScan => exact (signpostStorageScanCallback_slots lenOrRc s).2
  | storageWrite => exact (signpostStorageWriteCallback_slots lenOrRc s).2
  | storageRead => exact (signpostStorageReadCallback_slots lenOrRc s).2
  | energyQueryAsync => grind [run, energyQueryAsyncCallback, energyQuerySyncCallback, Api.set]
  | initializationGetState | networking | energyReport | energyReset | timelocation | processing | watchdog | other =>
    exact ⟨rfl, rfl⟩

variable {cb lenOrRc s}

theorem Callback.run_called (h : (cb.run lenOrRc s).2 = some .energyCb) :
    (cb.run lenOrRc s).1.energyCb = none := by
  rw [(run_slots cb lenOrRc s).2]
  cases cb with
  | energyQueryAsync => rfl
  | initializationGetState | storageScan | storageWrite | storageRead | networking | energyReport | energyReset
  | timelocation | processing | watchdog | other => cases h

end

/-- The callback that takes a message, if one does. -/
def Api.taker (s : Api) (call : AppCall) : Option Callback :=
  let frameType := (call.frame.getD s.incoming).frameType
  if 0 ≤ call.lenOrRc ∧ (frameType = responseFrame ∨ frameType = errorFrame)
    then s.incomingActiveCallback else none

section
variable {s : Api} {call : AppCall} {cb : Callback}

theorem Api.recv_taker (h : s.taker call = some cb) : s.recv call = cb.run call.lenOrRc { s with
    incoming := call.frame.getD s.incoming, incomingActiveCallback := none } := by
  have hframes : ∀ x, x = responseFrame ∨ x = errorFrame →
    ¬ (x = notificationFrame ∨ x = commandFrame) := by
    rintro _ (rfl | rfl) <;> decide
  grind [Api.recv, signpostApiRecvCallback, Api.taker]

theorem Api.recv_dropped (h : s.taker call = none) :
    (s.recv call).1 = { s with incoming := call.frame.getD s.incoming } ∧
    (s.recv call).2 ≠ some .energyCb := by
  unfold Api.recv signpostApiRecvCallback
  unfold Api.taker at h
  split
  · simp
  · split
    · simp
    · grind

theorem Api.recv_called (h : (s.recv call).2 = some .energyCb) : (s.recv call).1.energyCb = none := by
  cases htaker : s.taker call with
  | none => exact absurd h (Api.recv_dropped htaker).2
  | some cb =>
    rw [Api.recv_taker htaker] at h ⊢
    exact Callback.run_called h

end

/-! ## Calls -/

/-- Where a command goes, and what it is. -/
structure Request where
  dest : UInt8
  apiType : UInt8
  messageType : UInt8
  deriving DecidableEq

/-- `port_signpost_wait_for`, or `port_signpost_wait_for_with_timeout`. -/
structure Wait where
  flag : Flag
  ms : Option Nat
  /-- From there to the return: with the code of the send, and the one of the wait. -/
  woken : Int → Int → Api → Api × Int

structure ApiCall where
  request : Request
  /-- Up to `signpost_api_send`, or to a return before it with a code. -/
  start : Api → Api × Option Int
  /-- From its code to the wait, or to a return before it. -/
  sent : Int → Api → Api × Option Int
  wait : Option Wait

def signpostStorageScan (recordList listLen : Ptr) : ApiCall where
  request := ⟨moduleAddressStorage, storageApiType, storageScanMessage⟩
  start s :=
    let s := { s.set .storageReady false with
      storageResult := portSuccess ≠ 0, callbackRecord := recordList, callbackLength := listLen }
    if s.incomingActiveCallback ≠ none then (s, some portEbusy)
    else ({ s with incomingActiveCallback := some .storageScan }, none)
  sent err s :=
    if err < portSuccess then ({ s.set .storageReady true with incomingActiveCallback := none }, some err)
    else (s, none)
  wait := some {
    flag := .storageReady
    ms := some 5000
    -- The wait's code is not looked at: `err` is still the send's.
    woken := fun err _ s =>
      if err ≠ 0 then ({ s.set .storageReady true with incomingActiveCallback := none }, err)
      else (s, s.storageResult.toNat) }

def signpostStorageWrite (recordPointer : Ptr) : ApiCall where
  request := ⟨moduleAddressStorage, storageApiType, storageWriteMessage⟩
  start s :=
    let s := { s.set .storageReady false with storageResult := portSuccess ≠ 0, callbackRecord := recordPointer }
    if s.incomingActiveCallback ≠ none then (s, some portEbusy)
    else ({ s with incomingActiveCallback := some .storageWrite }, none)
  sent err s :=
    if err < portSuccess then ({ s.set .storageReady true with incomingActiveCallback := none }, some err)
    else (s, some s.storageResult.toNat)
  wait := none

def signpostStorageRead (data len recordPointer : Ptr) : ApiCall where
  request := ⟨moduleAddressStorage, storageApiType, storageReadMessage⟩
  start s :=
    let s := { s.set .storageReady false with
      storageResult := portSuccess ≠ 0, callbackRecord := recordPointer, callbackData := data, callbackLength := len }
    if s.incomingActiveCallback ≠ none then (s, some portEbusy)
    else
      let left := u32 s.heap (recordPointer + 40) - u32 s.heap (recordPointer + 36)
      ({ s with
        incomingActiveCallback := some .storageRead
        heap := if u32 s.heap len > left then s.heap.copy len (le32 left) else s.heap }, none)
  sent err s :=
    if err < portSuccess then ({ s.set .storageReady true with incomingActiveCallback := none }, some err)
    else (s, none)
  wait := some {
    flag := .storageReady
    ms := some 5000
    woken := fun _ err s =>
      if err ≠ 0 then ({ s.set .storageReady true with incomingActiveCallback := none }, err)
      else (s, s.storageResult.toNat) }

def signpostStorageDelete (recordPointer : Ptr) : ApiCall where
  request := ⟨moduleAddressStorage, storageApiType, storageDeleteMessage⟩
  start s :=
    let s := { s.set .storageReady false with storageResult := portSuccess ≠ 0, callbackRecord := recordPointer }
    if s.incomingActiveCallback ≠ none then (s, some portEbusy)
    else ({ s with incomingActiveCallback := some .storageWrite }, none)
  sent err s :=
    if err < portSuccess then ({ s.set .storageReady true with incomingActiveCallback := none }, some err)
    else (s, some s.storageResult.toNat)
  wait := none

/-- `malloc` is whether there is memory for the message. -/
def signpostNetworkingPublish (malloc : Bool) : ApiCall where
  request := ⟨moduleAddressRadio, networkingApiType, networkingPublishMessage⟩
  start s :=
    if !malloc then (s, some portEnomem)
    else ({ s with incomingActiveCallback := some .networking }.set .networkingReady false, none)
  sent rc s := if rc < portSuccess then ({ s with incomingActiveCallback := none }, some rc) else (s, none)
  wait := some {
    flag := .networkingReady
    ms := some 3000
    woken := fun _ rc s =>
      if rc < portSuccess then ({ s with incomingActiveCallback := none }, rc)
      else if s.incoming.messageLength ≥ 4 then (s, toInt (u32 s.incoming.message 0))
      else (s, portFail) }

def signpostEnergyQueryAsync (energy : Ptr) (cb : EnergyCb) : ApiCall where
  request := ⟨moduleAddressController, energyApiType, energyQueryMessage⟩
  start s :=
    if s.incomingActiveCallback ≠ none then (s, some portEbusy)
    else if s.energyCb ≠ none then (s, some portEbusy)
    else
      ({ s with incomingActiveCallback := some .energyQueryAsync, energyCbData := energy, energyCb := some cb }, none)
  sent rc s :=
    if rc < 0 then ({ s with energyCbData := 0, incomingActiveCallback := none, energyCb := none }, some rc)
    else (s, some portSuccess)
  wait := none

def signpostEnergyQuery (energy : Ptr) : ApiCall where
  request := (signpostEnergyQueryAsync energy .sync).request
  start s := (signpostEnergyQueryAsync energy .sync).start (s.set .energyQueryReady false)
  sent rc s :=
    let r := (signpostEnergyQueryAsync energy .sync).sent rc s
    (r.1, r.2.filter fun rc => rc ≠ 0)
  wait := some {
    flag := .energyQueryReady
    ms := some 10000
    woken := fun _ ret s =>
      if ret < 0 then ({ s with incomingActiveCallback := none }, portFail)
      else (s, s.energyQueryResult) }

/-- `malloc` is whether there is memory for the message. -/
def signpostEnergyReport (malloc : Bool) : ApiCall where
  request := ⟨moduleAddressController, energyApiType, energyReportModuleConsumptionMessage⟩
  start s := if !malloc then (s, some portEnomem) else (s, none)
  sent rc s :=
    if rc < 0 then (s, some rc)
    else ({ s with incomingActiveCallback := some .energyReport }.set .energyReportReceived false, none)
  wait := some {
    flag := .energyReportReceived
    ms := some 10000
    woken := fun _ rc s =>
      if rc < 0 then ({ s with incomingActiveCallback := none }, portFail)
      else if s.energyReportResult < 0 then (s, portFail)
      else (s, (s.incoming.message 0).toNat) }

def signpostEnergyReset : ApiCall where
  request := ⟨moduleAddressController, energyApiType, energyResetMessage⟩
  start s := (s, none)
  sent rc s :=
    if rc < 0 then (s, some rc)
    else ({ s with incomingActiveCallback := some .energyReset }.set .energyResetReceived false, none)
  wait := some {
    flag := .energyResetReceived
    ms := some 10000
    woken := fun _ rc s =>
      if rc < 0 then ({ s with incomingActiveCallback := none }, portFail)
      else if s.energyResetResult < 0 then (s, portFail)
      else (s, (s.incoming.message 0).toNat) }

def signpostTimelocationSync (messageType : UInt8) : ApiCall where
  request := ⟨moduleAddressController, timeLocationApiType, messageType⟩
  start s :=
    let s := s.set .timelocationQueryAnswered false
    if s.incomingActiveCallback ≠ none then (s, some portEbusy)
    else ({ s with incomingActiveCallback := some .timelocation }, none)
  sent rc s := if rc < 0 then ({ s with incomingActiveCallback := none }, some rc) else (s, none)
  wait := some {
    flag := .timelocationQueryAnswered
    ms := some 1000
    woken := fun _ rc s =>
      if rc < 0 then ({ s with incomingActiveCallback := none }, rc)
      else if s.incoming.messageType ≠ messageType then (s, portFail)
      else (s, s.timelocationQueryResult) }

/-- What a caller of `signpost_timelocation_sync` does before and after it:
`null` is whether its argument is, and `next` goes on from a code that is no error. -/
def ApiCall.timelocation (sync : ApiCall) (null : Bool) (next : Int → Api → Api × Int) : ApiCall where
  request := sync.request
  start s := if null then (s, some portEinval) else sync.start s
  sent := sync.sent
  wait := sync.wait.map fun w => { w with
    woken := fun err rc s =>
      let r := w.woken err rc s
      if r.2 < 0 then r else next r.2 r.1 }

/-- `mktime` gives the bytes of a `time_t`. -/
def signpostTimelocationGetTime (mktime : Tm → Bytes) (time : Ptr) : ApiCall :=
  (signpostTimelocationSync timeLocationGetTimeMessage).timelocation (time = 0) fun _ s =>
    if s.incoming.messageLength ≠ sizeofTime then (s, portFail)
    else
      let m := s.incoming.message
      let utime := mktime {
        year := (ofLe16 (m 0) (m 1)).toNat - 1900
        mon := (m 2).toNat - 1
        mday := (m 3).toNat
        hour := (m 4).toNat
        min := (m 5).toNat
        sec := (m 6).toNat }
      ({ s with heap := s.heap.copy time utime }, if m 7 < 3 then portEnosat else (m 7).toNat)

def signpostTimelocationGetLocation (location : Ptr) : ApiCall :=
  (signpostTimelocationSync timeLocationGetLocationMessage).timelocation (location = 0) fun rc s =>
    if s.incoming.messageLength ≠ sizeofLocation then (s, portFail)
    else ({ s with heap := s.heap.copy location (s.incoming.message.read 0 sizeofLocation.toNat) }, rc)

def signpostInitializationGetModuleState : ApiCall where
  request := ⟨moduleAddressController, initializationApiType, initializationGetState⟩
  start s := ({ s with incomingActiveCallback := some .initializationGetState }.set .getStateComplete false, none)
  -- The send's code is overwritten by the wait's.
  sent _ s := (s, none)
  wait := some {
    flag := .getStateComplete
    ms := some 2000
    woken := fun _ ret s =>
      if ret < portSuccess then (s, portFail)
      else
        ({ s with moduleInfo := { ModuleState.ofMem s.incoming.message with
            i2cAddress := s.moduleInfo.i2cAddress
            selfName := s.moduleInfo.selfName.strncpy.strncpy } }, portSuccess) }

def signpostProcessingInit : ApiCall where
  request := ⟨moduleAddressStorage, processingApiType, processingInitMessage⟩
  start s := ({ s with incomingActiveCallback := some .processing }.set .processingReady false, none)
  sent rc s := if rc < 0 then (s, some rc) else (s, none)
  wait := some {
    flag := .processingReady
    ms := none
    woken := fun _ _ s =>
      if s.incoming.messageLength ≥ 5 then (s, (s.incoming.message 4).toNat) else (s, 1) }

def signpostProcessingOnewaySend : ApiCall where
  request := ⟨moduleAddressStorage, processingApiType, processingOneWayMessage⟩
  start s := ({ s with incomingActiveCallback := some .processing }, none)
  -- Cleared after the send: an answer that came in while it sent is forgotten.
  sent rc s := if rc < 0 then (s, some rc) else (s.set .processingReady false, none)
  wait := some {
    flag := .processingReady
    ms := none
    woken := fun _ _ s => (s, (s.incoming.message 0).toNat) }

def signpostProcessingTwowaySend : ApiCall where
  request := ⟨moduleAddressStorage, processingApiType, processingTwoWayMessage⟩
  start s := ({ s with incomingActiveCallback := some .processing }, none)
  sent rc s := if rc < 0 then (s, some rc) else (s.set .processingReady false, some processingSuccess)
  wait := none

/-- The two calls of the watchdog API, but for their message. -/
def signpostWatchdog (messageType : UInt8) : ApiCall where
  request := ⟨moduleAddressController, watchdogApiType, messageType⟩
  start s := (s.set .watchdogReply false, none)
  sent rc s := if rc < 0 then (s, some rc) else ({ s with incomingActiveCallback := some .watchdog }, none)
  wait := some {
    flag := .watchdogReply
    ms := none
    woken := fun _ _ s => (s, 1) }

def signpostWatchdogStart : ApiCall := signpostWatchdog watchdogStartMessage

def signpostWatchdogTickle : ApiCall := signpostWatchdog watchdogTickleMessage

/-- The calls, with their arguments. -/
inductive Api.Call
  | storageScan (recordList listLen : Ptr)
  | storageWrite (recordPointer : Ptr)
  | storageRead (data len recordPointer : Ptr)
  | storageDelete (recordPointer : Ptr)
  | networkingPublish (malloc : Bool)
  | energyQuery (energy : Ptr)
  /-- With a callback of the application. -/
  | energyQueryAsync (energy : Ptr)
  | energyReport (malloc : Bool)
  | energyReset
  | timelocationGetTime (time : Ptr)
  | timelocationGetLocation (location : Ptr)
  | initializationGetModuleState
  | processingInit
  | processingOnewaySend
  | processingTwowaySend
  | watchdogStart
  | watchdogTickle

namespace Api.Call

def code (mktime : Tm → Bytes) : Api.Call → ApiCall
  | .storageScan recordList listLen => signpostStorageScan recordList listLen
  | .storageWrite recordPointer => signpostStorageWrite recordPointer
  | .storageRead data len recordPointer => signpostStorageRead data len recordPointer
  | .storageDelete recordPointer => signpostStorageDelete recordPointer
  | .networkingPublish malloc => signpostNetworkingPublish malloc
  | .energyQuery energy => signpostEnergyQuery energy
  | .energyQueryAsync energy => signpostEnergyQueryAsync energy .user
  | .energyReport malloc => signpostEnergyReport malloc
  | .energyReset => signpostEnergyReset
  | .timelocationGetTime time => signpostTimelocationGetTime mktime time
  | .timelocationGetLocation location => signpostTimelocationGetLocation location
  | .initializationGetModuleState => signpostInitializationGetModuleState
  | .processingInit => signpostProcessingInit
  | .processingOnewaySend => signpostProcessingOnewaySend
  | .processingTwowaySend => signpostProcessingTwowaySend
  | .watchdogStart => signpostWatchdogStart
  | .watchdogTickle => signpostWatchdogTickle

end Api.Call

/-! ## What a call does with what it shares -/

/-- How a call uses the variables that all of them share. -/
structure Usage where
  /-- What it sets `incoming_active_callback` to. -/
  callback : Callback
  /-- It sets it after its send, not before. -/
  late : Bool := false
  /-- It clears the variable that says it is answered after its send, not before. -/
  clearsLate : Bool := false
  /-- It leaves `incoming_active_callback` when its send fails. -/
  leaves : Bool := false
  /-- What it sets `energy_cb` to. -/
  energyCb : Option EnergyCb := none
  /-- The variable that says it is answered. -/
  flag : Option Flag
  /-- It leaves `incoming_active_callback` when it times out, after a send with this code. -/
  forgets : Int → Bool := fun _ => false

def Api.Call.usage : Api.Call → Usage
  | .storageScan .. => { callback := .storageScan, flag := some .storageReady, forgets := fun err => err = 0 }
  | .storageWrite _ => { callback := .storageWrite, flag := some .storageReady }
  | .storageRead .. => { callback := .storageRead, flag := some .storageReady }
  | .storageDelete _ => { callback := .storageWrite, flag := some .storageReady }
  | .networkingPublish _ => { callback := .networking, flag := some .networkingReady }
  | .energyQuery _ => { callback := .energyQueryAsync, energyCb := some .sync, flag := some .energyQueryReady }
  | .energyQueryAsync _ => { callback := .energyQueryAsync, energyCb := some .user, flag := none }
  | .energyReport _ =>
    { callback := .energyReport, late := true, clearsLate := true, leaves := true, flag := some .energyReportReceived }
  | .energyReset =>
    { callback := .energyReset, late := true, clearsLate := true, leaves := true, flag := some .energyResetReceived }
  | .timelocationGetTime _ | .timelocationGetLocation _ =>
    { callback := .timelocation, flag := some .timelocationQueryAnswered }
  | .initializationGetModuleState =>
    { callback := .initializationGetState, flag := some .getStateComplete, forgets := fun _ => true }
  | .processingInit => { callback := .processing, leaves := true, flag := some .processingReady }
  | .processingOnewaySend =>
    { callback := .processing, clearsLate := true, leaves := true, flag := some .processingReady }
  -- Its answer is for another call to wait for.
  | .processingTwowaySend => { callback := .processing, leaves := true, flag := none }
  | .watchdogStart | .watchdogTickle =>
    { callback := .watchdog, late := true, leaves := true, flag := some .watchdogReply }

/-- The functions of a call use the shared variables so. -/
structure ApiCall.Uses (a : ApiCall) (u : Usage) : Prop where
  start_flag {s f} : (a.start s).1.flag f = true → s.flag f = true
  /-- A call that returns before its send has set nothing. -/
  start_some {s rc} : (a.start s).2 = some rc → rc < 0 ∧
    (a.start s).1.incomingActiveCallback = s.incomingActiveCallback ∧ (a.start s).1.energyCb = s.energyCb
  start_busy {s} : (a.start s).2 = some portEbusy → s.incomingActiveCallback ≠ none ∨ s.energyCb ≠ none
  start_none {s} : (a.start s).2 = none →
    (a.start s).1.incomingActiveCallback = (if u.late then s.incomingActiveCallback else some u.callback) ∧
      (a.start s).1.energyCb = u.energyCb.or s.energyCb ∧
      (u.clearsLate = false → ∀ f, u.flag = some f → (a.start s).1.flag f = false)
  sent_flag (err s f) : (a.sent err s).1.flag f = true →
    s.flag f = true ∨ err < 0 ∧ f = .storageReady ∧ u.flag = some .storageReady
  /-- After a send that failed, it returns with nothing set. -/
  sent_failed {err s rc} : (a.sent err s).2 = some rc → err < 0 → rc < 0 ∧
    (a.sent err s).1.incomingActiveCallback = (if u.leaves then s.incomingActiveCallback else none) ∧
      (a.sent err s).1.energyCb = if u.energyCb.isSome then none else s.energyCb
  /-- After one that did not, it returns only if it does not wait. -/
  sent_some {err s rc} : (a.sent err s).2 = some rc → 0 ≤ err → a.wait = none ∧
    (a.sent err s).1.incomingActiveCallback = s.incomingActiveCallback ∧
    (a.sent err s).1.energyCb = s.energyCb
  sent_none {err s} : (a.sent err s).2 = none → a.wait.isSome = true ∧
    (a.sent err s).1.incomingActiveCallback = (if u.late then some u.callback else s.incomingActiveCallback) ∧
      (a.sent err s).1.energyCb = s.energyCb ∧ (∀ f, (a.sent err s).1.flag f = true → s.flag f = true) ∧
      (u.clearsLate = true → ∀ f, u.flag = some f → (a.sent err s).1.flag f = false)
  wait_flag {w} : a.wait = some w → u.flag = some w.flag
  woken_flag {w err s f} : a.wait = some w → s.flag w.flag = true →
    (w.woken err portSuccess s).1.flag f = true →
    s.flag f = true
  woken_slots {w} (err s) : a.wait = some w → (w.woken err portSuccess s).1.energyCb = s.energyCb ∧
    ((w.woken err portSuccess s).1.incomingActiveCallback = s.incomingActiveCallback ∨
      (w.woken err portSuccess s).1.incomingActiveCallback = none)
  timeout_flag {w} (err s f) : a.wait = some w → w.ms.isSome = true →
    (w.woken err portFail s).1.flag f = true → s.flag f = true ∨
    f = .storageReady ∧ u.flag = some .storageReady ∧
    (w.woken err portFail s).1.incomingActiveCallback = none
  timeout_slots {w} (err s) : a.wait = some w → w.ms.isSome = true →
    (w.woken err portFail s).1.energyCb = s.energyCb ∧
    (w.woken err portFail s).1.incomingActiveCallback = if u.forgets err then s.incomingActiveCallback
    else none

section
attribute [local grind =] Api.Call.usage Api.set portSuccess portFail portEbusy portEnomem

theorem signpostStorageScan_uses (recordList listLen : Ptr) : (signpostStorageScan recordList listLen).Uses
    (Api.Call.storageScan recordList listLen).usage := by
  constructor <;> grind [signpostStorageScan]

theorem signpostStorageWrite_uses (recordPointer : Ptr) : (signpostStorageWrite recordPointer).Uses
    (Api.Call.storageWrite recordPointer).usage := by
  constructor <;> grind [signpostStorageWrite]

theorem signpostStorageRead_uses (data len recordPointer : Ptr) :
    (signpostStorageRead data len recordPointer).Uses
    (Api.Call.storageRead data len recordPointer).usage := by
  constructor <;> grind [signpostStorageRead]

theorem signpostStorageDelete_uses (recordPointer : Ptr) : (signpostStorageDelete recordPointer).Uses
    (Api.Call.storageDelete recordPointer).usage := by
  constructor <;> grind [signpostStorageDelete]

theorem signpostNetworkingPublish_uses (malloc : Bool) : (signpostNetworkingPublish malloc).Uses
    (Api.Call.networkingPublish malloc).usage := by
  constructor <;> grind [signpostNetworkingPublish]

theorem signpostEnergyQueryAsync_uses (energy : Ptr) : (signpostEnergyQueryAsync energy .user).Uses
    (Api.Call.energyQueryAsync energy).usage := by
  constructor <;> grind [signpostEnergyQueryAsync]

theorem signpostEnergyQuery_uses (energy : Ptr) : (signpostEnergyQuery energy).Uses
    (Api.Call.energyQuery energy).usage := by
  constructor <;> grind [signpostEnergyQuery, signpostEnergyQueryAsync]

theorem signpostEnergyReport_uses (malloc : Bool) : (signpostEnergyReport malloc).Uses
    (Api.Call.energyReport malloc).usage := by
  constructor <;> grind [signpostEnergyReport]

theorem signpostEnergyReset_uses : signpostEnergyReset.Uses Api.Call.energyReset.usage := by
  constructor <;> grind [signpostEnergyReset]

theorem signpostTimelocationSync_uses (messageType : UInt8) (time : Ptr) :
    (signpostTimelocationSync messageType).Uses (Api.Call.timelocationGetTime time).usage := by
  constructor <;> grind [signpostTimelocationSync]

/-- What is done around `signpost_timelocation_sync` shares nothing more. -/
theorem ApiCall.Uses.timelocation {sync : ApiCall} {u : Usage} (h : sync.Uses u) (null : Bool)
    {next : Int → Api → Api × Int}
    (hnext : ∀ rc s, (next rc s).1.incomingActiveCallback = s.incomingActiveCallback ∧
      (next rc s).1.energyCb = s.energyCb ∧ (next rc s).1.flag = s.flag) :
    (sync.timelocation null next).Uses u := by
  have hwait : ∀ {w}, (sync.timelocation null next).wait = some w → ∃ w', sync.wait = some w' ∧
      w.flag = w'.flag ∧ w.ms = w'.ms ∧ ∀ err rc s, (w.woken err rc s).1.incomingActiveCallback =
        (w'.woken err rc s).1.incomingActiveCallback ∧
        (w.woken err rc s).1.energyCb = (w'.woken err rc s).1.energyCb ∧
        (w.woken err rc s).1.flag = (w'.woken err rc s).1.flag := by
    intro w hw
    obtain ⟨w', hw', rfl⟩ := Option.map_eq_some_iff.mp hw
    refine ⟨w', hw', rfl, rfl, fun err rc s => ?_⟩
    simp only
    split
    · exact ⟨rfl, rfl, rfl⟩
    · exact hnext _ _
  constructor
  case start_flag =>
    intro s f hf
    simp only [ApiCall.timelocation] at hf
    split at hf
    · exact hf
    · exact h.start_flag hf
  case start_some =>
    intro s rc hrc
    simp only [ApiCall.timelocation] at hrc ⊢
    split at hrc
    · next hnull =>
      cases hrc
      simp only [hnull, if_true]
      exact ⟨by decide, trivial, trivial⟩
    · next hnull =>
      simp only [hnull]
      exact h.start_some hrc
  case start_busy =>
    intro s hrc
    simp only [ApiCall.timelocation] at hrc
    split at hrc
    · exact absurd (Option.some.inj hrc) (by decide)
    · exact h.start_busy hrc
  case start_none =>
    intro s hrc
    simp only [ApiCall.timelocation] at hrc ⊢
    split at hrc
    · cases hrc
    · next hnull =>
      simp only [hnull]
      exact h.start_none hrc
  case sent_flag => exact h.sent_flag
  case sent_failed => exact h.sent_failed
  case sent_some =>
    intro err s rc hrc herr
    obtain ⟨hwait, hkeep⟩ := h.sent_some hrc herr
    exact ⟨by rw [ApiCall.timelocation, hwait]; rfl, hkeep⟩
  case sent_none =>
    intro err s hrc
    obtain ⟨hwait, hkeep⟩ := h.sent_none hrc
    exact ⟨by rw [ApiCall.timelocation, Option.isSome_map]; exact hwait, hkeep⟩
  case wait_flag =>
    intro w hw
    obtain ⟨w', hw', hflag, -, -⟩ := hwait hw
    rw [hflag]
    exact h.wait_flag hw'
  case woken_flag =>
    intro w err s f hw hf hf'
    obtain ⟨w', hw', hflag, -, hwoken⟩ := hwait hw
    rw [(hwoken ..).2.2] at hf'
    exact h.woken_flag hw' (hflag ▸ hf) hf'
  case woken_slots =>
    intro w err s hw
    obtain ⟨w', hw', -, -, hwoken⟩ := hwait hw
    rw [(hwoken ..).1, (hwoken ..).2.1]
    exact h.woken_slots err s hw'
  case timeout_flag =>
    intro w err s f hw hms hf
    obtain ⟨w', hw', -, hms', hwoken⟩ := hwait hw
    rw [(hwoken ..).2.2] at hf
    rw [(hwoken ..).1]
    exact h.timeout_flag err s f hw' (hms' ▸ hms) hf
  case timeout_slots =>
    intro w err s hw hms
    obtain ⟨w', hw', -, hms', hwoken⟩ := hwait hw
    rw [(hwoken ..).1, (hwoken ..).2.1]
    exact h.timeout_slots err s hw' (hms' ▸ hms)

theorem signpostTimelocationGetTime_uses (mktime : Tm → Bytes) (time : Ptr) :
    (signpostTimelocationGetTime mktime time).Uses (Api.Call.timelocationGetTime time).usage := by
  refine (signpostTimelocationSync_uses _ time).timelocation _ fun rc s => ?_
  split <;> exact ⟨rfl, rfl, rfl⟩

theorem signpostTimelocationGetLocation_uses (location : Ptr) :
    (signpostTimelocationGetLocation location).Uses
    (Api.Call.timelocationGetLocation location).usage := by
  refine (signpostTimelocationSync_uses _ location).timelocation _ fun rc s => ?_
  split <;> exact ⟨rfl, rfl, rfl⟩

theorem signpostInitializationGetModuleState_uses : signpostInitializationGetModuleState.Uses
    Api.Call.initializationGetModuleState.usage := by
  constructor <;> grind [signpostInitializationGetModuleState, Api.set_flag]

theorem signpostProcessingInit_uses : signpostProcessingInit.Uses Api.Call.processingInit.usage := by
  constructor <;> grind [signpostProcessingInit, Api.set_flag]

theorem signpostProcessingOnewaySend_uses :
    signpostProcessingOnewaySend.Uses Api.Call.processingOnewaySend.usage := by
  constructor <;> grind [signpostProcessingOnewaySend]

theorem signpostProcessingTwowaySend_uses :
    signpostProcessingTwowaySend.Uses Api.Call.processingTwowaySend.usage := by
  constructor <;> grind [signpostProcessingTwowaySend, processingSuccess]

theorem signpostWatchdog_uses (messageType : UInt8) :
    (signpostWatchdog messageType).Uses Api.Call.watchdogStart.usage := by
  constructor <;> grind [signpostWatchdog, Api.set_flag]

end

namespace Api.Call

theorem uses (mktime : Tm → Bytes) (c : Api.Call) : (c.code mktime).Uses c.usage := by
  cases c with
  | storageScan recordList listLen => exact signpostStorageScan_uses recordList listLen
  | storageWrite recordPointer => exact signpostStorageWrite_uses recordPointer
  | storageRead data len recordPointer => exact signpostStorageRead_uses data len recordPointer
  | storageDelete recordPointer => exact signpostStorageDelete_uses recordPointer
  | networkingPublish malloc => exact signpostNetworkingPublish_uses malloc
  | energyQuery energy => exact signpostEnergyQuery_uses energy
  | energyQueryAsync energy => exact signpostEnergyQueryAsync_uses energy
  | energyReport malloc => exact signpostEnergyReport_uses malloc
  | energyReset => exact signpostEnergyReset_uses
  | timelocationGetTime time => exact signpostTimelocationGetTime_uses mktime time
  | timelocationGetLocation location => exact signpostTimelocationGetLocation_uses location
  | initializationGetModuleState => exact signpostInitializationGetModuleState_uses
  | processingInit => exact signpostProcessingInit_uses
  | processingOnewaySend => exact signpostProcessingOnewaySend_uses
  | processingTwowaySend => exact signpostProcessingTwowaySend_uses
  | watchdogStart => exact signpostWatchdog_uses watchdogStartMessage
  | watchdogTickle => exact signpostWatchdog_uses watchdogTickleMessage

/-- It returns after its send, without waiting. -/
def Unwaiting : Api.Call → Prop
  | .storageWrite _ | .storageDelete _ | .energyQueryAsync _ | .processingTwowaySend => True
  | _ => False

instance : ∀ c : Api.Call, Decidable c.Unwaiting
  | .storageWrite _ | .storageDelete _ | .energyQueryAsync _ | .processingTwowaySend => .isTrue trivial
  | .storageScan .. | .storageRead .. | .networkingPublish _ | .energyQuery _ | .energyReport _ | .energyReset
  | .timelocationGetTime _ | .timelocationGetLocation _ | .initializationGetModuleState | .processingInit
  | .processingOnewaySend | .watchdogStart | .watchdogTickle => .isFalse id

/-- A call of the processing or the watchdog API, whose waits have no limit. -/
def Untimed : Api.Call → Prop
  | .processingInit | .processingOnewaySend | .processingTwowaySend | .watchdogStart | .watchdogTickle => True
  | _ => False

instance : ∀ c : Api.Call, Decidable c.Untimed
  | .processingInit | .processingOnewaySend | .processingTwowaySend | .watchdogStart | .watchdogTickle =>
    .isTrue trivial
  | .storageScan .. | .storageWrite _ | .storageRead .. | .storageDelete _ | .networkingPublish _ | .energyQuery _
  | .energyQueryAsync _ | .energyReport _ | .energyReset | .timelocationGetTime _ | .timelocationGetLocation _
  | .initializationGetModuleState => .isFalse id

section
variable {mktime : Tm → Bytes} {c : Api.Call} {e : Option EnergyCb} {f : Flag}

theorem unwaiting_iff : c.Unwaiting ↔ (c.code mktime).wait = none := by
  cases c <;> simp [Unwaiting, code, signpostStorageScan, signpostStorageWrite, signpostStorageRead,
    signpostStorageDelete, signpostNetworkingPublish, signpostEnergyQuery, signpostEnergyQueryAsync,
    signpostEnergyReport, signpostEnergyReset, signpostTimelocationGetTime, signpostTimelocationGetLocation,
    signpostTimelocationSync, ApiCall.timelocation, signpostInitializationGetModuleState, signpostProcessingInit,
    signpostProcessingOnewaySend, signpostProcessingTwowaySend, signpostWatchdogStart, signpostWatchdogTickle,
    signpostWatchdog]

theorem unwaiting_flag (h : c.Unwaiting) (hflag : c.usage.flag ≠ none) :
    c.usage.flag = some .storageReady ∧ c.usage.clearsLate = false := by
  cases c <;> simp_all [usage, Unwaiting]

theorem user_unwaiting (h : c.usage.energyCb = some .user) : c.Unwaiting := by
  cases c <;> simp_all [usage, Unwaiting]

theorem unwaiting_sync (h : c.Unwaiting) : c.usage.energyCb ≠ some .sync := by
  cases c <;> simp_all [usage, Unwaiting]

/-- A query, and only that, sets `energy_cb`. -/
theorem query_iff : c.usage.callback = .energyQueryAsync ↔ c.usage.energyCb ≠ none := by
  cases c <;> simp [usage]

theorem sync_flag (h : c.usage.energyCb = some .sync) : c.usage.flag = some .energyQueryReady := by
  cases c <;> simp_all [usage]

theorem late_energyCb (h : c.usage.late = true) : c.usage.energyCb = none := by
  cases c <;> simp_all [usage]

theorem late_flag (h : c.usage.late = true) : c.usage.flag ≠ some .storageReady := by
  cases c <;> simp_all [usage]

/-! The timed calls set `incoming_active_callback` where they clear their variable, and leave it only where they
have not set it. -/

theorem clearsLate_eq (h : ¬ c.Untimed) : c.usage.clearsLate = c.usage.late := by
  cases c <;> simp_all [usage, Untimed]

theorem leaves_eq (h : ¬ c.Untimed) : c.usage.leaves = c.usage.late := by
  cases c <;> simp_all [usage, Untimed]

theorem untimed_start {s : Api} (h : c.Untimed) : ((c.code mktime).start s).2 = none := by
  cases c with
  | processingInit | processingOnewaySend | processingTwowaySend | watchdogStart | watchdogTickle => rfl
  | storageScan | storageWrite | storageRead | storageDelete | networkingPublish | energyQuery | energyQueryAsync
  | energyReport | energyReset | timelocationGetTime | timelocationGetLocation | initializationGetModuleState => cases h

theorem raises_callback (h : ¬ c.Untimed) (hquery : c.usage.callback ≠ .energyQueryAsync) :
    c.usage.callback.raises e = c.usage.flag := by
  cases c <;> simp_all [usage, Untimed, Callback.raises]

theorem raises_started (h : ¬ c.Untimed) (hraises : c.usage.callback.raises (c.usage.energyCb.or e) = some f) :
    c.usage.flag = some f := by
  cases c <;> simp_all [usage, Untimed, Callback.raises]

end

end Api.Call

/-! ## What calls leave alone -/

/-- The message that came in last, and what is known of the modules. -/
structure Api.Same (s s' : Api) : Prop where
  incoming : s'.incoming = s.incoming
  moduleInfo : s'.moduleInfo = s.moduleInfo

theorem Api.Same.trans {s s' s'' : Api} (h : s.Same s') (h' : s'.Same s'') : s.Same s'' :=
  ⟨h'.incoming.trans h.incoming, h'.moduleInfo.trans h.moduleInfo⟩

structure ApiCall.Leaves (a : ApiCall) : Prop where
  start (s : Api) : s.Same (a.start s).1
  sent (err : Int) (s : Api) : s.Same (a.sent err s).1
  woken {w : Wait} (err rc : Int) (s : Api) : a.wait = some w → s.Same (w.woken err rc s).1

theorem ApiCall.Leaves.timelocation {sync : ApiCall} (h : sync.Leaves) (null : Bool)
    {next : Int → Api → Api × Int} (hnext : ∀ rc (s : Api), s.Same (next rc s).1) :
    (sync.timelocation null next).Leaves := by
  refine ⟨fun s => ?_, h.sent, fun err rc s hwait => ?_⟩
  · simp only [ApiCall.timelocation]
    split
    · exact ⟨rfl, rfl⟩
    · exact h.start s
  · obtain ⟨w, hw, rfl⟩ := Option.map_eq_some_iff.mp hwait
    simp only
    split
    · exact h.woken err rc s hw
    · exact (h.woken err rc s hw).trans (hnext ..)

theorem signpostTimelocationSync_leaves (messageType : UInt8) : (signpostTimelocationSync messageType).Leaves := by
  constructor <;> grind [signpostTimelocationSync, Api.Same, Api.set]

theorem Api.Call.leaves (mktime : Tm → Bytes) {c : Api.Call} (hc : c ≠ .initializationGetModuleState) :
    (c.code mktime).Leaves := by
  cases c with
  | timelocationGetTime time =>
    rw [code, signpostTimelocationGetTime]
    refine (signpostTimelocationSync_leaves _).timelocation _ fun rc s => ?_
    split <;> exact ⟨rfl, rfl⟩
  | timelocationGetLocation location =>
    rw [code, signpostTimelocationGetLocation]
    refine (signpostTimelocationSync_leaves _).timelocation _ fun rc s => ?_
    split <;> exact ⟨rfl, rfl⟩
  | initializationGetModuleState => exact absurd rfl hc
  | storageScan | storageWrite | storageRead | storageDelete =>
    constructor <;> grind [Api.Call.code, Api.Same, Api.set, signpostStorageScan, signpostStorageWrite,
      signpostStorageRead, signpostStorageDelete]
  | networkingPublish | energyQuery | energyQueryAsync | energyReport | energyReset =>
    constructor <;> grind [Api.Call.code, Api.Same, Api.set, signpostNetworkingPublish, signpostEnergyQuery,
      signpostEnergyQueryAsync, signpostEnergyReport, signpostEnergyReset]
  | processingInit | processingOnewaySend | processingTwowaySend | watchdogStart | watchdogTickle =>
    constructor <;> grind [Api.Call.code, Api.Same, Api.set, signpostProcessingInit, signpostProcessingOnewaySend,
      signpostProcessingTwowaySend, signpostWatchdogStart, signpostWatchdogTickle, signpostWatchdog]

section
variable (mktime : Tm → Bytes) (c : Api.Call)

theorem Api.Call.start_same (s : Api) : s.Same ((c.code mktime).start s).1 := by
  by_cases hc : c = .initializationGetModuleState
  · subst hc
    exact ⟨rfl, rfl⟩
  · exact (leaves mktime hc).start s

theorem Api.Call.sent_same (err : Int) (s : Api) : s.Same ((c.code mktime).sent err s).1 := by
  by_cases hc : c = .initializationGetModuleState
  · subst hc
    exact ⟨rfl, rfl⟩
  · exact (leaves mktime hc).sent err s

variable {mktime}

theorem Api.Call.woken_incoming {w : Wait} (hwait : (c.code mktime).wait = some w) (err rc : Int) (s : Api) :
    (w.woken err rc s).1.incoming = s.incoming := by
  by_cases hc : c = .initializationGetModuleState
  · subst hc
    cases hwait
    simp only
    split <;> rfl
  · exact ((leaves mktime hc).woken err rc s hwait).incoming

end

theorem Callback.run_same (cb : Callback) (lenOrRc : Int) (s : Api) : s.Same (cb.run lenOrRc s).1 := by
  constructor <;> cases cb <;> grind [Callback.run, signpostInitializationGetStateCallback,
    signpostStorageScanCallback, signpostStorageWriteCallback, signpostStorageReadCallback, signpostNetworkingCallback,
    energyQueryAsyncCallback, energyQuerySyncCallback, signpostEnergyReportCallback, signpostEnergyResetCallback,
    timelocationCallback, signpostProcessingCallback, signpostWatchdogCb, Api.set]

/-- A message leaves what is known of the modules, and is what came in last if it has a header. -/
theorem Api.recv_same (s : Api) (call : AppCall) :
    (s.recv call).1.incoming = call.frame.getD s.incoming ∧ (s.recv call).1.moduleInfo = s.moduleInfo := by
  cases htaker : s.taker call with
  | none =>
    rw [(Api.recv_dropped htaker).1]
    exact ⟨rfl, rfl⟩
  | some cb =>
    rw [Api.recv_taker htaker]
    exact ⟨(cb.run_same ..).incoming, (cb.run_same ..).moduleInfo⟩

end Signpost
