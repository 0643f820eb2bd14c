/-
The radio module's programs, `radio_app` and `radio_app_ble`: the queue, and the
timer callback that sends what is on it over LoRa or the cellular network and
puts a status packet on it every minute.

The callback waits at many places, and messages and the timer are handled
there: `stack` is what the callbacks that have not ended wait for, the last
first. Between two such places a callback is a step. A step says what it does
to the queue.
-/
import Signpost.RadioQueue
import Signpost.Lib.Run

namespace Signpost

open Lib

/-! ## Data -/

/-- What a radio program is compiled with, and what the two programs differ in. -/
structure Firmware where
  bufferSize : Nat
  /-- `COMPILE_TIME_ADDRESS` -/
  address : Bytes
  /-- The type of its status packets. -/
  statusType : UInt8
  /-- A share of the energy in floating point, for a count and a total. -/
  share : UInt8 → UInt16 → UInt32 → UInt32
  length_address : address.length = 6

section
variable (address : Bytes) (length_address : address.length = 6) (share : UInt8 → UInt16 → UInt32 → UInt32)

def radioApp : Firmware := ⟨128, address, 0x01, share, length_address⟩

def radioAppBle : Firmware := ⟨100, address, 0x02, share, length_address⟩

end

/-- A share without rounding errors. -/
def floorShare (count : UInt8) (total : UInt16) (energy : UInt32) : UInt32 :=
  UInt32.ofNat (count.toNat * energy.toNat / total.toNat)

def sampleApp : Firmware := radioApp [0xC0, 0x98, 0xE5, 0x12, 0x00, 0x01] rfl floorShare

def sampleAppBle : Firmware := radioAppBle [0xC0, 0x98, 0xE5, 0x12, 0x00, 0x01] rfl floorShare

def cellPostSize : Nat := 2000

inductive LoraState
  | joined
  | error
  deriving DecidableEq

inductive CellularState
  | noService
  | success
  deriving DecidableEq

/-- `NUMBER_OF_MODULES` -/
def numberOfModuleSlots : Nat := 8

/-- `module_num_map`, `module_packet_count` and `number_of_modules`. -/
structure PacketCounts where
  moduleNumMap : Fin numberOfModuleSlots → UInt8
  modulePacketCount : Fin numberOfModuleSlots → UInt8
  numberOfModules : UInt8

/-- `signpost_energy_report_module_t`s in memory for `size` of them, as far as
they are written. -/
structure EnergyReports where
  size : UInt8
  applicationId : Fin numberOfModuleSlots → Option UInt8
  energyUsed : Fin numberOfModuleSlots → Option UInt32

/-- What the timer callback waits for, with what it holds then. -/
inductive Stage
  /-- The first `sara_u260_check_connection`. -/
  | checking
  /-- The second one. -/
  | rechecking
  /-- `sara_u260_basic_http_post` -/
  | posting (cellBuffer : Bytes) (tempHead : Fin queueSize)
  /-- `sara_u260_get_post_response` -/
  | responding (cellBuffer : Bytes) (tempHead : Fin queueSize)
  /-- `xdot_send` -/
  | sending (packet : Bytes)
  /-- `track_failures(FAILURE)` and `xdot_sleep`. -/
  | failing
  /-- `track_failures(SUCCESS)` -/
  | succeeding (packet : Bytes)
  /-- `xdot_receive` and the downlink message, in `radio_app`, and `xdot_sleep`. -/
  | receiving
  /-- `signpost_energy_query` -/
  | querying (reps : EnergyReports) (packetsTotal : UInt16)
  /-- `signpost_energy_report` -/
  | reporting (reps : EnergyReports)
  /-- `signpost_energy_reset` -/
  | resetting (reps : EnergyReports)

structure Radio (f : Firmware) where
  queue : Queue f.bufferSize
  counts : PacketCounts
  statusSendBuf : Mem UInt8
  sn : UInt8
  currentlySending : Bool
  sendCounter : UInt8
  loraState : LoraState
  cellularState : CellularState
  failCounter : Nat
  stack : List Stage

/-- What a step does that others see, or that the queue is for. -/
inductive Action
  /-- `add_buffer_to_queue` is given a message and returns a code. -/
  | add (e : Entry) (rc : Int)
  | reply (reply : Reply)
  /-- A packet is given to `xdot_send`. -/
  | lora (packet : Bytes)
  /-- A batch of so many messages is posted. -/
  | post (cellBuffer : Bytes) (count : Nat)
  /-- The send of this is over, and was acknowledged. -/
  | sent (packet : Bytes)
  /-- The send is over, and was not. -/
  | failed
  | report (numReports : UInt8) (reps : EnergyReports)

def Action.forms : Action → Bool
  | .lora _ | .post .. => true
  | _ => false

def Action.acknowledges : Action → Bool
  | .sent _ => true
  | _ => false

/-- What comes back from what the callback waits for, and whether there is
memory then. -/
structure Answer where
  ret : Int
  rbuf : Bytes := []
  energyUsedSinceReset : UInt32 := 0
  malloc : Bool := true

/-! ## Packets -/

/-- `count_module_packet` from an index on. -/
def countFrom (moduleAddress : UInt8) : List (Fin numberOfModuleSlots) → PacketCounts → PacketCounts
  | [], c => c
  | i :: is, c =>
    if c.moduleNumMap i = 0 then
      { moduleNumMap := fun j => if j = i then moduleAddress else c.moduleNumMap j
        modulePacketCount := fun j => if j = i then c.modulePacketCount j + 1 else c.modulePacketCount j
        numberOfModules := c.numberOfModules + 1 }
    else if c.moduleNumMap i = moduleAddress then
      { c with modulePacketCount := fun j => if j = i then c.modulePacketCount j + 1 else c.modulePacketCount j }
    else countFrom moduleAddress is c

def countModulePacket (c : PacketCounts) (moduleAddress : UInt8) : PacketCounts :=
  -- no module has this address
  if moduleAddress = 0 then c else countFrom moduleAddress (List.finRange numberOfModuleSlots) c

def Firmware.header (f : Firmware) (sn : UInt8) : Bytes := f.address ++ [sn]

/-- A message in a batch: its length, high byte first, and its bytes. -/
def batchEntry (length : UInt8) (bytes : Bytes) : Bytes :=
  ((length.toUInt16 &&& 0xFF00) >>> 8).toUInt8 :: (length.toUInt16 &&& 0xFF).toUInt8 :: bytes

/-- `cell_buffer`, as far as it is used, `temp_head`, and the messages counted. -/
structure Batch where
  cellBuffer : Bytes
  tempHead : Fin queueSize
  counts : PacketCounts
  count : Nat

namespace Queue

variable {bufferSize : Nat}

/-- What the loop that fills `cell_buffer` does with a message. -/
def put (q : Queue bufferSize) (b : Batch) : Batch where
  cellBuffer := b.cellBuffer ++ batchEntry (q.dataLength b.tempHead) (q.slot b.tempHead).bytes
  tempHead := incrementQueuePointer b.tempHead
  counts := countModulePacket b.counts (q.dataAddress b.tempHead)
  count := b.count + 1

/-- The loop. Its room is tested for the length of the message at the head. -/
def fill (q : Queue bufferSize) : Nat → Batch → Batch
  | 0, b => b
  | fuel + 1, b =>
    if b.cellBuffer.length + 2 + (q.dataLength q.queueHead).toNat < cellPostSize then
      if (q.put b).tempHead = q.queueTail then q.put b else q.fill fuel (q.put b)
    else b

/-- `LoRa_send_buffer`, as far as it is sent. -/
def loraPacket (q : Queue bufferSize) (header : Bytes) : Bytes :=
  (header ++ (q.dataQueue q.queueHead).read 0 bufferSize).take ((q.dataLength q.queueHead).toNat + 6 + 1)

end Queue

/-! ## The status packet -/

def statusLengthOffset : Nat := 22
def statusDataOffset : Nat := 24

/-- `"signpost/radio/status"` -/
def statusTopic : Bytes :=
  [0x73, 0x69, 0x67, 0x6E, 0x70, 0x6F, 0x73, 0x74, 0x2F, 0x72, 0x61, 0x64, 0x69, 0x6F, 0x2F, 0x73,
    0x74, 0x61, 0x74, 0x75, 0x73]

/-- The loop over the modules before the energy query. -/
def reportModules (c : PacketCounts) : List (Fin numberOfModuleSlots) → Mem UInt8 → EnergyReports → UInt16 →
    Mem UInt8 × EnergyReports × UInt16
  | [], status, reps, total => (status, reps, total)
  | i :: is, status, reps, total =>
    if c.moduleNumMap i ≠ 0 then
      reportModules c is
        (status.copy (statusDataOffset + 1 + i * 2) [c.moduleNumMap i, c.modulePacketCount i])
        { reps with applicationId := fun j => if j = i then some (c.moduleNumMap i) else reps.applicationId j }
        (total + (c.modulePacketCount i).toUInt16)
    else (status, reps, total)

/-- The loop over the modules after it. -/
def energyShares (share : UInt32 → UInt8 → UInt32) (energy : UInt32) (c : PacketCounts) :
    List (Fin numberOfModuleSlots) → EnergyReports → EnergyReports
  | [], reps => reps
  | i :: is, reps =>
    if c.moduleNumMap i ≠ 0 then
      energyShares share energy c is
        { reps with
          energyUsed := fun j => if j = i then some (share energy (c.modulePacketCount i)) else reps.energyUsed j }
    else reps

namespace Radio

variable {f : Firmware}

/-- When `main` has set up the timer. -/
def boot : Radio f where
  queue := .empty
  counts := ⟨fun _ => 0, fun _ => 0, 0⟩
  statusSendBuf := .ofList (21 :: statusTopic ++ [0, f.statusType]) 0
  sn := 0
  currentlySending := false
  sendCounter := 0
  loraState := .error
  cellularState := .noService
  failCounter := 0
  stack := []

/-- Where the report part starts; every thirtieth time it queries the energy used. -/
def countSend (malloc : Bool) (r : Radio f) : Radio f :=
  let r : Radio f := { r with sendCounter := r.sendCounter + 1 }
  if r.sendCounter = 30 then
    let r : Radio f :=
      { r with statusSendBuf := r.statusSendBuf.copy statusDataOffset [r.counts.numberOfModules] }
    if !malloc then r
    else
      let (status, reps, total) :=
        reportModules r.counts (List.finRange numberOfModuleSlots) r.statusSendBuf
        ⟨r.counts.numberOfModules, fun _ => none, fun _ => none⟩ 0
      { r with statusSendBuf := status, stack := .querying reps total :: r.stack }
  else r

/-- Where it ends, with the status packet. -/
def putStatus (r : Radio f) : Radio f × List Action :=
  let n := r.counts.numberOfModules.toNat
  let status := (r.statusSendBuf.copy (statusDataOffset + 1 + n * 2) [r.queue.calcQueueLength.toUInt8]).copy
    statusLengthOffset [(2 + n * 2 + 1).toUInt8]
  let len := (statusDataOffset + 1 + n * 2 + 1).toUInt8
  let (rc, q) := r.queue.addBufferToQueue 0x22 status len
  ({ r with statusSendBuf := status, queue := q, sendCounter := 0 },
    [.add ⟨0x22, status.read 0 len.toNat⟩ rc])

def endSend (malloc : Bool) (r : Radio f) : Radio f := countSend malloc { r with currentlySending := false }

def chooseRadio (malloc : Bool) (r : Radio f) : Radio f × List Action :=
  -- `QUEUE_SIZE*0.66`
  if 19 < r.queue.calcQueueLength ∧ r.cellularState = .success then
    ({ r with stack := .rechecking :: r.stack }, [])
  else if r.loraState = .joined then
    let packet := r.queue.loraPacket (f.header r.sn)
    ({ r with
      counts := countModulePacket r.counts (r.queue.dataAddress r.queue.queueHead)
      stack := .sending packet :: r.stack }, [.lora packet])
  else (r.endSend malloc, [])

def timerCallback (malloc : Bool) (r : Radio f) : Radio f × List Action :=
  if r.currentlySending then (r, [])
  else if r.queue.queueHead ≠ r.queue.queueTail then
    if r.cellularState = .noService then ({ r with currentlySending := true, stack := .checking :: r.stack }, [])
    else chooseRadio malloc { r with currentlySending := true }
  else (r.countSend malloc, [])

/-- `"200 OK"` is where it is looked for. -/
def postOk (rbuf : Bytes) : Bool := (rbuf.drop 9).take 6 = [0x32, 0x30, 0x30, 0x20, 0x4F, 0x4B]

/-- The timer callback goes on with what it waited for. Nothing is said of a
batch that is too long for its buffer. -/
def resume (a : Answer) (r : Radio f) : Option (Radio f × List Action) :=
  match r.stack with
  | [] => none
  | .checking :: stack =>
    let cellularState := if a.ret < 0 then .noService else .success
    some (chooseRadio a.malloc { r with cellularState, stack })
  | .rechecking :: stack =>
    if a.ret < 0 then some ({ r with cellularState := .noService, currentlySending := false, stack }, [])
    else
      let b := r.queue.fill queueSize ⟨f.header r.sn, r.queue.queueHead, r.counts, 0⟩
      if b.cellBuffer.length ≤ cellPostSize then
        some ({ r with counts := b.counts, stack := .posting b.cellBuffer b.tempHead :: stack },
          [.post b.cellBuffer b.count])
      else none
  | .posting cellBuffer tempHead :: stack =>
    if a.ret < 0 then some (endSend a.malloc { r with stack }, [.failed])
    else some ({ r with stack := .responding cellBuffer tempHead :: stack }, [])
  | .responding cellBuffer tempHead :: stack =>
    if 0 ≤ a.ret ∧ postOk a.rbuf then
      some (endSend a.malloc { r with sn := r.sn + 1, queue := { r.queue with queueHead := tempHead }, stack },
        [.sent cellBuffer])
    else some (endSend a.malloc { r with stack }, [.failed])
  | .sending packet :: stack =>
    if a.ret < 0 then some ({ r with failCounter := r.failCounter + 1, stack := .failing :: stack }, [])
    else some ({ r with failCounter := 0, stack := .succeeding packet :: stack }, [])
  | .failing :: stack =>
    let loraState := if r.failCounter = 10 ∨ r.failCounter = 40 then .error else r.loraState
    some (endSend a.malloc { r with loraState, stack }, [.failed])
  | .succeeding packet :: stack =>
    some ({ r with
      sn := r.sn + 1
      queue := { r.queue with queueHead := incrementQueuePointer r.queue.queueHead }
      stack := .receiving :: stack }, [.sent packet])
  | .receiving :: stack => some (endSend a.malloc { r with stack }, [])
  | .querying reps total :: stack =>
    if a.ret < 0 then some (putStatus { r with stack })
    else
      let share energy count := f.share count total energy
      let reps := energyShares share a.energyUsedSinceReset r.counts
        (List.finRange numberOfModuleSlots) reps
      some ({ r with stack := .reporting reps :: stack }, [.report r.counts.numberOfModules reps])
  | .reporting reps :: stack =>
    if a.ret < 0 then some (putStatus { r with stack })
    else some ({ r with stack := .resetting reps :: stack }, [])
  | .resetting _ :: stack =>
    some (putStatus { r with counts := { r.counts with modulePacketCount := fun _ => 0 }, stack })

inductive Event
  /-- A message for the networking API is received. -/
  | message (sourceAddress frameType messageType : UInt8) (messageLength : UInt32) (message : Mem UInt8)
  | timer (malloc : Bool)
  /-- What the last callback waits for comes back. -/
  | resume (a : Answer)
  /-- An attempt of `join_lora_network` fails. -/
  | joinFailed
  | joined

/-- `main` goes on only when no callback waits. -/
def step (r : Radio f) : Event → Option (Radio f × List Action)
  | .message sourceAddress frameType messageType messageLength message =>
    match networkingApiCallback r.queue sourceAddress frameType messageType messageLength message with
    | (some reply, q) =>
      some ({ r with queue := q },
        [.add ⟨sourceAddress, message.read 0 messageLength.toUInt8.toNat⟩ reply.errorCode, .reply reply])
    | (none, q) => some ({ r with queue := q }, [])
  | .timer malloc => some (timerCallback malloc r)
  | .resume a => resume a r
  | .joinFailed =>
    if r.stack = [] ∧ r.loraState = .error then some ({ r with failCounter := r.failCounter + 1 }, [])
    else none
  | .joined =>
    if r.stack = [] ∧ r.loraState = .error then some ({ r with failCounter := 0, loraState := .joined }, [])
    else none

end Radio

/-! ## The write event of `radio_app_ble` -/

/-- `log_buffer`, as far as it is used. -/
def Queue.logBuffer {bufferSize : Nat} (q : Queue bufferSize) (header : Bytes) : Bytes :=
  header ++ batchEntry (q.dataLength q.queueHead) (q.slot q.queueHead).bytes

namespace Radio

variable {f : Firmware}

/-- The write is an acknowledgement of the packet before. -/
def bleAck (r : Radio f) : Radio f :=
  { r with sn := r.sn + 1, queue := { r.queue with queueHead := incrementQueuePointer r.queue.queueHead } }

/-- `ble_evt_write` with the value of `added_queue`, its next value, and what
`log_read_char` is set to. -/
def bleEvtWrite (addedQueue : Bool) (r : Radio f) : Radio f × Bool × Option Bytes :=
  let r := if addedQueue then r.bleAck else r
  if r.queue.queueHead = r.queue.queueTail then (r, false, none)
  else
    ({ r with counts := countModulePacket r.counts (r.queue.dataAddress r.queue.queueHead) }, true,
      some (r.queue.logBuffer (f.header r.sn)))

end Radio

end Signpost
