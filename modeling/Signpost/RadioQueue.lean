/-
The queue of the radio module (`radio_app` and `radio_app_ble`): thirty buffers
with a head and a tail, and the callback that puts what is published on it.

The length of a message is a `size_t` in the callback and a `uint8_t` in the
queue.

The array with its head and tail is a list, by the ring of `Lib.Ring`, and every
function is one on that list. A message whose length does not fit a byte is
queued with what is left of it.
-/
import Signpost.Lib.Ring
import Signpost.Reply

namespace Signpost

open Lib

/-- `QUEUE_SIZE` -/
def queueSize : Nat := 30

/-- A message on the queue, and the module it came from. -/
structure Entry where
  address : UInt8
  bytes : Bytes
  deriving DecidableEq

/-- `data_queue`, with buffers of `BUFFER_SIZE`, to `queue_tail`. -/
structure Queue (bufferSize : Nat) where
  dataQueue : Fin queueSize → Mem UInt8
  dataLength : Fin queueSize → UInt8
  dataAddress : Fin queueSize → UInt8
  queueHead : Fin queueSize
  queueTail : Fin queueSize
  length_le : ∀ i, (dataLength i).toNat ≤ bufferSize

def incrementQueuePointer (p : Fin queueSize) : Fin queueSize :=
  if h : p.val = queueSize - 1 then ⟨0, by decide⟩ else ⟨p.val + 1, by omega⟩

namespace Queue

variable {bufferSize : Nat}

/-- The queue of a radio that has started. -/
def empty : Queue bufferSize :=
  ⟨fun _ _ => 0, fun _ => 0, fun _ => 0, ⟨0, by decide⟩, ⟨0, by decide⟩, fun _ => Nat.zero_le _⟩

def slot (q : Queue bufferSize) (i : Fin queueSize) : Entry :=
  ⟨q.dataAddress i, (q.dataQueue i).read 0 (q.dataLength i).toNat⟩

def entries (q : Queue bufferSize) : List Entry := Ring.queue q.slot q.queueHead q.queueTail

/-- `add_buffer_to_queue`, with what it returns. -/
def addBufferToQueue (q : Queue bufferSize) (addr : UInt8) (buffer : Mem UInt8) (len : UInt8) :
    Int × Queue bufferSize :=
  if incrementQueuePointer q.queueTail = q.queueHead then (tockFail, q)
  else if h : len.toNat ≤ bufferSize then
    (0, { q with
      dataAddress := fun i => if i = q.queueTail then addr else q.dataAddress i
      dataQueue := fun i =>
        if i = q.queueTail then (q.dataQueue i).copy 0 (buffer.read 0 len.toNat) else q.dataQueue i
      dataLength := fun i => if i = q.queueTail then len else q.dataLength i
      queueTail := incrementQueuePointer q.queueTail
      length_le := fun i => by
        by_cases hi : i = q.queueTail
        · simp [hi, h]
        · simp [hi, q.length_le i] })
  else (tockEnomem, q)

def calcQueueLength (q : Queue bufferSize) : Nat :=
  if q.queueTail ≥ q.queueHead then q.queueTail - q.queueHead else queueSize - (q.queueHead - q.queueTail)

end Queue

/-- `networking_api_callback`, with the answer it sends. -/
def networkingApiCallback {bufferSize : Nat} (q : Queue bufferSize)
    (sourceAddress frameType messageType : UInt8) (messageLength : UInt32) (message : Mem UInt8) :
    Option Reply × Queue bufferSize :=
  if (frameType = notificationFrame ∨ frameType = commandFrame) ∧
    messageType = networkingPublishMessage then
    let (rc, q) := q.addBufferToQueue sourceAddress message messageLength.toUInt8
    (some (signpostNetworkingPublishReply sourceAddress rc), q)
  else (none, q)

/-! ## The queue as a list -/

theorem incrementQueuePointer_eq (p : Fin queueSize) : incrementQueuePointer p = Ring.next p := by
  have hp := Ring.val_next p
  have hlt := p.isLt
  rw [Fin.ext_iff, hp]
  unfold incrementQueuePointer
  split <;> split <;> simp only <;> omega

namespace Queue

variable {bufferSize : Nat} {q q' : Queue bufferSize} {addr len : UInt8} {buffer : Mem UInt8} {rc : Int}

theorem length_entries : q.entries.length = Ring.dist q.queueHead q.queueTail := Ring.length_queue

theorem length_entries_lt : q.entries.length < queueSize := Ring.length_queue_lt

theorem length_bytes_lt {e : Entry} (he : e ∈ q.entries) : e.bytes.length < 256 := by
  obtain ⟨i, rfl⟩ := Ring.mem_run he
  exact Nat.lt_of_le_of_lt (Nat.le_of_eq (Mem.length_read _ _ _)) (q.dataLength i).toNat_lt

theorem entries_empty : (empty : Queue bufferSize).entries = [] := rfl

theorem entries_eq_nil : q.entries = [] ↔ q.queueHead = q.queueTail := Ring.queue_eq_nil

theorem entries_cons (h : q.queueHead ≠ q.queueTail) :
    q.entries = q.slot q.queueHead :: Ring.queue q.slot (Ring.next q.queueHead) q.queueTail :=
    Ring.queue_cons h

theorem entries_push (hroom : Ring.next q.queueTail ≠ q.queueHead) (hhead : q'.queueHead = q.queueHead)
    (htail : q'.queueTail = Ring.next q.queueTail) (hslot : ∀ i, i ≠ q.queueTail → q'.slot i = q.slot i) :
    q'.entries = q.entries ++ [q'.slot q.queueTail] := by
  rw [entries, hhead, htail]
  exact Ring.queue_push hroom hslot

theorem full_iff : incrementQueuePointer q.queueTail = q.queueHead ↔ q.entries.length = queueSize - 1 := by
  rw [incrementQueuePointer_eq, length_entries]
  constructor
  · intro h
    rw [← h, Ring.dist_next_self]
  · intro h
    by_contra hne
    have hlt := Ring.dist_lt q.queueHead (Ring.next q.queueTail)
    rw [Ring.dist_next_right hne] at hlt
    unfold queueSize at *
    omega

theorem calcQueueLength_eq : q.calcQueueLength = q.entries.length := by
  rw [length_entries, calcQueueLength, Ring.dist]
  rfl

/-- What `add_buffer_to_queue` does: it refuses what there is no room for, and
otherwise puts the bytes at the end. -/
theorem addBufferToQueue_cases (h : q.addBufferToQueue addr buffer len = (rc, q')) :
    (rc = tockFail ∧ q.entries.length = queueSize - 1 ∧ q' = q) ∨
    (rc = tockEnomem ∧ q.entries.length ≠ queueSize - 1 ∧ bufferSize < len.toNat ∧ q' = q) ∨
    (rc = 0 ∧ q.entries.length ≠ queueSize - 1 ∧ len.toNat ≤ bufferSize ∧
      q'.entries = q.entries ++ [⟨addr, buffer.read 0 len.toNat⟩] ∧ q'.queueHead = q.queueHead) := by
  unfold addBufferToQueue at h
  split at h
  · next hfull =>
    cases h
    exact .inl ⟨rfl, full_iff.mp hfull, rfl⟩
  · next hroom =>
    split at h
    · next hlen =>
      obtain ⟨rfl, hq⟩ := Prod.mk.inj h
      rw [incrementQueuePointer_eq] at hroom hq
      have hhead : q'.queueHead = q.queueHead := by rw [← hq]
      have htail : q'.queueTail = Ring.next q.queueTail := by rw [← hq]
      have hslot : ∀ i, i ≠ q.queueTail → q'.slot i = q.slot i := fun i hi => by rw [← hq]; simp [slot, hi]
      have hnew : q'.slot q.queueTail = ⟨addr, buffer.read 0 len.toNat⟩ := by
        have hcopy := Mem.read_copy (q.dataQueue q.queueTail) 0 (buffer.read 0 len.toNat)
        rw [Mem.length_read] at hcopy
        rw [← hq]
        simp [slot, hcopy]
      refine .inr (.inr ⟨rfl, ?_, hlen, ?_, hhead⟩)
      · rw [Ne, ← full_iff, incrementQueuePointer_eq]
        exact hroom
      · rw [entries_push hroom hhead htail hslot, hnew]
    · next hlen =>
      cases h
      exact .inr (.inl ⟨rfl, fun hf => hroom (full_iff.mpr hf), Nat.not_le.mp hlen, rfl⟩)

/-- The code it returns, an `int8_t`. -/
theorem addBufferToQueue_rc (h : q.addBufferToQueue addr buffer len = (rc, q')) : -10 < rc ∧ rc ≤ 0 := by
  rcases addBufferToQueue_cases h with ⟨rfl, -⟩ | ⟨rfl, -⟩ | ⟨rfl, -⟩ <;> decide

end Queue

namespace Queue

variable {bufferSize : Nat}

/-- 0 says that all of the message is queued, and an error that nothing is. -/
def Truthful (q q' : Queue bufferSize) (reply : Reply) (source : UInt8) (message : Bytes) : Prop :=
  (reply.errorCode = 0 ∧ q'.entries = q.entries ++ [⟨source, message⟩]) ∨ (reply.errorCode < 0 ∧ q' = q)

end Queue

/-! ## Answers to publishes -/

section
variable {bufferSize : Nat} {q : Queue bufferSize} {sourceAddress frameType : UInt8}
  {messageLength : UInt32}
  {message : Mem UInt8}

/-- A publish is answered with what `add_buffer_to_queue` returns, for the length's last byte. -/
theorem networkingApiCallback_publish (hframe : frameType = notificationFrame ∨ frameType = commandFrame) :
    networkingApiCallback q sourceAddress frameType networkingPublishMessage messageLength message =
      (some (signpostNetworkingPublishReply sourceAddress
          (q.addBufferToQueue sourceAddress message messageLength.toUInt8).1),
        (q.addBufferToQueue sourceAddress message messageLength.toUInt8).2) := by
  rw [networkingApiCallback, if_pos ⟨hframe, rfl⟩]

theorem read_last_byte (message : Mem UInt8) :
    message.read 0 messageLength.toUInt8.toNat = message.read 0 messageLength.toNat ↔
    messageLength.toNat < 256 := by
  have hmod : messageLength.toUInt8.toNat = messageLength.toNat % 256 := UInt32.toNat_toUInt8 messageLength
  constructor
  · intro h
    have hlen := congrArg List.length h
    rw [Mem.length_read, Mem.length_read] at hlen
    omega
  · intro h
    rw [hmod, Nat.mod_eq_of_lt h]

/-- A publish is answered truthfully exactly when its length fits a byte, or it
is refused anyway. -/
theorem networkingApiCallback_truthful_iff (q : Queue 128)
    (hframe : frameType = notificationFrame ∨ frameType = commandFrame) :
    (∃ reply, (networkingApiCallback q sourceAddress frameType networkingPublishMessage messageLength message).1 =
        some reply ∧
      q.Truthful (networkingApiCallback q sourceAddress frameType networkingPublishMessage messageLength message).2
        reply sourceAddress (message.read 0 messageLength.toNat)) ↔
      incrementQueuePointer q.queueTail = q.queueHead ∨ messageLength.toNat < 256 ∨
      128 < messageLength.toNat % 256 := by
  rw [networkingApiCallback_publish hframe]
  obtain ⟨rc, q', hadd⟩ : ∃ rc q', q.addBufferToQueue sourceAddress message messageLength.toUInt8 =
    (rc, q') :=
    ⟨_, _, rfl⟩
  obtain ⟨hlow, hhigh⟩ := Queue.addBufferToQueue_rc hadd
  have hcode : (signpostNetworkingPublishReply sourceAddress rc).errorCode = rc :=
    errorCode_publishReply (by omega) (by omega)
  have hmod : messageLength.toUInt8.toNat = messageLength.toNat % 256 := UInt32.toNat_toUInt8 messageLength
  simp only [hadd, Option.some.injEq, exists_eq_left', Queue.Truthful, hcode]
  rcases Queue.addBufferToQueue_cases hadd with ⟨hrc, hfull, hq⟩ | ⟨hrc, -, hlong, hq⟩ | ⟨hrc, hroom,
    hlen, hq, -⟩
  · have hneg : rc < 0 := by rw [hrc]; decide
    exact iff_of_true (.inr ⟨hneg, hq⟩) (.inl (Queue.full_iff.mpr hfull))
  · have hneg : rc < 0 := by rw [hrc]; decide
    exact iff_of_true (.inr ⟨hneg, hq⟩) (.inr (.inr (by omega)))
  · have hnot : ¬ incrementQueuePointer q.queueTail = q.queueHead := fun h => hroom (Queue.full_iff.mp h)
    have hwhole := @read_last_byte messageLength message
    have hnotlong : ¬ 128 < messageLength.toNat % 256 := by omega
    simp only [hrc, hq, true_and, List.append_cancel_left_eq, List.cons.injEq, Entry.mk.injEq,
      and_true, hwhole, Int.lt_irrefl, false_and, or_false, hnot, false_or, hnotlong]

/-- A publish of two bytes is queued, and the reply says so. -/
theorem networkingApiCallback_truthful_iff_command :
    ∃ reply, (networkingApiCallback (Queue.empty : Queue 128) 0x31 commandFrame networkingPublishMessage 2
        (Mem.ofList [5, 7] 0)).1 = some reply ∧
      (Queue.empty : Queue 128).Truthful
        (networkingApiCallback (Queue.empty : Queue 128) 0x31 commandFrame networkingPublishMessage 2
          (Mem.ofList [5, 7] 0)).2
        reply 0x31 ((Mem.ofList [5, 7] 0).read 0 2) :=
  (networkingApiCallback_truthful_iff Queue.empty (.inr rfl)).mpr (.inr (.inl (by decide)))

/-- A publish of 256 bytes is answered with 0, and what is queued is empty. -/
theorem publish_cut : ¬ ∀ (q : Queue 128) (sourceAddress frameType : UInt8) (messageLength : UInt32)
    (message : Mem UInt8),
    frameType = notificationFrame ∨ frameType = commandFrame →
    ∃ reply, (networkingApiCallback q sourceAddress frameType networkingPublishMessage messageLength message).1 =
        some reply ∧
      q.Truthful (networkingApiCallback q sourceAddress frameType networkingPublishMessage messageLength message).2
        reply sourceAddress (message.read 0 messageLength.toNat) := by
  intro h
  obtain ⟨reply, hreply, hwhole⟩ := h Queue.empty 0x31 commandFrame 256 (fun _ => 0) (.inr rfl)
  have hcode : reply.errorCode = 0 := by
    rw [← Option.some.inj hreply]
    decide +kernel
  rcases hwhole with ⟨-, hq⟩ | ⟨hneg, -⟩
  · have hlen := congrArg (fun l => l.map fun e => e.bytes.length) hq
    revert hlen
    decide +kernel
  · omega

end

end Signpost
