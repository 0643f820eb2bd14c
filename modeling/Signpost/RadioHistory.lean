/-
What the queue of a radio has taken in and let go since the radio started.

A history has all messages the queue accepted, in order, and how many of them
have left it; a packet is of the messages at positions of that list. `Sim` is
what relates a radio to its history between two steps.

That a step keeps the relation is shown once for each part of the timer
callback, and used by every result about what a radio sends, in order or once.
-/
import Signpost.Radio

namespace Signpost

open Lib

def Entry.framed (e : Entry) : Bytes := batchEntry (UInt8.ofNat e.bytes.length) e.bytes

inductive Via
  | lora
  | cellular
  deriving DecidableEq

/-- What is in a packet of these messages. -/
def Firmware.packet (f : Firmware) (sn : UInt8) (es : List Entry) : Via → Bytes
  | .lora => f.header sn ++ es.flatMap Entry.bytes
  | .cellular => f.header sn ++ es.flatMap Entry.framed

/-- A packet being sent, and the positions its messages are at. -/
structure Sending where
  via : Via
  packet : Bytes
  first : Nat
  last : Nat

structure History where
  accepted : List Entry
  taken : Nat
  sn : UInt8
  sending : Option Sending

namespace History

/-- A radio that has started, after all these messages. -/
def restart (accepted : List Entry) : History := ⟨accepted, accepted.length, 0, none⟩

def init : History := restart []

def queued (h : History) : List Entry := h.accepted.drop h.taken

/-- The messages from a position up to another. -/
def part (h : History) (first last : Nat) : List Entry := (h.accepted.drop first).take (last - first)

/-- A packet is made of the first messages of the queue, if it has any. -/
def form (h : History) (via : Via) (packet : Bytes) (count : Nat) : History :=
  { h with sending := if h.taken < h.accepted.length then some ⟨via, packet, h.taken, h.taken + count⟩ else none }

/-- What an action makes of a history. -/
def next (h : History) : Action → History
  | .add e rc => if rc = 0 then { h with accepted := h.accepted ++ [e] } else h
  | .lora packet => h.form .lora packet 1
  | .post cellBuffer count => h.form .cellular cellBuffer count
  | .sent _ => { h with taken := h.sending.elim h.taken Sending.last, sn := h.sn + 1, sending := none }
  | .failed => { h with sending := none }
  | .reply _ | .report _ _ => h

def run (h : History) (as : List Action) : History := as.foldl next h

/-- The packet being sent is of the messages at its positions. -/
structure Sound (f : Firmware) (h : History) (s : Sending) : Prop where
  first_lt : s.first < s.last
  last_le : s.last ≤ h.accepted.length
  first_le : s.first ≤ h.taken
  lora : s.via = .lora → s.last = s.first + 1
  packet : ∃ sn, s.packet = f.packet sn (h.part s.first s.last) s.via

/-- What an action of a radio is when it has this history. -/
def Fits (f : Firmware) (h : History) : Action → Prop
  | .add e rc =>
    (rc = 0 ∧ h.queued.length < queueSize - 1 ∧ e.bytes.length ≤ f.bufferSize) ∨
    (rc < 0 ∧ (h.queued.length = queueSize - 1 ∨ f.bufferSize < e.bytes.length))
  | .lora packet =>
    h.sending = none ∧ (h.taken < h.accepted.length → packet = f.packet h.sn (h.part h.taken (h.taken + 1)) .lora)
  | .post cellBuffer count =>
    h.sending = none ∧ (h.taken < h.accepted.length → 0 < count ∧ h.taken + count ≤ h.accepted.length ∧
      cellBuffer = f.packet h.sn (h.part h.taken (h.taken + count)) .cellular)
  | .sent packet => ∃ s, h.sending = some s ∧ s.packet = packet ∧ Sound f h s
  | _ => True

def Allows (f : Firmware) : History → List Action → Prop
  | _, [] => True
  | h, a :: as => Fits f h a ∧ Allows f (h.next a) as

variable {f : Firmware} {h : History} {s : Sending} {e : Entry} {as : List Action}

@[simp] theorem run_nil : h.run [] = h := rfl

@[simp] theorem run_cons {a : Action} : h.run (a :: as) = (h.next a).run as := rfl

theorem next_add_sending {rc : Int} : (h.next (.add e rc)).sending = h.sending := by
  rw [next]
  split <;> rfl

theorem next_add_taken {rc : Int} : (h.next (.add e rc)).taken = h.taken := by
  rw [next]
  split <;> rfl

theorem sending_form {via : Via} {packet : Bytes} {count : Nat} (hlt : h.taken < h.accepted.length) :
    (h.form via packet count).sending = some ⟨via, packet, h.taken, h.taken + count⟩ := if_pos hlt

theorem form_sending {via : Via} {packet : Bytes} {count : Nat}
    (hs : (h.form via packet count).sending = some s) :
    h.taken < h.accepted.length ∧ s = ⟨via, packet, h.taken, h.taken + count⟩ := by
  simp only [form] at hs
  split at hs
  · next hlt =>
    cases hs
    exact ⟨hlt, rfl⟩
  · cases hs

theorem part_append {first last : Nat} (hlast : last ≤ h.accepted.length) :
    part { h with accepted := h.accepted ++ [e] } first last = h.part first last := by
  by_cases hle : first ≤ last
  · rw [part, part, List.drop_append_of_le_length (by omega), List.take_append_of_le_length]
    simp
    omega
  · rw [part, part, Nat.sub_eq_zero_of_le (by omega), List.take_zero, List.take_zero]

theorem part_one (hlt : h.taken < h.accepted.length) :
    h.part h.taken (h.taken + 1) = [h.accepted[h.taken]] := by
  rw [part, Nat.add_sub_cancel_left, List.drop_eq_getElem_cons hlt]
  rfl

theorem part_taken (count : Nat) : h.part h.taken (h.taken + count) = h.queued.take count := by
  rw [part, queued, Nat.add_sub_cancel_left]

/-- No more has left than was accepted, and what is being sent was. -/
structure Ok (f : Firmware) (h : History) : Prop where
  taken_le : h.taken ≤ h.accepted.length
  sound : ∀ s, h.sending = some s → Sound f h s

theorem Sound.append (hs : Sound f h s) : Sound f { h with accepted := h.accepted ++ [e] } s where
  first_lt := hs.first_lt
  last_le := by
    rw [List.length_append]
    exact Nat.le_add_right_of_le hs.last_le
  first_le := hs.first_le
  lora := hs.lora
  packet := by
    rw [part_append hs.last_le]
    exact hs.packet

theorem Ok.append (hok : Ok f h) : Ok f { h with accepted := h.accepted ++ [e] } where
  taken_le := by
    rw [List.length_append]
    exact Nat.le_add_right_of_le hok.taken_le
  sound := fun s hsend => (hok.sound s hsend).append

theorem Ok.form {via : Via} {packet : Bytes} {count : Nat} (hok : Ok f h) (hone : via = .lora → count = 1)
    (hpacket : h.taken < h.accepted.length → 0 < count ∧ h.taken + count ≤ h.accepted.length ∧
      packet = f.packet h.sn (h.part h.taken (h.taken + count)) via) : Ok f (h.form via packet count) where
  taken_le := hok.taken_le
  sound := fun s hs => by
    obtain ⟨hlt, rfl⟩ := form_sending hs
    obtain ⟨hpos, hle, heq⟩ := hpacket hlt
    exact ⟨by simp only; omega, hle, Nat.le_refl _, fun hv => by simp only [hone hv], h.sn, heq⟩

theorem Ok.idle {taken : Nat} {sn : UInt8} (hle : taken ≤ h.accepted.length) :
    Ok f { h with taken, sn, sending := none } where
  taken_le := hle
  sound := fun s hs => by cases hs

theorem Ok.next {a : Action} (hok : Ok f h) (hfits : Fits f h a) : Ok f (h.next a) := by
  cases a with
  | add e rc =>
    rw [History.next]
    split
    · exact hok.append
    · exact hok
  | lora packet => exact hok.form (fun _ => rfl) fun hlt => ⟨Nat.one_pos, hlt, hfits.2 hlt⟩
  | post cellBuffer count => exact hok.form (fun hv => by cases hv) hfits.2
  | sent packet =>
    obtain ⟨s, hsend, -, hs⟩ := hfits
    rw [History.next, hsend]
    exact .idle hs.last_le
  | failed => exact .idle hok.taken_le
  | reply | report => exact hok

end History

/-! ## Packets of the queue -/

theorem Firmware.length_header (f : Firmware) (sn : UInt8) : (f.header sn).length = 7 := by
  rw [Firmware.header, List.length_append, f.length_address]
  rfl

namespace Queue

variable {bufferSize k : Nat} {q : Queue bufferSize} {f : Firmware}

theorem length_slot (q : Queue bufferSize) (i : Fin queueSize) :
    (q.slot i).bytes.length = (q.dataLength i).toNat :=
  Mem.length_read _ _ _

theorem framed_slot (q : Queue bufferSize) (i : Fin queueSize) :
    (q.slot i).framed = batchEntry (q.dataLength i) (q.slot i).bytes := by
  rw [Entry.framed, length_slot, UInt8.ofNat_toNat]

theorem entries_skip (hk : k ≤ q.entries.length) :
    entries { q with queueHead := Ring.skip k q.queueHead } = q.entries.drop k := by
  rw [length_entries] at hk
  have hrun : Ring.queue q.slot q.queueHead q.queueTail = _ := Ring.queue_skip hk
  show Ring.queue q.slot _ _ = (Ring.queue q.slot _ _).drop k
  rw [hrun, List.drop_left' Ring.length_run]

theorem take_entries (hk : k ≤ q.entries.length) : q.entries.take k = Ring.run q.slot k q.queueHead := by
  rw [length_entries] at hk
  rw [entries, Ring.queue_skip hk, List.take_left' Ring.length_run]

theorem loraPacket_eq (q : Queue bufferSize) {header : Bytes} (hlen : header.length = 7) :
    q.loraPacket header = header ++ (q.slot q.queueHead).bytes := by
  have hle := q.length_le q.queueHead
  rw [loraPacket, List.take_append, hlen, List.take_of_length_le (by omega), Mem.take_read]
  simp only [slot]
  congr 2
  omega

/-- There is room in a batch for another message like the one at the head. -/
def HasRoom (q : Queue bufferSize) (used : Nat) : Prop := used + 2 + (q.dataLength q.queueHead).toNat < cellPostSize

/-- The loop that fills a batch adds messages from `temp_head` on, up to the tail or
until there is no room. -/
theorem fill_spec {fuel : Nat} {b : Batch} (hne : b.tempHead ≠ q.queueTail)
    (hfuel : Ring.dist b.tempHead q.queueTail ≤ fuel) :
    ∃ k ≤ Ring.dist b.tempHead q.queueTail,
      (q.fill fuel b).cellBuffer = b.cellBuffer ++ (Ring.run q.slot k b.tempHead).flatMap Entry.framed ∧
      (q.fill fuel b).tempHead = Ring.skip k b.tempHead ∧ (q.fill fuel b).count = b.count + k ∧
      (∀ j < k, q.HasRoom (b.cellBuffer ++ (Ring.run q.slot j b.tempHead).flatMap Entry.framed).length) ∧
      (k = Ring.dist b.tempHead q.queueTail ∨
        ¬ q.HasRoom (b.cellBuffer ++ (Ring.run q.slot k b.tempHead).flatMap Entry.framed).length) := by
  induction fuel generalizing b with
  | zero => exact absurd (Ring.dist_eq_zero.mp (Nat.le_zero.mp hfuel)) hne
  | succ fuel ih =>
    have hdist := Ring.dist_next_left hne
    have hput : (q.put b).cellBuffer = b.cellBuffer ++ (q.slot b.tempHead).framed := by
      rw [framed_slot]
      rfl
    have hnext : (q.put b).tempHead = Ring.next b.tempHead := incrementQueuePointer_eq _
    unfold fill
    by_cases hroom : b.cellBuffer.length + 2 + (q.dataLength q.queueHead).toNat < cellPostSize
    · have hfirst : q.HasRoom (b.cellBuffer ++ (Ring.run q.slot 0 b.tempHead).flatMap Entry.framed).length := by
        simpa [Ring.run, HasRoom] using hroom
      rw [if_pos hroom]
      by_cases hend : (q.put b).tempHead = q.queueTail
      · have hone : Ring.dist b.tempHead q.queueTail = 1 := by
          rw [hdist, ← hnext, Ring.dist_eq_zero.mpr hend]
        rw [if_pos hend]
        refine ⟨1, by omega, ?_, hnext, rfl, fun j hj => ?_, .inl hone.symm⟩
        · rw [hput]
          simp [Ring.run]
        · rw [Nat.lt_one_iff.mp hj]
          exact hfirst
      · rw [if_neg hend]
        obtain ⟨k, hk, hbuf, htemp, hcount, hrooms, hstop⟩ := ih hend (by rw [hnext]; omega)
        -- the messages that are added then come after this one
        have hrest : ∀ j, (q.put b).cellBuffer ++ (Ring.run q.slot j (q.put b).tempHead).flatMap Entry.framed =
            b.cellBuffer ++ (Ring.run q.slot (j + 1) b.tempHead).flatMap Entry.framed := by
          intro j
          rw [hput, hnext]
          simp [Ring.run]
        refine ⟨k + 1, by rw [hnext] at hk; omega, hbuf.trans (hrest k), ?_, ?_, fun j hj => ?_, ?_⟩
        · rw [htemp, hnext]
          rfl
        · have hone : (q.put b).count = b.count + 1 := rfl
          omega
        · cases j with
          | zero => exact hfirst
          | succ j => exact hrest j ▸ hrooms j (Nat.lt_of_succ_lt_succ hj)
        · rcases hstop with rfl | hfull
          · exact .inl (by rw [hdist, hnext])
          · exact .inr (hrest k ▸ hfull)
    · rw [if_neg hroom]
      refine ⟨0, Nat.zero_le _, by simp [Ring.run], rfl, rfl, fun j hj => absurd hj (Nat.not_lt_zero j), .inr ?_⟩
      simpa [Ring.run, HasRoom] using hroom

theorem fill_room {header : Bytes} {counts : PacketCounts} (hne : q.queueHead ≠ q.queueTail) :
    ∃ k ≤ q.entries.length,
      (q.fill queueSize ⟨header, q.queueHead, counts, 0⟩).cellBuffer =
        header ++ (q.entries.take k).flatMap Entry.framed ∧
      (q.fill queueSize ⟨header, q.queueHead, counts, 0⟩).tempHead = Ring.skip k q.queueHead ∧
      (q.fill queueSize ⟨header, q.queueHead, counts, 0⟩).count = k ∧
      (∀ j < k, q.HasRoom (header ++ (q.entries.take j).flatMap Entry.framed).length) ∧
      (k = q.entries.length ∨ ¬ q.HasRoom (header ++ (q.entries.take k).flatMap Entry.framed).length) := by
  obtain ⟨k, hk, hbuf, htemp, hcount, hrooms, hstop⟩ :=
    @fill_spec _ q queueSize ⟨header, q.queueHead, counts, 0⟩ hne (Nat.le_of_lt (Ring.dist_lt _ _))
  rw [← length_entries] at hk hstop
  refine ⟨k, hk, ?_, htemp, hcount.trans (Nat.zero_add k), fun j hj => ?_, ?_⟩
  · rw [hbuf, take_entries hk]
  · rw [take_entries (Nat.le_trans (Nat.le_of_lt hj) hk)]
    exact hrooms j hj
  · rw [take_entries hk]
    exact hstop

theorem fill_head {header : Bytes} {counts : PacketCounts} (hlen : header.length = 7)
    (hne : q.queueHead ≠ q.queueTail) :
    ∃ k, 0 < k ∧ k ≤ q.entries.length ∧
      (q.fill queueSize ⟨header, q.queueHead, counts, 0⟩).cellBuffer =
        header ++ (q.entries.take k).flatMap Entry.framed ∧
      (q.fill queueSize ⟨header, q.queueHead, counts, 0⟩).tempHead = Ring.skip k q.queueHead ∧
      (q.fill queueSize ⟨header, q.queueHead, counts, 0⟩).count = k := by
  obtain ⟨k, hk, hbuf, htemp, hcount, -, hstop⟩ := @fill_room _ q header counts hne
  refine ⟨k, Nat.pos_of_ne_zero ?_, hk, hbuf, htemp, hcount⟩
  rintro rfl
  rcases hstop with hnone | hfull
  · exact hne (entries_eq_nil.mp (List.length_eq_zero_iff.mp hnone.symm))
  · have hsmall := (q.dataLength q.queueHead).toNat_lt
    refine hfull ?_
    simp only [HasRoom, List.take_zero, List.flatMap_nil, List.append_nil, hlen, cellPostSize]
    omega

end Queue

/-! ## A radio and its history -/

/-- The callback is in its report part, or at its end. -/
def Stage.Reports : Stage → Prop
  | .querying .. | .reporting _ | .resetting _ => True
  | _ => False

/-- What the callback waits for while it is sending, and what its history says of it. -/
def Stage.Sends (head : Fin queueSize) (h : History) : Stage → Prop
  | .checking | .rechecking | .receiving => h.sending = none
  | .sending packet | .succeeding packet => ∀ s, h.sending = some s → s.via = .lora ∧ s.packet = packet
  | .failing => True
  | .posting cellBuffer tempHead | .responding cellBuffer tempHead =>
    ∀ s, h.sending = some s → s.via = .cellular ∧ s.packet = cellBuffer ∧
      (h.taken ≤ s.last → Ring.skip (s.last - h.taken) head = tempHead)
  | _ => False

/-- Where the callbacks are that have not ended: all but the last report. -/
inductive Waits (head : Fin queueSize) (h : History) : Bool → List Stage → Prop
  | reports {stack} : h.sending = none → (∀ g ∈ stack, g.Reports) → Waits head h false stack
  | sends {g stack} : g.Sends head h → (∀ g ∈ stack, g.Reports) → Waits head h true (g :: stack)

theorem Waits.congr {head : Fin queueSize} {h h' : History} {sends : Bool} {stack : List Stage}
    (hw : Waits head h sends stack) (hsending : h'.sending = h.sending) (htaken : h'.taken = h.taken) :
    Waits head h' sends stack := by
  cases hw with
  | reports hnone hreports => exact .reports (hsending.trans hnone) hreports
  | @sends g _ hsends hreports =>
    refine .sends ?_ hreports
    unfold Stage.Sends at *
    rw [hsending, htaken]
    exact hsends

/-- A queue holds what its history says it does. -/
structure Tied (f : Firmware) (q : Queue f.bufferSize) (sn : UInt8) (h : History) :
    Prop extends h.Ok f where
  entries : q.entries = h.queued
  sn : sn = h.sn

structure Sim {f : Firmware} (r : Radio f) (h : History) : Prop where
  tied : Tied f r.queue r.sn h
  waits : Waits r.queue.queueHead h r.currentlySending r.stack

/-- What the callback goes on with is still what its packet is of: a LoRa packet
of the message at the head, a batch of messages the head is not past. -/
def Stage.Steady (h : History) (a : Answer) : Stage → Prop
  | .succeeding _ => ∃ s, h.sending = some s ∧ s.first = h.taken
  | .responding _ _ => 0 ≤ a.ret ∧ Radio.postOk a.rbuf → ∃ s, h.sending = some s ∧ h.taken ≤ s.last
  | _ => True

def Radio.Steady {f : Firmware} (r : Radio f) (h : History) : Radio.Event → Prop
  | .resume a => ∀ g ∈ r.stack.head?, g.Steady h a
  | _ => True

/-! ## What the parts of the callback leave alone -/

namespace Radio

variable {f : Firmware} {malloc : Bool} {r : Radio f}

@[simp] theorem countSend_queue : (r.countSend malloc).queue = r.queue := by
  unfold countSend
  simp only
  split
  · split <;> rfl
  · rfl

@[simp] theorem countSend_sn : (r.countSend malloc).sn = r.sn := by
  unfold countSend
  simp only
  split
  · split <;> rfl
  · rfl

@[simp] theorem countSend_currentlySending : (r.countSend malloc).currentlySending =
    r.currentlySending := by
  unfold countSend
  simp only
  split
  · split <;> rfl
  · rfl

theorem countSend_stack : (r.countSend malloc).stack = r.stack ∨
    ∃ reps total, (r.countSend malloc).stack = .querying reps total :: r.stack := by
  unfold countSend
  simp only
  split
  · split
    · exact .inl rfl
    · exact .inr ⟨_, _, rfl⟩
  · exact .inl rfl

theorem countSend_reports (hreports : ∀ g ∈ r.stack, g.Reports) : ∀ g ∈ (r.countSend malloc).stack,
    g.Reports := by
  intro g hg
  rcases @countSend_stack f malloc r with hst | ⟨reps, total, hst⟩
  · exact hreports g (hst ▸ hg)
  · rw [hst] at hg
    rcases List.mem_cons.mp hg with rfl | hg
    · trivial
    · exact hreports g hg

/-- What the choice of a radio does: it goes on to the cellular network, sends a
LoRa packet of the message at the head, or ends. -/
theorem chooseRadio_cases {r' : Radio f} {as : List Action} (h : r.chooseRadio malloc = (r', as)) :
    (19 < r.queue.calcQueueLength ∧ r.cellularState = .success ∧
      r' = { r with stack := .rechecking :: r.stack } ∧ as = []) ∨
    (r.loraState = .joined ∧ as = [.lora (f.header r.sn ++ (r.queue.slot r.queue.queueHead).bytes)] ∧
      r' = { r with
        counts := countModulePacket r.counts (r.queue.dataAddress r.queue.queueHead)
        stack := .sending (f.header r.sn ++ (r.queue.slot r.queue.queueHead).bytes) :: r.stack }) ∨
    (r' = r.endSend malloc ∧ as = []) := by
  have hheader : (f.header r.sn).length = 7 := by
    rw [Firmware.header, List.length_append, f.length_address]
    rfl
  unfold chooseRadio at h
  rw [Queue.loraPacket_eq _ hheader] at h
  split at h
  · next hlong =>
    cases h
    exact .inl ⟨hlong.1, hlong.2, rfl, rfl⟩
  · split at h
    · next hjoined =>
      cases h
      exact .inr (.inl ⟨hjoined, rfl, rfl⟩)
    · cases h
      exact .inr (.inr ⟨rfl, rfl⟩)

/-- The timer finds a callback that is sending, starts to send, or starts at the report part. -/
theorem timerCallback_cases {r' : Radio f} {as : List Action} (h : r.timerCallback malloc = (r', as)) :
    (r' = r ∧ as = []) ∨
    (r.currentlySending = false ∧
      ((r.queue.queueHead ≠ r.queue.queueTail ∧
          ((r' = { r with currentlySending := true, stack := .checking :: r.stack } ∧ as = []) ∨
            chooseRadio malloc { r with currentlySending := true } = (r', as))) ∨
        (r' = r.countSend malloc ∧ as = []))) := by
  unfold timerCallback at h
  split at h
  · cases h
    exact .inl ⟨rfl, rfl⟩
  · next hidle =>
    refine .inr ⟨Bool.not_eq_true _ ▸ hidle, ?_⟩
    split at h
    · next hne =>
      refine .inl ⟨hne, ?_⟩
      split at h
      · cases h
        exact .inl ⟨rfl, rfl⟩
      · exact .inr h
    · cases h
      exact .inr ⟨rfl, rfl⟩

theorem putStatus_cases {r' : Radio f} {as : List Action} (h : r.putStatus = (r', as)) :
    ∃ status len rc q, r.queue.addBufferToQueue 0x22 status len = (rc, q) ∧
      as = [.add ⟨0x22, status.read 0 len.toNat⟩ rc] ∧
      r' = { r with statusSendBuf := status, queue := q, sendCounter := 0 } := by
  unfold putStatus at h
  cases h
  exact ⟨_, _, _, _, rfl, rfl, rfl⟩

theorem step_publish {sourceAddress frameType messageType : UInt8} {messageLength : UInt32}
    {message : Mem UInt8} {r' : Radio f} {as : List Action}
    (hpublish : (frameType = notificationFrame ∨ frameType = commandFrame) ∧ messageType = networkingPublishMessage)
    (h : r.step (.message sourceAddress frameType messageType messageLength message) = some (r', as)) :
    ∃ rc q, r.queue.addBufferToQueue sourceAddress message messageLength.toUInt8 = (rc, q) ∧
      as = [.add ⟨sourceAddress, message.read 0 messageLength.toUInt8.toNat⟩ rc,
        .reply (signpostNetworkingPublishReply sourceAddress rc)] ∧ r' = { r with queue := q } := by
  obtain ⟨rc, q, hadd⟩ : ∃ rc q, r.queue.addBufferToQueue sourceAddress message messageLength.toUInt8 = (rc, q) :=
    ⟨_, _, rfl⟩
  obtain ⟨hlow, hhigh⟩ := Queue.addBufferToQueue_rc hadd
  simp only [step, networkingApiCallback, if_pos hpublish, hadd] at h
  cases h
  rw [errorCode_publishReply (by omega) (by omega)]
  exact ⟨rc, q, hadd, rfl, rfl⟩

/-- What the callback does when it goes on from a stage, with the callbacks below it. -/
inductive Resumes (r : Radio f) (a : Answer) (stack : List Stage) : Stage → Radio f → List Action → Prop
  | choose {cellularState r' as} : chooseRadio a.malloc { r with cellularState, stack } = (r', as) →
      Resumes r a stack .checking r' as
  | noService : Resumes r a stack .rechecking
      { r with cellularState := .noService, currentlySending := false, stack } []
  | post {b} : r.queue.fill queueSize ⟨f.header r.sn, r.queue.queueHead, r.counts, 0⟩ = b →
      Resumes r a stack .rechecking { r with counts := b.counts, stack := .posting b.cellBuffer b.tempHead :: stack }
        [.post b.cellBuffer b.count]
  | posted {cellBuffer tempHead} : Resumes r a stack (.posting cellBuffer tempHead)
      { r with stack := .responding cellBuffer tempHead :: stack } []
  | batchSent {cellBuffer tempHead} : 0 ≤ a.ret ∧ postOk a.rbuf →
      Resumes r a stack (.responding cellBuffer tempHead)
        (endSend a.malloc { r with sn := r.sn + 1, queue := { r.queue with queueHead := tempHead }, stack })
        [.sent cellBuffer]
  | refused {packet failCounter} : Resumes r a stack (.sending packet)
      { r with failCounter, stack := .failing :: stack } []
  | succeeded {packet failCounter} : ¬ a.ret < 0 → Resumes r a stack (.sending packet)
      { r with failCounter, stack := .succeeding packet :: stack } []
  | failed {g loraState} : ¬ g.Reports → Resumes r a stack g
      (endSend a.malloc { r with loraState, stack }) [.failed]
  | sent {packet} : Resumes r a stack (.succeeding packet)
      { r with
        sn := r.sn + 1
        queue := { r.queue with queueHead := incrementQueuePointer r.queue.queueHead }
        stack := .receiving :: stack } [.sent packet]
  | received : Resumes r a stack .receiving (endSend a.malloc { r with stack }) []
  | reports {g g' as} : g.Reports → g'.Reports → as = [] ∨ (∃ n reps, as = [.report n reps]) →
      Resumes r a stack g { r with stack := g' :: stack } as
  | status {g counts r' as} : g.Reports → putStatus { r with counts, stack } = (r', as) →
      Resumes r a stack g r' as

theorem resume_cases {a : Answer} {r' : Radio f} {as : List Action} (h : r.resume a = some (r', as)) :
    ∃ g stack, r.stack = g :: stack ∧ Resumes r a stack g r' as := by
  unfold resume at h
  split at h
  · cases h
  · next stack hst => exact ⟨_, _, hst, .choose (Option.some.inj h)⟩
  · next stack hst =>
    split at h
    · cases h
      exact ⟨_, _, hst, .noService⟩
    · simp only at h
      split at h <;> cases h
      exact ⟨_, _, hst, .post rfl⟩
  · next cellBuffer tempHead stack hst =>
    split at h <;> cases h
    · exact ⟨_, _, hst, .failed id⟩
    · exact ⟨_, _, hst, .posted⟩
  · next cellBuffer tempHead stack hst =>
    split at h
    · next hok =>
      cases h
      exact ⟨_, _, hst, .batchSent hok⟩
    · cases h
      exact ⟨_, _, hst, .failed id⟩
  · next packet stack hst =>
    split at h
    · cases h
      exact ⟨_, _, hst, .refused⟩
    · next hok =>
      cases h
      exact ⟨_, _, hst, .succeeded hok⟩
  · next stack hst =>
    cases h
    exact ⟨_, _, hst, .failed id⟩
  · next packet stack hst =>
    cases h
    exact ⟨_, _, hst, .sent⟩
  · next stack hst =>
    cases h
    exact ⟨_, _, hst, .received⟩
  · next reps total stack hst =>
    split at h
    · exact ⟨_, _, hst, .status trivial (Option.some.inj h)⟩
    · cases h
      exact ⟨_, _, hst, .reports trivial trivial (.inr ⟨_, _, rfl⟩)⟩
  · next reps stack hst =>
    split at h
    · exact ⟨_, _, hst, .status trivial (Option.some.inj h)⟩
    · cases h
      exact ⟨_, _, hst, .reports trivial trivial (.inl rfl)⟩
  · next reps stack hst => exact ⟨_, _, hst, .status trivial (Option.some.inj h)⟩

end Radio

/-! ## A step keeps a radio and its history related -/

namespace Tied

variable {f : Firmware} {q q' : Queue f.bufferSize} {sn : UInt8} {h : History}

theorem length_queued (ht : Tied f q sn h) : h.taken + q.entries.length = h.accepted.length := by
  have hle := ht.taken_le
  rw [ht.entries, History.queued, List.length_drop]
  omega

theorem add {addr len : UInt8} {buffer : Mem UInt8} {rc : Int} (ht : Tied f q sn h)
    (hadd : q.addBufferToQueue addr buffer len = (rc, q')) :
    h.Fits f (.add ⟨addr, buffer.read 0 len.toNat⟩ rc) ∧
      Tied f q' sn (h.next (.add ⟨addr, buffer.read 0 len.toNat⟩ rc)) ∧ q'.queueHead = q.queueHead := by
  have hqueued : h.queued.length = q.entries.length := congrArg List.length ht.entries.symm
  have hbytes : (buffer.read 0 len.toNat).length = len.toNat := Mem.length_read _ _ _
  rcases Queue.addBufferToQueue_cases hadd with ⟨rfl, hfull, rfl⟩ | ⟨rfl, -, hlong, rfl⟩ | ⟨rfl,
    hroom, hlen, hq, hhead⟩
  · have hneg : tockFail < 0 := by decide
    refine ⟨.inr ⟨hneg, .inl (hqueued.trans hfull)⟩, ?_, rfl⟩
    rw [History.next, if_neg (Int.ne_of_lt hneg)]
    exact ht
  · have hneg : tockEnomem < 0 := by decide
    refine ⟨.inr ⟨hneg, .inr (Nat.lt_of_lt_of_eq hlong hbytes.symm)⟩, ?_, rfl⟩
    rw [History.next, if_neg (Int.ne_of_lt hneg)]
    exact ht
  · have hlt := q.length_entries_lt
    refine ⟨.inl ⟨rfl, by omega, Nat.le_trans (Nat.le_of_eq hbytes) hlen⟩, ?_, hhead⟩
    rw [History.next, if_pos rfl]
    refine ⟨ht.toOk.append, ?_, ht.sn⟩
    rw [hq, ht.entries, History.queued, History.queued, List.drop_append_of_le_length ht.taken_le]

theorem take {k : Nat} (ht : Tied f q sn h) (hk : h.taken + k ≤ h.accepted.length) :
    Tied f { q with queueHead := Ring.skip k q.queueHead } (sn + 1)
      { h with taken := h.taken + k, sn := h.sn + 1, sending := none } where
  toOk := .idle hk
  entries := by
    have hlen := ht.length_queued
    rw [Queue.entries_skip (by omega), ht.entries, History.queued, History.queued, List.drop_drop]
  sn := by rw [ht.sn]

theorem failed (ht : Tied f q sn h) : Tied f q sn { h with sending := none } :=
  ⟨.idle ht.taken_le, ht.entries, ht.sn⟩

theorem head_ne (ht : Tied f q sn h) : h.taken < h.accepted.length ↔ q.queueHead ≠ q.queueTail := by
  have hlen := ht.length_queued
  rw [Ne, ← Queue.entries_eq_nil, ← List.length_eq_zero_iff]
  omega

theorem slot_head (ht : Tied f q sn h) (hlt : h.taken < h.accepted.length) :
    q.slot q.queueHead = h.accepted[h.taken] := by
  have hcons := Queue.entries_cons (ht.head_ne.mp hlt)
  rw [ht.entries, History.queued, List.drop_eq_getElem_cons hlt] at hcons
  exact (List.cons.inj hcons).1.symm

end Tied

namespace Sim

variable {f : Firmware} {r r' : Radio f} {h : History} {malloc : Bool} {as : List Action}

theorem idle (hs : Sim r h) (hidle : r.currentlySending = false) :
    h.sending = none ∧ ∀ g ∈ r.stack, g.Reports := by
  have hwaits := hs.waits
  rw [hidle] at hwaits
  cases hwaits with
  | reports hsending hreports => exact ⟨hsending, hreports⟩

theorem countSend (hs : Sim r h) (hidle : r.currentlySending = false) : Sim (r.countSend malloc) h where
  tied := by
    rw [Radio.countSend_queue, Radio.countSend_sn]
    exact hs.tied
  waits := by
    obtain ⟨hsending, hreports⟩ := hs.idle hidle
    rw [Radio.countSend_currentlySending, hidle]
    exact .reports hsending (Radio.countSend_reports hreports)

theorem endSend (ht : Tied f r.queue r.sn h) (hsending : h.sending = none)
    (hstack : ∀ g ∈ r.stack, g.Reports) :
    Sim (r.endSend malloc) h :=
  countSend ⟨ht, .reports hsending hstack⟩ rfl

theorem chooseRadio (ht : Tied f r.queue r.sn h) (hsending : h.sending = none)
    (hsends : r.currentlySending = true) (hstack : ∀ g ∈ r.stack, g.Reports)
    (hc : r.chooseRadio malloc = (r', as)) :
    h.Allows f as ∧ Sim r' (h.run as) := by
  rcases Radio.chooseRadio_cases hc with ⟨-, -, rfl, rfl⟩ | ⟨-, rfl, rfl⟩ | ⟨rfl, rfl⟩
  · refine ⟨trivial, ht, ?_⟩
    rw [hsends]
    exact .sends hsending hstack
  · have hpacket : h.taken < h.accepted.length → f.header r.sn ++ (r.queue.slot r.queue.queueHead).bytes =
        f.packet h.sn (h.part h.taken (h.taken + 1)) .lora := fun hlt => by
      rw [ht.slot_head hlt, ht.sn, History.part_one hlt]
      simp [Firmware.packet]
    have hfits : h.Fits f (.lora (f.header r.sn ++ (r.queue.slot r.queue.queueHead).bytes)) :=
      ⟨hsending, hpacket⟩
    refine ⟨⟨hfits, trivial⟩, ⟨ht.toOk.next hfits, ht.entries, ht.sn⟩, ?_⟩
    rw [hsends]
    refine .sends (fun s hs => ?_) hstack
    obtain ⟨-, rfl⟩ := History.form_sending hs
    exact ⟨rfl, rfl⟩
  · exact ⟨trivial, endSend ht hsending hstack⟩

theorem timerCallback (hs : Sim r h) (hc : r.timerCallback malloc = (r', as)) :
    h.Allows f as ∧ Sim r' (h.run as) := by
  rcases Radio.timerCallback_cases hc with ⟨rfl, rfl⟩ | ⟨hidle, hrest⟩
  · exact ⟨trivial, hs⟩
  · obtain ⟨hsending, hreports⟩ := hs.idle hidle
    rcases hrest with ⟨-, ⟨rfl, rfl⟩ | hchoose⟩ | ⟨rfl, rfl⟩
    · exact ⟨trivial, hs.tied, .sends hsending hreports⟩
    · exact chooseRadio (r := { r with currentlySending := true }) hs.tied hsending rfl hreports hchoose
    · exact ⟨trivial, hs.countSend hidle⟩

theorem putStatus (hs : Sim r h) (hc : r.putStatus = (r', as)) : h.Allows f as ∧ Sim r' (h.run as) := by
  obtain ⟨status, len, rc, q, hadd, rfl, rfl⟩ := Radio.putStatus_cases hc
  obtain ⟨hfits, htied, hhead⟩ := hs.tied.add hadd
  refine ⟨⟨hfits, trivial⟩, htied, ?_⟩
  show Waits q.queueHead _ _ _
  rw [hhead]
  exact hs.waits.congr History.next_add_sending History.next_add_taken

/-! ### Going on -/

end Sim

section
variable {head : Fin queueSize} {h : History} {sends : Bool} {g : Stage} {stack : List Stage}

theorem Waits.below (hw : Waits head h sends (g :: stack)) : ∀ g ∈ stack, g.Reports := by
  cases hw with
  | reports hnone hreports => exact fun g hg => hreports g (List.mem_cons_of_mem _ hg)
  | sends hsends hreports => exact hreports

theorem Waits.of_reports (hg : g.Reports) (hw : Waits head h sends (g :: stack)) :
    sends = false ∧ h.sending = none ∧ ∀ g ∈ stack, g.Reports := by
  cases hw with
  | reports hnone hreports => exact ⟨rfl, hnone, fun g hg => hreports g (List.mem_cons_of_mem _ hg)⟩
  | sends hsends _ => cases g <;> first | exact False.elim hg | exact False.elim hsends

theorem Waits.of_sends (hg : ¬ g.Reports) (hw : Waits head h sends (g :: stack)) :
    sends = true ∧ g.Sends head h ∧ ∀ g ∈ stack, g.Reports := by
  cases hw with
  | reports hnone hreports => exact absurd (hreports g List.mem_cons_self) hg
  | sends hsends hreports => exact ⟨rfl, hsends, hreports⟩

end

namespace Sim

variable {f : Firmware} {r r' : Radio f} {h : History} {as : List Action}

theorem fill {q : Queue f.bufferSize} {sn : UInt8} (ht : Tied f q sn h) (counts : PacketCounts)
    (hlt : h.taken < h.accepted.length) :
    (0 < (q.fill queueSize ⟨f.header sn, q.queueHead, counts, 0⟩).count ∧
      h.taken + (q.fill queueSize ⟨f.header sn, q.queueHead, counts, 0⟩).count ≤ h.accepted.length ∧
      (q.fill queueSize ⟨f.header sn, q.queueHead, counts, 0⟩).cellBuffer = f.packet h.sn
        (h.part h.taken (h.taken + (q.fill queueSize ⟨f.header sn, q.queueHead, counts, 0⟩).count)) .cellular) ∧
    Ring.skip (q.fill queueSize ⟨f.header sn, q.queueHead, counts, 0⟩).count q.queueHead =
      (q.fill queueSize ⟨f.header sn, q.queueHead, counts, 0⟩).tempHead := by
  have hheader : (f.header sn).length = 7 := by
    rw [Firmware.header, List.length_append, f.length_address]
    rfl
  have hlen := ht.length_queued
  obtain ⟨k, hpos, hle, hbuf, htemp, hcount⟩ := @Queue.fill_head _ q _ counts hheader (ht.head_ne.mp hlt)
  rw [hbuf, htemp, hcount, History.part_taken, ht.entries, ht.sn]
  exact ⟨⟨hpos, by omega, rfl⟩, rfl⟩

theorem resume {a : Answer} (hs : Sim r h) (hsteady : r.Steady h (.resume a))
    (hc : r.resume a = some (r', as)) :
    h.Allows f as ∧ Sim r' (h.run as) := by
  have htied := hs.tied
  have hwaits := hs.waits
  obtain ⟨g, stack, hst, hres⟩ := Radio.resume_cases hc
  rw [Radio.Steady, hst] at hsteady
  rw [hst] at hwaits
  cases hres with
  | choose hchoose =>
    obtain ⟨hsends, hnone, hreports⟩ := hwaits.of_sends id
    exact chooseRadio (r := { r with cellularState := _, stack }) htied hnone hsends hreports hchoose
  | noService =>
    obtain ⟨-, hnone, hreports⟩ := hwaits.of_sends id
    exact ⟨trivial, htied, .reports hnone hreports⟩
  | post hb =>
    obtain ⟨hsends, hnone, hreports⟩ := hwaits.of_sends id
    have hfill := fill htied r.counts
    rw [hb] at hfill
    have hfits : h.Fits f (.post _ _) := ⟨hnone, fun hlt => (hfill hlt).1⟩
    refine ⟨⟨hfits, trivial⟩, ⟨htied.toOk.next hfits, htied.entries, htied.sn⟩, ?_⟩
    rw [hsends]
    refine .sends (fun s hsend => ?_) hreports
    obtain ⟨hlt, rfl⟩ := History.form_sending hsend
    refine ⟨rfl, rfl, fun _ => ?_⟩
    show Ring.skip (h.taken + _ - h.taken) _ = _
    rw [Nat.add_sub_cancel_left]
    exact (hfill hlt).2
  | posted =>
    obtain ⟨hsends, hpost, hreports⟩ := hwaits.of_sends id
    refine ⟨trivial, htied, ?_⟩
    rw [hsends]
    exact .sends hpost hreports
  | batchSent hok =>
    -- the head moves behind the batch, wherever it is in it now
    obtain ⟨-, hpost, hreports⟩ := hwaits.of_sends id
    obtain ⟨s, hsend, hle⟩ := hsteady _ rfl hok
    have hsound := htied.sound s hsend
    obtain ⟨-, hpacket, htemp⟩ := hpost s hsend
    have htake := htied.take (k := s.last - h.taken) (by have := hsound.last_le; omega)
    rw [htemp hle, Nat.add_sub_cancel' hle] at htake
    refine ⟨⟨⟨s, hsend, hpacket, hsound⟩, trivial⟩, ?_⟩
    rw [History.run_cons, History.run_nil, History.next, hsend]
    exact endSend htake rfl hreports
  | refused =>
    obtain ⟨hsends, -, hreports⟩ := hwaits.of_sends id
    refine ⟨trivial, htied, ?_⟩
    rw [hsends]
    exact .sends trivial hreports
  | succeeded =>
    obtain ⟨hsends, hlora, hreports⟩ := hwaits.of_sends id
    refine ⟨trivial, htied, ?_⟩
    rw [hsends]
    exact .sends hlora hreports
  | failed hg =>
    obtain ⟨-, -, hreports⟩ := hwaits.of_sends hg
    exact ⟨⟨trivial, trivial⟩, endSend htied.failed rfl hreports⟩
  | sent =>
    obtain ⟨hsends, hlora, hreports⟩ := hwaits.of_sends id
    obtain ⟨s, hsend, hfirst⟩ := hsteady _ rfl
    have hsound := htied.sound s hsend
    obtain ⟨hvia, hpacket⟩ := hlora s hsend
    have hlast := hsound.lora hvia
    have htake := htied.take (k := 1) (by have := hsound.last_le; omega)
    refine ⟨⟨⟨s, hsend, hpacket, hsound⟩, trivial⟩, ?_⟩
    rw [History.run_cons, History.run_nil, History.next, hsend]
    simp only [Option.elim, hlast, hfirst, incrementQueuePointer_eq]
    refine ⟨htake, ?_⟩
    rw [hsends]
    exact .sends rfl hreports
  | received =>
    obtain ⟨-, hnone, hreports⟩ := hwaits.of_sends id
    exact ⟨trivial, endSend htied hnone hreports⟩
  | @reports g g' as hg hg' has =>
    obtain ⟨hidle, hnone, hreports⟩ := hwaits.of_reports hg
    have hsim : Sim { r with stack := g' :: stack } h :=
      ⟨htied, hidle ▸ .reports hnone (List.forall_mem_cons.mpr ⟨hg', hreports⟩)⟩
    rcases has with rfl | ⟨n, reps, rfl⟩
    · exact ⟨trivial, hsim⟩
    · exact ⟨⟨trivial, trivial⟩, hsim⟩
  | @status g counts _ _ hg hput =>
    obtain ⟨hidle, hnone, hreports⟩ := hwaits.of_reports hg
    have hsim : Sim { r with counts, stack } h := ⟨htied, hidle ▸ .reports hnone hreports⟩
    exact hsim.putStatus hput

theorem step {e : Radio.Event} (hs : Sim r h) (hsteady : r.Steady h e) (hc : r.step e = some (r', as)) :
    h.Allows f as ∧ Sim r' (h.run as) := by
  cases e with
  | message sourceAddress frameType messageType messageLength message =>
    by_cases hpublish : (frameType = notificationFrame ∨ frameType = commandFrame) ∧
        messageType = networkingPublishMessage
    · obtain ⟨rc, q, hadd, rfl, rfl⟩ := Radio.step_publish hpublish hc
      obtain ⟨hfits, htied, hhead⟩ := hs.tied.add hadd
      refine ⟨⟨hfits, trivial, trivial⟩, htied, ?_⟩
      show Waits q.queueHead _ _ _
      rw [hhead]
      exact hs.waits.congr History.next_add_sending History.next_add_taken
    · simp only [Radio.step, networkingApiCallback, if_neg hpublish] at hc
      cases hc
      exact ⟨trivial, hs⟩
  | timer malloc => exact hs.timerCallback (Option.some.inj hc)
  | resume a => exact hs.resume hsteady hc
  | joinFailed | joined =>
    simp only [Radio.step] at hc
    split at hc
    · cases hc
      exact ⟨trivial, hs.tied, hs.waits⟩
    · cases hc

theorem boot {accepted : List Entry} : Sim (Radio.boot : Radio f) (.restart accepted) where
  tied :=
    { taken_le := Nat.le_refl _
      sound := fun _ hs => by cases hs
      entries := (List.drop_length).symm
      sn := rfl }
  waits := .reports rfl fun _ hg => by cases hg

end Sim

/-! ## What the callback was before -/

namespace Radio

variable {f : Firmware} {r r' : Radio f} {malloc : Bool} {as : List Action} {packet : Bytes}
  {stack : List Stage}

theorem chooseRadio_sent (hc : r.chooseRadio malloc = (r', as)) : .sent packet ∉ as := by
  rcases chooseRadio_cases hc with ⟨-, -, -, rfl⟩ | ⟨-, rfl, -⟩ | ⟨-, rfl⟩ <;> simp

theorem resume_sent {a : Answer} (hc : r.resume a = some (r', as)) (hsent : .sent packet ∈ as) :
    ∃ stack, r.stack = .succeeding packet :: stack ∨ ∃ tempHead,
    r.stack = .responding packet tempHead :: stack := by
  obtain ⟨g, stack, hst, hres⟩ := resume_cases hc
  cases hres with
  | choose hchoose => exact absurd hsent (chooseRadio_sent hchoose)
  | batchSent =>
    obtain rfl : packet = _ := by simpa using hsent
    exact ⟨stack, .inr ⟨_, hst⟩⟩
  | sent =>
    obtain rfl : packet = _ := by simpa using hsent
    exact ⟨stack, .inl hst⟩
  | reports hg hg' has => rcases has with rfl | ⟨n, reps, rfl⟩ <;> simp at hsent
  | status hg hput =>
    obtain ⟨_, _, _, _, -, rfl, -⟩ := putStatus_cases hput
    simp at hsent
  | _ => simp at hsent

theorem step_sent {e : Event} (hc : r.step e = some (r', as)) (hsent : .sent packet ∈ as) :
    ∃ a stack, e = .resume a ∧
      (r.stack = .succeeding packet :: stack ∨ ∃ tempHead,
      r.stack = .responding packet tempHead :: stack) := by
  cases e with
  | message sourceAddress frameType messageType messageLength message =>
    simp only [step] at hc
    split at hc <;> cases hc <;> simp at hsent
  | timer malloc =>
    rcases timerCallback_cases (Option.some.inj hc) with ⟨-, rfl⟩ | ⟨-, ⟨-, ⟨-, rfl⟩ | hchoose⟩ | ⟨-, rfl⟩⟩
    · cases hsent
    · cases hsent
    · exact absurd hsent (chooseRadio_sent hchoose)
    · cases hsent
  | resume a =>
    obtain ⟨stack, hst⟩ := resume_sent hc hsent
    exact ⟨a, stack, rfl, hst⟩
  | joinFailed | joined =>
    simp only [step] at hc
    split at hc <;> cases hc
    cases hsent

theorem putStatus_reports (hreports : ∀ g ∈ r.stack, g.Reports) (hc : r.putStatus = (r', as)) :
    ∀ g ∈ r'.stack, g.Reports := by
  obtain ⟨_, _, _, _, -, -, rfl⟩ := putStatus_cases hc
  exact hreports

theorem not_succeeding (hreports : ∀ g ∈ r'.stack, g.Reports) : r'.stack ≠ .succeeding packet :: stack :=
  fun hst => hreports (.succeeding packet) (hst ▸ List.mem_cons_self)

theorem chooseRadio_succeeding (hreports : ∀ g ∈ r.stack, g.Reports)
    (hc : r.chooseRadio malloc = (r', as)) :
    r'.stack ≠ .succeeding packet :: stack := by
  rcases chooseRadio_cases hc with ⟨-, -, rfl, -⟩ | ⟨-, -, rfl⟩ | ⟨rfl, -⟩
  · exact fun hst => by cases hst
  · exact fun hst => by cases hst
  · exact not_succeeding (countSend_reports hreports)

/-- The callback goes on after a success only when `xdot_send` has returned one. -/
theorem resume_succeeding {a : Answer} {h : History} (hs : Sim r h) (hc : r.resume a = some (r', as))
    (hst : r'.stack = .succeeding packet :: stack) :
    as = [] ∧ ¬ a.ret < 0 ∧ r.stack = .sending packet :: stack := by
  have hwaits := hs.waits
  obtain ⟨g, below, hbelow, hres⟩ := resume_cases hc
  rw [hbelow] at hwaits
  have hreports := hwaits.below
  cases hres with
  | choose hchoose => exact absurd hst (chooseRadio_succeeding hreports hchoose)
  | noService => exact absurd hst (not_succeeding hreports)
  | batchSent | failed | received => exact absurd hst (not_succeeding (countSend_reports hreports))
  | succeeded hok =>
    cases hst
    exact ⟨rfl, hok, hbelow⟩
  | reports hg hg' =>
    cases hst
    exact hg'.elim
  | status hg hput => exact absurd hst (not_succeeding (putStatus_reports hreports hput))
  | _ => cases hst

theorem step_succeeding {e : Event} {h : History} (hs : Sim r h) (hc : r.step e = some (r', as))
    (hst : r'.stack = .succeeding packet :: stack) :
    as.any Action.forms = false ∧ (r.stack = .succeeding packet :: stack ∨
      ∃ a, e = .resume a ∧ ¬ a.ret < 0 ∧ r.stack = .sending packet :: stack) := by
  cases e with
  | message sourceAddress frameType messageType messageLength message =>
    simp only [step] at hc
    split at hc <;> cases hc <;> exact ⟨rfl, .inl hst⟩
  | timer malloc =>
    rcases timerCallback_cases (Option.some.inj hc) with ⟨rfl, rfl⟩ | ⟨hidle, hrest⟩
    · exact ⟨rfl, .inl hst⟩
    · obtain ⟨-, hreports⟩ := hs.idle hidle
      rcases hrest with ⟨-, ⟨rfl, rfl⟩ | hchoose⟩ | ⟨rfl, rfl⟩
      · cases hst
      · exact absurd hst (chooseRadio_succeeding (r := { r with currentlySending := true }) hreports hchoose)
      · exact absurd hst (not_succeeding (countSend_reports hreports))
  | resume a =>
    obtain ⟨rfl, hok, hsending⟩ := resume_succeeding hs hc hst
    exact ⟨rfl, .inr ⟨a, rfl, hok, hsending⟩⟩
  | joinFailed | joined =>
    simp only [step] at hc
    split at hc <;> cases hc
    exact ⟨rfl, .inl hst⟩

end Radio

/-! ## Nothing else takes from the queue -/

/-- The packet the callback holds is of what is still at the head. -/
def Stage.Holds (h : History) : Stage → Prop
  | .checking | .rechecking => h.taken < h.accepted.length
  | .posting .. | .responding .. | .sending _ | .succeeding _ => ∃ s, h.sending = some s ∧ s.first = h.taken
  | _ => True

/-- So it is for the callback that is to go on. -/
def Holds (h : History) (stack : List Stage) : Prop := ∀ g ∈ stack.head?, g.Holds h

/-- A packet is made only when there is a message. -/
def Forms : History → List Action → Prop
  | _, [] => True
  | h, a :: as => (a.forms = true → h.taken < h.accepted.length) ∧ Forms (h.next a) as

section
variable {f : Firmware} {r r' : Radio f} {h : History} {malloc : Bool} {stack : List Stage}
  {as : List Action}

theorem Stage.Reports.holds {g : Stage} (hg : g.Reports) : g.Holds h := by
  cases g <;> trivial

theorem Forms.none (hnone : as.all fun a => !a.forms) : Forms h as := by
  induction as generalizing h with
  | nil => trivial
  | cons a as ih =>
    simp only [List.all_cons, Bool.and_eq_true, Bool.not_eq_true'] at hnone
    exact ⟨fun hforms => by simp [hnone.1] at hforms, ih hnone.2⟩

theorem Holds.of_reports (hreports : ∀ g ∈ stack, g.Reports) : Holds h stack :=
  fun g hg => (hreports g (List.mem_of_head? hg)).holds

theorem Holds.top {g : Stage} (hg : g.Holds h) : Holds h (g :: stack) := by
  intro g' hg'
  cases hg'
  exact hg

theorem Holds.of_top {g : Stage} (hh : Holds h (g :: stack)) : g.Holds h := hh g rfl

theorem Holds.add {e : Entry} {rc : Int} (hh : Holds h stack) : Holds (h.next (.add e rc)) stack := by
  intro g hg
  have hold := hh g hg
  have hle : h.accepted.length ≤ (h.next (.add e rc)).accepted.length := by
    rw [History.next]
    split
    · simp
    · exact Nat.le_refl _
  cases g <;> simp only [Stage.Holds, History.next_add_sending, History.next_add_taken] at hold ⊢ <;> omega

theorem Holds.steady {e : Radio.Event} (hs : Sim r h) (hh : Holds h r.stack) : r.Steady h e := by
  cases e with
  | resume a =>
    intro g hg
    have hold := hh g hg
    cases g with
    | succeeding packet => exact hold
    | responding cellBuffer tempHead =>
      obtain ⟨s, hsend, hfirst⟩ := hold
      have hlt := (hs.tied.sound s hsend).first_lt
      exact fun _ => ⟨s, hsend, by omega⟩
    | _ => trivial
  | _ => trivial

theorem Holds.countSend (hreports : ∀ g ∈ r.stack, g.Reports) : Holds h (r.countSend malloc).stack :=
  .of_reports (Radio.countSend_reports hreports)

theorem Holds.chooseRadio (hlt : h.taken < h.accepted.length) (hreports : ∀ g ∈ r.stack, g.Reports)
    (hc : r.chooseRadio malloc = (r', as)) : Forms h as ∧ Holds (h.run as) r'.stack := by
  rcases Radio.chooseRadio_cases hc with ⟨-, -, rfl, rfl⟩ | ⟨-, rfl, rfl⟩ | ⟨rfl, rfl⟩
  · exact ⟨.none rfl, .top hlt⟩
  · exact ⟨⟨fun _ => hlt, trivial⟩, .top ⟨_, History.sending_form hlt, rfl⟩⟩
  · exact ⟨.none rfl, countSend hreports⟩

theorem Holds.putStatus (hreports : ∀ g ∈ r.stack, g.Reports) (hc : r.putStatus = (r', as)) :
    Forms h as ∧ Holds (h.run as) r'.stack := by
  obtain ⟨status, len, rc, q, -, rfl, rfl⟩ := Radio.putStatus_cases hc
  exact ⟨.none rfl, .of_reports hreports⟩

theorem Holds.resume {a : Answer} (hs : Sim r h) (hh : Holds h r.stack) (hc : r.resume a = some (r', as)) :
    Forms h as ∧ Holds (h.run as) r'.stack := by
  have hwaits := hs.waits
  obtain ⟨g, stack, hst, hres⟩ := Radio.resume_cases hc
  rw [hst] at hwaits hh
  have hreports := hwaits.below
  cases hres with
  | choose hchoose => exact chooseRadio (r := { r with cellularState := _, stack }) hh.of_top hreports hchoose
  | noService => exact ⟨.none rfl, .of_reports hreports⟩
  | post => exact ⟨⟨fun _ => hh.of_top, trivial⟩, .top ⟨_, History.sending_form hh.of_top, rfl⟩⟩
  | posted | succeeded => exact ⟨.none rfl, .top hh.of_top⟩
  | batchSent | failed | received => exact ⟨.none rfl, countSend hreports⟩
  | refused | sent => exact ⟨.none rfl, .top trivial⟩
  | reports hg hg' has =>
    refine ⟨.none ?_, .top hg'.holds⟩
    rcases has with rfl | ⟨n, reps, rfl⟩ <;> rfl
  | status hg hput => exact putStatus (r := { r with counts := _, stack }) hreports hput

theorem Holds.step {e : Radio.Event} (hs : Sim r h) (hh : Holds h r.stack) (hc : r.step e = some (r', as)) :
    Forms h as ∧ Holds (h.run as) r'.stack := by
  cases e with
  | message sourceAddress frameType messageType messageLength message =>
    by_cases hpublish : (frameType = notificationFrame ∨ frameType = commandFrame) ∧
        messageType = networkingPublishMessage
    · obtain ⟨rc, q, hadd, rfl, rfl⟩ := Radio.step_publish hpublish hc
      exact ⟨.none rfl, hh.add⟩
    · simp only [Radio.step, networkingApiCallback, if_neg hpublish] at hc
      cases hc
      exact ⟨.none rfl, hh⟩
  | timer malloc =>
    rcases Radio.timerCallback_cases (Option.some.inj hc) with ⟨rfl, rfl⟩ | ⟨hidle, hrest⟩
    · exact ⟨.none rfl, hh⟩
    · obtain ⟨-, hreports⟩ := hs.idle hidle
      rcases hrest with ⟨hne, hrest⟩ | ⟨rfl, rfl⟩
      · have hlt := hs.tied.head_ne.mpr hne
        rcases hrest with ⟨rfl, rfl⟩ | hchoose
        · exact ⟨.none rfl, .top hlt⟩
        · exact chooseRadio (r := { r with currentlySending := true }) hlt hreports hchoose
      · exact ⟨.none rfl, countSend hreports⟩
  | resume a => exact hh.resume hs hc
  | joinFailed | joined =>
    simp only [Radio.step] at hc
    split at hc
    · cases hc
      exact ⟨.none rfl, hh⟩
    · cases hc

end

namespace History

variable {f : Firmware} {h : History} {a : Action} {as : List Action}

/-- What is being sent is of what is still at the head, with the number it has now. -/
def Still (f : Firmware) (h : History) : Prop :=
  ∀ s, h.sending = some s → s.first = h.taken ∧ s.packet = f.packet h.sn (h.part s.first s.last) s.via

theorem Still.next (hstill : h.Still f) (hok : h.Ok f) (hfits : h.Fits f a) : (h.next a).Still f := by
  intro s hs
  cases a with
  | add e rc =>
    rw [next_add_sending] at hs
    obtain ⟨hfirst, hpacket⟩ := hstill s hs
    refine ⟨hfirst.trans next_add_taken.symm, ?_⟩
    rw [next]
    split
    · rw [part_append (hok.sound s hs).last_le]
      exact hpacket
    · exact hpacket
  | lora packet =>
    obtain ⟨hlt, rfl⟩ := form_sending hs
    exact ⟨rfl, hfits.2 hlt⟩
  | post cellBuffer count =>
    obtain ⟨hlt, rfl⟩ := form_sending hs
    exact ⟨rfl, (hfits.2 hlt).2.2⟩
  | sent | failed => cases hs
  | reply | report => exact hstill s hs

theorem Still.run (hstill : h.Still f) (hok : h.Ok f) (hallows : h.Allows f as) : (h.run as).Still f := by
  induction as generalizing h with
  | nil => exact hstill
  | cons a as ih => exact ih (hstill.next hok hallows.1) (hok.next hallows.1) hallows.2

/-- Messages are accepted behind those that were, and leave from the front; the
number changes only when some leave. -/
structure Grows (h h' : History) : Prop where
  accepted : h.accepted <+: h'.accepted
  taken : h.taken ≤ h'.taken
  sn : h'.taken = h.taken → h'.sn = h.sn

theorem Grows.refl : Grows h h := ⟨List.prefix_rfl, Nat.le_refl _, fun _ => rfl⟩

theorem Grows.trans {h' h'' : History} (hg : Grows h h') (hg' : Grows h' h'') : Grows h h'' where
  accepted := hg.accepted.trans hg'.accepted
  taken := Nat.le_trans hg.taken hg'.taken
  sn := fun heq => by
    have hle := hg.taken
    have hle' := hg'.taken
    rw [hg'.sn (by omega), hg.sn (by omega)]

theorem Still.grows_next (hstill : h.Still f) (hfits : h.Fits f a) : Grows h (h.next a) := by
  cases a with
  | add e rc =>
    rw [History.next]
    split
    · exact ⟨List.prefix_append _ _, Nat.le_refl _, fun _ => rfl⟩
    · exact .refl
  | sent packet =>
    obtain ⟨s, hsend, -, hs⟩ := hfits
    have hlt := hs.first_lt
    have hfirst := (hstill s hsend).1
    rw [History.next, hsend]
    exact ⟨List.prefix_rfl, by simp only [Option.elim]; omega, fun heq => by simp only [Option.elim] at heq; omega⟩
  | lora | post | failed | reply | report => exact ⟨List.prefix_rfl, Nat.le_refl _, fun _ => rfl⟩

theorem Still.grows (hstill : h.Still f) (hok : h.Ok f) (hallows : h.Allows f as) : Grows h (h.run as) := by
  induction as generalizing h with
  | nil => exact .refl
  | cons a as ih =>
    exact (hstill.grows_next hallows.1).trans (ih (hstill.next hok hallows.1) (hok.next hallows.1) hallows.2)

end History

/-- A radio that nothing but its own callbacks takes from. -/
structure Alone {f : Firmware} (r : Radio f) (h : History) : Prop where
  sim : Sim r h
  holds : Holds h r.stack
  still : h.Still f

theorem Alone.step {f : Firmware} {r r' : Radio f} {h : History} {e : Radio.Event} {as : List Action}
    (hs : Alone r h) (hc : r.step e = some (r', as)) :
    h.Allows f as ∧ Forms h as ∧ Alone r' (h.run as) := by
  obtain ⟨hallows, hsim⟩ := hs.sim.step (hs.holds.steady hs.sim) hc
  obtain ⟨hforms, hholds⟩ := hs.holds.step hs.sim hc
  exact ⟨hallows, hforms, hsim, hholds, hs.still.run hs.sim.tied.toOk hallows⟩

theorem Alone.boot {f : Firmware} {accepted : List Entry} :
    Alone (Radio.boot : Radio f) (.restart accepted) where
  sim := .boot
  holds := fun _ hg => by cases hg
  still := fun _ hs => by cases hs

end Signpost
