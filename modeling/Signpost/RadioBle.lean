/-
`radio_app_ble`: besides what the timer callback sends, a central reads the
message at the head as a characteristic, and acknowledges it by a write.

The write event takes the message at the head off the queue, the timer callback
what its own packet was made of, or one message, each without a look at what the
other has taken meanwhile.

A history beside the radio says which messages were accepted and which are
recorded as transmitted. The invariant relates both to the queue between two
steps, with the callback in any of its waits, as long as no write takes what a
packet has taken.
-/
import Signpost.RadioHistory

namespace Signpost

open Lib

/-- A radio, and what a central makes of it. -/
structure BleRadio (f : Firmware) where
  radio : Radio f
  history : History
  addedQueue : Bool
  /-- The packet in `log_read_char`, and whether it was read. -/
  log : Option Sending
  read : Bool
  /-- The packets that were transmitted: acknowledged, or read. -/
  transmitted : List Sending

/-- The packets whose sends the actions acknowledge. -/
def History.acknowledged : History → List Action → List Sending
  | _, [] => []
  | h, a :: as => (if a.acknowledges then h.sending.toList else []) ++ (h.next a).acknowledged as

namespace BleRadio

variable {f : Firmware}

def boot : BleRadio f := ⟨.boot, .init, false, none, false, []⟩

inductive Event
  | radio (e : Radio.Event)
  /-- The central writes, and `simple_ble_stack_char_set` returns `rc` if it is called. -/
  | write (rc : Int)
  /-- The central reads `log_read_char`. -/
  | read

def step (s : BleRadio f) : Event → Option (BleRadio f)
  | .radio e =>
    (s.radio.step e).map fun (radio, as) =>
      { s with radio, history := s.history.run as, transmitted := s.transmitted ++ s.history.acknowledged as }
  | .write rc =>
    let (radio, addedQueue, packet) := s.radio.bleEvtWrite s.addedQueue
    let history : History :=
      if s.addedQueue then { s.history with taken := s.history.taken + 1, sn := s.history.sn + 1 }
        else s.history
    let s : BleRadio f := { s with radio, history, addedQueue }
    match packet with
    | none => some s
    | some packet =>
      some (if rc = 0 then
        { s with log := some ⟨.cellular, packet, history.taken, history.taken + 1⟩, read := false }
      else s)
  | .read => some { s with read := true, transmitted := s.transmitted ++ s.log.toList }

end BleRadio

/-! ## What is recorded as transmitted -/

/-- The packet is of the messages at its positions. -/
def Recorded (f : Firmware) (accepted : List Entry) (t : Sending) : Prop :=
  t.last ≤ accepted.length ∧ ∃ sn, t.packet = f.packet sn
    ((accepted.drop t.first).take (t.last - t.first)) t.via

/-- The message at a position is in a packet. -/
def Sending.Has (t : Sending) (i : Nat) : Prop := t.first ≤ i ∧ i < t.last

instance (t : Sending) : DecidablePred t.Has := fun i => by
  unfold Sending.Has
  infer_instance

section
variable {f : Firmware} {accepted accepted' : List Entry} {t : Sending} {h : History} {a : Action}
  {as : List Action}

theorem Recorded.mono (ht : Recorded f accepted t) (hle : accepted <+: accepted') :
    Recorded f accepted' t := by
  obtain ⟨hlast, sn, hpacket⟩ := ht
  obtain ⟨more, rfl⟩ := hle
  refine ⟨by rw [List.length_append]; omega, sn, ?_⟩
  by_cases hfirst : t.first ≤ t.last
  · rw [List.drop_append_of_le_length (by omega),
      List.take_append_of_le_length (by rw [List.length_drop]; omega)]
    exact hpacket
  · rw [hpacket, Nat.sub_eq_zero_of_le (by omega), List.take_zero, List.take_zero]

theorem History.Sound.recorded (hs : h.Sound f t) : Recorded f h.accepted t := ⟨hs.last_le, hs.packet⟩

theorem History.accepted_next : h.accepted <+: (h.next a).accepted := by
  cases a with
  | add e rc =>
    rw [next]
    split
    · exact List.prefix_append _ _
    · exact List.prefix_rfl
  | lora | post | sent | failed | reply | report => exact List.prefix_rfl

theorem History.accepted_run : h.accepted <+: (h.run as).accepted := by
  induction as generalizing h with
  | nil => exact List.prefix_rfl
  | cons a as ih => exact accepted_next.trans ih

theorem History.taken_next {i : Nat} (hfits : h.Fits f a) (hi : i < (h.next a).taken)
    (hnew : ¬ i < h.taken) :
    a.acknowledges = true ∧ ∃ t, h.sending = some t ∧ t.Has i := by
  cases a with
  | add e rc => exact absurd (next_add_taken ▸ hi) hnew
  | sent packet =>
    obtain ⟨t, hsend, -, ht⟩ := hfits
    rw [next, hsend] at hi
    have hle := ht.first_le
    exact ⟨rfl, t, hsend, by omega, hi⟩
  | lora | post | failed | reply | report => exact absurd hi hnew

theorem History.taken_run {i : Nat} (hok : h.Ok f) (hallows : h.Allows f as) (hi : i < (h.run as).taken) :
    i < h.taken ∨ ∃ t ∈ h.acknowledged as, t.Has i := by
  induction as generalizing h with
  | nil => exact .inl hi
  | cons a as ih =>
    rcases ih (hok.next hallows.1) hallows.2 hi with hnext | ⟨t, ht, hhas⟩
    · by_cases hold : i < h.taken
      · exact .inl hold
      · obtain ⟨hack, t, hsend, hhas⟩ := taken_next hallows.1 hnext hold
        refine .inr ⟨t, List.mem_append_left _ ?_, hhas⟩
        rw [if_pos hack, hsend]
        exact List.mem_singleton_self t
    · exact .inr ⟨t, List.mem_append_right _ ht, hhas⟩

theorem History.recorded_run (hok : h.Ok f) (hallows : h.Allows f as) (ht : t ∈ h.acknowledged as) :
    Recorded f (h.run as).accepted t := by
  induction as generalizing h with
  | nil => cases ht
  | cons a as ih =>
    rcases List.mem_append.mp ht with ht | ht
    · split at ht
      · have hs := hok.sound t (Option.mem_toList.mp ht)
        exact hs.recorded.mono (accepted_next.trans accepted_run)
      · cases ht
    · exact ih (hok.next hallows.1) hallows.2 ht

end

/-! ## What holds in every run -/

section
variable {f : Firmware} {r : Radio f} {h : History} {head : Fin queueSize} {sends : Bool}
  {stack : List Stage}

theorem Waits.ack (hw : Waits head h sends stack) :
    Waits (incrementQueuePointer head) { h with taken := h.taken + 1, sn := h.sn + 1 } sends stack := by
  cases hw with
  | reports hnone hreports => exact .reports hnone hreports
  | @sends g stack hsends hreports =>
    refine .sends ?_ hreports
    cases g with
    | posting cellBuffer tempHead | responding cellBuffer tempHead =>
      intro s hs
      obtain ⟨hvia, hpacket, htemp⟩ := hsends s hs
      refine ⟨hvia, hpacket, fun hle => ?_⟩
      have hsucc : s.last - h.taken = (s.last - (h.taken + 1)) + 1 := by
        simp only at hle
        omega
      rw [← htemp (Nat.le_of_succ_le hle), hsucc, incrementQueuePointer_eq]
      rfl
    | _ => exact hsends

theorem Sim.ack (hs : Sim r h) (hlt : h.taken < h.accepted.length) :
    Sim r.bleAck { h with taken := h.taken + 1, sn := h.sn + 1 } := by
  have htake := hs.tied.take (k := 1) hlt
  refine ⟨⟨⟨hlt, fun s hsend => ?_⟩, ?_, htake.sn⟩, hs.waits.ack⟩
  · have hsound := hs.tied.sound s hsend
    exact ⟨hsound.first_lt, hsound.last_le, Nat.le_succ_of_le hsound.first_le, hsound.lora, hsound.packet⟩
  · rw [Radio.bleAck, incrementQueuePointer_eq]
    exact htake.entries

/-- What is put in `log_read_char` is a batch of the message at the head. -/
theorem Tied.logBuffer {q : Queue f.bufferSize} {sn : UInt8} (ht : Tied f q sn h)
    (hne : q.queueHead ≠ q.queueTail) :
    Recorded f h.accepted ⟨.cellular, q.logBuffer (f.header sn), h.taken, h.taken + 1⟩ := by
  have hlt := ht.head_ne.mpr hne
  refine ⟨hlt, sn, ?_⟩
  have hpart := History.part_one hlt
  rw [History.part] at hpart
  simp only [hpart, Firmware.packet, Queue.logBuffer, List.flatMap_singleton]
  rw [← Queue.framed_slot, ht.slot_head hlt]

end

namespace BleRadio

variable {f : Firmware} {s s' : BleRadio f} {e : Event}

/-- A send that is acknowledged is of what is still at the head, and so is a
message that is acknowledged by a write, which was read. -/
def Checked (s : BleRadio f) (e : Event) (_ : BleRadio f) : Prop :=
  match e with
  | .radio e => s.radio.Steady s.history e
  | .write _ => s.addedQueue = true → s.read = true ∧ ∃ x, s.log = some x ∧ x.first = s.history.taken
  | .read => True

/-- Of the accepted messages, those the head is past were transmitted, and the
others are queued. -/
structure Intact (s : BleRadio f) : Prop where
  taken_le : s.history.taken ≤ s.history.accepted.length
  queued : s.radio.queue.entries = s.history.accepted.drop s.history.taken
  transmitted : ∀ i < s.history.taken, ∃ t ∈ s.transmitted, t.Has i ∧ Recorded f s.history.accepted t

structure Inv (s : BleRadio f) : Prop where
  sim : Sim s.radio s.history
  log : ∀ x, s.log = some x → Recorded f s.history.accepted x ∧ x.last = x.first + 1
  read : s.read = true → ∀ x, s.log = some x → x ∈ s.transmitted
  recorded : ∀ t ∈ s.transmitted, Recorded f s.history.accepted t
  sent : ∀ i < s.history.taken, ∃ t ∈ s.transmitted, t.Has i

theorem Inv.intact (hi : Inv s) : Intact s where
  taken_le := hi.sim.tied.taken_le
  queued := hi.sim.tied.entries
  transmitted := fun i hlt => by
    obtain ⟨t, ht, hhas⟩ := hi.sent i hlt
    exact ⟨t, ht, hhas, hi.recorded t ht⟩

theorem Inv.boot : Inv (boot : BleRadio f) where
  sim := .boot
  log := fun _ hx => by cases hx
  read := fun hr => by cases hr
  recorded := fun _ ht => by cases ht
  sent := fun i hi => absurd hi (Nat.not_lt_zero i)

/-- What a write does first: it takes the message at the head, if one was there to be read. -/
def acked (s : BleRadio f) : BleRadio f :=
  if s.addedQueue then
    { s with
      radio := s.radio.bleAck
      history := { s.history with taken := s.history.taken + 1, sn := s.history.sn + 1 } }
  else s

/-- Then it leaves `log_read_char` as it is, or puts the next message there. -/
theorem step_write {rc : Int} (h : s.step (.write rc) = some s') : ∃ radio addedQueue log read,
    s' = { s.acked with radio, addedQueue, log, read } ∧
    (radio = s.acked.radio ∨ ∃ counts, radio = { s.acked.radio with counts }) ∧
    ((log = s.acked.log ∧ read = s.acked.read) ∨
      (s.acked.radio.queue.queueHead ≠ s.acked.radio.queue.queueTail ∧ read = false ∧
        log = some ⟨.cellular, s.acked.radio.queue.logBuffer (f.header s.acked.radio.sn), s.acked.history.taken,
          s.acked.history.taken + 1⟩)) := by
  have hacked : s.acked = { s with
      radio := if s.addedQueue then s.radio.bleAck else s.radio
      history :=
        if s.addedQueue then { s.history with taken := s.history.taken + 1, sn := s.history.sn + 1 }
        else s.history } := by
    unfold acked
    split <;> rfl
  rw [hacked]
  simp only [BleRadio.step, Radio.bleEvtWrite] at h
  by_cases hempty : (if s.addedQueue then s.radio.bleAck else s.radio).queue.queueHead =
      (if s.addedQueue then s.radio.bleAck else s.radio).queue.queueTail
  · simp only [if_pos hempty, Option.some.injEq] at h
    exact ⟨_, _, _, _, h.symm, .inl rfl, .inl ⟨rfl, rfl⟩⟩
  · simp only [if_neg hempty, Option.some.injEq] at h
    split at h
    · exact ⟨_, _, _, _, h.symm, .inr ⟨_, rfl⟩, .inr ⟨hempty, rfl, rfl⟩⟩
    · exact ⟨_, _, _, _, h.symm, .inr ⟨_, rfl⟩, .inl ⟨rfl, rfl⟩⟩

theorem Inv.acked (hi : Inv s) {rc : Int} (hchecked : s.Checked (.write rc) s') : Inv s.acked := by
  unfold BleRadio.acked
  split
  · next hadded =>
    obtain ⟨hread, x, hx, hfirst⟩ := hchecked hadded
    obtain ⟨⟨hle, hpacket⟩, hlast⟩ := hi.log x hx
    refine ⟨hi.sim.ack (by omega), hi.log, hi.read, hi.recorded, fun i hlt => ?_⟩
    rcases Nat.lt_succ_iff_lt_or_eq.mp hlt with hlt | rfl
    · exact hi.sent i hlt
    · exact ⟨x, hi.read hread x hx, Nat.le_of_eq hfirst, by omega⟩
  · exact hi

theorem Inv.step (hi : Inv s) (h : s.step e = some s') (hchecked : s.Checked e s') : Inv s' := by
  cases e with
  | radio e =>
    simp only [BleRadio.step, Option.map_eq_some_iff] at h
    obtain ⟨⟨r, as⟩, hc, rfl⟩ := h
    obtain ⟨hallows, hsim⟩ := hi.sim.step hchecked hc
    have hok := hi.sim.tied.toOk
    refine ⟨hsim, fun x hx => ?_, fun hread x hx => ?_, fun t ht => ?_, fun i hlt => ?_⟩
    · obtain ⟨hrecorded, hlast⟩ := hi.log x hx
      exact ⟨hrecorded.mono History.accepted_run, hlast⟩
    · exact List.mem_append_left _ (hi.read hread x hx)
    · rcases List.mem_append.mp ht with ht | ht
      · exact (hi.recorded t ht).mono History.accepted_run
      · exact History.recorded_run hok hallows ht
    · rcases History.taken_run hok hallows hlt with hold | ⟨t, ht, hhas⟩
      · obtain ⟨t, ht, hhas⟩ := hi.sent i hold
        exact ⟨t, List.mem_append_left _ ht, hhas⟩
      · exact ⟨t, List.mem_append_right _ ht, hhas⟩
  | write rc =>
    obtain ⟨radio, addedQueue, log, read, rfl, hradio, hlog⟩ := step_write h
    have hacked := hi.acked hchecked
    refine ⟨?_, fun x hx => ?_, fun hread x hx => ?_, hacked.recorded, hacked.sent⟩
    · rcases hradio with rfl | ⟨counts, rfl⟩
      · exact hacked.sim
      · exact ⟨hacked.sim.tied, hacked.sim.waits⟩
    · rcases hlog with ⟨rfl, rfl⟩ | ⟨hne, rfl, rfl⟩
      · exact hacked.log x hx
      · cases hx
        exact ⟨hacked.sim.tied.logBuffer hne, rfl⟩
    · rcases hlog with ⟨rfl, rfl⟩ | ⟨hne, rfl, rfl⟩
      · exact hacked.read hread x hx
      · cases hread
  | read =>
    cases h
    refine ⟨hi.sim, hi.log, fun _ x hx => ?_, fun t ht => ?_, fun i hlt => ?_⟩
    · exact List.mem_append_right _ (Option.mem_toList.mpr hx)
    · rcases List.mem_append.mp ht with ht | ht
      · exact hi.recorded t ht
      · exact (hi.log t (Option.mem_toList.mp ht)).1
    · obtain ⟨t, ht, hhas⟩ := hi.sent i hlt
      exact ⟨t, List.mem_append_left _ ht, hhas⟩

end BleRadio

/-! ## The result -/

instance Option.decidableExistsSome {α : Type} (o : Option α) (p : α → Prop) [DecidablePred p] :
    Decidable (∃ x, o = some x ∧ p x) :=
  match o with
  | none => .isFalse (by simp)
  | some x => decidable_of_iff (p x) (by simp)

instance (h : History) (a : Answer) : DecidablePred (Stage.Steady h a)
  | .succeeding _ => inferInstanceAs (Decidable (∃ s, h.sending = some s ∧ s.first = h.taken))
  | .responding _ _ =>
    inferInstanceAs (Decidable (0 ≤ a.ret ∧ Radio.postOk a.rbuf → ∃ s, h.sending = some s ∧ h.taken ≤ s.last))
  | .checking | .rechecking | .posting .. | .sending _ | .failing | .receiving | .querying .. | .reporting _
  | .resetting _ => .isTrue trivial

instance {f : Firmware} (r : Radio f) (h : History) : DecidablePred (r.Steady h)
  | .resume a => inferInstanceAs (Decidable (∀ g ∈ r.stack.head?, g.Steady h a))
  | .message .. | .timer _ | .joinFailed | .joined => .isTrue trivial

instance {f : Firmware} (s : BleRadio f) (e : BleRadio.Event) (s' : BleRadio f) :
    Decidable (s.Checked e s') :=
  match e with
  | .radio e => inferInstanceAs (Decidable (s.radio.Steady s.history e))
  | .write _ =>
    inferInstanceAs (Decidable
      (s.addedQueue = true → s.read = true ∧ ∃ x, s.log = some x ∧ x.first = s.history.taken))
  | .read => .isTrue trivial

/-- Two messages are published, the first is sent over LoRa, and then one is
read and acknowledged; the central's first write comes before or after the send. -/
def sendAndRead (before after : List BleRadio.Event) : List BleRadio.Event :=
  [.radio .joined, .radio (.message 0x31 commandFrame networkingPublishMessage 3 (.ofList [0, 1, 1] 0)),
    .radio (.message 0x31 commandFrame networkingPublishMessage 3 (.ofList [0, 1, 2] 0))] ++ before ++
  [.radio (.timer true), .radio (.resume { ret := -1 }), .radio (.resume { ret := 0 }),
  .radio (.resume { ret := 0 }),
    .radio (.resume { ret := 0 })] ++ after ++ [.read, .write 0]

/-- In every run of `radio_app_ble` in which what a send or a write acknowledges
is still at the head, the messages that have left the queue were transmitted. -/
theorem radioAppBle_intact {address : Bytes} {length_address : address.length = 6}
    {share : UInt8 → UInt16 → UInt32 → UInt32} {s : BleRadio (radioAppBle address length_address share)}
    (hrun : Relation.ReflTransGen (Guarded BleRadio.step BleRadio.Checked) BleRadio.boot s) : s.Intact := by
  have hi : BleRadio.Inv s := Guarded.invariant (fun hi hc hg => hi.step hc hg) hrun .boot
  exact hi.intact

theorem radioAppBle_intact_both : ∃ s,
    Relation.ReflTransGen (Guarded BleRadio.step BleRadio.Checked)
    (BleRadio.boot : BleRadio sampleAppBle) s ∧
      s.history.taken = 2 ∧ s.Intact := by
  have htaken : (execGuarded BleRadio.step BleRadio.Checked (BleRadio.boot : BleRadio sampleAppBle)
      (sendAndRead [] [.write 0])).map (fun s => s.history.taken) = some 2 := by decide +kernel
  obtain ⟨s, hexec, hs⟩ := Option.map_eq_some_iff.mp htaken
  have hrun := Guarded.of_exec hexec
  exact ⟨s, hrun, hs, radioAppBle_intact hrun⟩

/-- The write acknowledges the message that was sent over LoRa meanwhile, and
takes the other one, which was not transmitted. -/
theorem bleWrite_drops_message : ∃ s,
    Relation.ReflTransGen (Guarded BleRadio.step fun _ _ _ => True)
    (BleRadio.boot : BleRadio sampleAppBle) s ∧
      s.history.accepted.length = 2 ∧ s.radio.queue.entries = [] ∧ (∀ t ∈ s.transmitted, ¬ t.Has 1) ∧
      ¬ s.Intact := by
  have hexec : (execGuarded BleRadio.step (fun _ _ _ => True) (BleRadio.boot : BleRadio sampleAppBle)
      (sendAndRead [.write 0] [])).map (fun s =>
        (s.history.taken, s.history.accepted.length, s.radio.queue.entries,
          s.transmitted.map fun t => (t.first, t.last))) = some (2, 2, [], [(0, 1), (0, 1)]) := by decide +kernel
  obtain ⟨s, hexec, hs⟩ := Option.map_eq_some_iff.mp hexec
  simp only [Prod.mk.injEq] at hs
  obtain ⟨htaken, hlength, hentries, htransmitted⟩ := hs
  have hnone : ∀ t ∈ s.transmitted, ¬ t.Has 1 := fun t ht hhas => by
    have hmem : (t.first, t.last) ∈ [(0, 1), (0, 1)] := htransmitted ▸ List.mem_map_of_mem ht
    simp only [List.mem_cons, Prod.mk.injEq, List.not_mem_nil, or_false, or_self] at hmem
    have hlt := hhas.2
    omega
  refine ⟨s, Guarded.of_exec hexec, hlength, hentries, hnone, fun hintact => ?_⟩
  obtain ⟨t, ht, hhas, -⟩ := hintact.transmitted 1 (by omega)
  exact hnone t ht hhas

end Signpost
