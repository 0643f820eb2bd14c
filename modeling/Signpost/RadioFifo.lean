/-
The radio's queue refines a bounded first-in-first-out queue: each step of
`radio_app` is one of the queue's, with the same messages accepted and the
messages of a packet, and no others, taken when it is acknowledged.

The relation is that of `RadioHistory`, so each step needs one lemma: what it
does to the history. The abstract queue knows messages only, and neither packets
nor places in an array.
-/
import Signpost.RadioHistory

namespace Signpost

open Lib

/-- A bounded queue, with what is being sent and the messages it is made of. -/
structure Fifo where
  queued : List Entry
  sn : UInt8
  sending : Option (Bytes × List Entry)

namespace Fifo

def empty : Fifo := ⟨[], 0, none⟩

/-- What an action does to the queue. -/
inductive Acts (f : Firmware) : Fifo → Action → Fifo → Prop
  | accept {q e} : q.queued.length < queueSize - 1 → e.bytes.length ≤ f.bufferSize →
      Acts f q (.add e 0) { q with queued := q.queued ++ [e] }
  | refuse {q e rc} : rc < 0 → q.queued.length = queueSize - 1 ∨ f.bufferSize < e.bytes.length →
      Acts f q (.add e rc) q
  | lora {q e rest} : q.sending = none → q.queued = e :: rest →
      Acts f q (.lora (f.header q.sn ++ e.bytes)) { q with sending := some (f.header q.sn ++ e.bytes, [e]) }
  | post {q es rest} : q.sending = none → es ≠ [] → q.queued = es ++ rest →
      Acts f q (.post (f.header q.sn ++ es.flatMap Entry.framed) es.length)
        { q with sending := some (f.header q.sn ++ es.flatMap Entry.framed, es) }
  | sent {q packet es rest} : q.sending = some (packet, es) → q.queued = es ++ rest →
      Acts f q (.sent packet) ⟨rest, q.sn + 1, none⟩
  | failed {q} : Acts f q .failed { q with sending := none }
  | reply {q reply} : Acts f q (.reply reply) q
  | report {q num reps} : Acts f q (.report num reps) q

inductive ActsAll (f : Firmware) : Fifo → List Action → Fifo → Prop
  | nil {q} : ActsAll f q [] q
  | cons {q a q' as q''} : Acts f q a q' → ActsAll f q' as q'' → ActsAll f q (a :: as) q''

/-- What an event asks of the queue: a publish, to take all of its message. -/
def Asks : Radio.Event → List Action → Prop
  | .message sourceAddress frameType messageType messageLength message, as =>
    (frameType = notificationFrame ∨ frameType = commandFrame) → messageType = networkingPublishMessage →
      ∃ rc, as = [.add ⟨sourceAddress, message.read 0 messageLength.toNat⟩ rc,
        .reply (signpostNetworkingPublishReply sourceAddress rc)]
  | _, _ => True

def Step (f : Firmware) (q : Fifo) (e : Radio.Event) (q' : Fifo) (as : List Action) : Prop :=
  Asks e as ∧ ActsAll f q as q'

end Fifo

/-- A message is at most 255 bytes long. -/
def Radio.Event.Short : Radio.Event → Prop
  | .message _ _ _ messageLength _ => messageLength.toNat ≤ 255
  | _ => True

instance : DecidablePred Radio.Event.Short
  | .message _ _ _ messageLength _ => inferInstanceAs (Decidable (messageLength.toNat ≤ 255))
  | .timer _ | .resume _ | .joinFailed | .joined => .isTrue trivial

/-- What a history leaves in the queue. -/
def History.fifo (h : History) : Fifo :=
  ⟨h.queued, h.sn, h.sending.map fun s => (s.packet, h.part s.first s.last)⟩

section
variable {f : Firmware} {h : History} {r r' : Radio f} {as : List Action} {a : Action} {e : Radio.Event}

theorem History.queued_eq {s : Sending} (hs : h.Sound f s) (hfirst : s.first = h.taken) :
    h.queued = h.part s.first s.last ++ h.accepted.drop s.last := by
  have hlt := hs.first_lt
  have hdrop : h.accepted.drop s.last = (h.accepted.drop s.first).drop (s.last - s.first) := by
    rw [List.drop_drop]
    congr 1
    omega
  rw [History.queued, History.part, ← hfirst, hdrop, List.take_append_drop]

theorem History.form_fifo {via : Via} {packet : Bytes} {count : Nat} (hlt : h.taken < h.accepted.length) :
    (h.form via packet count).fifo = { h.fifo with sending := some (packet, h.queued.take count) } := by
  have hpart : (h.form via packet count).part h.taken (h.taken + count) = h.queued.take count :=
    h.part_taken count
  rw [History.fifo, History.sending_form hlt, Option.map_some, hpart]
  rfl

theorem History.Fits.acts (hfits : h.Fits f a) (hok : h.Ok f)
    (hforms : a.forms = true → h.taken < h.accepted.length) (hstill : h.Still f) :
    Fifo.Acts f h.fifo a (h.next a).fifo := by
  cases a with
  | add e rc =>
    rcases hfits with ⟨rfl, hroom, hlen⟩ | ⟨hneg, hwhy⟩
    · have hfifo : (h.next (.add e 0)).fifo = { h.fifo with queued := h.fifo.queued ++ [e] } := by
        rw [History.next, if_pos rfl]
        simp only [History.fifo, History.queued, List.drop_append_of_le_length hok.taken_le,
          Fifo.mk.injEq, true_and]
        cases hsend : h.sending with
        | none => rfl
        | some s =>
          exact congrArg (fun es => some (s.packet, es)) (History.part_append (hok.sound s hsend).last_le)
      rw [hfifo]
      exact .accept hroom hlen
    · rw [History.next, if_neg (Int.ne_of_lt hneg)]
      exact .refuse hneg hwhy
  | lora packet =>
    have hlt := hforms rfl
    obtain ⟨hnone, hpacket⟩ := hfits
    have hone : h.queued = h.accepted[h.taken] :: h.accepted.drop (h.taken + 1) :=
      List.drop_eq_getElem_cons hlt
    have hbytes : packet = f.header h.fifo.sn ++ h.accepted[h.taken].bytes := by
      rw [hpacket hlt, History.part_one hlt]
      simp [Firmware.packet, History.fifo]
    rw [History.next, History.form_fifo hlt, hone, hbytes]
    exact .lora (by simp [History.fifo, hnone]) hone
  | post cellBuffer count =>
    have hlt := hforms rfl
    obtain ⟨hnone, hpacket⟩ := hfits
    obtain ⟨hpos, hle, hbytes⟩ := hpacket hlt
    have hlen : (h.queued.take count).length = count := by
      rw [List.length_take, History.queued, List.length_drop]
      omega
    have hsplit : h.fifo.queued = h.queued.take count ++ h.queued.drop count :=
      (List.take_append_drop ..).symm
    rw [History.part_taken] at hbytes
    rw [History.next, History.form_fifo hlt, hbytes]
    have hpost := Fifo.Acts.post (f := f) (q := h.fifo) (by simp [History.fifo, hnone])
      (List.ne_nil_of_length_pos (by omega)) hsplit
    rwa [hlen] at hpost
  | sent packet =>
    obtain ⟨s, hsend, rfl, hs⟩ := hfits
    have hfifo : (h.next (.sent s.packet)).fifo = ⟨h.accepted.drop s.last, h.fifo.sn + 1, none⟩ := by
      simp only [History.next, hsend]
      rfl
    rw [hfifo]
    exact .sent (by simp [History.fifo, hsend]) (h.queued_eq hs (hstill s hsend).1)
  | failed => exact .failed
  | reply => exact .reply
  | report => exact .report

theorem fifo_acts (hok : h.Ok f) (hstill : h.Still f) (hallows : h.Allows f as) (hforms : Forms h as) :
    Fifo.ActsAll f h.fifo as (h.run as).fifo := by
  induction as generalizing h with
  | nil => exact .nil
  | cons a as ih =>
    exact .cons (hallows.1.acts hok hforms.1 hstill)
      (ih (hok.next hallows.1) (hstill.next hok hallows.1) hallows.2 hforms.2)

theorem asks_of_short (hc : r.step e = some (r', as)) (hshort : e.Short) : Fifo.Asks e as := by
  cases e with
  | message sourceAddress frameType messageType messageLength message =>
    intro hframe htype
    obtain ⟨rc, q, -, rfl, -⟩ := Radio.step_publish ⟨hframe, htype⟩ hc
    have hlen : messageLength.toUInt8.toNat = messageLength.toNat := by
      rw [UInt32.toNat_toUInt8]
      exact Nat.mod_eq_of_lt (Nat.lt_succ_of_le hshort)
    exact ⟨rc, by rw [hlen]⟩
  | _ => trivial

theorem fifo_run {es : List Radio.Event}
    (hrun : Run (fun (r : Radio f) e r' as => r.step e = some (r', as) ∧ e.Short) r es r' as)
    (hs : Alone r h) :
    ∃ h', Run (Fifo.Step f) h.fifo es h'.fifo as ∧ Alone r' h' := by
  induction hrun generalizing h with
  | nil => exact ⟨h, .nil, hs⟩
  | cons hstep _ ih =>
    obtain ⟨hc, hshort⟩ := hstep
    obtain ⟨hallows, hforms, hs'⟩ := hs.step hc
    obtain ⟨h', hrun', hend⟩ := ih hs'
    exact ⟨h', .cons ⟨asks_of_short hc hshort, fifo_acts hs.sim.tied.toOk hs.still hallows hforms⟩ hrun', hend⟩

end

/-- A message of two bytes is published and sent over LoRa. -/
def publishAndSend : List Radio.Event :=
  [.joined, .message 0x31 commandFrame networkingPublishMessage 2 (.ofList [0, 0] 0), .timer true,
    .resume { ret := -1 }, .resume { ret := 0 }, .resume { ret := 0 }, .resume { ret := 0 }]

end Signpost
