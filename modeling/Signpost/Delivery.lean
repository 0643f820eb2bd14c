/-
A radio and the two servers that publish what it sends.

A LoRa packet that gets through goes to `lora-receiver` over a channel that
keeps the order, any number of times while it is being sent, whatever the
radio is told. A post that gets through is handled at once. The radio's history
says which messages a packet is of: positions in the list of all messages its
queue accepted, also over reboots.
-/
import Signpost.Lib.Channel
import Signpost.Uplink

namespace Signpost

open Lib

/-- A LoRa packet on its way, the position of its message, and how often the
device had started, and had had a send acknowledged since, when it got through. -/
structure Uplink where
  position : Nat
  boots : Nat
  sends : Nat
  packet : Bytes
  deriving DecidableEq

/-- The positions of the messages of a packet. -/
def Sending.positions (s : Sending) : List Nat := List.range' s.first (s.last - s.first)

structure Net (f : Firmware) where
  radio : Radio f
  history : History
  /-- How often the device has started before, and how many sends were acknowledged since. -/
  boots : Nat
  sends : Nat
  /-- What is being sent has got through. -/
  delivered : Bool
  uplinks : Channel Uplink
  lora : LoraReceiver
  /-- What the two servers have published. -/
  published : List Publication
  /-- The last of this device's packets that it published. -/
  lastPublished : Option Uplink
  /-- The positions of the messages it published. -/
  loraPositions : List Nat
  /-- The positions of the messages that got through in a batch, and of those `http-receiver` published. -/
  batched : List Nat
  httpPositions : List Nat

namespace Net

variable {f : Firmware}

def init : Net f := ⟨.boot, .init, 0, 0, false, .empty, .init, [], none, [], [], []⟩

inductive Event
  | radio (e : Radio.Event)
  /-- The LoRa packet that is being sent gets through. -/
  | deliver
  /-- The post that is being made gets through. -/
  | post
  /-- `lora-receiver` takes the next packet of this device. -/
  | receive
  /-- It takes one of another device. -/
  | other (buf : Bytes)
  | reboot

/-- `lora-receiver` takes a packet of this device. -/
def take (s : Net f) (u : Uplink) : Net f :=
  let (lora, publications) := s.lora.receive u.packet
  { s with
    lora
    published := s.published ++ publications
    lastPublished := if publications = [] then s.lastPublished else some u
    loraPositions := if publications = [] then s.loraPositions else s.loraPositions ++ [u.position] }

/-- `http-receiver` takes a batch of the messages being sent. -/
def takeBatch (s : Net f) (cellBuffer : Bytes) : Net f :=
  let publications := httpReceive cellBuffer
  let positions := s.history.sending.elim [] Sending.positions
  { s with
    delivered := true
    published := s.published ++ publications
    batched := s.batched ++ positions
    httpPositions := if publications = [] then s.httpPositions else s.httpPositions ++ positions }

def step (s : Net f) : Event → Option (Net f)
  | .radio e =>
    (s.radio.step e).map fun (radio, as) =>
      { s with
        radio
        history := s.history.run as
        sends := s.sends + as.countP Action.acknowledges
        delivered := if as.any Action.forms then false else s.delivered }
  | .deliver =>
    match s.radio.stack with
    | .sending packet :: _ =>
      some { s with uplinks := s.uplinks.send ⟨s.history.taken, s.boots, s.sends, packet⟩, delivered := true }
    | _ => none
  | .post =>
    match s.radio.stack with
    | .posting cellBuffer _ :: _ | .responding cellBuffer _ :: _ =>
      if s.delivered then none else some (s.takeBatch cellBuffer)
    | _ => none
  | .receive => s.uplinks.take?.map fun (u, uplinks) => { s.take u with uplinks }
  | .other buf =>
    if deviceId buf = deviceId f.address then none
    else
      some { s with lora := (s.lora.receive buf).1, published := s.published ++ (s.lora.receive buf).2 }
  | .reboot =>
    some { s with
      radio := .boot
      history := .restart s.history.accepted
      boots := s.boots + 1
      sends := 0
      delivered := false }

end Net

/-! ## Acknowledged sends -/

section
variable {h : History} {as : List Action}

theorem sent_of_countP (hne : as.countP Action.acknowledges ≠ 0) : ∃ packet, .sent packet ∈ as := by
  obtain ⟨a, ha, hsent⟩ := List.countP_pos_iff.mp (Nat.pos_of_ne_zero hne)
  cases a with
  | sent packet => exact ⟨packet, ha⟩
  | _ => cases hsent

theorem History.run_taken (hnone : as.countP Action.acknowledges = 0) : (h.run as).taken = h.taken := by
  induction as generalizing h with
  | nil => rfl
  | cons a as ih =>
    rw [List.countP_cons, Nat.add_eq_zero_iff] at hnone
    have hrest := @ih (h.next a) hnone.1
    cases a with
    | add e rc => exact hrest.trans next_add_taken
    | sent packet => exact absurd hnone.2 (Nat.succ_ne_zero 0)
    | lora | post | failed | reply | report => exact hrest

theorem History.run_sn : (h.run as).sn = h.sn + UInt8.ofNat (as.countP Action.acknowledges) := by
  induction as generalizing h with
  | nil => exact (UInt8.add_zero _).symm
  | cons a as ih =>
    rw [run_cons, ih, List.countP_cons]
    cases a with
    | add e rc =>
      rw [next]
      split <;> rfl
    | sent packet =>
      show h.sn + 1 + _ = h.sn + UInt8.ofNat (_ + 1)
      rw [UInt8.ofNat_add, UInt8.add_assoc, UInt8.add_comm 1]
      rfl
    | lora | post | failed | reply | report => rfl

end

/-! ## `lora-receiver` and one device -/

namespace LoraReceiver

variable {f : Firmware} {l : LoraReceiver} {sn : UInt8} {e : Entry} {buf : Bytes}

/-- The number of the last packet of a device is what it was received with, also of one that is dropped. -/
theorem receive_lastSequenceNumbers (hlen : 6 < buf.length) :
    (l.receive buf).1.lastSequenceNumbers =
      fun id => if id = deviceId buf then some (sequenceNumber buf) else l.lastSequenceNumbers id := by
  rw [receive, if_pos hlen, parse]
  split
  · next hdrops =>
    funext id
    split
    · next hid => exact hid ▸ hdrops
    · rfl
  · rfl

theorem receive_other {id : List Char} (hid : deviceId buf ≠ id) :
    (l.receive buf).1.lastSequenceNumbers id = l.lastSequenceNumbers id := by
  by_cases hlen : 6 < buf.length
  · rw [receive_lastSequenceNumbers hlen]
    exact if_neg (Ne.symm hid)
  · rw [receive, if_neg hlen]

theorem deviceId_receive {p : Publication} (hp : p ∈ (l.receive buf).2) : p.deviceId = deviceId buf := by
  unfold receive at hp
  split at hp
  · unfold parse at hp
    split at hp
    · cases hp
    · cases hr : loraRecords buf.length (buf.drop 7) with
      | none =>
        simp [hr] at hp
      | some rs =>
        simp only [hr, Option.map_some, Option.getD_some, List.mem_map] at hp
        obtain ⟨r, -, rfl⟩ := hp
        rfl
  · cases hp

theorem receive_drops (hdrops : l.Drops buf) : (l.receive buf).2 = [] := by
  rw [receive]
  split
  · rw [parse, if_pos hdrops]
    rfl
  · rfl

end LoraReceiver

/-! ## What holds in every run -/

namespace Net

variable {f : Firmware} {s s' : Net f} {e : Event}

/-- The packet is a LoRa packet of the message at its position. -/
def Carries (f : Firmware) (accepted : List Entry) (u : Uplink) : Prop :=
  ∃ sn m, accepted[u.position]? = some m ∧ u.packet = f.packet sn [m] .lora

/-- The packet is not of a message that is to come, and one of the message at
the head is what would be sent now. -/
def Current (f : Firmware) (h : History) (u : Uplink) : Prop :=
  u.position ≤ h.taken ∧
    (u.position = h.taken → ∃ m, h.accepted[h.taken]? = some m ∧ u.packet = f.packet h.sn [m] .lora)

structure Base (s : Net f) : Prop where
  alone : Alone s.radio s.history
  carries : ∀ u ∈ s.uplinks.line, Carries f s.history.accepted u
  current : ∀ u, s.uplinks.latest = some u → Current f s.history u
  seen : s.lora.lastSequenceNumbers (deviceId f.address) = s.uplinks.last.map fun u =>
    sequenceNumber u.packet

theorem getElem?_of_prefix {α : Type} {xs ys : List α} {i : Nat} {x : α} (h : xs[i]? = some x)
    (hle : xs <+: ys) :
    ys[i]? = some x := by
  obtain ⟨hi, rfl⟩ := List.getElem?_eq_some_iff.mp h
  exact List.prefix_iff_getElem?.mp hle i hi

theorem Carries.mono {accepted accepted' : List Entry} {u : Uplink} (hu : Carries f accepted u)
    (hle : accepted <+: accepted') : Carries f accepted' u := by
  obtain ⟨sn, m, hm, hpacket⟩ := hu
  exact ⟨sn, m, getElem?_of_prefix hm hle, hpacket⟩

theorem Carries.lt {accepted : List Entry} {u : Uplink} (hu : Carries f accepted u) :
    u.position < accepted.length := by
  obtain ⟨sn, m, hm, -⟩ := hu
  exact (List.getElem?_eq_some_iff.mp hm).1

theorem Carries.length {accepted : List Entry} {u : Uplink} (hu : Carries f accepted u) :
    6 < u.packet.length := by
  obtain ⟨sn, m, -, hpacket⟩ := hu
  rw [hpacket, Firmware.length_packet]
  omega

theorem Carries.deviceId {accepted : List Entry} {u : Uplink} (hu : Carries f accepted u) :
    deviceId u.packet = deviceId f.address := by
  obtain ⟨sn, m, -, hpacket⟩ := hu
  rw [hpacket, Firmware.deviceId_packet]

theorem Current.grows {h h' : History} {u : Uplink} (hu : Current f h u) (hg : h.Grows h') :
    Current f h' u := by
  refine ⟨Nat.le_trans hu.1 hg.taken, fun heq => ?_⟩
  have hle := hg.taken
  have hle' := hu.1
  have htaken : h'.taken = h.taken := by omega
  obtain ⟨m, hm, hpacket⟩ := hu.2 (by omega)
  rw [htaken, hg.sn htaken]
  exact ⟨m, getElem?_of_prefix hm hg.accepted, hpacket⟩

theorem Base.sending {packet : Bytes} {stack : List Stage} (hb : Base s)
    (hst : s.radio.stack = .sending packet :: stack) :
    ∃ m, s.history.accepted[s.history.taken]? = some m ∧ packet = f.packet s.history.sn [m] .lora := by
  have hholds := hb.alone.holds
  have hwaits := hb.alone.sim.waits
  rw [hst] at hholds hwaits
  obtain ⟨x, hx, hfirst⟩ := hholds.of_top
  obtain ⟨-, hlora, -⟩ := hwaits.of_sends id
  obtain ⟨hvia, rfl⟩ := hlora x hx
  have hsound := hb.alone.sim.tied.sound x hx
  obtain ⟨-, hpacket⟩ := hb.alone.still x hx
  have hlast := hsound.lora hvia
  have hlt : s.history.taken < s.history.accepted.length := by
    have := hsound.last_le
    omega
  rw [hlast, hfirst, History.part_one hlt, hvia] at hpacket
  exact ⟨_, List.getElem?_eq_getElem hlt, hpacket⟩

theorem Base.posting {cellBuffer : Bytes} {tempHead : Fin queueSize} {stack : List Stage} (hb : Base s)
    (hst : s.radio.stack = .posting cellBuffer tempHead :: stack ∨
      s.radio.stack = .responding cellBuffer tempHead :: stack) :
    ∃ x, s.history.sending = some x ∧ ∀ p, p ∈ x.positions ↔ s.history.taken ≤ p ∧ p < x.last := by
  obtain ⟨x, hx, hfirst⟩ : ∃ x, s.history.sending = some x ∧ x.first = s.history.taken := by
    have hholds := hb.alone.holds
    rcases hst with hst | hst <;> rw [hst] at hholds <;> exact hholds.of_top
  have hlt := (hb.alone.sim.tied.sound x hx).first_lt
  refine ⟨x, hx, fun p => ?_⟩
  rw [Sending.positions, List.mem_range'_1]
  omega

/-! ### Steps -/

theorem step_radio {e : Radio.Event} (h : s.step (.radio e) = some s') :
    ∃ r as, s.radio.step e = some (r, as) ∧ s' = { s with
      radio := r
      history := s.history.run as
      sends := s.sends + as.countP Action.acknowledges
      delivered := if as.any Action.forms then false else s.delivered } := by
  simp only [step, Option.map_eq_some_iff] at h
  obtain ⟨⟨r, as⟩, hc, rfl⟩ := h
  exact ⟨r, as, hc, rfl⟩

theorem step_deliver (h : s.step .deliver = some s') : ∃ packet stack,
    s.radio.stack = .sending packet :: stack ∧
    s' = { s with uplinks := s.uplinks.send ⟨s.history.taken, s.boots, s.sends, packet⟩, delivered := true } := by
  simp only [step] at h
  split at h
  · next packet stack hst =>
    cases h
    exact ⟨packet, stack, hst, rfl⟩
  · cases h

theorem step_post (h : s.step .post = some s') : ∃ cellBuffer tempHead stack,
    (s.radio.stack = .posting cellBuffer tempHead :: stack ∨
        s.radio.stack = .responding cellBuffer tempHead :: stack) ∧
      s.delivered = false ∧ s' = s.takeBatch cellBuffer := by
  simp only [step] at h
  split at h
  · next cellBuffer tempHead stack hst =>
    split at h
    · cases h
    · next hfirst =>
      cases h
      exact ⟨cellBuffer, tempHead, stack, .inl hst, Bool.not_eq_true _ ▸ hfirst, rfl⟩
  · next cellBuffer tempHead stack hst =>
    split at h
    · cases h
    · next hfirst =>
      cases h
      exact ⟨cellBuffer, tempHead, stack, .inr hst, Bool.not_eq_true _ ▸ hfirst, rfl⟩
  · cases h

theorem step_receive (h : s.step .receive = some s') : ∃ u uplinks, s.uplinks.take? = some (u, uplinks) ∧
    s' = { s.take u with uplinks } := by
  simp only [step, Option.map_eq_some_iff] at h
  obtain ⟨⟨u, uplinks⟩, htake, rfl⟩ := h
  exact ⟨u, uplinks, htake, rfl⟩

theorem step_other {buf : Bytes} (h : s.step (.other buf) = some s') : deviceId buf ≠ deviceId f.address ∧
    s' = { s with lora := (s.lora.receive buf).1, published := s.published ++ (s.lora.receive buf).2 } := by
  simp only [step] at h
  split at h
  · cases h
  · next hother =>
    cases h
    exact ⟨hother, rfl⟩

theorem Base.init : Base (init : Net f) where
  alone := .boot
  carries := fun u hu => by cases hu
  current := fun u hu => by cases hu
  seen := rfl

theorem Base.step (hb : Base s) (h : s.step e = some s') : Base s' := by
  cases e with
  | radio e =>
    obtain ⟨r, as, hc, rfl⟩ := step_radio h
    obtain ⟨hallows, -, halone⟩ := hb.alone.step hc
    have hgrows := hb.alone.still.grows hb.alone.sim.tied.toOk hallows
    exact {
      alone := halone
      carries := fun u hu => (hb.carries u hu).mono hgrows.accepted
      current := fun u hu => (hb.current u hu).grows hgrows
      seen := hb.seen }
  | deliver =>
    obtain ⟨packet, stack, hst, rfl⟩ := step_deliver h
    obtain ⟨m, hm, hpacket⟩ := hb.sending hst
    refine ⟨hb.alone, fun u hu => ?_, fun u hu => ?_, ?_⟩
    · rw [Channel.line_send] at hu
      rcases List.mem_append.mp hu with hu | hu
      · exact hb.carries u hu
      · obtain rfl := List.mem_singleton.mp hu
        exact ⟨_, m, hm, hpacket⟩
    · rw [Channel.latest_send] at hu
      cases hu
      exact ⟨Nat.le_refl _, fun _ => ⟨m, hm, hpacket⟩⟩
    · exact hb.seen
  | post =>
    obtain ⟨cellBuffer, tempHead, stack, -, -, rfl⟩ := step_post h
    exact ⟨hb.alone, hb.carries, hb.current, hb.seen⟩
  | receive =>
    obtain ⟨u, uplinks, htake, rfl⟩ := step_receive h
    have hu := hb.carries u (Channel.mem_take htake)
    refine ⟨hb.alone, fun v hv => hb.carries v (Channel.mem_line_take htake hv), fun v hv => ?_, ?_⟩
    · exact hb.current v (Channel.latest_take htake ▸ hv)
    · show (s.lora.receive u.packet).1.lastSequenceNumbers _ = _
      rw [LoraReceiver.receive_lastSequenceNumbers hu.length, (Channel.line_take htake).1]
      exact if_pos hu.deviceId.symm
  | other buf =>
    obtain ⟨hother, rfl⟩ := step_other h
    exact ⟨hb.alone, hb.carries, hb.current, (LoraReceiver.receive_other hother).trans hb.seen⟩
  | reboot =>
    cases h
    refine ⟨.boot, hb.carries, fun u hu => ?_, hb.seen⟩
    have hlt := (hb.carries u (Channel.mem_line_of_latest hu)).lt
    exact ⟨Nat.le_of_lt hlt, fun heq => absurd heq (Nat.ne_of_lt hlt)⟩

end Net

end Signpost
