/-
What the two servers make of packets that are sent again.

`lora-receiver` drops a packet with the number of the one before; the device's
number counts its acknowledged sends since it started, modulo 256, over both
networks. `http-receiver` drops nothing. So a message is published twice when it
gets through a second time after a batch or in one, and a new message is dropped
when the count has come back.
-/
import Signpost.Delivery

namespace Signpost

open Lib

namespace Net

variable {f : Firmware} {s s' : Net f} {e : Event}

/-! ## No message is published twice -/

/-- A message that got through in a batch does not get through again, and one
that got through in a LoRa packet does not in a batch. -/
def Once (s : Net f) (e : Event) (_ : Net f) : Prop :=
  match e with
  | .deliver => s.history.taken ∉ s.batched
  | .post => s.history.taken ∉ s.batched ∧ ∀ u ∈ s.uplinks.latest, u.position ≠ s.history.taken
  | _ => True

/-- A packet is of a later message than the one before it, or it is the same packet. -/
def Repeats (u v : Uplink) : Prop :=
  u.position < v.position ∨ (u.position = v.position ∧ u.packet = v.packet)

theorem Repeats.trans {u v w : Uplink} (huv : Repeats u v) (hvw : Repeats v w) : Repeats u w := by
  unfold Repeats at *
  rcases huv with hlt | ⟨heq, hpacket⟩
  · omega
  · rw [heq, hpacket]
    exact hvw

structure Published (s : Net f) : Prop extends Base s where
  repeats : s.uplinks.Chained Repeats
  lora : s.loraPositions.Nodup
  before : ∀ p ∈ s.loraPositions, ∃ u, s.uplinks.last = some u ∧ p ≤ u.position
  http : s.httpPositions.Nodup
  batches : s.httpPositions ⊆ s.batched
  filled : ∀ p ∈ s.batched, ∀ q, s.history.taken ≤ q → q ≤ p → q ∈ s.batched
  apart : ∀ p ∈ s.batched, p ∉ s.loraPositions ∧ ∀ u ∈ s.uplinks.line, u.position ≠ p

theorem Published.init : Published (init : Net f) where
  toBase := .init
  repeats := .nil
  lora := .nil
  before := fun _ hp => by cases hp
  http := .nil
  batches := fun _ hp => hp
  filled := fun _ hp => by cases hp
  apart := fun _ hp => by cases hp

theorem Published.le_latest (hi : Published s) {u v : Uplink} (hu : u ∈ s.uplinks.line)
    (hv : s.uplinks.latest = some v) : u.position ≤ v.position := by
  rcases hi.repeats.latest Repeats.trans hu hv with rfl | hlt | ⟨heq, -⟩
  · exact Nat.le_refl _
  · exact Nat.le_of_lt hlt
  · exact Nat.le_of_eq heq

/-- A message is behind the head when it got through and the last that did is not at the head. -/
theorem Published.lt_taken (hi : Published s) (hnew : ∀ u ∈ s.uplinks.latest,
    u.position ≠ s.history.taken) {u : Uplink}
    (hu : u ∈ s.uplinks.line) : u.position < s.history.taken := by
  obtain ⟨v, hv⟩ : ∃ v, s.uplinks.latest = some v :=
    ⟨_, List.getLast?_eq_some_getLast (List.ne_nil_of_mem hu)⟩
  have hle := hi.le_latest hu hv
  have hne := hnew v hv
  have hcurrent := (hi.current v hv).1
  omega

/-- When the message at the head has not got through in a batch, those behind it have not. -/
theorem Published.batched_lt (hi : Published s) (hhead : s.history.taken ∉ s.batched) {p : Nat}
    (hp : p ∈ s.batched) :
    p < s.history.taken :=
  Nat.lt_of_not_le fun hle => hhead (hi.filled p hp _ (Nat.le_refl _) hle)

theorem Published.receive {u : Uplink} {uplinks : Channel Uplink} (hi : Published s)
    (htake : s.uplinks.take? = some (u, uplinks)) {p : Nat} (hp : p ∈ s.loraPositions) :
    p ≤ u.position ∧ ((s.lora.receive u.packet).2 ≠ [] → p ≠ u.position) := by
  obtain ⟨v, hv, hle⟩ := hi.before p hp
  rcases (hi.repeats.take htake).2 v hv with hlt | ⟨heq, hpacket⟩
  · exact ⟨by omega, fun _ => by omega⟩
  · have hdrops : s.lora.Drops u.packet := by
      rw [LoraReceiver.Drops, (hi.carries u (Channel.mem_take htake)).deviceId, hi.seen, hv, ← hpacket]
      rfl
    exact ⟨heq ▸ hle, fun hne => absurd (LoraReceiver.receive_drops hdrops) hne⟩

theorem Published.step (hi : Published s) (h : s.step e = some s') (honce : s.Once e s') :
    Published s' := by
  have hbase := hi.toBase.step h
  cases e with
  | radio e =>
    obtain ⟨r, as, hc, rfl⟩ := step_radio h
    obtain ⟨hallows, -, -⟩ := hi.alone.step hc
    have hgrows := hi.alone.still.grows hi.alone.sim.tied.toOk hallows
    exact ⟨hbase, hi.repeats, hi.lora, hi.before, hi.http, hi.batches,
      fun p hp q hq hle => hi.filled p hp q (Nat.le_trans hgrows.taken hq) hle, hi.apart⟩
  | deliver =>
    obtain ⟨packet, stack, hst, rfl⟩ := step_deliver h
    obtain ⟨m, hm, hpacket⟩ := hi.sending hst
    refine ⟨hbase, hi.repeats.send fun v hv => ?_, hi.lora, hi.before, hi.http, hi.batches, hi.filled,
      fun p hp => ?_⟩
    · obtain ⟨hle, hsame⟩ := hi.current v hv
      rcases Nat.lt_or_eq_of_le hle with hlt | heq
      · exact .inl hlt
      · obtain ⟨m', hm', hpacket'⟩ := hsame heq
        obtain rfl := Option.some.inj (hm.symm.trans hm')
        exact .inr ⟨heq, hpacket'.trans hpacket.symm⟩
    · obtain ⟨hlora, hline⟩ := hi.apart p hp
      refine ⟨hlora, fun u hu heq => ?_⟩
      rw [Channel.line_send] at hu
      rcases List.mem_append.mp hu with hu | hu
      · exact hline u hu heq
      · obtain rfl := List.mem_singleton.mp hu
        obtain rfl := heq
        exact honce hp
  | post =>
    obtain ⟨cellBuffer, tempHead, stack, hst, -, rfl⟩ := step_post h
    obtain ⟨hhead, hnew⟩ := honce
    obtain ⟨x, hx, hmem⟩ := hi.posting hst
    have hpositions : s.history.sending.elim [] Sending.positions = x.positions := by rw [hx]; rfl
    refine ⟨hbase, hi.repeats, hi.lora, hi.before, ?_, ?_, fun p hp q hq hle => ?_, fun p hp => ?_⟩
    · simp only [takeBatch, hpositions]
      split
      · exact hi.http
      · refine List.nodup_append.mpr ⟨hi.http, List.nodup_range', fun p hp q hq => ?_⟩
        have hlt := hi.batched_lt hhead (hi.batches hp)
        have hle := ((hmem q).mp hq).1
        omega
    · simp only [takeBatch, hpositions]
      split
      · exact List.subset_append_of_subset_left _ hi.batches
      · exact List.append_subset.mpr
          ⟨List.subset_append_of_subset_left _ hi.batches, List.subset_append_right _ _⟩
    · simp only [takeBatch, hpositions] at hp hq ⊢
      rcases List.mem_append.mp hp with hp | hp
      · exact List.mem_append_left _ (hi.filled p hp q hq hle)
      · have hlt := ((hmem p).mp hp).2
        exact List.mem_append_right _ ((hmem q).mpr ⟨hq, by omega⟩)
    · simp only [takeBatch, hpositions] at hp
      rcases List.mem_append.mp hp with hp | hp
      · exact hi.apart p hp
      · have hle := ((hmem p).mp hp).1
        refine ⟨fun hlora => ?_, fun u hu => ?_⟩
        · obtain ⟨u, hu, hle'⟩ := hi.before p hlora
          have hlt := hi.lt_taken hnew (u := u) (by simp [Channel.line, hu])
          omega
        · have hlt := hi.lt_taken hnew hu
          omega
  | receive =>
    obtain ⟨u, uplinks, htake, rfl⟩ := step_receive h
    obtain ⟨hlast, -⟩ := Channel.line_take htake
    have hline : ∀ v ∈ uplinks.line, v ∈ s.uplinks.line := fun v hv => Channel.mem_line_take htake hv
    have hu := Channel.mem_take htake
    by_cases hnone : (s.lora.receive u.packet).2 = []
    · have hlora : ({ s.take u with uplinks } : Net f).loraPositions = s.loraPositions := if_pos hnone
      refine ⟨hbase, (hi.repeats.take htake).1, hlora ▸ hi.lora, fun p hp => ?_, hi.http, hi.batches,
        hi.filled, fun p hp => ?_⟩
      · exact ⟨u, hlast, (hi.receive htake (hlora ▸ hp)).1⟩
      · obtain ⟨hp', hall⟩ := hi.apart p hp
        exact ⟨hlora ▸ hp', fun v hv => hall v (hline v hv)⟩
    · have hlora : ({ s.take u with uplinks } : Net f).loraPositions = s.loraPositions ++
        [u.position] := if_neg hnone
      refine ⟨hbase, (hi.repeats.take htake).1, ?_, fun p hp => ⟨u, hlast, ?_⟩, hi.http, hi.batches,
        hi.filled, fun p hp => ?_⟩
      · rw [hlora]
        refine List.nodup_append.mpr ⟨hi.lora, by simp, fun p hp q hq => ?_⟩
        exact List.mem_singleton.mp hq ▸ (hi.receive htake hp).2 hnone
      · rw [hlora] at hp
        rcases List.mem_append.mp hp with hp | hp
        · exact (hi.receive htake hp).1
        · exact Nat.le_of_eq (List.mem_singleton.mp hp)
      · obtain ⟨hp', hall⟩ := hi.apart p hp
        rw [hlora]
        refine ⟨fun hp'' => ?_, fun v hv => hall v (hline v hv)⟩
        rcases List.mem_append.mp hp'' with hp'' | hp''
        · exact hp' hp''
        · exact hall u hu (List.mem_singleton.mp hp'').symm
  | other buf =>
    obtain ⟨-, rfl⟩ := step_other h
    exact ⟨hbase, hi.repeats, hi.lora, hi.before, hi.http, hi.batches, hi.filled, hi.apart⟩
  | reboot =>
    cases h
    exact ⟨hbase, hi.repeats, hi.lora, hi.before, hi.http, hi.batches,
      fun p hp q hq hle => hi.filled p hp q (Nat.le_trans hi.alone.sim.tied.taken_le hq) hle, hi.apart⟩

end Net

/-! ### The result -/

instance {f : Firmware} (s : Net f) (e : Net.Event) (s' : Net f) : Decidable (s.Once e s') :=
  match e with
  | .deliver => inferInstanceAs (Decidable (s.history.taken ∉ s.batched))
  | .post =>
    inferInstanceAs (Decidable
      (s.history.taken ∉ s.batched ∧ ∀ u ∈ s.uplinks.latest, u.position ≠ s.history.taken))
  | .radio _ | .receive | .other _ | .reboot => .isTrue trivial

def publishByte (data : UInt8) : Net.Event :=
  .radio (.message 0x31 commandFrame networkingPublishMessage 3 (.ofList [0, 1, data] 0))

/-- As many messages as a batch is posted for. -/
def twenty : List Nat := List.range 20

def publishTwenty : List Net.Event := twenty.map fun i => publishByte (UInt8.ofNat i)

/-- `"HTTP/1.1 200 OK"` -/
def okResponse : Bytes :=
  [0x48, 0x54, 0x54, 0x50, 0x2F, 0x31, 0x2E, 0x31, 0x20, 0x32, 0x30, 0x30, 0x20, 0x4F, 0x4B]

/-- A batch is posted and gets through, and its response is as given. -/
def postBatch (rbuf : Bytes) : List Net.Event :=
  [.radio (.resume { ret := 0 }), .post, .radio (.resume { ret := 0 }), .radio (.resume { ret := 0, rbuf })]

/-- The response of a batch that gets through is lost, and the batch is sent again. -/
def loseResponse : List Net.Event :=
  publishTwenty ++ .radio (.timer true) :: .radio (.resume { ret := 0 }) :: postBatch [] ++
    .radio (.timer true) :: postBatch okResponse

/-- A LoRa packet that is sent twice is received twice, and then a batch is posted. -/
def sendBoth : List Net.Event :=
  [.radio .joined, publishByte 20, .radio (.timer true), .radio (.resume { ret := -1 }), .deliver,
    .radio (.resume { ret := -1 }), .radio (.resume { ret := 0 }), .radio (.timer true),
    .radio (.resume { ret := -1 }), .deliver, .radio (.resume { ret := 0 }), .radio (.resume { ret := 0 }),
    .radio (.resume { ret := 0 }), .receive, .receive] ++ publishTwenty ++
    .radio (.timer true) :: .radio (.resume { ret := 0 }) :: postBatch okResponse

/-- In every run of `radio_app` in which no message gets through again after a
batch or in one, no message is published twice. -/
theorem radioApp_published_once {address : Bytes} {length_address : address.length = 6}
    {share : UInt8 → UInt16 → UInt32 → UInt32} {s : Net (radioApp address length_address share)}
    (hrun : Relation.ReflTransGen (Guarded Net.step Net.Once) Net.init s) :
    (s.loraPositions ++ s.httpPositions).Nodup := by
  have hi : Net.Published s := Guarded.invariant (fun hi hc hg => hi.step hc hg) hrun .init
  exact List.nodup_append.mpr ⟨hi.lora, hi.http,
    fun p hp q hq heq => (hi.apart q (hi.batches hq)).1 (heq ▸ hp)⟩

theorem radioApp_published_once_both : ∃ s, Relation.ReflTransGen (Guarded Net.step Net.Once)
    (Net.init : Net sampleApp) s ∧
    s.published.length = 21 ∧ (s.loraPositions ++ s.httpPositions).Nodup := by
  have hpublished : (execGuarded Net.step Net.Once (Net.init : Net sampleApp) sendBoth).map
      (fun s => s.published.length) = some 21 := by decide +kernel
  obtain ⟨s, hexec, hs⟩ := Option.map_eq_some_iff.mp hpublished
  have hrun := Guarded.of_exec hexec
  exact ⟨s, hrun, hs, radioApp_published_once hrun⟩

/-- The messages are all different, and each is published twice. -/
theorem loseResponse_publishes_twice :
    ∃ s, Relation.ReflTransGen (Guarded Net.step fun _ _ _ => True) (Net.init : Net sampleApp) s ∧
      (s.history.accepted.map Entry.bytes).Nodup ∧ ¬ (s.published.map Publication.record).Nodup ∧
      ¬ (s.loraPositions ++ s.httpPositions).Nodup := by
  have hexec : (execGuarded Net.step (fun _ _ _ => True) (Net.init : Net sampleApp) loseResponse).map
    (fun s =>
      (s.history.accepted.map Entry.bytes, s.published.map Publication.record, s.loraPositions ++ s.httpPositions)) =
        some (twenty.map (fun i => [0, 1, UInt8.ofNat i]),
        (twenty ++ twenty).map (fun i => ⟨[], [UInt8.ofNat i]⟩),
          twenty ++ twenty) := by decide +kernel
  obtain ⟨s, hexec, hs⟩ := Option.map_eq_some_iff.mp hexec
  simp only [Prod.mk.injEq] at hs
  obtain ⟨haccepted, hpublished, hpositions⟩ := hs
  refine ⟨s, Guarded.of_exec hexec, ?_, ?_, ?_⟩
  · rw [haccepted]
    decide +kernel
  · rw [hpublished]
    decide +kernel
  · rw [hpositions]
    decide +kernel

/-! ## What is dropped was published -/

/-- What follows the header of a LoRa packet is records. -/
def Parses (packet : Bytes) : Prop := loraRecords packet.length (packet.drop 7) ≠ none

instance : DecidablePred Parses := fun packet => by
  unfold Parses
  infer_instance

theorem LoraReceiver.receive_parses {l : LoraReceiver} {buf : Bytes} (hlen : 6 < buf.length)
    (hdrops : ¬ l.Drops buf) (hparses : Parses buf) : (l.receive buf).2 ≠ [] := by
  obtain ⟨rs, hrs⟩ := Option.ne_none_iff_exists'.mp hparses
  rw [receive, if_pos hlen, parse, if_neg hdrops]
  simp only
  rw [hrs]
  simpa using loraRecords_ne_nil hrs

namespace Net

variable {f : Firmware} {s s' : Net f} {e : Event}

/-- Since the last LoRa packet that got through, the device has not started and
no send was acknowledged, and that packet can be parsed; or the acknowledged
sends since the start differ modulo 256. -/
def Counted (s : Net f) (e : Event) (_ : Net f) : Prop :=
  match e with
  | .deliver => ∀ u ∈ s.uplinks.latest,
      (u.boots = s.boots ∧ u.sends = s.sends ∧ Parses u.packet) ∨ u.sends % 256 ≠ s.sends % 256
  | _ => True

/-- A packet is sent again, or it has another number than the one before it. -/
def Renumbered (u v : Uplink) : Prop :=
  (v = u ∧ Parses u.packet) ∨ sequenceNumber v.packet ≠ sequenceNumber u.packet

structure Remembered (s : Net f) : Prop extends Base s where
  sn : s.history.sn = UInt8.ofNat s.sends
  numbers : ∀ u ∈ s.uplinks.line, sequenceNumber u.packet = UInt8.ofNat u.sends
  chained : s.uplinks.Chained Renumbered
  boots : ∀ u, s.uplinks.latest = some u → u.boots ≤ s.boots
  /-- Since the device started, messages left only when a send was acknowledged. -/
  sends : ∀ u, s.uplinks.latest = some u → u.boots = s.boots →
    u.sends ≤ s.sends ∧ (u.sends = s.sends → u.position = s.history.taken)
  lastPublished : ∀ u, s.uplinks.last = some u → Parses u.packet → s.lastPublished = some u

theorem Remembered.init : Remembered (init : Net f) where
  toBase := .init
  sn := rfl
  numbers := fun _ hu => by cases hu
  chained := .nil
  boots := fun _ hu => by cases hu
  sends := fun _ hu => by cases hu
  lastPublished := fun _ hu => by cases hu

theorem ofNat_eq_iff {m n : Nat} : UInt8.ofNat m = UInt8.ofNat n ↔ m % 256 = n % 256 := by
  rw [← UInt8.toNat_inj, UInt8.toNat_ofNat', UInt8.toNat_ofNat']

theorem Remembered.receive {u : Uplink} {uplinks : Channel Uplink} (hi : Remembered s)
    (htake : s.uplinks.take? = some (u, uplinks)) (hdrops : s.lora.Drops u.packet) :
    s.lastPublished = some u := by
  rw [LoraReceiver.Drops, (hi.carries u (Channel.mem_take htake)).deviceId, hi.seen] at hdrops
  obtain ⟨v, hv, hnumber⟩ := Option.map_eq_some_iff.mp hdrops
  rcases (hi.chained.take htake).2 v hv with ⟨rfl, hparses⟩ | hne
  · exact hi.lastPublished _ hv hparses
  · exact absurd hnumber.symm hne

theorem Remembered.step (hi : Remembered s) (h : s.step e = some s') (hcounted : s.Counted e s') :
    Remembered s' := by
  have hbase := hi.toBase.step h
  cases e with
  | radio e =>
    obtain ⟨r, as, hc, rfl⟩ := step_radio h
    refine ⟨hbase, ?_, hi.numbers, hi.chained, hi.boots, fun u hu hboots => ?_, hi.lastPublished⟩
    · simp only
      rw [History.run_sn, hi.sn, UInt8.ofNat_add]
    · obtain ⟨hle, htaken⟩ := hi.sends u hu hboots
      refine ⟨Nat.le_add_right_of_le hle, fun heq => ?_⟩
      simp only at heq ⊢
      rw [History.run_taken (by omega)]
      exact htaken (by omega)
  | deliver =>
    obtain ⟨packet, stack, hst, rfl⟩ := step_deliver h
    obtain ⟨m, hm, hpacket⟩ := hi.sending hst
    have hnumber : sequenceNumber packet = UInt8.ofNat s.sends := by
      rw [hpacket, Firmware.sequenceNumber_packet, hi.sn]
    refine ⟨hbase, hi.sn, fun u hu => ?_, hi.chained.send fun v hv => ?_, fun u hu => ?_,
      fun u hu _ => ?_, hi.lastPublished⟩
    · rw [Channel.line_send] at hu
      rcases List.mem_append.mp hu with hu | hu
      · exact hi.numbers u hu
      · obtain rfl := List.mem_singleton.mp hu
        exact hnumber
    · rcases hcounted v hv with ⟨hboots, hsends, hparses⟩ | hne
      · -- the packet is of the same message, with the same number
        refine .inl ⟨?_, hparses⟩
        have hposition := (hi.sends v hv hboots).2 hsends
        obtain ⟨m', hm', hpacket'⟩ := (hi.current v hv).2 hposition
        obtain rfl := Option.some.inj (hm.symm.trans hm')
        rw [hpacket, ← hpacket', ← hposition, ← hboots, ← hsends]
      · refine .inr fun heq => hne ?_
        rw [hnumber, hi.numbers v (Channel.mem_line_of_latest hv)] at heq
        exact (ofNat_eq_iff.mp heq).symm
    · rw [Channel.latest_send] at hu
      cases hu
      exact Nat.le_refl _
    · rw [Channel.latest_send] at hu
      cases hu
      exact ⟨Nat.le_refl _, fun _ => rfl⟩
  | post =>
    obtain ⟨cellBuffer, tempHead, stack, -, -, rfl⟩ := step_post h
    exact ⟨hbase, hi.sn, hi.numbers, hi.chained, hi.boots, hi.sends, hi.lastPublished⟩
  | receive =>
    obtain ⟨u, uplinks, htake, rfl⟩ := step_receive h
    have hlatest := Channel.latest_take htake
    refine ⟨hbase, hi.sn, fun v hv => hi.numbers v (Channel.mem_line_take htake hv),
      (hi.chained.take htake).1,
      fun v hv => hi.boots v (hlatest ▸ hv), fun v hv => hi.sends v (hlatest ▸ hv), fun v hv hparses => ?_⟩
    obtain rfl := Option.some.inj ((Channel.line_take htake).1.symm.trans hv)
    by_cases hdrops : s.lora.Drops u.packet
    · have hnone := LoraReceiver.receive_drops hdrops
      exact (if_pos hnone).trans (hi.receive htake hdrops)
    · exact if_neg (LoraReceiver.receive_parses (hi.carries u (Channel.mem_take htake)).length hdrops hparses)
  | other buf =>
    obtain ⟨-, rfl⟩ := step_other h
    exact ⟨hbase, hi.sn, hi.numbers, hi.chained, hi.boots, hi.sends, hi.lastPublished⟩
  | reboot =>
    cases h
    refine ⟨hbase, rfl, hi.numbers, hi.chained, fun u hu => Nat.le_succ_of_le (hi.boots u hu),
      fun u hu hboots => ?_,
      hi.lastPublished⟩
    have hle := hi.boots u hu
    simp only at hboots
    omega

end Net

/-! ### The result -/

instance {f : Firmware} (s : Net f) (e : Net.Event) (s' : Net f) : Decidable (s.Counted e s') :=
  match e with
  | .deliver => inferInstanceAs (Decidable (∀ u ∈ s.uplinks.latest,
      (u.boots = s.boots ∧ u.sends = s.sends ∧ Parses u.packet) ∨ u.sends % 256 ≠ s.sends % 256))
  | .radio _ | .post | .receive | .other _ | .reboot => .isTrue trivial

/-- A message is published, and sent in one LoRa packet that gets through and is as given. -/
def sendByte (data : UInt8) (ret : Int) : List Net.Event :=
  [.radio .joined, publishByte data, .radio (.timer true), .radio (.resume { ret := -1 }), .deliver,
    .radio (.resume { ret })]

/-- The device restarts after a message was published, and sends another one. -/
def restartAndSend : List Net.Event := sendByte 1 0 ++ .receive :: .reboot :: sendByte 2 0

/-- The packet that gets through first is sent again. -/
def sendAgain : List Net.Event :=
  sendByte 1 (-1) ++ [.radio (.resume { ret := 0 }), .radio (.timer true),
    .radio (.resume { ret := -1 }), .deliver, .receive]

/-- In every run of `radio_app` in which the count of acknowledged sends does
not come back between two LoRa packets that get through, a packet is dropped
only when `lora-receiver` has published the same packet last. -/
theorem radioApp_drops_published {address : Bytes} {length_address : address.length = 6}
    {share : UInt8 → UInt16 → UInt32 → UInt32} {s : Net (radioApp address length_address share)}
    {u : Uplink} {uplinks : Channel Uplink}
    (hrun : Relation.ReflTransGen (Guarded Net.step Net.Counted) Net.init s)
    (htake : s.uplinks.take? = some (u, uplinks)) (hdrops : s.lora.Drops u.packet) :
    s.lastPublished = some u := by
  have hi : Net.Remembered s := Guarded.invariant (fun hi hc hg => hi.step hc hg) hrun .init
  exact hi.receive htake hdrops

/-- The packet that `lora-receiver` drops next, and the one it published last. -/
def Net.dropped {f : Firmware} (s : Net f) : Option (Uplink × Option Uplink) :=
  s.uplinks.take?.bind fun p => if s.lora.Drops p.1.packet then some (p.1, s.lastPublished) else none

theorem Net.of_dropped {f : Firmware} {s : Net f} {u : Uplink} {l : Option Uplink}
    (h : s.dropped = some (u, l)) :
    ∃ uplinks, s.uplinks.take? = some (u, uplinks) ∧ s.lora.Drops u.packet ∧ s.lastPublished = l := by
  obtain ⟨⟨v, uplinks⟩, htake, h⟩ := Option.bind_eq_some_iff.mp h
  split at h
  · next hdrops =>
    cases h
    exact ⟨uplinks, htake, hdrops, rfl⟩
  · cases h

theorem radioApp_drops_published_again :
    ∃ s u uplinks, Relation.ReflTransGen (Guarded Net.step Net.Counted) (Net.init : Net sampleApp) s ∧
      s.uplinks.take? = some (u, uplinks) ∧ s.lora.Drops u.packet ∧ s.lastPublished = some u := by
  have hsome :
      ((execGuarded Net.step Net.Counted (Net.init : Net sampleApp) sendAgain).bind Net.dropped).isSome := by
    decide +kernel
  obtain ⟨⟨u, l⟩, hbind⟩ := Option.isSome_iff_exists.mp hsome
  obtain ⟨s, hexec, hdropped⟩ := Option.bind_eq_some_iff.mp hbind
  obtain ⟨uplinks, htake, hdrops, -⟩ := Net.of_dropped hdropped
  have hrun := Guarded.of_exec hexec
  exact ⟨s, u, uplinks, hrun, htake, hdrops, radioApp_drops_published hrun htake hdrops⟩

/-- The second message is dropped, though it was never published. -/
theorem restart_drops_new : ∃ s u uplinks, Relation.ReflTransGen (Guarded Net.step fun _ _ _ => True)
    (Net.init : Net sampleApp) s ∧
    s.uplinks.take? = some (u, uplinks) ∧ s.lora.Drops u.packet ∧ s.lastPublished ≠ some u ∧
      s.loraPositions = [0] ∧ u.position = 1 := by
  have hexec : (execGuarded Net.step (fun _ _ _ => True) (Net.init : Net sampleApp) restartAndSend).bind
      (fun s => s.dropped.map fun p => (decide (p.2 = some p.1), s.loraPositions, p.1.position)) =
        some (false, [0], 1) := by decide +kernel
  obtain ⟨s, hexec, hdropped⟩ := Option.bind_eq_some_iff.mp hexec
  obtain ⟨⟨u, l⟩, hdropped, hlast⟩ := Option.map_eq_some_iff.mp hdropped
  simp only [Prod.mk.injEq, decide_eq_false_iff_not] at hlast
  obtain ⟨uplinks, htake, hdrops, rfl⟩ := Net.of_dropped hdropped
  exact ⟨s, u, uplinks, Guarded.of_exec hexec, htake, hdrops, hlast⟩

end Signpost
