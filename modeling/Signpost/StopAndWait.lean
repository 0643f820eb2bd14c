/-
With LoRa alone, `lora-receiver` publishes what the radio's queue accepted, in
order, and each message once: the device sends the message at its head until
that is acknowledged, and its number goes on with the head. Two packets that
follow each other on the channel are of one message or of two neighbours, so
their numbers are equal exactly when their messages are, although they wrap.
-/
import Signpost.Delivery

namespace Signpost

open Lib

/-! ## Well-formed messages -/

/-- The test that bytes are those of one record. -/
def wellFormed : Bytes → Bool
  | [] => false
  | tlen :: rest =>
    match rest.drop tlen.toNat with
    | [] => false
    | dlen :: data => data.length = dlen.toNat

theorem wellFormed_iff {bytes : Bytes} : wellFormed bytes = true ↔ WellFormed bytes := by
  constructor
  · intro h
    unfold wellFormed at h
    split at h
    · cases h
    · next tlen rest =>
      split at h
      · cases h
      · next dlen data hdrop =>
        have hdata := of_decide_eq_true h
        have hlen := congrArg List.length hdrop
        rw [List.length_drop, List.length_cons] at hlen
        have htopic : (rest.take tlen.toNat).length = tlen.toNat := by
          rw [List.length_take]
          omega
        refine ⟨⟨rest.take tlen.toNat, data⟩, ⟨?_, ?_⟩, ?_⟩
        · rw [htopic]
          exact tlen.toNat_lt
        · rw [hdata]
          exact dlen.toNat_lt
        · simp only [Record.encode]
          rw [htopic, hdata, UInt8.ofNat_toNat, UInt8.ofNat_toNat, ← hdrop, List.cons_append,
            List.take_append_drop]
  · rintro ⟨r, hr, rfl⟩
    obtain ⟨tlen, dlen, henc, htlen, hdlen⟩ := hr.split
    rw [henc, wellFormed, List.drop_left' htlen.symm]
    exact decide_eq_true hdlen.symm

instance : DecidablePred WellFormed :=
  fun bytes => decidable_of_iff (wellFormed bytes = true) wellFormed_iff

/-! ## The runs -/

def Action.posts : Action → Bool
  | .post .. => true
  | _ => false

def Stage.Acked (delivered : Bool) (a : Answer) : Stage → Prop
  | .sending _ => a.ret < 0 ∨ delivered = true
  | _ => True

namespace Net

variable {f : Firmware} {s s' : Net f} {e : Event}

/-- A status of `xdot_send` that is not negative is that of a packet that got through. -/
def Acked (s : Net f) : Radio.Event → Prop
  | .resume a => ∀ g ∈ s.radio.stack.head?, g.Acked s.delivered a
  | _ => True

/-- No batch is posted, and nothing restarts. -/
def OverLora (s : Net f) : Event → Prop
  | .radio e => s.Acked e ∧ ∀ p ∈ s.radio.step e, p.2.all fun a => !a.posts
  | .reboot => False
  | _ => True

/-- So it is, and what is queued is well formed. -/
def LoraOnly (s : Net f) (e : Event) (s' : Net f) : Prop :=
  s.OverLora e ∧ ∀ m ∈ s'.history.accepted, WellFormed m.bytes

/-- What `lora-receiver` published for the device. -/
def ofDevice (f : Firmware) (published : List Publication) : List ParsedRecord :=
  (published.filter fun p => p.receiver = .lora ∧ p.deviceId = deviceId f.address).map Publication.record

/-- What a message of the queue is parsed into. -/
def parsed (m : Entry) : ParsedRecord := (Record.ofBytes m.bytes).parsed

end Net

/-! ## The number and the head -/

namespace History

variable {f : Firmware} {h : History} {a : Action} {as : List Action}

/-- The number counts the messages that have left, which leave one by one. -/
structure Counts (h : History) : Prop where
  sn : h.sn = UInt8.ofNat h.taken
  lora : ∀ s, h.sending = some s → s.via = .lora

theorem Counts.next (hc : h.Counts) (hstill : h.Still f) (hfits : h.Fits f a) (hposts : a.posts = false) :
    (h.next a).Counts := by
  cases a with
  | add e rc =>
    refine ⟨?_, fun s hs => hc.lora s (next_add_sending ▸ hs)⟩
    rw [next_add_taken, History.next]
    split <;> exact hc.sn
  | lora packet =>
    refine ⟨hc.sn, fun s hs => ?_⟩
    obtain ⟨-, rfl⟩ := form_sending hs
    rfl
  | post => cases hposts
  | sent packet =>
    obtain ⟨s, hsend, -, hs⟩ := hfits
    rw [History.next, hsend]
    refine ⟨?_, fun s hs => by cases hs⟩
    simp only [Option.elim]
    rw [hs.lora (hc.lora s hsend), (hstill s hsend).1, hc.sn, UInt8.ofNat_add]
    rfl
  | failed => exact ⟨hc.sn, fun s hs => by cases hs⟩
  | reply | report => exact hc

theorem Counts.run (hc : h.Counts) (hok : h.Ok f) (hstill : h.Still f) (hallows : h.Allows f as)
    (hposts : as.all fun a => !a.posts) : (h.run as).Counts := by
  induction as generalizing h with
  | nil => exact hc
  | cons a as ih =>
    simp only [List.all_cons, Bool.and_eq_true, Bool.not_eq_true'] at hposts
    exact ih (hc.next hstill hallows.1 hposts.1) (hok.next hallows.1)
      (hstill.next hok hallows.1) hallows.2 hposts.2

/-- Where no packet is made, one that is still being sent was before, and of the same messages. -/
theorem run_sending (hforms : as.any Action.forms = false) (hsends : (h.run as).sending ≠ none) :
    h.sending ≠ none ∧ (h.run as).taken = h.taken := by
  induction as generalizing h with
  | nil => exact ⟨hsends, rfl⟩
  | cons a as ih =>
    simp only [List.any_cons, Bool.or_eq_false_iff] at hforms
    obtain ⟨hsending, htaken⟩ := ih hforms.2 hsends
    cases a with
    | add e rc => exact ⟨next_add_sending ▸ hsending, htaken.trans next_add_taken⟩
    | lora | post => cases hforms.1
    | sent | failed => exact absurd rfl hsending
    | reply | report => exact ⟨hsending, htaken⟩

end History

theorem ofNat_succ_ne (k : Nat) : UInt8.ofNat (k + 1) ≠ UInt8.ofNat k := by
  intro h
  have hnat := congrArg UInt8.toNat h
  rw [UInt8.toNat_ofNat', UInt8.toNat_ofNat'] at hnat
  omega

/-! ## What holds in every such run -/

namespace Net

variable {f : Firmware} {s s' : Net f} {e : Event}

/-- A packet is of the message of the one before it, or of the next one. -/
def Follows (u v : Uplink) : Prop := v.position = u.position ∨ v.position = u.position + 1

structure InOrder (s : Net f) : Prop extends Base s where
  counts : s.history.Counts
  chained : s.uplinks.Chained Follows
  first : s.uplinks.last = none → ∀ u, s.uplinks.line.head? = some u → u.position = 0
  numbers : ∀ u ∈ s.uplinks.line, sequenceNumber u.packet = UInt8.ofNat u.position
  /-- All messages that have left were delivered. -/
  behind : s.history.taken = 0 ∨ ∃ u, s.uplinks.latest = some u ∧ s.history.taken ≤ u.position + 1
  held : s.delivered = true → s.history.sending ≠ none →
    ∃ u, s.uplinks.latest = some u ∧ u.position = s.history.taken
  succeeding : ∀ packet stack, s.radio.stack = .succeeding packet :: stack → s.delivered = true
  wellFormed : ∀ m ∈ s.history.accepted, WellFormed m.bytes
  published : ofDevice f s.published =
    (s.history.accepted.take (s.uplinks.last.elim 0 fun u => u.position + 1)).map parsed

theorem InOrder.init : InOrder (init : Net f) where
  toBase := .init
  counts := ⟨rfl, fun _ hs => by cases hs⟩
  chained := .nil
  first := fun _ _ hu => by cases hu
  numbers := fun _ hu => by cases hu
  behind := .inl rfl
  held := fun hd => by cases hd
  succeeding := fun _ _ hst => by cases hst
  wellFormed := fun _ hm => by cases hm
  published := rfl

theorem InOrder.not_posting (hi : InOrder s) {cellBuffer : Bytes} {tempHead : Fin queueSize}
    {stack : List Stage}
    (hst : s.radio.stack = .posting cellBuffer tempHead :: stack ∨
      s.radio.stack = .responding cellBuffer tempHead :: stack) : False := by
  have hholds := hi.alone.holds
  have hwaits := hi.alone.sim.waits
  have hlora : ∀ x, s.history.sending = some x → x.via ≠ .cellular := fun x hx hvia => by
    rw [hi.counts.lora x hx] at hvia
    cases hvia
  rcases hst with hst | hst <;> rw [hst] at hholds hwaits
  · obtain ⟨x, hx, -⟩ := hholds.of_top
    obtain ⟨-, hpost, -⟩ := hwaits.of_sends id
    exact hlora x hx (hpost x hx).1
  · obtain ⟨x, hx, -⟩ := hholds.of_top
    obtain ⟨-, hpost, -⟩ := hwaits.of_sends id
    exact hlora x hx (hpost x hx).1

theorem InOrder.taken_radio {e : Radio.Event} {r : Radio f} {as : List Action} (hi : InOrder s)
    (hc : s.radio.step e = some (r, as)) : (s.history.run as).taken = s.history.taken ∨
      ((s.history.run as).taken = s.history.taken + 1 ∧
        ∃ u, s.uplinks.latest = some u ∧ u.position = s.history.taken) := by
  by_cases hnone : as.countP Action.acknowledges = 0
  · exact .inl (History.run_taken hnone)
  · obtain ⟨packet, hsent⟩ := sent_of_countP hnone
    obtain ⟨a, stack, rfl, hst | ⟨tempHead, hst⟩⟩ := Radio.step_sent hc hsent
    · have hholds := hi.alone.holds
      rw [hst] at hholds
      obtain ⟨x, hx, hfirst⟩ := hholds.of_top
      have hlast := (hi.alone.sim.tied.sound x hx).lora (hi.counts.lora x hx)
      simp only [Radio.step, Radio.resume, hst] at hc
      cases hc
      refine .inr ⟨?_, hi.held (hi.succeeding packet stack hst) (by simp [hx])⟩
      rw [History.run_cons, History.run_nil, History.next, hx]
      simp only [Option.elim, hlast, hfirst]
    · exact absurd (.inr hst) hi.not_posting

theorem InOrder.receive_new {u : Uplink} (hi : InOrder s) (hu : u ∈ s.uplinks.line)
    (hdrops : ¬ s.lora.Drops u.packet) :
    (s.history.accepted.take (u.position + 1)).map parsed =
      (s.history.accepted.take u.position).map parsed ++ ofDevice f (s.lora.receive u.packet).2 := by
  obtain ⟨sn, m, hm, hpacket⟩ := hi.carries u hu
  obtain ⟨r, hr, hbytes⟩ := hi.wellFormed m (List.mem_of_getElem? hm)
  rw [hpacket] at hdrops
  rw [hpacket, receive_packet hr hbytes hdrops, List.take_add_one, hm]
  simp [ofDevice, parsed, Record.publication, hbytes, Record.ofBytes_encode hr]

theorem ofDevice_append {ps qs : List Publication} :
    ofDevice f (ps ++ qs) = ofDevice f ps ++ ofDevice f qs := by
  simp [ofDevice]

theorem InOrder.follows (hi : InOrder s) {v : Uplink} (hv : s.uplinks.latest = some v) :
    s.history.taken = v.position ∨ s.history.taken = v.position + 1 := by
  have hle := (hi.current v hv).1
  rcases hi.behind with hzero | ⟨w, hw, hnext⟩
  · omega
  · obtain rfl := Option.some.inj (hv.symm.trans hw)
    omega

theorem InOrder.line_nil (hi : InOrder s) (hline : s.uplinks.line = []) : s.history.taken = 0 := by
  rcases hi.behind with hzero | ⟨w, hw, -⟩
  · exact hzero
  · rw [Channel.latest, hline] at hw
    cases hw

theorem InOrder.receive_published (hi : InOrder s) {u : Uplink} {uplinks : Channel Uplink}
    (htake : s.uplinks.take? = some (u, uplinks)) :
    ofDevice f (s.published ++ (s.lora.receive u.packet).2) =
      (s.history.accepted.take (u.position + 1)).map parsed := by
  have hu := Channel.mem_take htake
  have hseen := hi.seen
  have hdevice := (hi.carries u hu).deviceId
  rw [ofDevice_append, hi.published]
  cases hbefore : s.uplinks.last with
  | none =>
    obtain ⟨hlast, hline⟩ := Channel.line_take htake
    have hfirst : u.position = 0 := hi.first hbefore u (by
      rw [hline, hbefore, Channel.line, hlast]
      rfl)
    have hdrops : ¬ s.lora.Drops u.packet := fun hd => by
      rw [LoraReceiver.Drops, hdevice, hseen, hbefore] at hd
      cases hd
    rw [hi.receive_new hu hdrops, hfirst]
    rfl
  | some v =>
    have hnumber : s.lora.Drops u.packet ↔ sequenceNumber v.packet = sequenceNumber u.packet := by
      rw [LoraReceiver.Drops, hdevice, hseen, hbefore]
      exact Option.some_inj
    rw [hi.numbers u hu, hi.numbers v (by simp [Channel.line, hbefore])] at hnumber
    rcases (hi.chained.take htake).2 v hbefore with hsame | hnext
    · rw [LoraReceiver.receive_drops (hnumber.mpr (by rw [hsame])), hsame]
      exact List.append_nil _
    · have hdrops : ¬ s.lora.Drops u.packet := fun hd => by
        have heq := hnumber.mp hd
        rw [hnext] at heq
        exact ofNat_succ_ne _ heq.symm
      rw [hi.receive_new hu hdrops, hnext]
      rfl

theorem InOrder.step (hi : InOrder s) (h : s.step e = some s') (hguard : s.LoraOnly e s') : InOrder s' := by
  have hbase := hi.toBase.step h
  obtain ⟨hevent, hformed⟩ := hguard
  cases e with
  | radio e =>
    obtain ⟨r, as, hc, rfl⟩ := step_radio h
    obtain ⟨hacked, hposts⟩ := hevent
    obtain ⟨hallows, -, -⟩ := hi.alone.step hc
    have hgrows := hi.alone.still.grows hi.alone.sim.tied.toOk hallows
    refine ⟨hbase, ?_, hi.chained, hi.first, hi.numbers, ?_, fun hd hsends => ?_,
      fun packet stack hst => ?_, hformed, ?_⟩
    · exact hi.counts.run hi.alone.sim.tied.toOk hi.alone.still hallows (hposts _ hc)
    · rcases hi.taken_radio hc with htaken | ⟨htaken, u, hu, hpos⟩
      · exact htaken ▸ hi.behind
      · exact .inr ⟨u, hu, by simp only; omega⟩
    · -- what has got through is still being sent
      simp only at hd
      split at hd
      · cases hd
      · next hforms =>
        obtain ⟨hsending, htaken⟩ := History.run_sending (Bool.not_eq_true _ ▸ hforms) hsends
        exact htaken ▸ hi.held hd hsending
    · obtain ⟨hforms, hbefore⟩ := Radio.step_succeeding hi.alone.sim hc hst
      simp only [hforms, Bool.false_eq_true, if_false]
      rcases hbefore with hbefore | ⟨a, rfl, hok, hbefore⟩
      · exact hi.succeeding packet stack hbefore
      · have hsend := hacked (.sending packet) (by rw [hbefore]; rfl)
        exact hsend.resolve_left hok
    · rw [hi.published]
      obtain ⟨more, hmore⟩ := hgrows.accepted
      simp only
      rw [← hmore, List.take_append_of_le_length]
      cases hlast : s.uplinks.last with
      | none => exact Nat.zero_le _
      | some u => exact (hi.carries u (by simp [Channel.line, hlast])).lt
  | deliver =>
    obtain ⟨packet, stack, hst, rfl⟩ := step_deliver h
    obtain ⟨m, hm, hpacket⟩ := hi.sending hst
    refine ⟨hbase, hi.counts, ?_, fun hlast u hu => ?_, fun u hu => ?_, ?_, fun _ _ => ?_,
      fun _ _ _ => rfl, hformed,
      hi.published⟩
    · exact hi.chained.send fun v hv => hi.follows hv
    · -- it is the first packet
      rw [Channel.line_send] at hu
      cases hline : s.uplinks.line with
      | nil =>
        rw [hline] at hu
        cases hu
        exact hi.line_nil hline
      | cons v vs =>
        rw [hline] at hu
        exact hi.first hlast u (hline ▸ hu)
    · rw [Channel.line_send] at hu
      rcases List.mem_append.mp hu with hu | hu
      · exact hi.numbers u hu
      · obtain rfl := List.mem_singleton.mp hu
        simp only
        rw [hpacket, Firmware.sequenceNumber_packet, hi.counts.sn]
    · exact .inr ⟨_, Channel.latest_send, Nat.le_succ _⟩
    · exact ⟨_, Channel.latest_send, rfl⟩
  | post =>
    obtain ⟨cellBuffer, tempHead, stack, hst, -, rfl⟩ := step_post h
    exact absurd hst hi.not_posting
  | receive =>
    obtain ⟨u, uplinks, htake, rfl⟩ := step_receive h
    obtain ⟨hlast, -⟩ := Channel.line_take htake
    have hlatest := Channel.latest_take htake
    refine ⟨hbase, hi.counts, (hi.chained.take htake).1, fun hnone => ?_,
      fun v hv => hi.numbers v (Channel.mem_line_take htake hv), ?_, ?_, hi.succeeding, hformed, ?_⟩
    · simp only at hnone
      rw [hlast] at hnone
      cases hnone
    · simp only
      rw [hlatest]
      exact hi.behind
    · simp only
      rw [hlatest]
      exact hi.held
    · show ofDevice f (s.published ++ (s.lora.receive u.packet).2) = _
      rw [hlast]
      exact hi.receive_published htake
  | other buf =>
    obtain ⟨hother, rfl⟩ := step_other h
    refine ⟨hbase, hi.counts, hi.chained, hi.first, hi.numbers, hi.behind, hi.held, hi.succeeding,
      hformed, ?_⟩
    have hnone : ofDevice f (s.lora.receive buf).2 = [] := by
      rw [ofDevice, List.filter_eq_nil_iff.mpr fun p hp => ?_, List.map_nil]
      simp [LoraReceiver.deviceId_receive hp, hother]
    simp only
    rw [ofDevice_append, hnone, List.append_nil]
    exact hi.published
  | reboot => exact absurd hevent id

end Net

/-! ## The result -/

instance (delivered : Bool) (a : Answer) : DecidablePred (Stage.Acked delivered a)
  | .sending _ => inferInstanceAs (Decidable (a.ret < 0 ∨ delivered = true))
  | .checking | .rechecking | .posting .. | .responding .. | .failing | .succeeding _ | .receiving | .querying ..
  | .reporting _ | .resetting _ => .isTrue trivial

instance {f : Firmware} (s : Net f) : DecidablePred s.Acked
  | .resume a => inferInstanceAs (Decidable (∀ g ∈ s.radio.stack.head?, g.Acked s.delivered a))
  | .message .. | .timer _ | .joinFailed | .joined => .isTrue trivial

instance {f : Firmware} (s : Net f) : DecidablePred s.OverLora
  | .radio e => inferInstanceAs (Decidable (s.Acked e ∧ ∀ p ∈ s.radio.step e, p.2.all fun a => !a.posts))
  | .reboot => .isFalse id
  | .deliver | .post | .receive | .other _ => .isTrue trivial

instance {f : Firmware} (s : Net f) (e : Net.Event) (s' : Net f) : Decidable (s.LoraOnly e s') :=
  inferInstanceAs (Decidable (s.OverLora e ∧ ∀ m ∈ s'.history.accepted, WellFormed m.bytes))

/-- A message with a topic and a byte of data is published, and sent twice, since the
first packet gets through and is not acknowledged. -/
def sendTwice : List Net.Event :=
  [.radio .joined, .radio (.message 0x31 commandFrame networkingPublishMessage 4 (.ofList [1, 0x61, 1, 7] 0)),
    .radio (.timer true), .radio (.resume { ret := -1 }), .deliver, .radio (.resume { ret := -1 }),
    .radio (.resume { ret := 0 }), .radio (.timer true), .radio (.resume { ret := -1 }), .deliver,
    .radio (.resume { ret := 0 }), .radio (.resume { ret := 0 }), .receive, .receive]

/-- In every run of `radio_app` with LoRa alone, what `lora-receiver` publishes
for the device is a prefix of what its queue accepted. -/
theorem radioApp_in_order {address : Bytes} {length_address : address.length = 6}
    {share : UInt8 → UInt16 → UInt32 → UInt32} {s : Net (radioApp address length_address share)}
    (hrun : Relation.ReflTransGen (Guarded Net.step Net.LoraOnly) Net.init s) :
    Net.ofDevice (radioApp address length_address share) s.published <+: s.history.accepted.map Net.parsed := by
  have hi : Net.InOrder s := Guarded.invariant (fun hi hc hg => hi.step hc hg) hrun .init
  rw [hi.published]
  exact (List.take_prefix _ _).map _

theorem radioApp_in_order_twice : ∃ s, Relation.ReflTransGen (Guarded Net.step Net.LoraOnly)
    (Net.init : Net sampleApp) s ∧
    Net.ofDevice sampleApp s.published = [⟨[0x61], [7]⟩] ∧
    Net.ofDevice sampleApp s.published <+: s.history.accepted.map Net.parsed := by
  have hpublished : (execGuarded Net.step Net.LoraOnly (Net.init : Net sampleApp) sendTwice).map
      (fun s => Net.ofDevice sampleApp s.published) = some [⟨[0x61], [7]⟩] := by decide +kernel
  obtain ⟨s, hexec, hs⟩ := Option.map_eq_some_iff.mp hpublished
  have hrun := Guarded.of_exec hexec
  exact ⟨s, hrun, hs, radioApp_in_order hrun⟩

end Signpost
