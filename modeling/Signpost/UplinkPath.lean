/-
What a fix of the GPS becomes on the way up: the controller publishes it, the radio
queues it among other messages and sends it over LoRa, `lora-receiver` publishes it and
the server makes a message of it.

The tagger on the server passes topic and data on as they are. Between the queue and
`lora-receiver` nothing is lost, doubled or put in another order, so that of the messages
in the queue just those of the GPS have to be told from the others: by how their topics
end, as the server tells them.
-/
import Signpost.Publish
import Signpost.RadioDownlink
import Signpost.StopAndWait
import Signpost.TimeLocation

namespace Signpost

open Lib Calendar Controller TimeLocation RadioDownlink
open Utf16 (ascii ofUtf8)

namespace UplinkPath

/-! ## Topics -/

/-- The topics of the GPS branch of `parse`. -/
def GpsTopic (topic : Text) : Prop := ascii "signpost/control/gps" <:+ topic ∨ ascii "lab11/gps" <:+ topic

instance : DecidablePred GpsTopic := fun _ => instDecidableOr

/-- The data of a record with such a topic. -/
def gpsData (m : ParsedRecord) : Option Bytes := if GpsTopic m.topic then some m.data else none

/-- The message that the server makes of a publication, if it is one of the GPS. -/
def gpsMessage (p : Publication) : Option GpsMessage := (gpsData p.record).bind parseGps

/-! ## Controller, radio and server -/

/-- `fixes` are those whose publication the radio has answered with success. -/
structure State (f : Firmware) where
  net : Net f
  fixes : List GpsData

variable {f : Firmware}

def init : State f := ⟨Net.init, []⟩

inductive Event
  /-- `send_gps_update`, after this fix. -/
  | sendGpsUpdate (fix : GpsData) (p : PublishCall)
  /-- All else, also messages of other modules. -/
  | net (e : Net.Event)

/-- What the radio answers to a publish of the controller. -/
def answer (q : Queue f.bufferSize) (p : PublishCall) : Option Reply :=
  (networkingApiCallback q moduleAddressController commandFrame networkingPublishMessage (UInt32.ofNat p.len) p.buf).1

/-- The message of a publish is received. -/
def received (p : PublishCall) : Net.Event :=
  .radio (.message moduleAddressController commandFrame networkingPublishMessage (UInt32.ofNat p.len) p.buf)

def step (s : State f) : Event → Option (State f)
  | .sendGpsUpdate fix p =>
    (s.net.step (received p)).map fun net =>
      { net, fixes := if (answer s.net.radio.queue p).any (·.errorCode = 0) then s.fixes ++ [fix] else s.fixes }
  | .net e => (s.net.step e).map fun net => { s with net }

/-- The publish of `send_gps_update`, by a controller that has its name. -/
structure Publishes (fix : GpsData) (p : PublishCall) : Prop where
  name : p.name = controlName
  topic : p.topicName = ofChars "gps"
  payload : p.payload = (gpsCallback fix).gpsBuf

/-- LoRa is the only way, and no other module publishes with a topic of the GPS. -/
def Allowed (s : State f) : Event → State f → Prop
  | .sendGpsUpdate fix p, _ => Publishes fix p
  | .net e, s' => s.net.LoraOnly e s'.net ∧
      ∀ m ∈ s'.net.history.accepted.drop s.net.history.accepted.length, ¬ GpsTopic (Net.parsed m).topic

/-- The messages that the server makes of what `lora-receiver` published for the device. -/
def messages (f : Firmware) (published : List Publication) : List GpsMessage :=
  (published.filter fun p => p.receiver = .lora ∧ p.deviceId = deviceId f.address).filterMap gpsMessage

/-- A message says what the fix does; the time if it is of a year that the server takes for one
of this century. -/
structure Reports (message : GpsMessage) (fix : GpsData) : Prop where
  latitude : (if message.latitudeDirection = 'S' then -message.latitude else message.latitude) =
    int32 fix.latitude.toNat
  longitude : (if message.longitudeDirection = 'W' then -message.longitude else message.longitude) =
    int32 fix.longitude.toNat
  timestamp : ∀ m : Moment, m.Valid → Shows fix m → (message.timestamp = m.epoch * 1000 ↔ fix.year < 80)
  satelliteCount : message.satelliteCount = fix.satelliteCount.toNat

/-! ## The publish of a fix -/

section
variable {fix : GpsData} {p : PublishCall}

/-- The publish has a slash of its own: neither does the topic start with one, nor does the name end with one. -/
theorem Publishes.slash (h : Publishes fix p) : p.Slash := by
  constructor
  · have htopic := h.topic
    have hread : p.topic.read 0 14 = p.topic 0 :: p.topic.read 1 13 := rfl
    intro hslash
    rw [PublishCall.topicName, strn, hread, hslash] at htopic
    cases htopic
  · have hname := h.name
    have hlen : p.nlen = 16 := by
      rw [← PublishCall.length_name, hname]
      rfl
    have hall : p.selfName.read 0 16 = controlName := by
      have hbegins := List.takeWhile_prefix (l := p.selfName.read 0 16) fun b => decide (b ≠ 0)
      rw [PublishCall.name, strn, nameLen] at hname
      rw [hname] at hbegins
      exact (hbegins.eq_of_length (by rw [Mem.length_read]; rfl)).symm
    have hlast := congrArg (fun b => b[15]?) hall
    rw [hlen]
    intro hslash
    have hread : (p.selfName.read 0 16)[15]? = some (p.moduleInfo 16) := rfl
    rw [hread, hslash] at hlast
    exact absurd hlast (by decide)

theorem Publishes.len (h : Publishes fix p) : p.len = 40 := by
  have hname : p.nlen = 16 := by
    rw [← PublishCall.length_name, h.name]
    rfl
  have htopic : p.slen = 3 := by
    rw [← PublishCall.length_topicName, h.topic]
    rfl
  have hdata : p.dataLen.toNat = 18 := by
    rw [← PublishCall.length_payload, h.payload]
    rfl
  rw [PublishCall.len, hname, htopic, hdata, PublishCall.slash, if_pos h.slash]

theorem Publishes.gpsData_message (h : Publishes fix p) :
    p.buf.read 0 (UInt32.ofNat p.len).toUInt8.toNat = p.record.encode ∧
      gpsData p.record.parsed = some (gpsCallback fix).gpsBuf := by
  have hlen : (UInt32.ofNat p.len).toUInt8.toNat = p.len := by
    rw [h.len]
    rfl
  have htopic : GpsTopic p.record.parsed.topic := by
    rw [Record.parsed, PublishCall.record, h.name, h.topic]
    change GpsTopic (ofUtf8 (controlName ++ 0x2F :: ofChars "gps"))
    exact .inl (by decide)
  refine ⟨by rw [hlen, PublishCall.read_buf h.slash], ?_⟩
  rw [gpsData, if_pos htopic, Record.parsed, PublishCall.record, h.payload]

theorem exists_reports (fix : GpsData) : ∃ message, parseGps (gpsCallback fix).gpsBuf = some message ∧
    Reports message fix := by
  refine ⟨_, parseGps_gpsBuf fix, ?_, ?_, fun m hm h => dateUTC_eq_iff h hm, rfl⟩
  · generalize int32 fix.latitude.toNat = x
    exact signed_direction (by decide)
  · generalize int32 fix.longitude.toNat = x
    exact signed_direction (by decide)

end

/-! ## Over runs -/

section
variable {s s' : Net f} {e : Net.Event}

theorem accepted_step (hb : s.Base) (h : s.step e = some s') : s.history.accepted <+: s'.history.accepted := by
  cases e with
  | radio e =>
    obtain ⟨r, as, hc, rfl⟩ := Net.step_radio h
    obtain ⟨hallows, -, -⟩ := hb.alone.step hc
    exact (hb.alone.still.grows hb.alone.sim.tied.toOk hallows).accepted
  | deliver =>
    obtain ⟨packet, stack, -, rfl⟩ := Net.step_deliver h
    exact List.prefix_rfl
  | post =>
    obtain ⟨cellBuffer, tempHead, stack, -, -, rfl⟩ := Net.step_post h
    exact List.prefix_rfl
  | receive =>
    obtain ⟨u, uplinks, -, rfl⟩ := Net.step_receive h
    exact List.prefix_rfl
  | other buf =>
    obtain ⟨-, rfl⟩ := Net.step_other h
    exact List.prefix_rfl
  | reboot =>
    cases h
    exact List.prefix_rfl

end

section
variable {s s' : State f} {e : Event} {fix : GpsData} {p : PublishCall} {net net' : Net f}

structure Invariant (s : State f) : Prop where
  inOrder : s.net.InOrder
  /-- Of the messages that the queue accepted, those of the GPS have the packets of the fixes. -/
  fixes : (s.net.history.accepted.map Net.parsed).filterMap gpsData =
    s.fixes.map fun fix => (gpsCallback fix).gpsBuf

theorem Invariant.init : Invariant (init : State f) where
  inOrder := .init
  fixes := rfl

/-- The publish of a fix is put behind the other messages and answered with success, or
neither of both. -/
theorem received_cases (h : Publishes fix p) (hc : net.step (received p) = some net') :
    net.OverLora (received p) ∧
    (((answer net.radio.queue p).any (·.errorCode = 0) = true ∧
        ∃ m, m.bytes = p.record.encode ∧ net'.history.accepted = net.history.accepted ++ [m]) ∨
      ((answer net.radio.queue p).any (·.errorCode = 0) = false ∧
        net'.history.accepted = net.history.accepted)) := by
  have hcommand : commandFrame = notificationFrame ∨ commandFrame = commandFrame := .inr rfl
  obtain ⟨r, as, hr, rfl⟩ := Net.step_radio hc
  obtain ⟨rc, q, hadd, has, -⟩ := Radio.step_publish ⟨hcommand, rfl⟩ hr
  obtain ⟨hlow, hhigh⟩ := Queue.addBufferToQueue_rc hadd
  have hcode : (answer net.radio.queue p).any (·.errorCode = 0) = decide (rc = 0) := by
    rw [answer, networkingApiCallback_publish hcommand, hadd, Option.any_some,
      errorCode_publishReply (by omega) (by omega)]
  have hover : net.OverLora (received p) := by
    refine ⟨trivial, fun pair hpair => ?_⟩
    obtain rfl := Option.some.inj ((Option.mem_def.mp hpair).symm.trans hr)
    rw [has]
    rfl
  refine ⟨hover, ?_⟩
  rw [hcode, has]
  by_cases hzero : rc = 0
  · refine .inl ⟨decide_eq_true hzero,
      ⟨moduleAddressController, p.buf.read 0 (UInt32.ofNat p.len).toUInt8.toNat⟩, h.gpsData_message.1, ?_⟩
    simp only [History.run, List.foldl_cons, List.foldl_nil, History.next, if_pos hzero]
  · refine .inr ⟨decide_eq_false hzero, ?_⟩
    simp only [History.run, List.foldl_cons, List.foldl_nil, History.next, if_neg hzero]

theorem Invariant.step (hi : Invariant s) (h : step s e = some s') (hallowed : Allowed s e s') : Invariant s' := by
  cases e with
  | sendGpsUpdate fix p =>
    simp only [UplinkPath.step, Option.map_eq_some_iff] at h
    obtain ⟨net', hc, rfl⟩ := h
    have hpublishes : Publishes fix p := hallowed
    obtain ⟨hover, hcases⟩ := received_cases hpublishes hc
    have hformed : ∀ m ∈ net'.history.accepted, WellFormed m.bytes := by
      rcases hcases with ⟨-, m, hm, haccepted⟩ | ⟨-, haccepted⟩
      · rw [haccepted]
        intro m' hm'
        rcases List.mem_append.mp hm' with hold | hnew
        · exact hi.inOrder.wellFormed m' hold
        · obtain rfl := List.mem_singleton.mp hnew
          exact ⟨p.record, PublishCall.fits_record, hm⟩
      · rw [haccepted]
        exact hi.inOrder.wellFormed
    refine ⟨hi.inOrder.step hc ⟨hover, hformed⟩, ?_⟩
    rcases hcases with ⟨hanswered, m, hm, haccepted⟩ | ⟨hanswered, haccepted⟩
    · have hdata : gpsData (Net.parsed m) = some (gpsCallback fix).gpsBuf := by
        rw [Net.parsed, hm, Record.ofBytes_encode PublishCall.fits_record, hpublishes.gpsData_message.2]
      rw [haccepted, if_pos hanswered, List.map_append, List.filterMap_append, hi.fixes, List.map_append]
      simp only [List.map_cons, List.map_nil, List.filterMap_cons, List.filterMap_nil, hdata]
    · rw [haccepted, hanswered, hi.fixes]
      rfl
  | net e =>
    simp only [UplinkPath.step, Option.map_eq_some_iff] at h
    obtain ⟨net', hc, rfl⟩ := h
    obtain ⟨hlora, hother⟩ := hallowed
    refine ⟨hi.inOrder.step hc hlora, ?_⟩
    obtain ⟨more, hmore⟩ := accepted_step hi.inOrder.toBase hc
    rw [← hmore, List.drop_left] at hother
    have hnone : (more.map Net.parsed).filterMap gpsData = [] := by
      rw [List.filterMap_eq_nil_iff]
      intro parsed hparsed
      obtain ⟨m, hm, rfl⟩ := List.mem_map.mp hparsed
      exact if_neg (hother m hm)
    rw [← hmore, List.map_append, List.filterMap_append, hi.fixes, hnone, List.append_nil]

theorem messages_eq (f : Firmware) (published : List Publication) :
    messages f published = ((Net.ofDevice f published).filterMap gpsData).filterMap parseGps := by
  rw [messages, Net.ofDevice, List.filterMap_map, List.filterMap_filterMap]
  rfl

/-- **The server reports the fixes of the GPS.** In every run with LoRa alone, the messages
that it makes are, in order, of the first fixes whose publication the radio has answered with
success, each of one of them, and say what these do. -/
theorem fixes_reported (hrun : Relation.ReflTransGen (Guarded step Allowed) (init : State f) s) :
    ∃ reported, reported <+: s.fixes ∧ List.Forall₂ Reports (messages f s.net.published) reported := by
  have hi : Invariant s := Guarded.invariant (fun hi hc hg => hi.step hc hg) hrun .init
  have hprefix : (Net.ofDevice f s.net.published).filterMap gpsData <+:
      s.fixes.map fun fix => (gpsCallback fix).gpsBuf := by
    rw [← hi.fixes, hi.inOrder.published]
    exact ((List.take_prefix _ _).map _).filterMap _
  obtain ⟨reported, hreported, heq⟩ := List.prefix_map_iff.mp hprefix
  refine ⟨reported, hreported, ?_⟩
  rw [messages_eq, heq]
  clear heq hreported hprefix
  induction reported with
  | nil => exact .nil
  | cons fix reported ih =>
    obtain ⟨message, hmessage, hreports⟩ := exists_reports fix
    rw [List.map_cons, List.filterMap_cons_some hmessage]
    exact .cons hreports ih

end

/-! ## A run -/

instance (fix : GpsData) (p : PublishCall) : Decidable (Publishes fix p) :=
  decidable_of_iff (p.name = controlName ∧ p.topicName = ofChars "gps" ∧ p.payload = (gpsCallback fix).gpsBuf)
    ⟨fun ⟨hname, htopic, hpayload⟩ => ⟨hname, htopic, hpayload⟩, fun h => ⟨h.name, h.topic, h.payload⟩⟩

instance (s : State f) (e : Event) (s' : State f) : Decidable (Allowed s e s') :=
  match e with
  | .sendGpsUpdate fix p => inferInstanceAs (Decidable (Publishes fix p))
  | .net _ => instDecidableAnd

def updateOf (fix : GpsData) : PublishCall where
  moduleInfo := .ofList (moduleAddressController :: controlName) 0
  topic := .ofList (ofChars "gps") 0
  data := .ofList (gpsCallback fix).gpsBuf 0
  dataLen := 18
  heap := fun _ => 0

def leapDayUpdate : List Event :=
  [.net (.radio .joined), .sendGpsUpdate leapDay (updateOf leapDay), .net (.radio (.timer true)),
    .net (.radio (.resume { ret := -1 })), .net .deliver, .net (.radio (.resume { ret := 0 })),
    .net (.radio (.resume { ret := 0 })), .net .receive]

theorem fixes_reported_leap_day : ∃ s : State sampleApp,
    Relation.ReflTransGen (Guarded step Allowed) init s ∧
    (messages sampleApp s.net.published).map GpsMessage.timestamp = [1456704000000] ∧
    ∃ reported, reported <+: s.fixes ∧ List.Forall₂ Reports (messages sampleApp s.net.published) reported := by
  have htimes : (execGuarded step Allowed (init : State sampleApp) leapDayUpdate).map
      (fun s => (messages sampleApp s.net.published).map GpsMessage.timestamp) = some [1456704000000] := by
    decide +kernel
  obtain ⟨s, hexec, hs⟩ := Option.map_eq_some_iff.mp htimes
  have hrun := Guarded.of_exec hexec
  exact ⟨s, hrun, hs, fixes_reported hrun⟩

end UplinkPath

end Signpost
