/-
The way of a downlink message, from where it is published to the handler of the
controller: `downlink-dispatch` queues a packet, the LoRa radio answers with its
hexadecimal text, `radio_app` takes a frame from that and sends a message on, and the
controller's subscriber takes the topic and the data from the message.

Every part of the way has its own module. Here its results are put together, for a topic under
`signpost/control` and a payload that both ends can take: what is published is what is executed.
-/
import Signpost.ControllerDownlink
import Signpost.DownlinkForms
import Signpost.RadioDownlink
import Signpost.Xdot

namespace Signpost

open Lib Utf16 Controller RadioDownlink

namespace DownlinkPath

/-- The topic below a device that is for a topic of the controller. -/
def controlTopic (name : Text) : Text := ascii "signpost/control/" ++ name

/-- The length of `rbuf`. -/
def rbufLen : UInt8 := 128

/-- The radio's answer with this packet is received as a frame, which is sent on with this
topic and these data, and these the subscriber is given. -/
structure Conveyed (packet topic data : Bytes) : Prop where
  received : ∀ bufStr send reads buf, 0 ≤ send → reads.flatten = recvResponse packet → reads.length ≤ 3 →
    ∃ r, XdotReceives (some bufStr) send reads buf rbufLen r ∧
      (∀ r', XdotReceives (some bufStr) send reads buf rbufLen r' → r' = r) ∧
      0 < r.ret ∧ r.buf.read 0 r.ret.toNat = packet
  sent : ∀ subscribeSend, sendDownlinkMessage subscribeSend packet =
    some (asInt8 (subscribeSend moduleAddressController topic data))
  subscribed : ∀ message : Mem UInt8,
    message.read 0 (subscribeMessage topic data).length = subscribeMessage topic data →
      internalSubscribeCallback notificationFrame networkingApiType networkingSubscribeMessage
        (UInt32.ofNat (subscribeMessage topic data).length) message = some ⟨topic, data⟩

section
variable {node name : Text} {topic data payload : Bytes}

/-! ## The topic -/

theorem toUtf8_controlTopic (name : Text) : toUtf8 (controlTopic name) = controlName ++ 0x2F :: toUtf8 name := by
  rw [controlTopic, toUtf8_append (by decide)]
  rfl

theorem queued_controlTopic (hname : name.length ≤ 16) :
    (moduleName (controlTopic name)).length < 12 ∧ ((controlTopic name).splitOn 0x2F).length ≤ 26 := by
  have hsplit : (controlTopic name).splitOn 0x2F =
      ascii "signpost" :: ascii "control" :: name.splitOn 0x2F := by
    have hroot : controlTopic name = ascii "signpost" ++ 0x2F :: (ascii "control" ++ 0x2F :: name) := rfl
    rw [hroot, List.splitOn_append_cons_self_of_not_mem (by decide),
      List.splitOn_append_cons_self_of_not_mem (by decide)]
  have hparts := length_intercalate_singleton 0x2F (List.splitOn_ne_nil 0x2F name)
  rw [List.intercalate_splitOn] at hparts
  constructor
  · rw [moduleName, hsplit]
    exact (by decide : (ascii "signpost").length < 12)
  · rw [hsplit, List.length_cons, List.length_cons]
    omega

/-! ## The radio -/

theorem xdotReceives_unique {malloc : Option (Mem UInt8)} {send : Int} {reads : List Bytes} {buf : Mem UInt8}
    {len : UInt8} {r r' : XdotReceived} (h : XdotReceives malloc send reads buf len r)
    (h' : XdotReceives malloc send reads buf len r') : r' = r := by
  unfold XdotReceives at h h'
  split at h
  · exact h'.trans h.symm
  · dsimp only at h h'
    split_ifs at h h'
    · exact h'.trans h.symm
    · exact h'.trans h.symm
    · exact h'.trans h.symm
    · exact h'.trans h.symm
    · obtain ⟨n, start, hends, rfl⟩ := h
      obtain ⟨n', start', hends', rfl⟩ := h'
      obtain ⟨-, rfl⟩ := hends.unique hends'
      rfl

theorem length_controlPacket (topic data : Bytes) :
    (sendBuf (controlName ++ 0x2F :: topic) data).length = topic.length + data.length + 19 := by
  have hname : controlName.length = 16 := rfl
  simp only [sendBuf, List.length_append, List.length_cons, hname]
  omega

/-- The packet starts with a length below 160, the digits of which the radio's driver finds. -/
theorem received_controlPacket {bufStr buf : Mem UInt8} {send : Int} {reads : List Bytes} (htopic : topic.length ≤ 16)
    (hfits : topic.length + data.length ≤ 104) (hsend : 0 ≤ send)
    (hsplit : reads.flatten = recvResponse (sendBuf (controlName ++ 0x2F :: topic) data)) (hreads : reads.length ≤ 3) :
    ∃ r, XdotReceives (some bufStr) send reads buf rbufLen r ∧
      (∀ r', XdotReceives (some bufStr) send reads buf rbufLen r' → r' = r) ∧
      0 < r.ret ∧ r.buf.read 0 r.ret.toNat = sendBuf (controlName ++ 0x2F :: topic) data := by
  have hlength := length_controlPacket topic data
  have hroom : (sendBuf (controlName ++ 0x2F :: topic) data).length ≤ rbufLen.toNat - 5 := by
    rw [hlength, show rbufLen.toNat = 128 from rfl]
    omega
  have hfirst : (sendBuf (controlName ++ 0x2F :: topic) data).headD 0 < 0xA0 := by
    have hname : (controlName ++ 0x2F :: topic).length = topic.length + 17 := by
      rw [List.length_append, List.length_cons, show controlName.length = 16 from rfl]
      omega
    have hhead : (sendBuf (controlName ++ 0x2F :: topic) data).headD 0 = UInt8.ofNat (topic.length + 17) := by
      rw [← hname]
      rfl
    rw [hhead, UInt8.lt_iff_toNat_lt, UInt8.toNat_ofNat_of_lt' (show topic.length + 17 < 256 by omega)]
    change topic.length + 17 < 160
    omega
  obtain ⟨r, hr, hret, hread⟩ := (xdotReceive_hex (by omega) hroom hsend hsplit hreads).mpr hfirst
  refine ⟨r, hr, fun r' hr' => xdotReceives_unique hr hr', by omega, ?_⟩
  rwa [hret, Int.toNat_natCast]

/-! ## The frame and the message -/

theorem formed_controlPacket (htopic : topic.length ≤ 16) (hdata : data.length < 256) :
    Formed (sendBuf (controlName ++ 0x2F :: topic) data) controlName topic data where
  isName := ⟨ofChars "signpost", ofChars "control", rfl, by decide, by decide⟩
  topics_lt := by
    rw [List.length_append, List.length_cons, show controlName.length = 16 from rfl]
    omega
  data_lt := hdata
  parts := ⟨[], (List.append_nil _).symm⟩

/-- A topic of the controller that is a string of at most 16 bytes is conveyed with its data. -/
theorem conveyed_control (hzero : 0 ∉ topic) (htopic : topic.length ≤ 16) (hfits : topic.length + data.length ≤ 104) :
    Conveyed (sendBuf (controlName ++ 0x2F :: topic) data) topic data := by
  have hstring : cstr topic = topic := cstr_of_notMem hzero
  constructor
  case received =>
    intro bufStr send reads buf hsend hsplit hreads
    exact received_controlPacket htopic hfits hsend hsplit hreads
  case sent =>
    intro subscribeSend
    have hformed : Formed (sendBuf (controlName ++ 0x2F :: topic) data) controlName topic data :=
      formed_controlPacket htopic (by omega)
    obtain ⟨slen, dlen, hslen, hdlen, hlong⟩ := hformed.fits
    refine sendDownlinkMessage_eq_some.mpr ⟨slen, dlen, hslen, hdlen, .inr ⟨hlong, controlName, topic, data, hformed,
      ⟨by decide, by decide⟩, ⟨by omega, by rwa [hstring]⟩, ?_⟩⟩
    rw [if_pos (show cstr controlName = controlName by decide), hstring]
  case subscribed =>
    intro message hheld
    have hgiven := internalSubscribeCallback_subscribeMessage (by rw [hstring]; omega) (by omega) hheld
    rwa [hstring] at hgiven

end

/-! ## From the topic to the handler -/

theorem downlink_word {c : Controller} {m : Fin 8} {command : DownlinkCommand}
    (honly : ∀ m', c.nameOf m' = c.nameOf m → m' = m) (hsignpost : c.nameOf m ≠ ofChars "signpost") (remaining : Int) :
    c.downlink (c.nameOf m) command.word remaining = c.moduleCommand m remaining command := by
  obtain ⟨hstring, hlen⟩ := nameOf_string (c := c) m
  have hsame : c.nameOf m = (cstr (c.nameOf m)).take 16 := by rw [hstring, List.take_of_length_le hlen]
  obtain ⟨m', hfound, hname⟩ := exists_found hsame
  obtain rfl := honly m' (hname.trans hsame.symm)
  have hdispatch := dispatch_module.mpr ⟨readAs_word command, by rwa [hstring], hfound⟩
  rw [c.downlink_eq, hdispatch]
  rfl

/-- **A downlink message arrives.** Payload and topic of a message that is published for
the controller of a device, as bytes or as base64, are what the controller's subscriber is
given, if the radio's answer with the packet comes in at most three pieces. If these are a
command and the name of one module only, that command is what is executed, for this
module. -/
theorem downlink_executed (conv : Conversions) {d : Dispatch} {node name : Text} {message payload : Bytes} {form : Form}
    (hlength : node.length = 12) (hslash : 0x2F ∉ node) (hknown : (d.nodeDict node).isSome)
    (hproto : node ∉ objectNames) (hzero : 0 ∉ toUtf8 name) (hname : (toUtf8 name).length ≤ 16)
    (hfits : (toUtf8 name).length + payload.length ≤ 104) (hform : form.Publishes message payload)
    (hhandled : form.Handled message) (hbuffer : form ≠ .buffer) :
    ∃ d' obj os packet,
      d.step conv (.message (publishedTopic node (controlTopic name)) message) = some (d', .accepted obj :: os) ∧
      d'.queue node = d.queue node ++ [obj] ∧ obj.packet conv = some packet ∧
      Conveyed packet (toUtf8 name) payload ∧
      ∀ (c : Controller) m command remaining, c.nameOf m = toUtf8 name → payload = command.word →
        (∀ m', c.nameOf m' = c.nameOf m → m' = m) → c.nameOf m ≠ ofChars "signpost" →
        c.downlink (toUtf8 name) payload remaining = c.moduleCommand m remaining command := by
  obtain ⟨hmodule, hparts⟩ := queued_controlTopic (Nat.le_trans (length_le_toUtf8 name) hname)
  obtain ⟨d', obj, os, hstep, hqueue, hpacket⟩ :=
    step_of_queued (c := conv) hslash hknown hform ⟨hmodule, hparts, hproto, hhandled⟩
  rw [toUtf8_drop_eq_iff.mpr (.inl hlength), sentData_eq_iff.mpr fun h => absurd h hbuffer, toUtf8_controlTopic]
    at hpacket
  refine ⟨d', obj, os, _, hstep, hqueue, hpacket, conveyed_control hzero hname hfits, ?_⟩
  intro c m command remaining hmodule hword honly hsignpost
  rw [← hmodule, hword]
  exact downlink_word honly hsignpost remaining

/-- `reset` for `lab11/gps`, as it is published in plain bytes. -/
theorem downlink_executed_reset :
    ∃ d' obj os packet,
      sampleDispatch.step textsOnly (.message (publishedTopic sampleNode (controlTopic (ascii "lab11/gps")))
        (ofChars "reset")) = some (d', .accepted obj :: os) ∧
      d'.queue sampleNode = sampleDispatch.queue sampleNode ++ [obj] ∧ obj.packet textsOnly = some packet ∧
      Conveyed packet (toUtf8 (ascii "lab11/gps")) (ofChars "reset") ∧
      ∀ (c : Controller) m command remaining, c.nameOf m = toUtf8 (ascii "lab11/gps") → ofChars "reset" = command.word →
        (∀ m', c.nameOf m' = c.nameOf m → m' = m) → c.nameOf m ≠ ofChars "signpost" →
        c.downlink (toUtf8 (ascii "lab11/gps")) (ofChars "reset") remaining = c.moduleCommand m remaining command := by
  have hform : Form.raw.Publishes (ofChars "reset") (ofChars "reset") := ⟨rfl, by decide +kernel⟩
  exact downlink_executed textsOnly (by decide) (by decide) (by decide) (by decide) (by decide +kernel)
    (by decide +kernel) (by decide +kernel) hform (by decide +kernel) (by decide)

end DownlinkPath

end Signpost
