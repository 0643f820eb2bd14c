/-
`downlink-dispatch`: a message published for a device is put into the queue of
the device and sent to the LoRa network, and an acknowledgement takes one out
and has the next one sent.

A text is its UTF-16 units. An exception that is caught nowhere ends the
program: an event has no step then. What a script makes of JSON values of other
kinds than it is written for is a parameter, of which nothing is assumed.
-/
import Mathlib.Algebra.GroupWithZero.Nat
import Signpost.Lib.Base64
import Signpost.Lib.Json
import Signpost.Lib.Run
import Signpost.Packet

namespace Signpost

open Lib Utf16

/-! ## Texts and values -/

/-- `toString('base64')` of a buffer. -/
def toBase64 (bytes : Bytes) : Text := (Base64.encode bytes).map fun c => UInt16.ofNat c.toNat

/-- `Buffer.from(s, 'base64')` -/
def fromBase64 (s : Text) : Bytes := Base64.decode (s.map fun u => Char.ofNat u.toNat)

/-- A number as `toString` writes it. -/
def decimal (n : Nat) : Text := (Nat.toDigits 10 n).map fun c => UInt16.ofNat c.toNat

/-- JSON values as other values; none where that raises an exception. -/
structure Conversions where
  /-- `toString()` of one that is no text and no array of bytes. -/
  text : Json → Option Text
  /-- `Buffer.from(v, 'base64')` of one that is no text. -/
  bytes : Json → Option Bytes
  /-- `v.length < 96` of an object. -/
  lengthBelow96 : Json → Option Bool

namespace Conversions

variable (c : Conversions)

def byte? : Json → Option Nat
  | .num false n 0 => if n < 256 then some n else none
  | _ => none

/-- `v.toString()` -/
def toText : Json → Option Text
  | .str s => some s
  | .arr xs =>
    match xs.mapM byte? with
    | some ns => some (List.intercalate (ascii ",") (ns.map decimal))
    | none => c.text (.arr xs)
  | v => c.text v

/-- `Buffer.from(v, 'base64')` -/
def bufferFrom : Json → Option Bytes
  | .str s => some (fromBase64 s)
  | v => c.bytes v

/-- `v == "Buffer"` -/
def isBuffer : Json → Option Bool
  | .str s => some (s = ascii "Buffer")
  | .arr xs => (c.toText (.arr xs)).map (· = ascii "Buffer")
  | .obj fields => (c.toText (.obj fields)).map (· = ascii "Buffer")
  | _ => some false

/-- `v.length < 96` -/
def isShort : Json → Option Bool
  | .str s => some (s.length < 96)
  | .arr xs => some (xs.length < 96)
  | .obj fields => c.lengthBelow96 (.obj fields)
  | _ => some false

end Conversions

/-- The names that are `in` every object. -/
def objectNames : List Text :=
  ["constructor", "__defineGetter__", "__defineSetter__", "hasOwnProperty", "__lookupGetter__",
    "__lookupSetter__", "isPrototypeOf", "propertyIsEnumerable", "toString", "valueOf", "__proto__",
    "toLocaleString"].map ascii

/-! ## The program -/

/-- A message in a queue: `data` is `datstring`, which is a text or what was parsed. -/
structure Downobj where
  deviceID : Text
  topic : Text
  data : Json

/-- `sendObj`, and the topic it is published at. -/
structure Tx where
  topic : Text
  confirmed : Bool
  data : Text
  devEUI : Option Text
  fPort : Nat
  reference : Text
  deriving DecidableEq

inductive DispatchAction
  | accepted (obj : Downobj)
  | sent (tx : Tx)
  | removed (deviceID : Text) (obj : Downobj)

/-- A failure that the network server reports comes at another topic than an
acknowledgement, one that is not subscribed to. -/
inductive DispatchEvent
  | updateNodes (nodelist : List (Text × Text))
  | message (topic : Text) (message : Bytes)
  | ack (message : Bytes)
  | failure (message : Bytes)

structure Dispatch where
  nodeDict : Text → Option Text
  messageQueue : Text → Option (List Downobj)

/-- A topic and data, each behind its length byte. -/
def sendBuf (topicBuf dataBuf : Bytes) : Bytes :=
  UInt8.ofNat topicBuf.length :: topicBuf ++ UInt8.ofNat dataBuf.length :: dataBuf

/-- The packet that is sent for a message. -/
def Downobj.packet (c : Conversions) (obj : Downobj) : Option Bytes :=
  (c.bufferFrom obj.data).map (sendBuf (toUtf8 obj.topic))

/-- `JSON.parse(message.toString())` -/
def parseMessage (message : Bytes) : Option Json := Json.parse (ofUtf8 message)

/-- A field that is true as a condition. -/
def truthyField (name : String) (v : Json) : Option Json := (v.get name).filter (Json.Truthy ·)

/-- The sum that the loop over `parts` makes: `part` is an index there. -/
def tlen (parts : List Text) : Int :=
  ((List.range parts.length).map fun part => (decimal part).length).sum - 20

namespace Dispatch

def init : Dispatch := ⟨fun _ => none, fun _ => none⟩

/-- The messages that are queued for a device. -/
def queue (d : Dispatch) (id : Text) : List Downobj := (d.messageQueue id).getD []

/-- `name in nodeDict` -/
def Known (d : Dispatch) (name : Text) : Prop := (d.nodeDict name).isSome ∨ name ∈ objectNames

instance (d : Dispatch) (name : Text) : Decidable (d.Known name) :=
  inferInstanceAs (Decidable (_ ∨ _))

/-- `node` and `downtopic`, if the topic is valid. -/
def topicParts (d : Dispatch) (topic : Text) : Option (Option (Text × Text)) :=
  let parts := topic.splitOn 0x2F
  let node := parts.getD 1 (ascii "undefined")
  if ¬ d.Known node then some none
  else
    match parts[2]? with
    | none => none
    | some name =>
      if ¬ name.length < 12 then some none
      else if ¬ tlen parts < 28 then some none
      else some (some (node, topic.drop 22))

/-- `datstring` of `json.data`: a buffer object becomes a text, and is left out
where it is long; anything else of a type is dropped, and so is what is no base64. -/
def dataString (c : Conversions) (data : Json) : Option (Option Json) :=
  match truthyField "type" data with
  | none => some ((c.bufferFrom data).map fun _ => data)
  | some type =>
    (c.isBuffer type).bind fun buffer =>
      match buffer, truthyField "data" data with
      | true, some inner =>
        (c.isShort inner).bind fun short =>
          if short then (c.toText inner).map fun s => some (.str s) else some (some (.str []))
      | _, _ => some none

/-- `datstring`, if the message is not dropped. -/
def datstring (c : Conversions) (message : Bytes) : Option (Option Json) :=
  match (parseMessage message).filter (Json.Truthy ·) with
  | none => some (some (.str (toBase64 message)))
  | some json =>
    match truthyField "data" json, truthyField "receiver" json with
    | none, _ => some none
    | some _, some _ => some none
    | some data, none => dataString c data

def sendMessage (c : Conversions) (d : Dispatch) (deviceID : Text) (obj : Downobj) : Option Tx :=
  (obj.packet c).map fun sendBuf =>
    { topic := ascii "application/5/node/" ++ (d.nodeDict deviceID).getD (ascii "undefined") ++ ascii "/tx"
      confirmed := true
      data := toBase64 sendBuf
      devEUI := d.nodeDict (ascii "deviceID")
      fPort := 1
      reference := deviceID }

def setQueue (d : Dispatch) (id : Text) (q : List Downobj) : Dispatch :=
  { d with messageQueue := Function.update d.messageQueue id (some q) }

/-- A message at the end of its device's queue, sent if it is the only one. -/
def push (c : Conversions) (d : Dispatch) (obj : Downobj) : Option (Dispatch × List DispatchAction) :=
  let node := obj.deviceID
  if node ∈ objectNames then none
  else
    let d' := d.setQueue node (d.queue node ++ [obj])
    match d.queue node with
    | [] => (d'.sendMessage c node obj).map fun tx => (d', [.accepted obj, .sent tx])
    | _ :: _ => some (d', [.accepted obj])

/-- The callback for each packet. -/
def onMessage (c : Conversions) (d : Dispatch) (topic : Text) (message : Bytes) :
    Option (Dispatch × List DispatchAction) :=
  (d.topicParts topic).bind fun
    | none => some (d, [])
    | some (node, downtopic) =>
      (datstring c message).bind fun
        | none => some (d, [])
        | some data => d.push c ⟨node, downtopic, data⟩

/-- `json.reference`, as the name of a field. -/
def reference (c : Conversions) (message : Bytes) : Option Text :=
  (parseMessage message).bind fun
    | .null => none
    | json =>
      match json.get "reference" with
      | none => some (ascii "undefined")
      | some .null => some (ascii "null")
      | some (.bool b) => some (ascii (if b then "true" else "false"))
      | some v => c.toText v

/-- An acknowledgement takes the message at the end of the queue. -/
def onAck (c : Conversions) (d : Dispatch) (message : Bytes) : Option (Dispatch × List DispatchAction) :=
  (reference c message).bind fun devID =>
    (d.messageQueue devID).bind fun q =>
      let d' := d.setQueue devID q.dropLast
      let popped := q.getLast?.toList.map (DispatchAction.removed devID)
      match q.dropLast with
      | [] => some (d', popped)
      | obj :: _ => (d'.sendMessage c devID obj).map fun tx => (d', popped ++ [.sent tx])

def step (c : Conversions) (d : Dispatch) : DispatchEvent → Option (Dispatch × List DispatchAction)
  | .updateNodes nodelist =>
    some ({ d with nodeDict := nodelist.foldl (fun dict dev => Function.update dict dev.1 (some dev.2)) d.nodeDict },
      [])
  | .message topic message => d.onMessage c topic message
  | .ack message => d.onAck c message
  | .failure _ => some (d, [])

/-! ## What a step does -/

section
variable {c : Conversions} {d d' : Dispatch} {o : List DispatchAction} {id deviceID : Text}
  {obj : Downobj} {tx : Tx}

@[simp] theorem queue_setQueue (q : List Downobj) : (d.setQueue deviceID q).queue deviceID = q := by
  simp only [queue, setQueue, Function.update_self, Option.getD_some]

theorem queue_setQueue_of_ne (h : id ≠ deviceID) (q : List Downobj) :
    (d.setQueue deviceID q).queue id = d.queue id := by
  simp only [queue, setQueue, Function.update_of_ne h]

theorem sendMessage_eq (h : d.sendMessage c deviceID obj = some tx) :
    tx.reference = deviceID ∧ some tx.data = (obj.packet c).map toBase64 := by
  rw [sendMessage, Option.map_eq_some_iff] at h
  obtain ⟨sendBuf, hpacket, rfl⟩ := h
  exact ⟨rfl, by rw [hpacket]; rfl⟩

theorem push_cases (h : d.push c obj = some (d', o)) :
    d' = d.setQueue obj.deviceID (d.queue obj.deviceID ++ [obj]) ∧
      ((d.queue obj.deviceID = [] ∧ ∃ tx, d'.sendMessage c obj.deviceID obj = some tx ∧
          o = [.accepted obj, .sent tx]) ∨
        (d.queue obj.deviceID ≠ [] ∧ o = [.accepted obj])) := by
  simp only [push] at h
  split at h
  · cases h
  · split at h
    · next hq =>
      obtain ⟨tx, htx, heq⟩ := Option.map_eq_some_iff.mp h
      obtain ⟨rfl, rfl⟩ := Prod.mk.inj heq
      exact ⟨rfl, .inl ⟨hq, tx, htx, rfl⟩⟩
    · next hq =>
      cases h
      exact ⟨rfl, .inr ⟨by rw [hq]; exact List.cons_ne_nil _ _, rfl⟩⟩

/-- A message that has bytes is queued, unless its device has the name of a field of every object. -/
theorem push_of_packet {packet : Bytes} (hname : obj.deviceID ∉ objectNames)
    (hpacket : obj.packet c = some packet) :
    ∃ d' o, d.push c obj = some (d', .accepted obj :: o) := by
  simp only [push, hname, if_false]
  cases d.queue obj.deviceID with
  | nil =>
    simp only [sendMessage, hpacket, Option.map_some]
    exact ⟨_, _, rfl⟩
  | cons head rest => exact ⟨_, _, rfl⟩

theorem onMessage_cases {topic : Text} {message : Bytes} (h : d.onMessage c topic message = some (d', o)) :
    (d' = d ∧ o = []) ∨ ∃ node downtopic data, d.topicParts topic = some (some (node, downtopic)) ∧
      datstring c message = some (some data) ∧ d.push c ⟨node, downtopic, data⟩ = some (d', o) := by
  rw [onMessage, Option.bind_eq_some_iff] at h
  obtain ⟨parts, hparts, h⟩ := h
  cases parts with
  | none =>
    cases h
    exact .inl ⟨rfl, rfl⟩
  | some parts =>
    obtain ⟨dat, hdat, h⟩ := Option.bind_eq_some_iff.mp h
    cases dat with
    | none =>
      cases h
      exact .inl ⟨rfl, rfl⟩
    | some data => exact .inr ⟨_, _, data, hparts, hdat, h⟩

theorem onAck_cases {message : Bytes} (h : d.onAck c message = some (d', o)) :
    ∃ devID, reference c message = some devID ∧ (d.messageQueue devID).isSome ∧
      d' = d.setQueue devID (d.queue devID).dropLast ∧
      (((d.queue devID).dropLast = [] ∧ o = (d.queue devID).getLast?.toList.map (DispatchAction.removed devID)) ∨
        ∃ obj rest tx, (d.queue devID).dropLast = obj :: rest ∧ d'.sendMessage c devID obj = some tx ∧
          o = (d.queue devID).getLast?.toList.map (DispatchAction.removed devID) ++ [.sent tx]) := by
  rw [onAck, Option.bind_eq_some_iff] at h
  obtain ⟨devID, hdev, h⟩ := h
  obtain ⟨q, hq, h⟩ := Option.bind_eq_some_iff.mp h
  have hqueue : d.queue devID = q := by rw [queue, hq]; rfl
  refine ⟨devID, hdev, by rw [hq]; rfl, ?_⟩
  rw [hqueue]
  split at h
  · next hlast =>
    cases h
    exact ⟨rfl, .inl ⟨hlast, rfl⟩⟩
  · next obj rest hlast =>
    obtain ⟨tx, htx, heq⟩ := Option.map_eq_some_iff.mp h
    obtain ⟨rfl, rfl⟩ := Prod.mk.inj heq
    exact ⟨rfl, .inr ⟨obj, rest, tx, hlast, htx, rfl⟩⟩

end

end Dispatch

/-! ## First in, first out -/

/-- What was accepted for a device, in the order it came. -/
def acceptedFor (id : Text) : List DispatchAction → List Downobj :=
  List.filterMap fun
    | .accepted obj => if obj.deviceID = id then some obj else none
    | _ => none

def sentTo (id : Text) : List DispatchAction → List Text :=
  List.filterMap fun
    | .sent tx => if tx.reference = id then some tx.data else none
    | _ => none

/-- What acknowledgements took out of the queue of a device. -/
def removedFor (id : Text) : List DispatchAction → List Downobj :=
  List.filterMap fun
    | .removed deviceID obj => if deviceID = id then some obj else none
    | _ => none

def Downobj.sendData (c : Conversions) (obj : Downobj) : Option Text := (obj.packet c).map toBase64

/-- Of what was accepted, the first messages were sent and then removed, each
once; the rest is in the queue, and the first of it has been sent. -/
structure DispatchFifo (c : Conversions) (id : Text) (os : List DispatchAction) (d : Dispatch) : Prop where
  accepted : acceptedFor id os = removedFor id os ++ d.queue id
  sent : (sentTo id os).map some = (removedFor id os ++ (d.queue id).take 1).map (Downobj.sendData c)

/-- An acknowledgement comes when no more than one message is in its queue. -/
def AckFindsOne (c : Conversions) (d : Dispatch) : DispatchEvent → Prop
  | .ack message => ∀ id ∈ Dispatch.reference c message, (d.queue id).length ≤ 1
  | _ => True

instance (c : Conversions) (d : Dispatch) : DecidablePred (AckFindsOne c d)
  | .updateNodes _ => instDecidableTrue
  | .message .. => instDecidableTrue
  | .ack message =>
    inferInstanceAs (Decidable (∀ id ∈ Dispatch.reference c message, (d.queue id).length ≤ 1))
  | .failure _ => instDecidableTrue

namespace DispatchFifo

open Dispatch

variable {c : Conversions} {id : Text} {os o : List DispatchAction} {d d' : Dispatch} {e : DispatchEvent}

theorem append (h : DispatchFifo c id os d) (acc rem : List Downobj) (data : List Text)
    (hacc : acceptedFor id o = acc) (hrem : removedFor id o = rem) (hdata : sentTo id o = data)
    (hqueue : d.queue id ++ acc = rem ++ d'.queue id)
    (hsent : ((d.queue id).take 1).map (Downobj.sendData c) ++ data.map some =
      (rem ++ (d'.queue id).take 1).map (Downobj.sendData c)) : DispatchFifo c id (os ++ o) d' := by
  have hacc' : acceptedFor id (os ++ o) = acceptedFor id os ++ acc := by
    rw [← hacc]; exact List.filterMap_append ..
  have hrem' : removedFor id (os ++ o) = removedFor id os ++ rem := by
    rw [← hrem]; exact List.filterMap_append ..
  have hdata' : sentTo id (os ++ o) = sentTo id os ++ data := by
    rw [← hdata]; exact List.filterMap_append ..
  constructor
  · rw [hacc', hrem', h.accepted, List.append_assoc, List.append_assoc, hqueue]
  · rw [hdata', hrem', List.map_append, h.sent, List.map_append, List.append_assoc, hsent,
      ← List.map_append, List.append_assoc]

theorem of_silent (h : DispatchFifo c id os d) (hacc : acceptedFor id o = []) (hrem : removedFor id o = [])
    (hdata : sentTo id o = []) (hqueue : d'.queue id = d.queue id) : DispatchFifo c id (os ++ o) d' :=
  h.append [] [] [] hacc hrem hdata (by rw [hqueue, List.append_nil, List.nil_append])
    (by rw [hqueue, List.map_nil, List.append_nil, List.nil_append])

theorem push (h : DispatchFifo c id os d) {obj : Downobj} (hpush : d.push c obj = some (d', o)) :
    DispatchFifo c id (os ++ o) d' := by
  obtain ⟨rfl, ho⟩ := push_cases hpush
  by_cases hid : id = obj.deviceID
  · subst hid
    rcases ho with ⟨hq, tx, htx, rfl⟩ | ⟨hq, rfl⟩
    · obtain ⟨href, hdata⟩ := sendMessage_eq htx
      have hsendTo : sentTo obj.deviceID [.accepted obj, .sent tx] = [tx.data] := by simp [sentTo, href]
      refine h.append [obj] [] [tx.data] (by simp [acceptedFor]) (by simp [removedFor]) hsendTo ?_ ?_
      · rw [queue_setQueue, List.nil_append]
      · rw [queue_setQueue, hq]
        exact congrArg (fun x => [x]) hdata
    · refine h.append [obj] [] [] (by simp [acceptedFor]) (by simp [removedFor]) (by simp [sentTo]) ?_ ?_
      · rw [queue_setQueue, List.nil_append]
      · have htake : (d.queue obj.deviceID ++ [obj]).take 1 = (d.queue obj.deviceID).take 1 :=
          List.take_append_of_le_length (List.length_pos_of_ne_nil hq)
        rw [queue_setQueue, htake, List.map_nil, List.append_nil, List.nil_append]
  · have hne : obj.deviceID ≠ id := fun he => hid he.symm
    have hqueue := queue_setQueue_of_ne (d := d) hid (d.queue obj.deviceID ++ [obj])
    rcases ho with ⟨hq, tx, htx, rfl⟩ | ⟨hq, rfl⟩
    · have href := (sendMessage_eq htx).1
      exact h.of_silent (by simp [acceptedFor, hne]) (by simp [removedFor])
        (by simp [sentTo, href, hne]) hqueue
    · exact h.of_silent (by simp [acceptedFor, hne]) (by simp [removedFor]) (by simp [sentTo]) hqueue

theorem onAck (h : DispatchFifo c id os d) {message : Bytes} (hack : d.onAck c message = some (d', o))
    (hone : AckFindsOne c d (.ack message)) : DispatchFifo c id (os ++ o) d' := by
  obtain ⟨devID, hdev, -, rfl, ho⟩ := onAck_cases hack
  have hlen : (d.queue devID).length ≤ 1 := hone devID hdev
  have hlast : (d.queue devID).dropLast = [] := by
    rw [← List.length_eq_zero_iff, List.length_dropLast]
    omega
  rcases ho with ⟨-, rfl⟩ | ⟨obj, rest, tx, hrest, -⟩
  · have hq : (d.queue devID).getLast?.toList = d.queue devID := by
      match d.queue devID, hlen with
      | [], _ => rfl
      | [_], _ => rfl
    rw [hq, hlast]
    by_cases hid : id = devID
    · subst hid
      refine h.append [] (d.queue id) [] (by simp [acceptedFor]) (by simp [removedFor])
        (by simp [sentTo]) ?_ ?_
      · rw [queue_setQueue]
      · rw [queue_setQueue, List.take_of_length_le hlen, List.take_nil, List.append_nil, List.map_nil,
          List.append_nil]
    · have hne : devID ≠ id := fun he => hid he.symm
      exact h.of_silent (by simp [acceptedFor]) (by simp [removedFor, hne]) (by simp [sentTo])
        (queue_setQueue_of_ne hid _)
  · rw [hlast] at hrest
    cases hrest

theorem step (h : DispatchFifo c id os d) (hstep : d.step c e = some (d', o)) (hone : AckFindsOne c d e) :
    DispatchFifo c id (os ++ o) d' := by
  cases e with
  | updateNodes nodelist =>
    cases hstep
    exact h.of_silent rfl rfl rfl rfl
  | message topic message =>
    rcases onMessage_cases hstep with ⟨rfl, rfl⟩ | ⟨node, downtopic, data, -, -, hpush⟩
    · exact h.of_silent rfl rfl rfl rfl
    · exact h.push hpush
  | ack message => exact h.onAck hstep hone
  | failure message =>
    cases hstep
    exact h.of_silent rfl rfl rfl rfl

end DispatchFifo

/-- A queue is first in, first out, if an acknowledgement finds no other message
in it than the one that was sent. -/
theorem dispatch_fifo {c : Conversions} {es : List DispatchEvent} {d : Dispatch} {os : List DispatchAction}
    (h : Run (fun d e d' o => d.step c e = some (d', o) ∧ AckFindsOne c d e) .init es d os) (id : Text) :
    DispatchFifo c id os d :=
  h.history _ (fun hinv hstep => hinv.step hstep.1 hstep.2) ⟨rfl, rfl⟩

/-! ## Two messages, each acknowledged, and one acknowledgement for the first of two -/

section

def textsOnly : Conversions := ⟨fun _ => none, fun _ => none, fun _ => none⟩

def sampleNode : Text := ascii "c098e5120001"

def bytesOf (s : String) : Bytes := s.toList.map fun ch => UInt8.ofNat ch.toNat

def sampleAck : DispatchEvent := .ack (bytesOf "\x7b\"reference\":\"c098e5120001\"\x7d")

def sampleMessage (name : String) : DispatchEvent :=
  .message (ascii "signpost/c098e5120001/" ++ ascii name) [0xFF]

def sampleNodes : DispatchEvent := .updateNodes [(sampleNode, ascii "0011")]

theorem dispatch_fifo_two : ∃ d os,
    Run (fun d e d' o => d.step textsOnly e = some (d', o) ∧ AckFindsOne textsOnly d e) .init
      [sampleNodes, sampleMessage "a", sampleAck, sampleMessage "b", sampleAck] d os ∧
    os.length = 6 ∧ DispatchFifo textsOnly sampleNode os d := by
  have hexec : (Run.exec (fun (d : Dispatch) e => if AckFindsOne textsOnly d e then d.step textsOnly e else none)
      .init [sampleNodes, sampleMessage "a", sampleAck, sampleMessage "b", sampleAck]).map
      (fun r => r.2.length) = some 6 := by decide +kernel
  obtain ⟨⟨d, os⟩, hexec, hlength⟩ := Option.map_eq_some_iff.mp hexec
  have hrun := Run.of_exec_guard hexec
  exact ⟨d, os, hrun, hlength, dispatch_fifo hrun sampleNode⟩

/-- The second message is taken out unsent, and the first one is sent again. -/
theorem ack_removes_unsent : ∃ d os,
    Run (fun d e d' o => d.step textsOnly e = some (d', o)) .init
      [sampleNodes, sampleMessage "a", sampleMessage "b", sampleAck] d os ∧
    (acceptedFor sampleNode os).map Downobj.topic = [ascii "a", ascii "b"] ∧
    (removedFor sampleNode os).map Downobj.topic = [ascii "b"] ∧
    sentTo sampleNode os = [ascii "AWEB/w==", ascii "AWEB/w=="] ∧
    ¬ DispatchFifo textsOnly sampleNode os d := by
  have hexec : (Run.exec (fun (d : Dispatch) e => d.step textsOnly e) .init
      [sampleNodes, sampleMessage "a", sampleMessage "b", sampleAck]).map
      (fun r => ((acceptedFor sampleNode r.2).map Downobj.topic, (removedFor sampleNode r.2).map Downobj.topic,
        sentTo sampleNode r.2)) =
      some ([ascii "a", ascii "b"], [ascii "b"], [ascii "AWEB/w==", ascii "AWEB/w=="]) := by decide +kernel
  obtain ⟨⟨d, os⟩, hexec, hos⟩ := Option.map_eq_some_iff.mp hexec
  obtain ⟨hacc, hos⟩ := Prod.mk.inj hos
  obtain ⟨hrem, hsent⟩ := Prod.mk.inj hos
  refine ⟨d, os, Run.of_exec hexec, hacc, hrem, hsent, fun hfifo => ?_⟩
  have htopics := congrArg (List.map Downobj.topic) hfifo.accepted
  rw [List.map_append, hacc, hrem] at htopics
  cases htopics

end

end Signpost
