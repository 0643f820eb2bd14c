/-
The networking messages for a module that subscribes: how they are sent, and what
`internal_subscribe_callback` takes from one and gives the subscriber.

A topic is a zero-terminated string in a buffer of zeros, so it is given as the
bytes that are copied there. Some may be zero.

The parser is a function of the message as far as it is long, which the second
half of the result says for every message; the first says what it gives for
those that the radio makes.
-/
import Signpost.Api
import Signpost.Strings

namespace Signpost

open Lib

def networkingSubscribeMessage : UInt8 := 1

/-- The buffer that `signpost_networking_subscribe_send` sends. -/
def subscribeMessage (topic data : Bytes) : Bytes :=
  let topic := (cstr topic).take 28
  UInt8.ofNat topic.length :: topic ++ UInt8.ofNat data.length :: data

/-- `signpost_networking_subscribe_send`, where there may be no memory for the buffer. -/
def signpostNetworkingSubscribeSend (mb : Mbedtls) (rand : Int × Iv) (write : MasterWrite) (d : Device)
    (addrToKey : UInt8 → Option Key) (malloc : Bool) (destAddr : UInt8) (topic data : Bytes) : Sent :=
  if malloc then
    signbusAppSend mb rand write d destAddr addrToKey notificationFrame networkingApiType networkingSubscribeMessage
      (UInt32.ofNat (subscribeMessage topic data).length) (.ofList (subscribeMessage topic data) 0)
  else { device := d, packets := [], rc := portEnomem }

theorem length_subscribeMessage {topic data : Bytes} (htopic : (cstr topic).length ≤ 28) :
    (subscribeMessage topic data).length = (cstr topic).length + data.length + 2 := by
  simp only [subscribeMessage, List.take_of_length_le htopic, List.length_append, List.length_cons]
  omega

theorem subscribeMessage_cstr (topic data : Bytes) :
    subscribeMessage (cstr topic) data = subscribeMessage topic data := by
  simp only [subscribeMessage, cstr_cstr]

/-- What a send to a subscriber returns: an error, which may be one of the port's, or
how much was sent. -/
theorem signpostNetworkingSubscribeSend_cases {mb : Mbedtls} (hctr : mb.CtrLength) {rand : Int × Iv}
    {write : MasterWrite} {d : Device} {addrToKey : UInt8 → Option Key} {malloc : Bool} {destAddr : UInt8}
    {topic data : Bytes} {rc : Int} (htopic : (cstr topic).length ≤ 28) (hdata : data.length < 256)
    (h : (signpostNetworkingSubscribeSend mb rand write d addrToKey malloc destAddr topic data).rc = rc) :
    rc = portEnomem ∨ rc = portFail ∨ (rc < 0 ∧ ∃ k bytes, rc = write k destAddr bytes) ∨
      rc = (cstr topic).length + data.length + 5 + overhead (addrToKey destAddr) := by
  unfold signpostNetworkingSubscribeSend at h
  have hlen : (subscribeMessage topic data).length = (cstr topic).length + data.length + 2 :=
    length_subscribeMessage htopic
  have hnat : (UInt32.ofNat (subscribeMessage topic data).length).toNat = (subscribeMessage topic data).length :=
    UInt32.toNat_ofNat_of_lt' (by simp only [UInt32.size]; omega)
  split at h
  · rcases signbusAppSend_cases hctr (by omega) h with hfail | hport | hsent
    · exact .inr (.inl hfail)
    · exact .inr (.inr (.inl hport))
    · exact .inr (.inr (.inr (by omega)))
  · exact .inl h.symm

structure Subscribed where
  topic : Bytes
  data : Bytes
  deriving DecidableEq

/-- `internal_subscribe_callback`, when there is a subscriber. -/
def internalSubscribeCallback (frameType apiType messageType : UInt8) (messageLength : UInt32)
    (message : Mem UInt8) : Option Subscribed :=
  if apiType = networkingApiType ∧ frameType = notificationFrame ∧ messageType = networkingSubscribeMessage then
    let tlen := (message 0).toNat
    if 28 < tlen ∨ messageLength.toNat < tlen + 2 then none
    else
      let dlen := (message (tlen + 1)).toNat
      if messageLength.toNat < tlen + dlen + 2 then none
      else some ⟨message.read 1 tlen, message.read (tlen + 2) dlen⟩
  else none

/-- `topic`, which is zero before the topic is copied to it. -/
def Subscribed.topicBuffer (subscribed : Subscribed) : Bytes :=
  subscribed.topic ++ List.replicate (33 - subscribed.topic.length) 0

/-- What a subscriber is given is a part of the message, and its topic leaves room for a zero. -/
structure Subscribed.Inside (subscribed : Subscribed) (messageLength : UInt32) (message : Mem UInt8) : Prop where
  topic_le : subscribed.topic.length ≤ 28
  topic : subscribed.topic = message.read 1 subscribed.topic.length
  data : subscribed.data = message.read (subscribed.topic.length + 2) subscribed.data.length
  length : subscribed.topic.length + subscribed.data.length + 2 ≤ messageLength.toNat

section
variable {frameType apiType messageType : UInt8} {messageLength : UInt32} {message message' : Mem UInt8}

theorem internalSubscribeCallback_inside {subscribed : Subscribed}
    (h : internalSubscribeCallback frameType apiType messageType messageLength message = some subscribed) :
    subscribed.Inside messageLength message := by
  unfold internalSubscribeCallback at h
  split at h
  · dsimp only at h
    split at h
    · cases h
    · next hshort =>
      split at h
      · cases h
      · next hlong =>
        cases h
        exact ⟨by rw [Mem.length_read]; omega, by simp only [Mem.length_read], by simp only [Mem.length_read],
          by simp only [Mem.length_read]; omega⟩
  · cases h

theorem internalSubscribeCallback_congr
    (h : message'.read 0 messageLength.toNat = message.read 0 messageLength.toNat) :
    internalSubscribeCallback frameType apiType messageType messageLength message' =
      internalSubscribeCallback frameType apiType messageType messageLength message := by
  have hagree : ∀ i < messageLength.toNat, message' i = message i := fun i hi => by
    simpa using Mem.read_eq_iff.mp h i hi
  unfold internalSubscribeCallback
  split
  · by_cases hempty : messageLength.toNat = 0
    · simp [hempty]
    · rw [hagree 0 (Nat.pos_of_ne_zero hempty)]
      dsimp only
      split
      · rfl
      · next hshort =>
        rw [hagree ((message 0).toNat + 1) (by omega)]
        split
        · rfl
        · next hlong =>
          have htopic : message'.read 1 (message 0).toNat = message.read 1 (message 0).toNat :=
            Mem.read_eq_iff.mpr fun i hi => hagree _ (by omega)
          have hdata : message'.read ((message 0).toNat + 2) (message ((message 0).toNat + 1)).toNat =
              message.read ((message 0).toNat + 2) (message ((message 0).toNat + 1)).toNat :=
            Mem.read_eq_iff.mpr fun i hi => hagree _ (by omega)
          rw [htopic, hdata]
  · rfl

theorem internalSubscribeCallback_subscribeMessage {topic data : Bytes} (htopic : (cstr topic).length ≤ 28)
    (hdata : data.length ≤ 255)
    (hheld : message.read 0 (subscribeMessage topic data).length = subscribeMessage topic data) :
    internalSubscribeCallback notificationFrame networkingApiType networkingSubscribeMessage
      (UInt32.ofNat (subscribeMessage topic data).length) message = some ⟨cstr topic, data⟩ := by
  have hlen : (subscribeMessage topic data).length = 1 + ((cstr topic).length + (1 + data.length)) := by
    rw [length_subscribeMessage htopic]
    omega
  have hnat : (UInt32.ofNat (subscribeMessage topic data).length).toNat = (cstr topic).length + data.length + 2 := by
    rw [UInt32.toNat_ofNat_of_lt' (by simp only [UInt32.size]; omega), length_subscribeMessage htopic]
  have hmessage : subscribeMessage topic data =
      [UInt8.ofNat (cstr topic).length] ++ (cstr topic ++ ([UInt8.ofNat data.length] ++ data)) := by
    simp only [subscribeMessage, List.take_of_length_le htopic]
    rfl
  rw [hlen, Mem.read_add, Mem.read_add, Mem.read_add, hmessage] at hheld
  obtain ⟨htlen, hrest⟩ := List.append_inj hheld (Mem.length_read ..)
  obtain ⟨htopic', hrest⟩ := List.append_inj hrest (Mem.length_read ..)
  obtain ⟨hdlen, hdata'⟩ := List.append_inj hrest (Mem.length_read ..)
  have htlen : (message 0).toNat = (cstr topic).length := by
    have hbyte : message 0 = UInt8.ofNat (cstr topic).length := (List.cons.inj htlen).1
    rw [hbyte, UInt8.toNat_ofNat_of_lt' (by simp only [UInt8.size]; omega)]
  have hdlen : (message ((cstr topic).length + 1)).toNat = data.length := by
    have hbyte : message (0 + 1 + (cstr topic).length) = UInt8.ofNat data.length := (List.cons.inj hdlen).1
    rw [Nat.add_comm, Nat.zero_add] at hbyte
    rw [hbyte, UInt8.toNat_ofNat_of_lt' (by simp only [UInt8.size]; omega)]
  have hoffset : 0 + 1 + (cstr topic).length + 1 = (cstr topic).length + 2 := by omega
  rw [hoffset] at hdata'
  rw [internalSubscribeCallback, if_pos ⟨rfl, rfl, rfl⟩]
  simp only [htlen, hdlen, hnat, hdata']
  rw [if_neg (by omega), if_neg (by omega)]
  exact congrArg (fun t => some (Subscribed.mk t data)) htopic'

end

/-- **What a subscriber is given.** Of the message that `signpost_networking_subscribe_send`
makes it is the topic, with a zero behind it, and the data; and of any message only what is
inside it. -/
theorem subscribe_round_trip {topic data : Bytes} {message : Mem UInt8} (htopic : (cstr topic).length ≤ 28)
    (hdata : data.length ≤ 255)
    (hheld : message.read 0 (subscribeMessage topic data).length = subscribeMessage topic data) :
    (∃ subscribed, internalSubscribeCallback notificationFrame networkingApiType networkingSubscribeMessage
        (UInt32.ofNat (subscribeMessage topic data).length) message = some subscribed ∧
      subscribed.topicBuffer.length = 33 ∧ cstr subscribed.topicBuffer = cstr topic ∧
      subscribed.topicBuffer.drop (cstr topic).length = List.replicate (33 - (cstr topic).length) 0 ∧
      subscribed.data = data) ∧
    ∀ frameType apiType messageType messageLength message,
      (∀ subscribed, internalSubscribeCallback frameType apiType messageType messageLength message =
        some subscribed → subscribed.Inside messageLength message) ∧
      ∀ message', message'.read 0 messageLength.toNat = message.read 0 messageLength.toNat →
        internalSubscribeCallback frameType apiType messageType messageLength message' =
          internalSubscribeCallback frameType apiType messageType messageLength message := by
  refine ⟨⟨_, internalSubscribeCallback_subscribeMessage htopic hdata hheld, ?_, ?_, ?_, rfl⟩,
    fun frameType apiType messageType messageLength message =>
      ⟨fun subscribed h => internalSubscribeCallback_inside h, fun message' h => internalSubscribeCallback_congr h⟩⟩
  · rw [Subscribed.topicBuffer, List.length_append, List.length_replicate]
    exact Nat.add_sub_cancel' (Nat.le_trans htopic (by decide))
  · rw [Subscribed.topicBuffer, cstr_append_replicate, cstr_cstr]
  · rw [Subscribed.topicBuffer, List.drop_left]

/-- A topic of two letters and three bytes of data, in a buffer that held something else. -/
theorem subscribe_round_trip_data :
    (∃ subscribed, internalSubscribeCallback notificationFrame networkingApiType networkingSubscribeMessage
        (UInt32.ofNat (subscribeMessage [97, 98, 0] [7, 0, 9]).length)
        (.ofList [2, 97, 98, 3, 7, 0, 9, 55, 55] 0) = some subscribed ∧
      subscribed.topicBuffer.length = 33 ∧ cstr subscribed.topicBuffer = cstr [97, 98, 0] ∧
      subscribed.topicBuffer.drop (cstr [97, 98, 0]).length = List.replicate (33 - (cstr [97, 98, 0]).length) 0 ∧
      subscribed.data = [7, 0, 9]) ∧
    ∀ frameType apiType messageType messageLength message,
      (∀ subscribed, internalSubscribeCallback frameType apiType messageType messageLength message =
        some subscribed → subscribed.Inside messageLength message) ∧
      ∀ message', message'.read 0 messageLength.toNat = message.read 0 messageLength.toNat →
        internalSubscribeCallback frameType apiType messageType messageLength message' =
          internalSubscribeCallback frameType apiType messageType messageLength message :=
  subscribe_round_trip (by decide) (by decide) (by decide)

end Signpost
