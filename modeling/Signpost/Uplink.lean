/-
The two servers that receive what a radio sends: `lora-receiver` takes a packet
at a time, and drops one that carries the number the device's last one had;
`http-receiver` takes batches.

A read past the end of a buffer raises an exception, and nothing is published
then. Both parsers go through the buffer with an index: what is passed on here
is the bytes from it on. A device writes the bytes of a topic; `toString('utf-8')`
makes a text of them, with U+FFFD where they are not UTF-8, and it is the text
that is published.
-/
import Signpost.Lib.Utf8
import Signpost.RadioHistory

namespace Signpost

open Lib
open Utf16 (IsUtf8 ofUtf8 toUtf8 toUtf8_ofUtf8_iff)

/-! ## Records -/

/-- A message to publish as a device sends it: the bytes of its topic, and its data. -/
structure Record where
  topic : Bytes
  data : Bytes
  deriving DecidableEq

structure ParsedRecord where
  topic : Text
  data : Bytes
  deriving DecidableEq

def Record.parsed (r : Record) : ParsedRecord := ⟨ofUtf8 r.topic, r.data⟩

inductive ReceiverName
  | lora
  | http
  deriving DecidableEq

/-- What is published: a record, and what `topublish` says of it, but for the time. -/
structure Publication where
  record : ParsedRecord
  receiver : ReceiverName
  deviceId : List Char
  sequenceNumber : UInt8
  deriving DecidableEq

def Record.encode (r : Record) : Bytes :=
  UInt8.ofNat r.topic.length :: r.topic ++ UInt8.ofNat r.data.length :: r.data

structure Record.Fits (r : Record) : Prop where
  topic : r.topic.length < 256
  data : r.data.length < 256

/-- The bytes are those of one record. -/
def WellFormed (bytes : Bytes) : Prop := ∃ r : Record, r.Fits ∧ bytes = r.encode

def Record.ofBytes (bytes : Bytes) : Record :=
  ⟨(bytes.drop 1).take (bytes.headD 0).toNat, bytes.drop ((bytes.headD 0).toNat + 2)⟩

/-! ## The address of a device -/

def pad (s : List Char) (len : Nat) : List Char := List.replicate (len - s.length) '0' ++ s

/-- `pad(b.toString(16), 2)` -/
def hexByte (b : UInt8) : List Char := pad (Nat.toDigits 16 b.toNat) 2

/-- The address a buffer starts with, as both parsers write it. -/
def deviceId (buf : Bytes) : List Char := (buf.take 6).flatMap hexByte

def sequenceNumber (buf : Bytes) : UInt8 := buf.getD 6 0

/-! ## `lora-receiver` -/

/-- The loop of `parse`. -/
def loraRecords : Nat → Bytes → Option (List ParsedRecord)
  | 0, _ => none
  | _, [] => none
  | fuel + 1, tlen :: rest =>
    match rest.drop tlen.toNat with
    | [] => none
    | dlen :: rest' =>
      let r : ParsedRecord := ⟨ofUtf8 (rest.take tlen.toNat), rest'.take dlen.toNat⟩
      if rest'.drop dlen.toNat = [] then some [r]
      else (loraRecords fuel (rest'.drop dlen.toNat)).map (r :: ·)

/-- `parse.last_sequence_numbers` -/
structure LoraReceiver where
  lastSequenceNumbers : List Char → Option UInt8

namespace LoraReceiver

/-- Nothing has been received. -/
def init : LoraReceiver := ⟨fun _ => none⟩

/-- The test that makes `parse` return `{}`. -/
def Drops (l : LoraReceiver) (buf : Bytes) : Prop :=
  l.lastSequenceNumbers (deviceId buf) = some (sequenceNumber buf)

instance (l : LoraReceiver) (buf : Bytes) : Decidable (l.Drops buf) := by
  unfold Drops
  infer_instance

def parse (l : LoraReceiver) (buf : Bytes) : LoraReceiver × Option (List Publication) :=
  if l.Drops buf then (l, some [])
  else
    (⟨fun id => if id = deviceId buf then some (sequenceNumber buf) else l.lastSequenceNumbers id⟩,
      (loraRecords buf.length (buf.drop 7)).map fun rs =>
        rs.map fun r => ⟨r, .lora, deviceId buf, sequenceNumber buf⟩)

/-- What is published for a message of the LoRa network. -/
def receive (l : LoraReceiver) (buf : Bytes) : LoraReceiver × List Publication :=
  if 6 < buf.length then ((l.parse buf).1, (l.parse buf).2.getD []) else (l, [])

end LoraReceiver

/-! ## `http-receiver` -/

/-- The loop of `parse`. A record that does not fit its length is skipped. -/
def httpRecords : Nat → Bytes → Option (List ParsedRecord)
  | fuel + 1, hi :: lo :: rest =>
    let totalLen := hi.toNat * 256 + lo.toNat
    if totalLen = 0 then some []
    else
      match rest with
      | [] => none
      | tlen :: rest₁ =>
        if tlen.toNat + 2 > totalLen then httpRecords fuel (rest.drop totalLen)
        else
          match rest₁.drop tlen.toNat with
          | [] => none
          | dlen :: rest₂ =>
            if tlen.toNat + dlen.toNat + 2 > totalLen then httpRecords fuel (rest.drop totalLen)
            else
              let r : ParsedRecord := ⟨ofUtf8 (rest₁.take tlen.toNat), rest₂.take dlen.toNat⟩
              if rest₂.drop dlen.toNat = [] then some [r]
              else (httpRecords fuel (rest₂.drop dlen.toNat)).map (r :: ·)
  | _, _ => none

def httpParse (buf : Bytes) : Option (List Publication) :=
  (httpRecords buf.length (buf.drop 7)).map fun rs =>
    rs.map fun r => ⟨r, .http, deviceId buf, sequenceNumber buf⟩

/-- What is published for a request. -/
def httpReceive (buf : Bytes) : List Publication :=
  if 6 < buf.length then (httpParse buf).getD [] else []

/-! ## The address tells devices apart -/

theorem pad_toDigits {n : Nat} (hn : n < 256) :
    pad (Nat.toDigits 16 n) 2 = [Nat.digitChar (n / 16), Nat.digitChar (n % 16)] := by
  revert n
  decide +kernel

theorem digitChar_inj {m n : Nat} (hm : m < 16) (hn : n < 16)
    (h : Nat.digitChar m = Nat.digitChar n) : m = n := by
  have hall : ∀ m < 16, ∀ n < 16, Nat.digitChar m = Nat.digitChar n → m = n := by decide +kernel
  exact hall m hm n hn h

theorem hexByte_eq (b : UInt8) : hexByte b = [Nat.digitChar (b.toNat / 16), Nat.digitChar (b.toNat % 16)] :=
  pad_toDigits b.toNat_lt

theorem hexByte_inj {a b : UInt8} (h : hexByte a = hexByte b) : a = b := by
  have ha := a.toNat_lt
  have hb := b.toNat_lt
  rw [hexByte_eq, hexByte_eq] at h
  simp only [List.cons.injEq, and_true] at h
  have hhigh := digitChar_inj (by omega) (by omega) h.1
  have hlow := digitChar_inj (by omega) (by omega) h.2
  exact UInt8.toNat_inj.mp (by omega)

theorem flatMap_hexByte_inj {xs ys : Bytes} (h : xs.flatMap hexByte = ys.flatMap hexByte) : xs = ys := by
  induction xs generalizing ys with
  | nil =>
    cases ys with
    | nil => rfl
    | cons y ys => simp [hexByte_eq] at h
  | cons x xs ih =>
    cases ys with
    | nil => simp [hexByte_eq] at h
    | cons y ys =>
      have hlen : (hexByte x).length = (hexByte y).length := by rw [hexByte_eq, hexByte_eq]; rfl
      rw [List.flatMap_cons, List.flatMap_cons] at h
      obtain ⟨hxy, hrest⟩ := List.append_inj h hlen
      rw [hexByte_inj hxy, ih hrest]

theorem deviceId_eq_iff {buf buf' : Bytes} : deviceId buf = deviceId buf' ↔ buf.take 6 = buf'.take 6 :=
  ⟨flatMap_hexByte_inj, fun h => by rw [deviceId, deviceId, h]⟩

/-! ## What is sent is parsed -/

section
variable {r : Record} {rs : List Record} {ps : List ParsedRecord} {fuel : Nat} {rest : Bytes}

theorem Record.length_encode (r : Record) : r.encode.length = r.topic.length + r.data.length + 2 := by
  simp only [encode, List.length_cons, List.length_append]
  omega

theorem Record.Fits.split (hr : r.Fits) : ∃ tlen dlen : UInt8,
    r.encode = tlen :: (r.topic ++ dlen :: r.data) ∧
    tlen.toNat = r.topic.length ∧ dlen.toNat = r.data.length :=
  ⟨_, _, rfl, UInt8.toNat_ofNat_of_lt' hr.topic, UInt8.toNat_ofNat_of_lt' hr.data⟩

theorem Record.ofBytes_encode (hr : r.Fits) : ofBytes r.encode = r := by
  obtain ⟨tlen, dlen, henc, htlen, -⟩ := hr.split
  have hlen : tlen.toNat + 1 = (r.topic ++ [dlen]).length := by rw [List.length_append, htlen, List.length_singleton]
  rw [henc, ofBytes, List.headD_cons, List.drop_succ_cons, List.drop_zero, List.take_left' htlen.symm,
    List.drop_succ_cons, List.append_cons, List.drop_left' hlen.symm]

theorem Record.toUtf8_topic_iff (r : Record) : toUtf8 r.parsed.topic = r.topic ↔ IsUtf8 r.topic := toUtf8_ofUtf8_iff

theorem loraRecords_encode (hr : r.Fits) : loraRecords (fuel + 1) r.encode = some [r.parsed] := by
  obtain ⟨tlen, dlen, henc, htlen, hdlen⟩ := hr.split
  rw [henc, loraRecords, List.drop_left' htlen.symm]
  simp [Record.parsed, hdlen, htlen]

theorem batchEntry_eq (length : UInt8) (bytes : Bytes) :
    batchEntry length bytes = 0 :: length :: bytes := by
  have hall : ∀ n < 256, batchEntry (UInt8.ofNat n) [] = [0, UInt8.ofNat n] := by decide +kernel
  have hlen := hall length.toNat length.toNat_lt
  rw [UInt8.ofNat_toNat] at hlen
  show batchEntry length [] ++ bytes = [0, length] ++ bytes
  rw [hlen]

theorem loraRecords_ne_nil {buf : Bytes} (h : loraRecords fuel buf = some ps) : ps ≠ [] := by
  unfold loraRecords at h
  split at h
  · cases h
  · cases h
  · split at h
    · cases h
    · simp only at h
      split at h
      · cases h
        exact List.cons_ne_nil _ _
      · obtain ⟨ps', -, rfl⟩ := Option.map_eq_some_iff.mp h
        exact List.cons_ne_nil _ _

theorem httpRecords_record {hi lo tlen dlen : UInt8} {rest₁ rest₂ : Bytes}
    (hdlen : tlen.toNat + dlen.toNat + 2 ≤ hi.toNat * 256 + lo.toNat)
    (hdrop : rest₁.drop tlen.toNat = dlen :: rest₂) :
    httpRecords (fuel + 1) (hi :: lo :: tlen :: rest₁) =
      if rest₂.drop dlen.toNat = [] then some [⟨ofUtf8 (rest₁.take tlen.toNat), rest₂.take dlen.toNat⟩]
      else (httpRecords fuel (rest₂.drop dlen.toNat)).map
      (⟨ofUtf8 (rest₁.take tlen.toNat), rest₂.take dlen.toNat⟩ :: ·) := by
  conv_lhs => unfold httpRecords
  simp only
  rw [if_neg (by omega), if_neg (by omega), hdrop]
  simp only
  rw [if_neg (by omega)]

theorem httpRecords_cons (hr : r.Fits) (hlen : r.encode.length < 256) :
    httpRecords (fuel + 1) (batchEntry (UInt8.ofNat r.encode.length) r.encode ++ rest) =
      if rest = [] then some [r.parsed] else (httpRecords fuel rest).map (r.parsed :: ·) := by
  obtain ⟨tlen, dlen, henc, htlen, hdlen⟩ := hr.split
  have htotal : (UInt8.ofNat r.encode.length).toNat = r.encode.length := UInt8.toNat_ofNat_of_lt' hlen
  have hsize := r.length_encode
  have hfit : tlen.toNat + dlen.toNat + 2 ≤ (0 : UInt8).toNat * 256 +
    (UInt8.ofNat r.encode.length).toNat := by
    rw [htotal]
    omega
  have hdrop : (r.topic ++ dlen :: (r.data ++ rest)).drop tlen.toNat = dlen :: (r.data ++ rest) :=
    List.drop_left' htlen.symm
  have hbytes : batchEntry (UInt8.ofNat r.encode.length) r.encode ++ rest =
      0 :: UInt8.ofNat r.encode.length :: tlen :: (r.topic ++ dlen :: (r.data ++ rest)) := by
    rw [batchEntry_eq, List.cons_append, List.cons_append]
    congr 2
    rw [henc, List.cons_append, List.append_assoc, List.cons_append]
  rw [hbytes, httpRecords_record hfit hdrop, List.drop_left' hdlen.symm, List.take_left' hdlen.symm,
    List.take_left' htlen.symm, Record.parsed]

theorem length_le_batch (rs : List Record) :
    rs.length ≤ (rs.flatMap fun r => batchEntry (UInt8.ofNat r.encode.length) r.encode).length := by
  induction rs with
  | nil => exact Nat.le_refl _
  | cons r rs ih =>
    rw [List.flatMap_cons, List.length_append, List.length_cons, batchEntry_eq, List.length_cons]
    omega

theorem httpRecords_batch (hne : rs ≠ []) (hrs : ∀ r ∈ rs, r.Fits ∧ r.encode.length < 256)
    (hfuel : rs.length ≤ fuel) :
    httpRecords fuel (rs.flatMap fun r => batchEntry (UInt8.ofNat r.encode.length) r.encode) =
      some (rs.map Record.parsed) := by
  induction rs generalizing fuel with
  | nil => exact absurd rfl hne
  | cons r rs ih =>
    obtain ⟨hr, hlen⟩ := hrs r List.mem_cons_self
    cases fuel with
    | zero => simp at hfuel
    | succ fuel =>
      rw [List.flatMap_cons, httpRecords_cons hr hlen]
      cases rs with
      | nil => rfl
      | cons r' rs =>
        rw [ih (List.cons_ne_nil _ _) (fun x hx => hrs x (List.mem_cons_of_mem _ hx))
          (Nat.le_of_succ_le_succ hfuel),
          if_neg (by simp [batchEntry_eq])]
        rfl

end

namespace Firmware

variable {f : Firmware} {sn : UInt8} {es : List Entry} {via : Via}

/-- What follows the header of a packet. -/
def body (es : List Entry) : Via → Bytes
  | .lora => es.flatMap Entry.bytes
  | .cellular => es.flatMap Entry.framed

theorem packet_eq : f.packet sn es via = f.address ++ (sn :: body es via) := by
  cases via <;> simp [packet, header, body]

theorem deviceId_packet : deviceId (f.packet sn es via) = deviceId f.address := by
  rw [deviceId_eq_iff, packet_eq, List.take_left' f.length_address,
    List.take_of_length_le (Nat.le_of_eq f.length_address)]

theorem sequenceNumber_packet : sequenceNumber (f.packet sn es via) = sn := by
  rw [packet_eq, sequenceNumber, List.getD_eq_getElem?_getD,
    List.getElem?_append_right (Nat.le_of_eq f.length_address), f.length_address]
  rfl

theorem drop_packet : (f.packet sn es via).drop 7 = body es via := by
  have hheader : (f.address ++ [sn]).length = 7 := by
    rw [List.length_append, f.length_address]
    rfl
  rw [packet_eq, List.append_cons, List.drop_left' hheader]

theorem length_packet : (f.packet sn es via).length = 7 + (body es via).length := by
  rw [packet_eq, List.length_append, f.length_address, List.length_cons]
  omega

end Firmware

/-- What is published of a record of a device with this number. -/
def Record.publication (deviceId : List Char) (sn : UInt8) (receiver : ReceiverName) (r : Record) :
    Publication :=
  ⟨r.parsed, receiver, deviceId, sn⟩

section
variable {f : Firmware} {sn : UInt8}

theorem parse_packet {l : LoraReceiver} {e : Entry} {r : Record} (hr : r.Fits) (he : e.bytes = r.encode)
    (hdrops : ¬ l.Drops (f.packet sn [e] .lora)) :
    (l.parse (f.packet sn [e] .lora)).2 = some [r.publication (deviceId f.address) sn .lora] := by
  have hbody : Firmware.body [e] .lora = r.encode := by simp [Firmware.body, he]
  have hlen := @Firmware.length_packet f sn [e] .lora
  obtain ⟨fuel, hfuel⟩ : ∃ fuel, (f.packet sn [e] .lora).length = fuel + 1 :=
    ⟨_, (Nat.sub_add_cancel (by omega)).symm⟩
  rw [LoraReceiver.parse, if_neg hdrops]
  simp only
  rw [Firmware.drop_packet, hbody, hfuel, loraRecords_encode hr, Firmware.deviceId_packet,
    Firmware.sequenceNumber_packet]
  rfl

theorem receive_packet {l : LoraReceiver} {e : Entry} {r : Record} (hr : r.Fits)
    (he : e.bytes = r.encode) (hdrops : ¬ l.Drops (f.packet sn [e] .lora)) :
    (l.receive (f.packet sn [e] .lora)).2 = [r.publication (deviceId f.address) sn .lora] := by
  have hlen := @Firmware.length_packet f sn [e] .lora
  rw [LoraReceiver.receive, if_pos (by omega)]
  simp only
  rw [parse_packet hr he hdrops]
  rfl

variable {es : List Entry} {rs : List Record}

theorem httpParse_packet (hne : rs ≠ [])
    (hrs : ∀ r ∈ rs, r.Fits ∧ r.encode.length < 256) (hes : es.map Entry.bytes = rs.map Record.encode) :
    httpParse (f.packet sn es .cellular) =
      some (rs.map (Record.publication (deviceId f.address) sn .http)) := by
  have hbody : Firmware.body es .cellular = rs.flatMap fun r =>
    batchEntry (UInt8.ofNat r.encode.length) r.encode := by
    have hmap := congrArg (fun l => l.flatMap fun bytes => batchEntry (UInt8.ofNat bytes.length) bytes) hes
    rw [List.flatMap_map, List.flatMap_map] at hmap
    exact hmap
  have hlen := @Firmware.length_packet f sn es .cellular
  have hfuel : rs.length ≤ (f.packet sn es .cellular).length := by
    rw [hlen, hbody]
    exact Nat.le_trans (length_le_batch rs) (Nat.le_add_left _ _)
  rw [httpParse, Firmware.drop_packet, hbody, httpRecords_batch hne hrs hfuel, Firmware.deviceId_packet,
    Firmware.sequenceNumber_packet, Option.map_some, List.map_map]
  rfl

theorem httpReceive_packet (hne : rs ≠ [])
    (hrs : ∀ r ∈ rs, r.Fits ∧ r.encode.length < 256) (hes : es.map Entry.bytes = rs.map Record.encode) :
    httpReceive (f.packet sn es .cellular) = rs.map (Record.publication (deviceId f.address) sn .http) := by
  have hlen := @Firmware.length_packet f sn es .cellular
  rw [httpReceive, if_pos (by omega), httpParse_packet hne hrs hes]
  rfl

end

end Signpost
