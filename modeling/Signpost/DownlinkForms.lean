/-
What `downlink-dispatch` makes of a topic and of the forms a payload is
published in, against what the radio reads of it.

The lengths of a topic's parts are to be added up, and the code adds up the
lengths of their indices; a text that is JSON and has no data is taken for an
invalid message; of a buffer it is the decimal text that is decoded as base64.

Each of the three forms is followed on its own: when it is queued, which packet
is made of it, and what the radio finds in the packet. The claim compares this
with what was published, and counts the limits as they are meant.
-/
import Signpost.Downlink

namespace Signpost

open Lib Utf16

/-- A topic below `signpost/`, for a device. -/
def publishedTopic (node down : Text) : Text := ascii "signpost/" ++ node ++ 0x2F :: down

/-- The forms that are accepted; the base64 text is part of its form. -/
inductive Form
  | raw
  | base64 (s : Text)
  | buffer
  deriving DecidableEq

/-- The message is this payload in this form. JSON with data in it is not raw. -/
def Form.Publishes (message payload : Bytes) : Form → Prop
  | raw => payload = message ∧ ∀ json ∈ parseMessage message, truthyField "data" json = none
  | base64 s => payload = fromBase64 s ∧ ∃ json ∈ parseMessage message,
      json.get "data" = some (.str s) ∧ truthyField "receiver" json = none
  | buffer => ∃ json ∈ parseMessage message, ∃ fields, json.get "data" = some (.obj fields) ∧
      truthyField "receiver" json = none ∧
      (Json.obj fields).get "type" = some (.str (ascii "Buffer")) ∧
      (Json.obj fields).get "data" = some (.arr (payload.map fun b => .num false b.toNat 0))

/-- The limits: of the module's name, of the parts of the topic together, and of
the payload. -/
structure FitsDownlink (node down : Text) (payload : Bytes) : Prop where
  name : (((publishedTopic node down).splitOn 0x2F).getD 2 []).length < 12
  topic : ((((publishedTopic node down).splitOn 0x2F).map List.length).sum : Int) - 20 < 28
  payload : payload.length < 96

/-- The topic and the data in a packet, as `send_downlink_message` finds them. -/
def downlinkFields (buffer : Bytes) : Option (Bytes × Bytes) :=
  match buffer with
  | [] => none
  | slen :: rest =>
    match rest.drop slen.toNat with
    | [] => none
    | dlen :: data =>
      if slen.toNat + dlen.toNat + 2 > buffer.length then none
      else some (rest.take slen.toNat, data.take dlen.toNat)

/-- A message is queued as it was published if it fits, and otherwise nothing is. -/
structure DownlinkArrives (c : Conversions) (d : Dispatch) (node down : Text)
    (message payload : Bytes) : Prop where
  queued : FitsDownlink node down payload → ∃ d' obj os,
    d.step c (.message (publishedTopic node down) message) = some (d', .accepted obj :: os) ∧
    d'.queue node = d.queue node ++ [obj] ∧ obj.packet c = some (sendBuf (toUtf8 down) payload) ∧
    downlinkFields (sendBuf (toUtf8 down) payload) = some (toUtf8 down, payload)
  rejected : ¬ FitsDownlink node down payload → ∀ d' os,
    d.step c (.message (publishedTopic node down) message) = some (d', os) → d' = d ∧ os = []

/-! ## The topic -/

section
variable {node down : Text}

theorem splitOn_publishedTopic (hnode : 0x2F ∉ node) :
    (publishedTopic node down).splitOn 0x2F = ascii "signpost" :: node :: down.splitOn 0x2F := by
  have hroot : publishedTopic node down = ascii "signpost" ++ 0x2F :: (node ++ 0x2F :: down) := by
    rw [publishedTopic, List.append_assoc]
    rfl
  rw [hroot, List.splitOn_append_cons_self_of_not_mem (by decide),
    List.splitOn_append_cons_self_of_not_mem hnode]

/-- The name of the module a topic is for. -/
def moduleName (down : Text) : Text := (down.splitOn 0x2F).getD 0 []

theorem getElem?_splitOn (hnode : 0x2F ∉ node) :
    ((publishedTopic node down).splitOn 0x2F)[2]? = some (moduleName down) := by
  rw [splitOn_publishedTopic hnode, moduleName]
  match hparts : down.splitOn 0x2F with
  | [] => exact (List.splitOn_ne_nil _ _ hparts).elim
  | name :: rest => rfl

/-- The sum of the lengths of the first indices. -/
def indexLengths (n : Nat) : Nat := ((List.range n).map fun part => (decimal part).length).sum

theorem indexLengths_succ (n : Nat) : indexLengths (n + 1) = indexLengths n + (decimal n).length := by
  rw [indexLengths, List.range_succ, List.map_append, List.sum_append, List.map_singleton,
    List.sum_singleton, indexLengths]

theorem indexLengths_mono {m n : Nat} (h : m ≤ n) : indexLengths m ≤ indexLengths n := by
  induction h with
  | refl => exact Nat.le_refl _
  | step _ ih =>
    rw [indexLengths_succ]
    omega

theorem tlen_lt_iff (parts : List Text) : tlen parts < 28 ↔ parts.length ≤ 28 := by
  have h28 : indexLengths 28 = 46 := by decide +kernel
  have h29 : indexLengths 29 = 48 := by decide +kernel
  have htlen : tlen parts = (indexLengths parts.length : Int) - 20 := rfl
  rw [htlen]
  constructor
  · intro hlt
    by_contra hlong
    have hmono : indexLengths 29 ≤ indexLengths parts.length := indexLengths_mono (Nat.lt_of_not_le hlong)
    omega
  · intro hle
    have hmono := indexLengths_mono hle
    omega

theorem topicParts_publishedTopic {d : Dispatch} (hnode : 0x2F ∉ node) (hknown : (d.nodeDict node).isSome) :
    d.topicParts (publishedTopic node down) =
      some (if (moduleName down).length < 12 ∧ (down.splitOn 0x2F).length ≤ 26 then
        some (node, (publishedTopic node down).drop 22) else none) := by
  have hpart : ((publishedTopic node down).splitOn 0x2F).getD 1 (ascii "undefined") = node := by
    rw [splitOn_publishedTopic hnode]
    rfl
  have hlength : ((publishedTopic node down).splitOn 0x2F).length = (down.splitOn 0x2F).length + 2 := by
    rw [splitOn_publishedTopic hnode]
    rfl
  have hk : d.Known node := .inl hknown
  simp only [Dispatch.topicParts, hpart, hk, not_true_eq_false, if_false, getElem?_splitOn hnode,
    tlen_lt_iff, hlength]
  split_ifs <;> first | rfl | omega

end

/-! ## The payload -/

/-- The message makes the code queue something: JSON that is true as a condition
is not raw, and an empty text is no data. -/
def Form.Handled (message : Bytes) : Form → Prop
  | raw => ∀ json ∈ parseMessage message, ¬ json.Truthy
  | base64 s => s ≠ []
  | buffer => True

instance (message : Bytes) : DecidablePred (Form.Handled message)
  | .raw => inferInstanceAs (Decidable (∀ json ∈ parseMessage message, ¬ json.Truthy))
  | .base64 s => inferInstanceAs (Decidable (s ≠ []))
  | .buffer => instDecidableTrue

/-- The numbers of a buffer as one text. -/
def joined (payload : Bytes) : Text := List.intercalate (ascii ",") (payload.map fun b => decimal b.toNat)

/-- What `datstring` becomes of a payload. -/
def Form.text (message payload : Bytes) : Form → Text
  | raw => toBase64 message
  | base64 s => s
  | buffer => if payload.length < 96 then joined payload else []

section
variable {c : Conversions} {message payload : Bytes} {json : Json}

theorem truthyField_eq_none {name : String} (h : ¬ json.Truthy) : truthyField name json = none := by
  cases json with
  | obj fields => exact (h trivial).elim
  | _ => rfl

theorem truthyField_of_truthy {name : String} {v : Json} (h : json.get name = some v) (hv : v.Truthy) :
    truthyField name json = some v := by
  rw [truthyField, h, Option.filter_some, if_pos (decide_eq_true hv)]

theorem truthyField_of_not {name : String} {v : Json} (h : json.get name = some v) (hv : ¬ v.Truthy) :
    truthyField name json = none := by
  rw [truthyField, h, Option.filter_some, if_neg (by simpa using hv)]

theorem mapM_byte? (payload : Bytes) :
    (payload.map fun b => Json.num false b.toNat 0).mapM Conversions.byte? =
    some (payload.map UInt8.toNat) := by
  induction payload with
  | nil => rfl
  | cons b payload ih =>
    have hb : Conversions.byte? (.num false b.toNat 0) = some b.toNat := if_pos b.toNat_lt
    rw [List.map_cons, List.mapM_cons, hb, ih]
    rfl

theorem toText_bytes (payload : Bytes) :
    c.toText (.arr (payload.map fun b => .num false b.toNat 0)) = some (joined payload) := by
  simp only [Conversions.toText, mapM_byte?, joined, List.map_map]
  rfl

theorem datstring_of_data {data : Json} (hparse : parseMessage message = some json)
    (hdata : truthyField "data" json = some data) (hreceiver : truthyField "receiver" json = none) :
    Dispatch.datstring c message = Dispatch.dataString c data := by
  have htrue : json.Truthy := by
    by_contra hfalse
    rw [truthyField_eq_none hfalse] at hdata
    cases hdata
  simp only [Dispatch.datstring, hparse, Option.filter_some, decide_eq_true htrue, if_true, hdata,
    hreceiver]

theorem datstring_raw (h : Form.raw.Publishes message payload) :
    Dispatch.datstring c message =
      some (if Form.raw.Handled message then some (.str (toBase64 message)) else none) := by
  cases hparse : parseMessage message with
  | none =>
    have hhandled : Form.raw.Handled message := fun json hjson => by
      rw [hparse] at hjson
      cases hjson
    simp only [Dispatch.datstring, hparse, Option.filter_none, if_pos hhandled]
  | some json =>
    by_cases htrue : json.Truthy
    · have hhandled : ¬ Form.raw.Handled message := fun hall => hall json hparse htrue
      simp only [Dispatch.datstring, hparse, Option.filter_some, decide_eq_true htrue, if_true,
        h.2 json hparse, if_neg hhandled]
    · have hhandled : Form.raw.Handled message := fun json' hjson => by
        rw [hparse] at hjson
        cases hjson
        exact htrue
      simp only [Dispatch.datstring, hparse, Option.filter_some, decide_eq_false htrue,
        Bool.false_eq_true, if_false, if_pos hhandled]

theorem datstring_base64 {s : Text} (h : (Form.base64 s).Publishes message payload) :
    Dispatch.datstring c message =
      some (if (Form.base64 s).Handled message then some (.str s) else none) := by
  obtain ⟨-, json, hparse, hget, hreceiver⟩ := h
  by_cases hs : s = []
  · have hdata : truthyField "data" json = none := truthyField_of_not hget (fun htrue => htrue hs)
    have hhandled : ¬ (Form.base64 s).Handled message := fun hne => hne hs
    have htrue : json.Truthy := by
      by_contra hfalse
      cases json with
      | obj fields => exact hfalse trivial
      | _ => cases hget
    have hp : parseMessage message = some json := hparse
    simp only [Dispatch.datstring, hp, Option.filter_some, decide_eq_true htrue, if_true, hdata,
      if_neg hhandled]
  · have hdata : truthyField "data" json = some (.str s) := truthyField_of_truthy hget hs
    have hhandled : (Form.base64 s).Handled message := hs
    rw [datstring_of_data hparse hdata hreceiver, if_pos hhandled]
    rfl

theorem datstring_buffer (h : Form.buffer.Publishes message payload) :
    Dispatch.datstring c message = some (some (.str (Form.buffer.text message payload))) := by
  obtain ⟨json, hparse, fields, hget, hreceiver, htype, hbytes⟩ := h
  have hdata : truthyField "data" json = some (.obj fields) := truthyField_of_truthy hget trivial
  have htype' : truthyField "type" (.obj fields) = some (.str (ascii "Buffer")) :=
    truthyField_of_truthy htype (by decide)
  have hbytes' : truthyField "data" (.obj fields) =
    some (.arr (payload.map fun b => .num false b.toNat 0)) :=
    truthyField_of_truthy hbytes trivial
  rw [datstring_of_data hparse hdata hreceiver]
  simp only [Dispatch.dataString, htype', hbytes', Conversions.isBuffer, decide_true, Option.bind_some,
    Conversions.isShort, List.length_map, decide_eq_true_eq, toText_bytes, Option.map_some, Form.text]
  split_ifs <;> rfl

theorem datstring_of_publishes {form : Form} (h : form.Publishes message payload) :
    Dispatch.datstring c message =
      some (if form.Handled message then some (.str (form.text message payload)) else none) := by
  cases form with
  | raw => exact datstring_raw h
  | base64 s => exact datstring_base64 h
  | buffer =>
    have hhandled : Form.buffer.Handled message := trivial
    rw [if_pos hhandled]
    exact datstring_buffer h

end

/-! ## The decimal text of bytes is not their base64 -/

def base64Digits (s : Text) : List Nat := (s.map fun u => Char.ofNat u.toNat).filterMap Base64.value?

theorem fromBase64_eq (s : Text) : fromBase64 s = Base64.ofDigits (base64Digits s) := rfl

theorem base64Digits_append (s t : Text) : base64Digits (s ++ t) = base64Digits s ++ base64Digits t := by
  rw [base64Digits, List.map_append, List.filterMap_append]
  rfl

theorem base64Digits_decimal (b : UInt8) :
    (∀ n ∈ base64Digits (decimal b.toNat), 52 ≤ n ∧ n ≤ 61) ∧
      (10 ≤ b.toNat → 2 ≤ (base64Digits (decimal b.toNat)).length) ∧
      (100 ≤ b.toNat → 3 ≤ (base64Digits (decimal b.toNat)).length) := by
  have hall : ∀ m < 256, (∀ n ∈ base64Digits (decimal m), 52 ≤ n ∧ n ≤ 61) ∧
      (10 ≤ m → 2 ≤ (base64Digits (decimal m)).length) ∧
      (100 ≤ m → 3 ≤ (base64Digits (decimal m)).length) := by decide +kernel
  exact hall _ b.toNat_lt

theorem joined_cons (b : UInt8) (payload : Bytes) :
    base64Digits (joined (b :: payload)) = base64Digits (decimal b.toNat) ++ base64Digits
    (joined payload) := by
  cases payload with
  | nil =>
    show base64Digits (List.intercalate (ascii ",") [decimal b.toNat]) = _ ++ []
    rw [List.intercalate_singleton, List.append_nil]
  | cons b' payload =>
    show base64Digits (List.intercalate (ascii ",") (decimal b.toNat :: decimal b'.toNat :: _)) = _
    have hcomma : base64Digits (ascii ",") = [] := by decide
    rw [List.intercalate_cons_cons, base64Digits_append, base64Digits_append, hcomma, List.append_nil]
    rfl

theorem base64Digits_joined (payload : Bytes) : ∀ n ∈ base64Digits (joined payload), 52 ≤ n ∧ n ≤ 61 := by
  induction payload with
  | nil => exact fun n hn => nomatch hn
  | cons b payload ih =>
    intro n hn
    rw [joined_cons] at hn
    rcases List.mem_append.mp hn with hn | hn
    · exact (base64Digits_decimal b).1 n hn
    · exact ih n hn

theorem length_base64Digits_joined {payload : Bytes} (h : ∀ b ∈ payload, 52 ≤ b.toNat) :
    2 * payload.length ≤ (base64Digits (joined payload)).length := by
  induction payload with
  | nil => exact Nat.zero_le _
  | cons b payload ih =>
    obtain ⟨hb, hpayload⟩ := List.forall_mem_cons.mp h
    have hdigits := (base64Digits_decimal b).2.1 (by omega)
    have hrest := ih hpayload
    rw [joined_cons, List.length_append, List.length_cons]
    omega

/-- Bytes that are decoded from decimal digits are large, so that their own
decimal text is too long to be decoded to them. -/
theorem fromBase64_joined_ne {payload : Bytes} (hne : payload ≠ []) :
    fromBase64 (joined payload) ≠ payload := by
  intro heq
  obtain ⟨hlarge, hhead⟩ := Base64.ofDigits_of_decimal (base64Digits_joined payload)
  rw [← fromBase64_eq, heq] at hlarge hhead
  have hlength : (base64Digits (joined payload)).length * 3 / 4 = payload.length := by
    rw [← Base64.length_ofDigits, ← fromBase64_eq, heq]
  cases payload with
  | nil => exact hne rfl
  | cons b payload =>
    have hb : 208 ≤ b.toNat := hhead b rfl
    have hfirst := (base64Digits_decimal b).2.2 (by omega)
    have hrest := length_base64Digits_joined (List.forall_mem_cons.mp hlarge).2
    rw [joined_cons, List.length_append, List.length_cons] at hlength
    omega

/-! ## The bytes that are sent -/

theorem fromBase64_toBase64 (bytes : Bytes) : fromBase64 (toBase64 bytes) = bytes := by
  have hdigit : ∀ n < 64, Char.ofNat (UInt16.ofNat (Base64.digit n).toNat).toNat = Base64.digit n := by
    decide +kernel
  have hchars : (toBase64 bytes).map (fun u => Char.ofNat u.toNat) = Base64.encode bytes := by
    rw [toBase64, List.map_map]
    refine (List.map_congr_left fun ch hch => ?_).trans (List.map_id _)
    rcases List.mem_append.mp hch with hch | hch
    · obtain ⟨n, hn, rfl⟩ := List.mem_map.mp hch
      exact hdigit n (Base64.digits_lt hn)
    · rw [List.eq_of_mem_replicate hch]
      rfl
  rw [fromBase64, hchars, Base64.decode_encode]

/-- The data that is sent of a payload. -/
def Form.sentData (payload : Bytes) : Form → Bytes
  | raw => payload
  | base64 _ => payload
  | buffer => if payload.length < 96 then fromBase64 (joined payload) else []

theorem fromBase64_text {message payload : Bytes} {form : Form} (h : form.Publishes message payload) :
    fromBase64 (form.text message payload) = form.sentData payload := by
  cases form with
  | raw => rw [Form.text, fromBase64_toBase64, ← h.1, Form.sentData]
  | base64 s => exact h.1.symm
  | buffer =>
    rw [Form.text, Form.sentData]
    split_ifs <;> rfl

theorem sentData_eq_iff {payload : Bytes} {form : Form} :
    form.sentData payload = payload ↔ (form = .buffer → payload = []) := by
  cases form with
  | raw => exact ⟨fun _ h => (nomatch h), fun _ => rfl⟩
  | base64 s => exact ⟨fun _ h => (nomatch h), fun _ => rfl⟩
  | buffer =>
    rw [Form.sentData]
    constructor
    · intro heq _
      by_contra hne
      split_ifs at heq
      · exact fromBase64_joined_ne hne heq
      · exact hne heq.symm
    · intro h
      rw [h rfl]
      rfl

theorem downlinkFields_sendBuf {topic data : Bytes} (ht : topic.length < 256) (hd : data.length < 256) :
    downlinkFields (sendBuf topic data) = some (topic, data) := by
  have htlen : (UInt8.ofNat topic.length).toNat = topic.length := by
    rw [UInt8.toNat_ofNat', Nat.mod_eq_of_lt ht]
  have hdlen : (UInt8.ofNat data.length).toNat = data.length := by
    rw [UInt8.toNat_ofNat', Nat.mod_eq_of_lt hd]
  have hlength : ¬ topic.length + data.length + 2 > (sendBuf topic data).length := by
    simp only [sendBuf, List.cons_append, List.length_cons, List.length_append]
    omega
  simp only [downlinkFields, sendBuf, List.cons_append, htlen, List.drop_left, hdlen, List.take_left,
    List.take_length]
  exact if_neg hlength

/-- Two packets are the same only with the same topic and data, if one of them
has lengths that are bytes. -/
theorem sendBuf_inj {topic data topic' data' : Bytes} (h : sendBuf topic data = sendBuf topic' data')
    (ht : topic'.length < 256) (hd : data'.length < 256) : topic = topic' ∧ data = data' := by
  have hlength := congrArg List.length h
  simp only [sendBuf, List.cons_append, List.length_cons, List.length_append] at hlength
  obtain ⟨hfirst, hrest⟩ := List.cons.inj h
  have hmod := congrArg UInt8.toNat hfirst
  rw [UInt8.toNat_ofNat', UInt8.toNat_ofNat'] at hmod
  obtain ⟨htopic, hdata⟩ := List.append_inj hrest (by omega)
  exact ⟨htopic, (List.cons.inj hdata).2⟩

/-- What is behind a place in the topic is the topic for the device only if its
name ends there. -/
theorem toUtf8_drop_eq_iff {node down : Text} :
    toUtf8 ((publishedTopic node down).drop 22) = toUtf8 down ↔
      node.length = 12 ∨ node.length < 12 ∧ down = [] := by
  have hroot : publishedTopic node down = ascii "signpost/" ++ (node ++ 0x2F :: down) :=
    List.append_assoc ..
  have hskip : (ascii "signpost/" ++ (node ++ 0x2F :: down)).drop 22 = (node ++ 0x2F :: down).drop 13 := rfl
  rw [hroot, hskip, List.drop_append]
  rcases Nat.lt_trichotomy node.length 12 with hlt | heq | hgt
  · obtain ⟨k, hk⟩ : ∃ k, 13 - node.length = (k + 1) + 1 := ⟨11 - node.length, by omega⟩
    rw [List.drop_of_length_le (by omega), hk, List.drop_succ_cons, List.nil_append]
    constructor
    · intro heq
      by_contra hnot
      have hdown : down.take (k + 1) ≠ [] := fun hnil => by
        rw [List.take_eq_nil_iff] at hnil
        rcases hnil with hnil | hnil
        · omega
        · exact hnot (.inr ⟨hlt, hnil⟩)
      have hshort := length_toUtf8_lt_append hdown (down.drop (k + 1))
      rw [List.take_append_drop, heq] at hshort
      omega
    · rintro (h | ⟨-, rfl⟩)
      · omega
      · rw [List.drop_nil]
  · rw [List.drop_of_length_le (by omega), heq]
    exact ⟨fun _ => .inl rfl, fun _ => rfl⟩
  · have hzero : 13 - node.length = 0 := by omega
    rw [hzero, List.drop_zero, ← List.singleton_append, ← List.append_assoc]
    have hlong := length_toUtf8_lt_append (List.concat_ne_nil (0x2F : UInt16) (node.drop 13)) down
    constructor
    · intro heq
      rw [heq] at hlong
      omega
    · rintro (h | ⟨h, -⟩) <;> omega

/-! ## What arrives -/

section
variable {c : Conversions} {d : Dispatch} {node down : Text} {message payload : Bytes} {form : Form}

/-- Something is queued for the message. -/
def Form.Queued (node down : Text) (message : Bytes) (form : Form) : Prop :=
  (moduleName down).length < 12 ∧ (down.splitOn 0x2F).length ≤ 26 ∧ node ∉ objectNames ∧
    form.Handled message

/-- What is queued is what was published: the name of the device is as long as the
code takes it to be, and the payload is no buffer. -/
def Form.Whole (node down : Text) (payload : Bytes) (form : Form) : Prop :=
  (node.length = 12 ∨ node.length < 12 ∧ down = []) ∧ (form = .buffer → payload = [])

theorem step_of_queued (hnode : 0x2F ∉ node) (hknown : (d.nodeDict node).isSome)
    (hform : form.Publishes message payload) (hqueued : form.Queued node down message) :
    ∃ d' obj os, d.step c (.message (publishedTopic node down) message) = some (d', .accepted obj :: os) ∧
      d'.queue node = d.queue node ++ [obj] ∧
      obj.packet c = some (sendBuf (toUtf8 ((publishedTopic node down).drop 22)) (form.sentData payload)) := by
  obtain ⟨hname, hparts, hproto, hhandled⟩ := hqueued
  let obj : Downobj := ⟨node, (publishedTopic node down).drop 22, .str (form.text message payload)⟩
  have hpacket : obj.packet c =
      some (sendBuf (toUtf8 ((publishedTopic node down).drop 22)) (form.sentData payload)) := by
    rw [Downobj.packet, Conversions.bufferFrom, fromBase64_text hform]
    rfl
  have hstep : d.step c (.message (publishedTopic node down) message) = d.push c obj := by
    simp only [Dispatch.step, Dispatch.onMessage, topicParts_publishedTopic hnode hknown,
      datstring_of_publishes hform, if_pos (And.intro hname hparts), if_pos hhandled, Option.bind_some]
    rfl
  obtain ⟨d', os, hpush⟩ := Dispatch.push_of_packet (d := d) hproto hpacket
  obtain ⟨rfl, -⟩ := Dispatch.push_cases hpush
  exact ⟨_, obj, os, hstep.trans hpush, Dispatch.queue_setQueue _, hpacket⟩

theorem step_of_not_queued (hnode : 0x2F ∉ node) (hknown : (d.nodeDict node).isSome)
    (hform : form.Publishes message payload) (hqueued : ¬ form.Queued node down message) {d' : Dispatch}
    {os : List DispatchAction} (h : d.step c (.message (publishedTopic node down) message) = some (d', os)) :
    d' = d ∧ os = [] := by
  rcases Dispatch.onMessage_cases h with hnone | ⟨node', downtopic, data, hparts, hdat, hpush⟩
  · exact hnone
  · rw [topicParts_publishedTopic hnode hknown, Option.some_inj] at hparts
    rw [datstring_of_publishes hform, Option.some_inj] at hdat
    split_ifs at hparts with htopic
    split_ifs at hdat with hhandled
    obtain ⟨rfl, rfl⟩ := Prod.mk.inj (Option.some_inj.mp hparts)
    have hproto : node ∉ objectNames := fun hmem => by
      rw [Dispatch.push, if_pos hmem] at hpush
      cases hpush
    exact (hqueued ⟨htopic.1, htopic.2, hproto, hhandled⟩).elim

theorem length_intercalate_singleton {α : Type} (x : α) {parts : List (List α)} (h : parts ≠ []) :
    ([x].intercalate parts).length + 1 = (parts.map List.length).sum + parts.length := by
  induction parts with
  | nil => exact (h rfl).elim
  | cons part parts ih =>
    cases parts with
    | nil =>
      rw [List.intercalate_singleton]
      rfl
    | cons part' parts =>
      have hrest := ih (List.cons_ne_nil _ _)
      rw [List.intercalate_cons_cons, List.length_append, List.length_append, List.length_singleton,
        List.map_cons, List.sum_cons, List.length_cons]
      omega

theorem FitsDownlink.length_lt (hnode : 0x2F ∉ node) (hparts : (down.splitOn 0x2F).length ≤ 26)
    (h : FitsDownlink node down payload) : (toUtf8 down).length < 256 := by
  have hsum := h.topic
  have hroot : (ascii "signpost").length = 8 := rfl
  rw [splitOn_publishedTopic hnode, List.map_cons, List.map_cons, List.sum_cons, List.sum_cons,
    hroot] at hsum
  have hlength := length_intercalate_singleton 0x2F (List.splitOn_ne_nil 0x2F down)
  rw [List.intercalate_splitOn] at hlength
  have hutf8 := length_toUtf8_le down
  omega

/-- A message arrives as it was published exactly if it is queued whole and fits,
or is not queued and does not fit. -/
theorem downlink_arrives_iff (c : Conversions) (d : Dispatch) {node down : Text} {message payload : Bytes}
    {form : Form} (hnode : 0x2F ∉ node) (hknown : (d.nodeDict node).isSome)
    (hform : form.Publishes message payload) :
    DownlinkArrives c d node down message payload ↔
      (form.Queued node down message ∧ form.Whole node down payload ∧ FitsDownlink node down payload) ∨
        (¬ form.Queued node down message ∧ ¬ FitsDownlink node down payload) := by
  by_cases hqueued : form.Queued node down message
  · obtain ⟨d', obj, os, hstep, hqueue, hpacket⟩ := step_of_queued hnode hknown hform hqueued
    constructor
    · intro h
      have hfits : FitsDownlink node down payload := by
        by_contra hnot
        cases (h.rejected hnot d' _ hstep).2
      obtain ⟨d₂, obj₂, os₂, hstep₂, -, hpacket₂, hfields⟩ := h.queued hfits
      rw [hstep] at hstep₂
      cases hstep₂
      rw [hpacket, Option.some_inj] at hpacket₂
      obtain ⟨htopic, hdata⟩ := sendBuf_inj hpacket₂ (hfits.length_lt hnode hqueued.2.1)
        (Nat.lt_trans hfits.payload (by decide))
      exact .inl ⟨hqueued, ⟨toUtf8_drop_eq_iff.mp htopic, sentData_eq_iff.mp hdata⟩, hfits⟩
    · rintro (⟨-, ⟨hlength, hbuffer⟩, hfits⟩ | ⟨hnot, -⟩)
      · rw [toUtf8_drop_eq_iff.mpr hlength, sentData_eq_iff.mpr hbuffer] at hpacket
        have hfields := downlinkFields_sendBuf (hfits.length_lt hnode hqueued.2.1)
          (Nat.lt_trans hfits.payload (by decide))
        exact ⟨fun _ => ⟨d', obj, os, hstep, hqueue, hpacket, hfields⟩, fun hnot => (hnot hfits).elim⟩
      · exact (hnot hqueued).elim
  · constructor
    · intro h
      refine .inr ⟨hqueued, fun hfits => ?_⟩
      obtain ⟨d', obj, os, hstep, -⟩ := h.queued hfits
      cases (step_of_not_queued hnode hknown hform hqueued hstep).2
    · rintro (⟨h, -⟩ | ⟨-, hnot⟩)
      · exact (hqueued h).elim
      · exact ⟨fun hfits => (hnot hfits).elim, fun _ d' os => step_of_not_queued hnode hknown hform hqueued⟩

end

section

def sampleDispatch : Dispatch :=
  ⟨fun id => if id = sampleNode then some (ascii "0011") else none, fun _ => none⟩

/-- A byte that is no text arrives. -/
theorem downlink_arrives_byte : DownlinkArrives textsOnly sampleDispatch sampleNode (ascii "a") [0xFF]
    [0xFF] := by
  have hform : Form.raw.Publishes [0xFF] [0xFF] := ⟨rfl, by decide +kernel⟩
  have hqueued : Form.raw.Queued sampleNode (ascii "a") [0xFF] := by
    refine ⟨?_, ?_, ?_, ?_⟩ <;> decide +kernel
  have hfits : FitsDownlink sampleNode (ascii "a") [0xFF] := by
    refine ⟨?_, ?_, ?_⟩ <;> decide +kernel
  exact (downlink_arrives_iff textsOnly sampleDispatch (by decide) (by decide) hform).mpr
    (.inl ⟨hqueued, ⟨.inl rfl, by decide⟩, hfits⟩)

/-- A text that is a number does not. -/
theorem number_dropped : Form.raw.Publishes (bytesOf "5") (bytesOf "5") ∧
    FitsDownlink sampleNode (ascii "a") (bytesOf "5") ∧
    ¬ DownlinkArrives textsOnly sampleDispatch sampleNode (ascii "a") (bytesOf "5") (bytesOf "5") := by
  have hfits : FitsDownlink sampleNode (ascii "a") (bytesOf "5") := by
    refine ⟨?_, ?_, ?_⟩ <;> decide +kernel
  refine ⟨⟨rfl, by decide +kernel⟩, hfits, fun h => ?_⟩
  have hnothing : (sampleDispatch.step textsOnly (.message (publishedTopic sampleNode (ascii "a"))
      (bytesOf "5"))).map (fun r => r.2.length) = some 0 := by decide +kernel
  obtain ⟨d', obj, os, hstep, -⟩ := h.queued hfits
  rw [hstep] at hnothing
  cases hnothing

end

end Signpost
