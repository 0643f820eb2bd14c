/-
Downlink frames: when `send_downlink_message` parses what the radio received
within its bounds, and returns what has become of it.

A frame is a length and a topic, and a length and data. The topic starts with the
name of a module, which goes up to its second slash. A step of the parser that
reads outside the frame, or writes or reads outside its two buffers, has no result.
-/
import Signpost.RadioQueue
import Signpost.Subscribe

namespace Signpost

open Lib

namespace RadioDownlink

/-- `"signpost/control"` -/
def controlName : Bytes := Controller.ofChars "signpost/control"

/-- `lookup_module_num` -/
def lookupModuleNum (modName : Bytes) : Option UInt8 :=
  if Controller.strncmpEq 16 modName controlName then some moduleAddressController else none

/-- Bytes that are copied to a buffer of `NAME_LEN+1` zeros, as a string. -/
def nameBuffer (b : Bytes) : Option Bytes :=
  if b.length ≤ 17 ∧ (cstr b).length ≤ 16 then some (cstr b) else none

/-- What is returned as an `int8_t`. -/
def asInt8 (rc : Int) : Int := (Int8.ofInt rc).toInt

/-- The name and the rest of a topic, as they are copied. -/
def copyTopic (topics : Bytes) : Option (Bytes × Bytes) := do
  let find1 ← memchr topics 0x2F
  let find2 := find1 + 1 + (← memchr (topics.drop (find1 + 1)) 0x2F)
  let modName ← nameBuffer (topics.take find2)
  let topic ← nameBuffer (topics.drop (find2 + 1))
  return (modName, topic)

/-- `send_downlink_message`, with the code that a topic and data are sent with. -/
def sendDownlinkMessage (subscribeSend : UInt8 → Bytes → Bytes → Int) (buffer : Bytes) : Option Int := do
  let slen ← buffer[0]?
  let dlen ← buffer[slen.toNat + 1]?
  if slen.toNat + dlen.toNat + 2 > buffer.length then return tockFail
  let (modName, topic) ← copyTopic ((buffer.drop 1).take slen.toNat)
  match lookupModuleNum modName with
  | none => return tockFail
  | some dest => return asInt8 (subscribeSend dest topic ((buffer.drop (slen.toNat + 2)).take dlen.toNat))

/-- `port_signpost_i2c_master_write`, with what the driver's call returns and what its callback is given. -/
def portSignpostI2cMasterWrite (call callback : MasterWrite) : MasterWrite := fun k dest buf =>
  if call k dest buf < 0 then portFail
  else if callback k dest buf < 0 then portFail
  else callback k dest buf

/-- The code that `signpost_networking_subscribe_send` returns. -/
def subscribeCode (mb : Mbedtls) (rand : Int × Iv) (call callback : MasterWrite) (d : Device)
    (addrToKey : UInt8 → Option Key) (malloc : Bool) (dest : UInt8) (topic data : Bytes) : Int :=
  (signpostNetworkingSubscribeSend mb rand (portSignpostI2cMasterWrite call callback) d addrToKey malloc dest topic
    data).rc

/-! ## Frames -/

/-- The name of a module: the name of an organisation, a slash and another name. -/
def IsName (name : Bytes) : Prop := ∃ org mod, name = org ++ 0x2F :: mod ∧ 0x2F ∉ org ∧ 0x2F ∉ mod

/-- A frame with this name, this for the rest of the topic and these data. -/
structure Formed (frame name topic data : Bytes) : Prop where
  isName : IsName name
  topics_lt : (name ++ 0x2F :: topic).length < 256
  data_lt : data.length < 256
  parts : ∃ rest, frame = UInt8.ofNat (name ++ 0x2F :: topic).length :: (name ++ 0x2F :: topic) ++
    UInt8.ofNat data.length :: data ++ rest

/-- Bytes that fit in a buffer of 17, with a zero. -/
def Terminated (b : Bytes) : Prop := b.length ≤ 17 ∧ (cstr b).length ≤ 16

section
variable {frame name topic data topics : Bytes} {slen dlen : UInt8} {rc : Int}
  {subscribeSend : UInt8 → Bytes → Bytes → Int}

theorem nameBuffer_eq_some {b s : Bytes} : nameBuffer b = some s ↔ Terminated b ∧ s = cstr b := by
  unfold nameBuffer Terminated
  split
  · next h => simp [h, eq_comm]
  · next h => simp [h]

theorem IsName.memchr (h : IsName name) (topic : Bytes) :
    ∃ find1, memchr (name ++ 0x2F :: topic) 0x2F = some find1 ∧
      ∃ rest, memchr ((name ++ 0x2F :: topic).drop (find1 + 1)) 0x2F = some rest ∧
        find1 + 1 + rest = name.length := by
  obtain ⟨org, mod, rfl, horg, hmod⟩ := h
  refine ⟨org.length, ?_, mod.length, ?_, ?_⟩
  · rw [List.append_assoc]
    exact memchr_append horg _
  · have hdrop : (org ++ 0x2F :: mod ++ 0x2F :: topic).drop (org.length + 1) = mod ++ 0x2F :: topic := by
      simp [List.drop_append]
    rw [hdrop]
    exact memchr_append hmod _
  · simp only [List.length_append, List.length_cons]
    omega

theorem isName_of_memchr {find1 rest : Nat} (h₁ : memchr topics 0x2F = some find1)
    (h₂ : memchr (topics.drop (find1 + 1)) 0x2F = some rest) :
    IsName (topics.take (find1 + 1 + rest)) ∧
      topics = topics.take (find1 + 1 + rest) ++ 0x2F :: topics.drop (find1 + 1 + rest + 1) := by
  obtain ⟨org, after, rfl, horg, rfl⟩ := memchr_eq_some h₁
  have hdrop : (org ++ 0x2F :: after).drop (org.length + 1) = after := by simp [List.drop_append]
  rw [hdrop] at h₂
  obtain ⟨mod, topic, rfl, hmod, rfl⟩ := memchr_eq_some h₂
  have htake : (org ++ 0x2F :: (mod ++ 0x2F :: topic)).take (org.length + 1 + mod.length) = org ++ 0x2F :: mod := by
    rw [← List.cons_append, ← List.append_assoc]
    exact List.take_left' (by simp only [List.length_append, List.length_cons]; omega)
  have hrest : (org ++ 0x2F :: (mod ++ 0x2F :: topic)).drop (org.length + 1 + mod.length + 1) = topic := by
    rw [show org ++ 0x2F :: (mod ++ 0x2F :: topic) = (org ++ 0x2F :: mod ++ [0x2F]) ++ topic by simp]
    exact List.drop_left' (by simp only [List.length_append, List.length_cons, List.length_nil]; omega)
  rw [htake, hrest]
  exact ⟨⟨org, mod, rfl, horg, hmod⟩, by simp⟩

theorem formed_iff (hslen : frame[0]? = some slen) (hdlen : frame[slen.toNat + 1]? = some dlen)
    (hfits : slen.toNat + dlen.toNat + 2 ≤ frame.length) :
    Formed frame name topic data ↔ IsName name ∧ (frame.drop 1).take slen.toNat = name ++ 0x2F :: topic ∧
      (frame.drop (slen.toNat + 2)).take dlen.toNat = data := by
  constructor
  · rintro ⟨hname, htopics, hdata, rest, rfl⟩
    obtain rfl : UInt8.ofNat (name ++ 0x2F :: topic).length = slen := by simpa using hslen
    have hs : (UInt8.ofNat (name ++ 0x2F :: topic).length).toNat = (name ++ 0x2F :: topic).length :=
      UInt8.toNat_ofNat_of_lt' htopics
    generalize name ++ 0x2F :: topic = topics at hs hdlen htopics ⊢
    rw [hs] at hdlen ⊢
    obtain rfl : UInt8.ofNat data.length = dlen := by simpa [List.getElem?_append_right] using hdlen
    rw [UInt8.toNat_ofNat_of_lt' hdata]
    refine ⟨hname, ?_, ?_⟩
    · simp
    · rw [show UInt8.ofNat topics.length :: topics ++ UInt8.ofNat data.length :: data ++ rest =
        (UInt8.ofNat topics.length :: topics ++ [UInt8.ofNat data.length]) ++ (data ++ rest) by simp]
      rw [List.drop_left' (by simp), List.take_left' rfl]
  · rintro ⟨hname, htopics, rfl⟩
    have hlen := congrArg List.length htopics
    rw [List.length_take, List.length_drop, Nat.min_eq_left (by omega)] at hlen
    have hdata : ((frame.drop (slen.toNat + 2)).take dlen.toNat).length = dlen.toNat := by
      rw [List.length_take, List.length_drop, Nat.min_eq_left (by omega)]
    refine ⟨hname, hlen ▸ slen.toNat_lt, Nat.lt_of_le_of_lt (Nat.le_of_eq hdata) dlen.toNat_lt,
      (frame.drop (slen.toNat + 2)).drop dlen.toNat, ?_⟩
    rw [← hlen, UInt8.ofNat_toNat, hdata, UInt8.ofNat_toNat, ← htopics]
    have h₀ : frame = slen :: frame.drop 1 := by
      cases frame with
      | nil => cases hslen
      | cons x frame => simpa using hslen
    have h₁ : (frame.drop 1).drop slen.toNat = dlen :: frame.drop (slen.toNat + 2) := by
      obtain ⟨hlt, hget⟩ := List.getElem?_eq_some_iff.mp hdlen
      rw [List.drop_drop, Nat.add_comm 1, ← hget, List.getElem_cons_drop]
    calc frame = slen :: ((frame.drop 1).take slen.toNat ++ (frame.drop 1).drop slen.toNat) := by
          rw [List.take_append_drop, ← h₀]
      _ = slen :: ((frame.drop 1).take slen.toNat ++ dlen :: ((frame.drop (slen.toNat + 2)).take dlen.toNat ++
          (frame.drop (slen.toNat + 2)).drop dlen.toNat)) := by
          rw [h₁, List.take_append_drop]
      _ = _ := by simp only [List.cons_append, List.append_assoc]

theorem copyTopic_eq_some {modName rest : Bytes} :
    copyTopic topics = some (modName, rest) ↔ ∃ name topic, IsName name ∧ topics = name ++ 0x2F :: topic ∧
      Terminated name ∧ Terminated topic ∧ modName = cstr name ∧ rest = cstr topic := by
  constructor
  · intro h
    simp only [copyTopic, Option.bind_eq_bind, Option.bind_eq_some_iff, nameBuffer_eq_some] at h
    obtain ⟨find1, h₁, find2, h₂, _, ⟨hname, rfl⟩, _, ⟨htopic, rfl⟩, heq⟩ := h
    cases heq
    obtain ⟨hisName, htopics⟩ := isName_of_memchr h₁ h₂
    exact ⟨_, _, hisName, htopics, hname, htopic, rfl, rfl⟩
  · rintro ⟨name, topic, hisName, rfl, hname, htopic, rfl, rfl⟩
    obtain ⟨find1, h₁, find2, h₂, hlen⟩ := hisName.memchr topic
    have htake : (name ++ 0x2F :: topic).take (find1 + 1 + find2) = name := by rw [hlen, List.take_left' rfl]
    have hdrop : (name ++ 0x2F :: topic).drop (find1 + 1 + find2 + 1) = topic := by
      simp [hlen, List.drop_append]
    simp only [copyTopic, Option.bind_eq_bind, h₁, h₂, Option.bind_some, htake, hdrop,
      nameBuffer_eq_some.mpr ⟨hname, rfl⟩, nameBuffer_eq_some.mpr ⟨htopic, rfl⟩]
    rfl

theorem IsName.append_inj {name' topic' : Bytes} (h : IsName name) (h' : IsName name')
    (heq : name ++ 0x2F :: topic = name' ++ 0x2F :: topic') : name = name' ∧ topic = topic' := by
  obtain ⟨find1, h₁, find2, h₂, hlen⟩ := h.memchr topic
  obtain ⟨find1', h₁', find2', h₂', hlen'⟩ := h'.memchr topic'
  rw [heq] at h₁ h₂
  obtain rfl : find1 = find1' := Option.some.inj (h₁.symm.trans h₁')
  obtain rfl : find2 = find2' := Option.some.inj (h₂.symm.trans h₂')
  obtain ⟨rfl, htopic⟩ := List.append_inj heq (hlen.symm.trans hlen')
  exact ⟨rfl, (List.cons.inj htopic).2⟩

theorem Formed.fits (h : Formed frame name topic data) : ∃ slen dlen, frame[0]? = some slen ∧
    frame[slen.toNat + 1]? = some dlen ∧ slen.toNat + dlen.toNat + 2 ≤ frame.length := by
  obtain ⟨-, htopics, hdata, rest, rfl⟩ := h
  refine ⟨UInt8.ofNat (name ++ 0x2F :: topic).length, UInt8.ofNat data.length, rfl, ?_, ?_⟩
  · rw [UInt8.toNat_ofNat_of_lt' htopics]
    simp
  · rw [UInt8.toNat_ofNat_of_lt' htopics, UInt8.toNat_ofNat_of_lt' hdata]
    simp only [List.length_append, List.length_cons]
    omega

theorem Formed.length_le (h : Formed frame name topic data) :
    name.length + topic.length + data.length + 3 ≤ frame.length := by
  obtain ⟨-, -, -, rest, rfl⟩ := h
  simp only [List.length_append, List.length_cons]
  omega

theorem Formed.unique {name' topic' data' : Bytes} (h : Formed frame name topic data)
    (h' : Formed frame name' topic' data') : name = name' ∧ topic = topic' ∧ data = data' := by
  obtain ⟨slen, dlen, hslen, hdlen, hfits⟩ := h.fits
  obtain ⟨hname, htopics, hdata⟩ := (formed_iff hslen hdlen hfits).mp h
  obtain ⟨hname', htopics', hdata'⟩ := (formed_iff hslen hdlen hfits).mp h'
  obtain ⟨rfl, rfl⟩ := hname.append_inj hname' (htopics.symm.trans htopics')
  exact ⟨rfl, rfl, hdata.symm.trans hdata'⟩

/-! ## What is returned -/

theorem lookupModuleNum_cstr (h : Terminated name) :
    lookupModuleNum (cstr name) = if cstr name = controlName then some moduleAddressController else none := by
  have hword : (cstr controlName).take 16 = controlName := by decide
  have hiff : Controller.strncmpEq 16 (cstr name) controlName = true ↔ cstr name = controlName := by
    rw [strncmpEq_iff, hword, cstr_cstr, List.take_of_length_le h.2]
  simp only [lookupModuleNum, hiff]

/-- A number that fits in a byte stays what it is up to 127, and is negative from there. -/
theorem asInt8_nonneg_iff (hlow : -128 ≤ rc) (hhigh : rc < 256) : 0 ≤ asInt8 rc ↔ 0 ≤ rc ∧ rc ≤ 127 := by
  rw [asInt8, Int8.toInt_ofInt]
  unfold Int.bmod
  simp only [Int8.size]
  omega

theorem sendDownlinkMessage_eq_some : sendDownlinkMessage subscribeSend frame = some rc ↔
    ∃ slen dlen, frame[0]? = some slen ∧ frame[slen.toNat + 1]? = some dlen ∧
      (frame.length < slen.toNat + dlen.toNat + 2 ∧ rc = tockFail ∨
        slen.toNat + dlen.toNat + 2 ≤ frame.length ∧ ∃ name topic data, Formed frame name topic data ∧
          Terminated name ∧ Terminated topic ∧ rc = if cstr name = controlName then
            asInt8 (subscribeSend moduleAddressController (cstr topic) data) else tockFail) := by
  simp only [sendDownlinkMessage, Option.bind_eq_bind, Option.bind_eq_some_iff]
  refine exists_congr fun slen => ?_
  constructor
  · rintro ⟨hslen, dlen, hdlen, h⟩
    refine ⟨dlen, hslen, hdlen, ?_⟩
    split at h
    · next hlong =>
      cases h
      exact .inl ⟨hlong, rfl⟩
    · next hfits =>
      obtain ⟨⟨modName, rest⟩, hcopy, h⟩ := Option.bind_eq_some_iff.mp h
      obtain ⟨name, topic, hname, htopics, hnameZ, htopicZ, rfl, rfl⟩ := copyTopic_eq_some.mp hcopy
      refine .inr ⟨Nat.le_of_not_lt hfits, name, topic, _,
        (formed_iff hslen hdlen (Nat.le_of_not_lt hfits)).mpr ⟨hname, htopics, rfl⟩, hnameZ, htopicZ, ?_⟩
      rw [lookupModuleNum_cstr hnameZ] at h
      split
      · next hknown =>
        rw [if_pos hknown] at h
        exact (Option.some.inj h).symm
      · next hunknown =>
        rw [if_neg hunknown] at h
        exact (Option.some.inj h).symm
  · rintro ⟨dlen, hslen, hdlen, h⟩
    refine ⟨hslen, dlen, hdlen, ?_⟩
    rcases h with ⟨hlong, rfl⟩ | ⟨hfits, name, topic, data, hformed, hnameZ, htopicZ, rfl⟩
    · exact if_pos hlong
    · obtain ⟨hname, htopics, rfl⟩ := (formed_iff hslen hdlen hfits).mp hformed
      rw [if_neg (Nat.not_lt.mpr hfits)]
      refine Option.bind_eq_some_iff.mpr ⟨(cstr name, cstr topic),
        copyTopic_eq_some.mpr ⟨name, topic, hname, htopics, hnameZ, htopicZ, rfl, rfl⟩, ?_⟩
      rw [lookupModuleNum_cstr hnameZ]
      by_cases hknown : cstr name = controlName
      · simp only [if_pos hknown]
        rfl
      · simp only [if_neg hknown]
        rfl

theorem portSignpostI2cMasterWrite_ge (call callback : MasterWrite) (k : Nat) (dest : UInt8) (buf : Bytes) :
    portFail ≤ portSignpostI2cMasterWrite call callback k dest buf := by
  unfold portSignpostI2cMasterWrite portFail
  split_ifs <;> omega

theorem eq_controlName_iff (hname : name.length ≤ 16) : name = controlName ↔ cstr name = controlName := by
  constructor
  · rintro rfl
    decide
  · intro h
    have hlen : (cstr name).length = 16 := congrArg List.length h
    rw [← cstr_eq_self (show name.length ≤ (cstr name).length by omega), h]

end

section
variable {mb : Mbedtls} {rand : Int × Iv} {call callback : MasterWrite} {d : Device}
  {addrToKey : UInt8 → Option Key} {malloc : Bool} {frame name topic data : Bytes}

theorem subscribeCode_cstr (dest : UInt8) :
    subscribeCode mb rand call callback d addrToKey malloc dest (cstr topic) data =
      subscribeCode mb rand call callback d addrToKey malloc dest topic data := by
  simp only [subscribeCode, signpostNetworkingSubscribeSend, subscribeMessage_cstr]

/-- The code of a send fits in the byte that is returned, unless more than 127 bytes were sent. -/
theorem asInt8_subscribeCode_nonneg_iff (hctr : mb.CtrLength) {dest : UInt8} (htopic : (cstr topic).length ≤ 28)
    (hdata : (cstr topic).length + data.length ≤ 128) :
    0 ≤ asInt8 (subscribeCode mb rand call callback d addrToKey malloc dest topic data) ↔
      0 ≤ subscribeCode mb rand call callback d addrToKey malloc dest topic data ∧
        (cstr topic).length + data.length + 5 + overhead (addrToKey dest) ≤ 127 := by
  have hover := overhead_le (addrToKey dest)
  generalize hrc : subscribeCode mb rand call callback d addrToKey malloc dest topic data = rc
  have hcases : rc = portEnomem ∨ rc = portFail ∨
      rc = (cstr topic).length + data.length + 5 + overhead (addrToKey dest) := by
    rcases signpostNetworkingSubscribeSend_cases hctr htopic (by omega) hrc with
      hnomem | hfail | ⟨hneg, k, bytes, hport⟩ | hsent
    · exact .inl hnomem
    · exact .inr (.inl hfail)
    · have hge := portSignpostI2cMasterWrite_ge call callback k dest bytes
      unfold portFail at hge ⊢
      omega
    · exact .inr (.inr hsent)
  unfold portEnomem portFail at hcases
  rw [asInt8_nonneg_iff (by omega) (by omega)]
  omega

theorem returned_nonneg_iff (hctr : mb.CtrLength) (htopic : Terminated topic)
    (hdata : topic.length + data.length ≤ 128) :
    (0 ≤ if cstr name = controlName then asInt8 (subscribeCode mb rand call callback d addrToKey malloc
        moduleAddressController (cstr topic) data) else tockFail) ↔
      cstr name = controlName ∧
        0 ≤ subscribeCode mb rand call callback d addrToKey malloc moduleAddressController topic data ∧
        (cstr topic).length + data.length + 5 + overhead (addrToKey moduleAddressController) ≤ 127 := by
  have hlen := length_cstr_le topic
  split
  · next hknown =>
    rw [asInt8_subscribeCode_nonneg_iff hctr (by rw [cstr_cstr]; exact Nat.le_trans htopic.2 (by decide))
      (by rw [cstr_cstr]; omega), subscribeCode_cstr, cstr_cstr]
    exact (and_iff_right hknown).symm
  · next hunknown =>
    exact iff_of_false (by decide) fun h => hunknown h.1

theorem Formed.wanted_iff (h : Formed frame name topic data) {sent : Bytes → Bytes → Prop} :
    (∃ name topic data, Formed frame name topic data ∧ name.length ≤ 16 ∧ topic.length ≤ 16 ∧
        name = controlName ∧ sent topic data) ↔
      cstr name = controlName ∧ sent topic data ∧ name.length ≤ 16 ∧ topic.length ≤ 16 := by
  constructor
  · rintro ⟨_, _, _, h', hname, htopic, hknown, hsent⟩
    obtain ⟨rfl, rfl, rfl⟩ := h.unique h'
    exact ⟨(eq_controlName_iff hname).mp hknown, hsent, hname, htopic⟩
  · rintro ⟨hknown, hsent, hname, htopic⟩
    exact ⟨name, topic, data, h, hname, htopic, (eq_controlName_iff hname).mpr hknown, hsent⟩

/-- The parser stays inside a frame and its buffers, and returns what it should, exactly
where the length of the data is in the frame and, if the lengths fit, the name and the
rest of the topic end inside their buffers. When they reach the controller they also have
to be too long exactly if more is sent than an `int8_t` holds. -/
theorem downlink_frame_iff (hctr : mb.CtrLength) (hlen : frame.length ≤ 128) :
    (∃ rc, sendDownlinkMessage (subscribeCode mb rand call callback d addrToKey malloc) frame = some rc ∧
      (0 ≤ rc ↔ ∃ name topic data, Formed frame name topic data ∧ name.length ≤ 16 ∧ topic.length ≤ 16 ∧
        name = controlName ∧
        0 ≤ subscribeCode mb rand call callback d addrToKey malloc moduleAddressController topic data)) ↔
    ∃ slen dlen, frame[0]? = some slen ∧ frame[slen.toNat + 1]? = some dlen ∧
      (slen.toNat + dlen.toNat + 2 ≤ frame.length → ∃ name topic data, Formed frame name topic data ∧
        Terminated name ∧ Terminated topic ∧ (cstr name = controlName →
          0 ≤ subscribeCode mb rand call callback d addrToKey malloc moduleAddressController topic data →
          (name.length ≤ 16 ∧ topic.length ≤ 16 ↔
            (cstr topic).length + data.length + 5 + overhead (addrToKey moduleAddressController) ≤ 127))) := by
  constructor
  · rintro ⟨rc, hrc, hiff⟩
    obtain ⟨slen, dlen, hslen, hdlen, h⟩ := sendDownlinkMessage_eq_some.mp hrc
    refine ⟨slen, dlen, hslen, hdlen, fun hfits => ?_⟩
    rcases h with ⟨hlong, -⟩ | ⟨-, name, topic, data, hformed, hname, htopic, rfl⟩
    · exact absurd hfits (Nat.not_le.mpr hlong)
    · have hparts := hformed.length_le
      rw [returned_nonneg_iff hctr htopic (by omega), hformed.wanted_iff] at hiff
      refine ⟨name, topic, data, hformed, hname, htopic, fun hknown hsent => ?_⟩
      simpa only [hknown, hsent, true_and] using hiff.symm
  · rintro ⟨slen, dlen, hslen, hdlen, h⟩
    by_cases hfits : slen.toNat + dlen.toNat + 2 ≤ frame.length
    · obtain ⟨name, topic, data, hformed, hname, htopic, hiff⟩ := h hfits
      have hparts := hformed.length_le
      refine ⟨_, sendDownlinkMessage_eq_some.mpr ⟨slen, dlen, hslen, hdlen,
        .inr ⟨hfits, name, topic, data, hformed, hname, htopic, rfl⟩⟩, ?_⟩
      rw [returned_nonneg_iff hctr htopic (by omega), hformed.wanted_iff]
      exact and_congr_right fun hknown => and_congr_right fun hsent => (hiff hknown hsent).symm
    · refine ⟨tockFail, sendDownlinkMessage_eq_some.mpr ⟨slen, dlen, hslen, hdlen,
        .inl ⟨Nat.lt_of_not_le hfits, rfl⟩⟩, iff_of_false (by decide) ?_⟩
      rintro ⟨name, topic, data, hformed, -⟩
      obtain ⟨slen', dlen', hslen', hdlen', hfits'⟩ := hformed.fits
      obtain rfl : slen = slen' := Option.some.inj (hslen.symm.trans hslen')
      obtain rfl : dlen = dlen' := Option.some.inj (hdlen.symm.trans hdlen')
      exact hfits hfits'

/-- `"signpost/control/led"` and `"on"`, for the controller. -/
def ledFrame : Bytes := 20 :: Controller.ofChars "signpost/control/led" ++ 2 :: Controller.ofChars "on"

theorem downlink_frame_iff_led :
    ∃ rc, sendDownlinkMessage (subscribeCode sampleLibrary (0, zeroIv) (fun _ _ _ => 0) (fun _ _ _ => 0) ⟨1, 0⟩
        (fun _ => none) true) ledFrame = some rc ∧
      (0 ≤ rc ↔ ∃ name topic data, Formed ledFrame name topic data ∧ name.length ≤ 16 ∧ topic.length ≤ 16 ∧
        name = controlName ∧ 0 ≤ subscribeCode sampleLibrary (0, zeroIv) (fun _ _ _ => 0) (fun _ _ _ => 0) ⟨1, 0⟩
          (fun _ => none) true moduleAddressController topic data) := by
  refine (downlink_frame_iff sampleLibrary_ctrLength (by decide)).mpr
    ⟨20, 2, by decide, by decide, fun _ => ⟨controlName, Controller.ofChars "led", Controller.ofChars "on",
      ⟨⟨Controller.ofChars "signpost", Controller.ofChars "control", by decide, by decide, by decide⟩, by decide,
        by decide, [], by decide⟩, ⟨by decide, by decide⟩, ⟨by decide, by decide⟩, fun _ _ => by decide⟩⟩

/-- A topic without a slash: the name is copied up to where `memchr` found none. -/
theorem downlink_without_slash :
    ¬ ∃ rc, sendDownlinkMessage (subscribeCode sampleLibrary (0, zeroIv) (fun _ _ _ => 0) (fun _ _ _ => 0) ⟨1, 0⟩
        (fun _ => none) true) [1, 0x61, 0] = some rc ∧
      (0 ≤ rc ↔ ∃ name topic data, Formed [1, 0x61, 0] name topic data ∧ name.length ≤ 16 ∧ topic.length ≤ 16 ∧
        name = controlName ∧ 0 ≤ subscribeCode sampleLibrary (0, zeroIv) (fun _ _ _ => 0) (fun _ _ _ => 0) ⟨1, 0⟩
          (fun _ => none) true moduleAddressController topic data) := by
  rintro ⟨rc, hrc, -⟩
  have hnone : sendDownlinkMessage (subscribeCode sampleLibrary (0, zeroIv) (fun _ _ _ => 0) (fun _ _ _ => 0) ⟨1, 0⟩
      (fun _ => none) true) [1, 0x61, 0] = none := by
    unfold sendDownlinkMessage
    decide
  rw [hnone] at hrc
  cases hrc

end

end RadioDownlink

end Signpost
