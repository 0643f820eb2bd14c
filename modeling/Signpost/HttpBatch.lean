/-
What `http-receiver` makes of a body: of a batch as a radio makes it, and of
records that may be wrong inside.

The data of a record is a slice of the buffer: here it is a place in it and a
length. A record whose lengths reach past its end is skipped; nothing looks
whether the body goes on behind it, nor whether a record ends where its lengths
say.

The two parsers are compared on the batches that a radio makes, where the
records begin and end in the same places. For other bodies the result is about
skipping: which records are left out, and that those behind them are still
found.
-/
import Signpost.Uplink

namespace Signpost

open Lib
open Utf16 (IsUtf8 ofUtf8 toUtf8)

/-! ## Both transports -/

theorem Record.Fits.of_length {r : Record} (h : r.encode.length < 256) : r.Fits := by
  rw [length_encode] at h
  exact ⟨by omega, by omega⟩

/-- A batch of records is parsed into them, and a LoRa packet of one of them into
the same, with the same device; a topic in UTF-8 comes out as it went in. -/
theorem transports_agree {f : Firmware} {sn : UInt8} {es : List Entry} {rs : List Record} (hne : rs ≠ [])
    (hes : es.map Entry.bytes = rs.map Record.encode) (hrs : ∀ r ∈ rs, r.encode.length ≤ 255) :
    httpParse (f.packet sn es .cellular) =
      some (rs.map (Record.publication (deviceId f.address) sn .http)) ∧
    (∀ r ∈ rs, ∀ e : Entry, e.bytes = r.encode → ∀ l : LoraReceiver, ¬ l.Drops (f.packet sn [e] .lora) →
      (l.parse (f.packet sn [e] .lora)).2 =
        some [r.publication (deviceId f.address) sn .lora]) ∧
    ∀ r ∈ rs, r.parsed.data = r.data ∧ (IsUtf8 r.topic → toUtf8 r.parsed.topic = r.topic) := by
  have hfits : ∀ r ∈ rs, r.Fits ∧ r.encode.length < 256 := fun r hr =>
    have hlen : r.encode.length < 256 := Nat.lt_succ_of_le (hrs r hr)
    ⟨.of_length hlen, hlen⟩
  exact ⟨httpParse_packet hne hfits hes, fun r hr e he l => parse_packet (hfits r hr).1 he,
    fun r _ => ⟨rfl, r.toUtf8_topic_iff.mpr⟩⟩

/-- A record without data, and one without a topic. -/
theorem transports_agree_two :
    httpParse (sampleApp.packet 3 [⟨0x31, [1, 0x61, 0]⟩, ⟨0x32, [0, 1, 7]⟩] .cellular) =
      some ([⟨[0x61], []⟩, ⟨[], [7]⟩].map (Record.publication (deviceId sampleApp.address) 3 .http)) ∧
    (LoraReceiver.init.parse (sampleApp.packet 3 [⟨0x32, [0, 1, 7]⟩] .lora)).2 =
      some [Record.publication (deviceId sampleApp.address) 3 .lora ⟨[], [7]⟩] := by
  have hagree := @transports_agree sampleApp 3 [⟨0x31, [1, 0x61, 0]⟩, ⟨0x32, [0, 1, 7]⟩]
    [⟨[0x61], []⟩, ⟨[], [7]⟩] (by decide) (by decide) (by decide)
  exact ⟨hagree.1, hagree.2.1 ⟨[], [7]⟩ (by decide) ⟨0x32, [0, 1, 7]⟩ rfl .init (by decide)⟩

/-! ## Slices -/

/-- A record as `parse` returns it: its data is a slice of the buffer. -/
structure View where
  topic : Text
  start : Nat
  length : Nat
  deriving DecidableEq

def View.record (buf : Bytes) (v : View) : ParsedRecord := ⟨v.topic, (buf.drop v.start).take v.length⟩

/-- The loop of `parse` from an index on. -/
def httpViews : Nat → Nat → Bytes → Option (List View)
  | fuel + 1, index, hi :: lo :: rest =>
    let totalLen := hi.toNat * 256 + lo.toNat
    let startIndex := index + 2
    if totalLen = 0 then some []
    else
      match rest with
      | [] => none
      | tlen :: rest₁ =>
        if tlen.toNat + 2 > totalLen then httpViews fuel (startIndex + totalLen) (rest.drop totalLen)
        else
          match rest₁.drop tlen.toNat with
          | [] => none
          | dlen :: rest₂ =>
            if tlen.toNat + dlen.toNat + 2 > totalLen then
              httpViews fuel (startIndex + totalLen) (rest.drop totalLen)
            else
              let v : View := ⟨ofUtf8 (rest₁.take tlen.toNat), startIndex + 1 + tlen.toNat + 1, dlen.toNat⟩
              if rest₂.drop dlen.toNat = [] then some [v]
              else (httpViews fuel (v.start + dlen.toNat) (rest₂.drop dlen.toNat)).map (v :: ·)
  | _, _, _ => none

def httpParseViews (buf : Bytes) : Option (List View) := httpViews buf.length 7 (buf.drop 7)

section
variable {buf bytes : Bytes} {fuel index : Nat}

theorem drop_add_of_drop (start : Bytes) {rest : Bytes} (h : buf.drop index = start ++ rest) (n : Nat) :
    buf.drop (index + start.length + n) = rest.drop n := by
  rw [← List.drop_drop, ← List.drop_drop, h, List.drop_left]

theorem drop_data {hi lo tlen dlen : UInt8} {rest₁ rest₂ : Bytes}
    (hbytes : buf.drop index = hi :: lo :: tlen :: rest₁)
    (hdrop : rest₁.drop tlen.toNat = dlen :: rest₂) (n : Nat) :
    buf.drop (index + 2 + 1 + tlen.toNat + 1 + n) = rest₂.drop n := by
  have htopic : buf.drop (index + 3 + tlen.toNat) = [dlen] ++ rest₂ :=
    (drop_add_of_drop [hi, lo, tlen] hbytes _).trans hdrop
  exact drop_add_of_drop [dlen] htopic n

theorem record_data {hi lo tlen dlen : UInt8} {rest₁ rest₂ : Bytes}
    (hbytes : buf.drop index = hi :: lo :: tlen :: rest₁) (hdrop : rest₁.drop tlen.toNat = dlen :: rest₂)
    (topic : Text) (length : Nat) :
    View.record buf ⟨topic, index + 2 + 1 + tlen.toNat + 1, length⟩ = ⟨topic, rest₂.take length⟩ := by
  have hdata := drop_data hbytes hdrop 0
  rw [Nat.add_zero, List.drop_zero] at hdata
  rw [View.record, hdata]

/-- The records `parse` returns are those at its slices. -/
theorem httpRecords_eq_views (hbytes : buf.drop index = bytes) :
    httpRecords fuel bytes = (httpViews fuel index bytes).map (List.map (View.record buf)) := by
  fun_induction httpViews fuel index bytes with
  | case1 fuel index hi lo rest totalLen hzero =>
    cases rest with
    | nil => rw [httpRecords.eq_1, if_pos hzero]; rfl
    | cons tlen rest₁ => rw [httpRecords.eq_2, if_pos hzero]; rfl
  | case2 fuel index hi lo totalLen hzero => rw [httpRecords.eq_1, if_neg hzero]; rfl
  | case3 fuel index hi lo totalLen startIndex hzero tlen rest₁ htopic ih =>
    rw [httpRecords.eq_2, if_neg hzero, if_pos htopic, ← ih (drop_add_of_drop [hi, lo] hbytes _)]
  | case4 fuel index hi lo totalLen hzero tlen rest₁ htopic hdrop =>
    rw [httpRecords.eq_2, if_neg hzero, if_neg htopic, hdrop]
    rfl
  | case5 fuel index hi lo totalLen startIndex hzero tlen rest₁ htopic dlen rest₂ hdrop hdata ih =>
    rw [httpRecords.eq_2, if_neg hzero, if_neg htopic, hdrop]
    simp only
    rw [if_pos hdata, ← ih (drop_add_of_drop [hi, lo] hbytes _)]
  | case6 fuel index hi lo totalLen startIndex hzero tlen rest₁ htopic dlen rest₂ hdrop hdata v hend =>
    have hrecord : View.record buf v = ⟨ofUtf8 (rest₁.take tlen.toNat), rest₂.take dlen.toNat⟩ :=
      record_data hbytes hdrop _ _
    rw [httpRecords.eq_2, if_neg hzero, if_neg htopic, hdrop]
    simp only
    rw [if_neg hdata, if_pos hend, Option.map_some, List.map_singleton, hrecord]
  | case7 fuel index hi lo totalLen startIndex hzero tlen rest₁ htopic dlen rest₂ hdrop hdata v hend ih =>
    have hrecord : View.record buf v = ⟨ofUtf8 (rest₁.take tlen.toNat), rest₂.take dlen.toNat⟩ :=
      record_data hbytes hdrop _ _
    rw [httpRecords.eq_2, if_neg hzero, if_neg htopic, hdrop]
    simp only
    rw [if_neg hdata, if_neg hend, ih (drop_data hbytes hdrop _), Option.map_map, Option.map_map, ← hrecord]
    rfl
  | case8 fuel index bytes hshort =>
    rw [httpRecords.eq_3 _ _ fun fuel hi lo rest h hb => hshort fuel hi lo rest h hb]
    rfl

end

/-! ## Bodies -/

/-- A record in a body, behind its length. -/
def frame (bytes : Bytes) : Bytes := UInt8.ofNat (bytes.length / 256) :: UInt8.ofNat bytes.length :: bytes

/-- How far the lengths in a record reach. -/
def reach : Bytes → Nat
  | [] => 0
  | tlen :: rest =>
    match rest.drop tlen.toNat with
    | [] => tlen.toNat + 2
    | dlen :: _ => tlen.toNat + dlen.toNat + 2

/-- The record these bytes are, if they are one. -/
def Record.decode : Bytes → Option Record
  | [] => none
  | tlen :: rest =>
    if reach (tlen :: rest) = (tlen :: rest).length then
      some ⟨rest.take tlen.toNat, rest.drop (tlen.toNat + 1)⟩
    else none

/-- The slice of a record whose length is at an index. -/
def Record.view (index : Nat) (r : Record) : View :=
  ⟨r.parsed.topic, index + 2 + 1 + r.topic.length + 1, r.data.length⟩

/-- The slices of the well-formed records of a body. -/
def wellFormedViews : Nat → List Bytes → List View
  | _, [] => []
  | index, x :: xs => ((Record.decode x).map (Record.view index)).toList ++ wellFormedViews
      (index + 2 + x.length) xs

section
variable {x rest : Bytes} {r : Record}

theorem Record.reach_encode (hr : r.Fits) : reach r.encode = r.encode.length := by
  obtain ⟨tlen, dlen, henc, htlen, hdlen⟩ := hr.split
  have hlen := r.length_encode
  rw [hlen, henc, reach, List.drop_left' htlen.symm]
  simp only
  omega

theorem Record.decode_encode (hr : r.Fits) : decode r.encode = some r := by
  have hreach := reach_encode hr
  obtain ⟨tlen, dlen, henc, htlen, hdlen⟩ := hr.split
  rw [henc] at hreach ⊢
  rw [decode, if_pos hreach, List.take_left' htlen.symm, ← List.drop_drop, List.drop_left' htlen.symm]
  rfl

theorem Record.decode_eq_none (h : reach x ≠ x.length) : decode x = none := by
  cases x with
  | nil => rfl
  | cons tlen rest => rw [decode, if_neg h]

theorem length_of_drop {n : Nat} {bytes data : Bytes} {dlen : UInt8} (hdrop : bytes.drop n = dlen :: data) :
    bytes.length = n + data.length + 1 ∧ (bytes.take n).length = n := by
  have hlen := congrArg List.length hdrop
  rw [List.length_drop, List.length_cons] at hlen
  rw [List.length_take]
  omega

theorem wellFormed_of_reach (hx : 0 < x.length) (h : reach x = x.length) : WellFormed x := by
  cases x with
  | nil => cases hx
  | cons tlen bytes =>
    rw [reach, List.length_cons] at h
    cases hdrop : bytes.drop tlen.toNat with
    | nil =>
      have hle := List.drop_eq_nil_iff.mp hdrop
      rw [hdrop] at h
      simp only at h
      omega
    | cons dlen data =>
      obtain ⟨hlen, htake⟩ := length_of_drop hdrop
      rw [hdrop] at h
      simp only at h
      have hdata : data.length = dlen.toNat := by omega
      have hfits : (Record.mk (bytes.take tlen.toNat) data).Fits :=
        ⟨Nat.lt_of_le_of_lt (Nat.le_of_eq htake) tlen.toNat_lt,
          Nat.lt_of_le_of_lt (Nat.le_of_eq hdata) dlen.toNat_lt⟩
      refine ⟨_, hfits, ?_⟩
      rw [Record.encode]
      simp only
      rw [htake, hdata, UInt8.ofNat_toNat, UInt8.ofNat_toNat, ← hdrop, List.cons_append,
        List.take_append_drop]

theorem Record.encode_of_decode (h : decode x = some r) : r.Fits ∧ x = r.encode := by
  by_cases hreach : reach x = x.length
  · have hpos : 0 < x.length := by
      cases x with
      | nil => cases h
      | cons => exact Nat.succ_pos _
    obtain ⟨r', hr', rfl⟩ := wellFormed_of_reach hpos hreach
    rw [decode_encode hr'] at h
    cases h
    exact ⟨hr', rfl⟩
  · rw [decode_eq_none hreach] at h
    cases h

/-! ### One turn -/

variable {fuel index : Nat}

theorem toNat_frame {n : Nat} (hlen : n < 65536) :
    (UInt8.ofNat (n / 256)).toNat * 256 + (UInt8.ofNat n).toNat = n := by
  rw [UInt8.toNat_ofNat', UInt8.toNat_ofNat']
  omega

theorem httpViews_frame {tlen : UInt8} {bytes : Bytes} (hlen : bytes.length + 1 < 65536) :
    httpViews (fuel + 1) index (frame (tlen :: bytes) ++ rest) =
      match bytes.drop tlen.toNat with
      | [] => httpViews fuel (index + 2 + (bytes.length + 1)) rest
      | dlen :: data =>
        if data.length < dlen.toNat then httpViews fuel (index + 2 + (bytes.length + 1)) rest
        else
          let v : View := ⟨ofUtf8 (bytes.take tlen.toNat), index + 2 + 1 + tlen.toNat + 1, dlen.toNat⟩
          if data.drop dlen.toNat ++ rest = [] then some [v]
          else (httpViews fuel (v.start + dlen.toNat) (data.drop dlen.toNat ++ rest)).map (v :: ·) := by
  have htotal := toNat_frame hlen
  have hskip : (tlen :: (bytes ++ rest)).drop (bytes.length + 1) = rest := by
    rw [List.drop_succ_cons, List.drop_left]
  rw [frame, List.length_cons, List.cons_append, List.cons_append, List.cons_append, httpViews.eq_2, htotal,
    if_neg (Nat.succ_ne_zero _), hskip]
  cases hdrop : bytes.drop tlen.toNat with
  | nil =>
    have hle := List.drop_eq_nil_iff.mp hdrop
    rw [if_pos (by omega)]
  | cons dlen data =>
    obtain ⟨hbytes, -⟩ := length_of_drop hdrop
    rw [if_neg (by omega), List.drop_append_of_le_length (by omega), hdrop, List.cons_append]
    simp only
    by_cases hdata : data.length < dlen.toNat
    · rw [if_pos (by omega), if_pos hdata]
    · rw [if_neg (by omega), if_neg hdata, List.drop_append_of_le_length (by omega),
        List.take_append_of_le_length (by omega)]

theorem httpViews_overlong (hlen : x.length < 65536) (hx : 0 < x.length) (hreach : x.length < reach x) :
    httpViews (fuel + 1) index (frame x ++ rest) = httpViews fuel (index + 2 + x.length) rest := by
  cases x with
  | nil => cases hx
  | cons tlen bytes =>
    rw [httpViews_frame hlen]
    rw [reach] at hreach
    cases hdrop : bytes.drop tlen.toNat with
    | nil => rfl
    | cons dlen data =>
      obtain ⟨hbytes, -⟩ := length_of_drop hdrop
      rw [hdrop, List.length_cons] at hreach
      simp only at hreach ⊢
      rw [if_pos (by omega)]
      rfl

theorem httpViews_encode (hr : r.Fits) (hlen : r.encode.length < 65536) :
    httpViews (fuel + 1) index (frame r.encode ++ rest) =
      if rest = [] then some [r.view index]
      else (httpViews fuel (index + 2 + r.encode.length) rest).map (r.view index :: ·) := by
  have hsize := r.length_encode
  obtain ⟨tlen, dlen, henc, htlen, hdlen⟩ := hr.split
  rw [henc] at hlen
  rw [hsize, henc, httpViews_frame hlen, List.drop_left' htlen.symm]
  simp only
  rw [if_neg (by omega), List.drop_eq_nil_of_le (by omega), List.nil_append, List.take_left' htlen.symm]
  have hindex : index + 2 + 1 + r.topic.length + 1 + r.data.length =
    index + 2 + (r.topic.length + r.data.length + 2) := by omega
  rw [htlen, hdlen, hindex]
  rfl

/-- A record that is longer than its lengths reach is taken, and what is behind them is not skipped. -/
theorem httpViews_spare (hlen : x.length < 65536) (hx : 0 < x.length) (hreach : reach x < x.length) :
    ∃ v : View, v.start < index + 2 + x.length ∧ ∀ vs,
    httpViews (fuel + 1) index (frame x ++ rest) = some vs →
      vs.head? = some v := by
  cases x with
  | nil => cases hx
  | cons tlen bytes =>
    rw [reach] at hreach
    cases hdrop : bytes.drop tlen.toNat with
    | nil =>
      have hle := List.drop_eq_nil_iff.mp hdrop
      rw [hdrop, List.length_cons] at hreach
      simp only at hreach
      omega
    | cons dlen data =>
      obtain ⟨hbytes, -⟩ := length_of_drop hdrop
      rw [hdrop, List.length_cons] at hreach
      simp only at hreach
      refine ⟨⟨ofUtf8 (bytes.take tlen.toNat), index + 2 + 1 + tlen.toNat + 1, dlen.toNat⟩, ?_, fun vs hvs => ?_⟩
      · rw [List.length_cons]
        simp only
        omega
      · rw [httpViews_frame hlen, hdrop] at hvs
        simp only at hvs
        rw [if_neg (by omega)] at hvs
        split at hvs
        · cases hvs
          rfl
        · obtain ⟨vs', -, rfl⟩ := Option.map_eq_some_iff.mp hvs
          rfl

end

/-! ### The result -/

/-- No record of the body has bytes to spare behind its data, and the last one is well-formed. -/
structure Tidy (xs : List Bytes) : Prop where
  spare : ∀ x ∈ xs, x.length ≤ reach x
  last : ∃ x ∈ xs.getLast?, WellFormed x

section
variable {x y : Bytes} {xs : List Bytes} {fuel index : Nat}

theorem tidy_cons : Tidy (x :: y :: xs) ↔ x.length ≤ reach x ∧ Tidy (y :: xs) := by
  constructor
  · rintro ⟨hspare, hlast⟩
    refine ⟨hspare x List.mem_cons_self, fun z hz => hspare z (List.mem_cons_of_mem _ hz), ?_⟩
    rwa [List.getLast?_cons_cons] at hlast
  · rintro ⟨hx, hspare, hlast⟩
    refine ⟨List.forall_mem_cons.mpr ⟨hx, hspare⟩, ?_⟩
    rwa [List.getLast?_cons_cons]

theorem start_of_mem_wellFormedViews {v : View} (hv : v ∈ wellFormedViews index xs) : index ≤ v.start := by
  induction xs generalizing index with
  | nil => cases hv
  | cons x xs ih =>
    rcases List.mem_append.mp hv with hv | hv
    · obtain ⟨r, -, rfl⟩ := Option.map_eq_some_iff.mp (Option.mem_toList.mp hv)
      simp only [Record.view]
      omega
    · have hle := ih hv
      omega

theorem length_le_frames (xs : List Bytes) : xs.length ≤ (xs.flatMap frame).length := by
  induction xs with
  | nil => exact Nat.le_refl _
  | cons x xs ih =>
    rw [List.flatMap_cons, List.length_append, List.length_cons, frame, List.length_cons]
    omega

theorem not_tidy_overlong (hreach : x.length < reach x) : ¬ Tidy [x] := by
  rintro ⟨-, z, hz, r, hr, rfl⟩
  obtain rfl : x = r.encode := Option.some.inj hz
  rw [Record.reach_encode hr] at hreach
  exact Nat.lt_irrefl _ hreach

theorem httpViews_frames_iff (hxs : ∀ x ∈ xs, 0 < x.length ∧ x.length < 65536) (hfuel : xs.length ≤ fuel) :
    httpViews fuel index (xs.flatMap frame) = some (wellFormedViews index xs) ↔ Tidy xs := by
  induction xs generalizing fuel index with
  | nil =>
    have hraises : httpViews fuel index [] = none := by cases fuel <;> rfl
    rw [List.flatMap_nil, hraises]
    constructor
    · rintro ⟨⟩
    · rintro ⟨-, x, hx, -⟩
      cases hx
  | cons x xs ih =>
    obtain ⟨⟨hpos, hlen⟩, hxs⟩ := List.forall_mem_cons.mp hxs
    obtain ⟨fuel, rfl⟩ := Nat.exists_eq_add_of_le' (Nat.le_trans (Nat.le_add_left 1 _) hfuel)
    have ih := @ih fuel (index + 2 + x.length) hxs (Nat.le_of_succ_le_succ hfuel)
    rw [List.flatMap_cons, wellFormedViews]
    rcases Nat.lt_trichotomy (reach x) x.length with hspare | hreach | hover
    · rw [Record.decode_eq_none (Nat.ne_of_lt hspare)]
      constructor
      · -- the first slice starts before those of the records behind this one
        intro hviews
        obtain ⟨v, hstart, hhead⟩ := @httpViews_spare x (xs.flatMap frame) fuel index hlen hpos hspare
        have hv := start_of_mem_wellFormedViews (List.mem_of_mem_head? (hhead _ hviews))
        omega
      · intro htidy
        have hle := htidy.spare x List.mem_cons_self
        omega
    · obtain ⟨r, hr, rfl⟩ := wellFormed_of_reach hpos hreach
      rw [Record.decode_encode hr, httpViews_encode hr hlen]
      cases xs with
      | nil =>
        refine iff_of_true rfl ⟨fun x hx => ?_, r.encode, rfl, r, hr, rfl⟩
        rw [List.mem_singleton.mp hx]
        exact Nat.le_of_eq hreach.symm
      | cons y xs =>
        rw [if_neg (by simp [frame]), tidy_cons, ← ih]
        simp [hreach]
    · rw [Record.decode_eq_none (Nat.ne_of_gt hover), httpViews_overlong hlen hpos hover]
      cases xs with
      | nil =>
        have hraises : httpViews fuel (index + 2 + x.length) [] = none := by cases fuel <;> rfl
        rw [List.flatMap_nil, hraises]
        exact iff_of_false (by rintro ⟨⟩) (not_tidy_overlong hover)
      | cons y xs =>
        rw [tidy_cons, ← ih]
        exact ⟨fun h => ⟨Nat.le_of_lt hover, h⟩, And.right⟩

theorem record_view {buf rest : Bytes} {r : Record} (hr : r.Fits)
    (hbuf : buf.drop index = frame r.encode ++ rest) : (r.view index).record buf = r.parsed := by
  obtain ⟨tlen, dlen, henc, htlen, hdlen⟩ := hr.split
  rw [henc, frame, List.cons_append, List.cons_append, List.cons_append, List.append_assoc,
    List.cons_append] at hbuf
  have hrecord := record_data hbuf (List.drop_left' htlen.symm) r.parsed.topic r.data.length
  rw [htlen, List.take_left' rfl] at hrecord
  exact hrecord

theorem map_record_wellFormedViews {buf : Bytes} (hbuf : buf.drop index = xs.flatMap frame) :
    (wellFormedViews index xs).map (View.record buf) = (xs.filterMap Record.decode).map Record.parsed := by
  induction xs generalizing index with
  | nil => rfl
  | cons x xs ih =>
    rw [List.flatMap_cons] at hbuf
    have hnext : buf.drop (index + 2 + x.length) = xs.flatMap frame := by
      have hdrop := drop_add_of_drop (frame x) hbuf 0
      rwa [List.drop_zero, Nat.add_zero, frame, List.length_cons, List.length_cons,
        show index + (x.length + 1 + 1) = index + 2 + x.length by omega] at hdrop
    rw [wellFormedViews, List.map_append, ih hnext, List.filterMap_cons]
    cases hx : Record.decode x with
    | none => rfl
    | some r =>
      obtain ⟨hr, rfl⟩ := Record.encode_of_decode hx
      simp [record_view hr hbuf]

end

/-- A body of a header and records that tile it is parsed into just its
well-formed records, each where it is, exactly if it is tidy. -/
theorem httpParse_skips_iff {head : Bytes} {xs : List Bytes} (hhead : head.length = 7)
    (hxs : ∀ x ∈ xs, 0 < x.length ∧ x.length < 65536) :
    (httpParseViews (head ++ xs.flatMap frame) = some (wellFormedViews 7 xs) ↔ Tidy xs) ∧
    (Tidy xs → httpParse (head ++ xs.flatMap frame) =
      some ((xs.filterMap Record.decode).map
        (Record.publication (deviceId head) (sequenceNumber head) .http))) := by
  have hdrop : (head ++ xs.flatMap frame).drop 7 = xs.flatMap frame := List.drop_left' hhead
  have hfuel : xs.length ≤ (head ++ xs.flatMap frame).length := by
    rw [List.length_append]
    exact Nat.le_trans (length_le_frames xs) (Nat.le_add_left _ _)
  have hiff : httpParseViews (head ++ xs.flatMap frame) = some (wellFormedViews 7 xs) ↔ Tidy xs := by
    rw [httpParseViews, hdrop]
    exact httpViews_frames_iff hxs hfuel
  refine ⟨hiff, fun htidy => ?_⟩
  have hviews := hiff.mpr htidy
  have hid : deviceId (head ++ xs.flatMap frame) = deviceId head := by
    rw [deviceId_eq_iff, List.take_append_of_le_length (by omega)]
  have hsn : sequenceNumber (head ++ xs.flatMap frame) = sequenceNumber head := by
    rw [sequenceNumber, sequenceNumber, List.getD_eq_getElem?_getD, List.getD_eq_getElem?_getD,
      List.getElem?_append_left (by omega)]
  rw [httpParseViews, hdrop] at hviews
  rw [httpParse, hdrop, httpRecords_eq_views hdrop, hviews, Option.map_some, Option.map_some,
    map_record_wellFormedViews hdrop, hid, hsn, List.map_map]
  rfl

/-- A record whose topic does not fit it, between two others. -/
theorem httpParse_skips_between :
    httpParse ([0xC0, 0x98, 0xE5, 0x12, 0, 1, 3] ++ [[1, 0x61, 0], [9, 0x61, 0], [0, 1, 7]].flatMap frame) =
      some ([⟨[0x61], []⟩, ⟨[], [7]⟩].map
        (Record.publication (deviceId [0xC0, 0x98, 0xE5, 0x12, 0, 1, 3]) 3 .http)) := by
  have hlast : WellFormed [0, 1, 7] := ⟨⟨[], [7]⟩, ⟨by decide, by decide⟩, by decide⟩
  have htidy : Tidy [[1, 0x61, 0], [9, 0x61, 0], [0, 1, 7]] := ⟨by decide, _, rfl, hlast⟩
  have hskips := @httpParse_skips_iff [0xC0, 0x98, 0xE5, 0x12, 0, 1, 3]
    [[1, 0x61, 0], [9, 0x61, 0], [0, 1, 7]] (by decide) (by decide)
  exact hskips.2 htidy

/-- When the last record is skipped, the loop reads on behind it, which raises an exception. -/
theorem lastOverlong_raises : Record.decode [1, 0x61, 0] = some ⟨[0x61], []⟩ ∧ ¬ WellFormed [9, 0x61, 0] ∧
    httpParse ([0xC0, 0x98, 0xE5, 0x12, 0, 1, 3] ++ [[1, 0x61, 0], [9, 0x61, 0]].flatMap frame) = none := by
  refine ⟨by decide, ?_, by decide⟩
  rintro ⟨r, hr, h⟩
  have hreach := Record.reach_encode hr
  rw [← h] at hreach
  exact absurd hreach (by decide)

end Signpost
