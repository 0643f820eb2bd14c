/-
The hexadecimal text in which `xdot.c` sends to the LoRa radio, and `xdot_receive`, which reads it.

The place where the text begins is searched for with `isdigit`, which letters do not pass. So a
packet is received exactly if its first byte is below 0xA0, and other responses are read inside
exactly if a decimal digit comes early enough.
-/
import Signpost.AtCommand
import Signpost.Lib.Loop

namespace Signpost

open Lib Controller

def xdotError : Int := -1

/-- A digit of `%02X`. -/
def upperDigit (n : Nat) : UInt8 := if n < 10 then UInt8.ofNat (0x30 + n) else UInt8.ofNat (0x37 + n)

def upperHex (b : UInt8) : Bytes := [upperDigit (b.toNat / 16), upperDigit (b.toNat % 16)]

def hexString (payload : Bytes) : Bytes := payload.flatMap upperHex

/-- The loop of `buf_to_hex_string`, from the byte `i` on. -/
def bufToHexString (destLen : Nat) (destBuf : Mem UInt8) (i : Nat) : Bytes → Mem UInt8
  | [] => destBuf
  | b :: sourceBuf =>
    if i * 2 < destLen then bufToHexString destLen (destBuf.copy (2 * i) (upperHex b ++ [0])) (i + 1) sourceBuf
    else destBuf

/-- `strtol` of `0x` and two characters, as a byte. -/
def strtolHex (high low : UInt8) : UInt8 :=
  match hex2int high, hex2int low with
  | some h, some l => UInt8.ofNat (16 * h + l)
  | some h, none => UInt8.ofNat h
  | none, _ => 0

/-- What `xdot_receive` returns, what it leaves in `buf`, and where it has read the response. -/
structure XdotReceived where
  ret : Int
  buf : Mem UInt8
  offsets : List Nat

/-- The loop that finds the start of the message is done here. -/
def findStart (bufStr : Mem UInt8) (start : UInt8) : Option UInt8 :=
  if bufStr start.toNat < 0x30 ∨ 0x39 < bufStr start.toNat then none else some start

/-- `xdot_receive`, from where it has found the start. -/
def xdotDecode (bufStr buf : Mem UInt8) (len : UInt8) (ret : Int) (start : UInt8) : XdotReceived :=
  let ret := ret - start.toNat
  let ret := ret - 8
  let n := min (ret.tdiv 2).toNat len.toNat
  { ret := ret.tdiv 2
    buf := buf.copy 0 ((List.range n).map fun i =>
      strtolHex (bufStr (start.toNat + i * 2)) (bufStr (start.toNat + 1 + i * 2)))
    offsets := List.range (start.toNat + 1) ++
      (List.range n).flatMap fun i => [start.toNat + i * 2, start.toNat + 1 + i * 2] }

/-- `xdot_receive` returns so, with the memory that `malloc` gives it, what `at_send` returns and
what the radio answers. -/
def XdotReceives (malloc : Option (Mem UInt8)) (send : Int) (reads : List Bytes) (buf : Mem UInt8) (len : UInt8)
    (r : XdotReceived) : Prop :=
  match malloc with
  | none => r = ⟨xdotError, buf, []⟩
  | some bufStr =>
    if send < 0 then r = ⟨xdotError, buf, []⟩
    else
      let (ret, bufStr) := atGetResponse 3 bufStr (len.toNat * 2) reads
      if ret < 0 then r = ⟨xdotError, buf, []⟩
      else if ret < 7 then r = ⟨xdotError, buf, []⟩
      else if ret ≥ 7 ∧ ret ≤ 9 then r = ⟨0, buf, []⟩
      else ∃ n start, Loop.Ends (Loop.scan (findStart bufStr)) 0 n start ∧ r = xdotDecode bufStr buf len ret start

/-- The radio has answered with this response, and it has come in. -/
def XdotAnswers (malloc : Option (Mem UInt8)) (send : Int) (reads : List Bytes) (len : UInt8) (response : Bytes) :
    Prop :=
  ∃ bufStr, malloc = some bufStr ∧ 0 ≤ send ∧
    atGetResponse 3 bufStr (len.toNat * 2) reads = ((response.length : Int), bufStr.copy 0 response)

/-- A line break, the payload, two line breaks and `OK`. -/
def recvResponse (payload : Bytes) : Bytes := ofChars "\r\n" ++ hexString payload ++ ofChars "\r\n\r\n" ++ okLine

/-- It has this character for a decimal digit. -/
def isDecimal (c : UInt8) : Bool := 0x30 ≤ c && c ≤ 0x39

section
variable {m bufStr buf : Mem UInt8} {b : UInt8} {payload : Bytes} {off i destLen : Nat}

/-! ## Hexadecimal text -/

theorem length_hexString (payload : Bytes) : (hexString payload).length = 2 * payload.length := by
  simp [hexString, upperHex, List.length_flatMap, Nat.mul_comm]

theorem hex2int_upperDigit : ∀ n < 16, hex2int (upperDigit n) = some n := by decide

theorem strtolHex_upperHex (b : UInt8) : strtolHex (upperDigit (b.toNat / 16)) (upperDigit (b.toNat % 16)) = b := by
  have hb := b.toNat_lt
  rw [strtolHex, hex2int_upperDigit _ (by omega), hex2int_upperDigit _ (by omega)]
  simp only [Nat.div_add_mod, UInt8.ofNat_toNat]

theorem strtolHex_hexString (h : m.read off (hexString payload).length = hexString payload) :
    ((List.range payload.length).map fun i => strtolHex (m (off + i * 2)) (m (off + 1 + i * 2))) = payload := by
  induction payload generalizing off with
  | nil => rfl
  | cons b payload ih =>
    have hcons : hexString (b :: payload) = upperHex b ++ hexString payload := rfl
    rw [hcons, List.length_append, Mem.read_add] at h
    obtain ⟨hfirst, hrest⟩ := List.append_inj h (Mem.length_read ..)
    have hdecoded := ih hrest
    obtain ⟨hhigh, hlow⟩ : m (off + 0) = upperDigit (b.toNat / 16) ∧ m (off + 1) = upperDigit (b.toNat % 16) := by
      simpa [Mem.read, upperHex, List.range_succ] using hfirst
    have hlater : ∀ i, strtolHex (m (off + (i + 1) * 2)) (m (off + 1 + (i + 1) * 2)) =
        strtolHex (m (off + 2 + i * 2)) (m (off + 2 + 1 + i * 2)) := fun i => by
      congr 2 <;> omega
    rw [List.length_cons, List.range_succ_eq_map, List.map_cons, List.map_map]
    simp only [Function.comp_def, Nat.succ_eq_add_one, hlater, Nat.zero_mul, Nat.add_zero]
    rw [hlow, ← Nat.add_zero off, hhigh, strtolHex_upperHex]
    exact congrArg (b :: ·) hdecoded

/-! ## The start -/

variable {len start : UInt8} {n : Nat} {response : Bytes} {reads : List Bytes} {malloc : Option (Mem UInt8)}
  {send : Int} {r : XdotReceived}

theorem isDecimal_iff {c : UInt8} : isDecimal c ↔ ¬ (c < 0x30 ∨ 0x39 < c) := by
  simp only [isDecimal, Bool.and_eq_true, decide_eq_true_eq, not_or, UInt8.not_lt]

theorem findStart_eq_some : findStart m start = some b ↔ b = start ∧ isDecimal (m start.toNat) := by
  rw [isDecimal_iff, findStart]
  split
  · next h => simp [h]
  · next h => simp [h, eq_comm]

theorem ends_findStart : Loop.Ends (Loop.scan (findStart m)) 0 n start ↔
    n < 256 ∧ start = UInt8.ofNat n ∧ isDecimal (m n) ∧ ∀ j < n, ¬ isDecimal (m j) := by
  rw [Loop.ends_scan_iff]
  refine and_congr_right fun hn => ?_
  have hnone : ∀ j < n, findStart m (UInt8.ofNat j) = none ↔ ¬ isDecimal (m j) := fun j hj => by
    rw [← UInt8.toNat_ofNat_of_lt' (Nat.lt_trans hj hn)]
    simp [Option.eq_none_iff_forall_ne_some, findStart_eq_some]
  rw [findStart_eq_some, UInt8.toNat_ofNat_of_lt' hn, and_assoc]
  exact and_congr_right fun _ => and_congr_right fun _ => forall₂_congr hnone

theorem xdotReceives_answer (buf : Mem UInt8) (hanswers : XdotAnswers malloc send reads len response)
    (hlength : 10 ≤ response.length) :
    ∃ bufStr, malloc = some bufStr ∧ ∀ r, XdotReceives malloc send reads buf len r ↔
      ∃ n start, Loop.Ends (Loop.scan (findStart (bufStr.copy 0 response))) 0 n start ∧
        r = xdotDecode (bufStr.copy 0 response) buf len response.length start := by
  obtain ⟨bufStr, hmalloc, hsend, hget⟩ := hanswers
  refine ⟨bufStr, hmalloc, fun r => ?_⟩
  simp only [XdotReceives, hmalloc, hget]
  rw [if_neg (by omega), if_neg (by omega), if_neg (by omega), if_neg (by omega)]

theorem tdiv_two_mul_le {x : Int} (h : 0 < x.tdiv 2) : x.tdiv 2 * 2 ≤ x := by
  have hle := Int.tdiv_mul_le x (show (2 : Int) ≠ 0 by decide)
  split at hle
  · omega
  · rw [show ((Int.natAbs 2 - 1 : Nat) : Int) = 1 from rfl] at hle
    omega

theorem mem_offsets_lt {o : Nat} (hstart : start.toNat < response.length)
    (ho : o ∈ (xdotDecode bufStr buf len response.length start).offsets) : o < response.length := by
  rcases List.mem_append.mp ho with hscan | hdecode
  · have := List.mem_range.mp hscan
    omega
  · obtain ⟨i, hi, hpair⟩ := List.mem_flatMap.mp hdecode
    have hlt : i < ((response.length : Int) - start.toNat - 8).tdiv 2 :=
      Int.lt_toNat.mp (Nat.lt_of_lt_of_le (List.mem_range.mp hi) (Nat.min_le_left ..))
    have htwice := tdiv_two_mul_le (Int.lt_of_le_of_lt (Int.natCast_nonneg i) hlt)
    simp only [List.mem_cons, List.not_mem_nil, or_false] at hpair
    omega

theorem xdotReceives_short (h : ∀ response, XdotAnswers malloc send reads len response → response.length < 10) :
    ∃ r, XdotReceives malloc send reads buf len r ∧ r.offsets = [] := by
  cases malloc with
  | none => exact ⟨_, rfl, rfl⟩
  | some bufStr =>
    by_cases hsend : send < 0
    · exact ⟨⟨xdotError, buf, []⟩, by rw [XdotReceives, if_pos hsend], rfl⟩
    obtain ⟨response, -, rc, hget, hrc⟩ := atGetResponse_spec 3 bufStr (len.toNat * 2) reads
    simp only [XdotReceives, if_neg hsend, hget]
    split
    · exact ⟨_, rfl, rfl⟩
    · next hpos =>
      obtain ⟨-, rfl⟩ := hrc.resolve_left hpos
      have hlt := h response ⟨bufStr, rfl, Int.not_lt.mp hsend, hget⟩
      split
      · exact ⟨_, rfl, rfl⟩
      · simp only [if_pos (show (response.length : Int) ≥ 7 ∧ (response.length : Int) ≤ 9 by omega)]
        exact ⟨_, rfl, rfl⟩

theorem xdotAnswers_length {response' : Bytes} (h : XdotAnswers malloc send reads len response)
    (h' : XdotAnswers malloc send reads len response') : response'.length = response.length := by
  obtain ⟨bufStr, hmalloc, -, hget⟩ := h
  obtain ⟨bufStr', hmalloc', -, hget'⟩ := h'
  obtain rfl := Option.some.inj (hmalloc.symm.trans hmalloc')
  exact Int.ofNat.inj (congrArg Prod.fst (hget'.symm.trans hget))

theorem isDecimal_response (hn : n < response.length) : isDecimal (m.copy 0 response n) = isDecimal response[n] := by
  rw [Mem.copy_zero_at hn]

/-- Every response is read to an end, and only inside, exactly when one that is read at all has a decimal
digit early enough. -/
theorem xdotReceive_inside : (∃ r, XdotReceives malloc send reads buf len r ∧
      ∀ o ∈ r.offsets, ∃ response, XdotAnswers malloc send reads len response ∧ o < response.length) ↔
    ∀ response, XdotAnswers malloc send reads len response →
      response.length < 10 ∨ ∃ c ∈ response.take 256, isDecimal c := by
  constructor
  · rintro ⟨r, hreceives, hinside⟩ response hanswers
    refine or_iff_not_imp_left.mpr fun hlong => ?_
    obtain ⟨bufStr, -, hiff⟩ := xdotReceives_answer buf hanswers (Nat.not_lt.mp hlong)
    obtain ⟨n, start, hends, rfl⟩ := (hiff r).mp hreceives
    obtain ⟨hn, rfl, hdecimal, -⟩ := ends_findStart.mp hends
    obtain ⟨response', hanswers', hlt⟩ := hinside n (List.mem_append_left _ (List.mem_range.mpr (by
      rw [UInt8.toNat_ofNat_of_lt' hn]
      exact Nat.lt_succ_self n)))
    rw [xdotAnswers_length hanswers hanswers'] at hlt
    rw [isDecimal_response hlt] at hdecimal
    exact ⟨_, List.mem_take_iff_getElem.mpr ⟨n, by omega, rfl⟩, hdecimal⟩
  · intro h
    by_cases hshort : ∀ response, XdotAnswers malloc send reads len response → response.length < 10
    · obtain ⟨r, hreceives, hnone⟩ := xdotReceives_short  hshort
      exact ⟨r, hreceives, by simp [hnone]⟩
    · simp only [not_forall, Nat.not_lt] at hshort
      obtain ⟨response, hanswers, hlong⟩ := hshort
      obtain ⟨c, hc, hdecimal⟩ := (h response hanswers).resolve_left (Nat.not_lt.mpr hlong)
      obtain ⟨k, hk, rfl⟩ := List.mem_take_iff_getElem.mp hc
      obtain ⟨bufStr, -, hiff⟩ := xdotReceives_answer buf hanswers hlong
      have hfound : findStart (bufStr.copy 0 response) (UInt8.ofNat k) ≠ none := by
        rw [Option.ne_none_iff_exists']
        refine ⟨_, findStart_eq_some.mpr ⟨rfl, ?_⟩⟩
        rwa [UInt8.toNat_ofNat_of_lt' (show k < 256 by omega), isDecimal_response (by omega)]
      obtain ⟨n, start, hn, hends⟩ := Loop.exists_ends_scan hfound
      have hstart : start.toNat < response.length := by
        obtain ⟨hlt, rfl, -⟩ := ends_findStart.mp hends
        rw [UInt8.toNat_ofNat_of_lt' (show k < 256 by omega)] at hn
        rw [UInt8.toNat_ofNat_of_lt' hlt]
        omega
      exact ⟨_, (hiff _).mpr ⟨n, start, hends, rfl⟩, fun o ho => ⟨response, hanswers, mem_offsets_lt hstart ho⟩⟩

/-! ## Payloads -/

theorem length_recvResponse (payload : Bytes) : (recvResponse payload).length = 2 * payload.length + 10 := by
  have hbreaks : (ofChars "\r\n").length = 2 ∧ (ofChars "\r\n\r\n").length = 4 ∧ okLine.length = 4 := by decide
  simp only [recvResponse, List.length_append, length_hexString, hbreaks]
  omega

theorem upperDigit_not_final : ∀ n < 16, chr 'O' ≠ upperDigit n ∧ chr 'R' ≠ upperDigit n := by decide

theorem notMem_hexString {c : UInt8} (hc : ∀ n < 16, c ≠ upperDigit n) (payload : Bytes) : c ∉ hexString payload := by
  intro hmem
  obtain ⟨b, -, hb⟩ := List.mem_flatMap.mp hmem
  have hlt := b.toNat_lt
  simp only [upperHex, List.mem_cons, List.not_mem_nil, or_false] at hb
  rcases hb with hb | hb
  · exact hc _ (by omega) hb
  · exact hc _ (by omega) hb

theorem xdotAnswers_recvResponse (bufStr : Mem UInt8) (hlen : payload.length ≤ len.toNat - 5)
    (hpayload : 1 ≤ payload.length) (hsend : 0 ≤ send) (hsplit : reads.flatten = recvResponse payload)
    (hreads : reads.length ≤ 3) : XdotAnswers (some bufStr) send reads len (recvResponse payload) := by
  have hfront : ∀ c, (∀ n < 16, c ≠ upperDigit n) → c ∉ ofChars "\r\n" → c ∉ ofChars "\r\n\r\n" →
      c ∉ ofChars "\r\n" ++ hexString payload ++ ofChars "\r\n\r\n" := by
    intro c hc hbreak hbreaks
    simp only [List.mem_append, not_or]
    exact ⟨⟨hbreak, notMem_hexString hc payload⟩, hbreaks⟩
  refine ⟨bufStr, rfl, hsend, atGetResponse_whole (List.suffix_append ..) (fun k hk => not_final_take ?_ ?_ hk) hsplit
    ?_ hreads⟩
  · exact hfront _ (fun n hn => (upperDigit_not_final n hn).1) (by decide) (by decide)
  · exact hfront _ (fun n hn => (upperDigit_not_final n hn).2) (by decide) (by decide)
  · rw [length_recvResponse]
    omega

theorem isDecimal_upperDigit : ∀ n < 16, isDecimal (upperDigit n) ↔ n < 10 := by decide

theorem read_recvResponse (m : Mem UInt8) (payload : Bytes) :
    (m.copy 0 (recvResponse payload)).read 2 (hexString payload).length = hexString payload := by
  have hread := Mem.read_copy m 0 (recvResponse payload)
  rw [recvResponse, List.append_assoc, List.append_assoc] at hread ⊢
  exact Mem.read_part hread

theorem xdotReceive_hex (hpayload : 1 ≤ payload.length) (hlen : payload.length ≤ len.toNat - 5) (hsend : 0 ≤ send)
    (hsplit : reads.flatten = recvResponse payload) (hreads : reads.length ≤ 3) :
    (∃ r, XdotReceives (some bufStr) send reads buf len r ∧ r.ret = payload.length ∧
      r.buf.read 0 payload.length = payload) ↔ payload.headD 0 < 0xA0 := by
  obtain ⟨b, payload, rfl⟩ := List.exists_cons_of_length_pos hpayload
  have hlength := length_recvResponse (b :: payload)
  have hanswers := xdotAnswers_recvResponse bufStr hlen hpayload hsend hsplit hreads
  obtain ⟨_, hmalloc, hiff⟩ := xdotReceives_answer buf hanswers (by omega)
  obtain rfl := Option.some.inj hmalloc
  have hfirst : isDecimal (bufStr.copy 0 (recvResponse (b :: payload)) 2) ↔ b < 0xA0 := by
    have hb := b.toNat_lt
    rw [UInt8.lt_iff_toNat_lt]
    refine (isDecimal_upperDigit (b.toNat / 16) (by omega)).trans ?_
    rw [Nat.div_lt_iff_lt_mul (by decide)]
    rfl
  constructor
  · rintro ⟨r, hreceives, hret, -⟩
    obtain ⟨n, start, hends, rfl⟩ := (hiff r).mp hreceives
    obtain ⟨hn, rfl, hdecimal, -⟩ := ends_findStart.mp hends
    have htwice := tdiv_two_mul_le (hret ▸ Int.natCast_pos.mpr hpayload)
    simp only [xdotDecode] at hret
    -- A later start leaves too few characters.
    rw [hret, hlength, UInt8.toNat_ofNat_of_lt' hn] at htwice
    obtain rfl | rfl | rfl : n = 0 ∨ n = 1 ∨ n = 2 := by omega
    · exact absurd hdecimal Bool.false_ne_true
    · exact absurd hdecimal Bool.false_ne_true
    · exact hfirst.mp hdecimal
  · intro hb
    have hends : Loop.Ends (Loop.scan (findStart (bufStr.copy 0 (recvResponse (b :: payload))))) 0 2 2 := by
      refine ends_findStart.mpr ⟨by decide, rfl, hfirst.mpr hb, fun j hj => ?_⟩
      obtain rfl | rfl : j = 0 ∨ j = 1 := by omega
      · exact Bool.false_ne_true
      · exact Bool.false_ne_true
    have hret : ((recvResponse (b :: payload)).length : Int) - (2 : UInt8).toNat - 8 = 2 * (b :: payload).length := by
      rw [hlength, show (2 : UInt8).toNat = 2 from rfl]
      omega
    have htdiv : (2 * ((b :: payload).length : Int)).tdiv 2 = (b :: payload).length :=
      Int.mul_tdiv_cancel_left _ (by decide)
    have hdecoded := strtolHex_hexString (read_recvResponse bufStr (b :: payload))
    refine ⟨_, (hiff _).mpr ⟨2, 2, hends, rfl⟩, ?_, ?_⟩
    · simp only [xdotDecode]
      rw [hret, htdiv]
    · simp only [xdotDecode]
      rw [hret, htdiv, Int.toNat_natCast, Nat.min_eq_left (by omega)]
      exact (congrArg (fun l => (buf.copy 0 l).read 0 (b :: payload).length) hdecoded).trans (Mem.read_copy ..)

end

/-- A payload is received exactly when its first digit is a decimal one; and a response is read to an end, and
only inside, exactly when it is too short to be decoded or has a decimal digit early enough. -/
theorem xdotReceive_iff (send : Int) (reads : List Bytes) (buf : Mem UInt8) (len : UInt8) :
    (∀ (payload : Bytes) (bufStr : Mem UInt8), 1 ≤ payload.length → payload.length ≤ len.toNat - 5 → 0 ≤ send →
      reads.flatten = recvResponse payload → reads.length ≤ 3 →
      ((∃ r, XdotReceives (some bufStr) send reads buf len r ∧ r.ret = payload.length ∧
        r.buf.read 0 payload.length = payload) ↔ payload.headD 0 < 0xA0)) ∧
    ∀ malloc : Option (Mem UInt8),
      (∃ r, XdotReceives malloc send reads buf len r ∧
        ∀ o ∈ r.offsets, ∃ response, XdotAnswers malloc send reads len response ∧ o < response.length) ↔
      ∀ response, XdotAnswers malloc send reads len response →
        response.length < 10 ∨ ∃ c ∈ response.take 256, isDecimal c :=
  ⟨fun _ _ hpayload hlen hsend hsplit hreads => xdotReceive_hex hpayload hlen hsend hsplit hreads,
    fun _ => xdotReceive_inside⟩

theorem xdotReceive_iff_two : ∃ r, XdotReceives (some fun _ => 0) 0 [recvResponse [0x12, 0xAB]] (fun _ => 0) 16 r ∧
    r.ret = 2 ∧ r.buf.read 0 2 = [0x12, 0xAB] :=
  ((xdotReceive_iff 0 [recvResponse [0x12, 0xAB]] (fun _ => 0) 16).1 [0x12, 0xAB] (fun _ => 0) (by decide) (by decide)
    (by decide) (List.append_nil _) (by decide)).mpr (by decide)

/-- A payload of one byte, both digits of which are letters. -/
theorem letters_not_received :
    (¬ ∃ r, XdotReceives (some fun _ => 0) 0 [recvResponse [0xAB]] (fun _ => 0) 16 r ∧
      r.ret = 1 ∧ r.buf.read 0 1 = [0xAB]) ∧
    ¬ ∃ r, XdotReceives (some fun _ => 0) 0 [recvResponse [0xAB]] (fun _ => 0) 16 r ∧ ∀ o ∈ r.offsets,
      ∃ response, XdotAnswers (some fun _ => 0) 0 [recvResponse [0xAB]] 16 response ∧ o < response.length := by
  have hsplit : [recvResponse [0xAB]].flatten = recvResponse [0xAB] := List.append_nil _
  have hanswers : XdotAnswers (some fun _ => 0) 0 [recvResponse [0xAB]] 16 (recvResponse [0xAB]) :=
    xdotAnswers_recvResponse _ (by decide) (by decide) (by decide) hsplit (by decide)
  refine ⟨fun h => ?_, fun h => ?_⟩
  · have hdecimal := (xdotReceive_hex (by decide) (by decide) (by decide) hsplit (by decide)).mp h
    exact absurd hdecimal (by decide)
  · exact absurd (xdotReceive_inside.mp h _ hanswers) (by decide)

end Signpost
