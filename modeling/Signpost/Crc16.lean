/-
`CRC16_Calc` with its table, and `CRC16_Check`.

Each entry of the table is eight rounds of the loop over bits, so the two ways of computing the
CRC agree, and what is true of checks in general is true of the messages of the processing API.

A burst of up to sixteen bits changes the register and cannot be undone by what follows, so a
damaged block is never taken for a good one. The general facts are those of `Lib.Crc`.
-/
import Signpost.Processing
import Signpost.Lib.Crc

namespace Signpost

open Lib

/-- `CRC16_Table` -/
def crc16Table : List UInt16 :=
  [
    0x0000, 0x1189, 0x2312, 0x329B, 0x4624, 0x57AD, 0x6536, 0x74BF,
    0x8C48, 0x9DC1, 0xAF5A, 0xBED3, 0xCA6C, 0xDBE5, 0xE97E, 0xF8F7,
    0x1081, 0x0108, 0x3393, 0x221A, 0x56A5, 0x472C, 0x75B7, 0x643E,
    0x9CC9, 0x8D40, 0xBFDB, 0xAE52, 0xDAED, 0xCB64, 0xF9FF, 0xE876,
    0x2102, 0x308B, 0x0210, 0x1399, 0x6726, 0x76AF, 0x4434, 0x55BD,
    0xAD4A, 0xBCC3, 0x8E58, 0x9FD1, 0xEB6E, 0xFAE7, 0xC87C, 0xD9F5,
    0x3183, 0x200A, 0x1291, 0x0318, 0x77A7, 0x662E, 0x54B5, 0x453C,
    0xBDCB, 0xAC42, 0x9ED9, 0x8F50, 0xFBEF, 0xEA66, 0xD8FD, 0xC974,
    0x4204, 0x538D, 0x6116, 0x709F, 0x0420, 0x15A9, 0x2732, 0x36BB,
    0xCE4C, 0xDFC5, 0xED5E, 0xFCD7, 0x8868, 0x99E1, 0xAB7A, 0xBAF3,
    0x5285, 0x430C, 0x7197, 0x601E, 0x14A1, 0x0528, 0x37B3, 0x263A,
    0xDECD, 0xCF44, 0xFDDF, 0xEC56, 0x98E9, 0x8960, 0xBBFB, 0xAA72,
    0x6306, 0x728F, 0x4014, 0x519D, 0x2522, 0x34AB, 0x0630, 0x17B9,
    0xEF4E, 0xFEC7, 0xCC5C, 0xDDD5, 0xA96A, 0xB8E3, 0x8A78, 0x9BF1,
    0x7387, 0x620E, 0x5095, 0x411C, 0x35A3, 0x242A, 0x16B1, 0x0738,
    0xFFCF, 0xEE46, 0xDCDD, 0xCD54, 0xB9EB, 0xA862, 0x9AF9, 0x8B70,
    0x8408, 0x9581, 0xA71A, 0xB693, 0xC22C, 0xD3A5, 0xE13E, 0xF0B7,
    0x0840, 0x19C9, 0x2B52, 0x3ADB, 0x4E64, 0x5FED, 0x6D76, 0x7CFF,
    0x9489, 0x8500, 0xB79B, 0xA612, 0xD2AD, 0xC324, 0xF1BF, 0xE036,
    0x18C1, 0x0948, 0x3BD3, 0x2A5A, 0x5EE5, 0x4F6C, 0x7DF7, 0x6C7E,
    0xA50A, 0xB483, 0x8618, 0x9791, 0xE32E, 0xF2A7, 0xC03C, 0xD1B5,
    0x2942, 0x38CB, 0x0A50, 0x1BD9, 0x6F66, 0x7EEF, 0x4C74, 0x5DFD,
    0xB58B, 0xA402, 0x9699, 0x8710, 0xF3AF, 0xE226, 0xD0BD, 0xC134,
    0x39C3, 0x284A, 0x1AD1, 0x0B58, 0x7FE7, 0x6E6E, 0x5CF5, 0x4D7C,
    0xC60C, 0xD785, 0xE51E, 0xF497, 0x8028, 0x91A1, 0xA33A, 0xB2B3,
    0x4A44, 0x5BCD, 0x6956, 0x78DF, 0x0C60, 0x1DE9, 0x2F72, 0x3EFB,
    0xD68D, 0xC704, 0xF59F, 0xE416, 0x90A9, 0x8120, 0xB3BB, 0xA232,
    0x5AC5, 0x4B4C, 0x79D7, 0x685E, 0x1CE1, 0x0D68, 0x3FF3, 0x2E7A,
    0xE70E, 0xF687, 0xC41C, 0xD595, 0xA12A, 0xB0A3, 0x8238, 0x93B1,
    0x6B46, 0x7ACF, 0x4854, 0x59DD, 0x2D62, 0x3CEB, 0x0E70, 0x1FF9,
    0xF78F, 0xE606, 0xD49D, 0xC514, 0xB1AB, 0xA022, 0x92B9, 0x8330,
    0x7BC7, 0x6A4E, 0x58D5, 0x495C, 0x3DE3, 0x2C6A, 0x1EF1, 0x0F78]

/-- `CRC16_Calc`, with `__CRC16_TABLE__`. -/
def crc16CalcTable : Crc16 := fun data initVal => data.foldl (fun crc byte =>
  (crc >>> 8) ^^^ crc16Table.getD ((crc ^^^ byte.toUInt16) &&& 0x00FF).toNat 0) initVal

/-- `CRC16_GOOD_VALUE` -/
def crc16GoodValue : UInt16 := 0x0F47

/-- `CRC16_Check` -/
def crc16Check (data : Bytes) (initVal : UInt16) : Bool := ~~~(crc16CalcTable data initVal) == crc16GoodValue

def byteBits (b : UInt8) : List Bool := (List.range 8).map b.toBitVec.getLsbD

def blockBits (data : Bytes) : List Bool := data.flatMap byteBits

theorem length_byteBits (b : UInt8) : (byteBits b).length = 8 := by simp [byteBits]

theorem length_blockBits (data : Bytes) : (blockBits data).length = 8 * data.length := by
  simp [blockBits, length_byteBits, Nat.mul_comm]

theorem crc16Polynom_top : crc16Polynom.toBitVec.getLsbD (16 - 1) = true := by decide

/-! ## Rounds -/

theorem and_one_ne_iff (byte : UInt8) (crc : UInt16) :
    (byte &&& 1).toUInt16 ^^^ (crc &&& 1) ≠ 0 ↔
      (byte.toBitVec.getLsbD 0 ^^ crc.toBitVec.getLsbD 0) = true := by
  have hbyte : byte &&& 1 = if byte.toBitVec.getLsbD 0 then 1 else 0 := by
    refine UInt8.toBitVec_inj.mp ?_
    rw [UInt8.toBitVec_and]
    refine BitVec.and_one_eq_setWidth_ofBool_getLsbD.trans ?_
    cases byte.toBitVec.getLsbD 0 <;> rfl
  have hcrc : crc &&& 1 = if crc.toBitVec.getLsbD 0 then 1 else 0 := by
    refine UInt16.toBitVec_inj.mp ?_
    rw [UInt16.toBitVec_and]
    refine BitVec.and_one_eq_setWidth_ofBool_getLsbD.trans ?_
    cases crc.toBitVec.getLsbD 0 <;> rfl
  rw [hbyte, hcrc]
  cases byte.toBitVec.getLsbD 0 <;> cases crc.toBitVec.getLsbD 0 <;> decide

theorem toBitVec_crc16Bit (byte : UInt8) (crc : UInt16) :
    (crc16Bit (byte, crc)).2.toBitVec =
      Crc.feedBit crc16Polynom.toBitVec crc.toBitVec (byte.toBitVec.getLsbD 0) := by
  have hiff := and_one_ne_iff byte crc
  unfold crc16Bit Crc.feedBit
  simp only
  split
  · next h =>
    rw [if_pos (hiff.mp h)]
    rfl
  · next h =>
    rw [if_neg fun hbit => h (hiff.mpr hbit)]
    rfl

theorem crc16Bit_iterate (n : Nat) (hn : n ≤ 8) (byte : UInt8) (crc : UInt16) :
    (crc16Bit^[n] (byte, crc)).1.toBitVec = byte.toBitVec >>> n ∧
      (crc16Bit^[n] (byte, crc)).2.toBitVec =
        Crc.feed crc16Polynom.toBitVec crc.toBitVec ((List.range n).map byte.toBitVec.getLsbD) := by
  induction n with
  | zero => exact ⟨(BitVec.ushiftRight_zero _).symm, rfl⟩
  | succ n ih =>
    obtain ⟨hbyte, hcrc⟩ := ih (Nat.le_of_succ_le hn)
    rw [Function.iterate_succ_apply']
    generalize crc16Bit^[n] (byte, crc) = s at hbyte hcrc
    obtain ⟨rest, c⟩ := s
    constructor
    · show (rest >>> 1).toBitVec = _
      rw [BitVec.shiftRight_add, ← hbyte]
      rfl
    · rw [toBitVec_crc16Bit, hcrc, hbyte, List.range_succ, List.map_append, Crc.feed_append,
        BitVec.getLsbD_ushiftRight]
      rfl

theorem toBitVec_crc16Byte (byte : UInt8) (crc : UInt16) :
    (crc16Bit^[8] (byte, crc)).2.toBitVec = Crc.feed crc16Polynom.toBitVec crc.toBitVec (byteBits byte) :=
  (crc16Bit_iterate 8 (Nat.le_refl 8) byte crc).2

theorem toBitVec_crc16Calc (data : Bytes) (initVal : UInt16) :
    (crc16Calc data initVal).toBitVec = Crc.feed crc16Polynom.toBitVec initVal.toBitVec (blockBits data) := by
  induction data generalizing initVal with
  | nil => rfl
  | cons byte data ih =>
    have hcons : crc16Calc (byte :: data) initVal = crc16Calc data (crc16Bit^[8] (byte, initVal)).2 := rfl
    rw [hcons, ih, toBitVec_crc16Byte, ← Crc.feed_append]
    rfl

/-! ## The table -/

theorem crc16Table_eq : crc16Table =
    (List.range 256).map fun i => ⟨(Crc.shift crc16Polynom.toBitVec)^[8] (BitVec.ofNat 16 i)⟩ := by
  decide +kernel

theorem crc16Table_entry {i : Nat} (hi : i < 256) :
    (crc16Table.getD i 0).toBitVec = (Crc.shift crc16Polynom.toBitVec)^[8] (BitVec.ofNat 16 i) := by
  rw [crc16Table_eq, List.getD_eq_getElem?_getD, List.getElem?_map, List.getElem?_range hi]
  rfl

theorem toBitVec_toUInt16_byte (byte : UInt8) : byte.toUInt16.toBitVec = Crc.ofBits 16 (byteBits byte) := by
  refine BitVec.eq_of_getLsbD_eq fun i hi => ?_
  rw [Crc.getLsbD_ofBits, byteBits, List.getD_eq_getElem?_getD, List.getElem?_map]
  rcases Nat.lt_or_ge i 8 with hlt | hge
  · rw [List.getElem?_range hlt]
    simp [hi]
  · rw [List.getElem?_eq_none (by simpa using hge)]
    simp [hge]

/-- `& 0x00FF` -/
theorem getLsbD_low_byte (v : BitVec 16) (i : Nat) :
    (BitVec.ofNat 16 (v.toNat % 2 ^ 8)).getLsbD i = (v.getLsbD i && decide (i < 8)) := by
  have hlow : BitVec.ofNat 16 (v.toNat % 2 ^ 8) = (v.setWidth 8).setWidth 16 := by
    refine BitVec.eq_of_toNat_eq ?_
    rw [BitVec.toNat_ofNat, BitVec.toNat_setWidth, BitVec.toNat_setWidth]
  rw [hlow, BitVec.getLsbD_setWidth, BitVec.getLsbD_setWidth]
  rcases Nat.lt_or_ge i 8 with hlt | hge
  · simp [hlt, Nat.lt_trans hlt (by decide : 8 < 16)]
  · simp [Nat.not_lt.mpr hge]

theorem crc16Table_byte (byte : UInt8) (crc : UInt16) :
    (crc >>> 8) ^^^ crc16Table.getD ((crc ^^^ byte.toUInt16) &&& 0x00FF).toNat 0 = (crc16Bit^[8] (byte, crc)).2 := by
  have hmask : ((crc ^^^ byte.toUInt16) &&& 0x00FF).toNat = (crc ^^^ byte.toUInt16).toBitVec.toNat % 2 ^ 8 := by
    rw [UInt16.toNat_and]
    exact Nat.and_two_pow_sub_one_eq_mod _ 8
  have hentry := crc16Table_entry (i := (crc ^^^ byte.toUInt16).toBitVec.toNat % 2 ^ 8) (Nat.mod_lt _ (by decide))
  have hhigh : byte.toUInt16.toBitVec >>> 8 = 0#16 := by
    refine BitVec.eq_of_getLsbD_eq fun i _ => ?_
    simp
  have hmoved : (crc ^^^ byte.toUInt16).toBitVec >>> 8 = (crc >>> 8).toBitVec := by
    rw [UInt16.toBitVec_xor, BitVec.ushiftRight_xor_distrib, hhigh, BitVec.xor_zero]
    rfl
  refine UInt16.toBitVec_inj.mp ?_
  calc (crc >>> 8 ^^^ crc16Table.getD ((crc ^^^ byte.toUInt16) &&& 0x00FF).toNat 0).toBitVec
      = (crc ^^^ byte.toUInt16).toBitVec >>> 8 ^^^ (Crc.shift crc16Polynom.toBitVec)^[8]
          (BitVec.ofNat 16 ((crc ^^^ byte.toUInt16).toBitVec.toNat % 2 ^ 8)) := by
        rw [UInt16.toBitVec_xor, hmask, hentry, hmoved]
    _ = (Crc.shift crc16Polynom.toBitVec)^[8] (crc ^^^ byte.toUInt16).toBitVec := by
        refine (Crc.shifts_eq_table (fun i hi => ?_) fun i hi => ?_).symm
        · rw [getLsbD_low_byte, decide_eq_true hi, Bool.and_true]
        · rw [getLsbD_low_byte, decide_eq_false (Nat.not_lt.mpr hi), Bool.and_false]
    _ = (crc16Bit^[8] (byte, crc)).2.toBitVec := by
        rw [toBitVec_crc16Byte, Crc.feed_eq_shifts (by rw [length_byteBits]; decide), length_byteBits,
          ← toBitVec_toUInt16_byte, UInt16.toBitVec_xor]

/-- **The fast algorithm computes what the slow one does**, for every block and initial value. -/
theorem crc16CalcTable_eq : crc16CalcTable = crc16Calc := by
  funext data initVal
  have hbyte : (fun (crc : UInt16) (byte : UInt8) =>
      (crc >>> 8) ^^^ crc16Table.getD ((crc ^^^ byte.toUInt16) &&& 0x00FF).toNat 0) =
        fun crc byte => (crc16Bit^[8] (byte, crc)).2 :=
    funext fun crc => funext fun byte => crc16Table_byte byte crc
  rw [crc16CalcTable, hbyte]
  rfl

/-! ## Checks -/

theorem toBitVec_crc16CalcTable (data : Bytes) (initVal : UInt16) :
    (crc16CalcTable data initVal).toBitVec = Crc.feed crc16Polynom.toBitVec initVal.toBitVec (blockBits data) := by
  rw [crc16CalcTable_eq, toBitVec_crc16Calc]

theorem crc16CalcTable_append (data rest : Bytes) (initVal : UInt16) :
    crc16CalcTable (data ++ rest) initVal = crc16CalcTable rest (crc16CalcTable data initVal) := List.foldl_append

theorem crc16CalcTable_ne_of_burst {data data' : Bytes} (initVal : UInt16)
    (h : Crc.Burst 16 (blockBits data) (blockBits data')) :
    crc16CalcTable data initVal ≠ crc16CalcTable data' initVal := by
  intro heq
  have hbits := congrArg UInt16.toBitVec heq
  rw [toBitVec_crc16CalcTable, toBitVec_crc16CalcTable] at hbits
  exact Crc.feed_ne_of_burst crc16Polynom_top h hbits

theorem ofBits_le16 (x : UInt16) : Crc.ofBits 16 (blockBits (le16 x)) = x.toBitVec := by
  have hbits : blockBits (le16 x) = (List.range 16).map x.toBitVec.getLsbD := by
    simp [blockBits, byteBits, le16, List.range_succ]
  refine BitVec.eq_of_getLsbD_eq fun i hi => ?_
  rw [Crc.getLsbD_ofBits, hbits, List.getD_eq_getElem?_getD, List.getElem?_map, List.getElem?_range hi]
  simp [hi]

theorem toBitVec_crc16CalcTable_le16 (x crc : UInt16) : (crc16CalcTable (le16 x) crc).toBitVec =
    (Crc.shift crc16Polynom.toBitVec)^[16] (crc.toBitVec ^^^ x.toBitVec) := by
  have hlength : (blockBits (le16 x)).length = 16 := by
    rw [length_blockBits]
    rfl
  rw [toBitVec_crc16CalcTable, Crc.feed_eq_shifts hlength.le, hlength, ofBits_le16]

theorem crc16Check_iff (data : Bytes) (trailer initVal : UInt16) :
    crc16Check (data ++ le16 trailer) initVal = true ↔ trailer = ~~~(crc16CalcTable data initVal) := by
  have hgood : (~~~crc16GoodValue).toBitVec = (Crc.shift crc16Polynom.toBitVec)^[16] (~~~0#16) := by decide +kernel
  have hnot : ∀ x y : UInt16, ~~~x = y ↔ x = ~~~y := fun x y =>
    ⟨fun h => by rw [← h, UInt16.not_not], fun h => by rw [h, UInt16.not_not]⟩
  have hxor : ∀ x y : BitVec 16, x ^^^ y = ~~~0#16 ↔ y = ~~~x := by
    intro x y
    have hones : ~~~0#16 = x ^^^ ~~~x := by
      refine BitVec.eq_of_getLsbD_eq fun i hi => ?_
      rw [BitVec.getLsbD_not, BitVec.getLsbD_xor, BitVec.getLsbD_not, BitVec.getLsbD_zero]
      simp [hi]
    rw [hones, BitVec.xor_right_inj]
  rw [crc16Check, beq_iff_eq, hnot, crc16CalcTable_append, ← UInt16.toBitVec_inj, hgood, toBitVec_crc16CalcTable_le16,
    (Crc.shifts_injective crc16Polynom_top 16).eq_iff, hxor, ← UInt16.toBitVec_not, UInt16.toBitVec_inj]

/-- What `CRC16_Check` says of blocks behind which there are two bytes. -/
structure Checks (initVal : UInt16) : Prop where
  sealed : ∀ data trailer, crc16Check (data ++ le16 trailer) initVal = true ↔ trailer = ~~~(crc16CalcTable data initVal)
  burst : ∀ block block', Crc.Burst 16 (blockBits block) (blockBits block') →
    crc16Check block initVal = true → crc16Check block' initVal = false

/-- **A block is accepted with one CRC only, and no more after a burst of up to 16 bits.** -/
theorem crc16_checks (initVal : UInt16) : Checks initVal where
  sealed data trailer := crc16Check_iff data trailer initVal
  burst block block' hburst hgood := by
    have hne := crc16CalcTable_ne_of_burst initVal hburst
    have hgood : ~~~(crc16CalcTable block initVal) = crc16GoodValue := beq_iff_eq.mp hgood
    refine beq_eq_false_iff_ne.mpr fun hgood' => hne ?_
    exact UInt16.not_inj.mp (hgood.trans hgood'.symm)

/-! ## Damaged messages -/

/-- The message of a buffer with another size, with another CRC, or with a burst of up to 16 bits in
what is behind them, and what the receiver makes of it. -/
inductive Damaged (data : Bytes) : Bytes → Int → Prop
  | size (size crc : UInt16) (block : Bytes) (hsize : size ≠ UInt16.ofNat data.length)
      (hlength : block.length = data.length) : Damaged data (le16 size ++ le16 crc ++ block) processingSizeError
  | crc (crc : UInt16) (hcrc : crc ≠ crc16CalcTable data 0xFFFF) :
      Damaged data (le16 (UInt16.ofNat data.length) ++ le16 crc ++ data) processingCRCError
  | burst (block : Bytes) (hburst : Crc.Burst 16 (blockBits data) (blockBits block)) :
      Damaged data (le16 (UInt16.ofNat data.length) ++ le16 (crc16CalcTable data 0xFFFF) ++ block) processingCRCError

theorem length_eq_of_burst {n : Nat} {data block : Bytes} (h : Crc.Burst n (blockBits data) (blockBits block)) :
    block.length = data.length := by
  obtain ⟨before, burst, burst', after, hdata, hblock, hlength, -, -⟩ := h
  have hdata := congrArg List.length hdata
  have hblock := congrArg List.length hblock
  simp only [length_blockBits, List.length_append] at hdata hblock
  omega

section
variable {crc16 : Crc16} {incoming : Parsed} {buf : Mem UInt8} {len size crc : UInt16} {block : Bytes}

theorem signpostProcessingTwowayReceive_eq (hheld : incoming.Holds (le16 size ++ le16 crc ++ block)) :
    signpostProcessingTwowayReceive crc16 incoming buf len =
      if size.toNat ≠ block.length then (processingSizeError, buf, len)
      else if crc ≠ crc16 block 0xFFFF then (processingCRCError, buf, len)
      else (processingSuccess, buf.copy 0 block, size) := by
  have hmessage : (le16 size ++ le16 crc ++ block).length = 2 + (2 + block.length) := by
    simp [le16]
    omega
  have hread := hheld.read
  rw [hmessage, Mem.read_add, Mem.read_add, List.append_assoc] at hread
  obtain ⟨hsize, hrest⟩ := List.append_inj hread rfl
  obtain ⟨hcrc, hblock⟩ := List.append_inj hrest rfl
  have hlength : size.toUInt32 ≠ incoming.messageLength - 4 ↔ size.toNat ≠ block.length := by
    have hheldLength := hheld.length
    rw [hmessage] at hheldLength
    rw [Ne, ← UInt32.toNat_inj, UInt32.toNat_sub_of_le _ _ (by rw [UInt32.le_iff_toNat_le, hheldLength]; simp; omega),
      hheldLength, UInt16.toNat_toUInt32]
    have hfour : (4 : UInt32).toNat = 4 := rfl
    omega
  rw [signpostProcessingTwowayReceive, read_two_eq_le16.mp hsize, read_two_eq_le16.mp hcrc]
  simp only [hlength]
  split
  · rfl
  · next heq => rw [not_not.mp heq, hblock]

end

/-- **No damaged message is taken for a buffer**: the error says what is damaged, and the caller's
buffer and length are as they were. -/
theorem damaged_refused {data message : Bytes} {e : Int} (hdata : data.length < 2 ^ 16)
    (hdamaged : Damaged data message e) (incoming : Parsed) (hheld : incoming.Holds message)
    (buf : Mem UInt8) (len : UInt16) :
    signpostProcessingTwowayReceive crc16CalcTable incoming buf len = (e, buf, len) := by
  have hsize : (UInt16.ofNat data.length).toNat = data.length := UInt16.toNat_ofNat_of_lt' hdata
  cases hdamaged with
  | size size crc block hne hlength =>
    rw [signpostProcessingTwowayReceive_eq hheld, if_pos]
    intro heq
    exact hne (by rw [← hlength, ← heq, UInt16.ofNat_toNat])
  | crc crc hcrc => rw [signpostProcessingTwowayReceive_eq hheld, if_neg (not_not.mpr hsize), if_pos hcrc]
  | burst block hburst =>
    rw [signpostProcessingTwowayReceive_eq hheld,
      if_neg (not_not.mpr (hsize.trans (length_eq_of_burst hburst).symm)),
      if_pos (crc16CalcTable_ne_of_burst 0xFFFF hburst)]

/-- A letter of which one bit is changed. -/
def damagedLetter : Bytes := le16 1 ++ le16 (crc16CalcTable [0x41] 0xFFFF) ++ [0x43]

theorem damagedLetter_refused :
    Damaged [0x41] damagedLetter processingCRCError ∧
      signpostProcessingTwowayReceive crc16CalcTable ⟨2, 5, 1, 5, .ofList damagedLetter 0⟩ (fun _ => 0) 7 =
        (processingCRCError, fun _ => 0, 7) := by
  have hburst : Crc.Burst 16 (blockBits [0x41]) (blockBits [0x43]) :=
    ⟨[true], [false], [true], [false, false, false, false, true, false], rfl, rfl, rfl, by decide, by decide⟩
  exact ⟨.burst _ hburst, damaged_refused (by decide) (.burst _ hburst) _ ⟨rfl, Mem.read_ofList ..⟩ _ _⟩

end Signpost
