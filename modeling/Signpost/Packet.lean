/-
The packet of the SignBus network layer (`signbus_network_header_t` and
`Packet` of `signbus_io_interface.c`), byte for byte.

The C code copies these packed structs to and from byte buffers, so a header
has two readings here: its fields, and its eight bytes in a little-endian
memory. Multi-byte fields hold what the code stores in them, which is the
value after `htons`.
-/
import Mathlib.Algebra.Group.Int.Defs
import Mathlib.Algebra.Group.Nat.Defs
import Signpost.Lib.Memory

namespace Signpost

open Lib

abbrev Bytes := List UInt8

/-- A text of JavaScript, as its UTF-16 units. -/
abbrev Text := List UInt16

/-- `PORT_I2C_MAX_LEN`. -/
def portI2cMaxLen : UInt32 := 255

/-- `sizeof(signbus_network_header_t)`. -/
def sizeofHeader : UInt32 := 8

/-- `MAX_DATA_LEN`. -/
def maxDataLen : UInt32 := portI2cMaxLen - sizeofHeader

theorem maxDataLen_eq : maxDataLen = 247 := rfl

theorem sizeofHeader_eq : sizeofHeader = 8 := rfl

/-- A `size_t` returned as an `int`. -/
def toInt (x : UInt32) : Int := x.toInt32.toInt

theorem toInt_of_lt {x : UInt32} (h : x.toNat < 2 ^ 31) : toInt x = x.toNat := by
  rw [toInt, Int32.toInt, UInt32.toBitVec_toInt32, BitVec.toInt_eq_toNat_of_lt]
  · rfl
  · simpa using (by omega : 2 * x.toNat < 2 ^ 32)

/-- An `int` sent as it is in memory. -/
theorem toInt_ofInt {c : Int} (h : -2147483648 ≤ c) (h' : c < 2147483648) : toInt (UInt32.ofInt c) = c := by
  rw [toInt, Int32.toInt, UInt32.toBitVec_toInt32]
  show (BitVec.ofNat 32 (c % 2 ^ 32).toNat).toInt = c
  rw [BitVec.toInt_ofNat', Int.toNat_of_nonneg (Int.emod_nonneg c (by decide))]
  have hmod : (c % 2 ^ 32).bmod (2 ^ 32) = c.bmod (2 ^ 32) := Int.emod_bmod c (2 ^ 32)
  rw [hmod]
  exact Int.bmod_eq_of_le (by omega) (by omega)

theorem toInt_eq (x : UInt32) : toInt x = if 2 * x.toNat < 2 ^ 32 then (x.toNat : Int) else x.toNat - 2 ^ 32 := by
  rw [toInt, Int32.toInt, UInt32.toBitVec_toInt32, BitVec.toInt_eq_toNat_cond]
  rfl

theorem toInt_of_nonneg {x : UInt32} (h : 0 ≤ toInt x) : toInt x = x.toNat ∧ x.toNat < 2 ^ 31 := by
  have hx := x.toNat_lt
  rw [toInt_eq] at h ⊢
  split at h
  · next hlt => exact ⟨if_pos hlt, by omega⟩
  · omega

/-- A `size_t` returned as an `int`, and passed as a `size_t`. -/
theorem ofInt_toInt (x : UInt32) : UInt32.ofInt (toInt x) = x := by
  have hx := x.toNat_lt
  refine UInt32.toNat_inj.mp ?_
  rw [UInt32.ofInt, UInt32.toNat_ofNat', toInt_eq]
  split <;> omega

/-- An `int` passed as a `size_t`. -/
theorem toNat_ofInt {n : Nat} (h : n < 2 ^ 32) : (UInt32.ofInt n).toNat = n := by
  rw [UInt32.ofInt, UInt32.toNat_ofNat']
  omega

/-! ## Sixteen-bit fields -/

def htons (x : UInt16) : UInt16 := ((x &&& 0x00FF) <<< 8) ||| ((x &&& 0xFF00) >>> 8)

/-- A 16-bit field in memory, low byte first. -/
def le16 (x : UInt16) : Bytes := [x.toUInt8, (x >>> 8).toUInt8]

def ofLe16 (lo hi : UInt8) : UInt16 := lo.toUInt16 ||| (hi.toUInt16 <<< 8)

/-- The bytes of a `uint32_t` or a `size_t`. -/
def le32 (x : UInt32) : Bytes := le16 x.toUInt16 ++ le16 (x >>> 16).toUInt16

/-- The `uint32_t` or `size_t` in memory. -/
def u32 (m : Mem UInt8) (off : Nat) : UInt32 :=
  (ofLe16 (m off) (m (off + 1))).toUInt32 ||| ((ofLe16 (m (off + 2)) (m (off + 3))).toUInt32 <<< 16)

theorem uint16_ext {x y : UInt16} (h : ∀ i < 16, x.toBitVec.getLsbD i = y.toBitVec.getLsbD i) : x = y :=
  UInt16.eq_of_toBitVec_eq (BitVec.eq_of_getLsbD_eq h)

theorem lt_sixteen_cases {i : Nat} (h : i < 16) : i = 0 ∨ i = 1 ∨ i = 2 ∨ i = 3 ∨ i = 4 ∨ i = 5 ∨
    i = 6 ∨ i = 7 ∨ i = 8 ∨ i = 9 ∨ i = 10 ∨ i = 11 ∨ i = 12 ∨ i = 13 ∨ i = 14 ∨ i = 15 := by omega

@[simp] theorem htons_htons (x : UInt16) : htons (htons x) = x := by
  refine uint16_ext fun i hi => ?_
  rcases lt_sixteen_cases hi with rfl | rfl | rfl | rfl | rfl | rfl | rfl | rfl | rfl | rfl | rfl |
    rfl | rfl | rfl | rfl | rfl <;> simp [htons]

theorem htons_inj {x y : UInt16} : htons x = htons y ↔ x = y :=
  ⟨fun h => by rw [← htons_htons x, h, htons_htons], fun h => h ▸ rfl⟩

theorem toNat_ofLe16 (lo hi : UInt8) : (ofLe16 lo hi).toNat = lo.toNat + 256 * hi.toNat := by
  have hl := lo.toNat_lt
  have hh := hi.toNat_lt
  have hs : (hi.toUInt16 <<< 8).toNat = hi.toNat <<< 8 := by
    rw [UInt16.toNat_shiftLeft]
    simp only [UInt8.toNat_toUInt16, UInt16.reduceToNat, Nat.reduceMod]
    rw [Nat.shiftLeft_eq, Nat.mod_eq_of_lt (by omega)]
  rw [ofLe16, UInt16.toNat_or, hs, UInt8.toNat_toUInt16, Nat.or_comm,
    ← Nat.shiftLeft_add_eq_or_of_lt hl, Nat.shiftLeft_eq]
  omega

theorem ofLe16_le16 (x : UInt16) : ofLe16 x.toUInt8 (x >>> 8).toUInt8 = x := by
  have hx := x.toNat_lt
  refine UInt16.toNat_inj.mp ?_
  rw [toNat_ofLe16]
  simp [Nat.shiftRight_eq_div_pow]
  omega

theorem le16_ofLe16 (lo hi : UInt8) : le16 (ofLe16 lo hi) = [lo, hi] := by
  have hl := lo.toNat_lt
  have hh := hi.toNat_lt
  have hlo : (ofLe16 lo hi).toUInt8 = lo := UInt8.toNat_inj.mp (by rw [UInt16.toNat_toUInt8, toNat_ofLe16]; omega)
  have hhi : (ofLe16 lo hi >>> 8).toUInt8 = hi := by
    refine UInt8.toNat_inj.mp ?_
    simp [toNat_ofLe16, Nat.shiftRight_eq_div_pow]
    omega
  rw [le16, hlo, hhi]

theorem le16_injective : Function.Injective le16 := by
  intro x y h
  obtain ⟨hlo, hhi⟩ : x.toUInt8 = y.toUInt8 ∧ (x >>> 8).toUInt8 = (y >>> 8).toUInt8 := by simpa [le16] using h
  rw [← ofLe16_le16 x, ← ofLe16_le16 y, hlo, hhi]

theorem read_two_eq_le16 {m : Mem UInt8} {off : Nat} {x : UInt16} :
    m.read off 2 = le16 x ↔ ofLe16 (m off) (m (off + 1)) = x := by
  have hread : m.read off 2 = le16 (ofLe16 (m off) (m (off + 1))) := (le16_ofLe16 _ _).symm
  rw [hread]
  exact le16_injective.eq_iff

/-! ## Words in memory -/

theorem u32_of_le16 (x : UInt32) : x.toUInt16.toUInt32 ||| ((x >>> 16).toUInt16.toUInt32 <<< 16) = x := by
  have hx := x.toNat_lt
  refine UInt32.toNat_inj.mp ?_
  have hs : ((x >>> 16).toUInt16.toUInt32 <<< 16).toNat = (x.toNat / 2 ^ 16) <<< 16 := by
    rw [UInt32.toNat_shiftLeft]
    simp [Nat.shiftRight_eq_div_pow, Nat.shiftLeft_eq]
    omega
  rw [UInt32.toNat_or, hs, Nat.or_comm, UInt16.toNat_toUInt32, UInt32.toNat_toUInt16,
    ← Nat.shiftLeft_add_eq_or_of_lt (by omega), Nat.shiftLeft_eq]
  omega

/-- A `uint32_t` or a `size_t` copied to memory is there. -/
theorem u32_copy_le32 (m : Mem UInt8) (off : Nat) (x : UInt32) : u32 (m.copy off (le32 x)) off = x := by
  have hlen : (le32 x).length = 4 := rfl
  have hcell : ∀ i (h : i < 4), m.copy off (le32 x) (off + i) = (le32 x)[i] :=
    fun i h => Mem.copy_at h
  have h0 := hcell 0 (by omega)
  rw [Nat.add_zero] at h0
  rw [u32, h0, hcell 1 (by omega), hcell 2 (by omega), hcell 3 (by omega)]
  show (ofLe16 x.toUInt16.toUInt8 (x.toUInt16 >>> 8).toUInt8).toUInt32 |||
    ((ofLe16 (x >>> 16).toUInt16.toUInt8 ((x >>> 16).toUInt16 >>> 8).toUInt8).toUInt32 <<< 16) = x
  rw [ofLe16_le16, ofLe16_le16, u32_of_le16]

theorem u32_congr {m m' : Mem UInt8} {off off' : Nat} (h : m.read off 4 = m'.read off' 4) :
    u32 m off = u32 m' off' := by
  have hcell := Mem.read_eq_iff.mp h
  have h0 := hcell 0 (by omega)
  simp only [Nat.add_zero] at h0
  rw [u32, u32, h0, hcell 1 (by omega), hcell 2 (by omega), hcell 3 (by omega)]

/-- The bytes of a `uint32_t` or a `size_t` in memory are it. -/
theorem u32_of_read {m : Mem UInt8} {off : Nat} {x : UInt32} (h : m.read off 4 = le32 x) :
    u32 m off = x := by
  have hcopy : (m.copy off (le32 x)).read off 4 = le32 x := Mem.read_copy m off (le32 x)
  rw [u32_congr (h.trans hcopy.symm), u32_copy_le32]

theorem toNat_u32 (m : Mem UInt8) (off : Nat) :
    (u32 m off).toNat = (ofLe16 (m off) (m (off + 1))).toNat + 65536 * (ofLe16 (m (off + 2)) (m (off + 3))).toNat := by
  have hlo := (ofLe16 (m off) (m (off + 1))).toNat_lt
  have hhi := (ofLe16 (m (off + 2)) (m (off + 3))).toNat_lt
  have hs : ((ofLe16 (m (off + 2)) (m (off + 3))).toUInt32 <<< 16).toNat =
      (ofLe16 (m (off + 2)) (m (off + 3))).toNat <<< 16 := by
    rw [UInt32.toNat_shiftLeft]
    simp only [UInt16.toNat_toUInt32, UInt32.reduceToNat, Nat.reduceMod]
    rw [Nat.shiftLeft_eq, Nat.mod_eq_of_lt (by omega)]
  rw [u32, UInt32.toNat_or, hs, UInt16.toNat_toUInt32, Nat.or_comm,
    ← Nat.shiftLeft_add_eq_or_of_lt (by omega), Nat.shiftLeft_eq]
  omega

/-- The bytes that a `uint32_t` or a `size_t` is read from. -/
theorem le32_u32 (m : Mem UInt8) (off : Nat) : le32 (u32 m off) = m.read off 4 := by
  have hlo := (ofLe16 (m off) (m (off + 1))).toNat_lt
  have hhi := (ofLe16 (m (off + 2)) (m (off + 3))).toNat_lt
  have hlow : (u32 m off).toUInt16 = ofLe16 (m off) (m (off + 1)) :=
    UInt16.toNat_inj.mp (by rw [UInt32.toNat_toUInt16, toNat_u32]; omega)
  have hhigh : (u32 m off >>> 16).toUInt16 = ofLe16 (m (off + 2)) (m (off + 3)) := by
    refine UInt16.toNat_inj.mp ?_
    simp [toNat_u32, Nat.shiftRight_eq_div_pow]
    omega
  rw [le32, hlow, hhigh, le16_ofLe16, le16_ofLe16]
  rfl

/-! ## Header -/

/-- `signbus_network_flags_t`, lowest bit first. -/
structure NetworkFlags where
  isFragment : Bool
  isEncrypted : Bool
  rsvWireBit5 : Bool
  rsvWireBit4 : Bool
  version : Fin 16
  deriving DecidableEq

/-- The version in every header that is sent. -/
def sentVersion : Fin 16 := 1

/-- `flags_storage`. -/
def NetworkFlags.storage (f : NetworkFlags) : UInt8 :=
  UInt8.ofNat (f.isFragment.toNat + 2 * f.isEncrypted.toNat + 4 * f.rsvWireBit5.toNat +
    8 * f.rsvWireBit4.toNat + 16 * f.version)

def NetworkFlags.ofStorage (b : UInt8) : NetworkFlags where
  isFragment := b.toNat.testBit 0
  isEncrypted := b.toNat.testBit 1
  rsvWireBit5 := b.toNat.testBit 2
  rsvWireBit4 := b.toNat.testBit 3
  version := Fin.ofNat 16 (b.toNat / 16)

theorem NetworkFlags.ofStorage_storage (f : NetworkFlags) : ofStorage f.storage = f := by
  obtain ⟨a, b, c, d, v⟩ := f
  revert a b c d v
  decide

/-- `signbus_network_header_t`. -/
structure NetworkHeader where
  flags : NetworkFlags
  src : UInt8
  sequenceNumber : UInt16
  length : UInt16
  fragmentOffset : UInt16
  deriving DecidableEq

/-- The header's bytes in memory. -/
def NetworkHeader.bytes (h : NetworkHeader) : Bytes :=
  h.flags.storage :: h.src :: (le16 h.sequenceNumber ++ le16 h.length ++ le16 h.fragmentOffset)

/-- The header at the start of a buffer. -/
def NetworkHeader.ofMem (m : Mem UInt8) : NetworkHeader where
  flags := .ofStorage (m 0)
  src := m 1
  sequenceNumber := ofLe16 (m 2) (m 3)
  length := ofLe16 (m 4) (m 5)
  fragmentOffset := ofLe16 (m 6) (m 7)

/-- The two fields a sender rewrites for each fragment. -/
def NetworkHeader.setFragment (h : NetworkHeader) (more : Bool) (offset : UInt16) : NetworkHeader :=
  { h with flags := { h.flags with isFragment := more }, fragmentOffset := htons offset }

@[simp] theorem NetworkHeader.setFragment_setFragment (h : NetworkHeader) (more more' : Bool)
    (offset offset' : UInt16) :
    (h.setFragment more offset).setFragment more' offset' = h.setFragment more' offset' := rfl

@[simp] theorem NetworkHeader.length_bytes (h : NetworkHeader) : h.bytes.length = 8 := rfl

theorem NetworkHeader.ofMem_of_read {h : NetworkHeader} {m : Mem UInt8} (hm : m.read 0 8 = h.bytes) :
    ofMem m = h := by
  simp only [Mem.read, List.range_succ, List.range_zero, List.nil_append, List.cons_append, List.map_cons,
    List.map_nil, Nat.zero_add, bytes, le16, List.cons.injEq, and_true] at hm
  obtain ⟨h0, h1, h2, h3, h4, h5, h6, h7⟩ := hm
  simp only [ofMem, h0, h1, h2, h3, h4, h5, h6, h7, ofLe16_le16, NetworkFlags.ofStorage_storage]

/-! ## Packet -/

/-- `Packet`: a header and the payload array behind it. -/
structure Packet where
  header : NetworkHeader
  data : Mem UInt8

/-- `memcpy(&packet, packet_buf, PORT_I2C_MAX_LEN)`. -/
def Packet.ofMem (m : Mem UInt8) : Packet where
  header := .ofMem m
  data := fun i => m (8 + i)

/-- The first `8 + n` bytes of the struct. -/
def Packet.bytes (p : Packet) (n : Nat) : Bytes := p.header.bytes ++ p.data.read 0 n

theorem Packet.ofMem_copy (m : Mem UInt8) (h : NetworkHeader) (xs : Bytes) :
    (ofMem (m.copy 0 (h.bytes ++ xs))).header = h ∧
      (ofMem (m.copy 0 (h.bytes ++ xs))).data.read 0 xs.length = xs := by
  have hread : (m.copy 0 (h.bytes ++ xs)).read 0 (8 + xs.length) = h.bytes ++ xs := by
    simpa using Mem.read_copy m 0 (h.bytes ++ xs)
  rw [Mem.read_add] at hread
  obtain ⟨hh, hx⟩ := List.append_inj hread (by simp)
  refine ⟨NetworkHeader.ofMem_of_read hh, ?_⟩
  conv_rhs => rw [← hx]
  simp [ofMem, Mem.read]

end Signpost
