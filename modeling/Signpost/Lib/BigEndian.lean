/-
Integers as bytes, high byte first, and a buffer that is read at an offset. A
read past the end fails.

What is written at an offset is what is read there, which is all that a parser
of packets needs.
-/
import Mathlib.Algebra.Group.Int.Defs
import Mathlib.Algebra.Group.Nat.Defs

namespace Lib

/-- The byte of a two's complement integer above its first `k` bits. -/
def byteAt (x : Int) (k : Nat) : UInt8 := UInt8.ofNat (x / 2 ^ k % 256).toNat

def be16 (x : Int) : List UInt8 := [byteAt x 8, byteAt x 0]

def be32 (x : Int) : List UInt8 := [byteAt x 24, byteAt x 16, byteAt x 8, byteAt x 0]

/-- Two bytes, as an unsigned integer. -/
def ofBe16 (hi lo : UInt8) : Nat := hi.toNat * 256 + lo.toNat

/-- Four bytes, as a signed integer. -/
def ofBe32 (a b c d : UInt8) : Int :=
  (ofBe16 a b * 65536 + ofBe16 c d : Nat) - if a.toNat < 128 then 0 else 4294967296

def readUInt8 (buf : List UInt8) (off : Nat) : Option Nat := buf[off]?.map UInt8.toNat

def readUInt16BE (buf : List UInt8) (off : Nat) : Option Nat := do
  let hi ← buf[off]?
  let lo ← buf[off + 1]?
  some (ofBe16 hi lo)

def readInt32BE (buf : List UInt8) (off : Nat) : Option Int := do
  let a ← buf[off]?
  let b ← buf[off + 1]?
  let c ← buf[off + 2]?
  let d ← buf[off + 3]?
  some (ofBe32 a b c d)

section
variable {x : Int}

theorem toNat_byteAt {k : Nat} : ((byteAt x k).toNat : Int) = x / 2 ^ k % 256 := by
  rw [byteAt, UInt8.toNat_ofNat']
  omega

theorem toNat_byteAt_zero (h : 0 ≤ x) (h' : x < 256) : ((byteAt x 0).toNat : Int) = x := by
  rw [toNat_byteAt]
  omega

theorem ofBe16_byteAt : (ofBe16 (byteAt x 8) (byteAt x 0) : Int) = x % 65536 := by
  rw [ofBe16, Int.natCast_add, Int.natCast_mul, toNat_byteAt, toNat_byteAt]
  omega

theorem ofBe16_byteAt_eq (h : -32768 ≤ x) (h' : x < 32768) :
    (ofBe16 (byteAt x 8) (byteAt x 0) : Int) = x ↔ 0 ≤ x := by
  rw [ofBe16_byteAt]
  omega

theorem ofBe32_byteAt (h : -2147483648 ≤ x) (h' : x < 2147483648) :
    ofBe32 (byteAt x 24) (byteAt x 16) (byteAt x 8) (byteAt x 0) = x := by
  have h24 : ((byteAt x 24).toNat : Int) = x / 2 ^ 24 % 256 := toNat_byteAt
  have h16 : ((byteAt x 16).toNat : Int) = x / 2 ^ 16 % 256 := toNat_byteAt
  have h8 : ((byteAt x 8).toNat : Int) = x / 2 ^ 8 % 256 := toNat_byteAt
  have h0 : ((byteAt x 0).toNat : Int) = x / 2 ^ 0 % 256 := toNat_byteAt
  rw [ofBe32, ofBe16, ofBe16]
  split <;> omega

theorem ofBe32_byteAt_bmod (x : Int) :
    ofBe32 (byteAt x 24) (byteAt x 16) (byteAt x 8) (byteAt x 0) = x.bmod 4294967296 := by
  have h24 : ((byteAt x 24).toNat : Int) = x / 2 ^ 24 % 256 := toNat_byteAt
  have h16 : ((byteAt x 16).toNat : Int) = x / 2 ^ 16 % 256 := toNat_byteAt
  have h8 : ((byteAt x 8).toNat : Int) = x / 2 ^ 8 % 256 := toNat_byteAt
  have h0 : ((byteAt x 0).toNat : Int) = x / 2 ^ 0 % 256 := toNat_byteAt
  rw [ofBe32, ofBe16, ofBe16, Int.bmod]
  split <;> split <;> omega

end

end Lib
