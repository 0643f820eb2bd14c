/-
Text as UTF-16 code units, and UTF-8 of it.

A surrogate without its other half is written as U+FFFD. So are bytes that make
no character, where they are read: the longest start of a character counts as
one of them.

The decoder is a machine over bytes with what it has begun of a character, as
the standard for the web describes it; `Lib.Utf8` has what it makes of
well-formed text.
-/
import Mathlib.Data.List.Basic

namespace Lib.Utf16

def ascii (s : String) : List UInt16 := s.toList.map fun c => UInt16.ofNat c.toNat

def High (u : UInt16) : Prop := 0xD800 ≤ u.toNat ∧ u.toNat < 0xDC00

def Low (u : UInt16) : Prop := 0xDC00 ≤ u.toNat ∧ u.toNat < 0xE000

instance : DecidablePred High := fun _ => instDecidableAnd

instance : DecidablePred Low := fun _ => instDecidableAnd

/-! ## To UTF-8 -/

def utf8Char (n : Nat) : List UInt8 :=
  if n < 0x80 then [UInt8.ofNat n]
  else if n < 0x800 then [UInt8.ofNat (0xC0 + n / 64), UInt8.ofNat (0x80 + n % 64)]
  else if n < 0x10000 then
    [UInt8.ofNat (0xE0 + n / 4096), UInt8.ofNat (0x80 + n / 64 % 64), UInt8.ofNat (0x80 + n % 64)]
  else
    [UInt8.ofNat (0xF0 + n / 262144), UInt8.ofNat (0x80 + n / 4096 % 64), UInt8.ofNat (0x80 + n / 64 % 64),
      UInt8.ofNat (0x80 + n % 64)]

def pair (u v : UInt16) : Nat := 0x10000 + (u.toNat - 0xD800) * 1024 + (v.toNat - 0xDC00)

/-- The character of a unit that is not half of a pair. -/
def single (u : UInt16) : Nat := if High u ∨ Low u then 0xFFFD else u.toNat

def toUtf8 : List UInt16 → List UInt8
  | [] => []
  | [u] => utf8Char (single u)
  | u :: v :: rest =>
    if High u ∧ Low v then utf8Char (pair u v) ++ toUtf8 rest
    else utf8Char (single u) ++ toUtf8 (v :: rest)

theorem length_utf8Char_pos (n : Nat) : 0 < (utf8Char n).length := by
  unfold utf8Char
  split_ifs <;> simp

theorem length_utf8Char_single (u : UInt16) : (utf8Char (single u)).length ≤ 3 := by
  have hlt : single u < 0x10000 := by
    unfold single
    split_ifs
    · decide
    · exact u.toNat_lt
  unfold utf8Char
  split_ifs <;> simp

theorem length_utf8Char_pair (u v : UInt16) : (utf8Char (pair u v)).length = 4 := by
  have hge : ∀ n, ¬ 0x10000 + n < 0x10000 := fun n => by omega
  rw [utf8Char, if_neg (by unfold pair; omega), if_neg (by unfold pair; omega),
    if_neg (by unfold pair; omega)]
  rfl

theorem length_utf8Char_low {u : UInt16} (h : Low u) : (utf8Char (single u)).length = 3 := by
  rw [single, if_pos (.inr h)]
  rfl

theorem length_toUtf8_le (s : List UInt16) : (toUtf8 s).length ≤ 3 * s.length := by
  fun_induction toUtf8 s with
  | case1 => exact Nat.le_refl 0
  | case2 u => exact length_utf8Char_single u
  | case3 u v rest h ih =>
    rw [List.length_append, length_utf8Char_pair, List.length_cons, List.length_cons]
    omega
  | case4 u v rest h ih =>
    have hu := length_utf8Char_single u
    rw [List.length_append, List.length_cons]
    omega

/-- The rest of a text is written with fewer bytes, also where it begins inside a pair. -/
theorem length_toUtf8_lt_cons (u : UInt16) (s : List UInt16) :
    (toUtf8 s).length < (toUtf8 (u :: s)).length := by
  cases s with
  | nil => exact length_utf8Char_pos _
  | cons v rest =>
    rw [toUtf8]
    split_ifs with h
    · rw [List.length_append, length_utf8Char_pair]
      cases rest with
      | nil =>
        have hlow := length_utf8Char_low h.2
        show (utf8Char (single v)).length < 4 + 0
        omega
      | cons w rest =>
        have hnot : ¬ (High v ∧ Low w) := fun hv => by
          have hlow := h.2.1
          have hhigh := hv.1.2
          omega
        rw [toUtf8, if_neg hnot, List.length_append, length_utf8Char_low h.2]
        omega
    · have hpos := length_utf8Char_pos (single u)
      rw [List.length_append]
      omega

theorem length_toUtf8_lt_append {s : List UInt16} (h : s ≠ []) (t : List UInt16) :
    (toUtf8 t).length < (toUtf8 (s ++ t)).length := by
  induction s with
  | nil => exact (h rfl).elim
  | cons u s ih =>
    refine Nat.lt_of_le_of_lt ?_ (length_toUtf8_lt_cons u (s ++ t))
    by_cases hs : s = []
    · exact Nat.le_of_eq (by rw [hs, List.nil_append])
    · exact Nat.le_of_lt (ih hs)

theorem length_le_toUtf8 (s : List UInt16) : s.length ≤ (toUtf8 s).length := by
  induction s with
  | nil => exact Nat.le_refl 0
  | cons u s ih => exact Nat.lt_of_le_of_lt ih (length_toUtf8_lt_cons u s)

theorem toUtf8_cons {u : UInt16} (h : u.toNat < 0x80) (s : List UInt16) :
    toUtf8 (u :: s) = UInt8.ofNat u.toNat :: toUtf8 s := by
  have hhigh : ¬ High u := fun hu => by
    have hle := hu.1
    omega
  have hsingle : utf8Char (single u) = [UInt8.ofNat u.toNat] := by
    have hlow : ¬ (High u ∨ Low u) := by
      rintro (hu | hu)
      · exact hhigh hu
      · have hle := hu.1
        omega
    rw [single, if_neg hlow, utf8Char, if_pos h]
  cases s with
  | nil => exact hsingle
  | cons v s =>
    rw [toUtf8, if_neg fun hpair => hhigh hpair.1, hsingle]
    rfl

theorem toUtf8_append {s : List UInt16} (h : s.all (fun u => u.toNat < 0x80) = true) (t : List UInt16) :
    toUtf8 (s ++ t) = s.map (fun u => UInt8.ofNat u.toNat) ++ toUtf8 t := by
  induction s with
  | nil => rfl
  | cons u s ih =>
    rw [List.all_cons, Bool.and_eq_true, decide_eq_true_iff] at h
    rw [List.cons_append, toUtf8_cons h.1, ih h.2]
    rfl

/-! ## From UTF-8 -/

/-- A character of which some bytes are there: how many are still to come, what
the next may be, and the bits so far. -/
structure Partial where
  more : Nat
  lower : Nat
  upper : Nat
  bits : Nat

def ofChar (n : Nat) : List UInt16 :=
  if n < 0x10000 then [UInt16.ofNat n]
  else [UInt16.ofNat (0xD800 + (n - 0x10000) / 1024), UInt16.ofNat (0xDC00 + (n - 0x10000) % 1024)]

/-- A byte where a character begins. -/
def startByte (b : UInt8) : List UInt16 × Option Partial :=
  let n := b.toNat
  if n < 0x80 then (ofChar n, none)
  else if 0xC2 ≤ n ∧ n ≤ 0xDF then ([], some ⟨1, 0x80, 0xBF, n % 32⟩)
  else if n = 0xE0 then ([], some ⟨2, 0xA0, 0xBF, 0⟩)
  else if n = 0xED then ([], some ⟨2, 0x80, 0x9F, 13⟩)
  else if 0xE1 ≤ n ∧ n ≤ 0xEF then ([], some ⟨2, 0x80, 0xBF, n % 16⟩)
  else if n = 0xF0 then ([], some ⟨3, 0x90, 0xBF, 0⟩)
  else if 0xF1 ≤ n ∧ n ≤ 0xF3 then ([], some ⟨3, 0x80, 0xBF, n % 8⟩)
  else if n = 0xF4 then ([], some ⟨3, 0x80, 0x8F, 4⟩)
  else ([0xFFFD], none)

/-- The next byte: what is written, and the character that has begun. -/
def feed : Option Partial → UInt8 → List UInt16 × Option Partial
  | none, b => startByte b
  | some p, b =>
    if p.lower ≤ b.toNat ∧ b.toNat ≤ p.upper then
      let bits := p.bits * 64 + b.toNat % 64
      if p.more = 1 then (ofChar bits, none) else ([], some ⟨p.more - 1, 0x80, 0xBF, bits⟩)
    else (0xFFFD :: (startByte b).1, (startByte b).2)

def decodeFrom : Option Partial → List UInt8 → List UInt16
  | none, [] => []
  | some _, [] => [0xFFFD]
  | p, b :: rest => (feed p b).1 ++ decodeFrom (feed p b).2 rest

def ofUtf8 (bytes : List UInt8) : List UInt16 := decodeFrom none bytes

end Lib.Utf16
