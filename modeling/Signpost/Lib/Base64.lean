/-
Base64: three bytes as four characters, `=` where the last bytes are fewer.

The decoder passes over characters that are no digits, so it takes what an
encoder makes whether it is padded or not.

Encoding and decoding are inverse on all bytes, and the number of digits tells
that of the bytes.
-/
import Mathlib.Data.List.Basic

namespace Lib.Base64

def digit (n : Nat) : Char :=
  if n < 26 then Char.ofNat (n + 65)
  else if n < 52 then Char.ofNat (n - 26 + 97)
  else if n < 62 then Char.ofNat (n - 52 + 48)
  else if n = 62 then '+'
  else '/'

/-- The digit of a character; `-` and `_` stand for the last two as well. -/
def value? (c : Char) : Option Nat :=
  if 65 ≤ c.toNat ∧ c.toNat ≤ 90 then some (c.toNat - 65)
  else if 97 ≤ c.toNat ∧ c.toNat ≤ 122 then some (c.toNat - 97 + 26)
  else if 48 ≤ c.toNat ∧ c.toNat ≤ 57 then some (c.toNat - 48 + 52)
  else if c = '+' ∨ c = '-' then some 62
  else if c = '/' ∨ c = '_' then some 63
  else none

def digits : List UInt8 → List Nat
  | [] => []
  | [a] => [a.toNat / 4, a.toNat % 4 * 16]
  | [a, b] => [a.toNat / 4, a.toNat % 4 * 16 + b.toNat / 16, b.toNat % 16 * 4]
  | a :: b :: c :: rest =>
    a.toNat / 4 :: (a.toNat % 4 * 16 + b.toNat / 16) :: (b.toNat % 16 * 4 + c.toNat / 64) :: c.toNat % 64 ::
      digits rest

def encode (bytes : List UInt8) : List Char :=
  (digits bytes).map digit ++ List.replicate ((3 - bytes.length % 3) % 3) '='

/-- The bytes of digits. A digit alone at the end is none. -/
def ofDigits : List Nat → List UInt8
  | w :: x :: y :: z :: rest =>
    UInt8.ofNat (w * 4 + x / 16) :: UInt8.ofNat (x % 16 * 16 + y / 4) :: UInt8.ofNat (y % 4 * 64 + z) ::
      ofDigits rest
  | [w, x, y] => [UInt8.ofNat (w * 4 + x / 16), UInt8.ofNat (x % 16 * 16 + y / 4)]
  | [w, x] => [UInt8.ofNat (w * 4 + x / 16)]
  | _ => []

def decode (s : List Char) : List UInt8 := ofDigits (s.filterMap value?)

/-! ## Round trip -/

theorem value?_digit {n : Nat} (hn : n < 64) : value? (digit n) = some n := by
  have hall : ∀ n < 64, value? (digit n) = some n := by decide +kernel
  exact hall n hn

theorem digits_lt {bytes : List UInt8} {n : Nat} (hn : n ∈ digits bytes) : n < 64 := by
  induction bytes using digits.induct with
  | case1 => cases hn
  | case2 a =>
    have ha := a.toNat_lt
    simp only [digits, List.mem_cons, List.not_mem_nil, or_false] at hn
    omega
  | case3 a b =>
    have ha := a.toNat_lt
    have hb := b.toNat_lt
    simp only [digits, List.mem_cons, List.not_mem_nil, or_false] at hn
    omega
  | case4 a b c rest ih =>
    have ha := a.toNat_lt
    have hb := b.toNat_lt
    have hc := c.toNat_lt
    simp only [digits, List.mem_cons] at hn
    rcases hn with rfl | rfl | rfl | rfl | hn
    · omega
    · omega
    · omega
    · omega
    · exact ih hn

theorem filterMap_encode (bytes : List UInt8) : (encode bytes).filterMap value? = digits bytes := by
  have hpad : ∀ n, (List.replicate n '=').filterMap value? = [] := fun n => by
    rw [List.filterMap_eq_nil_iff]
    intro c hc
    rw [List.eq_of_mem_replicate hc]
    decide
  have hdigits : ∀ ds : List Nat, (∀ n ∈ ds, n < 64) → (ds.map digit).filterMap value? = ds :=
    fun ds h => by
    induction ds with
    | nil => rfl
    | cons n ds ih =>
      obtain ⟨hn, hds⟩ := List.forall_mem_cons.mp h
      rw [List.map_cons, List.filterMap_cons, value?_digit hn, ih hds]
  rw [encode, List.filterMap_append, hpad, hdigits _ fun _ => digits_lt, List.append_nil]

theorem ofDigits_digits (bytes : List UInt8) : ofDigits (digits bytes) = bytes := by
  induction bytes using digits.induct with
  | case1 => rfl
  | case2 a =>
    have ha : a.toNat / 4 * 4 + a.toNat % 4 * 16 / 16 = a.toNat := by omega
    rw [digits, ofDigits, ha, UInt8.ofNat_toNat]
  | case3 a b =>
    have hblt := b.toNat_lt
    have ha : a.toNat / 4 * 4 + (a.toNat % 4 * 16 + b.toNat / 16) / 16 = a.toNat := by omega
    have hb : (a.toNat % 4 * 16 + b.toNat / 16) % 16 * 16 + b.toNat % 16 * 4 / 4 = b.toNat := by omega
    rw [digits, ofDigits, ha, hb, UInt8.ofNat_toNat, UInt8.ofNat_toNat]
  | case4 a b c rest ih =>
    have hblt := b.toNat_lt
    have hclt := c.toNat_lt
    have ha : a.toNat / 4 * 4 + (a.toNat % 4 * 16 + b.toNat / 16) / 16 = a.toNat := by omega
    have hb : (a.toNat % 4 * 16 + b.toNat / 16) % 16 * 16 + (b.toNat % 16 * 4 + c.toNat / 64) / 4 =
        b.toNat := by omega
    have hc : (b.toNat % 16 * 4 + c.toNat / 64) % 4 * 64 + c.toNat % 64 = c.toNat := by omega
    rw [digits, ofDigits, ha, hb, hc, ih, UInt8.ofNat_toNat, UInt8.ofNat_toNat, UInt8.ofNat_toNat]

theorem decode_encode (bytes : List UInt8) : decode (encode bytes) = bytes := by
  rw [decode, filterMap_encode, ofDigits_digits]

theorem length_lt_two {ds : List Nat} (h4 : ∀ w x y z rest, ds = w :: x :: y :: z :: rest → False)
    (h3 : ∀ w x y, ds = [w, x, y] → False) (h2 : ∀ w x, ds = [w, x] → False) : ds.length < 2 := by
  match ds, h4, h3, h2 with
  | [], _, _, _ => decide
  | [w], _, _, _ => exact Nat.lt_succ_self 1
  | [w, x], _, _, h2 => exact (h2 w x rfl).elim
  | [w, x, y], _, h3, _ => exact (h3 w x y rfl).elim
  | w :: x :: y :: z :: rest, h4, _, _ => exact (h4 w x y z rest rfl).elim

theorem ofDigits_of_short {ds : List Nat} (h : ds.length < 2) : ofDigits ds = [] := by
  match ds, h with
  | [], _ => rfl
  | [w], _ => rfl

theorem length_ofDigits (ds : List Nat) : (ofDigits ds).length = ds.length * 3 / 4 := by
  induction ds using ofDigits.induct with
  | case1 w x y z rest ih =>
    rw [ofDigits, List.length_cons, List.length_cons, List.length_cons, ih, List.length_cons,
      List.length_cons, List.length_cons, List.length_cons]
    omega
  | case2 w x y => simp [ofDigits]
  | case3 w x => simp [ofDigits]
  | case4 ds h4 h3 h2 =>
    have hlen := length_lt_two h4 h3 h2
    rw [ofDigits_of_short hlen, List.length_nil]
    omega

/-! ## Digits that are decimal -/

/-- Bytes of digits that stand for decimal digits are large, the first of them most. -/
theorem ofDigits_of_decimal {ds : List Nat} (h : ∀ n ∈ ds, 52 ≤ n ∧ n ≤ 61) :
    (∀ b ∈ ofDigits ds, 52 ≤ b.toNat) ∧ ∀ b ∈ (ofDigits ds).head?, 208 ≤ b.toNat := by
  have hfirst : ∀ w x, (52 ≤ w ∧ w ≤ 61) → (52 ≤ x ∧ x ≤ 61) → 208 ≤ (UInt8.ofNat (w * 4 + x / 16)).toNat :=
    fun w x hw hx => by
      rw [UInt8.toNat_ofNat']
      omega
  have hsecond : ∀ x y, (52 ≤ x ∧ x ≤ 61) → (52 ≤ y ∧ y ≤ 61) →
      52 ≤ (UInt8.ofNat (x % 16 * 16 + y / 4)).toNat := fun x y hx hy => by
    rw [UInt8.toNat_ofNat']
    omega
  have hthird : ∀ y z, (52 ≤ z ∧ z ≤ 61) → 52 ≤ (UInt8.ofNat (y % 4 * 64 + z)).toNat := fun y z hz => by
    rw [UInt8.toNat_ofNat']
    omega
  induction ds using ofDigits.induct with
  | case1 w x y z rest ih =>
    simp only [List.forall_mem_cons] at h
    obtain ⟨hw, hx, hy, hz, hrest⟩ := h
    have h1 := hfirst w x hw hx
    simp only [ofDigits, List.forall_mem_cons, List.head?_cons, Option.mem_some_iff, forall_eq']
    exact ⟨⟨by omega, hsecond x y hx hy, hthird y z hz, (ih hrest).1⟩, h1⟩
  | case2 w x y =>
    simp only [List.forall_mem_cons] at h
    obtain ⟨hw, hx, hy, -⟩ := h
    have h1 := hfirst w x hw hx
    simp only [ofDigits, List.forall_mem_cons, List.head?_cons, Option.mem_some_iff, forall_eq']
    exact ⟨⟨by omega, hsecond x y hx hy, by simp⟩, h1⟩
  | case3 w x =>
    simp only [List.forall_mem_cons] at h
    obtain ⟨hw, hx, -⟩ := h
    have h1 := hfirst w x hw hx
    simp only [ofDigits, List.forall_mem_cons, List.head?_cons, Option.mem_some_iff, forall_eq']
    exact ⟨⟨by omega, by simp⟩, h1⟩
  | case4 ds h4 h3 h2 =>
    rw [ofDigits_of_short (length_lt_two h4 h3 h2)]
    exact ⟨by simp, by simp⟩

end Lib.Base64
