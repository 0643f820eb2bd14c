/-
Rounding to numbers of so many binary places: to the nearest one, and to the one that
ends in an even digit where two are as near (a `double` has 53 places).

The exponent is not bounded, which is right for what is neither so large that a
`double` has no room for it nor so small that it loses places. A rounded number is off by
at most half its last place, so by a part of itself that the places give; whole numbers
that fit in the places stay what they are. `floor_near` turns such a bound into what a
conversion to an integer makes of a quotient: its floor, or, where the quotient is a
whole number, perhaps one less.
-/
import Mathlib.Data.Int.Log
import Mathlib.Data.Rat.Floor
import Mathlib.Tactic.FieldSimp
import Mathlib.Tactic.Linarith
import Mathlib.Tactic.Positivity
import Mathlib.Tactic.Ring

namespace Lib

namespace Floats

/-! ## Whole numbers -/

/-- The nearest whole number, and the even one of two that are as near. -/
def nearest (x : ℚ) : ℤ :=
  if Int.fract x < 1 / 2 ∨ (Int.fract x = 1 / 2 ∧ ⌊x⌋ % 2 = 0) then ⌊x⌋ else ⌊x⌋ + 1

theorem abs_nearest_sub_le (x : ℚ) : |(nearest x : ℚ) - x| ≤ 1 / 2 := by
  have hfract := Int.fract_add_floor x
  have hpos := Int.fract_nonneg x
  have hlt := Int.fract_lt_one x
  rw [abs_le, nearest]
  split
  · next h =>
    have hle : Int.fract x ≤ 1 / 2 := h.elim le_of_lt fun h => le_of_eq h.1
    constructor <;> linarith
  · next h =>
    have hge : 1 / 2 ≤ Int.fract x := not_lt.mp fun hlt => h (.inl hlt)
    push_cast
    constructor <;> linarith

theorem nearest_intCast (n : ℤ) : nearest n = n := by
  rw [nearest, Int.fract_intCast, Int.floor_intCast, if_pos (.inl (by norm_num))]

/-! ## Numbers with so many places -/

section
variable (p : ℕ) (x : ℚ)

/-- What the last of so many places counts, the first being that of the number. -/
def lastPlace : ℚ := 2 ^ (Int.log 2 |x| + 1 - p)

/-- The nearest number of so many places. -/
def roundTo : ℚ := nearest (x / lastPlace p x) * lastPlace p x

theorem lastPlace_pos : 0 < lastPlace p x := zpow_pos (by norm_num) _

theorem lastPlace_le (hx : x ≠ 0) : lastPlace p x ≤ 2 * |x| / 2 ^ p := by
  have hlog : (2 : ℚ) ^ Int.log 2 |x| ≤ |x| := by
    exact_mod_cast Int.zpow_log_le_self (by norm_num : 1 < 2) (abs_pos.mpr hx)
  rw [lastPlace, zpow_sub₀ (by norm_num), zpow_add_one₀ (by norm_num), zpow_natCast, mul_comm _ (2 : ℚ)]
  gcongr

theorem abs_roundTo_sub_le : |roundTo p x - x| ≤ |x| / 2 ^ p := by
  by_cases hx : x = 0
  · subst hx
    have hzero : roundTo p 0 = 0 := by rw [roundTo, zero_div, show nearest 0 = 0 from nearest_intCast 0]; simp
    simp [hzero]
  · have hpos := lastPlace_pos p x
    have hoff : roundTo p x - x = (nearest (x / lastPlace p x) - x / lastPlace p x) * lastPlace p x := by
      rw [roundTo, sub_mul, div_mul_cancel₀ x hpos.ne']
    calc |roundTo p x - x| = |(nearest (x / lastPlace p x) : ℚ) - x / lastPlace p x| * lastPlace p x := by
          rw [hoff, abs_mul, abs_of_pos hpos]
      _ ≤ 1 / 2 * (2 * |x| / 2 ^ p) := by
          gcongr
          · exact abs_nearest_sub_le _
          · exact lastPlace_le p x hx
      _ = |x| / 2 ^ p := by ring

end

section
variable {p : ℕ}

theorem roundTo_zero : roundTo p 0 = 0 := by
  simpa using abs_roundTo_sub_le p 0

theorem roundTo_natCast {n : ℕ} (h : n < 2 ^ p) : roundTo p n = n := by
  rcases Nat.eq_zero_or_pos n with rfl | hpos
  · exact_mod_cast roundTo_zero
  · have hlog : Nat.log 2 n + 1 ≤ p := Nat.log_lt_of_lt_pow hpos.ne' h
    have hplace : lastPlace p n = ((2 : ℚ) ^ (p - (Nat.log 2 n + 1)))⁻¹ := by
      rw [lastPlace, Nat.abs_cast, Int.log_natCast, ← zpow_natCast, ← zpow_neg, Nat.cast_sub hlog]
      congr 1
      push_cast
      ring
    have hwhole : (n : ℚ) / lastPlace p n = ((n * 2 ^ (p - (Nat.log 2 n + 1)) : ℤ) : ℚ) := by
      rw [hplace, div_inv_eq_mul]
      push_cast
      rfl
    rw [roundTo, hwhole, nearest_intCast, ← hwhole, div_mul_cancel₀ _ (lastPlace_pos p n).ne']

/-- What is rounded, multiplied and rounded again is off by no more than three last places
of the product. -/
theorem abs_roundTo_mul_sub_le (x c : ℚ) : |roundTo p (roundTo p x * c) - x * c| ≤ 3 * |x * c| / 2 ^ p := by
  have hone : (1 : ℚ) ≤ 2 ^ p := one_le_pow₀ (by norm_num)
  have hpos : (0 : ℚ) < 2 ^ p := by positivity
  have hfirst : |roundTo p x * c - x * c| ≤ |x * c| / 2 ^ p := by
    rw [← sub_mul, abs_mul, abs_mul, mul_div_right_comm]
    exact mul_le_mul_of_nonneg_right (abs_roundTo_sub_le p x) (abs_nonneg c)
  have hproduct : |roundTo p x * c| ≤ 2 * |x * c| := by
    have hle : |x * c| / 2 ^ p ≤ |x * c| := div_le_self (abs_nonneg _) hone
    have htriangle := abs_sub_abs_le_abs_sub (roundTo p x * c) (x * c)
    linarith
  calc |roundTo p (roundTo p x * c) - x * c|
      ≤ |roundTo p (roundTo p x * c) - roundTo p x * c| + |roundTo p x * c - x * c| := abs_sub_le ..
    _ ≤ |roundTo p x * c| / 2 ^ p + |x * c| / 2 ^ p := add_le_add (abs_roundTo_sub_le p _) hfirst
    _ ≤ 2 * |x * c| / 2 ^ p + |x * c| / 2 ^ p := by gcongr
    _ = 3 * |x * c| / 2 ^ p := by ring

end

/-! ## Floors -/

/-- Of what is nearer to a quotient than the denominator allows for, the floor is that of
the quotient, or one less where this is a whole number. -/
theorem floor_near {a f : ℕ} {y : ℚ} (hf : 0 < f) (h : |y - a / f| < 1 / f) :
    ⌊y⌋₊ ≤ a / f ∧ a / f ≤ ⌊y⌋₊ + 1 ∧ (¬ f ∣ a → ⌊y⌋₊ = a / f) := by
  have hfpos : (0 : ℚ) < f := by exact_mod_cast hf
  obtain ⟨hlow, hhigh⟩ := abs_lt.mp h
  have hsplit : (f : ℚ) * (a / f : ℕ) + (a % f : ℕ) = a := by exact_mod_cast Nat.div_add_mod a f
  have hrest : ((a % f : ℕ) : ℚ) + 1 ≤ f := by exact_mod_cast Nat.mod_lt a hf
  have hscaled : (y - a / f) * f = y * f - a := by rw [sub_mul, div_mul_cancel₀ _ hfpos.ne']
  have hlow' : (a : ℚ) - 1 < y * f := by
    have hmul := mul_lt_mul_of_pos_right hlow hfpos
    rw [hscaled, neg_mul, one_div_mul_cancel hfpos.ne'] at hmul
    linarith
  have hhigh' : y * f < a + 1 := by
    have hmul := mul_lt_mul_of_pos_right hhigh hfpos
    rw [hscaled, one_div_mul_cancel hfpos.ne'] at hmul
    linarith
  have hupper : ⌊y⌋₊ ≤ a / f := by
    refine Nat.lt_succ_iff.mp ((Nat.floor_lt' (Nat.succ_ne_zero _)).mpr ?_)
    rw [Nat.cast_succ]
    exact lt_of_mul_lt_mul_right (by linarith) hfpos.le
  have hlower : a / f ≤ ⌊y⌋₊ + 1 := by
    cases hq : a / f with
    | zero => exact Nat.zero_le _
    | succ q =>
      have hone : (1 : ℚ) ≤ f := by exact_mod_cast hf
      have hrest_nonneg : (0 : ℚ) ≤ (a % f : ℕ) := Nat.cast_nonneg _
      rw [hq, Nat.cast_succ, mul_add, mul_one] at hsplit
      exact Nat.succ_le_succ (Nat.le_floor (le_of_mul_le_mul_right (by linarith) hfpos))
  refine ⟨hupper, hlower, fun hdvd => Nat.le_antisymm hupper (Nat.le_floor ?_)⟩
  have hpos : (1 : ℚ) ≤ (a % f : ℕ) := by exact_mod_cast Nat.pos_of_ne_zero (mt Nat.dvd_of_mod_eq_zero hdvd)
  exact le_of_mul_le_mul_right (by linarith) hfpos

end Floats

end Lib
