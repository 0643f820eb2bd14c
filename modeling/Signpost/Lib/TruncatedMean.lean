/-
The mean of integers as a machine divides, towards zero: over a list, and over the means of its
parts. By the rounding a mean comes no farther from zero, so its square is not above the mean of the squares.

So a deviation that is computed from such means has nothing negative under its root.
-/
import Mathlib.Algebra.Order.BigOperators.Group.List
import Mathlib.Algebra.Order.Ring.Int
import Mathlib.Algebra.Order.Ring.Nat
import Mathlib.Algebra.Order.Ring.Unbundled.Basic
import Mathlib.Algebra.GroupWithZero.Nat
import Mathlib.Algebra.Ring.Int.Defs

namespace Lib.TruncatedMean

def mean (xs : List Int) : Int := xs.sum.tdiv xs.length

def magnitude (xs : List Int) : Nat := (xs.map Int.natAbs).sum

def squares (xs : List Int) : Nat := (xs.map fun x => x.natAbs ^ 2).sum

variable {xs ys : List Int} {groups : List (List Int)} {k m : Nat} {lo hi : Int}

@[simp] theorem magnitude_cons (x : Int) : magnitude (x :: xs) = x.natAbs + magnitude xs := List.sum_cons

@[simp] theorem magnitude_append : magnitude (xs ++ ys) = magnitude xs + magnitude ys := by
  rw [magnitude, List.map_append, List.sum_append, magnitude, magnitude]

@[simp] theorem squares_nil : squares [] = 0 := rfl

@[simp] theorem squares_cons (x : Int) : squares (x :: xs) = x.natAbs ^ 2 + squares xs := List.sum_cons

@[simp] theorem squares_append : squares (xs ++ ys) = squares xs + squares ys := by
  rw [squares, List.map_append, List.sum_append, squares, squares]

/-! ## Rounding -/

theorem natAbs_sum_le : xs.sum.natAbs ≤ magnitude xs := by
  induction xs with
  | nil => exact Nat.le_refl 0
  | cons x xs ih =>
    rw [List.sum_cons, magnitude_cons]
    exact Nat.le_trans (Int.natAbs_add_le ..) (Nat.add_le_add_left ih _)

theorem natAbs_mean_mul_le : (mean xs).natAbs * xs.length ≤ magnitude xs := by
  rw [mean, Int.natAbs_tdiv, Int.natAbs_natCast]
  exact Nat.le_trans (Nat.div_mul_le_self ..) natAbs_sum_le

theorem magnitude_means_mul_le (h : ∀ g ∈ groups, g.length = k) :
    magnitude (groups.map mean) * k ≤ magnitude groups.flatten := by
  induction groups with
  | nil => exact Nat.le_of_eq (Nat.zero_mul k)
  | cons g groups ih =>
    obtain ⟨hlength, hrest⟩ := List.forall_mem_cons.mp h
    rw [List.map_cons, magnitude_cons, List.flatten_cons, magnitude_append, Nat.add_mul]
    exact Nat.add_le_add (hlength ▸ natAbs_mean_mul_le) (ih hrest)

theorem length_flatten (h : ∀ g ∈ groups, g.length = k) : groups.flatten.length = groups.length * k := by
  rw [List.length_flatten, List.map_congr_left h, List.map_const', List.sum_replicate, Nat.nsmul_eq_mul]

/-! ## Squares -/

theorem two_mul_magnitude_le (xs : List Int) (m : Nat) :
    2 * m * magnitude xs ≤ squares xs + xs.length * m ^ 2 := by
  induction xs with
  | nil => exact Nat.zero_le _
  | cons x xs ih =>
    have hsquare : 2 * m * x.natAbs ≤ m ^ 2 + x.natAbs ^ 2 := two_mul_le_add_sq m x.natAbs
    rw [magnitude_cons, squares_cons, List.length_cons, Nat.mul_add, Nat.add_mul, Nat.one_mul]
    omega

/-- What is no farther from zero than the numbers are on the average has a square not above theirs. -/
theorem mul_sq_le_squares (h : m * xs.length ≤ magnitude xs) : xs.length * m ^ 2 ≤ squares xs := by
  have htwice : 2 * (xs.length * m ^ 2) ≤ squares xs + xs.length * m ^ 2 := calc
    2 * (xs.length * m ^ 2) = 2 * m * (m * xs.length) := by
      rw [Nat.pow_two, Nat.mul_assoc, Nat.mul_comm xs.length, Nat.mul_assoc]
    _ ≤ 2 * m * magnitude xs := Nat.mul_le_mul_left _ h
    _ ≤ squares xs + xs.length * m ^ 2 := two_mul_magnitude_le xs m
  omega

theorem sq_mean_means_le (h : ∀ g ∈ groups, g.length = k) (hpos : 0 < groups.length * k) :
    (mean (groups.map mean)).natAbs ^ 2 ≤ squares groups.flatten / (groups.length * k) := by
  have hlength := length_flatten h
  have hmagnitude : (mean (groups.map mean)).natAbs * groups.flatten.length ≤ magnitude groups.flatten := calc
    (mean (groups.map mean)).natAbs * groups.flatten.length
      = (mean (groups.map mean)).natAbs * (groups.map mean).length * k := by
        rw [hlength, List.length_map, Nat.mul_assoc]
    _ ≤ magnitude (groups.map mean) * k := Nat.mul_le_mul_right _ natAbs_mean_mul_le
    _ ≤ magnitude groups.flatten := magnitude_means_mul_le h
  rw [Nat.le_div_iff_mul_le hpos, Nat.mul_comm, ← hlength]
  exact mul_sq_le_squares hmagnitude

/-! ## Ranges -/

theorem le_sum (h : ∀ x ∈ xs, lo ≤ x) : lo * xs.length ≤ xs.sum := by
  have hsum := List.card_nsmul_le_sum xs lo h
  rwa [nsmul_eq_mul, Int.mul_comm] at hsum

theorem sum_le (h : ∀ x ∈ xs, x ≤ hi) : xs.sum ≤ hi * xs.length := by
  have hsum := List.sum_le_card_nsmul xs hi h
  rwa [nsmul_eq_mul, Int.mul_comm] at hsum

theorem le_mean (h : ∀ x ∈ xs, lo ≤ x) (hne : xs ≠ []) : lo ≤ mean xs :=
  Int.le_tdiv_of_mul_le (Int.natCast_pos.mpr (List.length_pos_iff.mpr hne)) (le_sum h)

theorem mean_le (h : ∀ x ∈ xs, x ≤ hi) (hne : xs ≠ []) : mean xs ≤ hi := by
  have hneg : -hi ≤ (-xs.sum).tdiv xs.length := by
    refine Int.le_tdiv_of_mul_le (Int.natCast_pos.mpr (List.length_pos_iff.mpr hne)) ?_
    rw [Int.neg_mul]
    exact Int.neg_le_neg (sum_le h)
  rw [Int.neg_tdiv] at hneg
  exact Int.le_of_neg_le_neg hneg

theorem le_mean_means (h : ∀ g ∈ groups, g ≠ [] ∧ ∀ x ∈ g, lo ≤ x) (hne : groups ≠ []) :
    lo ≤ mean (groups.map mean) := by
  refine le_mean (fun y hy => ?_) (mt List.map_eq_nil_iff.mp hne)
  obtain ⟨g, hg, rfl⟩ := List.mem_map.mp hy
  exact le_mean (h g hg).2 (h g hg).1

theorem mean_means_le (h : ∀ g ∈ groups, g ≠ [] ∧ ∀ x ∈ g, x ≤ hi) (hne : groups ≠ []) :
    mean (groups.map mean) ≤ hi := by
  refine mean_le (fun y hy => ?_) (mt List.map_eq_nil_iff.mp hne)
  obtain ⟨g, hg, rfl⟩ := List.mem_map.mp hy
  exact mean_le (h g hg).2 (h g hg).1

theorem squares_le (h : ∀ x ∈ xs, -(m : Int) ≤ x ∧ x < m) : squares xs ≤ xs.length * m ^ 2 := by
  have hsquare : ∀ y ∈ xs.map fun x => x.natAbs ^ 2, y ≤ m ^ 2 := fun y hy => by
    obtain ⟨x, hx, rfl⟩ := List.mem_map.mp hy
    exact Nat.pow_le_pow_left (by have := h x hx; omega) 2
  have hsum := List.sum_le_card_nsmul _ _ hsquare
  rwa [List.length_map, nsmul_eq_mul] at hsum

/-- The squares are at their highest where all numbers are the lowest. -/
theorem squares_lt (h : ∀ x ∈ xs, -(m : Int) ≤ x ∧ x < m) (hne : ∃ x ∈ xs, x ≠ -(m : Int)) :
    squares xs < xs.length * m ^ 2 := by
  obtain ⟨x, hx, hxm⟩ := hne
  obtain ⟨before, after, rfl⟩ := List.append_of_mem hx
  have hbefore := squares_le fun y hy => h y (List.mem_append_left _ hy)
  have hafter := squares_le fun y hy => h y (List.mem_append_right _ (List.mem_cons_of_mem _ hy))
  have hsquare : x.natAbs ^ 2 < m ^ 2 := Nat.pow_lt_pow_left (by have := h x hx; omega) (by decide)
  rw [squares_append, squares_cons, List.length_append, List.length_cons, Nat.add_mul, Nat.succ_mul]
  omega

/-- The mean of the squares less the square of the mean is below the square of what no number reaches. -/
theorem squares_sub_sq_lt (h : ∀ g ∈ groups, g.length = k) (hpos : 0 < groups.length * k)
    (hrange : ∀ g ∈ groups, ∀ x ∈ g, -(m : Int) ≤ x ∧ x < m) :
    squares groups.flatten / (groups.length * k) - (mean (groups.map mean)).natAbs ^ 2 < m ^ 2 := by
  have hlength := length_flatten h
  have hflat : ∀ x ∈ groups.flatten, -(m : Int) ≤ x ∧ x < m := fun x hx => by
    obtain ⟨g, hg, hxg⟩ := List.mem_flatten.mp hx
    exact hrange g hg x hxg
  have hm : 0 < m := by
    obtain ⟨x, hx⟩ := List.exists_mem_of_length_pos (hlength ▸ hpos)
    have := hflat x hx
    omega
  by_cases hne : ∃ x ∈ groups.flatten, x ≠ -(m : Int)
  · have hlt := squares_lt hflat hne
    rw [hlength] at hlt
    exact Nat.lt_of_le_of_lt (Nat.sub_le ..) (Nat.div_lt_of_lt_mul hlt)
  · have hall : ∀ g ∈ groups, ∀ x ∈ g, x = -(m : Int) := fun g hg x hx => by
      by_contra hxm
      exact hne ⟨x, List.mem_flatten.mpr ⟨g, hg, hx⟩, hxm⟩
    have hgroups : groups ≠ [] := fun hnil => by
      rw [hnil, List.length_nil, Nat.zero_mul] at hpos
      exact absurd hpos (Nat.lt_irrefl 0)
    have hne : ∀ g ∈ groups, g ≠ [] := fun g hg hnil => by
      rw [← h g hg, hnil, List.length_nil, Nat.mul_zero] at hpos
      exact absurd hpos (Nat.lt_irrefl 0)
    have hmean : mean (groups.map mean) = -(m : Int) := Int.le_antisymm
      (mean_means_le (fun g hg => ⟨hne g hg, fun x hx => Int.le_of_eq (hall g hg x hx)⟩) hgroups)
      (le_mean_means (fun g hg => ⟨hne g hg, fun x hx => Int.le_of_eq (hall g hg x hx).symm⟩) hgroups)
    have hle : squares groups.flatten / (groups.length * k) ≤ m ^ 2 :=
      Nat.div_le_of_le_mul (hlength ▸ squares_le hflat)
    rw [hmean, Int.natAbs_neg, Int.natAbs_natCast, Nat.sub_eq_zero_of_le hle]
    exact Nat.pow_pos hm

end Lib.TruncatedMean
