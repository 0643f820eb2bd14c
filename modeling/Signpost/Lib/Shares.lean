/-
Shares of an amount in proportion to counts, rounded down.

Shares made with some counts are those of others, with a total of their own, for
every amount exactly if the counts are in proportion. One amount is enough to
tell: the sum of the first counts, of which every share is the count itself.

Rounding down loses less than one for each share, so the sum of the shares is at
most the amount.
-/
import Mathlib.Algebra.BigOperators.Ring.List
import Mathlib.Algebra.Order.BigOperators.Group.List
import Mathlib.Algebra.Order.Ring.Nat
import Mathlib.Data.List.Nodup

namespace Lib

namespace Shares

/-- The share of a count in a total. -/
def share (amount count total : Nat) : Nat := amount * count / total

section
variable {ι : Type} {l : List ι}

theorem sum_div_le (f : ι → Nat) (c : Nat) : (l.map fun i => f i / c).sum ≤ (l.map f).sum / c := by
  induction l with
  | nil => simp
  | cons i l ih =>
    simp only [List.map_cons, List.sum_cons]
    calc f i / c + (l.map fun i => f i / c).sum ≤ f i / c + (l.map f).sum / c := Nat.add_le_add_left ih _
      _ ≤ (f i + (l.map f).sum) / c := Nat.div_add_div_le_add_div

theorem sum_share_le (amount : Nat) (count : ι → Nat) :
    (l.map fun i => share amount (count i) (l.map count).sum).sum ≤ amount := by
  have hsum : (l.map fun i => amount * count i).sum = amount * (l.map count).sum := List.sum_map_mul_left ..
  refine Nat.le_trans (sum_div_le (fun i => amount * count i) _) ?_
  rw [hsum]
  exact Nat.div_le_of_le_mul (Nat.le_of_eq (Nat.mul_comm ..))

theorem eq_of_sum_le {f g : ι → Nat} (hle : ∀ i ∈ l, f i ≤ g i) (hsum : (l.map g).sum ≤ (l.map f).sum) :
    ∀ i ∈ l, f i = g i := by
  induction l with
  | nil => simp
  | cons j l ih =>
    obtain ⟨hfirst, hrest⟩ := List.forall_mem_cons.mp hle
    have hrestSum : (l.map f).sum ≤ (l.map g).sum := List.sum_le_sum hrest
    simp only [List.map_cons, List.sum_cons] at hsum
    refine List.forall_mem_cons.mpr ⟨by omega, ih hrest (by omega)⟩

end

section
variable {c n N C amount : Nat}

theorem share_eq_of_proportional (hC : C ≠ 0) (hN : N ≠ 0) (h : n * C = c * N) :
    share amount c C = share amount n N := by
  have hcross : amount * c * N = amount * n * C := by rw [Nat.mul_assoc, Nat.mul_assoc, h]
  calc amount * c / C = amount * c * N / (C * N) := (Nat.mul_div_mul_right _ _ (Nat.pos_of_ne_zero hN)).symm
    _ = amount * n * C / (N * C) := by rw [hcross, Nat.mul_comm C N]
    _ = amount * n / N := Nat.mul_div_mul_right _ _ (Nat.pos_of_ne_zero hC)

end

section
variable {ι : Type} {l : List ι} {c n : ι → Nat} {N : Nat}

/-- Where the shares of the sum of the counts are right, the counts are in proportion. -/
theorem proportional_of_share_eq (hC : (l.map c).sum ≠ 0) (hsum : (l.map n).sum ≤ N)
    (h : ∀ i ∈ l, share (l.map c).sum (c i) (l.map c).sum = share (l.map c).sum (n i) N) :
    ∀ i ∈ l, n i * (l.map c).sum = c i * N := by
  obtain ⟨C, hCeq⟩ : ∃ C, C = (l.map c).sum := ⟨_, rfl⟩
  rw [← hCeq] at hC h ⊢
  have hself : ∀ i ∈ l, c i = C * n i / N := fun i hi => by
    rw [← show share C (n i) N = C * n i / N from rfl, ← h i hi, share,
      Nat.mul_div_cancel_left _ (Nat.pos_of_ne_zero hC)]
  have hN : N ≠ 0 := by
    rintro rfl
    refine hC (hCeq.trans (List.sum_eq_zero fun x hx => ?_))
    obtain ⟨i, hi, rfl⟩ := List.mem_map.mp hx
    rw [hself i hi, Nat.div_zero]
  have hle : ∀ i ∈ l, c i * N ≤ n i * C := fun i hi => by
    rw [Nat.mul_comm (n i)]
    exact (Nat.le_div_iff_mul_le (Nat.pos_of_ne_zero hN)).mp (Nat.le_of_eq (hself i hi))
  have hsums : (l.map fun i => n i * C).sum ≤ (l.map fun i => c i * N).sum := by
    rw [List.sum_map_mul_right, List.sum_map_mul_right, ← hCeq, Nat.mul_comm C]
    exact Nat.mul_le_mul_right C hsum
  exact fun i hi => (eq_of_sum_le hle hsums i hi).symm

end

/-! ## Counts of kinds -/

section
variable {κ : Type} [DecidableEq κ] {kinds : List κ}

theorem sum_ite_eq (kinds : List κ) (x : κ) : (kinds.map fun a => if x = a then 1 else 0).sum = kinds.count x := by
  induction kinds with
  | nil => rfl
  | cons a kinds ih =>
    rw [List.map_cons, List.sum_cons, ih, List.count_cons, Nat.add_comm]
    simp only [beq_iff_eq, @eq_comm κ a x]

/-- Things of different kinds, of which none is left out, are no more than there are. -/
theorem sum_count_le (hnodup : kinds.Nodup) {p : κ → Bool} (hkinds : ∀ a ∈ kinds, p a) (xs : List κ) :
    (kinds.map fun a => xs.count a).sum ≤ xs.countP p := by
  induction xs with
  | nil => simp
  | cons x xs ih =>
    have hcount : (kinds.map fun a => (x :: xs).count a) = kinds.map fun a => xs.count a + if x = a then 1 else 0 := by
      simp [List.count_cons]
    rw [hcount, List.sum_map_add, sum_ite_eq, List.countP_cons]
    refine Nat.add_le_add ih ?_
    by_cases hx : x ∈ kinds
    · rw [if_pos (hkinds x hx)]
      exact List.nodup_iff_count_le_one.mp hnodup x
    · rw [List.count_eq_zero.mpr hx]
      exact Nat.zero_le _

end

end Shares

end Lib
