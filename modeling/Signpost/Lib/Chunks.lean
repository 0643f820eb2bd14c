/-
A list in pieces of one size, the last of which may be shorter.

Put together again they are the list, and of two lists in a row each has its own
pieces if the first fills them.
-/
import Mathlib.Data.List.Basic

namespace Lib

variable {α : Type} {n : Nat} {xs ys : List α}

def chunks (n : Nat) (xs : List α) : List (List α) :=
  if _h : 0 < n ∧ 0 < xs.length then xs.take n :: chunks n (xs.drop n) else []
termination_by xs.length
decreasing_by
  rw [List.length_drop]
  omega

@[simp] theorem chunks_nil : chunks n ([] : List α) = [] := by
  rw [chunks, dif_neg (by simp)]

theorem chunks_of_pos (hn : 0 < n) (hxs : xs ≠ []) : chunks n xs = xs.take n :: chunks n (xs.drop n) := by
  rw [chunks, dif_pos ⟨hn, List.length_pos_iff.mpr hxs⟩]

theorem chunks_of_le (hn : 0 < n) (hxs : xs ≠ []) (hle : xs.length ≤ n) : chunks n xs = [xs] := by
  rw [chunks_of_pos hn hxs, List.take_of_length_le hle, List.drop_eq_nil_of_le hle, chunks_nil]

theorem flatten_chunks (hn : 0 < n) : (chunks n xs).flatten = xs := by
  induction hlen : xs.length using Nat.strongRecOn generalizing xs with
  | ind k ih =>
    by_cases hxs : xs = []
    · rw [hxs, chunks_nil, List.flatten_nil]
    · have hpos := List.length_pos_iff.mpr hxs
      rw [chunks_of_pos hn hxs, List.flatten_cons, ih (xs.drop n).length _ rfl, List.take_append_drop]
      rw [List.length_drop]
      omega

theorem chunks_append (hn : 0 < n) (hxs : n ∣ xs.length) : chunks n (xs ++ ys) = chunks n xs ++ chunks n ys := by
  induction hlen : xs.length using Nat.strongRecOn generalizing xs with
  | ind k ih =>
    by_cases hnil : xs = []
    · rw [hnil, chunks_nil, List.nil_append, List.nil_append]
    · have hpos := List.length_pos_iff.mpr hnil
      have hle : n ≤ xs.length := Nat.le_of_dvd hpos hxs
      have hrest : n ∣ (xs.drop n).length := by
        rw [List.length_drop]
        exact Nat.dvd_sub hxs (Nat.dvd_refl n)
      have hlt : (xs.drop n).length < k := by
        rw [List.length_drop]
        omega
      rw [chunks_of_pos hn (by simp [hnil]), chunks_of_pos hn hnil, List.take_append_of_le_length hle,
        List.drop_append_of_le_length hle, ih _ hlt hrest rfl, List.cons_append]

end Lib
