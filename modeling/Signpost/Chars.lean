/-
Characters in memory, as `strnlen` and `strncpy` see them: up to the first zero,
and as many as they are told.

The lemmas say when copying and measuring agree: a string with a zero in it is
copied up to there and padded, one without is copied as far as it goes and not
ended.
-/
import Mathlib.Data.List.TakeWhile
import Signpost.Packet

namespace Signpost

open Lib

/-- The characters at `m` before the first zero, at most `n`. -/
def strn (m : Mem UInt8) (n : Nat) : Bytes := (m.read 0 n).takeWhile (· ≠ 0)

def strnlen (m : Mem UInt8) (n : Nat) : Nat := (strn m n).length

/-- What `strncpy` leaves of the characters at `m` in a field of `n`. -/
def strncpy (m : Mem UInt8) (n : Nat) : Bytes := strn m n ++ List.replicate (n - strnlen m n) 0

theorem ne_zero_of_not_mem {name : Bytes} (hzero : 0 ∉ name) : ∀ c ∈ name, decide (c ≠ 0) = true := by
  intro c hc
  rw [decide_eq_true_iff]
  rintro rfl
  exact hzero hc

theorem length_strn_le (m : Mem UInt8) (n : Nat) : (strn m n).length ≤ n := by
  have h := (List.takeWhile_sublist (l := m.read 0 n) (· ≠ 0)).length_le
  rwa [Mem.length_read] at h

theorem zero_not_mem_strn (m : Mem UInt8) (n : Nat) : 0 ∉ strn m n := by
  intro h
  simpa using List.mem_takeWhile_imp h

theorem strn_append_zero {m : Mem UInt8} {name : Bytes} {n : Nat} (hzero : 0 ∉ name)
    (hlen : name.length < n) (hread : m.read 0 (name.length + 1) = name ++ [0]) : strn m n = name := by
  obtain ⟨k, rfl⟩ : ∃ k, n = name.length + 1 + k := ⟨n - (name.length + 1), by omega⟩
  rw [strn, Mem.read_add, hread, List.append_assoc, List.takeWhile_append_of_pos (ne_zero_of_not_mem hzero)]
  simp

theorem strn_full {m : Mem UInt8} {name : Bytes} {n : Nat} (hzero : 0 ∉ name)
    (hread : m.read 0 n = name) : strn m n = name := by
  rw [strn, hread, List.takeWhile_eq_self_iff]
  exact ne_zero_of_not_mem hzero

theorem length_strncpy (m : Mem UInt8) (n : Nat) : (strncpy m n).length = n := by
  have := length_strn_le m n
  rw [strncpy, List.length_append, List.length_replicate, strnlen]
  omega

theorem takeWhile_strncpy (m : Mem UInt8) (n : Nat) : (strncpy m n).takeWhile (· ≠ 0) = strn m n := by
  rw [strncpy, List.takeWhile_append_of_pos (ne_zero_of_not_mem (zero_not_mem_strn m n))]
  cases n - strnlen m n <;> simp [List.replicate_succ]

theorem strn_of_strncpy {m m' : Mem UInt8} {n : Nat} (hread : m'.read 0 n = strncpy m n) :
    strn m' n = strn m n := by
  rw [strn, hread, takeWhile_strncpy]

end Signpost
