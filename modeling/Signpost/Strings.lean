/-
Strings of C in bytes: up to the first zero, as `strncmp` compares them, and where
`memchr` finds a byte.

They are about the functions as the library documents them, and used wherever
names are compared: in the controller's table, on a card and in the topics of
the radio.
-/
import Signpost.Chars
import Signpost.Controller

namespace Signpost

open Lib

/-- The string that bytes start with. -/
def cstr (b : Bytes) : Bytes := b.takeWhile (· ≠ 0)

theorem length_cstr_le (b : Bytes) : (cstr b).length ≤ b.length := (List.takeWhile_sublist _).length_le

theorem cstr_zero_cons (b : Bytes) : cstr (0 :: b) = [] := rfl

theorem cstr_cons {x : UInt8} (hx : x ≠ 0) (b : Bytes) : cstr (x :: b) = x :: cstr b :=
  List.takeWhile_cons_of_pos (by simpa using hx)

theorem cstr_cstr (b : Bytes) : cstr (cstr b) = cstr b := by
  induction b with
  | nil => rfl
  | cons x b ih =>
    by_cases hx : x = 0
    · subst hx
      rfl
    · rw [cstr_cons hx, cstr_cons hx, ih]

theorem cstr_eq_self {b : Bytes} (h : b.length ≤ (cstr b).length) : cstr b = b :=
  (List.takeWhile_prefix _).eq_of_length_le h

theorem cstr_eq_nil_iff {b : Bytes} : cstr b = [] ↔ b.headD 0 = 0 := by
  cases b with
  | nil => exact iff_of_true rfl rfl
  | cons x b =>
    by_cases hx : x = 0
    · subst hx
      exact iff_of_true rfl rfl
    · rw [cstr_cons hx]
      exact iff_of_false (List.cons_ne_nil _ _) hx

theorem zero_notMem_cstr (b : Bytes) : 0 ∉ cstr b := fun h => by
  have hall := List.all_eq_true.mp List.all_takeWhile 0 h
  simp at hall

theorem cstr_append {a : Bytes} (ha : 0 ∉ a) (b : Bytes) : cstr (a ++ b) = a ++ cstr b := by
  induction a with
  | nil => rfl
  | cons x a ih =>
    obtain ⟨hx, ha⟩ := not_or.mp (mt List.mem_cons.mpr ha)
    rw [List.cons_append, cstr_cons (Ne.symm hx), ih ha, List.cons_append]

theorem cstr_of_notMem {a : Bytes} (ha : 0 ∉ a) : cstr a = a := by
  simpa [cstr] using cstr_append ha []

theorem cstr_take (b : Bytes) (n : Nat) : cstr (b.take n) = (cstr b).take n := by
  induction n generalizing b with
  | zero => rfl
  | succ n ih =>
    cases b with
    | nil => rfl
    | cons x b =>
      by_cases hx : x = 0
      · subst hx
        rfl
      · rw [List.take_succ_cons, cstr_cons hx, cstr_cons hx, List.take_succ_cons, ih]

theorem cstr_append_replicate (b : Bytes) (n : Nat) : cstr (b ++ List.replicate n 0) = cstr b := by
  induction b with
  | nil => cases n <;> rfl
  | cons x b ih =>
    by_cases hx : x = 0
    · subst hx
      rfl
    · rw [List.cons_append, cstr_cons hx, cstr_cons hx, ih]

theorem strn_ofList (s : Bytes) (n : Nat) : strn (.ofList s 0) n = (cstr s).take n := by
  have hread : (Mem.ofList s 0).read 0 n = s.take n ++ List.replicate (n - s.length) 0 := by
    refine List.ext_getElem (by simp; omega) fun i hi _ => ?_
    have hn : i < n := by simpa using hi
    rw [Mem.getElem_read, Nat.zero_add, List.getElem_append]
    split
    · next h =>
      have hs : i < s.length := by simp at h; omega
      simp [Mem.ofList, hs]
    · next h =>
      have hs : s.length ≤ i := by simp at h; omega
      simp [Mem.ofList, hs]
  rw [strn, hread, ← cstr_take]
  exact cstr_append_replicate _ _

theorem strn_strnlen (m : Mem UInt8) (n : Nat) : strn m (strnlen m n) = strn m n := by
  have hlen : strnlen m n ≤ n := length_strn_le m n
  have hread : strn m n = (m.read 0 n).take (strnlen m n) := List.prefix_iff_eq_take.mp (List.takeWhile_prefix _)
  rw [Mem.take_read, Nat.min_eq_left hlen] at hread
  conv => lhs; rw [strn, ← hread]
  exact cstr_of_notMem (zero_not_mem_strn m n)

theorem strncpy_strnlen (m : Mem UInt8) (n : Nat) : strncpy m (strnlen m n) = strn m n := by
  have hself : strnlen m (strnlen m n) = strnlen m n := congrArg List.length (strn_strnlen m n)
  rw [strncpy, strn_strnlen, hself, Nat.sub_self, List.replicate_zero, List.append_nil]

/-- `strncmp` compares strings, as far as it is told to. -/
theorem strncmpEq_iff (n : Nat) (a b : Bytes) :
    Controller.strncmpEq n a b = true ↔ (cstr a).take n = (cstr b).take n := by
  induction n generalizing a b with
  | zero => simp [Controller.strncmpEq]
  | succ n ih =>
    rw [Controller.strncmpEq, decide_eq_true_eq]
    by_cases ha : a.headD 0 = 0
    · rw [cstr_eq_nil_iff.mpr ha, List.take_nil, ha, eq_comm, ← cstr_eq_nil_iff, eq_comm (a := [])]
      simp
    · obtain ⟨x, a, rfl⟩ : ∃ x a', a = x :: a' := by
        cases a with
        | nil => exact absurd rfl ha
        | cons x a => exact ⟨x, a, rfl⟩
      have hx : x ≠ 0 := ha
      rw [cstr_cons hx]
      cases b with
      | nil => simp [cstr, hx]
      | cons y b =>
        by_cases hy : y = 0
        · subst hy
          simp [cstr_zero_cons, hx]
        · simp [cstr_cons hy, ih, hx]

/-- `memchr`, over all of the bytes: the offset of the first that is this one. -/
def memchr (b : Bytes) (ch : UInt8) : Option Nat := b.findIdx? (· = ch)

theorem memchr_append {before : Bytes} {ch : UInt8} (h : ch ∉ before) (after : Bytes) :
    memchr (before ++ ch :: after) ch = some before.length := by
  have hnone : before.findIdx? (· = ch) = none := by
    rw [List.findIdx?_eq_none_iff]
    rintro x hx
    exact decide_eq_false fun heq => h (heq ▸ hx)
  simp [memchr, List.findIdx?_append, List.findIdx?_cons, hnone]

theorem memchr_eq_some {b : Bytes} {ch : UInt8} {i : Nat} (h : memchr b ch = some i) :
    ∃ before after, b = before ++ ch :: after ∧ ch ∉ before ∧ before.length = i := by
  obtain ⟨hlt, hch, hbefore⟩ := List.findIdx?_eq_some_iff_getElem.mp h
  refine ⟨b.take i, b.drop (i + 1), ?_, fun hmem => ?_, List.length_take_of_le (Nat.le_of_lt hlt)⟩
  · rw [← of_decide_eq_true hch, List.getElem_cons_drop, List.take_append_drop]
  · obtain ⟨j, hj, hget⟩ := List.getElem_of_mem hmem
    rw [List.length_take] at hj
    rw [List.getElem_take] at hget
    exact hbefore j (by omega) (decide_eq_true hget)

end Signpost
