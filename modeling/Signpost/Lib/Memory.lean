/-
Memory as C code sees it through a pointer: the cells it reaches, by offset.

Nothing bounds a pointer here, so a copy past the end of what it was given is
not hidden: it changes the cells it lands on. `copy` is `memcpy` onto an
offset, `read` the cells of a range, `ofList` a buffer with known contents.
-/
import Mathlib.Data.List.Basic

namespace Lib

/-- The cells a pointer reaches, by offset. -/
abbrev Mem (α : Type) := Nat → α

namespace Mem

variable {α : Type}

/-- A buffer holding `l`, and `pad` past it. -/
def ofList (l : List α) (pad : α) : Mem α := fun i => l[i]?.getD pad

/-- The `n` cells from `off` on. -/
def read (m : Mem α) (off n : Nat) : List α := (List.range n).map fun i => m (off + i)

/-- `memcpy(m + off, xs, xs.length)`. -/
def copy (m : Mem α) (off : Nat) (xs : List α) : Mem α := fun i =>
  if off ≤ i then xs[i - off]?.getD (m i) else m i

@[simp] theorem length_read (m : Mem α) (off n : Nat) : (m.read off n).length = n := by
  simp [read]

@[simp] theorem read_zero (m : Mem α) (off : Nat) : m.read off 0 = [] := rfl

theorem getElem_read {m : Mem α} {off n i : Nat} (h : i < (m.read off n).length) :
    (m.read off n)[i] = m (off + i) := by
  simp [read]

/-- Two ranges read the same exactly when they agree cell by cell. -/
theorem read_eq_iff {m m' : Mem α} {off off' n : Nat} :
    m.read off n = m'.read off' n ↔ ∀ i < n, m (off + i) = m' (off' + i) := by
  simp [read]

theorem read_add (m : Mem α) (off a b : Nat) :
    m.read off (a + b) = m.read off a ++ m.read (off + a) b := by
  simp [read, List.range_add, Nat.add_assoc]

theorem take_read (m : Mem α) (off k n : Nat) : (m.read off n).take k = m.read off (min k n) := by
  rcases Nat.le_total k n with h | h
  · obtain ⟨b, rfl⟩ : ∃ b, n = k + b := ⟨n - k, by omega⟩
    rw [read_add, List.take_left' (length_read m off k), Nat.min_eq_left h]
  · rw [List.take_of_length_le (by simpa using h), Nat.min_eq_right h]

theorem drop_read {m : Mem α} {off k n : Nat} (h : k ≤ n) :
    (m.read off n).drop k = m.read (off + k) (n - k) := by
  obtain ⟨b, rfl⟩ : ∃ b, n = k + b := ⟨n - k, by omega⟩
  rw [read_add, List.drop_left' (length_read m off k), Nat.add_sub_cancel_left]

theorem read_ofList (l : List α) (pad : α) : (ofList l pad).read 0 l.length = l := by
  refine List.ext_getElem (length_read _ _ _) fun i _ h => ?_
  rw [getElem_read]
  simp [ofList, h]

/-! ## What a copy changes -/

theorem copy_before {m : Mem α} {off i : Nat} {xs : List α} (h : i < off) : m.copy off xs i = m i := by
  simp [copy, Nat.not_le.mpr h]

theorem copy_after {m : Mem α} {off i : Nat} {xs : List α} (h : off + xs.length ≤ i) :
    m.copy off xs i = m i := by
  have hn : xs[i - off]? = none := List.getElem?_eq_none (by omega)
  simp [copy, hn]

theorem copy_outside {m : Mem α} {off i : Nat} {xs : List α} (h : i < off ∨ off + xs.length ≤ i) :
    m.copy off xs i = m i := by
  rcases h with h | h
  · exact copy_before h
  · exact copy_after h

theorem copy_at {m : Mem α} {off i : Nat} {xs : List α} (h : i < xs.length) :
    m.copy off xs (off + i) = xs[i] := by
  simp [copy, h]

theorem copy_singleton (m : Mem α) (off : Nat) (x : α) : m.copy off [x] off = x := by
  simp [copy]

theorem copy_zero_at {m : Mem α} {xs : List α} {i : Nat} (h : i < xs.length) : m.copy 0 xs i = xs[i] := by
  have hat : m.copy 0 xs (0 + i) = xs[i] := copy_at h
  rwa [Nat.zero_add] at hat

theorem copy_zero_ofList (l : List α) (pad : α) : copy (fun _ => pad) 0 l = ofList l pad := by
  funext i; simp [copy, ofList]

theorem read_copy (m : Mem α) (off : Nat) (xs : List α) : (m.copy off xs).read off xs.length = xs := by
  refine List.ext_getElem (by simp) fun i _ h => ?_
  rw [getElem_read, copy_at h]

/-- From somewhere on, what is read is what was copied from there on. -/
theorem drop_read_copy (m : Mem α) {xs : List α} {k : Nat} (h : k ≤ xs.length) :
    (m.copy 0 xs).read k (xs.length - k) = xs.drop k := by
  have hdrop : ((m.copy 0 xs).read 0 xs.length).drop k = (m.copy 0 xs).read (0 + k) (xs.length - k) := drop_read h
  rw [read_copy, Nat.zero_add] at hdrop
  exact hdrop.symm

theorem copy_inj {m : Mem α} {off : Nat} {xs ys : List α} (hlength : xs.length = ys.length) :
    m.copy off xs = m.copy off ys ↔ xs = ys := by
  refine ⟨fun h => ?_, fun h => h ▸ rfl⟩
  rw [← read_copy m off xs, h, hlength, read_copy]

theorem read_copy_take {m : Mem α} {off n : Nat} {xs : List α} (h : n ≤ xs.length) :
    (m.copy off xs).read off n = xs.take n := by
  have hread := take_read (m.copy off xs) off n xs.length
  rw [read_copy, Nat.min_eq_left h] at hread
  exact hread.symm

theorem read_copy_disjoint {m : Mem α} {off o n : Nat} {xs : List α}
    (h : o + n ≤ off ∨ off + xs.length ≤ o) : (m.copy off xs).read o n = m.read o n := by
  rw [read_eq_iff]
  intro i hi
  exact copy_outside (by omega)

/-- A copy leaves a range it is inside of exactly when the range held what is copied. -/
theorem read_copy_eq_iff {m : Mem α} {off n : Nat} {xs : List α} (h : xs.length ≤ n) :
    (m.copy off xs).read off n = m.read off n ↔ m.read off xs.length = xs := by
  obtain ⟨k, rfl⟩ := Nat.exists_eq_add_of_le h
  rw [read_add, read_add, read_copy, read_copy_disjoint (.inr (Nat.le_refl _)), List.append_left_inj]
  exact eq_comm

theorem copy_append (m : Mem α) (off : Nat) (xs ys : List α) :
    (m.copy off xs).copy (off + xs.length) ys = m.copy off (xs ++ ys) := by
  funext i
  unfold copy
  by_cases hi : off ≤ i
  · obtain ⟨j, rfl⟩ := Nat.exists_eq_add_of_le hi
    by_cases hj : xs.length ≤ j
    · obtain ⟨k, rfl⟩ := Nat.exists_eq_add_of_le hj
      have hback : off + (xs.length + k) - (off + xs.length) = k := by omega
      rw [if_pos (by omega), hback, if_pos hi, if_pos hi, Nat.add_sub_cancel_left,
        List.getElem?_append_right hj, Nat.add_sub_cancel_left, List.getElem?_eq_none hj]
      rfl
    · rw [if_neg (by omega), if_pos hi, if_pos hi, Nat.add_sub_cancel_left,
        List.getElem?_append_left (Nat.lt_of_not_le hj)]
  · rw [if_neg (by omega), if_neg hi, if_neg hi]

theorem copy_over (m : Mem α) (off : Nat) (xs ys : List α) :
    (m.copy off ys).copy off xs = m.copy off (xs ++ ys.drop xs.length) := by
  funext k
  unfold copy
  by_cases hk : off ≤ k
  · simp only [if_pos hk]
    rcases Nat.lt_or_ge (k - off) xs.length with hlt | hge
    · rw [List.getElem?_append_left hlt, List.getElem?_eq_getElem hlt]
      rfl
    · rw [List.getElem?_append_right hge, List.getElem?_eq_none hge, List.getElem?_drop,
        Nat.add_sub_cancel' hge]
      rfl
  · simp only [if_neg hk]

/-- A buffer filled from its start grows by what is copied behind it. -/
theorem read_copy_append (m : Mem α) (off : Nat) (xs : List α) :
    (m.copy off xs).read 0 (off + xs.length) = m.read 0 off ++ xs := by
  rw [read_add, Nat.zero_add, read_copy_disjoint (.inl (by omega)), read_copy]

theorem read_part {m : Mem α} {off : Nat} {pre xs post : List α}
    (h : m.read off (pre ++ (xs ++ post)).length = pre ++ (xs ++ post)) :
    m.read (off + pre.length) xs.length = xs := by
  rw [List.length_append, List.length_append, read_add, read_add] at h
  obtain ⟨-, h⟩ := List.append_inj h (length_read ..)
  exact (List.append_inj h (length_read ..)).1

theorem read_block {m : Mem α} {off n k : Nat} {f : Fin n → List α} (hk : ∀ i, (f i).length = k)
    (h : m.read off (n * k) = (List.finRange n).flatMap f) (i : Fin n) : m.read (off + k * i) k = f i := by
  have hlength : ∀ l : List (Fin n), (l.flatMap f).length = l.length * k := fun l => by
    simp only [List.length_flatMap, hk, List.map_const', List.sum_replicate_nat]
  have hi : i.val < (List.finRange n).length := by
    rw [List.length_finRange]
    exact i.isLt
  have hsplit : (List.finRange n).flatMap f =
      ((List.finRange n).take i).flatMap f ++ (f i ++ ((List.finRange n).drop (i + 1)).flatMap f) := by
    conv => lhs; rw [← List.take_append_drop i.val (List.finRange n), List.drop_eq_getElem_cons hi]
    simp
  have hpre : (((List.finRange n).take i).flatMap f).length = k * i := by
    rw [hlength, List.length_take, Nat.min_eq_left (Nat.le_of_lt hi), Nat.mul_comm]
  have hread : m.read off ((List.finRange n).flatMap f).length = (List.finRange n).flatMap f := by
    rw [hlength, List.length_finRange, h]
  rw [hsplit] at hread
  have hpart := read_part hread
  rwa [hpre, hk] at hpart

end Mem

end Lib
