/-
A ring of `n` cells with a head and a tail: the positions from the head up to
the tail are a bounded first-in-first-out queue of at most `n - 1`. With one
position that goes round, it is a window on what was written last.

`run slot k p` is what `k` cells from `p` on hold. The queue of a ring is a run
whose length is the distance from its head to its tail, so that taking from the
front is the run's own recursion, and the rest is about where runs end.
-/
import Mathlib.Data.Fin.Basic
import Mathlib.Data.List.DropRight
import Mathlib.Logic.Function.Basic

namespace Lib.Ring

variable {n : Nat} {α β : Type}

def next (p : Fin n) : Fin n := if h : p.val + 1 < n then ⟨p.val + 1, h⟩ else ⟨0, p.pos⟩

/-- How many steps it is from one position to another. -/
def dist (p q : Fin n) : Nat := if p.val ≤ q.val then q.val - p.val else n - (p.val - q.val)

/-- What `k` cells from a position on hold. -/
def run (slot : Fin n → α) : Nat → Fin n → List α
  | 0, _ => []
  | k + 1, p => slot p :: run slot k (next p)

/-- The position `k` steps on. -/
def skip : Nat → Fin n → Fin n
  | 0, p => p
  | k + 1, p => skip k (next p)

theorem dist_eq_zero {p q : Fin n} : dist p q = 0 ↔ p = q := by
  unfold dist
  rw [Fin.ext_iff]
  split <;> omega

theorem dist_lt (p q : Fin n) : dist p q < n := by
  unfold dist
  split <;> omega

theorem val_next (p : Fin n) : (next p).val = if p.val + 1 < n then p.val + 1 else 0 := by
  unfold next
  split <;> rfl

theorem dist_next_left {p q : Fin n} (h : p ≠ q) : dist p q = dist (next p) q + 1 := by
  have hp := val_next p
  rw [Ne, Fin.ext_iff] at h
  unfold dist
  split at hp <;> split <;> split <;> omega

theorem dist_next_right {p q : Fin n} (h : next q ≠ p) : dist p (next q) = dist p q + 1 := by
  have hq := val_next q
  rw [Ne, Fin.ext_iff] at h
  unfold dist
  split at hq <;> split <;> split <;> omega

theorem dist_next_self (p : Fin n) : dist (next p) p = n - 1 := by
  have hp := val_next p
  have hlt := p.isLt
  unfold dist
  split at hp <;> split <;> omega

/-! ## Runs -/

variable {slot slot' : Fin n → α} {k j : Nat} {p q : Fin n}

@[simp] theorem length_run : (run slot k p).length = k := by
  induction k generalizing p with
  | zero => rfl
  | succ k ih => simp [run, ih]

theorem mem_run {x : α} (hx : x ∈ run slot k p) : ∃ i, x = slot i := by
  induction k generalizing p with
  | zero => cases hx
  | succ k ih =>
    rcases List.mem_cons.mp hx with rfl | hx
    · exact ⟨p, rfl⟩
    · exact ih hx

theorem run_add : run slot (k + j) p = run slot k p ++ run slot j (skip k p) := by
  induction k generalizing p with
  | zero => rw [Nat.zero_add]; rfl
  | succ k ih =>
    rw [Nat.succ_add, run, ih]
    rfl

theorem skip_dist (h : dist p q = k) : skip k p = q := by
  induction k generalizing p with
  | zero => exact dist_eq_zero.mp h
  | succ k ih =>
    have hne : p ≠ q := fun heq => by rw [dist_eq_zero.mpr heq] at h; omega
    rw [dist_next_left hne] at h
    exact ih (Nat.succ.inj h)

theorem run_congr (h : dist p q = k) (hslot : ∀ i, i ≠ q → slot' i = slot i) :
    run slot' k p = run slot k p := by
  induction k generalizing p with
  | zero => rfl
  | succ k ih =>
    have hne : p ≠ q := fun heq => by rw [dist_eq_zero.mpr heq] at h; omega
    rw [dist_next_left hne] at h
    rw [run, run, hslot p hne, ih (Nat.succ.inj h)]

theorem dist_skip (h : k ≤ dist p q) : dist (skip k p) q = dist p q - k := by
  induction k generalizing p with
  | zero => rfl
  | succ k ih =>
    have hne : p ≠ q := fun heq => by rw [dist_eq_zero.mpr heq] at h; omega
    have hnext := dist_next_left hne
    rw [skip, ih (by omega)]
    omega

/-! ## The queue of a ring -/

/-- What is queued from a head to a tail. -/
def queue (slot : Fin n → α) (head tail : Fin n) : List α := run slot (dist head tail) head

variable {head tail : Fin n} {x : α}

@[simp] theorem length_queue : (queue slot head tail).length = dist head tail := length_run

theorem length_queue_lt : (queue slot head tail).length < n := by
  rw [length_queue]
  exact dist_lt head tail

theorem queue_eq_nil : queue slot head tail = [] ↔ head = tail := by
  rw [← List.length_eq_zero_iff, length_queue, dist_eq_zero]

theorem queue_cons (h : head ≠ tail) : queue slot head tail = slot head :: queue slot (next head) tail := by
  rw [queue, dist_next_left h]
  rfl

theorem queue_push (h : next tail ≠ head) (hslot : ∀ i, i ≠ tail → slot' i = slot i) :
    queue slot' head (next tail) = queue slot head tail ++ [slot' tail] := by
  rw [queue, dist_next_right h, run_add, run_congr rfl hslot, skip_dist rfl]
  rfl

/-- A queue is what it has up to a position in it, and the queue from there. -/
theorem queue_skip (h : k ≤ dist head tail) :
    queue slot head tail = run slot k head ++ queue slot (skip k head) tail := by
  obtain ⟨j, hj⟩ : ∃ j, dist head tail = k + j := ⟨dist head tail - k, by omega⟩
  rw [queue, queue, dist_skip h, hj, run_add, Nat.add_sub_cancel_left]

/-! ## The window of a ring -/

/-- What all cells but one hold, from the one after it on. -/
def around (slot : Fin n → α) (p : Fin n) : List α := run slot (n - 1) (next p)

theorem around_congr (hslot : ∀ i, i ≠ p → slot' i = slot i) : around slot' p = around slot p :=
  run_congr (dist_next_self p) hslot

/-- One position on, the cell that was left is the last, and the first is the one that it came to. -/
theorem cons_around_next : slot (next p) :: around slot (next p) = around slot p ++ [slot p] := by
  have hrun : run slot (n - 1 + 1) (next p) = around slot p ++ [slot p] := by
    rw [run_add, skip_dist (dist_next_self p)]
    rfl
  exact hrun

theorem run_eq_map_drop (h : p.val + k = n) : run slot k p = ((List.finRange n).drop p).map slot := by
  induction k generalizing p with
  | zero => exact absurd h (Nat.ne_of_lt p.isLt)
  | succ k ih =>
    rw [List.drop_eq_getElem_cons (by rw [List.length_finRange]; exact p.isLt), List.getElem_finRange, List.map_cons,
      run]
    congr 1
    cases k with
    | zero =>
      rw [List.drop_of_length_le (by rw [List.length_finRange]; omega)]
      rfl
    | succ k =>
      have hnext : (next p).val = p.val + 1 := (val_next p).trans (if_pos (by omega))
      rw [ih (by omega), hnext]

theorem rtake_eq_tail {xs ys : List α} {x : α} (h : x :: ys = xs.rtake (k + 1)) (hlength : ys.length = k) :
    ys = xs.rtake k := by
  have hxs : xs = xs.take (xs.length - (k + 1)) ++ [x] ++ ys := by
    rw [List.append_assoc, List.singleton_append, h, List.rtake, List.take_append_drop]
  rw [hxs, List.rtake, List.length_append, hlength, Nat.add_sub_cancel, List.drop_left]

/-- The window slides: the last of what was written is in the cells around one. -/
theorem around_push {xs : List α} (h : around slot p = xs.rtake (n - 1)) (hslot : ∀ i, i ≠ next p → slot' i = slot i) :
    around slot' (next p) = (xs ++ [slot p]).rtake (n - 1) := by
  have hall : slot (next p) :: around slot (next p) = (xs ++ [slot p]).rtake (n - 1 + 1) := by
    rw [cons_around_next, h, List.rtake_concat_succ]
  rw [around_congr hslot]
  exact rtake_eq_tail hall length_run

theorem cons_around_perm (slot : Fin n → α) (p : Fin n) :
    (slot p :: around slot p).Perm ((List.finRange n).map slot) := by
  induction hp : p.val generalizing p with
  | zero =>
    have hrun : run slot (n - 1 + 1) p = (List.finRange n).map slot := by
      rw [run_eq_map_drop (by have := p.isLt; omega), hp, List.drop_zero]
    rw [← hrun]
    rfl
  | succ k ih =>
    obtain ⟨q, hq, rfl⟩ : ∃ q : Fin n, q.val = k ∧ next q = p := by
      refine ⟨⟨k, by omega⟩, rfl, Fin.ext ?_⟩
      rw [val_next, if_pos (by have := p.isLt; simp only; omega), hp]
    rw [cons_around_next]
    exact (List.perm_append_singleton _ _).trans (ih q hq)

end Lib.Ring
