/-
A channel that delivers in order, and what its receiver took from it last.

What was taken last stands before what is on its way: a relation between each
element sent and the one before it is then one between neighbours on this line,
and the receiver finds it between what it takes and what it took before.

The lemmas say what of the line is left when an element is sent and when one is
taken, and that a transitive relation between neighbours reaches from the last
one taken to all that are on their way.
-/
import Mathlib.Data.List.Chain

namespace Lib

structure Channel (α : Type) where
  last : Option α
  flight : List α

namespace Channel

variable {α : Type}

def empty : Channel α := ⟨none, []⟩

/-- What was taken last, and what is on its way. -/
def line (c : Channel α) : List α := c.last.toList ++ c.flight

def latest (c : Channel α) : Option α := c.line.getLast?

def send (c : Channel α) (x : α) : Channel α := { c with flight := c.flight ++ [x] }

/-- What comes next, and the channel without it. -/
def take? (c : Channel α) : Option (α × Channel α) :=
  match c.flight with
  | [] => none
  | x :: xs => some (x, ⟨some x, xs⟩)

def Chained (R : α → α → Prop) (c : Channel α) : Prop := c.line.IsChain R

variable {c c' : Channel α} {x y : α} {R : α → α → Prop}

@[simp] theorem line_empty : (empty : Channel α).line = [] := rfl

@[simp] theorem latest_empty : (empty : Channel α).latest = none := rfl

@[simp] theorem line_send : (c.send x).line = c.line ++ [x] := (List.append_assoc ..).symm

@[simp] theorem latest_send : (c.send x).latest = some x := by
  rw [latest, line_send, List.getLast?_append]
  rfl

theorem mem_line_of_latest (h : c.latest = some x) : x ∈ c.line := List.mem_of_getLast? h

theorem Chained.send (h : c.Chained R) (hx : ∀ y, c.latest = some y → R y x) : (c.send x).Chained R := by
  rw [Chained, line_send, List.isChain_append]
  exact ⟨h, .singleton x, fun y hy z hz => by
    cases hz
    exact hx y hy⟩

theorem Chained.latest (hc : c.Chained R) (trans : ∀ {x y z}, R x y → R y z → R x z) (hx : x ∈ c.line)
    (hy : c.latest = some y) : x = y ∨ R x y := by
  have : Trans R R R := ⟨trans⟩
  obtain ⟨xs, hline⟩ := List.getLast?_eq_some_iff.mp hy
  have hpair := List.isChain_iff_pairwise.mp hc
  rw [hline] at hx hpair
  rcases List.mem_append.mp hx with hx | hx
  · exact .inr ((List.pairwise_append.mp hpair).2.2 x hx y (List.mem_singleton_self y))
  · exact .inl (List.mem_singleton.mp hx)

/-! ## Taking -/

theorem line_take (h : c.take? = some (x, c')) : c'.last = some x ∧ c.line = c.last.toList ++ c'.line := by
  obtain ⟨last, flight⟩ := c
  unfold take? at h
  cases flight with
  | nil => cases h
  | cons x xs =>
    cases h
    exact ⟨rfl, rfl⟩

theorem latest_take (h : c.take? = some (x, c')) : c'.latest = c.latest := by
  obtain ⟨hlast, hline⟩ := line_take h
  obtain ⟨y, hy⟩ : ∃ y, c'.line.getLast? = some y := by
    rw [line, hlast]
    exact ⟨_, List.getLast?_eq_some_getLast (List.cons_ne_nil _ _)⟩
  rw [latest, latest, hline, List.getLast?_append, hy]
  rfl

theorem mem_line_take (h : c.take? = some (x, c')) (hy : y ∈ c'.line) : y ∈ c.line := by
  rw [(line_take h).2]
  exact List.mem_append_right _ hy

theorem mem_take (h : c.take? = some (x, c')) : x ∈ c.line :=
  mem_line_take h (by
    rw [line, (line_take h).1]
    exact List.mem_cons_self)

theorem Chained.take (hc : c.Chained R) (h : c.take? = some (x, c')) :
    c'.Chained R ∧ ∀ y, c.last = some y → R y x := by
  obtain ⟨hlast, hline⟩ := line_take h
  rw [Chained, hline, List.isChain_append] at hc
  obtain ⟨-, hrest, hnext⟩ := hc
  refine ⟨hrest, fun y hy => hnext y ?_ x ?_⟩
  · rw [hy]
    rfl
  · rw [line, hlast]
    rfl

end Channel

end Lib
