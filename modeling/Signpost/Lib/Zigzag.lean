/-
A signal that goes up and down. It turns at a sample that has come back from the extreme by an
offset, and what lies between two turns is a swing.

The definitions are about a list of samples. What a machine keeps of it, whether the signal is on
its way up and its extreme so far, is a function of the list that takes one sample after another.
-/
import Mathlib.Data.List.Induction
import Mathlib.Order.Lattice

namespace Lib.Zigzag

variable {α : Type} [LinearOrder α] [Add α]

/-- Where the signal goes, and how far it has come. -/
inductive Phase (α : Type) where
  | rising (top : α)
  | falling (bottom : α)

/-- The signal turns at this sample. -/
def Turns (offset : α) : Phase α → α → Prop
  | .rising top, x => x + offset ≤ top
  | .falling bottom, x => bottom + offset ≤ x

def next (offset : α) : Phase α → α → Phase α
  | .rising top, x => if x + offset ≤ top then .falling x else .rising (max top x)
  | .falling bottom, x => if bottom + offset ≤ x then .rising x else .falling (min bottom x)

def phase (offset : α) (p : Phase α) (xs : List α) : Phase α := xs.foldl (next offset) p

/-- The signal does not turn at these. -/
def Steady (offset : α) (p : Phase α) (xs : List α) : Prop :=
  ∀ before x after, xs = before ++ x :: after → ¬ Turns offset (phase offset p before) x

/-- A swing begins behind these: the last of them, if there is one, is a turn. -/
def Begins (offset : α) (p : Phase α) (xs : List α) : Prop :=
  ∀ before x, xs = before ++ [x] → Turns offset (phase offset p before) x

/-- These lie between two turns, or between the start and the first. -/
def Swing (offset : α) (p : Phase α) (xs between : List α) : Prop :=
  ∃ before x after, xs = before ++ between ++ x :: after ∧ Begins offset p before ∧
    Steady offset (phase offset p before) between ∧ Turns offset (phase offset p (before ++ between)) x

variable {offset : α} {p : Phase α} {xs ys : List α} {x : α}

theorem phase_append : phase offset p (xs ++ ys) = phase offset (phase offset p xs) ys :=
  List.foldl_append

theorem begins_nil : Begins offset p [] := fun before x h => by simp at h

theorem begins_concat : Begins offset p (xs ++ [x]) ↔ Turns offset (phase offset p xs) x := by
  refine ⟨fun h => h xs x rfl, fun hturn before y h => ?_⟩
  obtain ⟨rfl, hlast⟩ := List.append_inj' h rfl
  obtain ⟨rfl, -⟩ := List.cons.inj hlast
  exact hturn

theorem steady_nil : Steady offset p [] := fun before x after h => by simp at h

theorem steady_concat : Steady offset p (xs ++ [x]) ↔ Steady offset p xs ∧ ¬ Turns offset (phase offset p xs) x := by
  constructor
  · intro h
    refine ⟨fun before y after heq => h before y (after ++ [x]) ?_, h xs x [] rfl⟩
    rw [heq, List.append_assoc, List.cons_append]
  · rintro ⟨h, hturn⟩ before y after heq
    rcases List.eq_nil_or_concat after with rfl | ⟨after, z, rfl⟩
    · obtain ⟨rfl, hlast⟩ := List.append_inj' heq rfl
      obtain ⟨rfl, -⟩ := List.cons.inj hlast
      exact hturn
    · rw [List.concat_eq_append, ← List.cons_append, ← List.append_assoc] at heq
      obtain ⟨rfl, -⟩ := List.append_inj' heq rfl
      exact h before y after rfl

theorem exists_begins (offset : α) (p : Phase α) (xs : List α) : ∃ before between, xs = before ++ between ∧
    Begins offset p before ∧ Steady offset (phase offset p before) between := by
  induction xs using List.reverseRecOn with
  | nil => exact ⟨[], [], rfl, begins_nil, steady_nil⟩
  | append_singleton xs x ih =>
    by_cases hturn : Turns offset (phase offset p xs) x
    · exact ⟨xs ++ [x], [], (List.append_nil _).symm, begins_concat.mpr hturn, steady_nil⟩
    · obtain ⟨before, between, rfl, hbegins, hsteady⟩ := ih
      rw [phase_append] at hturn
      exact ⟨before, between ++ [x], List.append_assoc .., hbegins, steady_concat.mpr ⟨hsteady, hturn⟩⟩

theorem exists_swing {before : List α} (after : List α) (hturn : Turns offset (phase offset p before) x) :
    ∃ start between, before = start ++ between ∧ Begins offset p start ∧
      Steady offset (phase offset p start) between ∧ Swing offset p (before ++ x :: after) between := by
  obtain ⟨start, between, rfl, hbegins, hsteady⟩ := exists_begins offset p before
  exact ⟨start, between, rfl, hbegins, hsteady, start, x, after, rfl, hbegins, hsteady, hturn⟩

end Lib.Zigzag
