/-
Rounds with a deadline: a round ends when each of some sources has reported in it, and
expires when it takes as long as an interval. A round takes no longer than the longest
silence, and the silence of a source lasts no longer than two rounds.

Time is a number that grows, and a report says which source it is from. Both bounds are about any
run of reports.
-/
import Mathlib.Data.Fintype.Basic
import Mathlib.Logic.Function.Basic

namespace Lib

/-- The current round, and what has been noted of the time: when each source reported last, and
how long each has been silent at most. A source that has not reported counts from the beginning. -/
structure Rounds (ι : Type) where
  now : Nat
  reported : ι → Bool
  /-- The beginnings of this round and of the one before. -/
  current : Nat
  previous : Nat
  lastReport : ι → Nat
  silence : ι → Nat

namespace Rounds

variable {ι : Type}

def start (now : Nat) : Rounds ι where
  now
  reported := fun _ => false
  current := now
  previous := now
  lastReport := fun _ => now
  silence := fun _ => 0

def next (r : Rounds ι) : Rounds ι :=
  { r with reported := fun _ => false, current := r.now, previous := r.current }

def mark [DecidableEq ι] (r : Rounds ι) (i : ι) : Rounds ι :=
  { r with
    reported := Function.update r.reported i true
    lastReport := Function.update r.lastReport i r.now }

def report [DecidableEq ι] [Fintype ι] (r : Rounds ι) (i : ι) : Rounds ι :=
  if ∀ j, (r.mark i).reported j = true then (r.mark i).next else r.mark i

def tick (r : Rounds ι) : Rounds ι :=
  { r with now := r.now + 1, silence := fun i => max (r.silence i) (r.now + 1 - r.lastReport i) }

/-- The round has taken as long as the interval. -/
def Expired (interval : Nat) (r : Rounds ι) : Prop := r.current + interval ≤ r.now

structure Timely (interval : Nat) (r : Rounds ι) : Prop where
  current_le : r.current ≤ r.now
  now_lt : r.now < r.current + interval
  current_lt : r.current < r.previous + interval
  previous_le : ∀ i, r.previous ≤ r.lastReport i
  lastReport_le : ∀ i, r.lastReport i ≤ r.now
  reported : ∀ i, r.reported i = true → r.current ≤ r.lastReport i
  unreported : ∀ i, r.reported i = false → r.lastReport i ≤ r.current
  waiting : ∃ i, r.reported i = false
  silence_lt : ∀ i, r.silence i < 2 * interval

variable {interval : Nat} {r : Rounds ι} {i : ι}

theorem Timely.start [Nonempty ι] (hpos : 0 < interval) (now : Nat) : (start now : Rounds ι).Timely interval where
  current_le := Nat.le_refl _
  now_lt := Nat.lt_add_of_pos_right hpos
  current_lt := Nat.lt_add_of_pos_right hpos
  previous_le := fun _ => Nat.le_refl _
  lastReport_le := fun _ => Nat.le_refl _
  reported := fun _ h => by cases h
  unreported := fun _ _ => Nat.le_refl _
  waiting := ⟨Classical.arbitrary ι, rfl⟩
  silence_lt := fun _ => Nat.mul_pos Nat.two_pos hpos

section
variable [DecidableEq ι]

theorem lastReport_mark (r : Rounds ι) (i j : ι) :
    (r.mark i).lastReport j = if j = i then r.now else r.lastReport j :=
  Function.update_apply _ _ _ _

theorem reported_mark (r : Rounds ι) (i j : ι) :
    (r.mark i).reported j = if j = i then true else r.reported j :=
  Function.update_apply _ _ _ _

variable [Fintype ι]

/-- A report that ends a round is in time, so the next begins within the interval. -/
theorem Timely.report (h : r.Timely interval) (i : ι) : (r.report i).Timely interval := by
  have hcurrent := h.current_le
  have hprevious : ∀ j, r.previous ≤ (r.mark i).lastReport j := by
    intro j
    have hearly : r.previous ≤ r.now := Nat.le_trans (h.previous_le j) (h.lastReport_le j)
    rw [lastReport_mark]
    split
    · exact hearly
    · exact h.previous_le j
  have hlast : ∀ j, (r.mark i).lastReport j ≤ r.now := by
    intro j
    rw [lastReport_mark]
    split
    · exact Nat.le_refl _
    · exact h.lastReport_le j
  have hreported : ∀ j, (r.mark i).reported j = true → r.current ≤ (r.mark i).lastReport j := by
    intro j hj
    rw [reported_mark] at hj
    rw [lastReport_mark]
    split
    · exact hcurrent
    · next hne =>
      rw [if_neg hne] at hj
      exact h.reported j hj
  unfold Rounds.report
  split
  · next hall =>
    exact {
      current_le := Nat.le_refl _
      now_lt := Nat.lt_add_of_pos_right (Nat.pos_of_lt_add_right (Nat.lt_of_le_of_lt hcurrent h.now_lt))
      current_lt := h.now_lt
      previous_le := fun j => hreported j (hall j)
      lastReport_le := hlast
      reported := fun _ hj => by cases hj
      unreported := fun j _ => hlast j
      waiting := ⟨i, rfl⟩
      silence_lt := h.silence_lt }
  · next hsome =>
    exact {
      current_le := hcurrent
      now_lt := h.now_lt
      current_lt := h.current_lt
      previous_le := hprevious
      lastReport_le := hlast
      reported := hreported
      unreported := fun j hj => by
        rw [reported_mark] at hj
        rw [lastReport_mark]
        split at hj
        · cases hj
        · next hne =>
          rw [if_neg hne]
          exact h.unreported j hj
      waiting := by
        obtain ⟨j, hj⟩ := not_forall.mp hsome
        exact ⟨j, Bool.not_eq_true _ ▸ hj⟩
      silence_lt := h.silence_lt }

end

theorem Timely.tick (h : r.Timely interval) (hopen : ¬ r.tick.Expired interval) : r.tick.Timely interval where
  current_le := Nat.le_succ_of_le h.current_le
  now_lt := Nat.not_le.mp hopen
  current_lt := h.current_lt
  previous_le := h.previous_le
  lastReport_le := fun i => Nat.le_succ_of_le (h.lastReport_le i)
  reported := h.reported
  unreported := h.unreported
  waiting := h.waiting
  silence_lt := fun i => by
    have hlate : r.now + 1 < r.current + interval := Nat.not_le.mp hopen
    have hcurrent := h.current_le
    have hearly := h.current_lt
    have hlast := h.previous_le i
    exact Nat.max_lt.mpr ⟨h.silence_lt i, by omega⟩

/-- A round that expires has waited for a source for all its time. -/
theorem Timely.silent (h : r.Timely interval) (hexpired : r.tick.Expired interval) :
    ∃ i, interval ≤ r.tick.silence i := by
  obtain ⟨i, hi⟩ := h.waiting
  have hlast := h.unreported i hi
  have hend : r.current + interval ≤ r.now + 1 := hexpired
  exact ⟨i, Nat.le_trans (by omega) (Nat.le_max_right _ _)⟩

theorem Timely.expired_iff (h : r.Timely interval) : r.tick.Expired interval ↔ r.now + 1 = r.current + interval := by
  have hlt := h.now_lt
  change r.current + interval ≤ r.now + 1 ↔ _
  omega

end Rounds

end Lib
