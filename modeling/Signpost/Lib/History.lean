/-
What a list of outputs says of each of them: what was put out before it
(`Throughout`), and what was put out last (`Since`).

Both grow with the outputs of a step, so they are used as invariants of runs
whose states do not remember what was put out.
-/
import Signpost.Lib.Run

namespace Lib

variable {O : Type} {os o : List O}

/-- Every output is good after what was put out before it. -/
def Throughout (Good : List O → O → Prop) (os : List O) : Prop :=
  ∀ os₁ a os₂, os = os₁ ++ a :: os₂ → Good os₁ a

namespace Throughout

variable {Good : List O → O → Prop}

theorem nil : Throughout Good [] := fun os₁ a os₂ h => by simp at h

theorem of_mem (h : ∀ os₁, ∀ a ∈ os, Good os₁ a) : Throughout Good os := by
  rintro os₁ a os₂ rfl
  exact h os₁ a (List.mem_append_right os₁ List.mem_cons_self)

theorem append (h : Throughout Good os) (ho : Throughout (fun o₁ a => Good (os ++ o₁) a) o) :
    Throughout Good (os ++ o) := by
  intro os₁ a os₂ heq
  rcases Run.append_eq_append_cons heq with ⟨r, hos, -⟩ | ⟨r, rfl, hr⟩
  · exact h os₁ a r hos
  · exact ho r a os₂ hr

theorem cons {a : O} (ha : Good [] a) (h : Throughout (fun o₁ b => Good (a :: o₁) b) o) :
    Throughout Good (a :: o) := by
  intro os₁ b os₂ heq
  cases os₁ with
  | nil =>
    obtain ⟨rfl, -⟩ := List.cons.inj heq
    exact ha
  | cons c os₁ =>
    obtain ⟨rfl, htail⟩ := List.cons.inj heq
    exact h os₁ b os₂ htail

theorem singleton {a : O} (ha : Good [] a) : Throughout Good [a] := cons ha nil

end Throughout

/-- An output with `p`, and none with `q` after it. -/
def Since (p q : O → Prop) (os : List O) : Prop :=
  ∃ os₁ a os₂, os = os₁ ++ a :: os₂ ∧ p a ∧ ∀ b ∈ os₂, ¬ q b

section
variable {p q : O → Prop}

theorem not_since_nil : ¬ Since p q [] := by
  rintro ⟨os₁, a, os₂, h, -⟩
  simp at h

theorem since_append : Since p q (os ++ o) ↔ Since p q o ∨ Since p q os ∧ ∀ b ∈ o, ¬ q b := by
  constructor
  · rintro ⟨os₁, a, os₂, heq, ha, hb⟩
    rcases Run.append_eq_append_cons heq with ⟨r, hos, rfl⟩ | ⟨r, -, ho⟩
    · exact .inr ⟨⟨os₁, a, r, hos, ha, fun b hb' => hb b (List.mem_append_left o hb')⟩,
        fun b hb' => hb b (List.mem_append_right r hb')⟩
    · exact .inl ⟨r, a, os₂, ho, ha, hb⟩
  · rintro (⟨o₁, a, o₂, rfl, ha, hb⟩ | ⟨⟨os₁, a, os₂, rfl, ha, hb⟩, ho⟩)
    · exact ⟨os ++ o₁, a, o₂, (List.append_assoc ..).symm, ha, hb⟩
    · refine ⟨os₁, a, os₂ ++ o, by rw [List.append_assoc, List.cons_append], ha, fun b hmem => ?_⟩
      rcases List.mem_append.mp hmem with hmem | hmem
      · exact hb b hmem
      · exact ho b hmem

@[simp] theorem since_singleton {a : O} : Since p q [a] ↔ p a := by
  constructor
  · rintro ⟨os₁, b, os₂, heq, hb, -⟩
    cases os₁ with
    | nil =>
      obtain ⟨rfl, -⟩ := List.cons.inj heq
      exact hb
    | cons c os₁ => simp at heq
  · exact fun ha => ⟨[], a, [], rfl, ha, by simp⟩

theorem since_concat {a : O} : Since p q (os ++ [a]) ↔ p a ∨ Since p q os ∧ ¬ q a := by
  rw [since_append, since_singleton]
  simp

theorem Since.append (h : Since p q os) (ho : ∀ b ∈ o, ¬ q b) : Since p q (os ++ o) :=
  since_append.mpr (.inr ⟨h, ho⟩)

end

end Lib
