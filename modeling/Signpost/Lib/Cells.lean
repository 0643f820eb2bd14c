/-
A loop over cells, of which each round reads and writes its own only. Where a round has no
outcome the loop has none.

So what the loop leaves in a cell is what its own round makes of it, in whatever order the rounds
come.
-/
import Mathlib.Data.List.FinRange
import Mathlib.Logic.Function.Basic

namespace Lib

variable {ι κ : Type} [DecidableEq ι]

def forCells (f : ι → κ → Option κ) : List ι → (ι → κ) → Option (ι → κ)
  | [], s => some s
  | i :: is, s => (f i (s i)).bind fun c => forCells f is (Function.update s i c)

variable {f : ι → κ → Option κ} {is : List ι} {s s' : ι → κ}

theorem forCells_eq_some (hnodup : is.Nodup) :
    forCells f is s = some s' ↔ (∀ i ∈ is, f i (s i) = some (s' i)) ∧ ∀ i, i ∉ is → s' i = s i := by
  induction is generalizing s with
  | nil =>
    rw [forCells, Option.some_inj]
    constructor
    · rintro rfl
      exact ⟨fun i hi => absurd hi List.not_mem_nil, fun i _ => rfl⟩
    · rintro ⟨-, hrest⟩
      exact funext fun i => (hrest i List.not_mem_nil).symm
  | cons j is ih =>
    obtain ⟨hj, hnodup⟩ := List.nodup_cons.mp hnodup
    have hother : ∀ {i c}, i ≠ j → Function.update s j c i = s i := fun hne => Function.update_of_ne hne ..
    simp only [forCells, Option.bind_eq_some_iff, ih hnodup]
    constructor
    · rintro ⟨c, hc, hcells, hrest⟩
      have hself : s' j = c := (hrest j hj).trans (Function.update_self ..)
      refine ⟨fun i hi => ?_, fun i hi => ?_⟩
      · by_cases hij : i = j
        · rw [hij, hself, hc]
        · rw [← hother hij]
          exact hcells i ((List.mem_cons.mp hi).resolve_left hij)
      · obtain ⟨hij, hi⟩ := not_or.mp (mt List.mem_cons.mpr hi)
        exact (hrest i hi).trans (hother hij)
    · rintro ⟨hcells, hrest⟩
      refine ⟨s' j, hcells j List.mem_cons_self, fun i hi => ?_, fun i hi => ?_⟩
      · rw [hother fun hij => hj (hij ▸ hi)]
        exact hcells i (List.mem_cons_of_mem j hi)
      · by_cases hij : i = j
        · rw [hij, Function.update_self]
        · rw [hother hij]
          exact hrest i (mt List.mem_cons.mp (not_or.mpr ⟨hij, hi⟩))

theorem forCells_finRange {n : Nat} {f : Fin n → κ → Option κ} {s s' : Fin n → κ} :
    forCells f (List.finRange n) s = some s' ↔ ∀ i, f i (s i) = some (s' i) := by
  rw [forCells_eq_some (List.nodup_finRange n)]
  exact ⟨fun h i => h.1 i (List.mem_finRange i), fun h => ⟨fun i _ => h i, fun i hi => absurd (List.mem_finRange i) hi⟩⟩

theorem exists_forCells {n : Nat} {f : Fin n → κ → Option κ} {s : Fin n → κ} (h : ∀ i, ∃ c, f i (s i) = some c) :
    ∃ s', forCells f (List.finRange n) s = some s' := by
  choose s' hs' using h
  exact ⟨s', forCells_finRange.mpr hs'⟩

end Lib
