/-
The loop of `signpost_energy_policy_update_energy` that distributes a surplus: round by round,
until there is nothing to split. Its rounds are those of `distribution`.

A round gives every module that is not full a share of what is left, and a module that would be over
its cap gives back what it cannot take. Each round but the last fills a module, so there are at most
six of them, and there is always one to divide by.
-/
import Signpost.EnergyPolicy
import Signpost.Lib.Loop

namespace Signpost

open Lib

namespace EnergyPolicy

open Controller

/-- The variables of the `while` loop. -/
structure Spill where
  moduleSurplus : Int
  energyRemaining : EnergyRemaining
  spillElgible : Fin 8 → Bool

/-- The variables of the `for` loop in it. -/
structure SpillRound where
  modules : Fin 8 → Int
  spillElgible : Fin 8 → Bool
  spillOver : Int
  spillElgibleCount : Nat

/-- Modules 3 and 4 have no account, and one that is full is not eligible. -/
def Elgible (spillElgible : Fin 8 → Bool) (i : Fin 8) : Bool := i ≠ 3 && i ≠ 4 && spillElgible i

/-- The module's account is full, and what is over is left. -/
def SpillRound.fill (moduleSurplus : Int) (r : SpillRound) (i : Fin 8) : SpillRound :=
  { r with
    spillOver := r.spillOver + (r.modules i + moduleSurplus - maxModuleEnergyRemaining)
    modules := Function.update r.modules i maxModuleEnergyRemaining
    spillElgible := Function.update r.spillElgible i false }

/-- The module gets its part, and may get another. -/
def SpillRound.give (moduleSurplus : Int) (r : SpillRound) (i : Fin 8) : SpillRound :=
  { r with
    modules := Function.update r.modules i (r.modules i + moduleSurplus)
    spillElgibleCount := r.spillElgibleCount + 1
    spillElgible := Function.update r.spillElgible i true }

def spillModule (moduleSurplus : Int) (r : SpillRound) (i : Fin 8) : SpillRound :=
  if i = 3 ∨ i = 4 ∨ r.spillElgible i = false then r
  else if maxModuleEnergyRemaining < r.modules i + moduleSurplus then r.fill moduleSurplus i
  else r.give moduleSurplus i

/-- A division, which has no outcome by zero. -/
def divide (n : Int) (count : Nat) : Option Int := if count = 0 then none else some (n.tdiv count)

namespace Spill

/-- The modules that a round is over. -/
def elgible (s : Spill) : List (Fin 8) := (List.finRange 8).filter (Elgible s.spillElgible)

def round (s : Spill) : SpillRound :=
  (List.finRange 8).foldl (spillModule s.moduleSurplus) ⟨s.energyRemaining.modules, s.spillElgible, 0, 0⟩

/-- A round of the `while` loop. It is done with no state if it has divided by zero. -/
def step (s : Spill) : Spill ⊕ Option Spill :=
  if 0 < s.moduleSurplus then
    let r := s.round
    if r.spillElgibleCount = 0 then
      .inl ⟨0, ⟨s.energyRemaining.controller + r.spillOver, r.modules⟩, r.spillElgible⟩
    else
      match divide r.spillOver r.spillElgibleCount with
      | some moduleSurplus => .inl ⟨moduleSurplus, ⟨s.energyRemaining.controller, r.modules⟩, r.spillElgible⟩
      | none => .inr none
  else .inr (some s)

end Spill

/-! ## A round -/

section
variable {surplus : Int} {i : Fin 8} {slots : List (Fin 8)} {r : SpillRound}

theorem spillModule_skip (h : Elgible r.spillElgible i = false) : spillModule surplus r i = r := by
  rw [spillModule, if_pos]
  simpa [Elgible, ← not_or, imp_iff_not_or, or_assoc] using h

theorem foldl_spillElgible_of_notMem (h : i ∉ slots) :
    (slots.foldl (spillModule surplus) r).spillElgible i = r.spillElgible i := by
  induction slots generalizing r with
  | nil => rfl
  | cons j slots ih =>
    obtain ⟨hne, hslots⟩ := not_or.mp (mt List.mem_cons.mpr h)
    rw [List.foldl_cons, ih hslots, spillModule]
    split
    · rfl
    · split
      · exact Function.update_of_ne hne ..
      · exact Function.update_of_ne hne ..

theorem spillModule_of_elgible (h : Elgible r.spillElgible i = true) : spillModule surplus r i =
    if maxModuleEnergyRemaining < r.modules i + surplus then r.fill surplus i else r.give surplus i := by
  rw [spillModule, if_neg]
  simpa [Elgible, and_assoc] using h

theorem filter_elgible_update {e : Fin 8 → Bool} {full : Bool} (h : i ∉ slots) :
    slots.filter (Elgible (Function.update e i full)) = slots.filter (Elgible e) := by
  refine List.filter_congr fun j hj => ?_
  have hne : j ≠ i := fun heq => h (heq ▸ hj)
  rw [Elgible, Elgible, Function.update_of_ne hne]

theorem elgible_foldl (h : i ∉ slots) :
    Elgible (slots.foldl (spillModule surplus) r).spillElgible i = Elgible r.spillElgible i := by
  rw [Elgible, Elgible, foldl_spillElgible_of_notMem h]

theorem foldl_spillModule (surplus : Int) (hslots : slots.Nodup) :
    let dealt := Deal.round maxModuleEnergyRemaining surplus (slots.filter (Elgible r.spillElgible)) r.modules
    let r' := slots.foldl (spillModule surplus) r
    r'.modules = dealt.accounts ∧ r'.spillOver = r.spillOver + dealt.spill ∧
      r'.spillElgibleCount = r.spillElgibleCount + dealt.takers.length ∧
      slots.filter (Elgible r'.spillElgible) = dealt.takers := by
  induction slots generalizing r with
  | nil => simp [Deal.round]
  | cons i slots ih =>
    obtain ⟨hi, hslots⟩ := List.nodup_cons.mp hslots
    simp only at ih ⊢
    rw [List.foldl_cons]
    cases helgible : Elgible r.spillElgible i with
    | false =>
      obtain ⟨hmodules, hspill, hcount, htakers⟩ := ih (r := r) hslots
      rw [spillModule_skip helgible, List.filter_cons_of_neg (by simp [helgible]),
        List.filter_cons_of_neg (by simp [elgible_foldl hi, helgible])]
      exact ⟨hmodules, hspill, hcount, htakers⟩
    | true =>
      rw [spillModule_of_elgible helgible, List.filter_cons_of_pos helgible, Deal.round]
      split
      · obtain ⟨hmodules, hspill, hcount, htakers⟩ := ih (r := r.fill surplus i) hslots
        have hsame : slots.filter (Elgible (r.fill surplus i).spillElgible) = slots.filter (Elgible r.spillElgible) :=
          filter_elgible_update hi
        rw [hsame] at hmodules hspill hcount htakers
        have hfull : Elgible (r.fill surplus i).spillElgible i = false := by simp [Elgible, SpillRound.fill]
        rw [List.filter_cons_of_neg (by rw [elgible_foldl hi, hfull]; exact Bool.false_ne_true)]
        exact ⟨hmodules, hspill.trans (Int.add_assoc ..), hcount, htakers⟩
      · obtain ⟨hmodules, hspill, hcount, htakers⟩ := ih (r := r.give surplus i) hslots
        have hsame : slots.filter (Elgible (r.give surplus i).spillElgible) = slots.filter (Elgible r.spillElgible) :=
          filter_elgible_update hi
        rw [hsame] at hmodules hspill hcount htakers
        have hstill : Elgible (r.give surplus i).spillElgible i = true := by
          simp only [Elgible, SpillRound.give, Function.update_self, Bool.and_eq_true] at helgible ⊢
          exact ⟨helgible.1, trivial⟩
        rw [List.filter_cons_of_pos (by rw [elgible_foldl hi]; exact hstill)]
        exact ⟨hmodules, hspill, hcount.trans (Nat.add_right_comm ..), congrArg (i :: ·) htakers⟩

namespace Spill

variable {s s' : Spill} {n : Nat}

/-- The round of `Deal` that it is. -/
def dealt (s : Spill) : Deal.Round (Fin 8) :=
  Deal.round maxModuleEnergyRemaining s.moduleSurplus s.elgible s.energyRemaining.modules

theorem round_eq : s.round.modules = s.dealt.accounts ∧ s.round.spillOver = s.dealt.spill ∧
    s.round.spillElgibleCount = s.dealt.takers.length ∧
    (List.finRange 8).filter (Elgible s.round.spillElgible) = s.dealt.takers := by
  have h := foldl_spillModule s.moduleSurplus (r := ⟨s.energyRemaining.modules, s.spillElgible, 0, 0⟩)
    (List.nodup_finRange 8)
  simp only [Int.zero_add, Nat.zero_add] at h
  exact h

/-- A round leaves the accounts of `Deal.round`, and the next one is over those that took their part. -/
theorem step_of_pos (h : 0 < s.moduleSurplus) : ∃ s', step s = .inl s' ∧
    s'.energyRemaining.modules = s.dealt.accounts ∧ s'.elgible = s.dealt.takers ∧
    if s.dealt.takers = [] then
      s'.moduleSurplus = 0 ∧ s'.energyRemaining.controller = s.energyRemaining.controller + s.dealt.spill
    else
      s'.moduleSurplus = s.dealt.spill / s.dealt.takers.length ∧
        s'.energyRemaining.controller = s.energyRemaining.controller := by
  obtain ⟨hmodules, hspill, hcount, htakers⟩ := round_eq (s := s)
  rw [step, if_pos h]
  simp only [hspill, hcount, List.length_eq_zero_iff, divide]
  split
  · exact ⟨_, rfl, hmodules, htakers, rfl, rfl⟩
  · exact ⟨_, rfl, hmodules, htakers, Int.tdiv_eq_ediv_of_nonneg Deal.round_spill_nonneg, rfl⟩

theorem step_of_not_pos (h : ¬ 0 < s.moduleSurplus) : step s = .inr (some s) := by
  rw [step, if_neg h]

theorem nodup_elgible (s : Spill) : s.elgible.Nodup := (List.nodup_finRange 8).filter _

/-! ## The rounds -/

/-- While there is something to distribute, some module is eligible. -/
def Split (s : Spill) : Prop := 0 < s.moduleSurplus → s.elgible ≠ []

/-- At most so many rounds are to come. -/
def measure (s : Spill) : Nat := if 0 < s.moduleSurplus then s.elgible.length else 0

theorem step_measure (hs : s.Split) (hstep : step s = .inl s') : s'.Split ∧ s'.measure < s.measure := by
  by_cases hpos : 0 < s.moduleSurplus
  · obtain ⟨_, hnext, -, helgible, hsplit⟩ := step_of_pos hpos
    obtain rfl := Sum.inl.inj (hstep.symm.trans hnext)
    have hlength : 0 < s.elgible.length := List.length_pos_iff.mpr (hs hpos)
    rw [measure, measure, if_pos hpos, Split, helgible]
    by_cases hnil : s.dealt.takers = []
    · rw [if_pos hnil] at hsplit
      rw [if_neg (by omega)]
      exact ⟨fun h => by omega, hlength⟩
    · refine ⟨fun _ => hnil, ?_⟩
      split
      · next hagain =>
        rw [if_neg hnil] at hsplit
        rw [hsplit.1] at hagain
        refine Deal.round_takers_length (lt_of_le_of_ne Deal.round_spill_nonneg fun hnone => ?_)
        rw [dealt, ← hnone, Int.zero_ediv] at hagain
        exact Int.lt_irrefl 0 hagain
      · exact hlength
  · rw [step_of_not_pos hpos] at hstep
    cases hstep

theorem step_capped (hstep : step s = .inl s')
    (hs : ∀ m ∈ metered, m ∈ s.elgible ∨ s.energyRemaining.modules m ≤ maxModuleEnergyRemaining) :
    ∀ m ∈ metered, s'.energyRemaining.modules m ≤ maxModuleEnergyRemaining := by
  intro m hm
  by_cases hpos : 0 < s.moduleSurplus
  · obtain ⟨_, hnext, hmodules, -, -⟩ := step_of_pos hpos
    obtain rfl := Sum.inl.inj (hstep.symm.trans hnext)
    rw [hmodules, dealt]
    by_cases hround : m ∈ s.elgible
    · exact (Deal.round_accounts s.nodup_elgible hround).1
    · rw [Deal.round_of_notMem hround]
      exact (hs m hm).resolve_left hround
  · rw [step_of_not_pos hpos] at hstep
    cases hstep

/-- The loop leaves what the rounds of `Deal` leave. -/
theorem ends_rounds {k : Nat} {r : Option Spill} (h : Loop.Ends step s n r) (hk : n < k) : ∃ s', r = some s' ∧
    let dealt := Deal.rounds maxModuleEnergyRemaining k s.moduleSurplus s.elgible s.energyRemaining.modules
    s'.energyRemaining.modules = dealt.accounts ∧
      s'.energyRemaining.controller = s.energyRemaining.controller + dealt.left := by
  induction h generalizing k with
  | @done s r hdone =>
    by_cases hpos : 0 < s.moduleSurplus
    · obtain ⟨_, hnext, -⟩ := step_of_pos hpos
      cases hdone.symm.trans hnext
    · obtain rfl := Sum.inr.inj (hdone.symm.trans (step_of_not_pos hpos))
      rw [Deal.rounds_of_nonpos (Int.not_lt.mp hpos)]
      exact ⟨s, rfl, rfl, (Int.add_zero _).symm⟩
  | @next s t n r hnext _ ih =>
    obtain ⟨k, rfl⟩ : ∃ j, k = j + 1 := ⟨k - 1, by omega⟩
    obtain ⟨s', hr, hmodules, hcontroller⟩ := ih (Nat.lt_of_succ_lt_succ hk)
    refine ⟨s', hr, ?_⟩
    by_cases hpos : 0 < s.moduleSurplus
    · obtain ⟨_, hstep, haccounts, helgible, hsplit⟩ := step_of_pos hpos
      obtain rfl := Sum.inl.inj (hnext.symm.trans hstep)
      rw [haccounts, helgible] at hmodules hcontroller
      by_cases hnil : s.dealt.takers = []
      · rw [if_pos hnil] at hsplit
        rw [hsplit.1, Deal.rounds_of_nonpos (Int.le_refl 0)] at hmodules hcontroller
        rw [Deal.rounds_last hpos hnil]
        exact ⟨hmodules, by rw [hcontroller, hsplit.2, Int.add_zero]; rfl⟩
      · rw [if_neg hnil] at hsplit
        rw [hsplit.1] at hmodules hcontroller
        rw [Deal.rounds_again hpos hnil]
        exact ⟨hmodules, by rw [hcontroller, hsplit.2]; rfl⟩
    · rw [step_of_not_pos hpos] at hnext
      cases hnext

end Spill

end

/-! ## The loop -/

/-- It begins with all modules eligible. -/
def spill (moduleSurplus : Int) (e : EnergyRemaining) : Spill := ⟨moduleSurplus, e, fun _ => true⟩

theorem elgible_spill (moduleSurplus : Int) (e : EnergyRemaining) : (spill moduleSurplus e).elgible = metered :=
  rfl

theorem exists_spill_ends (moduleSurplus : Int) (e : EnergyRemaining) :
    ∃ n s, n ≤ 6 ∧ Loop.Ends Spill.step (spill moduleSurplus e) n (some s) := by
  have hsplit : (spill moduleSurplus e).Split := fun _ => by rw [elgible_spill]; decide
  obtain ⟨n, r, hn, hends⟩ := Loop.exists_ends Spill.measure Spill.step_measure hsplit
  have hmeasure : (spill moduleSurplus e).measure ≤ 6 := by
    rw [Spill.measure, elgible_spill]
    split
    · exact Nat.le_refl 6
    · exact Nat.zero_le 6
  obtain ⟨s, rfl, -⟩ := Spill.ends_rounds hends (Nat.lt_succ_self n)
  exact ⟨n, s, Nat.le_trans hn hmeasure, hends⟩

/-- What the loop leaves of a surplus is `distribute`. -/
theorem spill_distribute (surplus : Int) (e : EnergyRemaining) :
    ∃ n s, Loop.Ends Spill.step
        (spill (moduleSurplus surplus e) { e with controller := cutOff (withSurplus surplus e) }) n (some s) ∧
      s.energyRemaining = distribute surplus e := by
  obtain ⟨n, s, hn, hends⟩ :=
    exists_spill_ends (moduleSurplus surplus e) { e with controller := cutOff (withSurplus surplus e) }
  obtain ⟨_, heq, hmodules, hcontroller⟩ := Spill.ends_rounds (k := 7) hends (by omega)
  obtain rfl := Option.some.inj heq
  rw [elgible_spill] at hmodules hcontroller
  refine ⟨n, s, hends, ?_⟩
  rw [distribute, distribution, EnergyRemaining.mk.injEq]
  exact ⟨hcontroller, hmodules⟩

/-- The loop is done after at most six rounds, none of which divides by zero, and if there was
any, then no module's account is over its cap. -/
theorem spill_ends (moduleSurplus : Int) (e : EnergyRemaining) :
    ∃ n s, n ≤ 6 ∧ Loop.Ends Spill.step (spill moduleSurplus e) n (some s) ∧
      (0 < n → ∀ m ∈ metered, s.energyRemaining.modules m ≤ maxModuleEnergyRemaining) := by
  obtain ⟨n, s, hn, hends⟩ := exists_spill_ends moduleSurplus e
  refine ⟨n, s, hn, hends, fun hpos => ?_⟩
  cases hends with
  | done => exact absurd hpos (Nat.lt_irrefl 0)
  | next hnext hends =>
    have hfirst := Spill.step_capped hnext fun m hm => .inl (by rwa [elgible_spill])
    obtain ⟨s', hcapped, hdone⟩ := hends.invariant
      (fun hs hstep => Spill.step_capped hstep fun m hm => .inr (hs m hm)) hfirst
    by_cases hagain : 0 < s'.moduleSurplus
    · obtain ⟨_, hstep, -⟩ := Spill.step_of_pos hagain
      cases hdone.symm.trans hstep
    · obtain rfl := Option.some.inj (Sum.inr.inj (hdone.symm.trans (Spill.step_of_not_pos hagain)))
      exact hcapped

end EnergyPolicy

end Signpost
