/-
An update of the energy policy: what it does to the sum of the accounts, and
what modules see of it.

Energy is lost only where a division leaves a rest, where a cap is reached and
where an account is below nothing. Each part of the update is a function with
one lemma about the sum, and an update is put together from these.
-/
import Signpost.EnergyPolicy

namespace Signpost

open Lib

namespace EnergyPolicy

/-- The energy that the controller and the metered modules have together. -/
def allotted (e : EnergyRemaining) : Int := e.controller + Deal.total metered e.modules

theorem metered_nodup : metered.Nodup := by decide

/-! ## Distributing -/

section
variable (surplus : Int) (e : EnergyRemaining)

theorem moduleSurplus_nonneg (h : 0 ≤ surplus) : 0 ≤ moduleSurplus surplus e := by
  unfold moduleSurplus
  split <;> omega

theorem moduleSurplus_pos (h : 10 ≤ surplus) : 0 < moduleSurplus surplus e := by
  unfold moduleSurplus
  split <;> omega

theorem parts_bounds :
    cutOff (withSurplus surplus e) + 6 * moduleSurplus surplus e ≤ e.controller + surplus ∧
      e.controller + surplus - 11 ≤ cutOff (withSurplus surplus e) + 6 * moduleSurplus surplus e := by
  unfold cutOff moduleSurplus withSurplus
  split <;> omega

theorem rounds_distribution {n : Nat} (h : 7 ≤ n) :
    Deal.rounds maxModuleEnergyRemaining n (moduleSurplus surplus e) metered e.modules = distribution surplus e := by
  induction n, h using Nat.le_induction with
  | base => rfl
  | succ n h ih => exact (Deal.rounds_succ (Nat.lt_of_lt_of_le (by decide) h)).trans ih

theorem allotted_distribute (h : 0 ≤ surplus) :
    allotted (distribute surplus e) ≤ allotted e + surplus ∧
      allotted e + surplus - 21 ≤ allotted (distribute surplus e) := by
  have hrounds : Deal.total metered (distribution surplus e).accounts + (distribution surplus e).left ≤
        Deal.total metered e.modules + moduleSurplus surplus e * metered.length ∧
      Deal.total metered e.modules + moduleSurplus surplus e * metered.length ≤
        Deal.total metered (distribution surplus e).accounts + (distribution surplus e).left +
          Deal.loss metered.length :=
    Deal.total_rounds (by decide) (moduleSurplus_nonneg surplus e h) metered_nodup fun _ hi => hi
  obtain ⟨hle, hge⟩ := hrounds
  have hparts := parts_bounds surplus e
  have hlength : metered.length = 6 := rfl
  have hloss : Deal.loss metered.length = 10 := rfl
  rw [hlength] at hle
  rw [hloss, hlength] at hge
  simp only [allotted, distribute]
  omega

end

/-! ## Settling -/

section
variable (p : EnergyPolicy) (r : Readings)

theorem allotted_debit : allotted (p.debit r) = allotted p.energyRemaining - totalEnergy r := by
  simp only [allotted, debit, totalEnergy, Deal.total, metered, List.map_cons, List.map_nil, List.sum_cons,
    List.sum_nil, List.mem_cons, true_or, or_true, if_true]
  omega

theorem allotted_settle (batteryUsed total : Int) (e : EnergyRemaining) :
    allotted (settle batteryUsed total e) ≤ allotted e + (total - batteryUsed) ∧
      allotted e + (total - batteryUsed) - 21 ≤ allotted (settle batteryUsed total e) ∧
      (total ≤ batteryUsed → allotted (settle batteryUsed total e) = allotted e + (total - batteryUsed)) := by
  unfold settle
  split
  · next hsurplus =>
    obtain ⟨hle, hge⟩ := allotted_distribute (total - batteryUsed) e (by omega)
    exact ⟨hle, hge, fun h => absurd hsurplus (Int.not_lt.mpr h)⟩
  · simp only [allotted]
    omega

theorem allotted_updateEnergy_le :
    allotted (p.updateEnergy r).energyRemaining ≤ allotted p.energyRemaining - p.batteryUsed r := by
  have hsettle := (allotted_settle (p.batteryUsed r) (totalEnergy r) (p.debit r)).1
  rw [allotted_debit] at hsettle
  exact Int.le_trans hsettle (by omega)

/-- An update takes from the accounts what the battery lost, or gives them what
it gained, up to 21 for rounding, and exactly if there is no surplus. -/
theorem updateEnergy_conserves :
    allotted p.energyRemaining - p.batteryUsed r - 21 ≤ allotted (p.updateEnergy r).energyRemaining ∧
      allotted (p.updateEnergy r).energyRemaining ≤ allotted p.energyRemaining - p.batteryUsed r ∧
      (totalEnergy r ≤ p.batteryUsed r →
        allotted (p.updateEnergy r).energyRemaining = allotted p.energyRemaining - p.batteryUsed r) := by
  obtain ⟨-, hge, heq⟩ := allotted_settle (p.batteryUsed r) (totalEnergy r) (p.debit r)
  rw [allotted_debit] at hge heq
  refine ⟨?_, allotted_updateEnergy_le p r, fun h => ?_⟩
  · exact Int.le_trans (by omega) hge
  · exact (heq h).trans (by omega)

/-- Nothing was used, and the battery reads this. -/
def idleReadings (battery : Int) : Readings := ⟨0, 0, fun _ => 0, battery, 0, 16000, .double⟩

def samplePolicy : EnergyPolicy := boot.init (idleReadings 1000000) none none none

/-- A surplus of 10 can be dealt out without a loss. -/
theorem surplus_without_loss :
    ¬(allotted (samplePolicy.updateEnergy (idleReadings 1000010)).energyRemaining =
        allotted samplePolicy.energyRemaining - samplePolicy.batteryUsed (idleReadings 1000010) ↔
      totalEnergy (idleReadings 1000010) ≤ samplePolicy.batteryUsed (idleReadings 1000010)) := by
  decide +kernel

/-! ## What modules see -/

/-- Readings after an update has reset the counters. -/
structure Cleared (r : Readings) : Prop where
  controller : r.controller = 0
  linux : r.linux = 0
  modules : ∀ m ∈ metered, r.modules m = 0

/-- What an update gives the modules, or cuts from them. -/
def givenBy : List (Fin 8 × Int) :=
  if p.batteryUsed r < totalEnergy r then
    (distribution (totalEnergy r - p.batteryUsed r) (p.debit r)).given
  else []

theorem updateEnergy_modules (m : Fin 8) :
    (p.updateEnergy r).energyRemaining.modules m = (p.debit r).modules m + Deal.gain (p.givenBy r) m := by
  unfold updateEnergy settle givenBy
  split
  · exact Deal.rounds_gain m
  · exact (Int.add_zero _).symm

/-- What a module has been credited at the end of an update, when everything that
was used has been debited. -/
def credited (m : Fin 8) : Int := (p.updateEnergy r).energyRemaining.modules m - (p.debit r).modules m

/-- Of the modules with an account, those that end below the cap have been
credited the same, and one that was cut off at the cap no more than that. -/
theorem surplus_shared {m n : Fin 8} (hm : m ∈ metered) (hn : n ∈ metered)
    (hbelow : (p.updateEnergy r).energyRemaining.modules m < maxModuleEnergyRemaining) :
    ((p.updateEnergy r).energyRemaining.modules n < maxModuleEnergyRemaining →
        p.credited r n = p.credited r m) ∧
      ((p.debit r).modules n ≤ maxModuleEnergyRemaining →
        (p.updateEnergy r).energyRemaining.modules n = maxModuleEnergyRemaining →
          p.credited r n ≤ p.credited r m) := by
  have hupdate : (p.updateEnergy r).energyRemaining = settle (p.batteryUsed r) (totalEnergy r) (p.debit r) := rfl
  unfold credited
  rw [hupdate] at hbelow ⊢
  unfold settle at hbelow ⊢
  split
  · next hsurplus =>
    rw [if_pos hsurplus] at hbelow
    obtain ⟨hequal, hle⟩ := Deal.rounds_fair metered_nodup hm hn hbelow
    exact ⟨hequal, fun hcap _ => hle hcap⟩
  · simp only
    omega

/-- Figures of use are the same after an update, and what remains to a module
changes by what it is given. -/
theorem updateEnergy_invisible (r' : Readings) (h : Cleared r') :
    (p.updateEnergy r).getControllerEnergyUsed r' = p.getControllerEnergyUsed r ∧
      (p.updateEnergy r).getLinuxEnergyUsed r' = p.getLinuxEnergyUsed r ∧
      ∀ m ∈ metered, (p.updateEnergy r).getModuleEnergyUsed r' m = p.getModuleEnergyUsed r m ∧
        (p.updateEnergy r).getModuleEnergyRemaining r' m =
          p.getModuleEnergyRemaining r m + Deal.gain (p.givenBy r) m := by
  refine ⟨?_, ?_, fun m hm => ⟨?_, ?_⟩⟩
  · simp only [getControllerEnergyUsed, usedWith, updateEnergy, h.controller, Int.add_zero]
  · simp only [getLinuxEnergyUsed, usedWith, updateEnergy, h.linux, Int.add_zero]
  · simp only [getModuleEnergyUsed, usedWith, updateEnergy, h.modules m hm, Int.add_zero, if_pos hm]
  · have hdebit : (p.debit r).modules m = p.getModuleEnergyRemaining r m := if_pos hm
    rw [getModuleEnergyRemaining, updateEnergy_modules, hdebit, h.modules m hm, Int.sub_zero]

end

/-- Every counter has counted, and the battery is charged. -/
def busyReadings : Readings := ⟨300, 200, fun _ => 100, 1500000, 9600000, 16000, .double⟩

theorem surplus_shared_busy :
    ((samplePolicy.updateEnergy busyReadings).energyRemaining.modules 1 < maxModuleEnergyRemaining →
        samplePolicy.credited busyReadings 1 = samplePolicy.credited busyReadings 0) ∧
      ((samplePolicy.debit busyReadings).modules 1 ≤ maxModuleEnergyRemaining →
        (samplePolicy.updateEnergy busyReadings).energyRemaining.modules 1 = maxModuleEnergyRemaining →
          samplePolicy.credited busyReadings 1 ≤ samplePolicy.credited busyReadings 0) :=
  surplus_shared samplePolicy busyReadings (by decide) (by decide) (by decide +kernel)

theorem updateEnergy_invisible_busy :
    (samplePolicy.updateEnergy busyReadings).getModuleEnergyUsed (idleReadings 0) 0 =
        samplePolicy.getModuleEnergyUsed busyReadings 0 ∧
      (samplePolicy.updateEnergy busyReadings).getModuleEnergyRemaining (idleReadings 0) 0 =
        samplePolicy.getModuleEnergyRemaining busyReadings 0 +
          Deal.gain (samplePolicy.givenBy busyReadings) 0 :=
  (updateEnergy_invisible samplePolicy busyReadings (idleReadings 0) ⟨rfl, rfl, fun _ _ => rfl⟩).2.2 0 (by decide)

end EnergyPolicy

end Signpost
