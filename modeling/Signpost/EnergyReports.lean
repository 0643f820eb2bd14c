/-
What a report does to the sums of the accounts: it only moves energy, from the
module an entry is about to the one that reports. The sums are over the
controller and all eight modules, and an entry that is not reasonable moves
nothing.

A report is a list of entries, each of which charges one account and credits
another. What one entry does to the three sums is said first, and a report of
any length by induction on it.
-/
import Signpost.EnergyAllotment

namespace Signpost

open Lib

namespace EnergyPolicy

open Controller

/-- What the controller and all modules have together: what remains, what was
used, and what is kept for the averages. -/
structure Sums where
  remaining : Int
  used : Int
  virtualAverage : Int
  deriving DecidableEq

def sums (p : EnergyPolicy) : Sums where
  remaining := p.energyRemaining.controller + Deal.total (List.finRange 8) p.energyRemaining.modules
  used := p.energyUsed.controller + Deal.total (List.finRange 8) p.energyUsed.modules
  virtualAverage :=
    p.virtualEnergyAverage.controller + Deal.total (List.finRange 8) p.virtualEnergyAverage.modules

/-- The sums when so much less was used. -/
def Sums.credit (s : Sums) (energy : Int) : Sums :=
  ⟨s.remaining + energy, s.used - energy, s.virtualAverage - energy⟩

theorem Sums.credit_credit_neg (s : Sums) (energy : Int) : (s.credit (-energy)).credit energy = s := by
  cases s
  simp only [credit, Sums.mk.injEq]
  omega

section
variable (p : EnergyPolicy) (m : Fin 8) (energy : Int)

theorem sums_credit : (p.credit m energy).sums = p.sums.credit energy := by
  have hnodup : (List.finRange 8).Nodup := List.nodup_finRange 8
  have hm : m ∈ List.finRange 8 := List.mem_finRange m
  simp only [sums, credit, Sums.credit, Deal.total_update hnodup hm, Sums.mk.injEq]
  omega

theorem sums_charge : (p.charge m energy).sums = p.sums.credit (-energy) := by
  unfold charge
  split
  · simp only [sums, Sums.credit, Sums.mk.injEq]
    omega
  · exact sums_credit p m (-energy)

end

section
variable {p : EnergyPolicy} {moduleInfo : ModuleState} {source : Fin 8}

/-- An entry about a registered module takes from one account what it gives to
another, which may be the same. -/
theorem reportEntry_sums {entry : ReportEntry} (h : (appidToModNum moduleInfo entry.applicationId).isSome) :
    ∃ p', reportEntry moduleInfo (some source) p entry = some p' ∧ p'.sums = p.sums := by
  obtain ⟨m, hm⟩ := Option.isSome_iff_exists.mp h
  unfold reportEntry
  by_cases hfaulty : Faulty entry
  · exact ⟨p, if_pos hfaulty, rfl⟩
  · rw [if_neg hfaulty, hm]
    refine ⟨_, rfl, ?_⟩
    rw [sums_credit, sums_charge, Sums.credit_credit_neg]

theorem updateEnergyFromReport_sums {entries : List ReportEntry}
    (h : ∀ entry ∈ entries, (appidToModNum moduleInfo entry.applicationId).isSome) :
    ∃ p', updateEnergyFromReport moduleInfo (some source) entries p = some p' ∧ p'.sums = p.sums := by
  induction entries generalizing p with
  | nil => exact ⟨p, rfl, rfl⟩
  | cons entry rest ih =>
    obtain ⟨q, hq, hsums⟩ : ∃ q, reportEntry moduleInfo (some source) p entry = some q ∧ q.sums = p.sums :=
      reportEntry_sums (h entry List.mem_cons_self)
    obtain ⟨p', hrest, hsums'⟩ := ih (p := q) fun e he => h e (List.mem_cons_of_mem entry he)
    refine ⟨p', ?_, hsums'.trans hsums⟩
    rw [updateEnergyFromReport, hq]
    exact hrest

end

theorem updateEnergyFromReport_reasonable (moduleInfo : ModuleState) (source : Option (Fin 8))
    (entries : List ReportEntry) (p : EnergyPolicy) :
    updateEnergyFromReport moduleInfo source (entries.filter fun entry => ¬ Faulty entry) p =
      updateEnergyFromReport moduleInfo source entries p := by
  induction entries generalizing p with
  | nil => rfl
  | cons entry rest ih =>
    by_cases hfaulty : Faulty entry
    · have hentry : reportEntry moduleInfo source p entry = some p := if_pos hfaulty
      rw [List.filter_cons_of_neg (by simpa using hfaulty), ih, updateEnergyFromReport, hentry, Option.bind_some]
    · rw [List.filter_cons_of_pos (by simpa using hfaulty)]
      simp only [updateEnergyFromReport, ih]

/-- A report about registered modules, by a module with a slot, changes none of the
sums, and its entries that are not reasonable change nothing. -/
theorem reports_move_energy (p : EnergyPolicy) (moduleInfo : ModuleState) (source : Fin 8)
    (entries : List ReportEntry)
    (h : ∀ entry ∈ entries, (appidToModNum moduleInfo entry.applicationId).isSome) :
    ∃ p', updateEnergyFromReport moduleInfo (some source) entries p = some p' ∧ p'.sums = p.sums ∧
      updateEnergyFromReport moduleInfo (some source) (entries.filter fun entry => ¬ Faulty entry) p = some p' := by
  obtain ⟨p', hreport, hsums⟩ : ∃ p', updateEnergyFromReport moduleInfo (some source) entries p = some p' ∧
      p'.sums = p.sums := updateEnergyFromReport_sums h
  exact ⟨p', hreport, hsums, (updateEnergyFromReport_reasonable ..).trans hreport⟩

/-- The radio reports about the controller, about itself and about the module next
to it, the last too much. -/
theorem reports_move_energy_radio : ∃ p',
    updateEnergyFromReport reportingInfo (some 0) [⟨0x20, 50⟩, ⟨0x31, 70⟩, ⟨0x32, 100001⟩] samplePolicy = some p' ∧
      p'.sums = samplePolicy.sums ∧
      updateEnergyFromReport reportingInfo (some 0)
        ([⟨0x20, 50⟩, ⟨0x31, 70⟩, ⟨0x32, 100001⟩].filter fun entry => ¬ Faulty entry) samplePolicy = some p' :=
  reports_move_energy samplePolicy reportingInfo 0 [⟨0x20, 50⟩, ⟨0x31, 70⟩, ⟨0x32, 100001⟩] (by decide)

end EnergyPolicy

end Signpost
