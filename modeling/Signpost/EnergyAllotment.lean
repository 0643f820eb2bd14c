/-
The energy policy over updates and reports, from a fresh start: when the
accounts hold no more than the battery, and when no account is over its cap.

A report moves energy from a module to the one that reports. The accounts of
slots 3 and 4 are not in the sum, and a report has no regard to caps.

The sum of the accounts changes in an update by what the battery lost, and less
for rounding; reports move energy between accounts. So the bound is an invariant
of a run of updates and reports where what is moved stays in accounts of the
sum.
-/
import Signpost.EnergyUpdate
import Signpost.Registration

namespace Signpost

open Lib

namespace EnergyPolicy

open Controller

/-- What happens to the policy between its calls: a report comes from a module
with this address, the modules being known as they are then. -/
inductive Event
  | update (r : Readings)
  | report (moduleInfo : ModuleState) (source : UInt8) (entries : List ReportEntry)

/-- A report from or about a module that is not registered has no step, unless
all of it is dropped. -/
def step (p : EnergyPolicy) : Event → Option EnergyPolicy
  | .update r => some (p.updateEnergy r)
  | .report moduleInfo source entries =>
    updateEnergyFromReport moduleInfo (addrToModNum moduleInfo source) entries p

/-- `init` without saved data. -/
def fresh (p : EnergyPolicy) (r : Readings) : EnergyPolicy := p.init r none none none

/-! ## What a report does -/

/-- An entry that is not dropped, about a module of these slots. -/
def About (moduleInfo : ModuleState) (m : Fin 8) (entry : ReportEntry) : Prop :=
  ¬ Faulty entry ∧ appidToModNum moduleInfo entry.applicationId = some m

instance (moduleInfo : ModuleState) (m : Fin 8) : DecidablePred (About moduleInfo m) :=
  fun _ => instDecidableAnd

section
variable {p p' : EnergyPolicy} {moduleInfo : ModuleState}

theorem reportEntry_cases {source : Option (Fin 8)} {entry : ReportEntry}
    (h : reportEntry moduleInfo source p entry = some p') :
    (Faulty entry ∧ p' = p) ∨ ∃ m s, source = some s ∧ About moduleInfo m entry ∧
      p' = (p.charge m entry.energyUsed.toNat).credit s entry.energyUsed.toNat := by
  unfold reportEntry at h
  split at h
  · next hfaulty => exact .inl ⟨hfaulty, (Option.some.inj h).symm⟩
  · next hfaulty =>
    split at h
    · next m s hm => exact .inr ⟨m, s, rfl, ⟨hfaulty, hm⟩, (Option.some.inj h).symm⟩
    · cases h

theorem updateEnergyFromReport_invariant {Inv : EnergyPolicy → Prop} {source : Option (Fin 8)}
    {entries : List ReportEntry}
    (hentry : ∀ entry ∈ entries, ∀ {p p'}, Inv p → reportEntry moduleInfo source p entry = some p' → Inv p')
    (h : updateEnergyFromReport moduleInfo source entries p = some p') (hp : Inv p) : Inv p' := by
  induction entries generalizing p with
  | nil =>
    cases h
    exact hp
  | cons entry rest ih =>
    obtain ⟨q, hq, hrest⟩ := Option.bind_eq_some_iff.mp h
    exact ih (fun e he => hentry e (List.mem_cons_of_mem entry he)) hrest
      (hentry entry List.mem_cons_self hp hq)

theorem batteryLast_reportEntry {source : Option (Fin 8)} {entry : ReportEntry}
    (h : reportEntry moduleInfo source p entry = some p') :
    p'.batteryLastEnergyRemaining = p.batteryLastEnergyRemaining := by
  rcases reportEntry_cases h with ⟨-, rfl⟩ | ⟨m, s, -, -, rfl⟩
  · rfl
  · unfold charge
    split <;> rfl

end

/-! ## The accounts and the battery -/

theorem mem_metered {m : Fin 8} : m ∈ metered ↔ m.val ≠ 3 ∧ m.val ≠ 4 := by
  revert m
  decide

theorem allotted_credit (p : EnergyPolicy) (m : Fin 8) (energy : Int) :
    allotted (p.credit m energy).energyRemaining =
      allotted p.energyRemaining + if m ∈ metered then energy else 0 := by
  unfold allotted credit
  split
  · next hm =>
    simp only [Deal.total_update metered_nodup hm]
    omega
  · next hm => simp only [Deal.total_update_of_notMem hm, Int.add_zero]

theorem allotted_charge (p : EnergyPolicy) (m : Fin 8) (energy : Int) :
    allotted (p.charge m energy).energyRemaining =
      allotted p.energyRemaining - if m.val = 4 then 0 else energy := by
  unfold charge
  split
  · next hm =>
    subst hm
    simp only [allotted]
    split <;> omega
  · next hm =>
    rw [allotted_credit]
    have h3 : m.val ≠ 3 := fun h => hm (Fin.ext h)
    by_cases h4 : m.val = 4
    · rw [if_pos h4, if_neg fun h => (mem_metered.mp h).2 h4, Int.sub_zero, Int.add_zero]
    · rw [if_neg h4, if_pos (mem_metered.mpr ⟨h3, h4⟩), Int.sub_eq_add_neg]

/-- No module with an account reports energy that was used for slot 4, which has none. -/
def Balanced : Event → Prop
  | .update _ => True
  | .report moduleInfo source entries =>
    ∀ s ∈ addrToModNum moduleInfo source, s ∈ metered →
      ∀ entry ∈ entries, ∀ m, m.val = 4 → About moduleInfo m entry → entry.energyUsed = 0

/-- The accounts hold no more than the battery. -/
def Covered (p : EnergyPolicy) : Prop := allotted p.energyRemaining ≤ p.batteryLastEnergyRemaining

theorem Covered.updateEnergy {p : EnergyPolicy} (h : Covered p) (r : Readings) : Covered (p.updateEnergy r) := by
  have hle := allotted_updateEnergy_le p r
  have hlast : (p.updateEnergy r).batteryLastEnergyRemaining = p.batteryLastEnergyRemaining - p.batteryUsed r := by
    simp only [batteryUsed, EnergyPolicy.updateEnergy]
    omega
  unfold Covered at h ⊢
  omega

theorem Covered.reportEntry {p p' : EnergyPolicy} {moduleInfo : ModuleState} {source : Option (Fin 8)}
    {entry : ReportEntry} (h : Covered p)
    (hbalanced : ∀ s ∈ source, s ∈ metered → ∀ m, m.val = 4 → About moduleInfo m entry → entry.energyUsed = 0)
    (hstep : EnergyPolicy.reportEntry moduleInfo source p entry = some p') : Covered p' := by
  have hlast := batteryLast_reportEntry hstep
  rcases reportEntry_cases hstep with ⟨-, rfl⟩ | ⟨m, s, rfl, habout, rfl⟩
  · exact h
  · unfold Covered at h ⊢
    rw [hlast, allotted_credit, allotted_charge]
    by_cases hs : s ∈ metered
    · by_cases hm : m.val = 4
      · have hzero := hbalanced s rfl hs m hm habout
        rw [if_pos hm, if_pos hs, hzero, UInt32.toNat_zero]
        omega
      · rw [if_neg hm, if_pos hs]
        omega
    · rw [if_neg hs]
      split <;> omega

def batteryAtStart (r : Readings) : Int := if r.battery < 0 then debugBackplaneBatteryStart else r.battery

theorem energyRemaining_fresh (p : EnergyPolicy) (r : Readings) :
    (p.fresh r).energyRemaining = p.allot (batteryAtStart r) := by
  simp only [fresh, init, batteryAtStart, Option.getD_none, ite_self]
  rfl

theorem covered_fresh (p : EnergyPolicy) (r : Readings) : Covered (p.fresh r) := by
  have hlast : (p.fresh r).batteryLastEnergyRemaining = batteryAtStart r := rfl
  unfold Covered
  rw [hlast, energyRemaining_fresh]
  have hmodules : Deal.total metered (p.allot (batteryAtStart r)).modules = 6 * (batteryAtStart r / 10) := by
    simp only [Deal.total, metered, allot, List.map_cons, List.map_nil, List.sum_cons, List.sum_nil,
      List.mem_cons, true_or, or_true, if_true]
    omega
  rw [allotted, hmodules]
  simp only [allot]
  omega

/-- While no energy is reported that was used for slot 4, the accounts hold no
more than the battery. -/
theorem allotted_le_battery {p₀ p : EnergyPolicy} {r : Readings}
    (h : Relation.ReflTransGen (Guarded step fun _ e _ => Balanced e) (p₀.fresh r) p) :
    allotted p.energyRemaining ≤ p.batteryLastEnergyRemaining := by
  have hcovered : Covered p := by
    refine Guarded.invariant (fun {p e p'} hp hstep hbalanced => ?_) h (covered_fresh p₀ r)
    cases e with
    | update r =>
      cases hstep
      exact hp.updateEnergy r
    | report moduleInfo source entries =>
      refine updateEnergyFromReport_invariant (fun entry hentry _ _ hq => hq.reportEntry ?_) hstep hp
      exact fun s hs hmetered m hm habout => hbalanced s hs hmetered entry hentry m hm habout
  exact hcovered

section

instance : DecidablePred Balanced
  | .update _ => instDecidableTrue
  | .report moduleInfo source entries =>
    inferInstanceAs (Decidable (∀ s ∈ addrToModNum moduleInfo source, s ∈ metered →
      ∀ entry ∈ entries, ∀ m : Fin 8, m.val = 4 → About moduleInfo m entry → entry.energyUsed = 0))

/-- A radio is registered at the first slot, and a module at the second. -/
def reportingInfo : ModuleState :=
  { controllerModuleInfo zeroModuleInfo with
    i2cAddressMods := ![0x31, 0x32, 0xff, moduleAddressController, moduleAddressStorage, 0xff, 0xff, 0xff] }

/-- The radio reports energy that was used for another module. -/
def sampleReport (applicationId : UInt16) (energy : UInt32) : Event :=
  .report reportingInfo 0x31 [⟨applicationId, energy⟩]

/-- The radio reports what it used for the controller, and accounts are updated. -/
theorem allotted_le_battery_report : ∃ p,
    Relation.ReflTransGen (Guarded step fun _ e _ => Balanced e) (boot.fresh (idleReadings 1000)) p ∧
    p.energyRemaining.modules 0 = 151 ∧ allotted p.energyRemaining ≤ p.batteryLastEnergyRemaining := by
  have hexec : (execGuarded step (fun _ e _ => Balanced e) (boot.fresh (idleReadings 1000))
      [sampleReport 0x20 50, .update (idleReadings 1010)]).map (fun p => p.energyRemaining.modules 0) =
      some 151 := by decide +kernel
  obtain ⟨p, hexec, hmodule⟩ := Option.map_eq_some_iff.mp hexec
  have hrun := Guarded.of_exec hexec
  exact ⟨p, hrun, hmodule, allotted_le_battery hrun⟩

/-- The radio reports what it used for the storage master. -/
theorem allotted_over_battery : ∃ p,
    Relation.ReflTransGen (Guarded step fun _ _ _ => True) (boot.fresh (idleReadings 1000)) p ∧
    p.batteryLastEnergyRemaining = 1000 ∧ allotted p.energyRemaining = 1050 := by
  have hexec : (execGuarded step (fun _ _ _ => True) (boot.fresh (idleReadings 1000)) [sampleReport 0x21 50]).map
      (fun p => (p.batteryLastEnergyRemaining, allotted p.energyRemaining)) = some (1000, 1050) := by
    decide +kernel
  obtain ⟨p, hexec, heq⟩ := Option.map_eq_some_iff.mp hexec
  exact ⟨p, Guarded.of_exec hexec, (Prod.mk.inj heq).1, (Prod.mk.inj heq).2⟩

end

/-! ## Caps -/

/-- Every account is within its cap. -/
structure Capped (e : EnergyRemaining) : Prop where
  controller : e.controller ≤ maxControllerEnergyRemaining
  modules : ∀ m, e.modules m ≤ maxModuleEnergyRemaining

/-- What a module gets for a report: what it used for others. -/
def reported (moduleInfo : ModuleState) (s : Fin 8) : List ReportEntry → Int
  | [] => 0
  | entry :: rest =>
    (if Faulty entry ∨ (s.val ≠ 3 ∧ appidToModNum moduleInfo entry.applicationId = some s) then 0
      else (entry.energyUsed.toNat : Int)) + reported moduleInfo s rest

/-- There is room in the accounts for an update. No debit takes a module over its
cap when the surplus is too small for a round, nor the controller when there is
none; with a surplus what all hold together is within the battery's capacity. -/
structure RoomForUpdate (p : EnergyPolicy) (r : Readings) : Prop where
  modules : totalEnergy r - p.batteryUsed r < 10 →
    ∀ m ∈ metered, p.energyRemaining.modules m - r.modules m ≤ maxModuleEnergyRemaining
  controller : totalEnergy r ≤ p.batteryUsed r →
    p.energyRemaining.controller - r.controller - r.linux - (p.batteryUsed r - totalEnergy r) ≤
      maxControllerEnergyRemaining
  all : p.batteryUsed r < totalEnergy r → allotted p.energyRemaining - p.batteryUsed r ≤ batteryCapacity

def RoomFor (p : EnergyPolicy) : Event → Prop
  | .update r => RoomForUpdate p r
  | .report moduleInfo source entries =>
    ∀ s ∈ addrToModNum moduleInfo source,
      p.energyRemaining.modules s + reported moduleInfo s entries ≤ maxModuleEnergyRemaining

theorem capped_fresh {r : Readings} (hbattery : r.battery ≤ batteryCapacity) :
    Capped (boot.fresh r).energyRemaining := by
  have hstart : batteryAtStart r ≤ batteryCapacity := by
    unfold batteryAtStart
    split
    · decide
    · exact hbattery
  rw [energyRemaining_fresh]
  unfold batteryCapacity at hstart
  refine ⟨?_, fun m => ?_⟩
  · simp only [allot, maxControllerEnergyRemaining]
    omega
  · simp only [allot, boot, maxModuleEnergyRemaining]
    split <;> omega

theorem cutOff_le (controller : Int) : cutOff controller ≤ maxControllerEnergyRemaining := by
  unfold cutOff
  split
  · exact Int.le_refl _
  · exact Int.not_lt.mp ‹_›

/-- What no module takes fits in the controller's account, if all that is
dealt out fits in the battery. -/
theorem distribute_controller_le {surplus : Int} {e : EnergyRemaining} (hsurplus : 0 ≤ surplus)
    (h : allotted e + surplus ≤ batteryCapacity) :
    (distribute surplus e).controller ≤ maxControllerEnergyRemaining := by
  by_cases hleft : (distribution surplus e).left = 0
  · simp only [distribute, hleft, Int.add_zero]
    exact cutOff_le _
  · have hfull : ∀ m ∈ metered, (distribute surplus e).modules m = maxModuleEnergyRemaining :=
      fun m hm => Deal.rounds_left metered_nodup hleft hm
    have htotal : Deal.total metered (distribute surplus e).modules = 6 * maxModuleEnergyRemaining := by
      rw [Deal.total, List.map_congr_left hfull]
      rfl
    have hle := (allotted_distribute surplus e hsurplus).1
    rw [allotted, htotal] at hle
    unfold batteryCapacity at h
    unfold maxModuleEnergyRemaining at hle
    unfold maxControllerEnergyRemaining
    omega

theorem Capped.updateEnergy {p : EnergyPolicy} {r : Readings} (h : Capped p.energyRemaining)
    (hroom : RoomForUpdate p r) : Capped (p.updateEnergy r).energyRemaining := by
  have hmetered : ∀ m ∈ metered, (p.debit r).modules m = p.energyRemaining.modules m - r.modules m :=
    fun m hm => if_pos hm
  have hother : ∀ m, m ∉ metered → (p.debit r).modules m ≤ maxModuleEnergyRemaining := fun m hm =>
    Int.le_trans (Int.le_of_eq (if_neg hm)) (h.modules m)
  have hdebit := allotted_debit p r
  change Capped (settle (p.batteryUsed r) (totalEnergy r) (p.debit r))
  unfold settle
  split
  · next hsurplus =>
    refine ⟨distribute_controller_le (by omega) ?_, fun m => Deal.rounds_le metered_nodup ?_⟩
    · have hall := hroom.all hsurplus
      omega
    · by_cases hm : m ∈ metered
      · by_cases hround : totalEnergy r - p.batteryUsed r < 10
        · rw [hmetered m hm]
          exact .inr (hroom.modules hround m hm)
        · exact .inl ⟨by decide, moduleSurplus_pos _ _ (Int.not_lt.mp hround), hm⟩
      · exact .inr (hother m hm)
  · next hsurplus =>
    refine ⟨hroom.controller (Int.not_lt.mp hsurplus), fun m => ?_⟩
    by_cases hm : m ∈ metered
    · simp only [hmetered m hm]
      exact hroom.modules (by omega) m hm
    · exact hother m hm

section
variable {p p' : EnergyPolicy} {moduleInfo : ModuleState} {s : Fin 8}

/-- What an entry does to the account of the module that reports, and that it
raises no other. -/
theorem reportEntry_accounts {entry : ReportEntry}
    (h : reportEntry moduleInfo (some s) p entry = some p') :
    p'.energyRemaining.controller ≤ p.energyRemaining.controller ∧
      p'.energyRemaining.modules s = p.energyRemaining.modules s + reported moduleInfo s [entry] ∧
      ∀ m, m ≠ s → p'.energyRemaining.modules m ≤ p.energyRemaining.modules m := by
  rcases reportEntry_cases h with ⟨hfaulty, rfl⟩ | ⟨m, t, hst, ⟨hfaulty, hm⟩, rfl⟩
  · simp [reported, hfaulty]
  · cases hst
    simp only [reported, hfaulty, hm, false_or, Option.some.injEq, Int.add_zero]
    unfold charge
    split
    · next hm3 =>
      subst hm3
      have hne : ¬(s.val ≠ 3 ∧ 3 = s) := fun h => h.1 (congrArg Fin.val h.2.symm)
      rw [if_neg hne]
      refine ⟨?_, ?_, fun m' hm' => ?_⟩
      · simp only [credit]
        omega
      · simp only [credit, Function.update_self]
      · simp only [credit, Function.update_of_ne hm', Int.le_refl]
    · next hm3 =>
      by_cases hms : m = s
      · subst hms
        have hpos : m.val ≠ 3 ∧ m = m := ⟨fun h => hm3 (Fin.ext h), rfl⟩
        rw [if_pos hpos]
        refine ⟨Int.le_refl _, ?_, fun m' hm' => ?_⟩
        · simp only [credit, Function.update_self]
          omega
        · simp only [credit, Function.update_of_ne hm', Int.le_refl]
      · rw [if_neg fun h => hms h.2]
        refine ⟨Int.le_refl _, ?_, fun m' hm' => ?_⟩
        · simp only [credit, Function.update_self, Function.update_of_ne (Ne.symm hms)]
        · simp only [credit, Function.update_of_ne hm']
          by_cases hmm : m' = m
          · subst hmm
            rw [Function.update_self]
            omega
          · rw [Function.update_of_ne hmm]

theorem updateEnergyFromReport_accounts {entries : List ReportEntry}
    (h : updateEnergyFromReport moduleInfo (some s) entries p = some p') :
    p'.energyRemaining.controller ≤ p.energyRemaining.controller ∧
      p'.energyRemaining.modules s = p.energyRemaining.modules s + reported moduleInfo s entries ∧
      ∀ m, m ≠ s → p'.energyRemaining.modules m ≤ p.energyRemaining.modules m := by
  induction entries generalizing p with
  | nil =>
    cases h
    exact ⟨Int.le_refl _, (Int.add_zero _).symm, fun _ _ => Int.le_refl _⟩
  | cons entry rest ih =>
    obtain ⟨q, hq, hrest⟩ := Option.bind_eq_some_iff.mp h
    obtain ⟨hcontroller, hsource, hothers⟩ := reportEntry_accounts hq
    obtain ⟨hcontroller', hsource', hothers'⟩ := ih hrest
    refine ⟨Int.le_trans hcontroller' hcontroller, ?_, fun m hm => Int.le_trans (hothers' m hm) (hothers m hm)⟩
    simp only [reported, Int.add_zero] at hsource hsource' ⊢
    omega

theorem Capped.report {source : UInt8} {entries : List ReportEntry} (h : Capped p.energyRemaining)
    (hroom : RoomFor p (.report moduleInfo source entries))
    (hstep : updateEnergyFromReport moduleInfo (addrToModNum moduleInfo source) entries p = some p') :
    Capped p'.energyRemaining := by
  cases hsource : addrToModNum moduleInfo source with
  | none =>
    rw [hsource] at hstep
    have hkeep : ∀ entry ∈ entries, ∀ {q q' : EnergyPolicy}, Capped q.energyRemaining →
        reportEntry moduleInfo none q entry = some q' → Capped q'.energyRemaining := by
      intro entry _ q q' hq hentry
      rcases reportEntry_cases hentry with ⟨-, rfl⟩ | ⟨_, _, hnone, -⟩
      · exact hq
      · cases hnone
    exact updateEnergyFromReport_invariant hkeep hstep h
  | some s =>
    rw [hsource] at hstep
    obtain ⟨hcontroller, hmodule, hothers⟩ := updateEnergyFromReport_accounts hstep
    refine ⟨Int.le_trans hcontroller h.controller, fun m => ?_⟩
    by_cases hm : m = s
    · subst hm
      rw [hmodule]
      exact hroom m hsource
    · exact Int.le_trans (hothers m hm) (h.modules m)

end

/-- While there is room for what is put into the accounts, none is over its cap. -/
theorem accounts_capped {p : EnergyPolicy} {r : Readings} (hbattery : r.battery ≤ batteryCapacity)
    (h : Relation.ReflTransGen (Guarded step fun p e _ => RoomFor p e) (boot.fresh r) p) :
    Capped p.energyRemaining := by
  have hkeep : ∀ {q : EnergyPolicy} {e : Event} {q' : EnergyPolicy}, Capped q.energyRemaining →
      step q e = some q' → RoomFor q e → Capped q'.energyRemaining := by
    intro q e q' hq hstep hroom
    cases e with
    | update r =>
      cases hstep
      exact hq.updateEnergy hroom
    | report moduleInfo source entries => exact hq.report hroom hstep
  have hcapped := Guarded.invariant @hkeep h (capped_fresh hbattery)
  exact hcapped

section

theorem roomForUpdate_iff {p : EnergyPolicy} {r : Readings} :
    ((totalEnergy r - p.batteryUsed r < 10 →
        ∀ m ∈ metered, p.energyRemaining.modules m - r.modules m ≤ maxModuleEnergyRemaining) ∧
      (totalEnergy r ≤ p.batteryUsed r →
        p.energyRemaining.controller - r.controller - r.linux - (p.batteryUsed r - totalEnergy r) ≤
          maxControllerEnergyRemaining) ∧
      (p.batteryUsed r < totalEnergy r → allotted p.energyRemaining - p.batteryUsed r ≤ batteryCapacity)) ↔
    RoomForUpdate p r :=
  ⟨fun h => ⟨h.1, h.2.1, h.2.2⟩, fun h => ⟨h.modules, h.controller, h.all⟩⟩

instance (p : EnergyPolicy) (r : Readings) : Decidable (RoomForUpdate p r) := decidable_of_iff _ roomForUpdate_iff

instance (p : EnergyPolicy) : DecidablePred (RoomFor p)
  | .update r => inferInstanceAs (Decidable (RoomForUpdate p r))
  | .report moduleInfo source entries =>
    inferInstanceAs (Decidable (∀ s ∈ addrToModNum moduleInfo source,
      p.energyRemaining.modules s + reported moduleInfo s entries ≤ maxModuleEnergyRemaining))

/-- The radio reports, and there is a surplus, until the battery is full. -/
theorem accounts_capped_full : ∃ p,
    Relation.ReflTransGen (Guarded step fun p e _ => RoomFor p e) (boot.fresh (idleReadings 96000000)) p ∧
    p.energyRemaining.modules 0 = maxModuleEnergyRemaining ∧ Capped p.energyRemaining := by
  have hexec : (execGuarded step (fun p e _ => RoomFor p e) (boot.fresh (idleReadings 96000000))
      [sampleReport 0x32 50, .update (idleReadings 96459000)]).map (fun p => p.energyRemaining.modules 0) =
      some maxModuleEnergyRemaining := by decide +kernel
  obtain ⟨p, hexec, hmodule⟩ := Option.map_eq_some_iff.mp hexec
  have hrun := Guarded.of_exec hexec
  exact ⟨p, hrun, hmodule, accounts_capped (by decide) hrun⟩

/-- With a full battery the radio reports energy that was used for another
module, or the battery reads more than its capacity. -/
theorem accounts_over_cap : ∃ p p',
    Relation.ReflTransGen (Guarded step fun _ _ _ => True) (boot.fresh (idleReadings 96459000)) p ∧
    Relation.ReflTransGen (Guarded step fun _ _ _ => True) (boot.fresh (idleReadings 96459000)) p' ∧
    p.energyRemaining.modules 0 = maxModuleEnergyRemaining + 50 ∧
    p'.energyRemaining.controller = maxControllerEnergyRemaining + 6 := by
  have hreport : (execGuarded step (fun _ _ _ => True) (boot.fresh (idleReadings 96459000))
      [sampleReport 0x32 50]).map (fun p => p.energyRemaining.modules 0) =
      some (maxModuleEnergyRemaining + 50) := by decide +kernel
  have hupdate : (execGuarded step (fun _ _ _ => True) (boot.fresh (idleReadings 96459000))
      [.update (idleReadings 96459010)]).map (fun p => p.energyRemaining.controller) =
      some (maxControllerEnergyRemaining + 6) := by decide +kernel
  obtain ⟨p, hp, hmodule⟩ := Option.map_eq_some_iff.mp hreport
  obtain ⟨p', hp', hcontroller⟩ := Option.map_eq_some_iff.mp hupdate
  exact ⟨p, p', Guarded.of_exec hp, Guarded.of_exec hp', hmodule, hcontroller⟩

end

end EnergyPolicy

end Signpost
