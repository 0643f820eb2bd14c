/-
The accounts of the energy policy across power failures: `update_energy_policy_cb` saves them in
the FRAM after each update, and `signpost_controller_initialize_energy` takes them from there when
the controller starts.

What the FRAM is asked to write is written. The calls in between are reports of modules and resets
of what a module has used.

The machine of `Lib.Recovery` works on the policy and saves its accounts. A ledger beside it notes
what the battery has lost unseen, and the bounds are invariants of policy and ledger together.
-/
import Signpost.EnergyAllotment
import Signpost.Lib.Recovery

namespace Signpost

open Lib

/-- `controller_fram_t` -/
structure ControllerFram where
  magic : UInt32
  remaining : EnergyRemaining
  used : Figures Int
  time : Figures UInt32

namespace EnergyPolicy

open Controller

def framMagicValue : UInt32 := 0x49C8000B

/-- `signpost_energy_policy_copy_internal_state` -/
def copyInternalState (fram : ControllerFram) (p : EnergyPolicy) : ControllerFram :=
  { fram with remaining := p.energyRemaining, used := p.energyUsed, time := p.timeSinceReset }

/-- `signpost_controller_initialize_energy`, with what is in the FRAM before and after. -/
def initializeEnergy (fram : ControllerFram) (r : Readings) : EnergyPolicy × ControllerFram :=
  if fram.magic = framMagicValue then
    let p := boot.init r (some fram.remaining) (some fram.used) (some fram.time)
    (p, copyInternalState fram p)
  else
    let p := boot.init r none none none
    (p, copyInternalState { fram with magic := framMagicValue } p)

/-- What is done to the policy: an update or a report, or a reset of what a module has used. -/
inductive Op
  | event (e : Event)
  | reset (r : Readings) (m : Fin 8)

/-- The controller, as far as it works with energy. -/
def energyMachine : Recovery.Machine EnergyPolicy ControllerFram Op Readings where
  step p
    | .event e => p.step e
    | .reset r m => some (p.resetModuleEnergyUsed r m)
  saving
    | .event (.update _) => true
    | _ => false
  save := copyInternalState
  restore := initializeEnergy

/-! ## What the battery has lost -/

/-- What is noted of a run: what the battery held at the last update or start, what it has lost
between the last save and the start after it since the accounts were set up, and how many updates
there were since. -/
structure Ledger where
  battery : Int
  lost : Int
  updates : Nat

namespace Ledger

def onOp (op : Op) (p : EnergyPolicy) (l : Ledger) : Ledger :=
  match op with
  | .event (.update _) => { l with battery := p.batteryLastEnergyRemaining, updates := l.updates + 1 }
  | _ => l

def onStart (fram : ControllerFram) (r : Readings) (l : Ledger) : Ledger :=
  if fram.magic = framMagicValue ∧ 0 ≤ r.battery then
    { l with battery := r.battery, lost := l.lost + (l.battery - r.battery) }
  else ⟨batteryAtStart r, 0, 0⟩

end Ledger

/-- The controller with a ledger, which is saved and lost with the accounts. -/
def notedMachine : Recovery.Machine (EnergyPolicy × Ledger) (ControllerFram × Ledger) Op Readings :=
  Recovery.noting energyMachine Ledger.onOp Ledger.onStart

/-- The ledger of a run of a controller whose FRAM was new. -/
def ledger (fram : ControllerFram) (es : List (Recovery.Event Op Readings)) : Option Ledger :=
  (Recovery.exec notedMachine ((boot, ⟨0, 0, 0⟩), (fram, ⟨0, 0, 0⟩)) es).map (·.1.2)

/-- No report is of energy that was used for slot 4. -/
def BalancedOp : Recovery.Event Op Readings → Prop
  | .op (.event e) => Balanced e
  | _ => True

/-- No report comes from a slot without an account. -/
def MeteredOp : Recovery.Event Op Readings → Prop
  | .op (.event (.report moduleInfo source _)) => ∀ s ∈ addrToModNum moduleInfo source, s ∈ metered
  | _ => True

/-- The accounts hold no more than the battery and what it has lost. -/
def Under (e : EnergyRemaining) (l : Ledger) : Prop := allotted e ≤ l.battery + l.lost

/-- They hold no less, but for 21 for each update and 6 for setting them up. -/
def Over (e : EnergyRemaining) (l : Ledger) : Prop := l.battery + l.lost - 21 * l.updates - 6 ≤ allotted e

/-! ## One step -/

section
variable {p p' : EnergyPolicy} {l : Ledger} {op : Op} {fram : ControllerFram} {r : Readings}

theorem batteryLast_updateEnergyFromReport {moduleInfo : ModuleState} {source : Option (Fin 8)}
    {entries : List ReportEntry} (h : updateEnergyFromReport moduleInfo source entries p = some p') :
    p'.batteryLastEnergyRemaining = p.batteryLastEnergyRemaining :=
  @updateEnergyFromReport_invariant p p' moduleInfo
    (fun q => q.batteryLastEnergyRemaining = p.batteryLastEnergyRemaining) source entries
    (fun _ _ {_ _} hq hentry => (batteryLast_reportEntry hentry).trans hq) h rfl

theorem battery_onOp (hbattery : l.battery = p.batteryLastEnergyRemaining) (h : energyMachine.step p op = some p') :
    (Ledger.onOp op p' l).battery = p'.batteryLastEnergyRemaining := by
  cases op with
  | reset r m =>
    cases h
    exact hbattery
  | event e =>
    cases e with
    | update r => rfl
    | report moduleInfo source entries => exact hbattery.trans (batteryLast_updateEnergyFromReport h).symm

theorem battery_onStart (l : Ledger) :
    (Ledger.onStart fram r l).battery = (initializeEnergy fram r).1.batteryLastEnergyRemaining := by
  have hinit : ∀ remaining used time,
      (boot.init r remaining used time).batteryLastEnergyRemaining = batteryAtStart r := fun _ _ _ => rfl
  have hstart : (initializeEnergy fram r).1.batteryLastEnergyRemaining = batteryAtStart r := by
    unfold initializeEnergy
    split <;> exact hinit _ _ _
  rw [hstart, Ledger.onStart]
  split
  · next h => rw [batteryAtStart, if_neg (Int.not_lt.mpr h.2)]
  · rfl

theorem energyRemaining_initializeEnergy : (initializeEnergy fram r).1.energyRemaining =
    if fram.magic = framMagicValue ∧ 0 ≤ r.battery then fram.remaining else boot.allot (batteryAtStart r) := by
  have hfresh : (boot.init r none none none).energyRemaining = boot.allot (batteryAtStart r) :=
    energyRemaining_fresh boot r
  unfold initializeEnergy
  by_cases hmagic : fram.magic = framMagicValue
  · rw [if_pos hmagic]
    by_cases hbattery : 0 ≤ r.battery
    · rw [if_pos ⟨hmagic, hbattery⟩]
      simp only [init, if_neg (Int.not_lt.mpr hbattery), Option.getD_some]
    · rw [if_neg fun h => hbattery h.2]
      simp only [init, if_pos (Int.not_le.mp hbattery), batteryAtStart]
      rfl
  · rw [if_neg hmagic, if_neg fun h => hmagic h.1]
    exact hfresh

theorem saved_initializeEnergy :
    (initializeEnergy fram r).2.remaining = (initializeEnergy fram r).1.energyRemaining := by
  unfold initializeEnergy
  split <;> rfl

theorem allotted_reportEntry {moduleInfo : ModuleState} {source : Option (Fin 8)} {entry : ReportEntry}
    (hbalanced : ∀ s ∈ source, s ∈ metered → ∀ m, m.val = 4 → About moduleInfo m entry → entry.energyUsed = 0)
    (h : reportEntry moduleInfo source p entry = some p') :
    allotted p'.energyRemaining ≤ allotted p.energyRemaining ∧
      ((∀ s ∈ source, s ∈ metered) → allotted p'.energyRemaining = allotted p.energyRemaining) := by
  rcases reportEntry_cases h with ⟨-, rfl⟩ | ⟨m, s, rfl, habout, rfl⟩
  · exact ⟨Int.le_refl _, fun _ => rfl⟩
  · rw [allotted_credit, allotted_charge]
    by_cases hs : s ∈ metered
    · by_cases hm : m.val = 4
      · have hzero := hbalanced s rfl hs m hm habout
        rw [if_pos hm, if_pos hs, hzero, UInt32.toNat_zero]
        exact ⟨by omega, fun _ => by omega⟩
      · rw [if_neg hm, if_pos hs]
        exact ⟨by omega, fun _ => by omega⟩
    · rw [if_neg hs]
      exact ⟨by split <;> omega, fun hall => absurd (hall s rfl) hs⟩

theorem allotted_report {moduleInfo : ModuleState} {source : UInt8} {entries : List ReportEntry}
    (hbalanced : Balanced (.report moduleInfo source entries))
    (h : p.step (.report moduleInfo source entries) = some p') :
    allotted p'.energyRemaining ≤ allotted p.energyRemaining ∧
      ((∀ s ∈ addrToModNum moduleInfo source, s ∈ metered) →
        allotted p'.energyRemaining = allotted p.energyRemaining) := by
  refine @updateEnergyFromReport_invariant p p' moduleInfo
    (fun q => allotted q.energyRemaining ≤ allotted p.energyRemaining ∧
      ((∀ s ∈ addrToModNum moduleInfo source, s ∈ metered) → allotted q.energyRemaining = allotted p.energyRemaining))
    (addrToModNum moduleInfo source) entries (fun entry hentry {q q'} hq hstep => ?_) h ⟨Int.le_refl _, fun _ => rfl⟩
  obtain ⟨hle, heq⟩ := allotted_reportEntry
    (fun s hs hmetered m hm habout => hbalanced s hs hmetered entry hentry m hm habout) hstep
  exact ⟨Int.le_trans hle hq.1, fun hall => (heq hall).trans (hq.2 hall)⟩

theorem Under.onOp (h : Under p.energyRemaining l) (hbattery : l.battery = p.batteryLastEnergyRemaining)
    (hbalanced : BalancedOp (.op op)) (hstep : energyMachine.step p op = some p') :
    Under p'.energyRemaining (Ledger.onOp op p' l) := by
  cases op with
  | reset r m =>
    cases hstep
    exact h
  | event e =>
    cases e with
    | update r =>
      cases hstep
      have hle := allotted_updateEnergy_le p r
      have hlast : (p.updateEnergy r).batteryLastEnergyRemaining = p.batteryNow r := rfl
      unfold Under batteryUsed at *
      simp only [Ledger.onOp, hlast]
      omega
    | report moduleInfo source entries => exact Int.le_trans (allotted_report hbalanced hstep).1 h

theorem Over.onOp (h : Over p.energyRemaining l) (hbattery : l.battery = p.batteryLastEnergyRemaining)
    (hbalanced : BalancedOp (.op op)) (hmetered : MeteredOp (.op op)) (hstep : energyMachine.step p op = some p') :
    Over p'.energyRemaining (Ledger.onOp op p' l) := by
  cases op with
  | reset r m =>
    cases hstep
    exact h
  | event e =>
    cases e with
    | update r =>
      cases hstep
      have hge := (updateEnergy_conserves p r).1
      have hlast : (p.updateEnergy r).batteryLastEnergyRemaining = p.batteryNow r := rfl
      unfold Over batteryUsed at *
      simp only [Ledger.onOp, hlast]
      omega
    | report moduleInfo source entries =>
      have hsame := (allotted_report hbalanced hstep).2 hmetered
      unfold Over at *
      rw [hsame]
      exact h

theorem allotted_allot (battery : Int) :
    allotted (boot.allot battery) ≤ battery ∧ battery - 6 ≤ allotted (boot.allot battery) := by
  simp only [allotted, Deal.total, metered, allot, List.map_cons, List.map_nil, List.sum_cons, List.sum_nil,
    List.mem_cons, true_or, or_true, if_true]
  omega

theorem battery_add_lost (battery : Int) :
    battery + (l.lost + (l.battery - battery)) = l.battery + l.lost := by omega

theorem Under.onStart (h : fram.magic = framMagicValue → Under fram.remaining l) (r : Readings) :
    Under (initializeEnergy fram r).1.energyRemaining (Ledger.onStart fram r l) := by
  rw [energyRemaining_initializeEnergy, Ledger.onStart]
  split
  · next hsaved =>
    unfold Under
    rw [battery_add_lost]
    exact h hsaved.1
  · exact Int.le_trans (allotted_allot _).1 (Int.le_of_eq (Int.add_zero _).symm)

theorem Over.onStart (h : fram.magic = framMagicValue → Over fram.remaining l) (r : Readings) :
    Over (initializeEnergy fram r).1.energyRemaining (Ledger.onStart fram r l) := by
  rw [energyRemaining_initializeEnergy, Ledger.onStart]
  split
  · next hsaved =>
    unfold Over
    rw [battery_add_lost]
    exact h hsaved.1
  · have hge := (allotted_allot (batteryAtStart r)).2
    simp only [Over]
    omega

end

/-! ## Runs -/

section
variable {fram : ControllerFram} {es : List (Recovery.Event Op Readings)} {p : EnergyPolicy} {fram' : ControllerFram}

/-- What holds of new accounts, and is kept by what is done to the policy and by starting from
what is saved, holds of the accounts after every run. -/
theorem ledger_invariant (R : EnergyRemaining → Ledger → Prop) (Good : Recovery.Event Op Readings → Prop)
    (hop : ∀ {p : EnergyPolicy} {l : Ledger} {op : Op} {p' : EnergyPolicy}, R p.energyRemaining l →
      l.battery = p.batteryLastEnergyRemaining → Good (.op op) → energyMachine.step p op = some p' →
      R p'.energyRemaining (Ledger.onOp op p' l))
    (hstart : ∀ {fram : ControllerFram} {l : Ledger} (r : Readings),
      (fram.magic = framMagicValue → R fram.remaining l) →
      R (initializeEnergy fram r).1.energyRemaining (Ledger.onStart fram r l))
    (hzero : R boot.energyRemaining ⟨0, 0, 0⟩) (hnew : fram.magic ≠ framMagicValue) (hgood : ∀ e ∈ es, Good e)
    (h : Recovery.exec energyMachine (boot, fram) es = some (p, fram')) :
    ∃ l, ledger fram es = some l ∧ l.battery = p.batteryLastEnergyRemaining ∧ R p.energyRemaining l := by
  obtain ⟨l, l', hnoted⟩ := Recovery.exec_noting Ledger.onOp Ledger.onStart ⟨0, 0, 0⟩ ⟨0, 0, 0⟩ h
  have hinv := Recovery.invariant (m := notedMachine) Good
    (P := fun v s => v.2.battery = v.1.batteryLastEnergyRemaining ∧ R v.1.energyRemaining v.2 ∧
      (s.1.magic = framMagicValue → R s.1.remaining s.2))
    (fun {v s op v'} hP hg hstep => ?_) (fun {v s} hP => ⟨hP.1, hP.2.1, fun _ => hP.2.1⟩)
    (fun {v s r} hP _ => ?_) hnoted ⟨rfl, hzero, fun hmagic => absurd hmagic hnew⟩ hgood
  · refine ⟨l, ?_, hinv.1, hinv.2.1⟩
    rw [ledger, notedMachine, hnoted]
    rfl
  · obtain ⟨p', hp', rfl⟩ := Option.map_eq_some_iff.mp hstep
    exact ⟨battery_onOp hP.1 hp', hop hP.2.1 hP.1 hg hp', hP.2.2⟩
  · have hkept := @hstart s.1 s.2 r hP.2.2
    refine ⟨battery_onStart s.2, hkept, fun _ => ?_⟩
    show R (initializeEnergy s.1 r).2.remaining _
    rw [saved_initializeEnergy]
    exact hkept

/-- **The accounts know the battery across power failures**: from a new FRAM on they hold at most
what the battery holds and what it has lost unseen, between a save and the start after it; and they
hold that but for rounding, if what is reported is reported by modules with an account. -/
theorem accounts_across_power_failures (hnew : fram.magic ≠ framMagicValue) (hbalanced : ∀ e ∈ es, BalancedOp e)
    (h : Recovery.exec energyMachine (boot, fram) es = some (p, fram')) :
    ∃ l, ledger fram es = some l ∧ allotted p.energyRemaining ≤ p.batteryLastEnergyRemaining + l.lost ∧
      ((∀ e ∈ es, MeteredOp e) →
        p.batteryLastEnergyRemaining + l.lost - 21 * l.updates - 6 ≤ allotted p.energyRemaining) := by
  obtain ⟨l, hl, hbattery, hunder⟩ := ledger_invariant Under BalancedOp
    (fun hR hb hg hstep => hR.onOp hb hg hstep) (fun {_ _} r hR => Under.onStart hR r) (Int.le_refl 0) hnew hbalanced h
  refine ⟨l, hl, hbattery ▸ hunder, fun hmetered => ?_⟩
  obtain ⟨l', hl', hbattery', hover⟩ := ledger_invariant Over (fun e => BalancedOp e ∧ MeteredOp e)
    (fun hR hb hg hstep => hR.onOp hb hg.1 hg.2 hstep) (fun {_ _} r hR => Over.onStart hR r)
    (by simp only [Over]; decide) hnew
    (fun e he => ⟨hbalanced e he, hmetered e he⟩) h
  obtain rfl := Option.some.inj (hl.symm.trans hl')
  exact hbattery ▸ hover

/-- A FRAM that nothing was written to. -/
def newFram : ControllerFram := ⟨0, ⟨0, fun _ => 0⟩, ⟨0, 0, fun _ => 0⟩, ⟨0, 0, fun _ => 0⟩⟩

/-- The battery reads 1000 at the start and 900 at an update. The radio reports, the power fails,
and it reads 850. -/
def outage : List (Recovery.Event Op Readings) :=
  [.powerCycle (idleReadings 1000), .op (.event (.update (idleReadings 900))),
    .op (.event (sampleReport 0x20 50)), .powerCycle (idleReadings 850)]

theorem accounts_across_outage : ∃ p fram', Recovery.exec energyMachine (boot, newFram) outage = some (p, fram') ∧
    p.batteryLastEnergyRemaining = 850 ∧ allotted p.energyRemaining = 900 ∧
    ∃ l, ledger newFram outage = some l ∧ allotted p.energyRemaining ≤ p.batteryLastEnergyRemaining + l.lost ∧
      ((∀ e ∈ outage, MeteredOp e) →
        p.batteryLastEnergyRemaining + l.lost - 21 * l.updates - 6 ≤ allotted p.energyRemaining) := by
  have hexec : (Recovery.exec energyMachine (boot, newFram) outage).map
      (fun x => (x.1.batteryLastEnergyRemaining, allotted x.1.energyRemaining)) = some (850, 900) := by
    decide +kernel
  obtain ⟨⟨p, fram'⟩, hrun, hvalues⟩ := Option.map_eq_some_iff.mp hexec
  obtain ⟨hbattery, hallotted⟩ := Prod.mk.inj hvalues
  refine ⟨p, fram', hrun, hbattery, hallotted, accounts_across_power_failures (by decide) ?_ hrun⟩
  simp only [outage, List.forall_mem_cons, BalancedOp, sampleReport]
  refine ⟨trivial, trivial, ?_, trivial, fun _ h => absurd h List.not_mem_nil⟩
  decide

def Saves : Recovery.Event Op Readings → Prop
  | .op op => energyMachine.saving op = true
  | .powerCycle _ => True

/-- The FRAM has what the policy has. -/
structure Saved (fram : ControllerFram) (p : EnergyPolicy) : Prop where
  remaining : fram.remaining = p.energyRemaining
  used : fram.used = p.energyUsed
  time : fram.time = p.timeSinceReset

theorem saved_of_saves {x : EnergyPolicy × ControllerFram} {e : Recovery.Event Op Readings} (he : Saves e)
    (h : Recovery.exec energyMachine x (es ++ [e]) = some (p, fram')) : Saved fram' p := by
  rw [Recovery.exec_append] at h
  obtain ⟨y, -, hlast⟩ := Option.bind_eq_some_iff.mp h
  obtain ⟨z, hz, hend⟩ := Option.bind_eq_some_iff.mp hlast
  cases hend
  cases e with
  | powerCycle r =>
    have hz : initializeEnergy y.2 r = (p, fram') := Option.some.inj hz
    unfold initializeEnergy at hz
    split at hz <;> · cases hz; exact ⟨rfl, rfl, rfl⟩
  | op op =>
    obtain ⟨q, -, heq⟩ := Option.map_eq_some_iff.mp hz
    have hsaving : energyMachine.saving op = true := he
    rw [if_pos hsaving] at heq
    cases heq
    exact ⟨rfl, rfl, rfl⟩

theorem magic_of_started {x x' : EnergyPolicy × ControllerFram}
    (hstarted : x.2.magic = framMagicValue ∨ ∃ r, .powerCycle r ∈ es)
    (h : Recovery.exec energyMachine x es = some x') : x'.2.magic = framMagicValue := by
  induction es generalizing x with
  | nil =>
    cases h
    exact hstarted.resolve_right fun ⟨_, hmem⟩ => absurd hmem List.not_mem_nil
  | cons e es ih =>
    obtain ⟨y, hy, hrest⟩ := Option.bind_eq_some_iff.mp h
    cases e with
    | powerCycle r =>
      refine ih (.inl ?_) hrest
      cases hy
      show (initializeEnergy x.2 r).2.magic = _
      unfold initializeEnergy
      split
      · next hmagic => exact hmagic
      · rfl
    | op op =>
      refine ih ?_ hrest
      obtain ⟨q, -, rfl⟩ := Option.map_eq_some_iff.mp hy
      rcases hstarted with hmagic | ⟨r, hmem⟩
      · left
        simp only
        split
        · exact hmagic
        · exact hmagic
      · exact .inr ⟨r, (List.mem_cons.mp hmem).resolve_left (by simp)⟩

/-- **A power failure takes the controller back to its last save**: reports and resets after it are
forgotten, and the figures of what remains and what was used are those of then. The battery is what
it reads now. -/
theorem power_failure_rolls_back {e : Recovery.Event Op Readings} {lost : List (Recovery.Event Op Readings)}
    {r : Readings} (hstarted : ∃ r, .powerCycle r ∈ es ++ [e]) (he : Saves e)
    (hlost : ∀ o ∈ lost, ∃ op, o = .op op ∧ energyMachine.saving op = false) (hbattery : 0 ≤ r.battery)
    (h : Recovery.exec energyMachine (boot, fram) (es ++ [e] ++ lost ++ [.powerCycle r]) = some (p, fram')) :
    ∃ q f, Recovery.exec energyMachine (boot, fram) (es ++ [e]) = some (q, f) ∧
      p.energyRemaining = q.energyRemaining ∧ p.energyUsed = q.energyUsed ∧ p.timeSinceReset = q.timeSinceReset ∧
      p.batteryLastEnergyRemaining = r.battery := by
  rw [Recovery.exec_append] at h
  obtain ⟨y, hy, hstart⟩ := Option.bind_eq_some_iff.mp h
  rw [Recovery.exec_append] at hy
  obtain ⟨⟨q, f⟩, hq, hrun⟩ := Option.bind_eq_some_iff.mp hy
  have hfram : y.2 = f := Recovery.exec_unsaved hlost hrun
  have hmagic : f.magic = framMagicValue := magic_of_started (.inr hstarted) hq
  have hsaved := saved_of_saves he hq
  have hinit : initializeEnergy f r = (p, fram') := hfram ▸ Option.some.inj hstart
  rw [initializeEnergy, if_pos hmagic] at hinit
  obtain ⟨rfl, -⟩ := Prod.mk.inj hinit
  refine ⟨q, f, hq, ?_⟩
  simp only [init, if_neg (Int.not_lt.mpr hbattery), Option.getD_some]
  exact ⟨hsaved.remaining, hsaved.used, hsaved.time, trivial⟩

theorem outage_rolls_back : ∃ p fram' q f, Recovery.exec energyMachine (boot, newFram) outage = some (p, fram') ∧
    Recovery.exec energyMachine (boot, newFram) (outage.take 2) = some (q, f) ∧
    p.energyRemaining = q.energyRemaining ∧ p.energyUsed = q.energyUsed ∧ p.timeSinceReset = q.timeSinceReset ∧
    p.batteryLastEnergyRemaining = 850 := by
  have hexec : (Recovery.exec energyMachine (boot, newFram) outage).isSome = true := by decide +kernel
  obtain ⟨⟨p, fram'⟩, hrun⟩ := Option.isSome_iff_exists.mp hexec
  have hlost : ∀ o ∈ ([.op (.event (sampleReport 0x20 50))] : List (Recovery.Event Op Readings)),
      ∃ op, o = .op op ∧ energyMachine.saving op = false := fun o ho => ⟨_, List.mem_singleton.mp ho, rfl⟩
  obtain ⟨q, f, hq, hsame⟩ := @power_failure_rolls_back newFram [.powerCycle (idleReadings 1000)] p fram'
    (.op (.event (.update (idleReadings 900)))) [.op (.event (sampleReport 0x20 50))] (idleReadings 850)
    ⟨idleReadings 1000, List.mem_cons_self⟩ rfl hlost (by decide) hrun
  exact ⟨p, fram', q, f, hrun, hq, hsame⟩

end

end EnergyPolicy

end Signpost
