/-
Power switches and isolation states: which module is on, and who may turn it on
again.

Each result is about the runs whose steps meet a condition: on what a timer, a
command or a reset that ends finds in the state before it.

What a step does to switches and states is taken from `ControllerSteps`, so the
three invariants are shown effect by effect. A failing run stands after each of
them.
-/
import Signpost.ControllerSteps

namespace Signpost.Controller

open Lib

/-! ## What is on is enabled -/

/-- A module that is switched off for its energy by a timer or a command is off
already, and a module that is switched on after a reset is enabled. -/
def PowerGuard (c : Controller) : Event → Prop
  | .downlink topic data remaining =>
    ∀ m ∈ c.commanded topic data .on, remaining ≤ 0 → c.power m = false
  | .dutyCycleTimer timer remaining =>
    ∀ m ∈ c.dutyCycleTimers[timer]?, ¬ (0 < remaining ∧ c.isolationState m = .disabledDutyCycle) →
      c.isolationState m ≠ .disabledOff → c.power m = false
  | .resume _ => ∀ m ∈ c.resumed, HasSwitch m → c.isolationState m = .enabled
  | _ => True

def PowerOnlyEnabled (c : Controller) : Prop := ∀ m, c.power m = true → c.isolationState m = .enabled

section
variable {c c' : Controller} {m : Fin 8} {e : Event} {o : List Action}

theorem PowerOnlyEnabled.keeps (h : PowerOnlyEnabled c) (hkeeps : Keeps c c') : PowerOnlyEnabled c' :=
  fun m hm => (hkeeps.state m).trans (h m (hkeeps.power m hm))

theorem PowerOnlyEnabled.switchOff (h : PowerOnlyEnabled c) (s : IsolationState) :
    PowerOnlyEnabled (((c.setState m s).disablePower m).disableI2c m) := by
  intro m' hm'
  obtain ⟨hne, hpower⟩ := power_of_disablePower (c := c.setState m s) hm'
  exact (isolationState_setState_of_ne hne).trans (h m' hpower)

theorem PowerOnlyEnabled.switchOn (h : PowerOnlyEnabled c) :
    PowerOnlyEnabled (((c.setState m .enabled).enablePower m).enableI2c m) := by
  intro m' hm'
  refine isolationState_setState.trans ?_
  split_ifs with heq
  · rfl
  · rcases power_of_enablePower (c := c.setState m .enabled) hm' with ⟨heq', -⟩ | hpower
    · exact (heq heq').elim
    · exact h m' hpower

theorem PowerOnlyEnabled.setState (h : PowerOnlyEnabled c) (hoff : c.power m = false) (s : IsolationState) :
    PowerOnlyEnabled (c.setState m s) := by
  intro m' hm'
  have hne : m' ≠ m := fun heq => by
    rw [heq, show (c.setState m s).power m = c.power m from rfl, hoff] at hm'
    cases hm'
  exact (isolationState_setState_of_ne hne).trans (h m' hm')

theorem PowerOnlyEnabled.enablePower (h : PowerOnlyEnabled c)
    (hm : HasSwitch m → c.isolationState m = .enabled) :
    PowerOnlyEnabled (c.enablePower m) := by
  intro m' hm'
  rcases power_of_enablePower hm' with ⟨rfl, hswitch⟩ | hpower
  · exact hm hswitch
  · exact h m' hpower

theorem PowerOnlyEnabled.update (h : PowerOnlyEnabled c) (remaining : Fin 8 → Int) :
    PowerOnlyEnabled (c.updateEnergyPolicy remaining).1 := by
  intro m hm
  rcases updateEnergyPolicy_cases c remaining m with
    ⟨-, -, hoff, -⟩ | ⟨-, hstate, -⟩ | ⟨-, -, hstate, hpower, -⟩
  · rw [hoff] at hm
    cases hm
  · exact hstate
  · rw [hpower] at hm
    exact hstate.trans (h m hm)

theorem PowerOnlyEnabled.effect (h : PowerOnlyEnabled c) (heffect : Effect c e c' o)
    (hguard : PowerGuard c e) :
    PowerOnlyEnabled c' := by
  cases heffect with
  | keeps hkeeps => exact h.keeps hkeeps
  | dutyCycleRequest _ _ hkeeps => exact (h.switchOff _).keeps hkeeps
  | @command topic data remaining m command hm hcommand hreset =>
    cases command with
    | on =>
      rw [moduleCommand]
      split_ifs with hremaining
      · exact h.switchOn
      · exact h.setState (hguard m (commanded_of hcommand hm) (Int.not_lt.mp hremaining)) _
    | off => exact h.switchOff _
    | reset => exact (hreset rfl).elim
  | timerEnables _ _ _ hkeeps => exact h.switchOn.keeps hkeeps
  | timerCutsOff hm hnot hoff hkeeps => exact (h.setState (hguard _ hm hnot hoff) _).keeps hkeeps
  | updates => exact h.update _
  | resetEnds hstack hstage hkeeps =>
    exact (h.enablePower (hguard _ (resumed_reset hstack hstage))).keeps hkeeps
  | check hcheck =>
    obtain ⟨hstate, hpower⟩ := hcheck.power
    intro m hm
    refine (hstate m).trans ?_
    rcases hpower m hm with hm | ⟨⟨later, rfl⟩, hresumed, hswitch⟩
    · exact h m hm
    · exact hguard m hresumed hswitch

end

/-- A module's power is on only if the module is enabled. -/
theorem power_only_enabled {moduleInfo : ModuleState} {es : List Event} {c : Controller} {os : List Action}
    (h : Run (fun c e c' o => c.step e = some (c', o) ∧ PowerGuard c e) (init moduleInfo) es c os)
    (m : Fin 8) (hm : c.power m = true) : c.isolationState m = .enabled :=
  have honly : PowerOnlyEnabled c :=
    h.invariant (fun hinv hstep => hinv.effect (effect_of_step hstep.1) hstep.2) fun _ _ => rfl
  honly m hm

section

instance (c : Controller) : DecidablePred (PowerGuard c)
  | .message .. => instDecidableTrue
  | .downlink topic data remaining =>
    inferInstanceAs (Decidable (∀ m ∈ c.commanded topic data .on, remaining ≤ 0 → c.power m = false))
  | .checkModuleInit .. => instDecidableTrue
  | .dutyCycleTimer timer remaining =>
    inferInstanceAs (Decidable (∀ m ∈ c.dutyCycleTimers[timer]?,
      ¬ (0 < remaining ∧ c.isolationState m = .disabledDutyCycle) →
        c.isolationState m ≠ .disabledOff → c.power m = false))
  | .checkWatchdogs => instDecidableTrue
  | .updateEnergyPolicy _ => instDecidableTrue
  | .resume _ => inferInstanceAs (Decidable (∀ m ∈ c.resumed, HasSwitch m → c.isolationState m = .enabled))

theorem length_zeros : (List.replicate 32 (0 : UInt8)).length = 32 := rfl

/-- Module `a` is registered at the first slot. -/
def sampleInfo : ModuleState where
  magic := 0xDEADBEEF
  selfModNum := 3
  i2cAddress := moduleAddressController
  selfName := declaredName (ofChars "signpost/control")
  names := Function.update (fun _ => declaredName []) 0 (declaredName (ofChars "a"))
  i2cAddressMods := ![0x10, 0xFF, 0xFF, moduleAddressController, moduleAddressStorage, 0xFF, 0xFF, 0xFF]
  nonces _ := 0
  haskey _ := false
  keys _ := ⟨List.replicate 32 0, length_zeros⟩

/-- Module `a` asks to be switched off for some time. -/
def sampleRequest : Event := .message ⟨0x10, notificationFrame, energyApiType, 3, [0, 0, 0, 0]⟩ true

def sampleCommand (command : String) (remaining : Int) : Event :=
  .downlink (ofChars "a") (ofChars command) remaining

/-- A module is switched off for some time, and back on; it is reset. -/
theorem power_only_enabled_reset : ∃ c os,
    Run (fun c e c' o => c.step e = some (c', o) ∧ PowerGuard c e) (init sampleInfo)
      [sampleRequest, .dutyCycleTimer 0 5, sampleCommand "reset" 5, .resume fun _ => true] c os ∧
    c.power 0 = true ∧ c.isolationState 0 = .enabled := by
  have hexec : (Run.exec (fun (c : Controller) e => if PowerGuard c e then c.step e else none) (init sampleInfo)
      [sampleRequest, .dutyCycleTimer 0 5, sampleCommand "reset" 5, .resume fun _ => true]).map
      (fun r => r.1.power 0) = some true := by decide +kernel
  obtain ⟨⟨c, os⟩, hexec, hpower⟩ := Option.map_eq_some_iff.mp hexec
  have hrun := Run.of_exec_guard hexec
  exact ⟨c, os, hrun, hpower, power_only_enabled hrun 0 hpower⟩

/-- A module that is on is sent the command to be on when it has no energy left. -/
theorem on_without_energy : ∃ c os,
    Run (fun c e c' o => c.step e = some (c', o)) (init sampleInfo) [sampleCommand "on" 0] c os ∧
    c.power 0 = true ∧ c.isolationState 0 = .disabledEnergy := by
  have hexec : (Run.exec (fun (c : Controller) e => c.step e) (init sampleInfo) [sampleCommand "on" 0]).map
      (fun r => (r.1.power 0, r.1.isolationState 0)) = some (true, .disabledEnergy) := by decide +kernel
  obtain ⟨⟨c, os⟩, hexec, heq⟩ := Option.map_eq_some_iff.mp hexec
  exact ⟨c, os, Run.of_exec hexec, (Prod.mk.inj heq).1, (Prod.mk.inj heq).2⟩

end

/-! ## A module that is switched off by command stays off -/

/-- What would overwrite the state of a module that is off by command does not
find one: a request to be switched off for some time, an update that finds its
energy used up, and a reset that ends. -/
def ManualGuard (c : Controller) : Event → Prop
  | .message msg _ => DutyCycleRequest msg →
    ∀ m ∈ addrToModNum c.moduleInfo msg.sourceAddress, c.isolationState m ≠ .disabledOff
  | .updateEnergyPolicy remaining => ∀ m, c.isolationState m = .disabledOff → ¬ Exhausted remaining m
  | .resume _ => ∀ m ∈ c.resumed, HasSwitch m → c.isolationState m ≠ .disabledOff
  | _ => True

/-- A module that is off by command. -/
structure Off (c : Controller) (m : Fin 8) : Prop where
  power : c.power m = false
  state : c.isolationState m = .disabledOff

/-- A module that was switched off by command, and not on since, is off. -/
def StaysOff (os : List Action) (c : Controller) : Prop :=
  ∀ (m : Fin 8) (os₁ os₂ : List Action), os = os₁ ++ .turnedOff m :: os₂ → .turnedOn m ∉ os₂ → c.Off m

section
variable {c c' : Controller} {m m' : Fin 8} {e : Event} {o os : List Action}

theorem Off.of_eq (h : Off c m) (hpower : c'.power m = true → c.power m = true)
    (hstate : c'.isolationState m = c.isolationState m) : Off c' m := by
  refine ⟨?_, hstate.trans h.state⟩
  by_contra hon
  have hon' := hpower (Bool.eq_true_of_not_eq_false hon)
  rw [h.power] at hon'
  cases hon'

theorem Off.keeps (h : Off c m) (hkeeps : Keeps c c') : Off c' m :=
  h.of_eq (hkeeps.power m) (hkeeps.state m)

theorem Off.other (h : Off c m) (hne : m ≠ m') (s : IsolationState) :
    Off (((c.setState m' s).disablePower m').disableI2c m') m ∧
      Off (((c.setState m' s).enablePower m').enableI2c m') m ∧ Off (c.setState m' s) m := by
  have hstate := (isolationState_setState_of_ne (c := c) (s := s) hne).trans h.state
  exact ⟨⟨(power_disablePower_of_ne (c := c.setState m' s) hne).trans h.power, hstate⟩,
    ⟨(power_enablePower_of_ne (c := c.setState m' s) hne).trans h.power, hstate⟩, ⟨h.power, hstate⟩⟩

theorem Off.enablePower (h : Off c m) (hm : HasSwitch m' → c.isolationState m' ≠ .disabledOff) :
    Off (c.enablePower m') m := by
  refine h.of_eq (fun hon => ?_) rfl
  rcases power_of_enablePower hon with ⟨rfl, hswitch⟩ | hpower
  · exact (hm hswitch h.state).elim
  · exact hpower

theorem Off.effect (h : Off c m) (heffect : Effect c e c' o) (hguard : ManualGuard c e)
    (hon : .turnedOn m ∉ o) : Off c' m := by
  cases heffect with
  | keeps hkeeps => exact h.keeps hkeeps
  | @dutyCycleRequest msg replied m' c' hmsg hm hkeeps =>
    have hne : m ≠ m' := fun heq => hguard hmsg m' hm (heq ▸ h.state)
    exact (h.other hne _).1.keeps hkeeps
  | @command topic data remaining m' command hm hcommand hreset =>
    by_cases hne : m = m'
    · subst hne
      cases command with
      | on =>
        rw [moduleCommand] at hon
        split_ifs at hon <;> simp at hon
      | off => exact ⟨power_disablePower_self, isolationState_setState.trans (if_pos rfl)⟩
      | reset => exact (hreset rfl).elim
    · cases command with
      | on =>
        rw [moduleCommand]
        split_ifs
        · exact (h.other hne _).2.1
        · exact (h.other hne _).2.2
      | off => exact (h.other hne _).1
      | reset => exact (hreset rfl).elim
  | @timerEnables timer remaining m' c' hm hremaining hstate hkeeps =>
    have hne : m ≠ m' := fun heq => by
      rw [← heq, h.state] at hstate
      cases hstate
    exact (h.other hne _).2.1.keeps hkeeps
  | @timerCutsOff timer remaining m' c' hm hnot hoff hkeeps =>
    have hne : m ≠ m' := fun heq => hoff (heq ▸ h.state)
    exact (h.other hne _).2.2.keeps hkeeps
  | @updates remaining =>
    rcases updateEnergyPolicy_cases c remaining m with ⟨hoff, -⟩ | ⟨hon, -⟩ | ⟨-, -, hstate, hpower, -⟩
    · exact (hguard m h.state hoff).elim
    · rcases hon.2.2 with hstate | hstate <;>
      · rw [h.state] at hstate
        cases hstate
    · exact h.of_eq (fun hm => hpower ▸ hm) hstate
  | resetEnds hstack hstage hkeeps => exact (h.enablePower (hguard _ (resumed_reset hstack hstage))).keeps hkeeps
  | check hcheck =>
    obtain ⟨hstate, hpower⟩ := hcheck.power
    refine h.of_eq (fun hm => ?_) (hstate m)
    rcases hpower m hm with hm | ⟨⟨later, rfl⟩, hresumed, hswitch⟩
    · exact hm
    · exact (hguard m hresumed hswitch h.state).elim

theorem off_of_turnedOff (heffect : Effect c e c' o) (hmem : .turnedOff m ∈ o) :
    o = [.turnedOff m] ∧ Off c' m := by
  cases heffect with
  | @command topic data remaining m' command hm hcommand hreset =>
    cases command with
    | on =>
      rw [moduleCommand] at hmem
      split_ifs at hmem <;> simp at hmem
    | off =>
      have heq : m = m' := by simpa [moduleCommand] using hmem
      subst heq
      exact ⟨rfl, power_disablePower_self, isolationState_setState.trans (if_pos rfl)⟩
    | reset => exact (hreset rfl).elim
  | updates => simp [updateEnergyPolicy] at hmem
  | check hcheck => exact (Bool.false_ne_true (hcheck.actions _ hmem)).elim
  | _ => simp at hmem

theorem StaysOff.effect (h : StaysOff os c) (heffect : Effect c e c' o) (hguard : ManualGuard c e) :
    StaysOff (os ++ o) c' := by
  intro m os₁ os₂ hsplit hon
  rcases Run.append_eq_append_cons hsplit with ⟨r, hos, rfl⟩ | ⟨r, -, ho⟩
  · have hoff : Off c m := h m os₁ r hos fun hr => hon (List.mem_append_left _ hr)
    exact hoff.effect heffect hguard fun ho => hon (List.mem_append_right _ ho)
  · exact (off_of_turnedOff heffect (ho ▸ List.mem_append_right _ List.mem_cons_self)).2

end

/-- After the command to be off a module is off, until the command to be on. -/
theorem manual_off_sticky {moduleInfo : ModuleState} {es : List Event} {c : Controller} {os : List Action}
    (h : Run (fun c e c' o => c.step e = some (c', o) ∧ ManualGuard c e) (init moduleInfo) es c os)
    {m : Fin 8} {os₁ os₂ : List Action} (hos : os = os₁ ++ .turnedOff m :: os₂) (hon : .turnedOn m ∉ os₂) :
    c.power m = false ∧ c.isolationState m = .disabledOff :=
  have hstays : StaysOff os c :=
    h.history _ (fun hinv hstep => hinv.effect (effect_of_step hstep.1) hstep.2) fun _ _ _ hnil _ => by
      simp at hnil
  have hoff : Off c m := hstays m os₁ os₂ hos hon
  ⟨hoff.power, hoff.state⟩

section

instance (c : Controller) : DecidablePred (ManualGuard c)
  | .message msg _ => inferInstanceAs (Decidable (DutyCycleRequest msg →
      ∀ m ∈ addrToModNum c.moduleInfo msg.sourceAddress, c.isolationState m ≠ .disabledOff))
  | .downlink .. => instDecidableTrue
  | .checkModuleInit .. => instDecidableTrue
  | .dutyCycleTimer .. => instDecidableTrue
  | .checkWatchdogs => instDecidableTrue
  | .updateEnergyPolicy remaining =>
    inferInstanceAs (Decidable (∀ m, c.isolationState m = .disabledOff → ¬ Exhausted remaining m))
  | .resume _ => inferInstanceAs (Decidable (∀ m ∈ c.resumed, HasSwitch m → c.isolationState m ≠ .disabledOff))

/-- A module is switched off by command, and the energy policy is updated. -/
theorem manual_off_sticky_update : ∃ c os,
    Run (fun c e c' o => c.step e = some (c', o) ∧ ManualGuard c e) (init sampleInfo)
      [sampleCommand "off" 5, .updateEnergyPolicy fun _ => 5] c os ∧
    c.power 0 = false ∧ c.isolationState 0 = .disabledOff := by
  have hexec : (Run.exec (fun (c : Controller) e => if ManualGuard c e then c.step e else none) (init sampleInfo)
      [sampleCommand "off" 5, .updateEnergyPolicy fun _ => 5]).map (fun r => r.2) = some [.turnedOff 0] := by
    decide +kernel
  obtain ⟨⟨c, os⟩, hexec, hos⟩ := Option.map_eq_some_iff.mp hexec
  have hrun := Run.of_exec_guard hexec
  have hos' : os = [] ++ .turnedOff 0 :: [] := hos
  exact ⟨c, os, hrun, manual_off_sticky hrun hos' List.not_mem_nil⟩

/-- Its energy is used up while it is off, and comes back. -/
theorem switched_on_again : ∃ c os,
    Run (fun c e c' o => c.step e = some (c', o)) (init sampleInfo)
      [sampleCommand "off" 5, .updateEnergyPolicy fun _ => 0, .updateEnergyPolicy fun _ => 5] c os ∧
    .turnedOff 0 ∈ os ∧ .turnedOn 0 ∉ os ∧ c.power 0 = true ∧ c.isolationState 0 = .enabled := by
  have hexec : (Run.exec (fun (c : Controller) e => c.step e) (init sampleInfo)
      [sampleCommand "off" 5, .updateEnergyPolicy fun _ => 0, .updateEnergyPolicy fun _ => 5]).map
      (fun r => (decide (.turnedOff 0 ∈ r.2), decide (.turnedOn 0 ∈ r.2), r.1.power 0, r.1.isolationState 0)) =
      some (true, false, true, .enabled) := by decide +kernel
  obtain ⟨⟨c, os⟩, hexec, heq⟩ := Option.map_eq_some_iff.mp hexec
  obtain ⟨hoff, heq⟩ := Prod.mk.inj heq
  obtain ⟨hon, heq⟩ := Prod.mk.inj heq
  exact ⟨c, os, Run.of_exec hexec, of_decide_eq_true hoff, of_decide_eq_false hon, (Prod.mk.inj heq).1,
    (Prod.mk.inj heq).2⟩

end

/-! ## A module that is cut off has no energy and is off -/

/-- A timer or a command that cuts a module off finds it without energy, and off. -/
def CutOffGuard (c : Controller) : Event → Prop
  | .downlink topic data remaining => ∀ m ∈ c.commanded topic data .on, remaining ≤ 0 → c.power m = false
  | .dutyCycleTimer timer remaining =>
    ∀ m ∈ c.dutyCycleTimers[timer]?, ¬ (0 < remaining ∧ c.isolationState m = .disabledDutyCycle) →
      c.isolationState m ≠ .disabledOff → remaining ≤ 0 ∧ c.power m = false
  | _ => True

/-- What is set to `ModuleDisabledEnergy` in a step has no energy remaining, and is off then. -/
structure Truthful (c c' : Controller) (o : List Action) : Prop where
  cutOff : ∀ m, c'.isolationState m = .disabledEnergy → c.isolationState m ≠ .disabledEnergy →
    ∃ remaining, .cutOff m remaining ∈ o
  exhausted : ∀ m remaining, .cutOff m remaining ∈ o → remaining ≤ 0 ∧ c'.power m = false

section
variable {c c' : Controller} {m m' : Fin 8} {e : Event} {o : List Action}

/-- A step in which no state is changed to `ModuleDisabledEnergy`. -/
theorem Truthful.of_none (ho : ∀ m remaining, .cutOff m remaining ∉ o)
    (hstate : ∀ m, c'.isolationState m = .disabledEnergy → c.isolationState m = .disabledEnergy) :
    Truthful c c' o :=
  ⟨fun m h hnot => (hnot (hstate m h)).elim, fun m remaining h => (ho m remaining h).elim⟩

theorem Truthful.of_setState {remaining : Int} (hremaining : remaining ≤ 0) (hpower : c'.power m = false)
    (hstate : ∀ m', m' ≠ m → c'.isolationState m' = c.isolationState m')
    (hmem : ∀ m' r, .cutOff m' r ∈ o ↔ m' = m ∧ r = remaining) :
    Truthful c c' o := by
  refine ⟨fun m' h hnot => ?_, fun m' r h => ?_⟩
  · by_cases hm : m' = m
    · exact ⟨remaining, (hmem m' remaining).mpr ⟨hm, rfl⟩⟩
    · exact (hnot ((hstate m' hm).symm.trans h)).elim
  · obtain ⟨rfl, rfl⟩ := (hmem m' r).mp h
    exact ⟨hremaining, hpower⟩

theorem Truthful.of_update (c : Controller) (remaining : Fin 8 → Int) :
    Truthful c (c.updateEnergyPolicy remaining).1 (c.updateEnergyPolicy remaining).2 := by
  have hmem : ∀ m r, Action.cutOff m r ∈ (c.updateEnergyPolicy remaining).2 ↔
      Exhausted remaining m ∧ r = remaining m := fun m r => by
    simp [updateEnergyPolicy, eq_comm]
  refine ⟨fun m h hnot => ?_, fun m r h => ?_⟩
  · rcases updateEnergyPolicy_cases c remaining m with ⟨hoff, -⟩ | ⟨-, hstate, -⟩ | ⟨-, -, hstate, -⟩
    · exact ⟨remaining m, (hmem m _).mpr ⟨hoff, rfl⟩⟩
    · rw [hstate] at h
      cases h
    · exact (hnot (hstate.symm.trans h)).elim
  · obtain ⟨hoff, rfl⟩ := (hmem m r).mp h
    rcases updateEnergyPolicy_cases c remaining m with ⟨-, -, hpower, -⟩ | ⟨hon, -⟩ | ⟨hnot, -⟩
    · exact ⟨hoff.2, hpower⟩
    · exact absurd hon.2.1 (Int.not_lt.mpr hoff.2)
    · exact (hnot hoff).elim

theorem Truthful.effect (heffect : Effect c e c' o) (hguard : CutOffGuard c e) : Truthful c c' o := by
  cases heffect with
  | keeps hkeeps => exact .of_none (by simp) fun m h => (hkeeps.state m).symm.trans h
  | @dutyCycleRequest msg replied m' c' hmsg hm hkeeps =>
    refine .of_none (by simp) fun m h => ?_
    have hstate := (hkeeps.state m).trans isolationState_setState
    rw [h] at hstate
    split_ifs at hstate with heq
    exact hstate.symm
  | @command topic data remaining m' command hm hcommand hreset =>
    cases command with
    | on =>
      rw [moduleCommand]
      split_ifs with hpos
      · refine .of_none (by simp) fun m h => ?_
        have hstate := isolationState_setState.symm.trans h
        split_ifs at hstate
        exact hstate
      · have hremaining := Int.not_lt.mp hpos
        exact .of_setState hremaining (hguard _ (commanded_of hcommand hm) hremaining)
          (fun _ hne => isolationState_setState_of_ne hne) (by simp)
    | off =>
      refine .of_none (by simp [moduleCommand]) fun m h => ?_
      have hstate := isolationState_setState.symm.trans h
      split_ifs at hstate
      exact hstate
    | reset => exact (hreset rfl).elim
  | timerEnables hm hremaining hstate hkeeps =>
    refine .of_none (by simp) fun m h => ?_
    have hstate' := (hkeeps.state m).trans isolationState_setState
    rw [h] at hstate'
    split_ifs at hstate'
    exact hstate'.symm
  | @timerCutsOff timer remaining m' c' hm hnot hoff hkeeps =>
    obtain ⟨hremaining, hpower⟩ := hguard _ hm hnot hoff
    have hpower' : c'.power m' = false := by
      by_contra hon
      have hon' := hkeeps.power m' (Bool.eq_true_of_not_eq_false hon)
      rw [show (c.setState m' .disabledEnergy).power m' = c.power m' from rfl, hpower] at hon'
      cases hon'
    exact .of_setState hremaining hpower'
      (fun m hne => (hkeeps.state m).trans (isolationState_setState_of_ne hne)) (by simp)
  | updates => exact .of_update c _
  | resetEnds _ _ hkeeps => exact .of_none (by simp) fun m h => (hkeeps.state m).symm.trans h
  | check hcheck =>
    exact .of_none (fun _ _ hmem => Bool.false_ne_true (hcheck.actions _ hmem))
      fun m h => (hcheck.power.1 m).symm.trans h

end

/-- Every step of a run cuts off only what has no energy, and what it cuts off is off. -/
theorem cut_off_truthful {moduleInfo : ModuleState} {es : List Event} {c : Controller} {os : List Action}
    (h : Run (fun c e c' o => c.step e = some (c', o) ∧ CutOffGuard c e) (init moduleInfo) es c os) :
    Run (fun c e c' o => c.step e = some (c', o) ∧ Truthful c c' o) (init moduleInfo) es c os :=
  h.mono fun hstep => ⟨hstep.1, Truthful.effect (effect_of_step hstep.1) hstep.2⟩

section

instance (c : Controller) : DecidablePred (CutOffGuard c)
  | .message .. => instDecidableTrue
  | .downlink topic data remaining =>
    inferInstanceAs (Decidable (∀ m ∈ c.commanded topic data .on, remaining ≤ 0 → c.power m = false))
  | .checkModuleInit .. => instDecidableTrue
  | .dutyCycleTimer timer remaining =>
    inferInstanceAs (Decidable (∀ m ∈ c.dutyCycleTimers[timer]?,
      ¬ (0 < remaining ∧ c.isolationState m = .disabledDutyCycle) →
        c.isolationState m ≠ .disabledOff → remaining ≤ 0 ∧ c.power m = false))
  | .checkWatchdogs => instDecidableTrue
  | .updateEnergyPolicy _ => instDecidableTrue
  | .resume _ => instDecidableTrue

/-- A module whose energy is used up while it is switched off for some time. -/
theorem cut_off_truthful_timer : ∃ c os,
    Run (fun c e c' o => c.step e = some (c', o) ∧ Truthful c c' o) (init sampleInfo)
      [sampleRequest, .dutyCycleTimer 0 0] c os ∧ os = [.cutOff 0 0] := by
  have hexec : (Run.exec (fun (c : Controller) e => if CutOffGuard c e then c.step e else none) (init sampleInfo)
      [sampleRequest, .dutyCycleTimer 0 0]).map (fun r => r.2) = some [.cutOff 0 0] := by decide +kernel
  obtain ⟨⟨c, os⟩, hexec, hos⟩ := Option.map_eq_some_iff.mp hexec
  exact ⟨c, os, cut_off_truthful (Run.of_exec_guard hexec), hos⟩

/-- A module is switched on by command before its timer, which then cuts it off,
although it has energy, and leaves it on. -/
theorem cut_off_with_energy : ∃ c c' os,
    Run (fun c e c' o => c.step e = some (c', o)) (init sampleInfo)
      [sampleRequest, sampleCommand "on" 5] c os ∧
    c.step (.dutyCycleTimer 0 5) = some (c', [.cutOff 0 5]) ∧ c'.isolationState 0 = .disabledEnergy ∧
    c'.power 0 = true := by
  have hexec : ((Run.exec (fun (c : Controller) e => c.step e) (init sampleInfo)
      [sampleRequest, sampleCommand "on" 5]).bind fun r => r.1.step (.dutyCycleTimer 0 5)).map
      (fun r => (r.2, r.1.isolationState 0, r.1.power 0)) =
        some ([.cutOff 0 5], .disabledEnergy, true) := by
    decide +kernel
  obtain ⟨⟨c', o⟩, hstep, heq⟩ := Option.map_eq_some_iff.mp hexec
  obtain ⟨⟨c, os⟩, hrun, hstep⟩ := Option.bind_eq_some_iff.mp hstep
  obtain ⟨rfl, heq⟩ := Prod.mk.inj heq
  exact ⟨c, c', os, Run.of_exec hrun, hstep, (Prod.mk.inj heq).1, (Prod.mk.inj heq).2⟩

end

end Signpost.Controller
