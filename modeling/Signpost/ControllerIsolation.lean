/-
Isolation: the channel of the module that is isolated, the count of its
failures, and the grants themselves.

The condition is that no handler acts on a module while another has the channel.
The handlers look at their own module only, and one of them, a reset, ends with
its switches on, whoever is isolated by then.
-/
import Signpost.ControllerPower

namespace Signpost.Controller

open Lib

/-! ## A private channel -/

/-- Switching on the I2C of a module leaves the channel of an isolated module alone. -/
def Quiet (c : Controller) (m : Fin 8) : Prop :=
  ∀ i ∈ c.isolation.modIsolatedOut, m = slotOf i ∨ ¬ HasSwitch m

/-- What enables a module while another one is isolated does not: a timer, a
command and an update of the energy policy. -/
def ChannelGuard (c : Controller) : Event → Prop
  | .downlink topic data remaining => ∀ m ∈ c.commanded topic data .on, 0 < remaining → c.Quiet m
  | .dutyCycleTimer timer remaining =>
    ∀ m ∈ c.dutyCycleTimers[timer]?, 0 < remaining → c.isolationState m = .disabledDutyCycle → c.Quiet m
  | .updateEnergyPolicy remaining => ∀ m, c.Supplied remaining m → c.Quiet m
  | _ => True

/-- The I2C of every module but the isolated one is off. -/
def PrivateChannel (c : Controller) : Prop :=
  ∀ i, c.isolation.modIsolatedOut = some i → ∀ m, m ≠ slotOf i → c.i2c m = false

section
variable {c c' : Controller} {m m' : Fin 8} {e : Event} {o : List Action}

theorem i2c_of_enableI2c (h : (c.enableI2c m).i2c m' = true) :
    (m' = m ∧ HasSwitch m) ∨ c.i2c m' = true := by
  by_cases hm : m' = m
  · subst hm
    simpa [enableI2c] using h
  · exact .inr (by simpa [enableI2c, hm] using h)

theorem i2c_of_disableI2c (h : (c.disableI2c m).i2c m' = true) : c.i2c m' = true := by
  by_cases hm : m' = m
  · simp [disableI2c, hm] at h
  · simpa [disableI2c, hm] using h

theorem PrivateChannel.of_quiet (h : PrivateChannel c)
    (hout : c'.isolation.modIsolatedOut = c.isolation.modIsolatedOut)
    (hi2c : ∀ m, c'.i2c m = true → c.i2c m = true ∨ (HasSwitch m ∧ c.Quiet m)) : PrivateChannel c' := by
  intro i hi m hne
  rw [hout] at hi
  by_contra hon
  rcases hi2c m (Bool.eq_true_of_not_eq_false hon) with hm | ⟨hswitch, hquiet⟩
  · rw [h i hi m hne] at hm
    cases hm
  · rcases hquiet i hi with heq | hnot
    · exact hne heq
    · exact hnot hswitch

theorem PrivateChannel.of_none (hnone : c'.isolation.modIsolatedOut = none) : PrivateChannel c' := by
  intro i hi
  rw [hnone] at hi
  cases hi

theorem PrivateChannel.keeps (h : PrivateChannel c) (hkeeps : Keeps c c') : PrivateChannel c' :=
  h.of_quiet (by rw [hkeeps.isolation]) fun m hm => .inl (hkeeps.i2c ▸ hm)

theorem PrivateChannel.setState (h : PrivateChannel c) (s : IsolationState) :
    PrivateChannel (c.setState m s) :=
  h.of_quiet rfl fun _ hm => .inl hm

theorem PrivateChannel.enablePower (h : PrivateChannel c) : PrivateChannel (c.enablePower m) :=
  h.of_quiet rfl fun _ hm => .inl hm

theorem PrivateChannel.switchOff (h : PrivateChannel c) (s : IsolationState) :
    PrivateChannel (((c.setState m s).disablePower m).disableI2c m) :=
  h.of_quiet rfl fun _ hm => .inl (i2c_of_disableI2c (c := (c.setState m s).disablePower m) hm)

theorem PrivateChannel.switchOn (h : PrivateChannel c) (s : IsolationState) (hquiet : c.Quiet m) :
    PrivateChannel (((c.setState m s).enablePower m).enableI2c m) := by
  refine h.of_quiet rfl fun m' hm => ?_
  rcases i2c_of_enableI2c (c := (c.setState m s).enablePower m) hm with ⟨rfl, hswitch⟩ | hon
  · exact .inr ⟨hswitch, hquiet⟩
  · exact .inl hon

theorem PrivateChannel.check (h : PrivateChannel c) (hcheck : CheckEffect c e c' o) :
    PrivateChannel c' := by
  cases hcheck with
  | @grants lines later i _ _ _ =>
    intro i' hi m hne
    cases hi
    by_contra hon
    rcases i2c_of_enableI2c (Bool.eq_true_of_not_eq_false hon) with ⟨heq, -⟩ | hon
    · exact hne heq
    · cases hon
  | idles _ hnone => exact .of_none hnone
  | succeeds _ _ _ => exact .of_none rfl
  | powerCycles _ _ _ _ _ => exact h.of_quiet rfl fun _ hon => .inl hon
  | timesOut _ _ _ _ _ => exact .of_none rfl
  | counts _ _ _ => exact h.of_quiet rfl fun _ hon => .inl hon
  | grantBegun _ => exact h.of_quiet rfl fun _ hon => .inl hon
  | powerCycled _ _ => exact .of_none rfl

theorem PrivateChannel.effect (h : PrivateChannel c) (heffect : Effect c e c' o)
    (hguard : ChannelGuard c e) :
    PrivateChannel c' := by
  cases heffect with
  | keeps hkeeps => exact h.keeps hkeeps
  | dutyCycleRequest _ _ hkeeps => exact (h.switchOff _).keeps hkeeps
  | @command topic data remaining m command hm hcommand hreset =>
    cases command with
    | on =>
      rw [moduleCommand]
      split_ifs with hremaining
      · exact h.switchOn _ (hguard m (commanded_of hcommand hm) hremaining)
      · exact h.setState _
    | off => exact h.switchOff _
    | reset => exact (hreset rfl).elim
  | timerEnables hm hremaining hstate hkeeps =>
    exact (h.switchOn _ (hguard _ hm hremaining hstate)).keeps hkeeps
  | timerCutsOff _ _ _ hkeeps => exact (h.setState _).keeps hkeeps
  | @updates remaining =>
    refine h.of_quiet rfl fun m hm => ?_
    rcases updateEnergyPolicy_cases c remaining m with ⟨-, -, -, hoff⟩ | ⟨hon, -⟩ | ⟨-, -, -, -, hsame⟩
    · rw [hoff] at hm
      cases hm
    · exact .inr ⟨hon.1, hguard m hon⟩
    · exact .inl (hsame ▸ hm)
  | resetEnds _ _ hkeeps => exact h.enablePower.keeps hkeeps
  | check hcheck => exact h.check hcheck

end

/-- While a module is isolated, the I2C of the others is off. -/
theorem private_channel {moduleInfo : ModuleState} {es : List Event} {c : Controller} {os : List Action}
    (h : Run (fun c e c' o => c.step e = some (c', o) ∧ ChannelGuard c e) (init moduleInfo) es c os)
    {i : Fin 7} (hi : c.isolation.modIsolatedOut = some i) {m : Fin 8} (hm : m ≠ slotOf i) :
    c.i2c m = false :=
  have hprivate : PrivateChannel c :=
    h.invariant (fun hinv hstep => hinv.effect (effect_of_step hstep.1) hstep.2) (.of_none rfl)
  hprivate i hi m hm

section

instance (c : Controller) : DecidablePred (Quiet c) :=
  fun m => inferInstanceAs (Decidable (∀ i ∈ c.isolation.modIsolatedOut, m = slotOf i ∨ ¬ HasSwitch m))

instance (c : Controller) : DecidablePred (ChannelGuard c)
  | .message .. => instDecidableTrue
  | .downlink topic data remaining =>
    inferInstanceAs (Decidable (∀ m ∈ c.commanded topic data .on, 0 < remaining → c.Quiet m))
  | .checkModuleInit .. => instDecidableTrue
  | .dutyCycleTimer timer remaining =>
    inferInstanceAs (Decidable (∀ m ∈ c.dutyCycleTimers[timer]?,
      0 < remaining → c.isolationState m = .disabledDutyCycle → c.Quiet m))
  | .checkWatchdogs => instDecidableTrue
  | .updateEnergyPolicy remaining => inferInstanceAs (Decidable (∀ m, c.Supplied remaining m → c.Quiet m))
  | .resume _ => instDecidableTrue

/-- A check that finds the line of this module low, the other ones high. -/
def sampleCheck (i : Fin 7) : Event := .checkModuleInit (· ≠ i) (· ≠ i)

/-- A module that is isolated is switched off for some time, and back on. -/
theorem private_channel_timer : ∃ c os,
    Run (fun c e c' o => c.step e = some (c', o) ∧ ChannelGuard c e) (init sampleInfo)
      [sampleCheck 0, .resume (· ≠ 0), sampleRequest, .dutyCycleTimer 0 5] c os ∧
    c.isolation.modIsolatedOut = some 0 ∧ c.i2c 0 = true ∧ c.i2c 1 = false := by
  have hexec : (Run.exec (fun (c : Controller) e => if ChannelGuard c e then c.step e else none) (init sampleInfo)
      [sampleCheck 0, .resume (· ≠ 0), sampleRequest, .dutyCycleTimer 0 5]).map
      (fun r => (r.1.isolation.modIsolatedOut, r.1.i2c 0)) = some (some 0, true) := by decide +kernel
  obtain ⟨⟨c, os⟩, hexec, heq⟩ := Option.map_eq_some_iff.mp hexec
  obtain ⟨hi, hon⟩ := Prod.mk.inj heq
  have hrun := Run.of_exec_guard hexec
  exact ⟨c, os, hrun, hi, hon, private_channel hrun hi (by decide)⟩

/-- The energy policy is updated while a module is isolated. -/
theorem channel_not_private : ∃ c os,
    Run (fun c e c' o => c.step e = some (c', o)) (init sampleInfo)
      [sampleCheck 0, .resume (· ≠ 0), .updateEnergyPolicy fun _ => 5] c os ∧
    c.isolation.modIsolatedOut = some 0 ∧ 1 ≠ slotOf 0 ∧ c.i2c 1 = true := by
  have hexec : (Run.exec (fun (c : Controller) e => c.step e) (init sampleInfo)
      [sampleCheck 0, .resume (· ≠ 0), .updateEnergyPolicy fun _ => 5]).map
      (fun r => (r.1.isolation.modIsolatedOut, r.1.i2c 1)) = some (some 0, true) := by decide +kernel
  obtain ⟨⟨c, os⟩, hexec, heq⟩ := Option.map_eq_some_iff.mp hexec
  exact ⟨c, os, Run.of_exec hexec, (Prod.mk.inj heq).1, by decide, (Prod.mk.inj heq).2⟩

end

end Signpost.Controller
