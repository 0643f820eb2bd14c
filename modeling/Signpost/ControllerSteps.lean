/-
What a step of the controller does: one effect for each thing that the callbacks
can do, so that what a run keeps is shown for these and not for the code.

An effect leaves the modules aside that it is not about. Most of what is to be
kept concerns one module, so only the effects on that module are left to look
at, and what they do is said once.
-/
import Signpost.Controller

namespace Signpost.Controller

open Lib

/-! ## States and switches -/

section
variable {c c' : Controller} {m m' : Fin 8} {s : IsolationState}

theorem isolationState_setState :
    (c.setState m s).isolationState m' = if m' = m then s else c.isolationState m' := by
  by_cases h : m' = m <;> simp [isolationState, setState, h]

theorem isolationState_setState_of_ne (h : m' ≠ m) :
    (c.setState m s).isolationState m' = c.isolationState m' :=
  isolationState_setState.trans (if_neg h)

theorem isolationState_setFailures (n : UInt8) :
    (c.setFailures m n).isolationState m' = c.isolationState m' := by
  by_cases h : m' = m <;> simp [isolationState, setFailures, h]

theorem power_of_disablePower (h : (c.disablePower m).power m' = true) : m' ≠ m ∧ c.power m' = true := by
  by_cases hm : m' = m
  · simp [disablePower, hm] at h
  · exact ⟨hm, by simpa [disablePower, hm] using h⟩

theorem power_of_enablePower (h : (c.enablePower m).power m' = true) :
    (m' = m ∧ HasSwitch m) ∨ c.power m' = true := by
  by_cases hm : m' = m
  · subst hm
    simpa [enablePower] using h
  · exact .inr (by simpa [enablePower, hm] using h)

theorem power_disablePower_of_ne (h : m' ≠ m) : (c.disablePower m).power m' = c.power m' := by
  simp [disablePower, h]

theorem power_enablePower_of_ne (h : m' ≠ m) : (c.enablePower m).power m' = c.power m' := by
  simp [enablePower, h]

theorem power_disablePower_self : (c.disablePower m).power m = false := by
  simp [disablePower]

/-- The module that the callback which began to wait last switches on. -/
def resumed (c : Controller) : Option (Fin 8) :=
  c.stack.head?.bind fun
    | .granting => none
    | .powerCycling => c.isolation.modIsolatedOut.map slotOf
    | .watchdogReset j _ => some j
    | .downlinkReset m => some m

theorem resumed_reset {stage : Stage} {stack : List Stage} (hstack : c.stack = stage :: stack)
    (hstage : stage = .downlinkReset m ∨ ∃ rest, stage = .watchdogReset m rest) : m ∈ c.resumed := by
  rw [resumed, hstack]
  rcases hstage with rfl | ⟨rest, rfl⟩ <;> rfl

theorem resumed_powerCycling {stack : List Stage} {i : Fin 7} (hstack : c.stack = .powerCycling :: stack)
    (hi : c.isolation.modIsolatedOut = some i) : slotOf i ∈ c.resumed := by
  simp [resumed, hstack, hi]

def commanded (c : Controller) (topic data : Bytes) (command : DownlinkCommand) : Option (Fin 8) :=
  if downlinkCommand data = some command then c.downlinkModule topic else none

theorem commanded_of {topic data : Bytes} {command : DownlinkCommand}
    (hcommand : downlinkCommand data = some command) (hm : c.downlinkModule topic = some m) :
    m ∈ c.commanded topic data command := by
  rw [commanded, if_pos hcommand]
  exact hm

end

/-! ## What a step does -/

/-- A wait in `check_module_init_cb`. -/
def Stage.isCheck : Stage → Bool
  | granting => true
  | powerCycling => true
  | watchdogReset .. => false
  | downlinkReset _ => false

def waitingChecks (c : Controller) : List Stage := c.stack.filter Stage.isCheck

/-- Nothing is different but flags of watchdogs, timers, what is known of the
modules and resets that wait, and switches of power that go off. -/
structure Keeps (c c' : Controller) : Prop where
  state : ∀ m, c'.isolationState m = c.isolationState m
  failures : ∀ m, (c'.moduleState m).moduleInitFailures = (c.moduleState m).moduleInitFailures
  isolation : c'.isolation = c.isolation
  power : ∀ m, c'.power m = true → c.power m = true
  i2c : c'.i2c = c.i2c
  checks : c'.waitingChecks = c.waitingChecks

theorem Keeps.of_eq {c c' : Controller} (hstate : c'.moduleState = c.moduleState)
    (hisolation : c'.isolation = c.isolation) (hpower : c'.power = c.power) (hi2c : c'.i2c = c.i2c)
    (hchecks : c'.waitingChecks = c.waitingChecks) : Keeps c c' :=
  ⟨fun m => by rw [isolationState, hstate, isolationState], fun m => by rw [hstate], hisolation,
    fun m hm => hpower ▸ hm, hi2c, hchecks⟩

theorem Keeps.trans {c c' c'' : Controller} (h : Keeps c c') (h' : Keeps c' c'') : Keeps c c'' :=
  ⟨fun m => (h'.state m).trans (h.state m), fun m => (h'.failures m).trans (h.failures m),
    h'.isolation.trans h.isolation, fun m hm => h.power m (h'.power m hm), h'.i2c.trans h.i2c,
    h'.checks.trans h.checks⟩

section
variable {c c' : Controller} {m : Fin 8}

theorem keeps_setTickled (n : UInt8) : Keeps c (c.setTickled m n) := by
  refine ⟨fun m' => ?_, fun m' => ?_, rfl, fun _ h => h, rfl, rfl⟩ <;>
    by_cases h : m' = m <;> simp [isolationState, setTickled, h]

theorem keeps_setSubscribed (n : UInt8) : Keeps c (c.setSubscribed m n) := by
  refine ⟨fun m' => ?_, fun m' => ?_, rfl, fun _ h => h, rfl, rfl⟩ <;>
    by_cases h : m' = m <;> simp [isolationState, setSubscribed, h]

theorem keeps_reset {stage : Stage} (h : stage.isCheck = false) :
    Keeps c ((c.disablePower m).wait stage) := by
  refine ⟨fun _ => rfl, fun _ => rfl, rfl, fun m' hm => ?_, rfl, ?_⟩
  · by_cases h' : m' = m
    · simp [wait, disablePower, h'] at hm
    · simpa [wait, disablePower, h'] using hm
  · rw [waitingChecks, wait, List.filter_cons_of_neg (by rw [h]; exact Bool.false_ne_true)]
    rfl

theorem keeps_checkWatchdogs (js : List (Fin 8)) : Keeps c (checkWatchdogs js c) := by
  induction js generalizing c with
  | nil => exact .of_eq rfl rfl rfl rfl rfl
  | cons j rest ih =>
    rw [checkWatchdogs]
    split
    · split
      · exact keeps_reset rfl
      · exact (keeps_setTickled 0).trans ih
    · exact ih

theorem keeps_watchdogMessage (moduleNum : Option (Fin 8)) (messageType : UInt8) (replied : Bool) :
    Keeps c (c.watchdogMessage moduleNum messageType replied) := by
  cases moduleNum with
  | none => exact .of_eq rfl rfl rfl rfl rfl
  | some m =>
    simp only [watchdogMessage]
    split_ifs
    · exact (keeps_setSubscribed 1).trans (keeps_setTickled 1)
    · exact keeps_setTickled 1
    · exact .of_eq rfl rfl rfl rfl rfl

theorem keeps_declare {source : UInt8} {message : Bytes} (h : c.declare source message = some c') :
    Keeps c c' := by
  rw [declare] at h
  split at h
  · cases h
    exact .of_eq rfl rfl rfl rfl rfl
  · split_ifs at h <;> cases h <;> exact .of_eq rfl rfl rfl rfl rfl

end

@[simp] theorem mem_highs {c : Controller} {later : Fin 7 → Bool} {a : Action} :
    a ∈ c.highs later ↔
      ∃ i, (c.isolation.lastModOutState i = false ∧ later i = true) ∧ .observedHigh i = a := by
  simp [highs]

theorem updateEnergyPolicy_cases (c : Controller) (remaining : Fin 8 → Int) (m : Fin 8) :
    let c' := (c.updateEnergyPolicy remaining).1
    (Exhausted remaining m ∧ c'.isolationState m = .disabledEnergy ∧ c'.power m = false ∧ c'.i2c m = false) ∨
      (c.Supplied remaining m ∧ c'.isolationState m = .enabled ∧ c'.power m = true ∧ c'.i2c m = true) ∨
      (¬ Exhausted remaining m ∧ ¬ c.Supplied remaining m ∧ c'.isolationState m = c.isolationState m ∧
        c'.power m = c.power m ∧ c'.i2c m = c.i2c m) := by
  by_cases hoff : Exhausted remaining m
  · exact .inl ⟨hoff, by simp [updateEnergyPolicy, isolationState, hoff]⟩
  · by_cases hon : c.Supplied remaining m
    · exact .inr (.inl ⟨hon, by simp [updateEnergyPolicy, isolationState, hoff, hon]⟩)
    · exact .inr (.inr ⟨hoff, hon, by simp [updateEnergyPolicy, isolationState, hoff, hon]⟩)

/-- What a check of the request lines does, up to its wait or to its end. -/
inductive CheckEffect (c : Controller) : Event → Controller → List Action → Prop
  | grants {lines later i} (hnot : c.isolation.checkingInit = false)
      (hnone : c.isolation.modIsolatedOut = none) (hrequest : ∃ last, c.Requests lines last i) :
      CheckEffect c (.checkModuleInit lines later) (c.beginCheck.grant i) [.granted i]
  | idles {lines later last} (hnot : c.isolation.checkingInit = false)
      (hnone : c.isolation.modIsolatedOut = none) :
      CheckEffect c (.checkModuleInit lines later)
        ((c.setIsolation { c.beginCheck.isolation with lastModIsolatedOut := last }).endCheck later)
        (c.highs later ++ [Action.checked])
  | succeeds {lines later i} (hnot : c.isolation.checkingInit = false)
      (hi : c.isolation.modIsolatedOut = some i) (hline : lines i = true) :
      CheckEffect c (.checkModuleInit lines later) (c.beginCheck.setIn.release.endCheck later)
        ([Action.released, .succeeded (slotOf i)] ++ (c.highs later ++ [Action.checked]))
  | powerCycles {lines later i n} (hnot : c.isolation.checkingInit = false)
      (hi : c.isolation.modIsolatedOut = some i) (hcount : 10 < c.isolation.isolatedCount)
      (hn : n = (c.moduleState (slotOf i)).moduleInitFailures + 1) (hmany : 4 < n) :
      CheckEffect c (.checkModuleInit lines later)
        (((c.beginCheck.setIn.setFailures (slotOf i) n).disablePower (slotOf i)).wait .powerCycling)
        [.timedOut (slotOf i)]
  | timesOut {lines later i n} (hnot : c.isolation.checkingInit = false)
      (hi : c.isolation.modIsolatedOut = some i) (hcount : 10 < c.isolation.isolatedCount)
      (hn : n = (c.moduleState (slotOf i)).moduleInitFailures + 1) (hfew : ¬ 4 < n) :
      CheckEffect c (.checkModuleInit lines later)
        ((c.beginCheck.setIn.setFailures (slotOf i) n).release.endCheck later)
        ([Action.timedOut (slotOf i), .released] ++ (c.highs later ++ [Action.checked]))
  | counts {lines later i} (hnot : c.isolation.checkingInit = false)
      (hi : c.isolation.modIsolatedOut = some i) (hcount : ¬ 10 < c.isolation.isolatedCount) :
      CheckEffect c (.checkModuleInit lines later)
        ((c.setIsolation { c.beginCheck.isolation with isolatedCount := c.isolation.isolatedCount + 1 }).endCheck later)
        (c.highs later ++ [Action.checked])
  | grantBegun {later stack} (hstack : c.stack = .granting :: stack) :
      CheckEffect c (.resume later) (endCheck { c with stack := stack } later) (c.highs later ++ [Action.checked])
  | powerCycled {later stack i} (hstack : c.stack = .powerCycling :: stack)
      (hi : c.isolation.modIsolatedOut = some i) :
      CheckEffect c (.resume later) (powerCycle { c with stack := stack } i later).1
        (powerCycle { c with stack := stack } i later).2

inductive Effect (c : Controller) : Event → Controller → List Action → Prop
  | keeps {e c'} (h : Keeps c c') : Effect c e c' []
  | dutyCycleRequest {msg replied m c'} (hmsg : DutyCycleRequest msg)
      (hm : addrToModNum c.moduleInfo msg.sourceAddress = some m)
      (h : Keeps (((c.setState m .disabledDutyCycle).disablePower m).disableI2c m) c') :
      Effect c (.message msg replied) c' []
  | command {topic data remaining m command} (hm : c.downlinkModule topic = some m)
      (hcommand : downlinkCommand data = some command) (hreset : command ≠ .reset) :
      Effect c (.downlink topic data remaining) (c.moduleCommand m remaining command).1
        (c.moduleCommand m remaining command).2
  | timerEnables {timer remaining m c'} (hm : c.dutyCycleTimers[timer]? = some m)
      (hremaining : 0 < remaining) (hstate : c.isolationState m = .disabledDutyCycle)
      (h : Keeps (((c.setState m .enabled).enablePower m).enableI2c m) c') :
      Effect c (.dutyCycleTimer timer remaining) c' []
  | timerCutsOff {timer remaining m c'} (hm : c.dutyCycleTimers[timer]? = some m)
      (hnot : ¬ (0 < remaining ∧ c.isolationState m = .disabledDutyCycle))
      (hoff : c.isolationState m ≠ .disabledOff) (h : Keeps (c.setState m .disabledEnergy) c') :
      Effect c (.dutyCycleTimer timer remaining) c' [.cutOff m remaining]
  | updates {remaining} :
      Effect c (.updateEnergyPolicy remaining) (c.updateEnergyPolicy remaining).1
        (c.updateEnergyPolicy remaining).2
  | resetEnds {later stage stack m c'} (hstack : c.stack = stage :: stack)
      (hstage : stage = .downlinkReset m ∨ ∃ rest, stage = .watchdogReset m rest)
      (h : Keeps (c.enablePower m) c') : Effect c (.resume later) c' []
  | check {e c' o} (h : CheckEffect c e c' o) : Effect c e c' o

section
variable {c c' : Controller} {o : List Action}

theorem effect_receive {msg : ApiMessage} {replied : Bool} (h : c.receive msg replied = some c') :
    Effect c (.message msg replied) c' [] := by
  rw [receive] at h
  split_ifs at h with hinit hduty hwatch
  · exact .keeps (keeps_declare h)
  · obtain ⟨m, hm, rfl⟩ := Option.map_eq_some_iff.mp h
    exact .dutyCycleRequest hduty hm (.of_eq rfl rfl rfl rfl rfl)
  · cases h
    exact .keeps (keeps_watchdogMessage _ _ _)
  · cases h
    exact .keeps (.of_eq rfl rfl rfl rfl rfl)

theorem effect_downlink {topic data : Bytes} {remaining : Int}
    (h : c.downlink topic data remaining = (c', o)) :
    Effect c (.downlink topic data remaining) c' o := by
  rw [downlink] at h
  split at h
  · cases h
    exact .keeps (.of_eq rfl rfl rfl rfl rfl)
  · next command hcommand =>
    split at h
    · next m hm =>
      by_cases hreset : command = .reset
      · subst hreset
        rw [moduleCommand] at h
        split at h <;> cases h
        · exact .keeps (keeps_reset rfl)
        · exact .keeps (.of_eq rfl rfl rfl rfl rfl)
      · have heffect : Effect c (.downlink topic data remaining) _ _ := .command hm hcommand hreset
        rwa [h] at heffect
    · split_ifs at h <;> cases h
      · exact .keeps (.of_eq rfl rfl rfl rfl rfl)
      · exact .keeps (.of_eq rfl rfl rfl rfl rfl)

theorem requests_of_scan {lines : Fin 7 → Bool} {is : List (Fin 7)} {last last' : Option (Fin 7)}
    {i : Fin 7} (h : c.scan lines is last = (some i, last')) : ∃ last, c.Requests lines last i := by
  induction is generalizing last with
  | nil => cases h
  | cons j rest ih =>
    rw [scan] at h
    split at h
    · next hrequest =>
      cases h
      exact ⟨last, hrequest⟩
    · exact ih h

theorem checkEffect_checkModuleInit {lines later : Fin 7 → Bool} (hnot : c.isolation.checkingInit = false)
    (h : c.beginCheck.runCheck lines later = (c', o)) :
    CheckEffect c (.checkModuleInit lines later) c' o := by
  rw [runCheck] at h
  split at h
  · next hnone =>
    split at h
    · next i last hscan =>
      cases h
      exact .grants hnot hnone (requests_of_scan (c := c.beginCheck) hscan)
    · cases h
      exact .idles hnot hnone
  · next i hi =>
    dsimp only at h
    split_ifs at h with hline hcount hmany <;> cases h
    · exact .succeeds hnot hi hline
    · exact .powerCycles hnot hi hcount rfl hmany
    · exact .timesOut hnot hi hcount rfl hmany
    · exact .counts hnot hi hcount

theorem effect_dutyCycleTimer {timer : Nat} {m : Fin 8} {remaining : Int}
    (hm : c.dutyCycleTimers[timer]? = some m)
    (h : dutyCycleTimer { c with dutyCycleTimers := c.dutyCycleTimers.eraseIdx timer } m remaining = (c', o)) :
    Effect c (.dutyCycleTimer timer remaining) c' o := by
  rw [dutyCycleTimer] at h
  split_ifs at h with hpos hoff <;> cases h
  · exact .timerEnables hm hpos.1 hpos.2 (.of_eq rfl rfl rfl rfl rfl)
  · exact .keeps (.of_eq rfl rfl rfl rfl rfl)
  · exact .timerCutsOff hm hpos hoff (.of_eq rfl rfl rfl rfl rfl)

theorem effect_resume {later : Fin 7 → Bool} {stage : Stage} {stack : List Stage}
    (hstack : c.stack = stage :: stack)
    (h : proceed { c with stack := stack } later stage = some (c', o)) :
    Effect c (.resume later) c' o := by
  cases stage with
  | granting =>
    cases h
    exact .check (.grantBegun hstack)
  | powerCycling =>
    obtain ⟨i, hi, hcycle⟩ := Option.map_eq_some_iff.mp h
    have heffect : CheckEffect c (.resume later) _ _ := .powerCycled hstack hi
    rw [hcycle] at heffect
    exact .check heffect
  | watchdogReset j rest =>
    cases h
    have hchecks : waitingChecks { c with stack := stack } = c.waitingChecks := by
      rw [waitingChecks, waitingChecks, hstack]
      rfl
    have hpop : Keeps (c.enablePower j) (enablePower { c with stack := stack } j) :=
      .of_eq rfl rfl rfl rfl hchecks
    exact .resetEnds hstack (.inr ⟨rest, rfl⟩) (hpop.trans (keeps_checkWatchdogs rest))
  | downlinkReset m =>
    cases h
    have hchecks : waitingChecks { c with stack := stack } = c.waitingChecks := by
      rw [waitingChecks, waitingChecks, hstack]
      rfl
    exact .resetEnds hstack (.inl rfl) (.of_eq rfl rfl rfl rfl hchecks)

theorem effect_of_step {e : Event} (h : c.step e = some (c', o)) : Effect c e c' o := by
  cases e with
  | message msg replied =>
    obtain ⟨c'', hc, heq⟩ := Option.map_eq_some_iff.mp h
    cases heq
    exact effect_receive hc
  | downlink topic data remaining => exact effect_downlink (Option.some_inj.mp h)
  | checkModuleInit lines later =>
    have hcheck := Option.some_inj.mp h
    rw [checkModuleInit] at hcheck
    split at hcheck
    · cases hcheck
      exact .keeps (.of_eq rfl rfl rfl rfl rfl)
    · next hnot =>
      exact .check (checkEffect_checkModuleInit (Bool.eq_false_of_not_eq_true hnot) hcheck)
  | dutyCycleTimer timer remaining =>
    obtain ⟨m, hm, htimer⟩ := Option.map_eq_some_iff.mp h
    exact effect_dutyCycleTimer hm htimer
  | checkWatchdogs =>
    cases h
    exact .keeps (keeps_checkWatchdogs _)
  | updateEnergyPolicy remaining =>
    cases h
    exact .updates
  | resume later =>
    rw [step] at h
    split at h
    · cases h
    · next stage stack hstack => exact effect_resume hstack h

end

/-! ## What only a check does -/

/-- An action of a check of the request lines. -/
def Action.isCheck : Action → Bool
  | cutOff .. => false
  | turnedOff _ => false
  | turnedOn _ => false
  | _ => true

structure Aside (c c' : Controller) (o : List Action) : Prop where
  isolation : c'.isolation = c.isolation
  checks : c'.waitingChecks = c.waitingChecks
  failures : ∀ m, (c'.moduleState m).moduleInitFailures = (c.moduleState m).moduleInitFailures
  actions : ∀ a ∈ o, a.isCheck = false

section
variable {c c' c'' : Controller} {m m' : Fin 8} {e : Event} {o : List Action}

theorem failures_setState (s : IsolationState) :
    ((c.setState m s).moduleState m').moduleInitFailures = (c.moduleState m').moduleInitFailures := by
  by_cases h : m' = m <;> simp [setState, h]

theorem failures_setFailures (n : UInt8) :
    ((c.setFailures m n).moduleState m').moduleInitFailures =
      if m' = m then n else (c.moduleState m').moduleInitFailures := by
  by_cases h : m' = m <;> simp [setFailures, h]

theorem Keeps.aside (h : Keeps c c') : Aside c c' [] := ⟨h.isolation, h.checks, h.failures, by simp⟩

theorem Aside.keeps (h : Aside c c' o) (hkeeps : Keeps c' c'') : Aside c c'' o :=
  ⟨hkeeps.isolation.trans h.isolation, hkeeps.checks.trans h.checks,
    fun m => (hkeeps.failures m).trans (h.failures m), h.actions⟩

theorem aside_setState {s : IsolationState} {power i2c : Fin 8 → Bool} (ho : ∀ a ∈ o, a.isCheck = false) :
    Aside c { c.setState m s with power := power, i2c := i2c } o :=
  ⟨rfl, rfl, fun _ => failures_setState s, ho⟩

theorem aside_enablePower : Aside c (c.enablePower m) [] := ⟨rfl, rfl, fun _ => rfl, by simp⟩

theorem Effect.aside_or (h : Effect c e c' o) : Aside c c' o ∨ CheckEffect c e c' o := by
  cases h with
  | keeps hkeeps => exact .inl hkeeps.aside
  | dutyCycleRequest _ _ hkeeps => exact .inl ((aside_setState (by simp)).keeps hkeeps)
  | @command topic data remaining m command hm hcommand hreset =>
    cases command with
    | on =>
      rw [moduleCommand]
      split_ifs
      · exact .inl (aside_setState (by simp [Action.isCheck]))
      · exact .inl (aside_setState (by simp [Action.isCheck]))
    | off => exact .inl (aside_setState (by simp [Action.isCheck, moduleCommand]))
    | reset => exact (hreset rfl).elim
  | timerEnables _ _ _ hkeeps => exact .inl ((aside_setState (by simp)).keeps hkeeps)
  | timerCutsOff _ _ _ hkeeps => exact .inl ((aside_setState (by simp [Action.isCheck])).keeps hkeeps)
  | @updates remaining =>
    refine .inl ⟨rfl, rfl, fun m => ?_, ?_⟩
    · simp only [updateEnergyPolicy]
      split_ifs <;> rfl
    · simp [updateEnergyPolicy, Action.isCheck]
  | resetEnds _ _ hkeeps => exact .inl (aside_enablePower.keeps hkeeps)
  | check hcheck => exact .inr hcheck

theorem CheckEffect.power (h : CheckEffect c e c' o) :
    (∀ m, c'.isolationState m = c.isolationState m) ∧
      ∀ m, c'.power m = true →
        c.power m = true ∨ ((∃ later, e = .resume later) ∧ m ∈ c.resumed ∧ HasSwitch m) := by
  cases h with
  | powerCycles _ _ _ _ _ =>
    exact ⟨fun _ => isolationState_setFailures _, fun m hm => .inl (power_of_disablePower hm).2⟩
  | timesOut _ _ _ _ _ => exact ⟨fun _ => isolationState_setFailures _, fun _ hm => .inl hm⟩
  | @powerCycled later stack i hstack hi =>
    refine ⟨fun _ => isolationState_setFailures _, fun m hm => ?_⟩
    rcases power_of_enablePower (c := { c with stack := stack }) hm with ⟨rfl, hswitch⟩ | hpower
    · exact .inr ⟨⟨later, rfl⟩, resumed_powerCycling hstack hi, hswitch⟩
    · exact .inl hpower
  | _ => exact ⟨fun _ => rfl, fun _ hm => .inl hm⟩

theorem isCheck_of_finish {later : Fin 7 → Bool} {a : Action} (h : a ∈ c.highs later ++ [Action.checked]) :
    a.isCheck = true := by
  rcases List.mem_append.mp h with h | h
  · obtain ⟨i, -, rfl⟩ := mem_highs.mp h
    rfl
  · cases List.mem_singleton.mp h
    rfl

theorem CheckEffect.actions (h : CheckEffect c e c' o) : ∀ a ∈ o, a.isCheck = true := by
  cases h with
  | grants _ _ _ => simp [Action.isCheck]
  | powerCycles _ _ _ _ _ => simp [Action.isCheck]
  | idles _ _ => exact fun _ => isCheck_of_finish
  | counts _ _ _ => exact fun _ => isCheck_of_finish
  | grantBegun _ => exact fun _ => isCheck_of_finish
  | succeeds _ _ _ =>
    exact List.forall_mem_append.mpr ⟨by simp [Action.isCheck], fun _ => isCheck_of_finish⟩
  | timesOut _ _ _ _ _ =>
    exact List.forall_mem_append.mpr ⟨by simp [Action.isCheck], fun _ => isCheck_of_finish⟩
  | powerCycled _ _ =>
    exact List.forall_mem_append.mpr ⟨by simp [Action.isCheck], fun _ => isCheck_of_finish⟩

end

end Signpost.Controller
