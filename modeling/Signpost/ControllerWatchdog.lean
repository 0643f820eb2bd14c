/-
The watchdogs of the modules (`watchdog_api_callback`, `check_watchdogs_cb`): when a module is
power-cycled, over runs in which other callbacks run while a check waits.

Two flags are kept of a module. They say what its messages and the checks have been so far, which is
a fact about the outputs of the run, and no other callback touches them.
-/
import Signpost.ControllerPower
import Signpost.Lib.History

namespace Signpost

open Lib

namespace Controller

/-- What happens to a module's watchdog. -/
inductive WatchAction
  /-- A `WatchdogStartMessage` or a `WatchdogTickleMessage` of the module is answered. -/
  | started (m : Fin 8)
  | tickled (m : Fin 8)
  /-- A check comes to the module, and begins to power-cycle it or not. -/
  | visited (m : Fin 8) (cycled : Bool)
  deriving DecidableEq

namespace WatchAction

def Feeds (m : Fin 8) (a : WatchAction) : Prop := a = started m ∨ a = tickled m

def Visits (m : Fin 8) (a : WatchAction) : Prop := ∃ cycled, a = visited m cycled

end WatchAction

/-- What `check_watchdogs_cb` does from these modules on, up to its wait or to its end. -/
def visits : List (Fin 8) → Controller → List WatchAction
  | [], _ => []
  | j :: rest, c =>
    if (c.moduleState j).watchdogSubscribed ≠ 0 then
      if (c.moduleState j).watchdogTickled = 0 then [.visited j true]
      else .visited j false :: visits rest (c.setTickled j 0)
    else .visited j false :: visits rest c

def watchdogAnswers (moduleNum : Option (Fin 8)) (messageType : UInt8) (replied : Bool) : List WatchAction :=
  match moduleNum with
  | none => []
  | some m =>
    if messageType = watchdogStartMessage ∧ replied then [.started m]
    else if messageType = watchdogTickleMessage ∧ replied then [.tickled m]
    else []

/-- What an event does to watchdogs. -/
def watchActions (c : Controller) : Event → List WatchAction
  | .message msg replied =>
    if msg.apiType = watchdogApiType then
      watchdogAnswers (addrToModNum c.moduleInfo msg.sourceAddress) msg.messageType replied
    else []
  | .checkWatchdogs => visits (List.finRange 8) c
  | .resume _ =>
    match c.stack with
    | .watchdogReset j rest :: stack => visits rest (enablePower { c with stack := stack } j)
    | _ => []
  | _ => []

/-- Runs, with what they do to watchdogs. -/
abbrev WatchRun :=
  Run fun (c : Controller) (e : Event) c' hs => (∃ os, c.step e = some (c', os)) ∧ hs = c.watchActions e

/-- A module is power-cycled when its watchdog was started and it has not been given a tickle since
the check before. -/
def Exact (before : List WatchAction) : WatchAction → Prop
  | .visited m cycled =>
    (cycled = true ↔ .started m ∈ before ∧ ¬ Since (WatchAction.Feeds m) (WatchAction.Visits m) before)
  | _ => True

/-! ## Flags -/

/-- `watchdog_subscribed` and `watchdog_tickled` -/
def flags (c : Controller) (m : Fin 8) : UInt8 × UInt8 :=
  ((c.moduleState m).watchdogSubscribed, (c.moduleState m).watchdogTickled)

section
variable {c c' : Controller} {m : Fin 8}

@[simp] theorem flags_setState (s : IsolationState) : (c.setState m s).flags = c.flags := by
  funext m'
  by_cases h : m' = m <;> simp [flags, setState, h]

@[simp] theorem flags_setFailures (n : UInt8) : (c.setFailures m n).flags = c.flags := by
  funext m'
  by_cases h : m' = m <;> simp [flags, setFailures, h]

@[simp] theorem flags_enablePower : (c.enablePower m).flags = c.flags := rfl
@[simp] theorem flags_disablePower : (c.disablePower m).flags = c.flags := rfl
@[simp] theorem flags_enableI2c : (c.enableI2c m).flags = c.flags := rfl
@[simp] theorem flags_disableI2c : (c.disableI2c m).flags = c.flags := rfl
@[simp] theorem flags_wait (stage : Stage) : (c.wait stage).flags = c.flags := rfl
@[simp] theorem flags_grant (i : Fin 7) : (c.grant i).flags = c.flags := rfl
@[simp] theorem flags_setIn : c.setIn.flags = c.flags := rfl
@[simp] theorem flags_release : c.release.flags = c.flags := rfl
@[simp] theorem flags_setIsolation (iso : Isolation) : (c.setIsolation iso).flags = c.flags := rfl
@[simp] theorem flags_finishCheck (later : Fin 7 → Bool) : (c.finishCheck later).1.flags = c.flags := rfl
@[simp] theorem flags_after (os : List Action) (r : Controller × List Action) : (after os r).1.flags = r.1.flags := rfl

theorem flags_setTickled (n : UInt8) :
    (c.setTickled m n).flags = Function.update c.flags m ((c.flags m).1, n) := by
  funext m'
  by_cases h : m' = m
  · subst h
    simp [flags, setTickled]
  · simp [flags, setTickled, h]

theorem flags_setSubscribed (n : UInt8) :
    (c.setSubscribed m n).flags = Function.update c.flags m (n, (c.flags m).2) := by
  funext m'
  by_cases h : m' = m
  · subst h
    simp [flags, setSubscribed]
  · simp [flags, setSubscribed, h]

theorem flags_checkModuleInit (lines later : Fin 7 → Bool) : (c.checkModuleInit lines later).1.flags = c.flags := by
  unfold checkModuleInit
  split
  · rfl
  · unfold runCheck
    split
    · split <;> rfl
    · split
      · rfl
      · split
        · simp only
          split <;> simp <;> rfl
        · rfl

theorem flags_moduleCommand (remaining : Int) (command : DownlinkCommand) :
    (c.moduleCommand m remaining command).1.flags = c.flags := by
  cases command <;> simp only [moduleCommand] <;> (try split) <;> simp

theorem flags_downlink (topic data : Bytes) (remaining : Int) :
    (c.downlink topic data remaining).1.flags = c.flags := by
  unfold downlink
  split
  · rfl
  · split
    · exact flags_moduleCommand remaining _
    · split <;> rfl

theorem flags_dutyCycleTimer (remaining : Int) : (c.dutyCycleTimer m remaining).1.flags = c.flags := by
  unfold dutyCycleTimer
  split
  · simp
  · split <;> simp

theorem flags_updateEnergyPolicy (remaining : Fin 8 → Int) : (c.updateEnergyPolicy remaining).1.flags = c.flags := by
  funext m
  simp only [flags, updateEnergyPolicy]
  split
  · rfl
  · split <;> rfl

theorem flags_declare {source : UInt8} {message : Bytes} (h : c.declare source message = some c') :
    c'.flags = c.flags := by
  unfold declare at h
  split at h
  · cases h
    rfl
  · simp only at h
    split at h <;> cases h
    rfl

theorem flags_receive {msg : ApiMessage} {replied : Bool} (hapi : msg.apiType ≠ watchdogApiType)
    (h : c.receive msg replied = some c') : c'.flags = c.flags := by
  rw [receive, if_neg hapi] at h
  split at h
  · exact flags_declare h
  · split at h
    · obtain ⟨m, -, rfl⟩ := Option.map_eq_some_iff.mp h
      simp only [dutyCycleRequest, flags_disableI2c, flags_disablePower, flags_setState]
      rfl
    · cases h
      rfl

theorem flags_powerCycle (i : Fin 7) (later : Fin 7 → Bool) : (c.powerCycle i later).1.flags = c.flags := by
  simp [powerCycle]

/-! ## What the flags say -/

structure FlagsExact (hs : List WatchAction) (c : Controller) : Prop where
  subscribed : ∀ m, (c.flags m).1 ≠ 0 ↔ .started m ∈ hs
  tickled : ∀ m, .started m ∈ hs → ((c.flags m).2 ≠ 0 ↔ Since (WatchAction.Feeds m) (WatchAction.Visits m) hs)
  exact : Throughout Exact hs

theorem FlagsExact.of_eq {hs : List WatchAction} (h : FlagsExact hs c) (hflags : c'.flags = c.flags) :
    FlagsExact hs c' :=
  ⟨hflags ▸ h.subscribed, hflags ▸ h.tickled, h.exact⟩

theorem FlagsExact.feed {hs : List WatchAction} (h : FlagsExact hs c) {a : WatchAction}
    (ha : WatchAction.Feeds m a)
    (hsubscribed : ∀ m', (c'.flags m').1 ≠ 0 ↔ (c.flags m').1 ≠ 0 ∨ a = .started m')
    (htickled : (c'.flags m).2 ≠ 0) (hothers : ∀ m', m' ≠ m → c'.flags m' = c.flags m') :
    FlagsExact (hs ++ [a]) c' := by
  have hvisits : ∀ m', ¬ WatchAction.Visits m' a := by
    rintro m' ⟨cycled, rfl⟩
    rcases ha with ha | ha <;> cases ha
  refine ⟨fun m' => ?_, fun m' hstarted => ?_, h.exact.append (.singleton ?_)⟩
  · rw [hsubscribed, h.subscribed, List.mem_append, List.mem_singleton, eq_comm (a := a)]
  · rw [since_concat]
    by_cases hm : m' = m
    · subst hm
      exact iff_of_true htickled (.inl ha)
    · have hnot : ¬ WatchAction.Feeds m' a := by
        rintro (rfl | rfl) <;> rcases ha with ha | ha <;> cases ha <;> exact hm rfl
      have hbefore : .started m' ∈ hs := by
        refine (List.mem_append.mp hstarted).resolve_right fun hmem => hnot (.inl ?_)
        exact (List.mem_singleton.mp hmem).symm
      rw [hothers m' hm, h.tickled m' hbefore]
      exact ⟨fun hs => .inr ⟨hs, hvisits m'⟩, fun hs => (hs.resolve_left hnot).1⟩
  · rcases ha with rfl | rfl <;> exact trivial

theorem FlagsExact.visit {hs : List WatchAction} (h : FlagsExact hs c) (cycled : Bool)
    (hcycled : cycled = true ↔ (c.flags m).1 ≠ 0 ∧ (c.flags m).2 = 0)
    (hsubscribed : ∀ m', (c'.flags m').1 = (c.flags m').1)
    (htickled : (c.flags m).1 ≠ 0 → (c'.flags m).2 = 0) (hothers : ∀ m', m' ≠ m → c'.flags m' = c.flags m') :
    FlagsExact (hs ++ [.visited m cycled]) c' := by
  have hfeeds : ∀ m', ¬ WatchAction.Feeds m' (.visited m cycled) := by
    rintro m' (heq | heq) <;> cases heq
  have hstarts : ∀ m', WatchAction.started m' ∈ hs ++ [.visited m cycled] ↔ .started m' ∈ hs := by
    intro m'
    simp
  refine ⟨fun m' => ?_, fun m' hstarted => ?_, h.exact.append (.singleton ?_)⟩
  · rw [hsubscribed, h.subscribed, hstarts]
  · have hbefore := (hstarts m').mp hstarted
    rw [since_concat]
    by_cases hm : m' = m
    · subst hm
      have hzero := htickled ((h.subscribed m').mpr hbefore)
      exact iff_of_false (not_not.mpr hzero)
        fun hs => hs.elim (hfeeds m') fun hs => hs.2 ⟨cycled, rfl⟩
    · rw [hothers m' hm, h.tickled m' hbefore]
      refine ⟨fun hs => .inr ⟨hs, ?_⟩, fun hs => (hs.resolve_left (hfeeds m')).1⟩
      rintro ⟨_, heq⟩
      cases heq
      exact hm rfl
  · show cycled = true ↔ .started m ∈ hs ++ [] ∧ ¬ Since (WatchAction.Feeds m) (WatchAction.Visits m) (hs ++ [])
    rw [List.append_nil, hcycled, h.subscribed]
    refine and_congr_right fun hstarted => ?_
    rw [← h.tickled m hstarted, not_not]

theorem FlagsExact.check {hs : List WatchAction} (h : FlagsExact hs c) (js : List (Fin 8)) :
    FlagsExact (hs ++ c.visits js) (c.checkWatchdogs js) := by
  induction js generalizing c hs with
  | nil =>
    rw [visits, List.append_nil]
    exact h
  | cons j rest ih =>
    have hsame : ∀ m', m' ≠ j → c.flags m' = c.flags m' := fun _ _ => rfl
    rw [visits, checkWatchdogs]
    by_cases hsubscribed : (c.moduleState j).watchdogSubscribed ≠ 0
    · rw [if_pos hsubscribed, if_pos hsubscribed]
      by_cases htickled : (c.moduleState j).watchdogTickled = 0
      · rw [if_pos htickled, if_pos htickled]
        exact h.visit true (iff_of_true rfl ⟨hsubscribed, htickled⟩) (fun _ => rfl) (fun _ => htickled) hsame
      · rw [if_neg htickled, if_neg htickled, List.append_cons]
        refine ih (h.visit false (iff_of_false Bool.false_ne_true fun hflags => htickled hflags.2) (fun m' => ?_)
          (fun _ => ?_) fun m' hm => ?_)
        · by_cases hm : m' = j <;> simp [flags_setTickled, hm]
        · rw [flags_setTickled, Function.update_self]
        · rw [flags_setTickled, Function.update_of_ne hm]
    · rw [if_neg hsubscribed, if_neg hsubscribed, List.append_cons]
      exact ih (h.visit false (iff_of_false Bool.false_ne_true fun hflags => hsubscribed hflags.1) (fun _ => rfl)
        (fun hflags => absurd hflags hsubscribed) hsame)

theorem FlagsExact.message {hs : List WatchAction} (h : FlagsExact hs c) (moduleNum : Option (Fin 8))
    (messageType : UInt8) (replied : Bool) :
    FlagsExact (hs ++ watchdogAnswers moduleNum messageType replied)
      (c.watchdogMessage moduleNum messageType replied) := by
  have hnone : FlagsExact (hs ++ []) c := (List.append_nil hs).symm ▸ h
  cases moduleNum with
  | none => exact hnone
  | some m =>
    simp only [watchdogAnswers, watchdogMessage]
    split
    · refine h.feed (m := m) (.inl rfl) (fun m' => ?_) ?_ fun m' hm => ?_
      · by_cases hm : m' = m
        · subst hm
          simp [flags_setTickled, flags_setSubscribed]
        · simp [flags_setTickled, flags_setSubscribed, hm, Ne.symm hm]
      · simp [flags_setTickled]
      · simp [flags_setTickled, flags_setSubscribed, hm]
    · split
      · refine h.feed (m := m) (.inr rfl) (fun m' => ?_) ?_ fun m' hm => ?_
        · by_cases hm : m' = m <;> simp [flags_setTickled, hm]
        · simp [flags_setTickled]
        · simp [flags_setTickled, hm]
      · exact hnone

/-! ## Runs -/

theorem FlagsExact.step {hs : List WatchAction} {e : Event} {os : List Action} (h : FlagsExact hs c)
    (hstep : c.step e = some (c', os)) : FlagsExact (hs ++ c.watchActions e) c' := by
  have hother : c.watchActions e = [] → c'.flags = c.flags → FlagsExact (hs ++ c.watchActions e) c' := by
    intro hnone hflags
    rw [hnone, List.append_nil]
    exact h.of_eq hflags
  cases e with
  | message msg replied =>
    obtain ⟨c'', hreceive, heq⟩ := Option.map_eq_some_iff.mp hstep
    cases heq
    by_cases hapi : msg.apiType = watchdogApiType
    · have hkind : ¬ (msg.apiType = initializationApiType ∧ msg.frameType = commandFrame ∧ msg.messageType = 0) ∧
          ¬ DutyCycleRequest msg := by
        constructor
        · rintro ⟨hinit, -⟩
          exact absurd (hapi.symm.trans hinit) (by decide)
        · rintro ⟨henergy, -⟩
          exact absurd (hapi.symm.trans henergy) (by decide)
      rw [receive, if_neg hkind.1, if_neg hkind.2, if_pos hapi] at hreceive
      cases hreceive
      rw [watchActions, if_pos hapi]
      exact h.message _ _ _
    · exact hother (if_neg hapi) (flags_receive hapi hreceive)
  | downlink topic data remaining =>
    have hflags := flags_downlink (c := c) topic data remaining
    rw [Option.some.inj hstep] at hflags
    exact hother rfl hflags
  | checkModuleInit lines later =>
    have hflags := flags_checkModuleInit (c := c) lines later
    rw [Option.some.inj hstep] at hflags
    exact hother rfl hflags
  | dutyCycleTimer timer remaining =>
    obtain ⟨m, -, heq⟩ := Option.map_eq_some_iff.mp hstep
    have hflags := flags_dutyCycleTimer (c := { c with dutyCycleTimers := c.dutyCycleTimers.eraseIdx timer })
      (m := m) remaining
    rw [heq] at hflags
    exact hother rfl hflags
  | checkWatchdogs =>
    cases hstep
    exact h.check (List.finRange 8)
  | updateEnergyPolicy remaining =>
    cases hstep
    exact hother rfl (flags_updateEnergyPolicy remaining)
  | resume later =>
    simp only [Controller.step] at hstep
    split at hstep
    · cases hstep
    · next stage stack hstack =>
      cases stage with
      | granting =>
        cases hstep
        exact hother (by simp only [watchActions, hstack]) rfl
      | powerCycling =>
        obtain ⟨i, -, heq⟩ := Option.map_eq_some_iff.mp hstep
        have hflags := flags_powerCycle (c := { c with stack := stack }) i later
        rw [heq] at hflags
        exact hother (by simp only [watchActions, hstack]) hflags
      | watchdogReset j rest =>
        cases hstep
        have hactions : c.watchActions (.resume later) = visits rest (enablePower { c with stack := stack } j) := by
          simp only [watchActions, hstack]
        rw [hactions]
        have henabled : FlagsExact hs (enablePower { c with stack := stack } j) := h.of_eq rfl
        exact henabled.check rest
      | downlinkReset m =>
        cases hstep
        exact hother (by simp only [watchActions, hstack]) rfl

theorem flagsExact_init (moduleInfo : ModuleState) : FlagsExact [] (init moduleInfo) :=
  ⟨fun _ => iff_of_false (not_not.mpr rfl) List.not_mem_nil, fun _ hmem => absurd hmem List.not_mem_nil, .nil⟩

end

/-- **A check power-cycles exactly the modules that have stopped to tickle**: in every run, when a
check comes to a module, it begins to power-cycle it if and only if the module's watchdog was
started and no start or tickle of it was answered since a check came to it last. -/
theorem watchdog_exact {moduleInfo : ModuleState} {es : List Event} {c : Controller} {hs : List WatchAction}
    (h : WatchRun (init moduleInfo) es c hs) : Throughout Exact hs := by
  refine (h.history FlagsExact ?_ (flagsExact_init moduleInfo)).exact
  rintro hs c e c' _ hflags ⟨⟨os, hstep⟩, rfl⟩
  exact hflags.step hstep

def sampleWatchdog (messageType : UInt8) : Event := .message ⟨0x10, commandFrame, watchdogApiType, messageType, []⟩ true

/-- A module starts its watchdog and does not tickle it. While it is power-cycled it is checked again. -/
theorem watchdog_exact_sample : ∃ c hs,
    WatchRun (init sampleInfo)
      [sampleWatchdog watchdogStartMessage, .checkWatchdogs, .checkWatchdogs, .checkWatchdogs,
        sampleWatchdog watchdogTickleMessage, .resume fun _ => true] c hs ∧
    hs.filter (fun a => a matches .visited 0 _) = [.visited 0 false, .visited 0 true, .visited 0 true] ∧
    Throughout Exact hs := by
  have hexec : (Run.exec (fun (c : Controller) e => (c.step e).map fun r => (r.1, c.watchActions e)) (init sampleInfo)
      [sampleWatchdog watchdogStartMessage, .checkWatchdogs, .checkWatchdogs, .checkWatchdogs,
        sampleWatchdog watchdogTickleMessage, .resume fun _ => true]).map
      (fun r => r.2.filter fun a => a matches .visited 0 _) =
        some [.visited 0 false, .visited 0 true, .visited 0 true] := by decide +kernel
  obtain ⟨⟨c, hs⟩, hexec, hvisits⟩ := Option.map_eq_some_iff.mp hexec
  have hrun : WatchRun (init sampleInfo) _ c hs := (Run.of_exec hexec).mono fun {s e s' o} hstep => by
    obtain ⟨⟨s'', os⟩, hs'', heq⟩ := Option.map_eq_some_iff.mp hstep
    cases heq
    exact ⟨⟨os, hs''⟩, rfl⟩
  exact ⟨c, hs, hrun, hvisits, watchdog_exact hrun⟩

end Controller

end Signpost
