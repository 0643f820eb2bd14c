/-
A module's initialization on the Tock port, with MOD_IN and its interrupts.

The port has one callback for all interrupts of a pin
(`global_gpio_interrupt_cb`), so what is registered last is called. Whether the
pin still interrupts on an edge after it is enabled for another is the kernel's.

The interrupts of a pin come late or not at all, and the module goes on after
each wait with what it was told. Runs are those of module and pin together, and
the invariant says what is registered at the pin in each state of the loop.
-/
import Signpost.Lib.History
import Signpost.Initialization

namespace Signpost

open Lib

inductive ModInCallback
  | isolation
  | lostIsolation
  deriving DecidableEq

/-- `global_gpio_interrupt_cb`, and the edges of MOD_IN that interrupt. -/
structure Gpio where
  interruptCb : Option ModInCallback
  falling : Bool
  rising : Bool

namespace Gpio

section
variable (keeps : Bool) (g : Gpio) (cb : ModInCallback)

/-- `port_signpost_mod_in_enable_interrupt_rising` -/
def enableInterruptRising : Gpio where
  interruptCb := some cb
  falling := keeps && g.falling
  rising := true

/-- `port_signpost_mod_in_enable_interrupt_falling` -/
def enableInterruptFalling : Gpio where
  interruptCb := some cb
  falling := true
  rising := keeps && g.rising

end

/-- The interrupts as `signpost_init` sets them up. -/
def setup (keeps : Bool) (g : Gpio) : Gpio :=
  (g.enableInterruptRising keeps .lostIsolation).enableInterruptFalling keeps .isolation

end Gpio

structure TockInitialization where
  module : Initialization
  gpio : Gpio
  modInHigh : Bool
  /-- How many interrupts have not been handled. -/
  interrupts : Nat
  /-- MOD_IN has risen in state `Declare` since isolation was requested last. No
  code reads it. -/
  lost : Bool

namespace TockInitialization

inductive Event
  | fall
  | rise
  /-- The callback of an interrupt runs. -/
  | interrupt
  | receive (call : AppCall)
  | timeout
  /-- The loop goes on; it reads MOD_IN as it is. -/
  | resume (port : Initialization.Port)

inductive Action
  /-- An interrupt makes the state `Declare`. -/
  | granted
  /-- MOD_IN rises in state `Declare`. -/
  | lost
  | module (action : Initialization.Action)

def isRequest : Action → Bool
  | .module .requested => true
  | _ => false

section
variable (s : TockInitialization)

/-- What a step of the module makes of all. -/
def ofModule (r : Initialization × List Initialization.Action) : TockInitialization × List Action :=
  let os := r.2.map Action.module
  ({ s with module := r.1, lost := s.lost && !os.any isRequest }, os)

/-- `port_signpost_gpio_interrupt_callback` -/
def interrupt : Option (TockInitialization × List Action) :=
  match s.interrupts, s.gpio.interruptCb with
  | n + 1, some cb =>
    let event := match cb with
      | .isolation => Initialization.Event.isolation
      | .lostIsolation => Initialization.Event.lostIsolation
    (s.module.step event).map fun r =>
      ({ s with module := r.1, interrupts := n },
        if s.module.initState ≠ .declare ∧ r.1.initState = .declare then [.granted] else [])
  | _, _ => none

def step : Event → Option (TockInitialization × List Action)
  | .fall =>
    if s.modInHigh then
      some ({ s with modInHigh := false, interrupts := s.interrupts + if s.gpio.falling then 1 else 0 }, [])
    else none
  | .rise =>
    if s.modInHigh then none
    else
      some ({ s with
        modInHigh := true
        interrupts := s.interrupts + if s.gpio.rising then 1 else 0
        lost := s.lost || s.module.initState = .declare },
      if s.module.initState = .declare then [.lost] else [])
  | .interrupt => s.interrupt
  | .receive call => (s.module.step (.receive call)).map s.ofModule
  | .timeout => (s.module.step .timeout).map s.ofModule
  | .resume port => (s.module.step (.resume { port with modInHigh := s.modInHigh })).map s.ofModule

end

/-- `signpost_init` is about to start the loop. -/
structure AtStart (keeps : Bool) (s : TockInitialization) : Prop where
  module : s.module.AtStart
  gpio : ∃ g, s.gpio = Gpio.setup keeps g
  lost : s.lost = false

/-! ## Isolation in a run -/

/-- Isolation was granted and has not been lost since. -/
def Isolated (os : List Action) : Prop := Since (· = .granted) (· = .lost) os

/-- MOD_IN was low where it was read last, and isolation was granted and not lost. -/
def CheckedLow (os : List Action) : Prop :=
  ∃ os₁ os₂, os = os₁ ++ .module (.passed false) :: os₂ ∧ (∀ high, .module (.passed high) ∉ os₂) ∧ Isolated os₁

theorem CheckedLow.append {os o : List Action} (h : CheckedLow os) (ho : ∀ high, .module (.passed high) ∉ o) :
    CheckedLow (os ++ o) := by
  obtain ⟨os₁, os₂, rfl, hnone, hisolated⟩ := h
  refine ⟨os₁, os₂ ++ o, by rw [List.append_assoc, List.cons_append], fun high hmem => ?_, hisolated⟩
  rcases List.mem_append.mp hmem with hmem | hmem
  · exact hnone high hmem
  · exact ho high hmem

/-- The module goes on with its initialization. -/
def GoesOn : Action → Prop
  | .module (.passed _) => True
  | .module .completed => True
  | .module .returned => True
  | _ => False

/-- A declaration follows a check, and the module does not go on after isolation
is lost without a new request. -/
def Allowed (os : List Action) (a : Action) : Prop :=
  (∀ name, a = .module (.declared name) → CheckedLow os) ∧
  (GoesOn a → ¬ Since (· = .lost) (· = .module .requested) os)

/-- Where MOD_IN is read it is low, and it has not risen in state `Declare` there
nor before an answer makes the state `Done`. -/
def IsolationKept (s : TockInitialization) : Event → Prop
  | .resume _ =>
    (s.module.stage = .checking → s.modInHigh = false ∧ s.lost = false) ∧
    (s.module.stage = .awaiting → s.module.initState = .done → s.lost = false)
  | _ => True

structure Invariant (os : List Action) (s : TockInitialization) : Prop where
  placed : s.module.CallbackPlaced
  interruptCb : s.gpio.interruptCb = some .isolation
  checking : s.module.stage = .checking → s.module.initState = .declare
  granted : s.module.initState = .declare → s.lost = false → Isolated os
  lost : Since (· = .lost) (· = .module .requested) os → s.lost = true
  done : s.module.initState = .done → s.module.AfterDeclaration ∨ s.lost = false
  settling : s.module.stage = .settling → CheckedLow os
  allowed : Throughout Allowed os

theorem invariant_start {keeps : Bool} {s : TockInitialization} (h : s.AtStart keeps) : Invariant [] s where
  placed := .start h.module
  interruptCb := by
    obtain ⟨g, hg⟩ := h.gpio
    rw [hg]
    rfl
  checking hs := by simp [h.module.stage] at hs
  granted hs := by simp [h.module.initState] at hs
  lost hs := (not_since_nil hs).elim
  done hs := by simp [h.module.initState] at hs
  settling hs := by simp [h.module.stage] at hs
  allowed := .nil

theorem isRequest_iff {a : Action} : isRequest a = true ↔ a = .module .requested := by
  constructor
  · intro h
    cases a with
    | granted | lost => cases h
    | module action =>
      cases action with
      | requested => rfl
      | received | passed | declared | completed | returned => cases h
  · rintro rfl
    rfl

theorem any_isRequest_iff {os : List Initialization.Action} :
    (os.map Action.module).any isRequest = true ↔ .requested ∈ os := by
  rw [List.any_eq_true]
  constructor
  · rintro ⟨b, hb, hrequest⟩
    obtain ⟨a, ha, rfl⟩ := List.mem_map.mp hb
    cases Action.module.inj (isRequest_iff.mp hrequest)
    exact ha
  · exact fun h => ⟨.module .requested, List.mem_map_of_mem h, rfl⟩

section
variable {os : List Action} {s : TockInitialization} {r : Initialization × List Initialization.Action}

theorem lost_ofModule : (s.ofModule r).1.lost = false ↔ s.lost = false ∨ .requested ∈ r.2 := by
  change (s.lost && !(r.2.map Action.module).any isRequest) = false ↔ _
  rw [← any_isRequest_iff]
  cases s.lost <;> simp

theorem lost_notMem_map {os : List Initialization.Action} : ∀ b ∈ os.map Action.module, ¬ b = .lost := by
  intro b hb
  obtain ⟨a, -, rfl⟩ := List.mem_map.mp hb
  simp

/-- What a step of the module keeps, if it does not make the state `Declare` and
ends in requesting isolation where it is requested. -/
theorem Invariant.ofModule (h : Invariant os s) (hplaced : r.1.CallbackPlaced)
    (hchecking : r.1.stage = .checking → r.1.initState = .declare)
    (hdeclare : r.1.initState = .declare → s.module.initState = .declare)
    (hrequested : .requested ∈ r.2 → r.1.initState ≠ .declare)
    (hdone : r.1.initState = .done → r.1.AfterDeclaration ∨ s.lost = false)
    (hsettling : r.1.stage = .settling → CheckedLow (os ++ r.2.map .module))
    (hallowed : Throughout (fun o a => Allowed (os ++ o) a) (r.2.map .module)) :
    Invariant (os ++ (s.ofModule r).2) (s.ofModule r).1 where
  placed := hplaced
  interruptCb := h.interruptCb
  checking := hchecking
  granted hstate hlost := by
    rcases lost_ofModule.mp hlost with hlost | hmem
    · exact (h.granted (hdeclare hstate) hlost).append lost_notMem_map
    · exact absurd hstate (hrequested hmem)
  lost hsince := by
    by_contra hlost
    rcases since_append.mp hsince with hsince | ⟨hsince, hnone⟩
    · obtain ⟨o₁, b, o₂, heq, hb, -⟩ := hsince
      exact lost_notMem_map b (heq ▸ List.mem_append_right o₁ List.mem_cons_self) hb
    · rcases lost_ofModule.mp (by simpa using hlost) with hlost | hmem
      · exact absurd (h.lost hsince) (by simp [hlost])
      · exact hnone _ (List.mem_map_of_mem hmem) rfl
  done hstate := (hdone hstate).imp_right fun hlost => lost_ofModule.mpr (.inl hlost)
  settling := hsettling
  allowed := h.allowed.append hallowed

theorem Invariant.not_since (h : Invariant os s) (hlost : s.lost = false) :
    ¬ Since (· = .lost) (· = .module .requested) os := by
  intro hsince
  exact absurd (h.lost hsince) (by simp [hlost])

theorem allowed_of_not {a : Action} (hname : ∀ name, a ≠ .module (.declared name)) (hgoes : ¬ GoesOn a) :
    Allowed os a :=
  ⟨fun name ha => absurd ha (hname name), fun h => absurd h hgoes⟩

theorem Invariant.allowed_of_lost (h : Invariant os s) (hlost : s.lost = false) {a : Action}
    (hname : ∀ name, a ≠ .module (.declared name)) : Allowed os a :=
  ⟨fun name ha => absurd ha (hname name), fun _ => h.not_since hlost⟩

/-- The loop starts again, in state `Declare` only if it was, and in state `Done`
only if isolation was not lost. -/
theorem Invariant.of_loop (h : Invariant os s) {t : Initialization} {port : Initialization.Port}
    (hinactive : t.callbackActive = false)
    (hdeclare : t.initState = .declare → s.module.initState = .declare)
    (hdone : t.initState = .done → s.lost = false) :
    Invariant (os ++ (s.ofModule (t.loop port)).2) (s.ofModule (t.loop port)).1 := by
  have hplaced : (t.loop port).1.CallbackPlaced := .of_loop hinactive
  rcases Initialization.loop_cases (s := t) port with ⟨hstate, heq | heq⟩ | ⟨hstate, heq⟩ | ⟨hstate, heq⟩ <;>
    rw [heq] at hplaced ⊢
  · refine h.ofModule hplaced (by simp) ?_ ?_ ?_ (by simp) ?_
    · exact fun hs => by simp [hstate] at hs
    · exact fun _ => by simp [hstate]
    · exact fun hs => by simp [hstate] at hs
    · exact .singleton (allowed_of_not (by simp) (by simp [GoesOn]))
  · refine h.ofModule hplaced (by simp) ?_ (by simp) ?_ (by simp) .nil
    · exact fun hs => by simp [hstate] at hs
    · exact fun hs => by simp [hstate] at hs
  · refine h.ofModule hplaced (fun _ => hstate) hdeclare (by simp) ?_ (by simp) .nil
    exact fun hs => by simp [hstate] at hs
  · refine h.ofModule hplaced (by simp) ?_ ?_ ?_ (by simp) ?_
    · exact fun hs => by simp [hstate] at hs
    · exact fun hmem => by simp at hmem
    · exact fun _ => .inr (hdone hstate)
    · refine .singleton ?_
      rw [List.append_nil]
      exact h.allowed_of_lost (hdone hstate) (by simp)

/-- Elsewhere than after a declaration, isolation was not lost before state `Done`. -/
theorem Invariant.kept_done (h : Invariant os s) (hstage : ¬ s.module.AfterDeclaration)
    (hdone : s.module.initState = .done) : s.lost = false :=
  (h.done hdone).resolve_left hstage

theorem Invariant.check (h : Invariant os s) (hstage : s.module.stage = .checking) (hhigh : s.modInHigh = false)
    (hlost : s.lost = false) {port : Initialization.Port} (hport : port.modInHigh = s.modInHigh)
    (hplaced : (s.module.check port).1.CallbackPlaced) :
    Invariant (os ++ (s.ofModule (s.module.check port)).2) (s.ofModule (s.module.check port)).1 := by
  have hpasses : s.module.check port =
      ({ s.module with declareControllerComplete := false, stage := .settling }, [.passed false]) := by
    unfold Initialization.check
    rw [hport, hhigh]
    exact if_neg (by simp)
  rw [hpasses] at hplaced ⊢
  have hdeclare := h.checking hstage
  refine h.ofModule hplaced (by simp) (fun _ => hdeclare) ?_ ?_ ?_ ?_
  · exact fun hmem => by simp at hmem
  · exact fun hs => by simp [hdeclare] at hs
  · exact fun _ => ⟨os, [], rfl, fun _ => List.not_mem_nil, h.granted hdeclare hlost⟩
  · refine .singleton ?_
    rw [List.append_nil]
    exact h.allowed_of_lost hlost (by simp)

theorem Invariant.takeAddress (h : Invariant os s) (hinactive : s.module.callbackActive = false)
    (hkept : s.module.initState = .done → s.lost = false) (port : Initialization.Port) :
    Invariant (os ++ (s.ofModule (s.module.takeAddress port)).2) (s.ofModule (s.module.takeAddress port)).1 := by
  simp only [Initialization.takeAddress]
  by_cases hdone : s.module.initState = .done
  · have hlost := hkept hdone
    have hcompleted : Allowed os (.module .completed) := h.allowed_of_lost hlost (by simp)
    have hsince : ¬ Since (· = .lost) (· = .module .requested) (os ++ [.module .completed]) := by
      simpa [since_concat] using h.not_since hlost
    rw [if_pos hdone]
    split_ifs
    · refine h.ofModule (.of_inactive hinactive (by simp)) (by simp)
        (fun hs => hs) ?_ (fun _ => .inr hlost) (by simp) ?_
      · exact fun hmem => by simp at hmem
      · exact .singleton (by rwa [List.append_nil])
    · rw [show s.module.loop port = ({ s.module with stage := .returned }, [.returned]) by
        simp [Initialization.loop, hdone]]
      refine h.ofModule (.of_inactive hinactive (by simp)) (by simp)
        (fun hs => hs) ?_ (fun _ => .inr hlost) (by simp) ?_
      · exact fun hmem => by simp at hmem
      · exact .cons (by rwa [List.append_nil]) (.singleton ⟨by simp, fun _ => hsince⟩)
  · rw [if_neg hdone]
    split_ifs
    · exact h.ofModule (.of_inactive hinactive (by simp)) (by simp)
        (fun hs => hs) (by simp) (fun hs => absurd hs hdone) (by simp) .nil
    · exact h.of_loop hinactive (fun hs => hs) (fun hs => absurd hs hdone)

theorem Invariant.resume (h : Invariant os s) {port : Initialization.Port}
    (hkept : IsolationKept s (.resume port)) (hport : port.modInHigh = s.modInHigh)
    (hstep : s.module.resume port = some r) :
    Invariant (os ++ (s.ofModule r).2) (s.ofModule r).1 := by
  have hplaced := h.placed.resume hstep
  unfold Initialization.resume at hstep
  split at hstep
  · next hstage =>
    have hnot : ¬ s.module.AfterDeclaration := by simp [Initialization.AfterDeclaration, hstage]
    cases hstep
    exact h.of_loop (h.placed.inactive hnot) (fun hs => hs) (h.kept_done hnot)
  · next hstage =>
    have hnot : ¬ s.module.AfterDeclaration := by simp [Initialization.AfterDeclaration, hstage]
    split_ifs at hstep
    cases hstep
    exact h.of_loop (h.placed.inactive hnot) (fun hs => hs) (h.kept_done hnot)
  · next declared hstage =>
    cases hstep
    refine h.of_loop ?_ (by simp) (by simp)
    cases declared with
    | true => rfl
    | false => exact h.placed.inactive (by simp [Initialization.AfterDeclaration, hstage])
  · next hstage =>
    cases hstep
    obtain ⟨hhigh, hlost⟩ := hkept.1 hstage
    exact h.check hstage hhigh hlost hport hplaced
  · next hstage =>
    cases hstep
    have hdone := h.kept_done (by simp [Initialization.AfterDeclaration, hstage])
    have hchecked : CheckedLow os := h.settling hstage
    refine h.ofModule hplaced ?_ (fun hs => hs) ?_ (fun hs => .inr (hdone hs)) ?_ ?_
    · exact fun hs => by simp [Initialization.declareController] at hs
    · exact fun hmem => by simp [Initialization.declareController] at hmem
    · exact fun hs => by simp [Initialization.declareController] at hs
    · exact .singleton ⟨fun _ _ => by rwa [List.append_nil], by simp [GoesOn]⟩
  · cases hstep
    refine h.ofModule hplaced ?_ (fun hs => hs) (by simp) (fun _ => .inl ?_) ?_ .nil
    · dsimp only
      split_ifs <;> simp
    · dsimp only
      split_ifs
      · exact .inr (.inl rfl)
      · exact .inr (.inr rfl)
    · dsimp only
      split_ifs <;> simp
  · next hstage =>
    split_ifs at hstep with hcomplete
    cases hstep
    exact h.takeAddress (h.placed.complete (.inr hstage) hcomplete) (hkept.2 hstage) port
  · next hstage =>
    have hnot : ¬ s.module.AfterDeclaration := by simp [Initialization.AfterDeclaration, hstage]
    cases hstep
    refine h.of_loop ?_ ?_ ?_
    · exact h.placed.inactive hnot
    · exact fun hs => hs
    · exact h.kept_done hnot
  · cases hstep

/-- A message changes the state to `Done` only after a declaration. -/
theorem Invariant.recvCallback (h : Invariant os s) {t : Initialization} (hplaced : t.CallbackPlaced)
    (hstage : t.stage = s.module.stage) (hstate : t.initState = s.module.initState)
    {o : List Initialization.Action} (ho : ∀ a ∈ o, ∃ sender frame, a = .received sender frame) (lenOrRc : Int) :
    Invariant (os ++ (s.ofModule (t.recvCallback lenOrRc, o)).2) (s.ofModule (t.recvCallback lenOrRc, o)).1 := by
  have hafter : (t.recvCallback lenOrRc).AfterDeclaration ↔ s.module.AfterDeclaration := by
    unfold Initialization.AfterDeclaration
    rw [Initialization.stage_recvCallback, hstage]
  have hkeeps := Initialization.initState_recvCallback (s := t) lenOrRc
  have hactive : t.callbackActive = true → s.module.AfterDeclaration := by
    intro hactive
    have hplace := hplaced.active hactive
    unfold Initialization.AfterDeclaration at hplace ⊢
    rwa [hstage] at hplace
  refine h.ofModule (hplaced.recvCallback lenOrRc) ?_ ?_ (fun hmem => ?_) ?_ ?_ (.of_mem fun os₁ a ha => ?_)
  · intro hs
    rw [Initialization.stage_recvCallback, hstage] at hs
    rcases hkeeps with heq | ⟨hactive', -⟩
    · rw [heq, hstate]
      exact h.checking hs
    · have hplace := hactive hactive'
      simp [Initialization.AfterDeclaration, hs] at hplace
  · intro hs
    rcases hkeeps with heq | ⟨-, heq⟩
    · rwa [heq, hstate] at hs
    · simp [heq] at hs
  · obtain ⟨_, _, heq⟩ := ho _ hmem
    cases heq
  · intro hs
    rw [hafter]
    rcases hkeeps with heq | ⟨hactive', -⟩
    · rw [heq, hstate] at hs
      exact h.done hs
    · exact .inl (hactive hactive')
  · intro hs
    rw [Initialization.stage_recvCallback, hstage] at hs
    refine (h.settling hs).append fun high hmem => ?_
    obtain ⟨a, ha, heq⟩ := List.mem_map.mp hmem
    obtain ⟨_, _, rfl⟩ := ho a ha
    cases heq
  · obtain ⟨b, hb, rfl⟩ := List.mem_map.mp ha
    obtain ⟨_, _, rfl⟩ := ho b hb
    exact allowed_of_not (by simp) (by simp [GoesOn])

theorem Invariant.receive (h : Invariant os s) (call : AppCall) :
    Invariant (os ++ (s.ofModule (s.module.receive call)).2) (s.ofModule (s.module.receive call)).1 := by
  unfold Initialization.receive
  cases call.frame with
  | none => exact h.recvCallback h.placed rfl rfl (fun a ha => absurd ha List.not_mem_nil) _
  | some frame =>
    have hplaced : Initialization.CallbackPlaced
        { s.module with incoming := frame, sender := call.senderAddress } := { h.placed with }
    exact h.recvCallback hplaced rfl rfl (fun a ha => ⟨_, _, List.mem_singleton.mp ha⟩) _

theorem Invariant.timeout (h : Invariant os s) (hstep : s.module.timeout = some r) :
    Invariant (os ++ (s.ofModule r).2) (s.ofModule r).1 := by
  have hplaced := h.placed.timeout hstep
  unfold Initialization.timeout at hstep
  split at hstep
  · next hstage =>
    split_ifs at hstep
    cases hstep
    have hdone := h.kept_done (by simp [Initialization.AfterDeclaration, hstage])
    exact h.ofModule hplaced (by simp) (fun hs => hs) (by simp) (fun hs => .inr (hdone hs)) (by simp) .nil
  · split_ifs at hstep
    cases hstep
    exact h.ofModule hplaced (by simp) (fun hs => hs) (by simp) (fun _ => .inl (.inr (.inr rfl))) (by simp) .nil
  · cases hstep

theorem Invariant.rise (h : Invariant os s) (interrupts : Nat) :
    Invariant (os ++ if s.module.initState = .declare then [.lost] else [])
      { s with
        modInHigh := true
        interrupts := interrupts
        lost := s.lost || s.module.initState = .declare } := by
  by_cases hdeclare : s.module.initState = .declare
  · rw [if_pos hdeclare]
    exact
      { placed := h.placed
        interruptCb := h.interruptCb
        checking := h.checking
        granted := fun _ hlost => by simp [hdeclare] at hlost
        lost := fun _ => by simp [hdeclare]
        done := fun hdone => by simp [hdeclare] at hdone
        settling := fun hs => (h.settling hs).append (by simp)
        allowed := h.allowed.append (.singleton (allowed_of_not (by simp) (by simp [GoesOn]))) }
  · rw [if_neg hdeclare, List.append_nil, decide_eq_false hdeclare, Bool.or_false]
    exact { h with }

theorem Invariant.interrupt (h : Invariant os s) {p : TockInitialization × List Action}
    (hstep : s.interrupt = some p) : Invariant (os ++ p.2) p.1 := by
  unfold TockInitialization.interrupt at hstep
  rw [h.interruptCb] at hstep
  split at hstep
  · next n cb hn hcb =>
    cases hcb
    obtain ⟨r, hr, rfl⟩ := Option.map_eq_some_iff.mp hstep
    have hplaced := h.placed.step hr
    obtain rfl := Initialization.step_isolation hr
    by_cases hstate : s.module.initState = .requestIsolation
    · have hgranted : s.module.isolationCallback = { s.module with
          isIsolated := true
          initState := .declare
          requestIsolationComplete := true } := if_neg (not_not_intro hstate)
      simp only [hgranted] at hplaced ⊢
      rw [if_pos ⟨by simp [hstate], trivial⟩]
      exact
        { placed := hplaced
          interruptCb := h.interruptCb
          checking := fun _ => rfl
          granted := fun _ _ => since_concat.mpr (.inl rfl)
          lost := fun hsince => h.lost ((since_concat.mp hsince).resolve_left (by simp)).1
          done := by simp
          settling := fun hs => (h.settling hs).append (by simp)
          allowed := h.allowed.append (.singleton (allowed_of_not (by simp) (by simp [GoesOn]))) }
    · have hkept : s.module.isolationCallback = { s.module with isIsolated := true } := if_pos hstate
      simp only [hkept] at hplaced ⊢
      rw [if_neg (fun hs => hs.1 hs.2), List.append_nil]
      exact { h with placed := hplaced }
  · cases hstep

theorem Invariant.step (h : Invariant os s) {e : Event} {s' : TockInitialization} {o : List Action}
    (hkept : IsolationKept s e) (hstep : s.step e = some (s', o)) : Invariant (os ++ o) s' := by
  cases e with
  | fall =>
    by_cases hhigh : s.modInHigh = true
    · rw [TockInitialization.step, if_pos hhigh] at hstep
      cases hstep
      rw [List.append_nil]
      exact { h with }
    · rw [TockInitialization.step, if_neg hhigh] at hstep
      cases hstep
  | rise =>
    by_cases hhigh : s.modInHigh = true
    · rw [TockInitialization.step, if_pos hhigh] at hstep
      cases hstep
    · rw [TockInitialization.step, if_neg hhigh] at hstep
      cases hstep
      exact h.rise _
  | interrupt => exact h.interrupt hstep
  | receive call =>
    obtain ⟨r, hr, heq⟩ := Option.map_eq_some_iff.mp hstep
    obtain rfl := Initialization.step_receive hr
    have hreceive := h.receive call
    rwa [heq] at hreceive
  | timeout =>
    obtain ⟨r, hr, heq⟩ := Option.map_eq_some_iff.mp hstep
    have htimeout := h.timeout hr
    rwa [heq] at htimeout
  | resume port =>
    obtain ⟨r, hr, heq⟩ := Option.map_eq_some_iff.mp hstep
    have hkept' : IsolationKept s (.resume { port with modInHigh := s.modInHigh }) := hkept
    have hresume := h.resume hkept' rfl hr
    rwa [heq] at hresume

end

/-- While MOD_IN is low where it is read and has not risen where the module goes
on, a declaration is only sent after MOD_IN was low, with isolation granted and
not lost, and after isolation is lost the module goes on only when it has
requested it again. -/
theorem declared_in_isolation {keeps : Bool} {s s' : TockInitialization} {es : List Event} {os : List Action}
    (hs : s.AtStart keeps)
    (h : Run (fun s e s' o => s.step e = some (s', o) ∧ IsolationKept s e) s es s' os) :
    Throughout (fun os₁ a => (∀ name, a = .module (.declared name) → CheckedLow os₁) ∧
      (GoesOn a → ¬ Since (· = .lost) (· = .module .requested) os₁)) os := by
  have hkeep : ∀ {os : List Action} {s : TockInitialization} {e : Event} {s' : TockInitialization}
      {o : List Action}, Invariant os s → s.step e = some (s', o) ∧ IsolationKept s e → Invariant (os ++ o) s' :=
    fun hinv ⟨hstep, hkept⟩ => hinv.step hkept hstep
  exact (h.history _ @hkeep (invariant_start hs)).allowed

section

instance (s : TockInitialization) : DecidablePred (IsolationKept s)
  | .resume _ =>
    inferInstanceAs (Decidable ((s.module.stage = .checking → s.modInHigh = false ∧ s.lost = false) ∧
      (s.module.stage = .awaiting → s.module.initState = .done → s.lost = false)))
  | .fall => instDecidableTrue
  | .rise => instDecidableTrue
  | .interrupt => instDecidableTrue
  | .receive _ => instDecidableTrue
  | .timeout => instDecidableTrue

def sampleStart (keeps : Bool) : TockInitialization where
  module := Initialization.sampleStart
  gpio := Gpio.setup keeps ⟨none, false, false⟩
  modInHigh := true
  interrupts := 0
  lost := false

theorem atStart_sampleStart (keeps : Bool) : (sampleStart keeps).AtStart keeps :=
  ⟨Initialization.atStart_sampleStart, ⟨_, rfl⟩, rfl⟩

/-- Isolation is requested and granted, and the loop is about to read MOD_IN. -/
def sampleGrant : List Event :=
  [.resume Initialization.samplePort, .fall, .interrupt, .resume Initialization.samplePort]

/-- The module declares itself, is answered, and MOD_IN rises. -/
def sampleCompletion : List Event :=
  sampleGrant ++ [.resume Initialization.samplePort, .resume Initialization.samplePort,
    .resume Initialization.samplePort,
    .receive ⟨1, moduleAddressController,
      some ⟨responseFrame, initializationApiType, Initialization.initializationDeclare, 1, fun _ => 0x31⟩⟩,
    .rise, .resume Initialization.samplePort, .resume Initialization.samplePort]

def isDeclaration : Action → Bool
  | .module (.declared _) => true
  | _ => false

/-- The module declares itself in isolation and returns. -/
theorem declared_in_isolation_returned : ∃ s os,
    Run (fun s e s' o => s.step e = some (s', o) ∧ IsolationKept s e) (sampleStart false) sampleCompletion s os ∧
    s.module.stage = .returned ∧ os.any isDeclaration ∧
    Throughout (fun os₁ a => (∀ name, a = .module (.declared name) → CheckedLow os₁) ∧
      (GoesOn a → ¬ Since (· = .lost) (· = .module .requested) os₁)) os := by
  have hexec : (Run.exec (fun (s : TockInitialization) e => if IsolationKept s e then s.step e else none)
      (sampleStart false) sampleCompletion).map
      (fun r => (r.1.module.stage, r.2.any isDeclaration)) = some (.returned, true) := by decide +kernel
  obtain ⟨⟨s, os⟩, hexec, heq⟩ := Option.map_eq_some_iff.mp hexec
  have hrun := Run.of_exec_guard hexec
  exact ⟨s, os, hrun, (Prod.mk.inj heq).1, (Prod.mk.inj heq).2,
    declared_in_isolation (atStart_sampleStart false) hrun⟩

/-- MOD_IN rises after isolation is granted: the module goes on without a new
request, and declares itself after it has read MOD_IN high. -/
theorem declared_without_isolation : ∃ s os name,
    Run (fun s e s' o => s.step e = some (s', o)) (sampleStart false)
      (sampleGrant ++ [.rise, .resume Initialization.samplePort, .resume Initialization.samplePort]) s
      (os ++ [.module (.passed true), .module (.declared name)]) ∧
    (sampleStart false).AtStart false ∧
    Since (· = .lost) (· = .module .requested) os ∧ ¬ CheckedLow (os ++ [.module (.passed true)]) := by
  refine ⟨_, [.module .requested, .granted, .lost], [], Run.of_exec rfl, atStart_sampleStart false, ?_, ?_⟩
  · exact ⟨[.module .requested, .granted], .lost, [], rfl, rfl, by simp⟩
  · rintro ⟨os₁, os₂, heq, -⟩
    have hmem : Action.module (.passed false) ∈
        [Action.module .requested, .granted, .lost, .module (.passed true)] := by
      rw [show [Action.module .requested, .granted, .lost, .module (.passed true)] =
        os₁ ++ .module (.passed false) :: os₂ from heq]
      exact List.mem_append_right os₁ List.mem_cons_self
    simp at hmem

end

end TockInitialization

end Signpost
