/-
A module's initialization with the controller
(`signpost_initialization_initialize_loop` and its callbacks): it asks for
isolation, declares itself, and takes the address that it is answered.

The loop waits at many places, and callbacks run there: of messages, and of the
interrupts of MOD_IN. Between two such places it is a step. What the port
answers, and the level of MOD_IN, are read from outside.
-/
import Signpost.Lib.Run
import Signpost.Registration

namespace Signpost

open Lib

namespace Initialization

/-- `initialization_state_t`, as far as it is used. -/
inductive State
  | requestIsolation
  | declare
  | done
  deriving DecidableEq

inductive Stage
  /-- At its top, where it does not wait. -/
  | looping
  /-- It waits for isolation. -/
  | requesting
  /-- It waits before another request. After a declaration that was not answered
  the callback is taken back then. -/
  | backoff (declared : Bool)
  /-- It waits before it reads MOD_IN again. -/
  | checking
  /-- It waits before it declares the module. -/
  | settling
  | sending
  /-- It waits for the answer. -/
  | awaiting
  /-- In `signpost_initialization_common`, with the new address. -/
  | reinitializing
  | returned
  deriving DecidableEq

end Initialization

open Initialization in
structure Initialization where
  initState : State
  requestIsolationComplete : Bool
  declareControllerComplete : Bool
  isIsolated : Bool
  /-- `incoming_active_callback` is `signpost_initialization_declare_callback`. -/
  callbackActive : Bool
  /-- `incoming_frame_type` to `incoming_message`, and who sent it. -/
  incoming : Parsed
  sender : UInt8
  moduleInfo : ModuleState
  stage : Stage

namespace Initialization

/-- What the loop does, and what is received. -/
inductive Action
  | received (sender : UInt8) (frame : Parsed)
  /-- MOD_OUT is pulled down. -/
  | requested
  /-- MOD_IN is read in state `Declare`, and the module goes on. -/
  | passed (modInHigh : Bool)
  /-- The declaration is sent, with the module's name. -/
  | declared (name : Bytes)
  /-- The address in an answer that makes the state `Done` is taken. -/
  | completed
  | returned

/-- What the port answers in a step of the loop. -/
structure Port where
  /-- `port_signpost_mod_out_clear` and `port_signpost_debug_led_on` succeed. -/
  requested : Bool
  modInHigh : Bool
  /-- `signpost_api_send` succeeds. -/
  sent : Bool
  /-- `signpost_entropy_init` succeeds. -/
  entropy : Bool

inductive Event
  | receive (call : AppCall)
  /-- The two callbacks of MOD_IN. -/
  | isolation
  | lostIsolation
  /-- A wait ends without what is waited for. -/
  | timeout
  | resume (port : Port)

def initializationDeclare : UInt8 := 0

section
variable (s : Initialization)

/-- `signpost_initialization_declare_callback` -/
def declareCallback (lenOrRc : Int) : Initialization :=
  let s := { s with declareControllerComplete := true }
  if lenOrRc < portSuccess then s
  else if s.incoming.apiType ≠ initializationApiType ∨ s.incoming.messageType ≠ initializationDeclare then s
  else { s with initState := .done }

/-- `signpost_api_recv_callback`, up to handlers of other messages. -/
def recvCallback (lenOrRc : Int) : Initialization :=
  if lenOrRc < 0 then s
  else if s.incoming.frameType = notificationFrame ∨ s.incoming.frameType = commandFrame then s
  else if s.incoming.frameType = responseFrame ∨ s.incoming.frameType = errorFrame then
    if s.callbackActive then declareCallback { s with callbackActive := false } lenOrRc else s
  else s

/-- A message, or the error that the layers below make of it. -/
def receive (call : AppCall) : Initialization × List Action :=
  match call.frame with
  | none => (s.recvCallback call.lenOrRc, [])
  | some frame =>
    (recvCallback { s with incoming := frame, sender := call.senderAddress } call.lenOrRc,
      [.received call.senderAddress frame])

/-- `signpost_initialization_isolation_callback` -/
def isolationCallback : Initialization :=
  let s := { s with isIsolated := true }
  if s.initState ≠ .requestIsolation then s
  else { s with initState := .declare, requestIsolationComplete := true }

/-- `signpost_initialization_lost_isolation_callback` -/
def lostIsolationCallback : Initialization :=
  let s := { s with isIsolated := false }
  if s.initState ≠ .done then { s with initState := .requestIsolation } else s

/-- The top of the loop, up to where it waits. -/
def loop (port : Port) : Initialization × List Action :=
  match s.initState with
  | .requestIsolation =>
    let s := { s with requestIsolationComplete := false }
    if port.requested then ({ s with stage := .requesting }, [.requested]) else ({ s with stage := .looping }, [])
  | .declare => ({ s with stage := .checking }, [])
  | .done => ({ s with stage := .returned }, [.returned])

/-- MOD_IN is read after the delay in state `Declare`. -/
def check (port : Port) : Initialization × List Action :=
  if s.isIsolated = false ∧ port.modInHigh = true then loop { s with initState := .requestIsolation } port
  else ({ s with declareControllerComplete := false, stage := .settling }, [.passed port.modInHigh])

/-- `signpost_initialization_declare_controller`, up to where it sends. -/
def declareController : Initialization × List Action :=
  ({ s with callbackActive := true, stage := .sending },
    [.declared (s.moduleInfo.selfName.val.takeWhile (· ≠ 0))])

/-- The wait for an answer is over: its first byte is the new address. -/
def takeAddress (port : Port) : Initialization × List Action :=
  let newAddress := s.incoming.message 0
  let os := if s.initState = .done then [.completed] else []
  if s.moduleInfo.i2cAddress ≠ newAddress then
    ({ s with moduleInfo := { s.moduleInfo with i2cAddress := newAddress }, stage := .reinitializing }, os)
  else
    let r := s.loop port
    (r.1, os ++ r.2)

/-- The loop goes on from where it waits. -/
def resume (port : Port) : Option (Initialization × List Action) :=
  match s.stage with
  | .looping => some (s.loop port)
  | .requesting => if s.requestIsolationComplete then some (s.loop port) else none
  | .backoff declared =>
    some (loop { s with
      callbackActive := if declared then false else s.callbackActive
      initState := .requestIsolation } port)
  | .checking => some (s.check port)
  | .settling => some s.declareController
  | .sending => some ({ s with stage := if port.sent then .awaiting else .backoff true }, [])
  | .awaiting => if s.declareControllerComplete then some (s.takeAddress port) else none
  | .reinitializing =>
    some (loop { s with moduleInfo := if port.entropy then s.moduleInfo.common else s.moduleInfo } port)
  | .returned => none

/-- `port_signpost_wait_for_with_timeout` fails. -/
def timeout : Option (Initialization × List Action) :=
  match s.stage with
  | .requesting => if s.requestIsolationComplete then none else some ({ s with stage := .backoff false }, [])
  | .awaiting => if s.declareControllerComplete then none else some ({ s with stage := .backoff true }, [])
  | _ => none

/-- Callbacks run while the loop waits. -/
def step : Event → Option (Initialization × List Action)
  | .receive call => if s.stage = .looping ∨ s.stage = .returned then none else some (s.receive call)
  | .isolation => if s.stage = .looping ∨ s.stage = .returned then none else some (s.isolationCallback, [])
  | .lostIsolation =>
    if s.stage = .looping ∨ s.stage = .returned then none else some (s.lostIsolationCallback, [])
  | .timeout => s.timeout
  | .resume port => s.resume port

end

/-- No message has been received, and the loop is about to start. -/
structure AtStart (s : Initialization) : Prop where
  initState : s.initState = .requestIsolation
  stage : s.stage = .looping
  callback : s.callbackActive = false
  incoming : s.incoming.frameType = notificationFrame

/-! ## Where the callback of an answer is set -/

section
variable {s : Initialization}

theorem step_receive {call : AppCall} {r : Initialization × List Action} (h : s.step (.receive call) = some r) :
    s.receive call = r := by
  simp only [Initialization.step] at h
  split_ifs at h
  exact Option.some.inj h

theorem step_isolation {r : Initialization × List Action} (h : s.step .isolation = some r) :
    (s.isolationCallback, []) = r := by
  simp only [Initialization.step] at h
  split_ifs at h
  exact Option.some.inj h

theorem step_lostIsolation {r : Initialization × List Action} (h : s.step .lostIsolation = some r) :
    (s.lostIsolationCallback, []) = r := by
  simp only [Initialization.step] at h
  split_ifs at h
  exact Option.some.inj h

theorem loop_cases (port : Port) :
    (s.initState = .requestIsolation ∧
      (s.loop port = ({ s with requestIsolationComplete := false, stage := .requesting }, [.requested]) ∨
        s.loop port = ({ s with requestIsolationComplete := false, stage := .looping }, []))) ∨
    (s.initState = .declare ∧ s.loop port = ({ s with stage := .checking }, [])) ∨
    (s.initState = .done ∧ s.loop port = ({ s with stage := .returned }, [.returned])) := by
  unfold loop
  cases s.initState with
  | requestIsolation =>
    by_cases hrequested : port.requested = true
    · exact .inl ⟨rfl, .inl (if_pos hrequested)⟩
    · exact .inl ⟨rfl, .inr (if_neg hrequested)⟩
  | declare => exact .inr (.inl ⟨rfl, rfl⟩)
  | done => exact .inr (.inr ⟨rfl, rfl⟩)

theorem declareCallback_eq (lenOrRc : Int) : s.declareCallback lenOrRc =
    { s with declareControllerComplete := true, initState := (s.declareCallback lenOrRc).initState } := by
  simp only [declareCallback]
  split_ifs <;> rfl

theorem recvCallback_cases (lenOrRc : Int) : s.recvCallback lenOrRc = s ∨
    (s.callbackActive = true ∧ s.recvCallback lenOrRc = { s with
      callbackActive := false
      declareControllerComplete := true
      initState := (s.recvCallback lenOrRc).initState }) := by
  unfold recvCallback
  split_ifs with _ _ _ hactive
  · exact .inl rfl
  · exact .inl rfl
  · exact .inr ⟨hactive, declareCallback_eq lenOrRc⟩
  · exact .inl rfl
  · exact .inl rfl

theorem moduleInfo_recvCallback (lenOrRc : Int) : (s.recvCallback lenOrRc).moduleInfo = s.moduleInfo := by
  rcases recvCallback_cases (s := s) lenOrRc with heq | ⟨-, heq⟩ <;> rw [heq]

theorem moduleInfo_loop (port : Port) : (s.loop port).1.moduleInfo = s.moduleInfo := by
  rcases loop_cases (s := s) port with ⟨-, heq | heq⟩ | ⟨-, heq⟩ | ⟨-, heq⟩ <;> rw [heq]

theorem stage_recvCallback (lenOrRc : Int) : (s.recvCallback lenOrRc).stage = s.stage := by
  rcases recvCallback_cases (s := s) lenOrRc with heq | ⟨-, heq⟩ <;> rw [heq]

theorem initState_recvCallback (lenOrRc : Int) : (s.recvCallback lenOrRc).initState = s.initState ∨
    (s.callbackActive = true ∧ (s.recvCallback lenOrRc).initState = .done) := by
  unfold recvCallback
  split_ifs with _ _ _ hactive
  · exact .inl rfl
  · exact .inl rfl
  · simp only [declareCallback]
    split_ifs
    · exact .inl rfl
    · exact .inl rfl
    · exact .inr ⟨hactive, rfl⟩
  · exact .inl rfl
  · exact .inl rfl

/-- The module has declared itself, and does not have the answer yet or does not
wait for it any more. -/
def AfterDeclaration (s : Initialization) : Prop :=
  s.stage = .sending ∨ s.stage = .awaiting ∨ s.stage = .backoff true

/-- The callback of an answer is set only after a declaration, and an answer that
ends the wait takes it away. -/
structure CallbackPlaced (s : Initialization) : Prop where
  active : s.callbackActive = true → s.AfterDeclaration
  settling : s.stage = .settling → s.declareControllerComplete = false
  complete : s.stage = .sending ∨ s.stage = .awaiting → s.declareControllerComplete = true →
    s.callbackActive = false

theorem CallbackPlaced.start (h : s.AtStart) : CallbackPlaced s where
  active hactive := by simp [h.callback] at hactive
  settling hs := by simp [h.stage] at hs
  complete hs := by simp [h.stage] at hs

theorem CallbackPlaced.inactive (h : CallbackPlaced s) (hstage : ¬ s.AfterDeclaration) :
    s.callbackActive = false := by
  by_contra hactive
  exact hstage (h.active (by simpa using hactive))

theorem CallbackPlaced.of_inactive (h : s.callbackActive = false) (hstage : s.stage ≠ .settling) :
    CallbackPlaced s where
  active hactive := by simp [h] at hactive
  settling hs := absurd hs hstage
  complete _ _ := h

theorem CallbackPlaced.of_loop {port : Port} (h : s.callbackActive = false) :
    CallbackPlaced (s.loop port).1 := by
  rcases loop_cases (s := s) port with ⟨-, heq | heq⟩ | ⟨-, heq⟩ | ⟨-, heq⟩ <;> rw [heq] <;>
    exact .of_inactive h (by simp)

theorem CallbackPlaced.recvCallback (h : CallbackPlaced s) (lenOrRc : Int) :
    CallbackPlaced (s.recvCallback lenOrRc) := by
  rcases recvCallback_cases (s := s) lenOrRc with heq | ⟨hactive, heq⟩
  · rwa [heq]
  · rw [heq]
    refine ⟨by simp, fun hs => ?_, fun _ _ => rfl⟩
    have hplace := h.active hactive
    simp [AfterDeclaration, show s.stage = .settling from hs] at hplace

theorem CallbackPlaced.timeout (h : CallbackPlaced s) {r : Initialization × List Action}
    (hstep : s.timeout = some r) : CallbackPlaced r.1 := by
  unfold Initialization.timeout at hstep
  split at hstep
  · next hstage =>
    split_ifs at hstep
    cases hstep
    exact .of_inactive (h.inactive (by simp [AfterDeclaration, hstage])) (by simp)
  · split_ifs at hstep
    cases hstep
    exact ⟨fun _ => .inr (.inr rfl), by simp, fun hs => by simp at hs⟩
  · cases hstep

theorem CallbackPlaced.resume (h : CallbackPlaced s) {port : Port} {r : Initialization × List Action}
    (hstep : s.resume port = some r) : CallbackPlaced r.1 := by
  unfold Initialization.resume at hstep
  split at hstep
  · next hstage =>
    cases hstep
    exact .of_loop (h.inactive (by simp [AfterDeclaration, hstage]))
  · next hstage =>
    split_ifs at hstep
    cases hstep
    exact .of_loop (h.inactive (by simp [AfterDeclaration, hstage]))
  · next declared hstage =>
    cases hstep
    cases declared with
    | true => exact .of_loop rfl
    | false => exact .of_loop (h.inactive (by simp [AfterDeclaration, hstage]))
  · next hstage =>
    cases hstep
    have hinactive := h.inactive (by simp [AfterDeclaration, hstage])
    unfold check
    split_ifs
    · exact .of_loop hinactive
    · exact ⟨fun hactive => by simp [hinactive] at hactive, fun _ => rfl, fun _ _ => hinactive⟩
  · next hstage =>
    cases hstep
    have hcomplete := h.settling hstage
    refine ⟨fun _ => .inl rfl, by simp [declareController], fun _ hc => ?_⟩
    simp [declareController, hcomplete] at hc
  · next hstage =>
    cases hstep
    dsimp only
    split_ifs
    · exact ⟨fun _ => .inr (.inl rfl), by simp, fun _ => h.complete (.inl hstage)⟩
    · exact ⟨fun _ => .inr (.inr rfl), by simp, fun hs => by simp at hs⟩
  · next hstage =>
    split_ifs at hstep with hcomplete
    cases hstep
    have hinactive := h.complete (.inr hstage) hcomplete
    simp only [takeAddress]
    split_ifs
    · exact .of_inactive hinactive (by simp)
    · exact .of_inactive hinactive (by simp)
    · exact .of_loop hinactive
    · exact .of_loop hinactive
  · next hstage =>
    cases hstep
    exact .of_loop (h.inactive (by simp [AfterDeclaration, hstage]))
  · cases hstep

theorem CallbackPlaced.step (h : CallbackPlaced s) {e : Event} {r : Initialization × List Action}
    (hstep : s.step e = some r) : CallbackPlaced r.1 := by
  cases e with
  | receive call =>
    obtain rfl := step_receive hstep
    unfold Initialization.receive
    cases call.frame with
    | none => exact h.recvCallback _
    | some frame =>
      have hreceived : CallbackPlaced { s with incoming := frame, sender := call.senderAddress } := { h with }
      exact hreceived.recvCallback _
  | isolation =>
    obtain rfl := step_isolation hstep
    simp only [isolationCallback]
    split_ifs <;> exact { h with }
  | lostIsolation =>
    obtain rfl := step_lostIsolation hstep
    simp only [lostIsolationCallback]
    split_ifs <;> exact { h with }
  | timeout => exact h.timeout hstep
  | resume port => exact h.resume hstep

end

/-! ## A module that starts -/

def sampleStart : Initialization where
  initState := .requestIsolation
  requestIsolationComplete := false
  declareControllerComplete := false
  isIsolated := false
  callbackActive := false
  incoming := ⟨notificationFrame, 0, 0, 0, fun _ => 0⟩
  sender := 0
  moduleInfo := Controller.zeroModuleInfo
  stage := .looping

theorem atStart_sampleStart : sampleStart.AtStart := ⟨rfl, rfl, rfl, rfl⟩

/-- The port does all that it is asked, and MOD_IN is low. -/
def samplePort : Port := ⟨true, false, true, true⟩

end Initialization

end Signpost
