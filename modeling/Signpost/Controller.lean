/-
The controller (`signpost_controller.c`, with the switches and request lines of
`controller.c`), from the end of `signpost_controller_init` on.

The callbacks run to their end but for `delay_ms`: there other callbacks run,
which end first, also when they wait themselves. What is waiting is a stack.
Slots 3 and 4 have no switch, so theirs is never on. Remaining energies and levels of
lines are read from outside, at every event anew. Two writes outside `module_state` are
taken to reach nothing that is here: a success is counted at index 0xff, far behind the
table, and a watchdog message of a module that is not registered at index -1, before it.
-/
import Mathlib.Algebra.GroupWithZero.Nat
import Mathlib.Data.Fin.VecNotation
import Signpost.Lib.Run
import Signpost.Api
import Signpost.Modules

namespace Signpost

open Lib

namespace Controller

/-! ## State -/

/-- By which slots are written as numbers. -/
scoped instance neZero_slots : NeZero 8 := ⟨by decide⟩

/-- `signpost_controller_module_isolation_e` -/
inductive IsolationState
  | enabled
  | disabledIsolation
  | disabledEnergy
  | disabledDutyCycle
  | disabledOff
  deriving DecidableEq

/-- `signpost_controller_module_state_t` -/
structure Entry where
  isolationState : IsolationState
  watchdogSubscribed : UInt8
  watchdogTickled : UInt8
  moduleInitFailures : UInt8

/-- `MODOUT_pin_to_mod_name`, of a place in `MOD_OUTS`. -/
def slotOf : Fin 7 → Fin 8 := ![0, 1, 2, 4, 5, 6, 7]

/-- A module that has a port in `module_to_async_port_num`. -/
def HasSwitch (m : Fin 8) : Prop := m ≠ 3 ∧ m ≠ 4

instance : DecidablePred HasSwitch := fun _ => instDecidableAnd

/-- The isolation bookkeeping. Pins are places in `MOD_OUTS` and `MOD_INS`, none
of them is -1; `modIn` is what the pins of `MOD_INS` are set to. -/
structure Isolation where
  modIsolatedOut : Option (Fin 7)
  modIsolatedIn : Option (Fin 7)
  lastModIsolatedOut : Option (Fin 7)
  isolatedCount : Nat
  lastModOutState : Fin 7 → Bool
  checkingInit : Bool
  modIn : Fin 7 → Bool

/-- A callback that is inside `delay_ms`. -/
inductive Stage
  | granting
  | powerCycling
  | watchdogReset (j : Fin 8) (rest : List (Fin 8))
  | downlinkReset (m : Fin 8)

end Controller

open Controller in
structure Controller where
  moduleState : Fin 8 → Entry
  isolation : Isolation
  power : Fin 8 → Bool
  i2c : Fin 8 → Bool
  /-- The modules of the timers that `energy_api_callback` has started. -/
  dutyCycleTimers : List (Fin 8)
  hardReset : Bool
  moduleInfo : ModuleState
  stack : List Stage

namespace Controller

/-- What callbacks do, as far as it is spoken of. -/
inductive Action
  /-- A module is granted isolation, and the grant ends. -/
  | granted (i : Fin 7)
  | released
  | succeeded (m : Fin 8)
  | timedOut (m : Fin 8)
  | powerCycled (m : Fin 8)
  /-- A request line that was low is read high. -/
  | observedHigh (i : Fin 7)
  /-- A check ends that was not skipped. -/
  | checked
  /-- A module is set to `ModuleDisabledEnergy`, its remaining energy being this. -/
  | cutOff (m : Fin 8) (remaining : Int)
  | turnedOff (m : Fin 8)
  | turnedOn (m : Fin 8)
  deriving DecidableEq

/-! ## Switches and flags -/

section
variable (c : Controller) (m : Fin 8)

def isolationState : IsolationState := (c.moduleState m).isolationState

def setState (s : IsolationState) : Controller :=
  { c with moduleState := Function.update c.moduleState m { c.moduleState m with isolationState := s } }

def setFailures (n : UInt8) : Controller :=
  { c with moduleState := Function.update c.moduleState m { c.moduleState m with moduleInitFailures := n } }

def setTickled (n : UInt8) : Controller :=
  { c with moduleState := Function.update c.moduleState m { c.moduleState m with watchdogTickled := n } }

def setSubscribed (n : UInt8) : Controller :=
  { c with moduleState := Function.update c.moduleState m { c.moduleState m with watchdogSubscribed := n } }

def enablePower : Controller :=
  { c with power := Function.update c.power m (decide (HasSwitch m) || c.power m) }

def disablePower : Controller :=
  { c with power := Function.update c.power m false }

def enableI2c : Controller :=
  { c with i2c := Function.update c.i2c m (decide (HasSwitch m) || c.i2c m) }

def disableI2c : Controller :=
  { c with i2c := Function.update c.i2c m false }

/-- `controller_all_modules_disable_i2c` -/
def disableAllI2c : Controller :=
  { c with i2c := fun _ => false }

/-- `enable_all_enabled_i2c` -/
def enableAllEnabledI2c : Controller :=
  { c with i2c := fun m => (HasSwitch m ∧ c.isolationState m = .enabled) || c.i2c m }

/-- `delay_ms`: the callback waits. -/
def wait (stage : Stage) : Controller := { c with stack := stage :: c.stack }

/-- The state after `signpost_controller_init`, for what is known of the modules. -/
def init (moduleInfo : ModuleState) : Controller where
  moduleState _ := ⟨.enabled, 0, 0, 0⟩
  isolation := ⟨none, none, none, 0, fun _ => true, false, fun _ => true⟩
  power m := HasSwitch m
  i2c m := HasSwitch m
  dutyCycleTimers := []
  hardReset := false
  moduleInfo := moduleInfo
  stack := []

end

/-! ## Isolation -/

section
variable (c : Controller)

def setIsolation (iso : Isolation) : Controller := { c with isolation := iso }

/-- Line `i` asks for isolation, `last` being `last_mod_isolated_out`. -/
def Requests (lines : Fin 7 → Bool) (last : Option (Fin 7)) (i : Fin 7) : Prop :=
  lines i = false ∧ last ≠ some i ∧ c.isolation.lastModOutState i = true ∧
    c.isolationState (slotOf i) = .enabled

instance (lines : Fin 7 → Bool) (last : Option (Fin 7)) : DecidablePred (c.Requests lines last) :=
  fun _ => instDecidableAnd

/-- The loop over the lines: the module that is granted isolation, if any, and
`last_mod_isolated_out` then. -/
def scan (lines : Fin 7 → Bool) : List (Fin 7) → Option (Fin 7) → Option (Fin 7) × Option (Fin 7)
  | [], last => (none, last)
  | i :: rest, last => if c.Requests lines last i then (some i, some i) else scan lines rest none

/-- A private channel for the module at a line. -/
def grant (i : Fin 7) : Controller :=
  let iso : Isolation :=
    { c.isolation with
      modIsolatedOut := some i
      modIsolatedIn := some i
      lastModIsolatedOut := some i
      lastModOutState := Function.update c.isolation.lastModOutState i false
      isolatedCount := 0
      modIn := Function.update c.isolation.modIn i false }
  ((c.setIsolation iso).disableAllI2c.enableI2c (slotOf i)).wait .granting

/-- `gpio_set(mod_isolated_in)` -/
def setIn : Controller :=
  c.setIsolation
    { c.isolation with
      modIn := match c.isolation.modIsolatedIn with
        | some i => Function.update c.isolation.modIn i true
        | none => c.isolation.modIn }

def release : Controller :=
  (c.setIsolation { c.isolation with modIsolatedOut := none, modIsolatedIn := none }).enableAllEnabledI2c

/-- The lines that the loop at the end of a check finds high again. -/
def highs (later : Fin 7 → Bool) : List Action :=
  ((List.finRange 7).filter fun i => !c.isolation.lastModOutState i && later i).map .observedHigh

/-- The loop at the end of a check: a module that pulls its line up gets another
chance. -/
def endCheck (later : Fin 7 → Bool) : Controller :=
  c.setIsolation
    { c.isolation with
      lastModOutState := fun i => c.isolation.lastModOutState i || later i
      checkingInit := false }

def finishCheck (later : Fin 7 → Bool) : Controller × List Action :=
  (c.endCheck later, c.highs later ++ [.checked])

/-- More actions before those of a step. -/
def after (os : List Action) (r : Controller × List Action) : Controller × List Action := (r.1, os ++ r.2)

/-- `check_module_init_cb`, when no check is going on; `later` are the levels its
last loop reads. When isolation has ended, `module_init_failures` is set to 0 at
a place that `mod_isolated_out` names no more, outside `module_state`. -/
def runCheck (lines later : Fin 7 → Bool) : Controller × List Action :=
  match c.isolation.modIsolatedOut with
  | none =>
    match c.scan lines (List.finRange 7) c.isolation.lastModIsolatedOut with
    | (some i, _) => (c.grant i, [.granted i])
    | (none, last) => (c.setIsolation { c.isolation with lastModIsolatedOut := last }).finishCheck later
  | some i =>
    let m := slotOf i
    if lines i then after [.released, .succeeded m] (c.setIn.release.finishCheck later)
    else if 10 < c.isolation.isolatedCount then
      let n := (c.moduleState m).moduleInitFailures + 1
      if 4 < n then (((c.setIn.setFailures m n).disablePower m).wait .powerCycling, [.timedOut m])
      else after [.timedOut m, .released] ((c.setIn.setFailures m n).release.finishCheck later)
    else (c.setIsolation { c.isolation with isolatedCount := c.isolation.isolatedCount + 1 }).finishCheck later

def beginCheck : Controller := c.setIsolation { c.isolation with checkingInit := true }

/-- `check_module_init_cb` -/
def checkModuleInit (lines later : Fin 7 → Bool) : Controller × List Action :=
  if c.isolation.checkingInit then (c, []) else c.beginCheck.runCheck lines later

/-- The check after the wait in a time-out. -/
def powerCycle (i : Fin 7) (later : Fin 7 → Bool) : Controller × List Action :=
  let m := slotOf i
  after [.powerCycled m, .released] (((c.enablePower m).setFailures m 0).release.finishCheck later)

/-! ## Energy -/

/-- `duty_cycle_timer_cb` -/
def dutyCycleTimer (m : Fin 8) (remaining : Int) : Controller × List Action :=
  if 0 < remaining ∧ c.isolationState m = .disabledDutyCycle then
    (((c.setState m .enabled).enablePower m).enableI2c m, [])
  else if c.isolationState m = .disabledOff then (c, [])
  else (c.setState m .disabledEnergy, [.cutOff m remaining])

/-- `energy_api_callback` with an `EnergyDutyCycleMessage`. -/
def dutyCycleRequest (m : Fin 8) : Controller :=
  let c' := { c with dutyCycleTimers := m :: c.dutyCycleTimers }
  ((c'.setState m .disabledDutyCycle).disablePower m).disableI2c m

def Exhausted (remaining : Fin 8 → Int) (m : Fin 8) : Prop := HasSwitch m ∧ remaining m ≤ 0

instance (remaining : Fin 8 → Int) : DecidablePred (Exhausted remaining) := fun _ => instDecidableAnd

/-- A module that is on, or that has energy again. -/
def Supplied (remaining : Fin 8 → Int) (m : Fin 8) : Prop :=
  HasSwitch m ∧ 0 < remaining m ∧ (c.isolationState m = .enabled ∨ c.isolationState m = .disabledEnergy)

instance (remaining : Fin 8 → Int) : DecidablePred (c.Supplied remaining) := fun _ => instDecidableAnd

/-- `update_energy_policy_cb`, each of its modules by itself. -/
def updateEnergyPolicy (remaining : Fin 8 → Int) : Controller × List Action :=
  ({ c with
      moduleState := fun m =>
        if Exhausted remaining m then { c.moduleState m with isolationState := .disabledEnergy }
        else if c.Supplied remaining m then { c.moduleState m with isolationState := .enabled }
        else c.moduleState m
      power := fun m =>
        if Exhausted remaining m then false else if c.Supplied remaining m then true else c.power m
      i2c := fun m =>
        if Exhausted remaining m then false else if c.Supplied remaining m then true else c.i2c m },
    ((List.finRange 8).filter fun m => Exhausted remaining m).map fun m => .cutOff m (remaining m))

/-! ## Watchdogs -/

/-- The loop of `check_watchdogs_cb` from these modules on. It waits at the first
that it resets. -/
def checkWatchdogs : List (Fin 8) → Controller → Controller
  | [], c => c
  | j :: rest, c =>
    if (c.moduleState j).watchdogSubscribed ≠ 0 then
      if (c.moduleState j).watchdogTickled = 0 then (c.disablePower j).wait (.watchdogReset j rest)
      else checkWatchdogs rest (c.setTickled j 0)
    else checkWatchdogs rest c

/-- `watchdog_api_callback`, `replied` being whether the reply was sent. The flags
of an address that is not registered are outside `module_state`. -/
def watchdogMessage (moduleNum : Option (Fin 8)) (messageType : UInt8) (replied : Bool) : Controller :=
  match moduleNum with
  | none => c
  | some m =>
    if messageType = watchdogStartMessage ∧ replied then (c.setSubscribed m 1).setTickled m 1
    else if messageType = watchdogTickleMessage ∧ replied then c.setTickled m 1
    else c

end

/-! ## Downlink -/

/-- `strncmp(a, b, n) == 0`, of strings that are followed by a zero. -/
def strncmpEq : Nat → Bytes → Bytes → Bool
  | 0, _, _ => true
  | n + 1, a, b => a.headD 0 = b.headD 0 ∧ (a.headD 0 = 0 ∨ strncmpEq n a.tail b.tail)

inductive DownlinkCommand
  | on
  | off
  | reset
  deriving DecidableEq

def ofChars (s : String) : Bytes := s.toList.map fun ch => UInt8.ofNat ch.toNat

/-- The command that the data is the start of. -/
def downlinkCommand (data : Bytes) : Option DownlinkCommand :=
  if strncmpEq data.length (ofChars "on") data then some .on
  else if strncmpEq data.length (ofChars "off") data then some .off
  else if strncmpEq data.length (ofChars "reset") data then some .reset
  else none

/-- `signpost_api_module_name_to_mod_num` -/
def moduleNameToModNum (moduleInfo : ModuleState) (name : Bytes) : Option (Fin 8) :=
  (List.finRange 8).find? fun i => strncmpEq 16 name (moduleInfo.names i).val

/-- `signpost_api_addr_to_mod_num` -/
def addrToModNum (moduleInfo : ModuleState) (addr : UInt8) : Option (Fin 8) :=
  (List.finRange 8).find? fun i => addr = moduleInfo.i2cAddressMods i

section
variable (c : Controller)

def moduleCommand (m : Fin 8) (remaining : Int) : DownlinkCommand → Controller × List Action
  | .on =>
    if 0 < remaining then (((c.setState m .enabled).enablePower m).enableI2c m, [.turnedOn m])
    else (c.setState m .disabledEnergy, [.turnedOn m, .cutOff m remaining])
  | .off => (((c.setState m .disabledOff).disablePower m).disableI2c m, [.turnedOff m])
  | .reset =>
    if 0 < remaining ∧ c.isolationState m = .enabled then ((c.disablePower m).wait (.downlinkReset m), [])
    else (c, [])

/-- The topic is for the whole signpost. -/
def forSignpost (topic : Bytes) : Bool := strncmpEq 16 (ofChars "signpost") topic

/-- The module that a command is for. -/
def downlinkModule (topic : Bytes) : Option (Fin 8) :=
  if forSignpost topic then none else moduleNameToModNum c.moduleInfo topic

/-- `downlink_cb` -/
def downlink (topic data : Bytes) (remaining : Int) : Controller × List Action :=
  match downlinkCommand data with
  | none => (c, [])
  | some command =>
    match c.downlinkModule topic with
    | some m => c.moduleCommand m remaining command
    | none => if forSignpost topic ∧ command = .reset then ({ c with hardReset := true }, []) else (c, [])

/-! ## Messages -/

/-- The name in a declaration: what `strncpy` leaves of it in 16 bytes. -/
def declaredName (message : Bytes) : Name :=
  ⟨(message.takeWhile (· ≠ 0) ++ List.replicate 16 0).take 16, by simp⟩

/-- `initialization_api_callback` with an `InitializationDeclare`: the module that
is isolated is registered. A message that is longer than the buffer its name is
copied to has no step. -/
def declare (source : UInt8) (message : Bytes) : Option Controller :=
  match c.isolation.modIsolatedOut with
  | none => some c
  | some i =>
    let reqModNum := slotOf i
    let newAddress := if source = 0 then UInt8.ofNat (0x10 + reqModNum) else source
    if message.length ≤ 17 then
      some { c with
        moduleInfo :=
          { c.moduleInfo with
            i2cAddressMods := Function.update c.moduleInfo.i2cAddressMods reqModNum newAddress
            names := Function.update c.moduleInfo.names reqModNum (declaredName message)
            haskey := Function.update c.moduleInfo.haskey reqModNum false } }
    else none

/-- A notification or a command that is received. -/
structure ApiMessage where
  sourceAddress : UInt8
  frameType : UInt8
  apiType : UInt8
  messageType : UInt8
  message : Bytes

/-- The module that asks to be switched off for some time. -/
def DutyCycleRequest (msg : ApiMessage) : Prop :=
  msg.apiType = energyApiType ∧ msg.frameType = notificationFrame ∧ msg.messageType = 3

instance : DecidablePred DutyCycleRequest := fun _ => instDecidableAnd

/-- The handler of a message. The other ones change nothing that is here. A
request to be switched off by a module that is outside the table of ports has
no step. -/
def receive (msg : ApiMessage) (replied : Bool) : Option Controller :=
  if msg.apiType = initializationApiType ∧ msg.frameType = commandFrame ∧ msg.messageType = 0 then
    c.declare msg.sourceAddress msg.message
  else if DutyCycleRequest msg then
    (addrToModNum c.moduleInfo msg.sourceAddress).map c.dutyCycleRequest
  else if msg.apiType = watchdogApiType then
    some (c.watchdogMessage (addrToModNum c.moduleInfo msg.sourceAddress) msg.messageType replied)
  else some c

/-! ## Steps -/

/-- What the controller runs: a handler, a timer's callback, or the rest of the
callback that began to wait last. -/
inductive Event
  | message (msg : ApiMessage) (replied : Bool)
  | downlink (topic data : Bytes) (remaining : Int)
  | checkModuleInit (lines later : Fin 7 → Bool)
  | dutyCycleTimer (timer : Nat) (remaining : Int)
  | checkWatchdogs
  | updateEnergyPolicy (remaining : Fin 8 → Int)
  | resume (later : Fin 7 → Bool)

def proceed (later : Fin 7 → Bool) : Stage → Option (Controller × List Action)
  | .granting => some (c.finishCheck later)
  | .powerCycling => c.isolation.modIsolatedOut.map fun i => c.powerCycle i later
  | .watchdogReset j rest => some (checkWatchdogs rest (c.enablePower j), [])
  | .downlinkReset m => some (c.enablePower m, [])

def step : Event → Option (Controller × List Action)
  | .message msg replied => (c.receive msg replied).map (·, [])
  | .downlink topic data remaining => some (c.downlink topic data remaining)
  | .checkModuleInit lines later => some (c.checkModuleInit lines later)
  | .dutyCycleTimer timer remaining =>
    c.dutyCycleTimers[timer]?.map fun m =>
      dutyCycleTimer { c with dutyCycleTimers := c.dutyCycleTimers.eraseIdx timer } m remaining
  | .checkWatchdogs => some (checkWatchdogs (List.finRange 8) c, [])
  | .updateEnergyPolicy remaining => some (c.updateEnergyPolicy remaining)
  | .resume later =>
    match c.stack with
    | [] => none
    | stage :: stack => proceed { c with stack := stack } later stage

end

end Controller

end Signpost
