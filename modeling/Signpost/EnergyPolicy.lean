/-
The energy policy of the controller (`signpost_energy_policy.c`): accounts of
energy, fed from what the battery gains, debited by the coulomb counters and by
reports of modules about others.

Energies are in uWh and stay within an `int`. Fractions of an energy are taken exactly,
which is what the doubles give, so `BATTERY_CAPACITY` is 96459000, and nothing negative
is rounded. Times are computed in doubles, which round: a number of milliseconds can come
out one too small. Where a result is about the formula alone, the arithmetic is exact.
-/
import Signpost.Controller
import Signpost.Lib.Deal
import Signpost.Lib.Floats

namespace Signpost

open Lib

/-- `signpost_energy_remaining_t` -/
structure EnergyRemaining where
  controller : Int
  modules : Fin 8 → Int

/-- `signpost_energy_used_t` and the structures like it. -/
structure Figures (α : Type) where
  controller : α
  linux : α
  modules : Fin 8 → α

structure EnergyPolicy where
  energyRemaining : EnergyRemaining
  energyUsed : Figures Int
  energyAverage : Figures Int
  virtualEnergyAverage : Figures Int
  timeSinceReset : Figures UInt32
  energyResetStartTime : Figures UInt32
  batteryLastEnergyRemaining : Int
  batteryEnergyRemaining : Int
  lastEnergyUpdateTime : UInt32

/-- How times are computed: in doubles, as the processor does, or exactly. -/
inductive Arithmetic
  | double
  | exact
  deriving DecidableEq

/-- What is computed for a number. -/
def Arithmetic.round : Arithmetic → Rat → Rat
  | .double, x => Floats.roundTo 53 x
  | .exact, x => x

/-- What a call reads from outside: the coulomb counters, the battery and the
alarm, which do not change while it runs. A reading of the battery that fails is
negative. With them comes the arithmetic of the processor. -/
structure Readings where
  controller : Int
  linux : Int
  modules : Fin 8 → Int
  battery : Int
  alarm : UInt32
  alarmFrequency : Nat
  arithmetic : Arithmetic

/-- `signpost_energy_report_module_t` -/
structure ReportEntry where
  applicationId : UInt16
  energyUsed : UInt32
  deriving DecidableEq

namespace EnergyPolicy

open Controller

def batteryCapacity : Int := 96459000

def maxControllerEnergyRemaining : Int := 38583600

def maxModuleEnergyRemaining : Int := 9645900

def debugBackplaneBatteryStart : Int := 44400000

/-- The slots that the policy keeps accounts for, which are all but 3 and 4. -/
def metered : List (Fin 8) := [0, 1, 2, 5, 6, 7]

instance : DecidablePred (· ∈ metered) := fun m => inferInstanceAs (Decidable (m ∈ metered))

/-- All variables are zero before the first `init`. -/
def boot : EnergyPolicy where
  energyRemaining := ⟨0, fun _ => 0⟩
  energyUsed := ⟨0, 0, fun _ => 0⟩
  energyAverage := ⟨0, 0, fun _ => 0⟩
  virtualEnergyAverage := ⟨0, 0, fun _ => 0⟩
  timeSinceReset := ⟨0, 0, fun _ => 0⟩
  energyResetStartTime := ⟨0, 0, fun _ => 0⟩
  batteryLastEnergyRemaining := 0
  batteryEnergyRemaining := 0
  lastEnergyUpdateTime := 0

/-! ## Times -/

/-- `(uint32_t)(((ticks*1.0)/alarm_freq)*1000)`, before it is cut to 32 bits. -/
def millis (a : Arithmetic) (ticks alarmFrequency : Nat) : Nat :=
  ⌊a.round (a.round (ticks / alarmFrequency) * 1000)⌋₊

/-- `calc_time_since_last_time_ms` -/
def timeSince (r : Readings) (last : UInt32) : UInt32 :=
  let ticks := if r.alarm < last then (0xffffffff - last) + r.alarm else r.alarm - last
  UInt32.ofNat (millis r.arithmetic ticks.toNat r.alarmFrequency)

section
variable (p : EnergyPolicy) (r : Readings)

def getTimeSinceControllerReset : UInt32 :=
  p.timeSinceReset.controller + timeSince r p.energyResetStartTime.controller

def getTimeSinceLinuxReset : UInt32 :=
  p.timeSinceReset.linux + timeSince r p.energyResetStartTime.linux

def getTimeSinceModuleReset (m : Fin 8) : UInt32 :=
  p.timeSinceReset.modules m + timeSince r (p.energyResetStartTime.modules m)

/-- `signpost_energy_policy_reset_and_update_energy_timers` -/
def resetAndUpdateTimers : EnergyPolicy :=
  { p with
    timeSinceReset :=
      ⟨p.getTimeSinceControllerReset r, p.getTimeSinceLinuxReset r, fun m => p.getTimeSinceModuleReset r m⟩
    energyResetStartTime := ⟨r.alarm, r.alarm, fun _ => r.alarm⟩ }

/-! ## Getters and resets -/

def getControllerEnergyRemaining : Int := p.energyRemaining.controller - r.controller

def getModuleEnergyRemaining (m : Fin 8) : Int := p.energyRemaining.modules m - r.modules m

/-- What is stored and what the counter reads, not below zero. -/
def usedWith (stored counter : Int) : Int :=
  if stored + counter < 0 then 0 else stored + counter

def getControllerEnergyUsed : Int := usedWith p.energyUsed.controller r.controller

def getLinuxEnergyUsed : Int := usedWith p.energyUsed.linux r.linux

def getModuleEnergyUsed (m : Fin 8) : Int := usedWith (p.energyUsed.modules m) (r.modules m)

def resetControllerEnergyUsed : EnergyPolicy :=
  { p with
    energyUsed := { p.energyUsed with controller := -r.controller }
    timeSinceReset := { p.timeSinceReset with controller := 0 }
    energyResetStartTime := { p.energyResetStartTime with controller := r.alarm } }

def resetLinuxEnergyUsed : EnergyPolicy :=
  { p with
    energyUsed := { p.energyUsed with linux := -r.linux }
    timeSinceReset := { p.timeSinceReset with linux := 0 }
    energyResetStartTime := { p.energyResetStartTime with linux := r.alarm } }

def resetModuleEnergyUsed (m : Fin 8) : EnergyPolicy :=
  { p with
    energyUsed :=
      { p.energyUsed with modules := Function.update p.energyUsed.modules m (-r.modules m) }
    timeSinceReset :=
      { p.timeSinceReset with modules := Function.update p.timeSinceReset.modules m 0 }
    energyResetStartTime :=
      { p.energyResetStartTime with
        modules := Function.update p.energyResetStartTime.modules m r.alarm } }

/-! ## Init -/

/-- The resets that `init` makes without saved data. -/
def resetAll : EnergyPolicy :=
  metered.foldl (fun p m => p.resetModuleEnergyUsed r m)
    ((p.resetControllerEnergyUsed r).resetLinuxEnergyUsed r)

/-- A share of the battery for the controller and for each module. -/
def allot (battery : Int) : EnergyRemaining where
  controller := battery * 4 / 10
  modules m := if m ∈ metered then battery / 10 else p.energyRemaining.modules m

/-- `signpost_energy_policy_init`. On a debug backplane there is no battery to
read, and saved data does not count. -/
def init (remaining : Option EnergyRemaining) (used : Option (Figures Int))
    (time : Option (Figures UInt32)) : EnergyPolicy :=
  let debug := r.battery < 0
  let battery := if debug then debugBackplaneBatteryStart else r.battery
  let p := { p with
    energyRemaining := if debug then p.allot battery else remaining.getD (p.allot battery) }
  let p := match used, time with
    | some used, some time =>
      if debug then p.resetAll r else { p with energyUsed := used, timeSinceReset := time }
    | _, _ => p.resetAll r
  { p with
    energyAverage := ⟨0, 0, fun _ => 0⟩
    virtualEnergyAverage := ⟨0, 0, fun _ => 0⟩
    batteryLastEnergyRemaining := battery
    batteryEnergyRemaining := battery
    lastEnergyUpdateTime := r.alarm }

/-! ## Update -/

/-- All that was used since the last update, as far as it is metered. -/
def totalEnergy : Int := r.linux + r.controller + Deal.total metered r.modules

/-- The battery's energy; without a reading it is what was used less. -/
def batteryNow : Int :=
  if r.battery < 0 then p.batteryLastEnergyRemaining - totalEnergy r else r.battery

def batteryUsed : Int := p.batteryLastEnergyRemaining - p.batteryNow r

/-- What linux uses is the controller's. -/
def debit : EnergyRemaining where
  controller := p.energyRemaining.controller - r.controller - r.linux
  modules m :=
    if m ∈ metered then p.energyRemaining.modules m - r.modules m else p.energyRemaining.modules m

/-- The controller's account with its part of a surplus. -/
def withSurplus (surplus : Int) (e : EnergyRemaining) : Int := e.controller + surplus * 4 / 10

def cutOff (controller : Int) : Int :=
  if maxControllerEnergyRemaining < controller then maxControllerEnergyRemaining else controller

/-- The part of a surplus for each module, where what the controller can not
take is divided among the six modules too. -/
def moduleSurplus (surplus : Int) (e : EnergyRemaining) : Int :=
  if maxControllerEnergyRemaining < withSurplus surplus e then
    surplus / 10 + (withSurplus surplus e - maxControllerEnergyRemaining) / 6
  else surplus / 10

/-- The rounds in which modules get their part. -/
def distribution (surplus : Int) (e : EnergyRemaining) : Deal.Dealt (Fin 8) :=
  Deal.rounds maxModuleEnergyRemaining 7 (moduleSurplus surplus e) metered e.modules

/-- The controller gets its part up to its cap, and what no module takes. -/
def distribute (surplus : Int) (e : EnergyRemaining) : EnergyRemaining where
  controller := cutOff (withSurplus surplus e) + (distribution surplus e).left
  modules := (distribution surplus e).accounts

/-- A surplus is distributed, and the controller bears a loss. -/
def settle (batteryUsed total : Int) (e : EnergyRemaining) : EnergyRemaining :=
  if batteryUsed < total then distribute (total - batteryUsed) e
  else { e with controller := e.controller - (batteryUsed - total) }

/-- `update_period_s`. What `calc_time_since_last_time_ms` returns is an `int`. -/
def updatePeriod : Int := (timeSince r p.lastEnergyUpdateTime).toInt32.toInt.tdiv 1000

/-- The averages of the period that ends: in an hour, as a whole number of periods. After
less than a second the code divides by zero, which gives 0 on the processor as it does
here. -/
def averages : Figures Int :=
  let periods := Int.tdiv 3600 (p.updatePeriod r)
  { controller := (p.virtualEnergyAverage.controller + r.controller) * periods
    linux := (p.virtualEnergyAverage.linux + r.linux) * periods
    modules := fun m =>
      if m ∈ metered then (p.virtualEnergyAverage.modules m + r.modules m) * periods
      else p.energyAverage.modules m }

/-- `signpost_energy_policy_update_energy`. The counters read zero after it. -/
def updateEnergy : EnergyPolicy :=
  let p' := p.resetAndUpdateTimers r
  { p' with
    energyAverage := p.averages r
    virtualEnergyAverage :=
      ⟨0, 0, fun m => if m ∈ metered then 0 else p.virtualEnergyAverage.modules m⟩
    energyUsed :=
      { controller := p.energyUsed.controller + r.controller
        linux := p.energyUsed.linux + r.linux
        modules := fun m =>
          if m ∈ metered then p.energyUsed.modules m + r.modules m else p.energyUsed.modules m }
    energyRemaining := settle (p.batteryUsed r) (totalEnergy r) (p.debit r)
    batteryLastEnergyRemaining := p.batteryNow r
    batteryEnergyRemaining := p.batteryNow r
    lastEnergyUpdateTime := r.alarm }

end

/-! ## Reports -/

/-- `signpost_api_appid_to_mod_num`: an application id is taken for an address. -/
def appidToModNum (moduleInfo : ModuleState) (appid : UInt16) : Option (Fin 8) :=
  addrToModNum moduleInfo appid.toUInt8

/-- A module's accounts get back an energy that was used for another. -/
def credit (p : EnergyPolicy) (m : Fin 8) (energy : Int) : EnergyPolicy :=
  { p with
    energyRemaining :=
      { p.energyRemaining with
        modules := Function.update p.energyRemaining.modules m (p.energyRemaining.modules m + energy) }
    energyUsed :=
      { p.energyUsed with
        modules := Function.update p.energyUsed.modules m (p.energyUsed.modules m - energy) }
    virtualEnergyAverage :=
      { p.virtualEnergyAverage with
        modules :=
          Function.update p.virtualEnergyAverage.modules m (p.virtualEnergyAverage.modules m - energy) } }

/-- An energy is charged to a module, where slot 3 is the controller. -/
def charge (p : EnergyPolicy) (m : Fin 8) (energy : Int) : EnergyPolicy :=
  if m = 3 then
    { p with
      energyRemaining :=
        { p.energyRemaining with controller := p.energyRemaining.controller - energy }
      energyUsed := { p.energyUsed with controller := p.energyUsed.controller + energy }
      virtualEnergyAverage :=
        { p.virtualEnergyAverage with controller := p.virtualEnergyAverage.controller + energy } }
  else p.credit m (-energy)

/-- The report of so much is not reasonable. -/
def Faulty (entry : ReportEntry) : Prop := 100000 < entry.energyUsed.toNat

instance : DecidablePred Faulty := fun entry => Nat.decLt 100000 entry.energyUsed.toNat

/-- One round of the loop over a report. A slot that is not found is no place in
a table: no step. -/
def reportEntry (moduleInfo : ModuleState) (source : Option (Fin 8)) (p : EnergyPolicy)
    (entry : ReportEntry) : Option EnergyPolicy :=
  if Faulty entry then some p
  else
    match appidToModNum moduleInfo entry.applicationId, source with
    | some m, some source => some ((p.charge m entry.energyUsed.toNat).credit source entry.energyUsed.toNat)
    | _, _ => none

/-- `signpost_energy_policy_update_energy_from_report` -/
def updateEnergyFromReport (moduleInfo : ModuleState) (source : Option (Fin 8)) :
    List ReportEntry → EnergyPolicy → Option EnergyPolicy
  | [], p => some p
  | entry :: rest, p =>
    (reportEntry moduleInfo source p entry).bind (updateEnergyFromReport moduleInfo source rest)

end EnergyPolicy

end Signpost
