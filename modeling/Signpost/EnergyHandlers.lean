/-
The handlers of energy and watchdog messages on the controller
(`energy_api_callback` and `watchdog_api_callback`), and what they do with a
message or a report whose sender or subject is not registered.

The number of a slot that is not found is -1, or 255 in a byte. Where it is used
as a place in a table, a handler has no step. Memory for a report is found.
-/
import Signpost.EnergyPolicy
import Signpost.Registration

namespace Signpost

open Lib

structure EnergyController where
  controller : Controller
  policy : EnergyPolicy

namespace EnergyController

open Controller EnergyPolicy

def portEnosupport : Int := -10

def portEi2cWrite : Int := -100

def energyDutyCycleMessage : UInt8 := 3

/-- `signpost_energy_information_t` -/
structure EnergyInformation where
  energyUsedSinceReset : UInt32
  energyLimit : UInt32
  timeSinceReset : UInt32
  energyLimitWarningThreshold : Bool
  energyLimitCriticalThreshold : Bool
  deriving DecidableEq

/-- What is sent to the sender of a message. -/
inductive Reply
  | error (code : Int)
  | energyQuery (info : EnergyInformation)
  | energyReport (code : Int)
  | energyReset (code : Int)
  | watchdog
  deriving DecidableEq

/-- The answer to a query. The limit is compared as an unsigned number. -/
def energyInformation (p : EnergyPolicy) (r : Readings) (m : Fin 8) : EnergyInformation :=
  let limit := UInt32.ofInt (p.getModuleEnergyRemaining r m)
  { energyLimit := limit
    energyUsedSinceReset := UInt32.ofInt (p.getModuleEnergyUsed r m)
    timeSinceReset := UInt32.ofInt ((p.getTimeSinceModuleReset r m).toInt32.toInt.tdiv 1000)
    energyLimitWarningThreshold := limit < 1000000
    energyLimitCriticalThreshold := limit < 200000 }

/-- The entry of a report at a place in the message buffer. -/
def entryAt (message : Mem UInt8) (j : Nat) : ReportEntry :=
  ⟨ofLe16 (message (1 + 6 * j)) (message (2 + 6 * j)), u32 message (3 + 6 * j)⟩

/-- The report in the message buffer. Its number of entries is not compared with
the length of the message. -/
def entriesOf (message : Mem UInt8) : List ReportEntry := (List.range (message 0).toNat).map (entryAt message)

/-- The head of a message that is received. -/
structure Head where
  sourceAddress : UInt8
  frameType : UInt8
  apiType : UInt8
  messageType : UInt8

section
variable (s : EnergyController) (head : Head) (message : Mem UInt8) (r : Readings) (replied : Bool)

def sender : Option (Fin 8) := addrToModNum s.controller.moduleInfo head.sourceAddress

/-- `energy_api_callback` with a command, `replied` being whether the answer to a
query was sent. -/
def energyCommand : Option (EnergyController × List Reply) :=
  if head.messageType = energyQueryMessage then
    (s.sender head).map fun m =>
      (s, .energyQuery (energyInformation s.policy r m) :: if replied then [] else [.error portEi2cWrite])
  else if head.messageType = energyReportModuleConsumptionMessage then
    (updateEnergyFromReport s.controller.moduleInfo (s.sender head) (entriesOf message) s.policy).map fun p =>
      ({ s with policy := p }, [.energyReport 1])
  else if head.messageType = energyResetMessage then
    (s.sender head).map fun m => ({ s with policy := s.policy.resetModuleEnergyUsed r m }, [.energyReset 1])
  else some (s, [.error portEnosupport])

/-- `energy_api_callback` -/
def energyApiCallback : Option (EnergyController × List Reply) :=
  if head.apiType ≠ energyApiType then some (s, [.error portEinval])
  else if head.frameType = notificationFrame then
    if head.messageType = energyDutyCycleMessage then
      (s.sender head).map fun m => ({ s with controller := s.controller.dutyCycleRequest m }, [])
    else some (s, [])
  else if head.frameType = commandFrame then s.energyCommand head message r replied
  else some (s, [])

/-- `watchdog_api_callback`, which looks up the sender when the reply was sent. -/
def watchdogApiCallback : Option (EnergyController × List Reply) :=
  if head.messageType = watchdogStartMessage ∨ head.messageType = watchdogTickleMessage then
    if replied then
      (s.sender head).map fun m =>
        ({ s with controller := s.controller.watchdogMessage (some m) head.messageType replied }, [.watchdog])
    else some (s, [.watchdog])
  else some (s, [])

end

/-! ## Senders that are not known -/

/-- The handlers leave what they work on as it is. -/
def Harmless (s : EnergyController) (result : Option (EnergyController × List Reply)) : Prop :=
  ∃ replies, result = some (s, replies)

/-- An energy message that uses the slot of its sender. A report uses it for each
entry that is not dropped. -/
def UsesSender (head : Head) (message : Mem UInt8) : Prop :=
  head.apiType = energyApiType ∧
    ((head.frameType = notificationFrame ∧ head.messageType = energyDutyCycleMessage) ∨
      (head.frameType = commandFrame ∧
        (head.messageType = energyQueryMessage ∨ head.messageType = energyResetMessage ∨
          (head.messageType = energyReportModuleConsumptionMessage ∧
            ∃ entry ∈ entriesOf message, ¬ Faulty entry))))

/-- A watchdog message that uses the slot of its sender. -/
def TracksSender (head : Head) (replied : Bool) : Prop :=
  (head.messageType = watchdogStartMessage ∨ head.messageType = watchdogTickleMessage) ∧ replied = true

theorem updateEnergyFromReport_unknown (moduleInfo : ModuleState) (entries : List ReportEntry) (p : EnergyPolicy) :
    updateEnergyFromReport moduleInfo none entries p =
      if ∃ entry ∈ entries, ¬ Faulty entry then none else some p := by
  induction entries with
  | nil => simp [updateEnergyFromReport]
  | cons entry rest ih =>
    unfold updateEnergyFromReport reportEntry
    by_cases hfaulty : Faulty entry
    · rw [if_pos hfaulty, Option.bind_some, ih]
      simp [hfaulty]
    · rw [if_neg hfaulty, if_pos ⟨entry, List.mem_cons_self, hfaulty⟩]
      cases appidToModNum moduleInfo entry.applicationId <;> rfl

section
variable {s : EnergyController} {head : Head} {message : Mem UInt8} {r : Readings} {replied : Bool}

theorem harmless_none : ¬ Harmless s none := fun ⟨_, h⟩ => nomatch h

theorem harmless_some {replies : List Reply} : Harmless s (some (s, replies)) := ⟨replies, rfl⟩

theorem harmless_energyCommand (hsender : s.sender head = none) :
    Harmless s (s.energyCommand head message r replied) ↔
      ¬(head.messageType = energyQueryMessage ∨ head.messageType = energyResetMessage ∨
        (head.messageType = energyReportModuleConsumptionMessage ∧
          ∃ entry ∈ entriesOf message, ¬ Faulty entry)) := by
  simp only [energyCommand, hsender, Option.map_none, updateEnergyFromReport_unknown]
  split_ifs with hquery hreport hfaulty hreset
  · exact iff_of_false harmless_none fun h => h (.inl hquery)
  · exact iff_of_false harmless_none fun h => h (.inr (.inr ⟨hreport, hfaulty⟩))
  · refine iff_of_true ⟨_, rfl⟩ ?_
    rintro (h | h | h)
    · exact hquery h
    · rw [hreport] at h
      exact absurd h (by decide)
    · exact hfaulty h.2
  · exact iff_of_false harmless_none fun h => h (.inr (.inl hreset))
  · refine iff_of_true harmless_some ?_
    rintro (h | h | h)
    · exact hquery h
    · exact hreset h
    · exact hreport h.1

theorem harmless_energyApiCallback (hsender : s.sender head = none) :
    Harmless s (s.energyApiCallback head message r replied) ↔ ¬ UsesSender head message := by
  unfold energyApiCallback UsesSender
  split_ifs with hapi hnotification hduty hcommand
  · exact iff_of_true harmless_some fun h => hapi h.1
  · rw [hsender]
    exact iff_of_false harmless_none fun h => h ⟨Decidable.not_not.mp hapi, .inl ⟨hnotification, hduty⟩⟩
  · refine iff_of_true harmless_some ?_
    rintro ⟨-, h | h⟩
    · exact hduty h.2
    · rw [hnotification] at h
      exact absurd h.1 (by decide)
  · have hframe : ¬ commandFrame = notificationFrame := by decide
    rw [harmless_energyCommand hsender]
    simp only [Decidable.not_not.mp hapi, hcommand, hframe, false_and, false_or, true_and]
  · refine iff_of_true harmless_some ?_
    rintro ⟨-, h | h⟩
    · exact hnotification h.1
    · exact hcommand h.1

theorem harmless_watchdogApiCallback (hsender : s.sender head = none) :
    Harmless s (s.watchdogApiCallback head replied) ↔ ¬ TracksSender head replied := by
  unfold watchdogApiCallback TracksSender
  rw [hsender]
  split_ifs with htype hreplied
  · exact iff_of_false harmless_none fun h => h ⟨htype, hreplied⟩
  · exact iff_of_true harmless_some fun h => hreplied h.2
  · exact iff_of_true harmless_some fun h => htype h.1

end

/-- A message from a module that is not registered does no harm exactly if its
handler does not use the slot of its sender, and an entry about a module that is
not registered exactly if it is dropped. -/
theorem unknown_harmless (s : EnergyController) (head : Head) (message : Mem UInt8) (r : Readings)
    (replied : Bool) :
    (s.sender head = none →
      (Harmless s (s.energyApiCallback head message r replied) ↔ ¬ UsesSender head message) ∧
        (Harmless s (s.watchdogApiCallback head replied) ↔ ¬ TracksSender head replied)) ∧
      ∀ entry, appidToModNum s.controller.moduleInfo entry.applicationId = none → ∀ source p,
        (reportEntry s.controller.moduleInfo source p entry = some p ↔ Faulty entry) := by
  refine ⟨fun h => ⟨harmless_energyApiCallback h, harmless_watchdogApiCallback h⟩, ?_⟩
  intro entry hentry source p
  unfold reportEntry
  rw [hentry]
  split_ifs with hfaulty
  · exact iff_of_true rfl hfaulty
  · exact iff_of_false (fun h => nomatch h) hfaulty

section

def sampleReadings : Readings := ⟨0, 0, fun _ => 0, 1000000, 0, 16000, .double⟩

/-- Only the controller and the storage master are known. -/
def sampleController : EnergyController :=
  ⟨init (controllerModuleInfo zeroModuleInfo), boot.init sampleReadings none none none⟩

/-- From a module that is not registered. -/
def unknownHead (frameType apiType messageType : UInt8) : Head := ⟨0x55, frameType, apiType, messageType⟩

/-- A command that is none. -/
theorem unknown_harmless_command :
    Harmless sampleController (sampleController.energyApiCallback (unknownHead commandFrame energyApiType 9)
      (fun _ => 0) sampleReadings true) :=
  (((unknown_harmless sampleController (unknownHead commandFrame energyApiType 9) (fun _ => 0) sampleReadings true).1
    rfl).1).mpr (by simp [UsesSender, unknownHead]; decide)

/-- What is made of an energy message of a module that is not registered. -/
def unknownEnergy (frameType messageType : UInt8) : Option (EnergyController × List Reply) :=
  sampleController.energyApiCallback (unknownHead frameType energyApiType messageType) (fun _ => 0) sampleReadings true

/-- A module that is not registered asks to be switched off, asks for its energy
or resets it, and starts a watchdog; a report is about one. -/
theorem unknown_out_of_bounds :
    unknownEnergy notificationFrame energyDutyCycleMessage = none ∧
      unknownEnergy commandFrame energyQueryMessage = none ∧ unknownEnergy commandFrame energyResetMessage = none ∧
      sampleController.watchdogApiCallback (unknownHead commandFrame watchdogApiType 0) true = none ∧
      reportEntry sampleController.controller.moduleInfo (some 0) sampleController.policy ⟨0x55, 50⟩ = none :=
  ⟨rfl, rfl, rfl, rfl, rfl⟩

end

end EnergyController

end Signpost
