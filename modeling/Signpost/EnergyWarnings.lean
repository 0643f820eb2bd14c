/-
The warnings in the controller's answer to an energy query: they follow the
energy that remains as long as nothing is overdrawn. A negative energy becomes a
limit that no energy is below.

The structure is followed through the bytes of the answer into the memory of the
module that asked. The two thresholds are compared as `uint32_t`, so an account
that is overdrawn by one is taken for one that holds more than it ever can.
-/
import Signpost.EnergyHandlers

namespace Signpost

open Lib

namespace EnergyController

open Controller EnergyPolicy

/-! ## The answer in memory -/

namespace EnergyInformation

/-- `signpost_energy_information_t`, which is packed, as `signpost_energy_query_reply` sends it. -/
def bytes (info : EnergyInformation) : Bytes :=
  le32 info.energyUsedSinceReset ++ (le32 info.energyLimit ++ (le32 info.timeSinceReset ++
    [if info.energyLimitWarningThreshold then 1 else 0, if info.energyLimitCriticalThreshold then 1 else 0]))

/-- What a module finds in the structure that its query was given. -/
def ofMem (heap : Mem UInt8) (energy : Ptr) : EnergyInformation where
  energyUsedSinceReset := u32 heap energy
  energyLimit := u32 heap (energy + 4)
  timeSinceReset := u32 heap (energy + 8)
  energyLimitWarningThreshold := heap (energy + 12) ≠ 0
  energyLimitCriticalThreshold := heap (energy + 13) ≠ 0

variable (info : EnergyInformation) (heap : Mem UInt8) (energy : Ptr)

theorem length_bytes : info.bytes.length = sizeofEnergyInformation := rfl

theorem ofMem_copy : ofMem (heap.copy energy info.bytes) energy = info := by
  obtain ⟨mem, hmem⟩ : ∃ mem, mem = heap.copy energy info.bytes := ⟨_, rfl⟩
  have hread : mem.read energy (4 + (4 + (4 + 2))) = info.bytes := hmem ▸ Mem.read_copy heap energy info.bytes
  simp only [Mem.read_add, bytes] at hread
  obtain ⟨hused, hread⟩ := List.append_inj hread rfl
  obtain ⟨hlimit, hread⟩ := List.append_inj hread rfl
  obtain ⟨htime, hflags⟩ := List.append_inj hread rfl
  obtain ⟨hwarning, hcritical⟩ : mem (energy + 12) = (if info.energyLimitWarningThreshold then 1 else 0) ∧
      mem (energy + 13) = if info.energyLimitCriticalThreshold then 1 else 0 := by
    simpa [Mem.read, List.range_succ] using hflags
  rw [← hmem]
  obtain ⟨used, limit, time, warning, critical⟩ := info
  simp only [ofMem, u32_of_read hused, u32_of_read hlimit, u32_of_read htime, hwarning, hcritical]
  cases warning <;> cases critical <;> rfl

end EnergyInformation

/-! ## Warnings -/

/-- `signpost_energy_policy_get_module_energy_remaining_uwh`, as the `int` it returns. -/
def remainingInt (p : EnergyPolicy) (r : Readings) (m : Fin 8) : Int :=
  (p.getModuleEnergyRemaining r m).toInt32.toInt

/-- The warnings follow the energy that remains, and the limit that is read back
promises no more of it. -/
structure Warns (info readBack : EnergyInformation) (remaining : Int) : Prop where
  warning : info.energyLimitWarningThreshold = true ↔ remaining < 1000000
  critical : info.energyLimitCriticalThreshold = true ↔ remaining < 200000
  limit : (readBack.energyLimit.toNat : Int) ≤ max remaining 0

/-- The limit is the `int` as it is in memory. -/
theorem toNat_energyLimit (p : EnergyPolicy) (r : Readings) (m : Fin 8) :
    ((energyInformation p r m).energyLimit.toNat : Int) =
      if 0 ≤ remainingInt p r m then remainingInt p r m else remainingInt p r m + 4294967296 := by
  have hlimit : (energyInformation p r m).energyLimit = UInt32.ofInt (p.getModuleEnergyRemaining r m) := rfl
  have hint : remainingInt p r m = (p.getModuleEnergyRemaining r m).bmod 4294967296 := Int32.toInt_ofInt
  rw [hlimit, hint, UInt32.ofInt, UInt32.toNat_ofNat', Int.bmod_def]
  split_ifs <;> omega

/-- An overdrawn module is promised more than an `int` holds. -/
theorem warns_iff (p : EnergyPolicy) (r : Readings) (m : Fin 8) :
    Warns (energyInformation p r m) (energyInformation p r m) (remainingInt p r m) ↔
      0 ≤ remainingInt p r m := by
  have hlimit := toNat_energyLimit p r m
  have hlow : -2147483648 ≤ remainingInt p r m := Int32.le_toInt _
  have hwarning : (energyInformation p r m).energyLimitWarningThreshold = true ↔
      (energyInformation p r m).energyLimit.toNat < 1000000 := by
    simp [energyInformation, UInt32.lt_iff_toNat_lt]
  have hcritical : (energyInformation p r m).energyLimitCriticalThreshold = true ↔
      (energyInformation p r m).energyLimit.toNat < 200000 := by
    simp [energyInformation, UInt32.lt_iff_toNat_lt]
  constructor
  · intro h
    by_contra hneg
    rw [if_neg hneg] at hlimit
    have hle := h.limit
    omega
  · intro hle
    rw [if_pos hle] at hlimit
    exact ⟨hwarning.trans (by omega), hcritical.trans (by omega), by omega⟩

/-- A command that asks for the energy. -/
structure Queries (head : Head) : Prop where
  apiType : head.apiType = energyApiType
  frameType : head.frameType = commandFrame
  messageType : head.messageType = energyQueryMessage

theorem energyApiCallback_query {s : EnergyController} {head : Head} {m : Fin 8} (hquery : Queries head)
    (hm : s.sender head = some m) (message : Mem UInt8) (r : Readings) (replied : Bool) :
    s.energyApiCallback head message r replied =
      some (s, .energyQuery (energyInformation s.policy r m) :: if replied then [] else [.error portEi2cWrite]) := by
  have hframe : ¬ commandFrame = notificationFrame := by decide
  rw [energyApiCallback, if_neg (not_not.mpr hquery.apiType), hquery.frameType, if_neg hframe, if_pos rfl,
    energyCommand, if_pos hquery.messageType, hm, Option.map_some]

/-- The answer to a registered module warns as it should exactly if the energy that
remains is not negative. -/
theorem warnings_follow_iff {s : EnergyController} {head : Head} {m : Fin 8} (hquery : Queries head)
    (hm : s.sender head = some m) (message : Mem UInt8) (r : Readings) (replied : Bool) (heap : Mem UInt8)
    (energy : Ptr) :
    ∃ info rest, s.energyApiCallback head message r replied = some (s, .energyQuery info :: rest) ∧
      (Warns info (EnergyInformation.ofMem (heap.copy energy info.bytes) energy) (remainingInt s.policy r m) ↔
        0 ≤ remainingInt s.policy r m) := by
  refine ⟨_, _, energyApiCallback_query hquery hm message r replied, ?_⟩
  rw [EnergyInformation.ofMem_copy]
  exact warns_iff s.policy r m

section

/-- The module at the first slot asks for its energy. -/
def queryHead : Head := ⟨0x31, commandFrame, energyApiType, energyQueryMessage⟩

/-- A controller that knows that module, which has so much energy remaining. -/
def queriedController (energy : Int) : EnergyController where
  controller :=
    init { controllerModuleInfo zeroModuleInfo with i2cAddressMods := fun i => if i = 0 then 0x31 else 0xff }
  policy := { boot with energyRemaining := ⟨0, fun _ => energy⟩ }

theorem queries_queryHead : Queries queryHead := ⟨rfl, rfl, rfl⟩

theorem warnings_follow_iff_low :
    ∃ info rest, (queriedController 150000).energyApiCallback queryHead (fun _ => 0) sampleReadings true =
        some (queriedController 150000, .energyQuery info :: rest) ∧
      Warns info (EnergyInformation.ofMem (Mem.copy (fun _ => 0) 16 info.bytes) 16)
        (remainingInt (queriedController 150000).policy sampleReadings 0) := by
  obtain ⟨info, rest, hanswer, hwarns⟩ := warnings_follow_iff (s := queriedController 150000) queries_queryHead rfl
    (fun _ => 0) sampleReadings true (fun _ => 0) 16
  exact ⟨info, rest, hanswer, hwarns.mpr (by decide)⟩

/-- A module that has used one uWh more than it had is not warned, and promised
more than 4000 Wh. -/
theorem overdrawn_not_warned :
    ∃ info, (queriedController (-1)).energyApiCallback queryHead (fun _ => 0) sampleReadings true =
        some (queriedController (-1), [.energyQuery info]) ∧
      remainingInt (queriedController (-1)).policy sampleReadings 0 = -1 ∧
      info.energyLimitWarningThreshold = false ∧ info.energyLimitCriticalThreshold = false ∧
      (EnergyInformation.ofMem (Mem.copy (fun _ => 0) 16 info.bytes) 16).energyLimit = 4294967295 ∧
      ¬ Warns info (EnergyInformation.ofMem (Mem.copy (fun _ => 0) 16 info.bytes) 16)
        (remainingInt (queriedController (-1)).policy sampleReadings 0) := by
  refine ⟨_, energyApiCallback_query (m := 0) queries_queryHead rfl _ _ _, rfl, rfl, rfl, ?_, fun h => ?_⟩
  · rw [EnergyInformation.ofMem_copy]
    rfl
  · exact absurd (h.warning.mpr (by decide)) (by decide)

end

end EnergyController

end Signpost
