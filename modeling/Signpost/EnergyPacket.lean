/-
The energy packet, from the controller (`send_energy_update`) to what the server
takes from it (`parse` of `packet-parser.js`).

What the controller converts with floating point is given as it is after that.
A buffer that is too short for a read makes the parser throw.

All numbers are two bytes, which the controller writes signed and the server
reads unsigned, and three averages are read from the wrong place. So every field
is right exactly if nothing is negative and those three are zero.
-/
import Signpost.EnergyPolicy
import Signpost.Packet
import Signpost.Lib.BigEndian

namespace Signpost

open Lib

namespace EnergyPacket

open Controller

/-! ## The controller -/

/-- The locals of `send_energy_update`. -/
structure Values where
  batteryVoltage : Int
  batteryCurrent : Int
  batteryEnergy : Int
  batteryPercent : Int
  batteryFull : Int
  solarVoltage : Int
  solarCurrent : Int
  rem : EnergyRemaining
  av : Figures Int

section
variable (v : Values)

/-- The packet's unit of an energy is the mWh, and that of an average the mW. -/
def Values.remaining (i : Fin 8) : Int := (v.rem.modules i).tdiv 1000

def Values.remainingController : Int := v.rem.controller.tdiv 1000

def Values.average (i : Fin 8) : Int := (v.av.modules i).tdiv 1000

def Values.averageController : Int := v.av.controller.tdiv 1000

/-- `energy_buf`, of which 51 bytes are published. -/
def Values.energyBuf : Bytes :=
  0x01 :: be16 v.batteryVoltage ++ be32 v.batteryCurrent ++ be16 v.solarVoltage ++ be32 v.solarCurrent ++
    [byteAt v.batteryPercent 0] ++ be16 v.batteryEnergy ++ be16 v.batteryFull ++
    -- From 18 on.
    be16 (v.remaining 0) ++ be16 (v.remaining 1) ++ be16 (v.remaining 2) ++ be16 v.remainingController ++ [0, 0] ++
    be16 (v.remaining 5) ++ be16 (v.remaining 6) ++ be16 (v.remaining 7) ++
    -- From 34 on.
    be16 (v.average 0) ++ be16 (v.average 1) ++ be16 (v.average 2) ++ be16 v.averageController ++ [0, 0] ++
    be16 (v.average 5) ++ be16 (v.average 6) ++ be16 (v.average 7) ++ [0]

end

/-! ## The server -/

/-- A figure of the controller and of each module. -/
structure PerModule where
  controller : Int
  module0 : Int
  module1 : Int
  module2 : Int
  module5 : Int
  module6 : Int
  module7 : Int
  deriving DecidableEq

/-- The message of the device `signpost_energy`. -/
structure EnergyMessage where
  batteryVoltageMV : Int
  batteryCurrentUA : Int
  solarVoltageMV : Int
  solarCurrentUA : Int
  batteryCapacityPercentRemaining : Int
  batteryCapacityRemainingMAh : Int
  batteryCapacityFullMAh : Int
  energyRemainingMWh : PerModule
  /-- Not in the message of a short packet. -/
  energyAverageMW : Option PerModule
  deriving DecidableEq

def parseAverages (buf : Bytes) : Option PerModule := do
  let averageModule0 ← readUInt16BE buf 34
  let averageModule1 ← readUInt16BE buf 36
  let averageModule2 ← readUInt16BE buf 38
  let averageController ← readUInt16BE buf 40
  let averageModule5 ← readUInt16BE buf 42
  let averageModule6 ← readUInt16BE buf 44
  let averageModule7 ← readUInt16BE buf 46
  some ⟨averageController, averageModule0, averageModule1, averageModule2, averageModule5, averageModule6,
    averageModule7⟩

/-- The energy branch of `parse`, which returns nothing of another message type. -/
def parseEnergy (buf : Bytes) : Option (Option EnergyMessage) := do
  let messageType ← readUInt8 buf 0
  if messageType = 0x01 then
    let batteryVoltage ← readUInt16BE buf 1
    let batteryCurrent ← readInt32BE buf 3
    let solarVoltage ← readUInt16BE buf 7
    let solarCurrent ← readInt32BE buf 9
    let batteryPercent ← readUInt8 buf 13
    let batteryEnergy ← readUInt16BE buf 14
    let batteryCapacity ← readUInt16BE buf 16
    let energyModule0 ← readUInt16BE buf 18
    let energyModule1 ← readUInt16BE buf 20
    let energyModule2 ← readUInt16BE buf 22
    let energyController ← readUInt16BE buf 24
    let _energyLinux ← readUInt16BE buf 26
    let energyModule5 ← readUInt16BE buf 28
    let energyModule6 ← readUInt16BE buf 30
    let energyModule7 ← readUInt16BE buf 32
    let averages ← if buf.length > 45 then (parseAverages buf).map some else some none
    some (some
      { batteryVoltageMV := batteryVoltage
        batteryCurrentUA := batteryCurrent
        solarVoltageMV := solarVoltage
        solarCurrentUA := solarCurrent
        batteryCapacityPercentRemaining := batteryPercent
        batteryCapacityRemainingMAh := batteryEnergy
        batteryCapacityFullMAh := batteryCapacity
        energyRemainingMWh := ⟨energyController, energyModule0, energyModule1, energyModule2, energyModule5,
          energyModule6, energyModule7⟩
        energyAverageMW := averages })
  else some none

/-! ## From one to the other -/

section
variable (v : Values)

/-- What the controller put in, in the units of the packet. -/
def Values.message : EnergyMessage where
  batteryVoltageMV := v.batteryVoltage
  batteryCurrentUA := v.batteryCurrent
  solarVoltageMV := v.solarVoltage
  solarCurrentUA := v.solarCurrent
  batteryCapacityPercentRemaining := v.batteryPercent
  batteryCapacityRemainingMAh := v.batteryEnergy
  batteryCapacityFullMAh := v.batteryFull
  energyRemainingMWh := ⟨v.remainingController, v.remaining 0, v.remaining 1, v.remaining 2, v.remaining 5,
    v.remaining 6, v.remaining 7⟩
  energyAverageMW := some ⟨v.averageController, v.average 0, v.average 1, v.average 2, v.average 5, v.average 6,
    v.average 7⟩

def Values.sixteen : List Int :=
  [v.batteryVoltage, v.solarVoltage, v.batteryEnergy, v.batteryFull, v.remainingController, v.remaining 0,
    v.remaining 1, v.remaining 2, v.remaining 5, v.remaining 6, v.remaining 7, v.averageController, v.average 0,
    v.average 1, v.average 2, v.average 5, v.average 6, v.average 7]

/-- The values fit the packet's fields, which are signed but for the percentage. -/
structure Values.Fits : Prop where
  sixteen : ∀ x ∈ v.sixteen, -32768 ≤ x ∧ x < 32768
  batteryCurrent : -2147483648 ≤ v.batteryCurrent ∧ v.batteryCurrent < 2147483648
  solarCurrent : -2147483648 ≤ v.solarCurrent ∧ v.solarCurrent < 2147483648
  batteryPercent : 0 ≤ v.batteryPercent ∧ v.batteryPercent < 256

/-- What two bytes of a value are read as. -/
def unsigned (x : Int) : Int := ofBe16 (byteAt x 8) (byteAt x 0)

theorem parseEnergy_energyBuf : parseEnergy v.energyBuf = some (some
    { batteryVoltageMV := unsigned v.batteryVoltage
      batteryCurrentUA := ofBe32 (byteAt v.batteryCurrent 24) (byteAt v.batteryCurrent 16)
        (byteAt v.batteryCurrent 8) (byteAt v.batteryCurrent 0)
      solarVoltageMV := unsigned v.solarVoltage
      solarCurrentUA := ofBe32 (byteAt v.solarCurrent 24) (byteAt v.solarCurrent 16)
        (byteAt v.solarCurrent 8) (byteAt v.solarCurrent 0)
      batteryCapacityPercentRemaining := (byteAt v.batteryPercent 0).toNat
      batteryCapacityRemainingMAh := unsigned v.batteryEnergy
      batteryCapacityFullMAh := unsigned v.batteryFull
      energyRemainingMWh := ⟨unsigned v.remainingController, unsigned (v.remaining 0), unsigned (v.remaining 1),
        unsigned (v.remaining 2), unsigned (v.remaining 5), unsigned (v.remaining 6), unsigned (v.remaining 7)⟩
      energyAverageMW := some ⟨unsigned v.averageController, unsigned (v.average 0), unsigned (v.average 1),
        unsigned (v.average 2), 0, unsigned (v.average 5), unsigned (v.average 6)⟩ }) := by
  have hbuf : v.energyBuf = [0x01, byteAt v.batteryVoltage 8, byteAt v.batteryVoltage 0,
      byteAt v.batteryCurrent 24, byteAt v.batteryCurrent 16, byteAt v.batteryCurrent 8, byteAt v.batteryCurrent 0,
      byteAt v.solarVoltage 8, byteAt v.solarVoltage 0,
      byteAt v.solarCurrent 24, byteAt v.solarCurrent 16, byteAt v.solarCurrent 8, byteAt v.solarCurrent 0,
      byteAt v.batteryPercent 0, byteAt v.batteryEnergy 8, byteAt v.batteryEnergy 0,
      byteAt v.batteryFull 8, byteAt v.batteryFull 0,
      byteAt (v.remaining 0) 8, byteAt (v.remaining 0) 0, byteAt (v.remaining 1) 8, byteAt (v.remaining 1) 0,
      byteAt (v.remaining 2) 8, byteAt (v.remaining 2) 0, byteAt v.remainingController 8,
      byteAt v.remainingController 0, 0, 0, byteAt (v.remaining 5) 8, byteAt (v.remaining 5) 0,
      byteAt (v.remaining 6) 8, byteAt (v.remaining 6) 0,
      byteAt (v.remaining 7) 8, byteAt (v.remaining 7) 0,
      byteAt (v.average 0) 8, byteAt (v.average 0) 0, byteAt (v.average 1) 8, byteAt (v.average 1) 0,
      byteAt (v.average 2) 8, byteAt (v.average 2) 0, byteAt v.averageController 8, byteAt v.averageController 0,
      0, 0, byteAt (v.average 5) 8, byteAt (v.average 5) 0, byteAt (v.average 6) 8, byteAt (v.average 6) 0,
      byteAt (v.average 7) 8, byteAt (v.average 7) 0, 0] := by
    unfold Values.energyBuf
    simp only [be16, be32, List.cons_append, List.nil_append]
  rw [hbuf]
  simp only [parseEnergy, parseAverages, readUInt8, readUInt16BE, readInt32BE, List.getElem?_cons_succ,
    List.getElem?_cons_zero, Option.map_some, Option.bind_eq_bind, Option.bind_some, Nat.reduceAdd]
  have hone : UInt8.toNat 1 = 1 := rfl
  have hzero : ((ofBe16 0 0 : Nat) : Int) = 0 := rfl
  rw [if_pos hone, if_pos (by simp only [List.length_cons, List.length_nil]; decide)]
  simp only [hzero, unsigned]

theorem unsigned_chain {x y z : Int} : 0 = x ∧ unsigned x = y ∧ unsigned y = z ↔ x = 0 ∧ y = 0 ∧ z = 0 := by
  have hzero : unsigned 0 = 0 := rfl
  constructor
  · rintro ⟨rfl, rfl, rfl⟩
    exact ⟨rfl, hzero, by rw [hzero, hzero]⟩
  · rintro ⟨rfl, rfl, rfl⟩
    exact ⟨rfl, hzero, hzero⟩

/-- The message is right exactly when nothing is negative and the averages of
the last three modules are zero. -/
theorem energy_roundtrip (h : v.Fits) : parseEnergy v.energyBuf = some (some v.message) ↔
    (∀ x ∈ v.sixteen, 0 ≤ x) ∧ v.average 5 = 0 ∧ v.average 6 = 0 ∧ v.average 7 = 0 := by
  have hkey : ∀ x ∈ v.sixteen, (unsigned x = x ↔ 0 ≤ x) :=
    fun x hx => ofBe16_byteAt_eq (h.sixteen x hx).1 (h.sixteen x hx).2
  have hbattery := ofBe32_byteAt h.batteryCurrent.1 h.batteryCurrent.2
  have hsolar := ofBe32_byteAt h.solarCurrent.1 h.solarCurrent.2
  have hpercent := toNat_byteAt_zero h.batteryPercent.1 h.batteryPercent.2
  rw [parseEnergy_energyBuf, Values.message]
  simp only [Values.sixteen, List.forall_mem_cons, List.not_mem_nil, false_imp_iff, implies_true, and_true] at hkey ⊢
  obtain ⟨k1, k2, k3, k4, k5, k6, k7, k8, k9, k10, k11, k12, k13, k14, k15, k16, k17, k18⟩ := hkey
  simp only [Option.some.injEq, EnergyMessage.mk.injEq, PerModule.mk.injEq, hbattery, hsolar, hpercent, k1, k2, k3,
    k4, k5, k6, k7, k8, k9, k10, k11, k12, k13, k14, k15, true_and]
  rw [unsigned_chain]
  constructor <;> intro h <;> omega

end

/-- Modules with this energy remaining, and this average. -/
def sampleValues (remaining average : Int) : Values where
  batteryVoltage := 12000
  batteryCurrent := -20000
  batteryEnergy := 1200
  batteryPercent := 79
  batteryFull := 9000
  solarVoltage := 19000
  solarCurrent := 200000
  rem := ⟨40000, fun _ => remaining⟩
  av := ⟨110000, 0, fun _ => average⟩

theorem energy_roundtrip_idle :
    parseEnergy (sampleValues 10000 0).energyBuf = some (some (sampleValues 10000 0).message) :=
  (energy_roundtrip _ ⟨by decide, by decide, by decide, by decide⟩).mpr ⟨by decide, rfl, rfl, rfl⟩

/-- Of modules that owe 1 mWh and use 80 mW, the server takes 65535 mWh for the
energy that remains, and the last three averages for 0, 80 and 80. -/
theorem energy_shifted : (sampleValues (-1000) 80000).Fits ∧
    (sampleValues (-1000) 80000).message.energyRemainingMWh = ⟨40, -1, -1, -1, -1, -1, -1⟩ ∧
    (sampleValues (-1000) 80000).message.energyAverageMW = some ⟨110, 80, 80, 80, 80, 80, 80⟩ ∧
    ∃ m, parseEnergy (sampleValues (-1000) 80000).energyBuf = some (some m) ∧
      m.energyRemainingMWh = ⟨40, 65535, 65535, 65535, 65535, 65535, 65535⟩ ∧
      m.energyAverageMW = some ⟨110, 80, 80, 80, 0, 80, 80⟩ :=
  ⟨⟨by decide, by decide, by decide, by decide⟩, by decide, by decide, _, parseEnergy_energyBuf _, by decide,
    by decide⟩

end EnergyPacket

end Signpost
