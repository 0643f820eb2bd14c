/-
`module_info`: what a module knows of the modules on its signpost.

The slots are in the order of the lines, and a module's own name and address
stand with those of the others. A key is found by address: the first slot that
has the address and a key, of which there may be another with an older one.
-/
import Signpost.Protocol

namespace Signpost

open Lib

/-- `NAME_LEN` characters. -/
abbrev Name := { s : Bytes // s.length = 16 }

/-- `module_state_t`, with `NUM_MODULES` slots. -/
structure ModuleState where
  magic : UInt32
  selfModNum : UInt8
  i2cAddress : UInt8
  selfName : Name
  names : Fin 8 → Name
  i2cAddressMods : Fin 8 → UInt8
  nonces : Fin 8 → UInt16
  haskey : Fin 8 → Bool
  keys : Fin 8 → Key

/-- The characters before the first zero, and zeros: what `strncpy` leaves of a
name in a field of its size. -/
def Name.strncpy (n : Name) : Name :=
  ⟨(n.val.takeWhile (· ≠ 0) ++ List.replicate 16 0).take 16, by simp⟩

/-- A `module_state_t` in memory: the fields at their offsets. -/
def ModuleState.ofMem (m : Mem UInt8) : ModuleState where
  magic := u32 m 0
  selfModNum := m 4
  i2cAddress := m 5
  selfName := ⟨m.read 6 16, m.length_read 6 16⟩
  names := fun i => ⟨m.read (22 + 16 * i) 16, m.length_read _ 16⟩
  i2cAddressMods := fun i => m (150 + i)
  nonces := fun i => ofLe16 (m (158 + 2 * i)) (m (159 + 2 * i))
  haskey := fun i => m (174 + i) ≠ 0
  keys := fun i => ⟨m.read (182 + 32 * i) 32, m.length_read _ 32⟩

/-- The key of the first slot that has this address and a key. -/
def signpostApiAddrToKey (moduleInfo : ModuleState) (addr : UInt8) : Option Key :=
  (List.finRange 8).findSome? fun i =>
    if addr = moduleInfo.i2cAddressMods i && moduleInfo.haskey i then some (moduleInfo.keys i) else none

end Signpost
