/-
The reply to a command that asks for the state of the modules
(`signpost_initialization_get_module_state_reply`): `module_info` as it is in
memory, with the keys of all modules.

Two controllers that differ in the keys of other modules only are compared by
what they answer. The structure is written to memory field by field, and its
bytes determine it, so nothing of it is hidden from the module that asks.
-/
import Signpost.Registration

namespace Signpost

open Lib

/-! ## `module_state_t` in memory -/

namespace ModuleState

def publicBytes (m : ModuleState) : Bytes :=
  le32 m.magic ++ ([m.selfModNum, m.i2cAddress] ++ (m.selfName.val ++
    ((List.finRange 8).flatMap (fun i => (m.names i).val) ++
      ((List.finRange 8).flatMap (fun i => [m.i2cAddressMods i]) ++
        ((List.finRange 8).flatMap (fun i => le16 (m.nonces i)) ++
          (List.finRange 8).flatMap fun i => [if m.haskey i then 1 else 0])))))

def keyBytes (m : ModuleState) : Bytes := (List.finRange 8).flatMap fun i => (m.keys i).val

/-- `sizeof(module_state_t)` bytes, the last two of which are padding. -/
def bytes (m : ModuleState) : Bytes := m.publicBytes ++ (m.keyBytes ++ [0, 0])

@[simp] theorem length_name (n : Name) : n.val.length = 16 := n.property

@[simp] theorem length_key (k : Key) : k.val.length = 32 := k.property

theorem length_keyBytes (m : ModuleState) : m.keyBytes.length = 256 := by
  simp [keyBytes, List.length_flatMap]

theorem length_bytes (m : ModuleState) : m.bytes.length = 440 := by
  simp [bytes, publicBytes, length_keyBytes, le32, le16, List.length_flatMap]

theorem ofMem_of_read {m : ModuleState} {mem : Mem UInt8} (h : mem.read 0 440 = m.bytes) : ofMem mem = m := by
  have hsplit : 440 = 4 + (2 + (16 + (128 + (8 + (16 + (8 + (256 + 2))))))) := rfl
  simp only [hsplit, Mem.read_add, bytes, publicBytes, List.append_assoc] at h
  obtain ⟨hmagic, h⟩ := List.append_inj h (by simp [le32, le16])
  obtain ⟨hown, h⟩ := List.append_inj h (by simp)
  obtain ⟨hname, h⟩ := List.append_inj h (by simp)
  obtain ⟨hnames, h⟩ := List.append_inj h (by simp [List.length_flatMap])
  obtain ⟨haddrs, h⟩ := List.append_inj h (by simp [List.length_flatMap])
  obtain ⟨hnonces, h⟩ := List.append_inj h (by simp [List.length_flatMap, le16])
  obtain ⟨hhaskey, h⟩ := List.append_inj h (by simp [List.length_flatMap])
  obtain ⟨hkeys, -⟩ := List.append_inj h (by simp [length_keyBytes])
  have hmod : mem 4 = m.selfModNum ∧ mem 5 = m.i2cAddress := by
    simpa [Mem.read, List.range_succ] using hown
  have haddr : ∀ i : Fin 8, mem (150 + i) = m.i2cAddressMods i := fun i => by
    simpa [Mem.read] using Mem.read_block (k := 1) (fun _ => rfl) haddrs i
  have hnonce : ∀ i : Fin 8, mem (158 + 2 * i) = (m.nonces i).toUInt8 ∧
      mem (158 + 2 * i + 1) = (m.nonces i >>> 8).toUInt8 := fun i => by
    simpa [Mem.read, le16, List.range_succ] using Mem.read_block (k := 2) (fun _ => rfl) hnonces i
  have hhas : ∀ i : Fin 8, mem (174 + i) = if m.haskey i then 1 else 0 := fun i => by
    simpa [Mem.read] using Mem.read_block (k := 1) (fun _ => rfl) hhaskey i
  change ofMem mem = ⟨m.magic, m.selfModNum, m.i2cAddress, m.selfName, m.names, m.i2cAddressMods, m.nonces,
    m.haskey, m.keys⟩
  simp only [ofMem, ModuleState.mk.injEq]
  refine ⟨u32_of_read hmagic, hmod.1, hmod.2, Subtype.ext hname, funext fun i => Subtype.ext ?_, funext haddr,
    funext fun i => ?_, funext fun i => ?_, funext fun i => Subtype.ext ?_⟩
  · exact Mem.read_block (fun i => length_name _) hnames i
  · have hnext : 159 + 2 * i.val = 158 + 2 * i.val + 1 := by omega
    rw [hnext, (hnonce i).1, (hnonce i).2, ofLe16_le16]
  · rw [hhas i]
    cases m.haskey i <;> rfl
  · exact Mem.read_block (fun i => length_key _) hkeys i

theorem bytes_injective {m m' : ModuleState} (h : m.bytes = m'.bytes) : m = m' := by
  have hread : (Mem.ofList m.bytes 0).read 0 440 = m.bytes := by
    have hlist := Mem.read_ofList m.bytes 0
    rwa [length_bytes] at hlist
  exact (ofMem_of_read hread).symm.trans (ofMem_of_read (hread.trans h))

end ModuleState

/-! ## Replies -/

namespace Controller

structure Sending where
  destination : UInt8
  frameType : UInt8
  apiType : UInt8
  messageType : UInt8
  message : Bytes
  deriving DecidableEq

/-- What is encrypted of a message, if there is a key. -/
def Sending.plaintext (s : Sending) : Bytes := s.frameType :: s.apiType :: s.messageType :: s.message

/-- `signpost_initialization_get_module_state_reply` -/
def getModuleStateReply (moduleInfo : ModuleState) (address : UInt8) : Sending :=
  ⟨address, responseFrame, initializationApiType, 4, moduleInfo.bytes⟩

/-- `initialization_api_callback`: its answers. A module that is declared is sent
its address. -/
def initializationApiCallback (c : Controller) (msg : ApiMessage) : Option (Controller × List Sending) :=
  if msg.apiType ≠ initializationApiType then
    some (c, [⟨msg.sourceAddress, errorFrame, msg.apiType, msg.messageType, le32 (UInt32.ofInt portEinval)⟩])
  else if msg.frameType = commandFrame ∧ msg.messageType = 0 then
    (c.declare msg.sourceAddress msg.message).map fun c' =>
      (c', c.isolation.modIsolatedOut.toList.map fun i =>
        ⟨msg.sourceAddress, responseFrame, initializationApiType, 0,
          [assignedAddress msg.sourceAddress (slotOf i)]⟩)
  else if msg.frameType = commandFrame ∧ msg.messageType = 4 then
    some (c, [getModuleStateReply c.moduleInfo msg.sourceAddress])
  else some (c, [])

/-- Two states of what is known of modules that differ only in keys of others
than the one at slot `m`. -/
def OthersKeysDiffer (m : Fin 8) (a b : ModuleState) : Prop :=
  b = { a with keys := b.keys } ∧ b.keys m = a.keys m

/-- A command for the state of the modules, from this address. -/
def stateCommand (source : UInt8) (message : Bytes) : ApiMessage :=
  ⟨source, commandFrame, initializationApiType, 4, message⟩

/-- What the controller answers, in clear. -/
def answers (c : Controller) (msg : ApiMessage) : Option (List Bytes) :=
  (c.initializationApiCallback msg).map fun r => r.2.map Sending.plaintext

theorem answers_stateCommand (c : Controller) (source : UInt8) (message : Bytes) :
    c.answers (stateCommand source message) =
      some [responseFrame :: initializationApiType :: 4 :: c.moduleInfo.bytes] := rfl

/-- A module is answered the same in two states that differ only in keys of
others exactly if these keys are the same. -/
theorem state_reply_reveals_keys {c c' : Controller} {m : Fin 8}
    (h : OthersKeysDiffer m c.moduleInfo c'.moduleInfo) (message : Bytes) :
    c.answers (stateCommand (c.moduleInfo.i2cAddressMods m) message) =
        c'.answers (stateCommand (c.moduleInfo.i2cAddressMods m) message) ↔
      ∀ i, c.moduleInfo.keys i = c'.moduleInfo.keys i := by
  rw [answers_stateCommand, answers_stateCommand]
  constructor
  · intro heq i
    have hbytes : c.moduleInfo.bytes = c'.moduleInfo.bytes := by simpa using heq
    rw [ModuleState.bytes_injective hbytes]
  · intro hkeys
    rw [h.1, ← funext hkeys]

section

/-- The module at the second slot has a key of these bytes. -/
def keyedController (byte : UInt8) : Controller :=
  init { controllerModuleInfo zeroModuleInfo with
    i2cAddressMods := ![0x31, 0x32, 0xff, moduleAddressController, moduleAddressStorage, 0xff, 0xff, 0xff]
    haskey := ![true, true, false, false, false, false, false, false]
    keys := Function.update (fun _ => clearedKey) 1 ⟨List.replicate 32 byte, List.length_replicate⟩ }

theorem othersKeysDiffer_keyed (byte byte' : UInt8) :
    OthersKeysDiffer 0 (keyedController byte).moduleInfo (keyedController byte').moduleInfo := ⟨rfl, rfl⟩

theorem state_reply_reveals_keyed :
    (keyedController 1).answers (stateCommand 0x31 []) ≠ (keyedController 2).answers (stateCommand 0x31 []) :=
  fun heq => absurd ((state_reply_reveals_keys (othersKeysDiffer_keyed 1 2) []).mp heq 1) (by decide)

/-- The module at the first slot is told the key of the one at the second. -/
theorem state_reply_of_other_key :
    OthersKeysDiffer 0 (keyedController 1).moduleInfo (keyedController 2).moduleInfo ∧
      (keyedController 1).answers (stateCommand 0x31 []) ≠ (keyedController 2).answers (stateCommand 0x31 []) := by
  refine ⟨othersKeysDiffer_keyed 1 2, fun heq => ?_⟩
  rw [answers_stateCommand, answers_stateCommand] at heq
  have hbytes : (keyedController 1).moduleInfo.bytes = (keyedController 2).moduleInfo.bytes := by simpa using heq
  have hkey := congrArg (fun m : ModuleState => (m.keys 1).val.head?) (ModuleState.bytes_injective hbytes)
  exact absurd hkey (by decide)

end

end Controller

end Signpost
