/-
A declaration in the controller's memory: the name goes from the receive buffer into
a buffer on the stack, bounded by the length of the message, and from there into the
table, bounded by the length of a name.

Both copies are functions of memory here, so that a copy past the end of the
buffer changes what lies behind it. The declaration of the other modules is the
same function where it writes nothing it should not.
-/
import Signpost.ModuleName

namespace Signpost

open Lib Controller

/-! ## The table in memory -/

namespace ModuleState

/-- Where the tables are in a `module_state_t`. -/
def namesOffset : Nat := 22

def i2cAddressModsOffset : Nat := 150

def haskeyOffset : Nat := 174

section
variable (mem : Mem UInt8) (n : Fin 8)

theorem ofMem_copy_names (name : Name) :
    ofMem (mem.copy (namesOffset + 16 * n) name.val) =
      { ofMem mem with names := Function.update (ofMem mem).names n name } := by
  have hlen : name.val.length = 16 := name.property
  have hnames : (ofMem (mem.copy (namesOffset + 16 * n) name.val)).names =
      Function.update (ofMem mem).names n name := by
    funext i
    by_cases hi : i = n
    · subst hi
      rw [Function.update_self]
      have hread := Mem.read_copy mem (namesOffset + 16 * i) name.val
      rw [hlen] at hread
      exact Subtype.ext hread
    · rw [Function.update_of_ne hi]
      have hne := Fin.val_ne_of_ne hi
      exact Subtype.ext (Mem.read_copy_disjoint (by rw [namesOffset]; omega))
  rw [← hnames, namesOffset]
  simp (disch := omega) only [ofMem, u32, Mem.copy_outside, Mem.read_copy_disjoint]

theorem ofMem_copy_address (address : UInt8) :
    ofMem (mem.copy (i2cAddressModsOffset + n) [address]) =
      { ofMem mem with i2cAddressMods := Function.update (ofMem mem).i2cAddressMods n address } := by
  have hlen : [address].length = 1 := rfl
  have haddresses : (ofMem (mem.copy (i2cAddressModsOffset + n) [address])).i2cAddressMods =
      Function.update (ofMem mem).i2cAddressMods n address := by
    funext i
    by_cases hi : i = n
    · subst hi
      rw [Function.update_self]
      exact Mem.copy_singleton ..
    · rw [Function.update_of_ne hi]
      have hne := Fin.val_ne_of_ne hi
      exact Mem.copy_outside (by rw [i2cAddressModsOffset]; omega)
  rw [← haddresses, i2cAddressModsOffset]
  simp (disch := omega) only [ofMem, u32, Mem.copy_outside, Mem.read_copy_disjoint]

theorem ofMem_copy_haskey :
    ofMem (mem.copy (haskeyOffset + n) [0]) =
      { ofMem mem with haskey := Function.update (ofMem mem).haskey n false } := by
  have hlen : [(0 : UInt8)].length = 1 := rfl
  have hhaskey : (ofMem (mem.copy (haskeyOffset + n) [0])).haskey = Function.update (ofMem mem).haskey n false := by
    funext i
    by_cases hi : i = n
    · subst hi
      rw [Function.update_self]
      exact decide_eq_false (not_not_intro (Mem.copy_singleton ..))
    · rw [Function.update_of_ne hi]
      have hne := Fin.val_ne_of_ne hi
      have hcell : mem.copy (haskeyOffset + n) [0] (haskeyOffset + i) = mem (haskeyOffset + i) :=
        Mem.copy_outside (by rw [haskeyOffset]; omega)
      exact congrArg (fun b : UInt8 => decide (b ≠ 0)) hcell
  rw [← hhaskey, haskeyOffset]
  simp (disch := omega) only [ofMem, u32, Mem.copy_outside, Mem.read_copy_disjoint]

end

end ModuleState

/-! ## The declaration -/

/-- `signpost_initialization_declare_respond`, up to its answer: `module_info` is in
memory. -/
def initializationDeclareRespond (newAddress : UInt8) (moduleNumber : Fin 8) (name moduleInfo : Mem UInt8) :
    Mem UInt8 :=
  let mem := moduleInfo.copy (ModuleState.i2cAddressModsOffset + moduleNumber) [newAddress]
  let mem := mem.copy (ModuleState.namesOffset + 16 * moduleNumber) (List.replicate 16 0)
  let mem := mem.copy (ModuleState.namesOffset + 16 * moduleNumber) (strncpy name (strnlen name 16))
  mem.copy (ModuleState.haskeyOffset + moduleNumber) [0]

namespace Controller

/-- `sizeof(name)` in `initialization_api_callback`. -/
def nameBufferLength : Nat := 17

/-- `initialization_api_callback` with an `InitializationDeclare`: what becomes of the
stack, with the buffer for the name at `name`, and of `module_info`. The other
variables are in registers. -/
def declareInMemory (c : Controller) (sourceAddress : UInt8) (messageLength : Nat) (message : Mem UInt8)
    (name : Nat) (stack : Mem UInt8) : Mem UInt8 × ModuleState :=
  match c.isolation.modIsolatedOut with
  | none => (stack, c.moduleInfo)
  | some i =>
    let reqModNum := slotOf i
    let newAddress := if sourceAddress = 0 then UInt8.ofNat (0x10 + reqModNum) else sourceAddress
    let stack := stack.copy name (List.replicate nameBufferLength 0)
    let stack := stack.copy name (strncpy message messageLength)
    (stack, .ofMem (initializationDeclareRespond newAddress reqModNum (fun k => stack (name + k)) c.moduleInfo.toMem))

end Controller

/-- These characters in a field for a name, with zeros behind them. -/
def nameField (name : Bytes) : Name := ⟨(cstr name ++ List.replicate 16 0).take 16, by simp⟩

/-! ## What is written -/

theorem val_nameField_of_strn {name : Mem UInt8} {b : Bytes} (h : strn name 16 = cstr b) :
    strn name 16 ++ (List.replicate 16 0).drop (strn name 16).length = (nameField b).val := by
  have hle := length_strn_le name 16
  have hfield : (nameField b).val = (strn name 16 ++ List.replicate 16 0).take 16 := by rw [h]; rfl
  rw [hfield, List.drop_replicate, List.take_append, List.take_of_length_le hle, List.take_replicate,
    Nat.min_eq_left (Nat.sub_le ..)]

theorem ofMem_declareRespond {newAddress : UInt8} {n : Fin 8} {name : Mem UInt8} {b : Bytes}
    (hname : strn name 16 = cstr b) (m : ModuleState) :
    .ofMem (initializationDeclareRespond newAddress n name m.toMem) =
      { m with
        i2cAddressMods := Function.update m.i2cAddressMods n newAddress
        names := Function.update m.names n (nameField b)
        haskey := Function.update m.haskey n false } := by
  have hfield := val_nameField_of_strn hname
  rw [initializationDeclareRespond, strncpy_strnlen, Mem.copy_over, hfield, ModuleState.ofMem_copy_haskey,
    ModuleState.ofMem_copy_names, ModuleState.ofMem_copy_address, ModuleState.ofMem_toMem]

theorem strn_nameBuffer (message : Mem UInt8) (messageLength name : Nat) (stack : Mem UInt8) :
    strn (fun k => ((stack.copy name (List.replicate nameBufferLength 0)).copy name
        (strncpy message messageLength)) (name + k)) 16 =
      cstr (message.read 0 (min messageLength 16)) := by
  have hread : ∀ mem : Mem UInt8, strn (fun k => mem (name + k)) 16 = cstr (mem.read name 16) := fun mem => by
    simp only [strn, cstr, Mem.read, Nat.zero_add]
  have hlen := length_strncpy message messageLength
  rw [hread, Mem.copy_over, Mem.read_copy_take (by simp [hlen, nameBufferLength]; omega), cstr_take, hlen,
    List.drop_replicate, cstr_append_replicate, strncpy, cstr_append_replicate, Nat.min_comm,
    ← Mem.take_read, cstr_take]
  exact congrArg (List.take 16) (cstr_cstr _)

/-! ## What becomes of it -/

/-- Only the buffer for the name and what is in the module's slot are written, and in
the slot is as much of the name as a name can be long. -/
structure DeclaredSafely (c : Controller) (sourceAddress : UInt8) (messageLength : Nat) (message : Mem UInt8)
    (slot : Fin 8) : Prop where
  stack : ∀ name stack k, k < name ∨ name + nameBufferLength ≤ k →
    (c.declareInMemory sourceAddress messageLength message name stack).1 k = stack k
  table : ∀ name stack, ∃ address haskey, (c.declareInMemory sourceAddress messageLength message name stack).2 =
    { c.moduleInfo with
      i2cAddressMods := Function.update c.moduleInfo.i2cAddressMods slot address
      names := Function.update c.moduleInfo.names slot (nameField (message.read 0 (min messageLength 16)))
      haskey := Function.update c.moduleInfo.haskey slot haskey }

section
variable {c : Controller} {sourceAddress : UInt8} {messageLength name : Nat} {message stack : Mem UInt8} {i : Fin 7}

theorem declareInMemory_fst (hisolated : c.isolation.modIsolatedOut = some i) :
    (c.declareInMemory sourceAddress messageLength message name stack).1 =
      (stack.copy name (List.replicate nameBufferLength 0)).copy name (strncpy message messageLength) := by
  simp only [declareInMemory, hisolated]

theorem declareInMemory_snd (hisolated : c.isolation.modIsolatedOut = some i) :
    (c.declareInMemory sourceAddress messageLength message name stack).2 =
      { c.moduleInfo with
        i2cAddressMods :=
          Function.update c.moduleInfo.i2cAddressMods (slotOf i) (assignedAddress sourceAddress (slotOf i))
        names := Function.update c.moduleInfo.names (slotOf i) (nameField (message.read 0 (min messageLength 16)))
        haskey := Function.update c.moduleInfo.haskey (slotOf i) false } := by
  simp only [declareInMemory, hisolated]
  exact ofMem_declareRespond (strn_nameBuffer message messageLength name stack) c.moduleInfo

theorem nameField_read (message : Mem UInt8) (messageLength : Nat) :
    nameField (message.read 0 (min messageLength 16)) = declaredName (message.read 0 messageLength) := by
  refine Subtype.ext ?_
  rw [Nat.min_comm, ← Mem.take_read]
  simp only [nameField, declaredName, cstr_take]
  rw [List.take_append, List.take_append, List.take_take, Nat.min_self, List.length_take, List.take_replicate,
    List.take_replicate]
  congr 2
  simp only [cstr]
  omega

theorem declare_eq_declareInMemory (hle : messageLength ≤ nameBufferLength) (name : Nat) (stack : Mem UInt8) :
    c.declare sourceAddress (message.read 0 messageLength) =
      some { c with moduleInfo := (c.declareInMemory sourceAddress messageLength message name stack).2 } := by
  cases hisolated : c.isolation.modIsolatedOut with
  | none => simp only [declare, declareInMemory, hisolated]
  | some i =>
    rw [declareInMemory_snd hisolated, nameField_read]
    simp only [declare, hisolated, Mem.length_read]
    exact if_pos hle

/-- A declaration that is received while a module is isolated writes only where it
should exactly if its message is no longer than the buffer for the name. -/
theorem declared_safely_iff (hisolated : c.isolation.modIsolatedOut = some i) :
    DeclaredSafely c sourceAddress messageLength message (slotOf i) ↔ messageLength ≤ nameBufferLength := by
  have hlen := length_strncpy message messageLength
  constructor
  · intro h
    refine Nat.le_of_not_lt fun hlong => ?_
    have hlast : nameBufferLength < (strncpy message messageLength).length := by rwa [hlen]
    obtain ⟨byte, hbyte⟩ : ∃ byte, (strncpy message messageLength)[nameBufferLength] ≠ byte :=
      ⟨(strncpy message messageLength)[nameBufferLength] + 1, by simp⟩
    have hkept := h.stack 0 (fun _ => byte) nameBufferLength (.inr (by rw [Nat.zero_add]))
    have hwritten : ∀ mem : Mem UInt8, mem.copy 0 (strncpy message messageLength) nameBufferLength =
        (strncpy message messageLength)[nameBufferLength] := fun mem => by
      have hcell : mem.copy 0 _ (0 + nameBufferLength) = _ := Mem.copy_at (m := mem) hlast
      rwa [Nat.zero_add] at hcell
    rw [declareInMemory_fst hisolated, hwritten] at hkept
    exact hbyte hkept
  · intro hle
    refine ⟨fun name stack k hk => ?_, fun name stack => ⟨_, _, declareInMemory_snd hisolated⟩⟩
    rw [declareInMemory_fst hisolated, Mem.copy_outside (by rw [hlen]; omega),
      Mem.copy_outside (by rwa [List.length_replicate])]

end

section

/-- While the module at line `i` is isolated. -/
def isolatedController (i : Fin 7) : Controller :=
  let c := init zeroModuleInfo
  { c with isolation := { c.isolation with modIsolatedOut := some i } }

theorem declared_safely_iff_name :
    DeclaredSafely (isolatedController 0) 0x31 5 (.ofList (ofChars "audio") 0) 0 :=
  (declared_safely_iff (i := 0) rfl).mpr (by decide)

/-- A name of eighteen characters is written over the byte behind the buffer. -/
theorem declared_beyond :
    ((isolatedController 0).declareInMemory 0x31 18 (.ofList (ofChars "abcdefghijklmnopqr") 0) 0 fun _ => 0).1 17 =
        0x72 ∧
      ¬ DeclaredSafely (isolatedController 0) 0x31 18 (.ofList (ofChars "abcdefghijklmnopqr") 0) 0 := by
  have hwritten : ((isolatedController 0).declareInMemory 0x31 18 (.ofList (ofChars "abcdefghijklmnopqr") 0) 0
      fun _ => 0).1 17 = 0x72 := by decide
  refine ⟨hwritten, fun h => ?_⟩
  have hkept := h.stack 0 (fun _ => 0) 17 (.inr (by decide))
  rw [hwritten] at hkept
  cases hkept

end

end Signpost
