/-
The name a module gives itself in `signpost_init` and
`signpost_initialization_module_init`: the organisation's name, a slash and the
module's, in a field of sixteen bytes that is not cleared before.

What follows the field in memory is the table of the names of other modules.

Both strings are copied with `strncpy` into memory that is read as a whole
afterwards, so a name of more than fifteen bytes changes what is behind the
field. The name is right exactly if there is room for it and for the zero that
ends it.
-/
import Signpost.StateReply
import Signpost.Strings

namespace Signpost

open Lib Controller

/-! ## Building the name -/

namespace ModuleState

def toMem (m : ModuleState) : Mem UInt8 := .ofList m.bytes 0

theorem read_toMem (m : ModuleState) : m.toMem.read 0 440 = m.bytes := by
  rw [← length_bytes m]
  exact Mem.read_ofList m.bytes 0

theorem ofMem_toMem (m : ModuleState) : ofMem m.toMem = m := ofMem_of_read m.read_toMem

theorem read_selfName (m : ModuleState) : m.toMem.read 6 16 = m.selfName.val :=
  congrArg (fun m : ModuleState => m.selfName.val) m.ofMem_toMem

/-- What follows the module's own name in memory. -/
def nameTable (m : ModuleState) : Bytes := (List.finRange 8).flatMap fun i => (m.names i).val

end ModuleState

/-- Where `self_name` is in a `module_state_t`. -/
def selfNameOffset : Nat := 6

/-- The name is copied into `module_info`, which is in memory. -/
def buildSelfName (mem orgName moduleName : Mem UInt8) : Mem UInt8 :=
  let orgNameLen := strnlen orgName 16
  let moduleNameLen := strnlen moduleName 16
  let mem := mem.copy selfNameOffset (strncpy orgName orgNameLen)
  let mem := mem.copy (selfNameOffset + orgNameLen) [0x2F]
  mem.copy (selfNameOffset + orgNameLen + 1) (strncpy moduleName moduleNameLen)

/-- `signpost_initialization_module_init` up to the receive that it begins, with what
`signpost_entropy_init` returns: `module_info`, and a code if it returns there. -/
def signpostInitializationModuleInit (orgName moduleName : Mem UInt8) (i2cAddress : UInt8) (entropy : Int)
    (moduleInfo : ModuleState) : ModuleState × Option Int :=
  if entropy < 0 then (moduleInfo, some entropy)
  else
    let moduleInfo := { moduleInfo.common with i2cAddress }
    if strnlen orgName 16 ≤ 0 then (moduleInfo, some portEinval)
    else if strnlen moduleName 16 ≤ 0 then (moduleInfo, some portEinval)
    else (.ofMem (buildSelfName moduleInfo.toMem orgName moduleName), none)

/-- `signpost_init`, up to there. It implements no APIs. -/
def signpostInit (orgName moduleName : Mem UInt8) (entropy : Int) (moduleInfo : ModuleState) :
    ModuleState × Option Int :=
  signpostInitializationModuleInit orgName moduleName 0x00 entropy moduleInfo

/-! ## What is written -/

/-- The bytes that the three copies write, one behind the other. -/
def writtenName (orgName moduleName : Bytes) : Bytes := (cstr orgName).take 16 ++ 0x2F :: (cstr moduleName).take 16

def fullName (orgName moduleName : Bytes) : Bytes := cstr orgName ++ 0x2F :: cstr moduleName

section
variable (orgName moduleName : Bytes)

theorem buildSelfName_eq (mem : Mem UInt8) :
    buildSelfName mem (.ofList orgName 0) (.ofList moduleName 0) = mem.copy 6 (writtenName orgName moduleName) := by
  have hnext : 6 + ((cstr orgName).take 16).length + 1 = 6 + ((cstr orgName).take 16 ++ [0x2F]).length := by
    rw [List.length_append, List.length_singleton, Nat.add_assoc]
  simp only [buildSelfName, strncpy_strnlen]
  simp only [strnlen, strn_ofList, selfNameOffset]
  rw [Mem.copy_append, hnext, Mem.copy_append, List.append_assoc, List.singleton_append]
  rfl

theorem length_writtenName_le : (writtenName orgName moduleName).length ≤ 33 := by
  simp only [writtenName, List.length_append, List.length_cons, List.length_take]
  omega

theorem zero_notMem_writtenName : 0 ∉ writtenName orgName moduleName := by
  have horg : 0 ∉ (cstr orgName).take 16 := fun h => zero_notMem_cstr orgName (List.mem_of_mem_take h)
  have hmodule : 0 ∉ (cstr moduleName).take 16 := fun h => zero_notMem_cstr moduleName (List.mem_of_mem_take h)
  simp [writtenName, horg, hmodule]

theorem take_writtenName : (writtenName orgName moduleName).take 16 = (fullName orgName moduleName).take 16 := by
  rw [writtenName, fullName, List.take_append, List.take_append, List.take_take, Nat.min_self, List.length_take]
  congr 1
  rcases Nat.le_total 16 (cstr orgName).length with hle | hle
  · rw [Nat.min_eq_left hle, Nat.sub_eq_zero_of_le hle, Nat.sub_self, List.take_zero, List.take_zero]
  · rw [Nat.min_eq_right hle]
    obtain ⟨k, hk⟩ : ∃ k, 16 - (cstr orgName).length = k := ⟨_, rfl⟩
    rw [hk]
    cases k with
    | zero => rfl
    | succ k => rw [List.take_succ_cons, List.take_succ_cons, List.take_take, Nat.min_eq_left (by omega)]

end

/-! ## What becomes of it -/

/-- The name is what it should be, as far as it fits, and nothing else is changed. -/
structure NameBuilt (orgName moduleName : Bytes) (before after : ModuleState) : Prop where
  selfName : cstr after.selfName.val = (fullName orgName moduleName).take 16
  frame : after = { before with selfName := after.selfName }

/-- Behind what is written in the field nothing is left of a longer name, and what is
written behind the field is there already. -/
structure Room (orgName moduleName : Bytes) (moduleInfo : ModuleState) : Prop where
  field : cstr (moduleInfo.selfName.val.drop (writtenName orgName moduleName).length) = []
  table : moduleInfo.nameTable.take ((writtenName orgName moduleName).length - 16) =
    (writtenName orgName moduleName).drop 16

section
variable {orgName moduleName : Bytes} {m : ModuleState} {written : Bytes}

theorem selfName_copy (m : ModuleState) (written : Bytes) :
    (ModuleState.ofMem (m.toMem.copy 6 written)).selfName.val =
      written.take 16 ++ m.selfName.val.drop written.length := by
  show (m.toMem.copy 6 written).read 6 16 = _
  rw [← m.read_selfName]
  rcases Nat.le_total 16 written.length with hle | hle
  · rw [Mem.read_copy_take hle, List.drop_eq_nil_of_le (by simpa using hle), List.append_nil]
  · obtain ⟨k, hk⟩ := Nat.exists_eq_add_of_le hle
    rw [Mem.drop_read hle, List.take_of_length_le hle, hk, Nat.add_sub_cancel_left, Mem.read_add, Mem.read_copy,
      Mem.read_copy_disjoint (.inr (Nat.le_refl _))]

theorem read_nameTable (m : ModuleState) : m.toMem.read 22 128 = m.nameTable := by
  obtain ⟨after, hafter⟩ : ∃ after, m.bytes =
      (le32 m.magic ++ ([m.selfModNum, m.i2cAddress] ++ m.selfName.val)) ++ (m.nameTable ++ after) :=
    ⟨_, by simp only [ModuleState.bytes, ModuleState.publicBytes, ModuleState.nameTable, List.append_assoc]; rfl⟩
  have hread : m.toMem.read 0 m.bytes.length = m.bytes := Mem.read_ofList m.bytes 0
  rw [hafter] at hread
  have hpart := Mem.read_part hread
  have hlen : (le32 m.magic ++ ([m.selfModNum, m.i2cAddress] ++ m.selfName.val)).length = 22 := by
    simp [le32, le16]
  have htable : m.nameTable.length = 128 := by simp [ModuleState.nameTable, List.length_flatMap]
  rwa [hlen, htable] at hpart

theorem names_eq_iff (mem mem' : Mem UInt8) :
    (ModuleState.ofMem mem).names = (ModuleState.ofMem mem').names ↔ mem.read 22 128 = mem'.read 22 128 := by
  rw [Mem.read_eq_iff]
  constructor
  · intro h k hk
    have hname := congrArg Subtype.val (congrFun h ⟨k / 16, by omega⟩)
    have hcell := Mem.read_eq_iff.mp hname (k % 16) (Nat.mod_lt _ (by decide))
    have hk' : 22 + 16 * (k / 16) + k % 16 = 22 + k := by omega
    simpa only [hk'] using hcell
  · intro h
    funext i
    refine Subtype.ext (Mem.read_eq_iff.mpr fun j hj => ?_)
    have hcell := h (16 * i + j) (by omega)
    rwa [← Nat.add_assoc] at hcell

theorem names_copy_iff (m : ModuleState) (hlen : written.length ≤ 144) :
    (ModuleState.ofMem (m.toMem.copy 6 written)).names = m.names ↔
      m.nameTable.take (written.length - 16) = written.drop 16 := by
  have hself : m.names = (ModuleState.ofMem m.toMem).names := by rw [ModuleState.ofMem_toMem]
  rw [hself, names_eq_iff, ← read_nameTable]
  rcases Nat.le_total written.length 16 with hle | hle
  · rw [Nat.sub_eq_zero_of_le hle, List.take_zero, List.drop_eq_nil_of_le hle,
      Mem.read_copy_disjoint (.inr (by omega))]
    exact iff_of_true rfl rfl
  · have hfield : (written.take 16).length = 16 := List.length_take_of_le hle
    have hcopy := Mem.copy_append m.toMem 6 (written.take 16) (written.drop 16)
    have hkept : ∀ n, (m.toMem.copy 6 (written.take 16)).read 22 n = m.toMem.read 22 n :=
      fun n => Mem.read_copy_disjoint (.inr (by rw [hfield]))
    rw [hfield, List.take_append_drop] at hcopy
    rw [← hcopy, ← hkept 128, Mem.read_copy_eq_iff (by rw [List.length_drop]; omega), hkept, hkept, List.length_drop,
      Mem.take_read, Nat.min_eq_left (by omega)]

theorem ofMem_copy (m : ModuleState) (hlen : written.length ≤ 144) {after : ModuleState}
    (hafter : after = .ofMem (m.toMem.copy 6 written)) :
    after = { m with selfName := after.selfName, names := after.names } := by
  have hm := m.ofMem_toMem
  conv => rhs; rw [← hm]
  rw [hafter]
  simp (disch := omega) only [ModuleState.ofMem, u32, Mem.copy_outside, Mem.read_copy_disjoint]

/-- The name is what it should be, and nothing else is changed, exactly if there is room. -/
theorem nameBuilt_iff (orgName moduleName : Bytes) (m : ModuleState) :
    NameBuilt orgName moduleName m
        (.ofMem (buildSelfName m.toMem (.ofList orgName 0) (.ofList moduleName 0))) ↔
      Room orgName moduleName m := by
  have hlen : (writtenName orgName moduleName).length ≤ 144 :=
    Nat.le_trans (length_writtenName_le orgName moduleName) (by decide)
  obtain ⟨after, hafter⟩ : ∃ after, after = ModuleState.ofMem (m.toMem.copy 6 (writtenName orgName moduleName)) :=
    ⟨_, rfl⟩
  have hzero : 0 ∉ (writtenName orgName moduleName).take 16 :=
    fun h => zero_notMem_writtenName orgName moduleName (List.mem_of_mem_take h)
  have hname : cstr after.selfName.val = (fullName orgName moduleName).take 16 ↔
      cstr (m.selfName.val.drop (writtenName orgName moduleName).length) = [] := by
    rw [hafter, selfName_copy, cstr_append hzero, ← take_writtenName, List.append_right_eq_self]
  have hnames := names_copy_iff m hlen
  have hframe := ofMem_copy m hlen hafter
  rw [← hafter] at hnames
  rw [buildSelfName_eq, ← hafter]
  constructor
  · intro h
    exact ⟨hname.mp h.selfName, hnames.mp ((congrArg ModuleState.names h.frame).trans rfl)⟩
  · intro h
    refine ⟨hname.mpr h.field, hframe.trans ?_⟩
    rw [hnames.mpr h.table]

end

/-- Where `signpost_init` or `signpost_initialization_module_init` accepts its names,
the module's own name is built, and nothing else of `module_info` is changed by that,
exactly if there is room for it. -/
theorem selfName_built_iff {orgName moduleName : Bytes} {i2cAddress : UInt8} {entropy : Int}
    {moduleInfo after : ModuleState}
    (haccepted : signpostInitializationModuleInit (.ofList orgName 0) (.ofList moduleName 0) i2cAddress entropy
      moduleInfo = (after, none)) :
    NameBuilt orgName moduleName { moduleInfo.common with i2cAddress } after ↔ Room orgName moduleName moduleInfo := by
  unfold signpostInitializationModuleInit at haccepted
  split_ifs at haccepted
  · cases haccepted
  · cases haccepted
  · cases haccepted
  · obtain ⟨rfl, -⟩ := Prod.mk.inj haccepted
    rw [nameBuilt_iff]
    exact ⟨fun h => ⟨h.field, h.table⟩, fun h => ⟨h.field, h.table⟩⟩

section

/-- Names of five and seven characters. -/
theorem selfName_built_iff_short : ∃ after,
    signpostInit (.ofList (ofChars "lab11") 0) (.ofList (ofChars "ambient") 0) 0 zeroModuleInfo = (after, none) ∧
      (NameBuilt (ofChars "lab11") (ofChars "ambient") { zeroModuleInfo.common with i2cAddress := 0 } after ↔
        Room (ofChars "lab11") (ofChars "ambient") zeroModuleInfo) := by
  have haccepted : signpostInitializationModuleInit (.ofList (ofChars "lab11") 0) (.ofList (ofChars "ambient") 0) 0 0
      zeroModuleInfo = (_, none) := rfl
  exact ⟨_, haccepted, selfName_built_iff haccepted⟩

/-- With two names of eight characters, as many as are documented, the name of the
module in the first slot begins with the last of them. -/
theorem selfName_overflows : ∃ after,
    signpostInit (.ofList (ofChars "signpost") 0) (.ofList (ofChars "repeater") 0) 0 zeroModuleInfo = (after, none) ∧
      (zeroModuleInfo.names 0).val.head? = some 0 ∧ (after.names 0).val.head? = some 0x72 ∧
      ¬ NameBuilt (ofChars "signpost") (ofChars "repeater") { zeroModuleInfo.common with i2cAddress := 0 } after := by
  refine ⟨_, rfl, by decide, by decide, fun h => ?_⟩
  have hname := congrArg (fun m : ModuleState => (m.names 0).val.head?) h.frame
  exact absurd hname (by decide)

end

end Signpost
