/-
The controller's table of registered modules: what `module_info` is after
`signpost_initialization_controller_module_init`, what declarations make of it,
and how addresses are looked up in it.

The lookup finds the first slot that has an address. That it is the right one is
an invariant of the runs in which no module declares itself with the address of
another slot; one that does is taken for that slot.
-/
import Signpost.ControllerSteps

namespace Signpost

open Lib

/-! ## The table at the start -/

theorem length_clearedKey : (List.replicate 32 (0 : UInt8)).length = 32 := rfl

def clearedKey : Key := ⟨List.replicate 32 0, length_clearedKey⟩

/-- Only the controller and the storage master have an address that is known. -/
def knownAddress (i : Fin 8) : UInt8 :=
  if i.val = 3 then moduleAddressController else if i.val = 4 then moduleAddressStorage else 0xff

/-- What `signpost_initialization_common` makes of `module_info`: there are no
keys, and no addresses but those that are known. -/
def ModuleState.common (m : ModuleState) : ModuleState :=
  { m with
    magic := 0xDEADBEEF
    i2cAddressMods := knownAddress
    haskey := fun _ => false
    keys := fun _ => clearedKey }

namespace Controller

/-- `module_info` after `signpost_initialization_controller_module_init`. -/
def controllerModuleInfo (m : ModuleState) : ModuleState :=
  { m.common with
    i2cAddress := moduleAddressController
    selfName := Name.strncpy ⟨ofChars "signpost/control", rfl⟩ }

/-! ## Steps -/

section
variable {c c' : Controller}

theorem moduleInfo_checkWatchdogs (js : List (Fin 8)) : (checkWatchdogs js c).moduleInfo = c.moduleInfo := by
  induction js generalizing c with
  | nil => rfl
  | cons j rest ih =>
    rw [checkWatchdogs]
    split
    · split
      · rfl
      · exact ih
    · exact ih

theorem moduleInfo_watchdogMessage (moduleNum : Option (Fin 8)) (messageType : UInt8) (replied : Bool) :
    (c.watchdogMessage moduleNum messageType replied).moduleInfo = c.moduleInfo := by
  cases moduleNum with
  | none => rfl
  | some m =>
    simp only [watchdogMessage]
    split_ifs <;> rfl

theorem moduleInfo_moduleCommand (m : Fin 8) (remaining : Int) (command : DownlinkCommand) :
    (c.moduleCommand m remaining command).1.moduleInfo = c.moduleInfo := by
  cases command with
  | off => rfl
  | on | reset =>
    simp only [moduleCommand]
    split_ifs <;> rfl

theorem moduleInfo_downlink (topic data : Bytes) (remaining : Int) :
    (c.downlink topic data remaining).1.moduleInfo = c.moduleInfo := by
  unfold downlink
  split
  · rfl
  · split
    · exact moduleInfo_moduleCommand ..
    · split_ifs <;> rfl

theorem moduleInfo_checkModuleInit (lines later : Fin 7 → Bool) :
    (c.checkModuleInit lines later).1.moduleInfo = c.moduleInfo := by
  unfold checkModuleInit
  split
  · rfl
  · unfold runCheck
    split
    · split <;> rfl
    · simp only
      split_ifs <;> rfl

theorem moduleInfo_dutyCycleTimer (m : Fin 8) (remaining : Int) :
    (c.dutyCycleTimer m remaining).1.moduleInfo = c.moduleInfo := by
  unfold dutyCycleTimer
  split_ifs <;> rfl

/-- A message that declares the module that is isolated. -/
def Declares (msg : ApiMessage) : Prop :=
  msg.apiType = initializationApiType ∧ msg.frameType = commandFrame ∧ msg.messageType = 0

instance : DecidablePred Declares := fun _ => instDecidableAnd

theorem moduleInfo_of_fst {r : Controller × List Action} {o : List Action}
    (hr : r.1.moduleInfo = c.moduleInfo) (h : r = (c', o)) : c'.moduleInfo = c.moduleInfo := by
  rw [← hr, h]

theorem moduleInfo_of_step {e : Event} {o : List Action} (h : c.step e = some (c', o)) :
    c'.moduleInfo = c.moduleInfo ∨
      ∃ msg replied, e = .message msg replied ∧ Declares msg ∧
        c.declare msg.sourceAddress msg.message = some c' := by
  cases e with
  | message msg replied =>
    obtain ⟨c'', hreceive, heq⟩ := Option.map_eq_some_iff.mp h
    cases heq
    unfold receive at hreceive
    split_ifs at hreceive with hdeclare
    · exact .inr ⟨msg, replied, rfl, hdeclare, hreceive⟩
    · obtain ⟨m, -, rfl⟩ := Option.map_eq_some_iff.mp hreceive
      exact .inl rfl
    · cases hreceive
      exact .inl (moduleInfo_watchdogMessage ..)
    · cases hreceive
      exact .inl rfl
  | downlink topic data remaining =>
    exact .inl (moduleInfo_of_fst (moduleInfo_downlink topic data remaining) (Option.some.inj h))
  | checkModuleInit lines later =>
    exact .inl (moduleInfo_of_fst (moduleInfo_checkModuleInit lines later) (Option.some.inj h))
  | dutyCycleTimer timer remaining =>
    obtain ⟨m, -, heq⟩ := Option.map_eq_some_iff.mp h
    exact .inl ((moduleInfo_of_fst (moduleInfo_dutyCycleTimer m remaining) heq).trans rfl)
  | checkWatchdogs =>
    cases Option.some.inj h
    exact .inl (moduleInfo_checkWatchdogs _)
  | updateEnergyPolicy remaining =>
    cases Option.some.inj h
    exact .inl rfl
  | resume later =>
    simp only [step] at h
    split at h
    · cases h
    · next stage stack _ =>
      cases stage with
      | granting =>
        cases Option.some.inj h
        exact .inl rfl
      | powerCycling =>
        obtain ⟨i, -, heq⟩ := Option.map_eq_some_iff.mp h
        cases heq
        exact .inl rfl
      | watchdogReset j rest =>
        cases Option.some.inj h
        exact .inl (moduleInfo_checkWatchdogs rest)
      | downlinkReset m =>
        cases Option.some.inj h
        exact .inl rfl

end

/-! ## One address for each slot -/

/-- The address that a module gets in a slot. -/
def assignedAddress (source : UInt8) (slot : Fin 8) : UInt8 :=
  if source = 0 then UInt8.ofNat (0x10 + slot) else source

/-- No two slots have the same address, but that 0xff is none. -/
def AddressesUnique (m : ModuleState) : Prop :=
  ∀ s t, m.i2cAddressMods s = m.i2cAddressMods t → s = t ∨ m.i2cAddressMods s = 0xff

/-- A module is not declared with an address of another slot. -/
def AddressFree (c : Controller) : Event → Prop
  | .message msg _ =>
    Declares msg → ∀ i ∈ c.isolation.modIsolatedOut, ∀ t, t ≠ slotOf i →
      c.moduleInfo.i2cAddressMods t = assignedAddress msg.sourceAddress (slotOf i) →
        assignedAddress msg.sourceAddress (slotOf i) = 0xff
  | _ => True

theorem addressesUnique_controllerModuleInfo (m : ModuleState) :
    AddressesUnique (controllerModuleInfo m) := by
  change ∀ s t, knownAddress s = knownAddress t → s = t ∨ knownAddress s = 0xff
  decide

section
variable {c c' : Controller}

theorem declare_cases {source : UInt8} {message : Bytes} (h : c.declare source message = some c') :
    c'.moduleInfo = c.moduleInfo ∨ ∃ i ∈ c.isolation.modIsolatedOut,
      c'.moduleInfo.i2cAddressMods =
        Function.update c.moduleInfo.i2cAddressMods (slotOf i) (assignedAddress source (slotOf i)) := by
  unfold declare at h
  split at h
  · cases h
    exact .inl rfl
  · next i hi =>
    by_cases hlength : message.length ≤ 17
    · rw [if_pos hlength] at h
      cases h
      exact .inr ⟨i, hi, rfl⟩
    · rw [if_neg hlength] at h
      cases h

theorem AddressesUnique.update {m m' : ModuleState} (h : AddressesUnique m) {slot : Fin 8} {a : UInt8}
    (hm : m'.i2cAddressMods = Function.update m.i2cAddressMods slot a)
    (hfree : ∀ t, t ≠ slot → m.i2cAddressMods t = a → a = 0xff) : AddressesUnique m' := by
  intro s t hst
  rw [hm] at hst ⊢
  by_cases hs : s = slot
  · subst hs
    by_cases ht : t = s
    · exact .inl ht.symm
    · rw [Function.update_self, Function.update_of_ne ht] at hst
      rw [Function.update_self]
      exact .inr (hfree t ht hst.symm)
  · by_cases ht : t = slot
    · subst ht
      rw [Function.update_self, Function.update_of_ne hs] at hst
      rw [Function.update_of_ne hs, hst]
      exact .inr (hfree s hs hst)
    · rw [Function.update_of_ne hs, Function.update_of_ne ht] at hst
      rw [Function.update_of_ne hs]
      exact h s t hst

theorem AddressesUnique.step {e : Event} {o : List Action} (h : AddressesUnique c.moduleInfo)
    (hstep : c.step e = some (c', o)) (hfree : AddressFree c e) : AddressesUnique c'.moduleInfo := by
  rcases moduleInfo_of_step hstep with heq | ⟨msg, replied, rfl, hdeclares, hdeclare⟩
  · rwa [heq]
  · rcases declare_cases hdeclare with heq | ⟨i, hi, hupdate⟩
    · rwa [heq]
    · exact h.update hupdate (hfree hdeclares i hi)

end

theorem addrToModNum_of_alone {m : ModuleState} {s : Fin 8}
    (h : ∀ t, t ≠ s → m.i2cAddressMods t ≠ m.i2cAddressMods s) : addrToModNum m (m.i2cAddressMods s) = some s := by
  unfold addrToModNum
  have hsome : ((List.finRange 8).find? fun i => m.i2cAddressMods s = m.i2cAddressMods i).isSome :=
    List.find?_isSome.mpr ⟨s, List.mem_finRange s, decide_eq_true rfl⟩
  obtain ⟨t, ht⟩ := Option.isSome_iff_exists.mp hsome
  have heq : m.i2cAddressMods s = m.i2cAddressMods t := by simpa using List.find?_some ht
  obtain rfl : t = s := by
    by_contra hne
    exact h t hne heq.symm
  exact ht

theorem AddressesUnique.alone {m : ModuleState} (h : AddressesUnique m) {s : Fin 8} (hs : m.i2cAddressMods s ≠ 0xff)
    (t : Fin 8) (hne : t ≠ s) : m.i2cAddressMods t ≠ m.i2cAddressMods s := by
  intro heq
  rcases h s t heq.symm with hst | hnone
  · exact hne hst.symm
  · exact hs hnone

/-- While no module is declared with an address of another slot, every module is
found under its address. -/
theorem registered_found {m : ModuleState} {es : List Event} {c : Controller} {os : List Action}
    (h : Run (fun c e c' o => c.step e = some (c', o) ∧ AddressFree c e) (init (controllerModuleInfo m)) es c os) :
    AddressesUnique c.moduleInfo ∧
      ∀ s, c.moduleInfo.i2cAddressMods s ≠ 0xff →
        addrToModNum c.moduleInfo (c.moduleInfo.i2cAddressMods s) = some s := by
  have hkeep : ∀ {c : Controller} {e : Event} {c' : Controller} {o : List Action},
      AddressesUnique c.moduleInfo → c.step e = some (c', o) ∧ AddressFree c e → AddressesUnique c'.moduleInfo :=
    fun hinv hstep => hinv.step hstep.1 hstep.2
  have hstart : AddressesUnique (init (controllerModuleInfo m)).moduleInfo :=
    addressesUnique_controllerModuleInfo m
  have hunique := h.invariant @hkeep hstart
  exact ⟨hunique, fun s hs => addrToModNum_of_alone (hunique.alone hs)⟩

section

instance (c : Controller) : DecidablePred (AddressFree c)
  | .message msg _ =>
    inferInstanceAs (Decidable (Declares msg → ∀ i ∈ c.isolation.modIsolatedOut, ∀ t, t ≠ slotOf i →
      c.moduleInfo.i2cAddressMods t = assignedAddress msg.sourceAddress (slotOf i) →
        assignedAddress msg.sourceAddress (slotOf i) = 0xff))
  | .downlink .. => instDecidableTrue
  | .checkModuleInit .. => instDecidableTrue
  | .dutyCycleTimer .. => instDecidableTrue
  | .checkWatchdogs => instDecidableTrue
  | .updateEnergyPolicy _ => instDecidableTrue
  | .resume _ => instDecidableTrue

/-- All is zero before the first `init`. -/
def zeroModuleInfo : ModuleState := (ModuleState.ofMem fun _ => 0)

/-- The module at line `i` is granted isolation and declares itself from an
address, and isolation ends. -/
def sampleDeclaration (i : Fin 7) (source : UInt8) : List Event :=
  [.checkModuleInit (· ≠ i) (· ≠ i), .resume (· ≠ i),
    .message ⟨source, commandFrame, initializationApiType, 0, ofChars "a"⟩ true,
    .checkModuleInit (fun _ => true) fun _ => true]

/-- Two modules are declared, one with an address that it has and one without. -/
theorem registered_found_two : ∃ c os,
    Run (fun c e c' o => c.step e = some (c', o) ∧ AddressFree c e) (init (controllerModuleInfo zeroModuleInfo))
      (sampleDeclaration 0 0x31 ++ sampleDeclaration 1 0) c os ∧
    c.moduleInfo.i2cAddressMods 0 = 0x31 ∧
    addrToModNum c.moduleInfo (c.moduleInfo.i2cAddressMods 0) = some 0 := by
  have hexec : (Run.exec (fun (c : Controller) e => if AddressFree c e then c.step e else none)
      (init (controllerModuleInfo zeroModuleInfo)) (sampleDeclaration 0 0x31 ++ sampleDeclaration 1 0)).map
      (fun r => r.1.moduleInfo.i2cAddressMods 0) = some 0x31 := by decide +kernel
  obtain ⟨⟨c, os⟩, hexec, haddr⟩ := Option.map_eq_some_iff.mp hexec
  have hrun := Run.of_exec_guard hexec
  exact ⟨c, os, hrun, haddr, (registered_found hrun).2 0 (by rw [haddr]; decide)⟩

/-- A module takes the address of another: it is looked up for the other. -/
theorem address_taken : ∃ c os,
    Run (fun c e c' o => c.step e = some (c', o)) (init (controllerModuleInfo zeroModuleInfo))
      (sampleDeclaration 0 0x31 ++ sampleDeclaration 1 0x31) c os ∧
    c.moduleInfo.i2cAddressMods 0 = 0x31 ∧ c.moduleInfo.i2cAddressMods 1 = 0x31 ∧
    addrToModNum c.moduleInfo (c.moduleInfo.i2cAddressMods 1) = some 0 := by
  have hexec : (Run.exec (fun (c : Controller) e => c.step e) (init (controllerModuleInfo zeroModuleInfo))
      (sampleDeclaration 0 0x31 ++ sampleDeclaration 1 0x31)).map
      (fun r => (r.1.moduleInfo.i2cAddressMods 0, r.1.moduleInfo.i2cAddressMods 1,
        addrToModNum r.1.moduleInfo (r.1.moduleInfo.i2cAddressMods 1))) = some (0x31, 0x31, some 0) := by
    decide +kernel
  obtain ⟨⟨c, os⟩, hexec, heq⟩ := Option.map_eq_some_iff.mp hexec
  obtain ⟨hfirst, heq⟩ := Prod.mk.inj heq
  exact ⟨c, os, Run.of_exec hexec, hfirst, (Prod.mk.inj heq).1, (Prod.mk.inj heq).2⟩

end

end Controller

end Signpost
