/-
`signpost_initialization_key_exchange_respond`: the secret is computed into the table of keys, and
the reply is sent before the module is known to have a key.

It can fail at each of its calls, and the result says after which of them the table is as it was:
before the secret is computed all is well, and from there on only for a module that has no key yet,
or the same one.
-/
import Signpost.App
import Signpost.Controller
import Mathlib.Logic.Function.Basic

namespace Signpost

open Lib

def initializationKeyExchange : UInt8 := 1

/-- What the ECDH functions do with the parameters of a module: what they return, the public value that is
made, and what is left of a key that the secret is computed into. -/
structure Ecdh where
  groupLoad : Int
  readParams : Int
  makePublic : Int × Bytes
  calcSecret : Key → Int × Key

/-- What is left of `module_info`, what is returned, and `module_info` while the reply is sent. -/
structure KeyExchange where
  moduleInfo : ModuleState
  ret : Int
  sending : Option ModuleState

/-- The slot of this module has this key. -/
def ModuleState.setKey (m : ModuleState) (i : Fin 8) (key : Key) : ModuleState :=
  { m with keys := Function.update m.keys i key }

def ModuleState.setHaskey (m : ModuleState) (i : Fin 8) : ModuleState :=
  { m with haskey := Function.update m.haskey i true }

section
variable (mb : Mbedtls) (rand : Int × Iv) (write : MasterWrite) (d : Device) (ecdh : Ecdh) (moduleInfo : ModuleState)
  (sourceAddress : UInt8)

/-- What the send of the reply returns, with this `module_info`. -/
def sendKeyExchange : Int :=
  (signbusAppSend mb rand write d sourceAddress (signpostApiAddrToKey moduleInfo) responseFrame initializationApiType
    initializationKeyExchange (UInt32.ofNat ecdh.makePublic.2.length) (.ofList ecdh.makePublic.2 0)).rc

def initializationKeyExchangeRespond : KeyExchange :=
  if ecdh.groupLoad < portSuccess then ⟨moduleInfo, ecdh.groupLoad, none⟩
  else if ecdh.readParams < portSuccess then ⟨moduleInfo, ecdh.readParams, none⟩
  else if ecdh.makePublic.1 < portSuccess then ⟨moduleInfo, ecdh.makePublic.1, none⟩
  else
    match Controller.addrToModNum moduleInfo sourceAddress with
    | none => ⟨moduleInfo, portFail, none⟩
    | some i =>
      let (ret, key) := ecdh.calcSecret (moduleInfo.keys i)
      let moduleInfo := moduleInfo.setKey i key
      if ret < portSuccess then ⟨moduleInfo, ret, none⟩
      else
        let ret := sendKeyExchange mb rand write d ecdh moduleInfo sourceAddress
        ⟨moduleInfo.setHaskey i, ret, some moduleInfo⟩

end

/-- An error leaves every key that is used as it was; and a success changes only the slot of the module, and
its reply is sent with the keys as they were. -/
structure KeyExchange.Atomic (r : KeyExchange) (before : ModuleState) (sourceAddress : UInt8) : Prop where
  error : r.ret < portSuccess →
    r.moduleInfo.haskey = before.haskey ∧ signpostApiAddrToKey r.moduleInfo = signpostApiAddrToKey before
  success : portSuccess ≤ r.ret → ∃ i key, Controller.addrToModNum before sourceAddress = some i ∧
    r.moduleInfo = (before.setKey i key).setHaskey i ∧
    ∃ sending, r.sending = some sending ∧ signpostApiAddrToKey sending = signpostApiAddrToKey before

/-- The exchange fails before it touches the table; or the module has the same key already; or it has none, and
what is left to do succeeds, or fails before the reply is sent. -/
def Exchangeable (mb : Mbedtls) (rand : Int × Iv) (write : MasterWrite) (d : Device) (ecdh : Ecdh)
    (moduleInfo : ModuleState) (sourceAddress : UInt8) : Prop :=
  ecdh.groupLoad < portSuccess ∨ ecdh.readParams < portSuccess ∨ ecdh.makePublic.1 < portSuccess ∨
    ∀ i, Controller.addrToModNum moduleInfo sourceAddress = some i →
      if moduleInfo.haskey i then (ecdh.calcSecret (moduleInfo.keys i)).2 = moduleInfo.keys i
      else (ecdh.calcSecret (moduleInfo.keys i)).1 < portSuccess ∨
        portSuccess ≤ sendKeyExchange mb rand write d ecdh moduleInfo sourceAddress

section
variable {mb : Mbedtls} {rand : Int × Iv} {write : MasterWrite} {d : Device} {ecdh : Ecdh} {moduleInfo : ModuleState}
  {sourceAddress : UInt8} {i : Fin 8} {key : Key}

theorem signpostApiAddrToKey_setKey (h : moduleInfo.haskey i = true → key = moduleInfo.keys i) :
    signpostApiAddrToKey (moduleInfo.setKey i key) = signpostApiAddrToKey moduleInfo := by
  funext addr
  refine congrArg (fun slot => (List.finRange 8).findSome? slot) (funext fun j => ?_)
  by_cases hj : j = i
  · subst hj
    cases hhaskey : moduleInfo.haskey j with
    | false => simp [ModuleState.setKey, hhaskey]
    | true => simp [ModuleState.setKey, hhaskey, h hhaskey]
  · rw [ModuleState.setKey]
    simp only [Function.update_of_ne hj]

theorem signpostApiAddrToKey_addrToModNum (h : Controller.addrToModNum moduleInfo sourceAddress = some i)
    (hkey : moduleInfo.haskey i = true) : signpostApiAddrToKey moduleInfo sourceAddress = some (moduleInfo.keys i) := by
  obtain ⟨hi, before, after, hslots, hbefore⟩ := List.find?_eq_some_iff_append.mp h
  have hnone : before.findSome? (fun j => if sourceAddress = moduleInfo.i2cAddressMods j && moduleInfo.haskey j then
      some (moduleInfo.keys j) else none) = none := by
    rw [List.findSome?_eq_none_iff]
    intro j hj
    simp [of_decide_eq_false (Bool.not_eq_true' _ |>.mp (hbefore j hj))]
  rw [signpostApiAddrToKey, hslots, List.findSome?_append, hnone, Option.none_or, List.findSome?_cons_of_isSome]
  · simp [of_decide_eq_true hi, hkey]
  · simp [of_decide_eq_true hi, hkey]

theorem eq_of_signpostApiAddrToKey_setKey (h : Controller.addrToModNum moduleInfo sourceAddress = some i)
    (hkey : moduleInfo.haskey i = true)
    (heq : signpostApiAddrToKey (moduleInfo.setKey i key) = signpostApiAddrToKey moduleInfo) :
    key = moduleInfo.keys i := by
  have hslot : Controller.addrToModNum (moduleInfo.setKey i key) sourceAddress = some i := h
  have hset := signpostApiAddrToKey_addrToModNum hslot hkey
  rw [heq, signpostApiAddrToKey_addrToModNum h hkey] at hset
  have hkeys := Option.some.inj hset
  simpa [ModuleState.setKey] using hkeys.symm

theorem KeyExchange.Atomic.unchanged {ret : Int} (hret : ret < portSuccess) :
    (⟨moduleInfo, ret, none⟩ : KeyExchange).Atomic moduleInfo sourceAddress where
  error _ := ⟨rfl, rfl⟩
  success h := absurd hret (Int.not_lt.mpr h)

theorem atomic_failed {ret : Int} (hslot : Controller.addrToModNum moduleInfo sourceAddress = some i)
    (hret : ret < portSuccess) : (⟨moduleInfo.setKey i key, ret, none⟩ : KeyExchange).Atomic moduleInfo sourceAddress ↔
      (moduleInfo.haskey i = true → key = moduleInfo.keys i) := by
  constructor
  · intro h hkey
    exact eq_of_signpostApiAddrToKey_setKey hslot hkey (h.error hret).2
  · intro h
    exact ⟨fun _ => ⟨rfl, signpostApiAddrToKey_setKey h⟩, fun hsuccess => absurd hret (Int.not_lt.mpr hsuccess)⟩

theorem setHaskey_of_haskey {m : ModuleState} (h : m.haskey i = true) : m.setHaskey i = m := by
  rw [ModuleState.setHaskey, ← h, Function.update_eq_self]

theorem atomic_sent {sent : Int} (hslot : Controller.addrToModNum moduleInfo sourceAddress = some i) :
    (⟨(moduleInfo.setKey i key).setHaskey i, sent, some (moduleInfo.setKey i key)⟩ : KeyExchange).Atomic moduleInfo
      sourceAddress ↔ if moduleInfo.haskey i then key = moduleInfo.keys i else portSuccess ≤ sent := by
  have hset : ∀ h : moduleInfo.haskey i = true, (moduleInfo.setKey i key).setHaskey i = moduleInfo.setKey i key :=
    fun h => setHaskey_of_haskey h
  split
  · next hkey =>
    constructor
    · intro h
      rcases Int.lt_or_le sent portSuccess with herror | hsuccess
      · have hkeys := (h.error herror).2
        rw [hset hkey] at hkeys
        exact eq_of_signpostApiAddrToKey_setKey hslot hkey hkeys
      · obtain ⟨-, -, -, -, sending, hsending, hkeys⟩ := h.success hsuccess
        obtain rfl := Option.some.inj hsending
        exact eq_of_signpostApiAddrToKey_setKey hslot hkey hkeys
    · intro h
      have hkeys := signpostApiAddrToKey_setKey fun _ => h
      refine ⟨fun _ => ?_, fun _ => ⟨i, key, hslot, rfl, _, rfl, hkeys⟩⟩
      rw [hset hkey]
      exact ⟨rfl, hkeys⟩
  · next hkey =>
    constructor
    · intro h
      refine Int.not_lt.mp fun herror => hkey ?_
      rw [← (h.error herror).1]
      exact Function.update_self ..
    · intro hsuccess
      exact ⟨fun herror => absurd herror (Int.not_lt.mpr hsuccess), fun _ => ⟨i, key, hslot, rfl, _, rfl,
        signpostApiAddrToKey_setKey fun h => absurd h hkey⟩⟩

/-- An exchange is atomic exactly when it replaces no key that is used, and its reply is sent if it has got
to that for a module without a key. -/
theorem keyExchange_atomic (mb : Mbedtls) (rand : Int × Iv) (write : MasterWrite) (d : Device) (ecdh : Ecdh)
    (moduleInfo : ModuleState) (sourceAddress : UInt8) :
    (initializationKeyExchangeRespond mb rand write d ecdh moduleInfo sourceAddress).Atomic moduleInfo sourceAddress ↔
      Exchangeable mb rand write d ecdh moduleInfo sourceAddress := by
  unfold initializationKeyExchangeRespond Exchangeable
  by_cases hgroup : ecdh.groupLoad < portSuccess
  · rw [if_pos hgroup]
    exact iff_of_true (.unchanged hgroup) (.inl hgroup)
  rw [if_neg hgroup, or_iff_right hgroup]
  by_cases hread : ecdh.readParams < portSuccess
  · rw [if_pos hread]
    exact iff_of_true (.unchanged hread) (.inl hread)
  rw [if_neg hread, or_iff_right hread]
  by_cases hmake : ecdh.makePublic.1 < portSuccess
  · rw [if_pos hmake]
    exact iff_of_true (.unchanged hmake) (.inl hmake)
  rw [if_neg hmake, or_iff_right hmake]
  cases hslot : Controller.addrToModNum moduleInfo sourceAddress with
  | none => exact iff_of_true (.unchanged (by decide)) (fun i h => by cases h)
  | some i =>
    cases hsecret : ecdh.calcSecret (moduleInfo.keys i) with
    | mk ret key =>
      simp only [Option.some.injEq, forall_eq', hsecret]
      by_cases hret : ret < portSuccess
      · rw [if_pos hret, atomic_failed hslot hret]
        by_cases hkey : moduleInfo.haskey i = true
        · rw [if_pos hkey, forall_prop_of_true hkey]
        · rw [if_neg hkey]
          exact iff_of_true (fun h => absurd h hkey) (.inl hret)
      · rw [if_neg hret, atomic_sent hslot, or_iff_right hret]
        by_cases hkey : moduleInfo.haskey i = true
        · rw [if_pos hkey, if_pos hkey]
        · have hsame : signpostApiAddrToKey (moduleInfo.setKey i key) = signpostApiAddrToKey moduleInfo :=
            signpostApiAddrToKey_setKey fun h => absurd h hkey
          rw [if_neg hkey, if_neg hkey, sendKeyExchange, hsame]
          rfl

end

/-- A module at every address `0x30`, with or without a key. -/
def exchangingModule (haskey : Bool) : ModuleState where
  magic := 0
  selfModNum := 0
  i2cAddress := 0
  selfName := ⟨List.replicate 16 0, by decide⟩
  names := fun _ => ⟨List.replicate 16 0, by decide⟩
  i2cAddressMods := fun _ => 0x30
  nonces := fun _ => 0
  haskey := fun _ => haskey
  keys := fun _ => zeroKey

/-- The functions succeed, with a secret of ones. -/
def sampleEcdh : Ecdh := ⟨0, 0, (0, []), fun _ => (0, ⟨List.replicate 32 1, by decide⟩)⟩

/-- The reply to a module without a key can not be sent, and it has one; and a module with a key gets its
reply under another one. -/
theorem keyExchange_not_atomic :
    ¬ (initializationKeyExchangeRespond sampleLibrary (0, zeroIv) (fun _ _ _ => -1) ⟨1, 0⟩ sampleEcdh
        (exchangingModule false) 0x30).Atomic (exchangingModule false) 0x30 ∧
      ¬ (initializationKeyExchangeRespond sampleLibrary (0, zeroIv) (fun _ _ _ => 0) ⟨1, 0⟩ sampleEcdh
        (exchangingModule true) 0x30).Atomic (exchangingModule true) 0x30 := by
  have hslot : ∀ haskey, Controller.addrToModNum (exchangingModule haskey) 0x30 = some 0 := fun _ => rfl
  refine ⟨fun h => ?_, fun h => ?_⟩
  · exact absurd ((atomic_sent (hslot false)).mp h) (by decide +kernel)
  · exact absurd ((atomic_sent (hslot true)).mp h) (by decide)

end Signpost
