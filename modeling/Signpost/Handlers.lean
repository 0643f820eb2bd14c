/-
The table of handlers, and `signpost_networking_subscribe`, which puts its own before
the others.

The table is counted with an index of eight bits. A call has no outcome if that goes
on for ever, or if it writes outside of the memory for the new table.

The count goes on until the mark at the end of the table, so for a long table it is known modulo 256
only. The result says for which tables the call succeeds, and that it changes nothing when it does
not.
-/
import Signpost.Api
import Signpost.Lib.Loop
import Signpost.Lib.Run

namespace Signpost

open Lib

/-- A function that a handler has: `internal_subscribe_callback`, or one of the application. -/
inductive HandlerCallback
  | internalSubscribe
  | app (function : Nat)
  deriving DecidableEq

/-- `api_handler_t`, whose callback may be `NULL`. -/
structure ApiHandler where
  apiType : UInt8
  callback : Option HandlerCallback
  deriving DecidableEq

def subscribeHandler : ApiHandler := ⟨networkingApiType, some .internalSubscribe⟩

/-- `module_api.api_handlers`, up to its `NULL`, and the application's callback. -/
structure Handlers where
  apiHandlers : List ApiHandler
  networkingSubscribeCb : Option Nat
  deriving DecidableEq

namespace Handlers

/-- A call, with what is in the memory that it gets for the new table, if it gets any. -/
structure Subscribe where
  cb : Option Nat
  malloc : Option (Mem (Option ApiHandler))

/-- A round of the count: it ends at a networking handler, or at the `NULL`. -/
def count (apiHandlers : List ApiHandler) (i : UInt8) : Option (Option UInt8) :=
  match apiHandlers[i.toNat]? with
  | none => some (some i)
  | some handler => if handler.apiType = networkingApiType then some none else none

/-- The handlers before the `NULL` of a table. -/
def tableAt (table : Mem (Option ApiHandler)) (n : Nat) : List ApiHandler :=
  ((table.read 0 n).takeWhile Option.isSome).filterMap id

/-- `signpost_networking_subscribe`, once it has counted. -/
def insert (s : Handlers) (malloc : Option (Mem (Option ApiHandler))) (originalHandlerNum : UInt8) :
    Option (Handlers × Int) :=
  let i := originalHandlerNum + 2
  match malloc with
  | none => some (s, portEnomem)
  | some updated =>
    if 1 ≤ i.toNat ∧ originalHandlerNum.toNat + 1 ≤ i.toNat then
      let updated := updated.copy 0 [some subscribeHandler]
      let updated := updated.copy (i.toNat - 1) [none]
      let updated := updated.copy 1 ((s.apiHandlers.take originalHandlerNum.toNat).map some)
      some ({ s with apiHandlers := tableAt updated i.toNat }, portSuccess)
    else none

/-- `signpost_networking_subscribe` returns so. -/
def Subscribes (s : Handlers) (call : Subscribe) (s' : Handlers) (rc : Int) : Prop :=
  ∃ n counted, Loop.Ends (Loop.scan (count s.apiHandlers)) 0 n counted ∧
    let s := { s with networkingSubscribeCb := call.cb }
    (match counted with
      | none => some (s, portEinval)
      | some originalHandlerNum => s.insert call.malloc originalHandlerNum) = some (s', rc)

/-- A call returns; if it succeeds, its handler is before the others, and else nothing is changed. -/
def Atomic (s : Handlers) (call : Subscribe) : Prop :=
  ∃ s' rc, s.Subscribes call s' rc ∧
    (rc = portSuccess → s' = ⟨subscribeHandler :: s.apiHandlers, call.cb⟩) ∧ (rc ≠ portSuccess → s' = s)

/-- A networking handler is among those that are counted. -/
def Registered (s : Handlers) : Prop := ∃ handler ∈ s.apiHandlers.take 256, handler.apiType = networkingApiType

/-- A call that fails is for the callback that is active, and there are few enough handlers
for what it does with them. -/
def Registrable (s : Handlers) (call : Subscribe) : Prop :=
  (call.malloc.isNone ∨ s.Registered → call.cb = s.networkingSubscribeCb) ∧
    (s.Registered ∨ s.apiHandlers.length ≤ if call.malloc.isNone then 255 else 253)

/-- A step is a call that returns. -/
def step (s : Handlers) (call : Subscribe) (s' : Handlers) (os : List Int) : Prop :=
  ∃ rc, os = [rc] ∧ s.Subscribes call s' rc

variable {s s' : Handlers} {call : Subscribe} {rc : Int} {apiHandlers : List ApiHandler} {n : Nat}

/-! ## The count -/

theorem count_handler (hn : n < 256) (h : n < apiHandlers.length) : count apiHandlers (UInt8.ofNat n) =
    if apiHandlers[n].apiType = networkingApiType then some none else none := by
  rw [count, UInt8.toNat_ofNat_of_lt' hn, List.getElem?_eq_getElem h]

theorem count_null (h : apiHandlers.length < 256) :
    count apiHandlers (UInt8.ofNat apiHandlers.length) = some (some (UInt8.ofNat apiHandlers.length)) := by
  rw [count, UInt8.toNat_ofNat_of_lt' h, List.getElem?_eq_none (Nat.le_refl _)]

theorem registered_iff :
    s.Registered ↔ ∃ n, ∃ h : n < s.apiHandlers.length, n < 256 ∧ s.apiHandlers[n].apiType = networkingApiType := by
  simp only [Registered, List.mem_take_iff_getElem]
  constructor
  · rintro ⟨handler, ⟨n, hn, rfl⟩, htype⟩
    exact ⟨n, by omega, by omega, htype⟩
  · rintro ⟨n, h, hn, htype⟩
    exact ⟨_, ⟨n, by omega, rfl⟩, htype⟩

theorem count_of_not_registered (h : ¬ s.Registered) (hn : n < 256) (hlength : n < s.apiHandlers.length) :
    count s.apiHandlers (UInt8.ofNat n) = none := by
  rw [count_handler hn hlength, if_neg fun htype => h (registered_iff.mpr ⟨n, hlength, hn, htype⟩)]

theorem ends_registered (h : s.Registered) : ∃ n, Loop.Ends (Loop.scan (count s.apiHandlers)) 0 n none := by
  obtain ⟨k, hlength, hk, htype⟩ := registered_iff.mp h
  have hfound : count s.apiHandlers (UInt8.ofNat k) ≠ none := by
    rw [count_handler hk hlength, if_pos htype]
    exact Option.some_ne_none _
  obtain ⟨n, counted, hn, hends⟩ := Loop.exists_ends_scan hfound
  rw [UInt8.toNat_ofNat_of_lt' hk] at hn
  have hcounted := (Loop.ends_scan_iff.mp hends).2.1
  rw [count_handler (by omega) (Nat.lt_of_le_of_lt hn hlength)] at hcounted
  split at hcounted
  · obtain rfl := Option.some.inj hcounted
    exact ⟨n, hends⟩
  · cases hcounted

theorem ends_counted (h : ¬ s.Registered) (hlength : s.apiHandlers.length < 256) :
    Loop.Ends (Loop.scan (count s.apiHandlers)) 0 s.apiHandlers.length (some (UInt8.ofNat s.apiHandlers.length)) :=
  Loop.ends_scan_iff.mpr ⟨hlength, count_null hlength, fun _ hj =>
    count_of_not_registered h (Nat.lt_trans hj hlength) hj⟩

theorem not_ends (h : ¬ s.Registered) (hlength : 256 ≤ s.apiHandlers.length) {counted : Option UInt8} :
    ¬ Loop.Ends (Loop.scan (count s.apiHandlers)) 0 n counted := by
  intro hends
  obtain ⟨hn, hcounted, -⟩ := Loop.ends_scan_iff.mp hends
  rw [count_of_not_registered h hn (Nat.lt_of_lt_of_le hn hlength)] at hcounted
  cases hcounted

theorem subscribes_registered (h : s.Registered) : s.Subscribes call s' rc ↔
    s' = { s with networkingSubscribeCb := call.cb } ∧ rc = portEinval := by
  obtain ⟨n, hends⟩ := ends_registered h
  constructor
  · rintro ⟨_, counted, hends', hreturn⟩
    obtain ⟨-, rfl⟩ := hends.unique hends'
    obtain ⟨rfl, rfl⟩ := Prod.mk.inj (Option.some.inj hreturn)
    exact ⟨rfl, rfl⟩
  · rintro ⟨rfl, rfl⟩
    exact ⟨n, none, hends, rfl⟩

theorem subscribes_counted (h : ¬ s.Registered) (hlength : s.apiHandlers.length < 256) :
    s.Subscribes call s' rc ↔ ({ s with networkingSubscribeCb := call.cb } : Handlers).insert call.malloc
      (UInt8.ofNat s.apiHandlers.length) = some (s', rc) := by
  have hends := ends_counted h hlength
  constructor
  · rintro ⟨_, counted, hends', hreturn⟩
    obtain ⟨-, rfl⟩ := hends.unique hends'
    exact hreturn
  · intro hreturn
    exact ⟨_, _, hends, hreturn⟩

/-! ## The new table -/

theorem tableAt_eq {table : Mem (Option ApiHandler)}
    (h : table.read 0 n = apiHandlers.map some ++ [none]) : tableAt table n = apiHandlers := by
  rw [tableAt, h, List.takeWhile_append_of_pos (by simp)]
  simp

theorem updated_read (updated : Mem (Option ApiHandler)) (apiHandlers : List ApiHandler) :
    (((updated.copy 0 [some subscribeHandler]).copy (apiHandlers.length + 1) [none]).copy 1
      (apiHandlers.map some)).read 0 (1 + apiHandlers.length + 1) =
      (subscribeHandler :: apiHandlers).map some ++ [none] := by
  let terminated := (updated.copy 0 [some subscribeHandler]).copy (apiHandlers.length + 1) [none]
  have hfirst : (terminated.copy 1 (apiHandlers.map some)).read 0 1 = [some subscribeHandler] := by
    rw [Mem.read_copy_disjoint (.inl (by omega)), Mem.read_copy_disjoint (.inl (by omega))]
    exact Mem.read_copy _ _ _
  have horiginal : (terminated.copy 1 (apiHandlers.map some)).read (0 + 1) apiHandlers.length =
      apiHandlers.map some := by
    have hread := Mem.read_copy terminated 1 (apiHandlers.map some)
    rwa [List.length_map] at hread
  have hlast : (terminated.copy 1 (apiHandlers.map some)).read (0 + (1 + apiHandlers.length)) 1 = [none] := by
    rw [Mem.read_copy_disjoint (.inr (by simp)), Nat.zero_add, Nat.add_comm 1]
    exact Mem.read_copy _ _ _
  rw [Mem.read_add, Mem.read_add, hfirst, horiginal, hlast]
  rfl

theorem insert_eq (h : s.apiHandlers.length ≤ 253) (updated : Mem (Option ApiHandler)) :
    s.insert (some updated) (UInt8.ofNat s.apiHandlers.length) =
      some ({ s with apiHandlers := subscribeHandler :: s.apiHandlers }, portSuccess) := by
  have hnum : (UInt8.ofNat s.apiHandlers.length).toNat = s.apiHandlers.length :=
    UInt8.toNat_ofNat_of_lt' (Nat.lt_of_le_of_lt h (by decide))
  have hi : (UInt8.ofNat s.apiHandlers.length + 2).toNat = s.apiHandlers.length + 2 := by
    rw [UInt8.toNat_add, hnum]
    exact Nat.mod_eq_of_lt (b := 256) (show s.apiHandlers.length + 2 < 256 by omega)
  have htable := tableAt_eq (updated_read updated s.apiHandlers)
  rw [Nat.add_comm 1] at htable
  simp only [insert, hi, hnum, List.take_length]
  rw [if_pos (by omega)]
  exact congrArg (fun apiHandlers => some (({ s with apiHandlers } : Handlers), portSuccess)) htable

theorem insert_outside (h : s.apiHandlers.length = 254 ∨ s.apiHandlers.length = 255) (table : Mem (Option ApiHandler)) :
    s.insert (some table) (UInt8.ofNat s.apiHandlers.length) = none := by
  rcases h with h | h <;> rw [insert, h] <;> rfl

/-! ## Calls that change nothing unless they succeed -/

/-- A call with one outcome, which is not a success, is atomic exactly when it replaces nothing. -/
theorem atomic_of_error (hrc : rc ≠ portSuccess) (h : ∀ {s' rc'}, s.Subscribes call s' rc' ↔
    s' = { s with networkingSubscribeCb := call.cb } ∧ rc' = rc) :
    s.Atomic call ↔ call.cb = s.networkingSubscribeCb := by
  constructor
  · rintro ⟨s', rc', hsubscribes, -, herror⟩
    obtain ⟨rfl, rfl⟩ := h.mp hsubscribes
    exact congrArg networkingSubscribeCb (herror hrc)
  · intro hcb
    exact ⟨s, rc, h.mpr ⟨by rw [hcb], rfl⟩, fun hsuccess => absurd hsuccess hrc, fun _ => rfl⟩

theorem not_atomic_of_endless (hregistered : ¬ s.Registered) (hlength : 256 ≤ s.apiHandlers.length) :
    ¬ s.Atomic call := by
  rintro ⟨_, _, ⟨_, _, hends, -⟩, -⟩
  exact not_ends hregistered hlength hends

theorem atomic_of_malloc {updated : Mem (Option ApiHandler)} (hregistered : ¬ s.Registered)
    (hmalloc : call.malloc = some updated) : s.Atomic call ↔ s.apiHandlers.length ≤ 253 := by
  constructor
  · intro hatomic
    refine Nat.le_of_not_lt fun hlength => ?_
    obtain hinside | houtside := Nat.lt_or_ge s.apiHandlers.length 256
    · obtain ⟨s', rc, hsubscribes, -⟩ := hatomic
      rw [subscribes_counted hregistered hinside, hmalloc,
        insert_outside (s := { s with networkingSubscribeCb := call.cb })
          (by simp only; omega)] at hsubscribes
      cases hsubscribes
    · exact not_atomic_of_endless hregistered houtside hatomic
  · intro hlength
    refine ⟨_, portSuccess, (subscribes_counted hregistered (by omega)).mpr ?_, fun _ => rfl,
      fun herror => absurd rfl herror⟩
    rw [hmalloc]
    exact insert_eq (s := { s with networkingSubscribeCb := call.cb }) hlength updated

theorem atomic_iff : s.Atomic call ↔ s.Registrable call := by
  unfold Registrable
  by_cases hregistered : s.Registered
  · rw [atomic_of_error (by decide) (subscribes_registered hregistered)]
    simp [hregistered]
  cases hmalloc : call.malloc with
  | none =>
    obtain hlength | hlength := Nat.lt_or_ge s.apiHandlers.length 256
    · rw [atomic_of_error (show portEnomem ≠ portSuccess by decide)]
      · simp [hregistered, Nat.le_of_lt_succ hlength]
      · intro s' rc
        rw [subscribes_counted hregistered hlength, hmalloc, insert, Option.some.injEq, Prod.mk.injEq, eq_comm,
          @eq_comm _ portEnomem]
    · simp only [not_atomic_of_endless hregistered hlength, hregistered, false_iff, Option.isNone_none, if_true]
      exact fun h => absurd h.2 (by simp; omega)
  | some updated =>
    rw [atomic_of_malloc hregistered hmalloc]
    simp [hregistered]

/-- Every call of a sequence is atomic exactly when every one can register. -/
theorem subscribe_atomic_iff (s : Handlers) (calls : List Subscribe) :
    Run.Along step Atomic s calls ↔ Run.Along step Registrable s calls :=
  Run.Along.congr fun _ _ => atomic_iff

/-- The first call registers the handler; the second is refused, and replaces the callback of the first. -/
theorem not_subscribe_atomic :
    Run step ⟨[], none⟩ [⟨some 1, some fun _ => none⟩, ⟨some 2, none⟩] ⟨[subscribeHandler], some 2⟩
        [portSuccess, portEinval] ∧
      ¬ Run.Along step Atomic ⟨[], none⟩ [⟨some 1, some fun _ => none⟩, ⟨some 2, none⟩] := by
  have hempty : ¬ (⟨[], none⟩ : Handlers).Registered := by simp [Registered]
  have hregistered : (⟨[subscribeHandler], some 1⟩ : Handlers).Registered := ⟨_, List.mem_cons_self, rfl⟩
  have hfirst : (⟨[], none⟩ : Handlers).Subscribes ⟨some 1, some fun _ => none⟩ ⟨[subscribeHandler], some 1⟩
      portSuccess :=
    (subscribes_counted hempty (by decide)).mpr (insert_eq (s := ⟨[], some 1⟩) (by decide) _)
  have hsecond : (⟨[subscribeHandler], some 1⟩ : Handlers).Subscribes ⟨some 2, none⟩ ⟨[subscribeHandler], some 2⟩
      portEinval := (subscribes_registered hregistered).mpr ⟨rfl, rfl⟩
  refine ⟨.cons (o := [portSuccess]) ⟨_, rfl, hfirst⟩ (.cons (o := [portEinval]) ⟨_, rfl, hsecond⟩ .nil),
    fun hatomic => ?_⟩
  have hreplaced := hatomic [⟨some 1, some fun _ => none⟩] ⟨some 2, none⟩ [] rfl ⟨[subscribeHandler], some 1⟩
    [portSuccess] (.cons (o := [portSuccess]) ⟨_, rfl, hfirst⟩ .nil)
  rw [atomic_of_error (by decide) (subscribes_registered hregistered)] at hreplaced
  exact absurd hreplaced (by decide)

end Handlers

end Signpost
