/-
What `signpost_energy_query` returns, and what it leaves in the caller's structure.

The length of the answer is its result, whether or not it is the length that
was expected, and whether it is a response or an error.

The run of the call is any with no other call in between. Its callback compares
nothing but a length, and only for the copy, so the result can be positive with
the structure untouched; the condition is on the first message that comes in.
-/
import Signpost.Answers

namespace Signpost.Calls

open Lib

variable {mktime : Tm → Bytes} {energy : Ptr} {s s' : State} {es : List Event} {r : Returned}
  {api api' : Api} {m : Incoming}

theorem energyQuery_failed (mktime : Tm → Bytes) (energy : Ptr) (api : Api) {err : Int} (herr : err < 0) :
    (((Api.Call.energyQuery energy).code mktime).sent err api).1.heap = api.heap ∧
      (((Api.Call.energyQuery energy).code mktime).sent err api).2 = some err := by
  have hne : err ≠ 0 := by omega
  simp only [Api.Call.code, signpostEnergyQuery, signpostEnergyQueryAsync, if_pos herr, true_and]
  exact Option.filter_some_pos (by simpa using hne)

theorem energyQuery_waits (mktime : Tm → Bytes) (energy : Ptr) : ∃ w, Waits mktime (.energyQuery energy) w := by
  refine ⟨_, rfl, rfl, rfl, rfl, fun energyCb => rfl, fun {err s} herr => ?_, fun herr =>
    (energyQuery_failed mktime energy _ herr).2⟩
  simp only [Api.Call.code, signpostEnergyQuery, signpostEnergyQueryAsync, if_neg (Int.not_lt.mpr herr)]
  rfl

/-- What the caller's structure holds: of a result that is no error, a response
of its size; of an error, what it held before. -/
def QueryTruthful (energy : Ptr) (s s' : State) (r : Returned) : Prop :=
  if 0 ≤ r.rc then ∃ m ∈ r.used, m.IsResponse ∧ m.payload.length = sizeofEnergyInformation ∧
    s'.api.heap = s.api.heap.copy energy m.payload
  else s'.api.heap.read energy sizeofEnergyInformation = s.api.heap.read energy sizeofEnergyInformation

/-- The first answer, if one comes in, is a response of the size of the
structure. If the send fails, it has another size, or the structure's bytes. -/
def QueryAnswered (energy : Ptr) (s : State) (es : List Event) : Prop :=
  ∀ m ∈ firstAnswer es,
    if (sendCode es).any (· < 0) then m.payload.length = sizeofEnergyInformation →
      s.api.heap.read energy sizeofEnergyInformation = m.payload
    else m.IsResponse ∧ m.payload.length = sizeofEnergyInformation

/-- What the call leaves before it sends. -/
structure QueryStarted (energy : Ptr) (api api' : Api) : Prop where
  heap : api'.heap = api.heap
  slot : api'.incomingActiveCallback = some .energyQueryAsync
  energyCbData : api'.energyCbData = energy
  energyCb : api'.energyCb = some .sync

theorem energyQuery_start {rc : Option Int}
    (h : ((Api.Call.energyQuery energy).code mktime).start api = (api', rc)) :
    (rc = some portEbusy ∧ api'.heap = api.heap) ∨ rc = none ∧ QueryStarted energy api api' := by
  simp only [Api.Call.code, signpostEnergyQuery, signpostEnergyQueryAsync] at h
  split at h
  · obtain ⟨rfl, rfl⟩ := Prod.mk.inj h
    exact .inl ⟨rfl, rfl⟩
  · split at h
    · obtain ⟨rfl, rfl⟩ := Prod.mk.inj h
      exact .inl ⟨rfl, rfl⟩
    · obtain ⟨rfl, rfl⟩ := Prod.mk.inj h
      exact .inr ⟨rfl, rfl, rfl, rfl, rfl⟩

theorem QueryStarted.recv (h : QueryStarted energy api api') (hm : m.IsAnswer) (henergy : energy ≠ 0) :
    (api'.recv m.call).1.energyQueryResult = m.call.lenOrRc ∧ (api'.recv m.call).1.heap =
      if m.payload.length = sizeofEnergyInformation then api.heap.copy energy m.payload else api.heap := by
  obtain ⟨frame, hframe, hmessage⟩ := Incoming.incoming_of_answer hm
  have hsize : m.payload.length = sizeofEnergyInformation ↔ m.call.lenOrRc = sizeofEnergyInformation := by
    have := hm.1
    rw [Incoming.length_payload]
    omega
  rw [Api.recv_taker ((Incoming.taker_of_answer hm api').trans h.slot), hframe, Option.getD_some, ← h.heap]
  by_cases hlen : m.call.lenOrRc = sizeofEnergyInformation
  · simp only [Callback.run, energyQueryAsyncCallback, if_neg (not_not.mpr hlen), if_pos (hsize.mpr hlen),
      h.energyCbData, h.energyCb]
    rw [if_pos henergy, hmessage]
    exact ⟨rfl, rfl⟩
  · simp only [Callback.run, energyQueryAsyncCallback, if_pos hlen, if_neg (mt hsize.mp hlen), h.energyCb]
    exact ⟨rfl, rfl⟩

/-- The structure is as it was exactly when what came in, if anything did, has
another size, or the structure's bytes. -/
theorem QueryStarted.kept (h : QueryStarted energy api api') (henergy : energy ≠ 0) {a : Option Incoming}
    (ha : ∀ m ∈ a, m.IsAnswer) :
    (afterAnswer api' a).heap.read energy sizeofEnergyInformation = api.heap.read energy sizeofEnergyInformation ↔
      ∀ m ∈ a, m.payload.length = sizeofEnergyInformation →
        api.heap.read energy sizeofEnergyInformation = m.payload := by
  cases a with
  | none =>
    rw [show afterAnswer api' none = api' from rfl, h.heap]
    exact iff_of_true rfl fun m hm => by cases hm
  | some m =>
    simp only [Option.mem_some_iff, forall_eq']
    rw [show (afterAnswer api' (some m)).heap = (api'.recv m.call).1.heap from rfl, (h.recv (ha m rfl) henergy).2]
    split
    · next hlen =>
      rw [← hlen, Mem.read_copy]
      exact ⟨fun heq _ => heq.symm, fun heq => (heq rfl).symm⟩
    · next hlen => exact iff_of_true rfl fun heq => absurd heq hlen

/-- **When a query of the energy is truthful**: exactly when the first response
or error that comes in is a response of the structure's size. -/
theorem query_truthful_iff (henergy : energy ≠ 0) (h : Returns mktime (.energyQuery energy) s es s' r) :
    QueryTruthful energy s s' r ↔ QueryAnswered energy s es := by
  obtain ⟨w, hw⟩ := energyQuery_waits mktime energy
  have hwait := hw.wait
  cases hwait
  rcases h.ends hw with ⟨rfl, hrefused⟩ | ⟨api, hstart, hends⟩
  · rcases energyQuery_start hrefused with ⟨hrc, hheap⟩ | ⟨hrc, -⟩
    · rw [QueryTruthful, Option.some.inj hrc, if_neg (by decide), hheap]
      exact iff_of_true rfl fun m hm => by cases hm
    · cases hrc
  obtain ⟨hbusy, -⟩ | ⟨-, hstarted⟩ := energyQuery_start hstart
  · cases hbusy
  cases hends with
  | @failed err incoming hcode herr hanswer hsent =>
    obtain ⟨hheap, hrc⟩ := energyQuery_failed mktime energy { afterAnswer api (firstAnswer es) with incoming } herr
    rw [hsent] at hheap hrc
    rw [QueryTruthful, QueryAnswered, Option.some.inj hrc, if_neg (Int.not_le.mpr herr), hheap, hcode]
    simp only [Option.any_some, decide_eq_true herr, if_true]
    exact hstarted.kept henergy hanswer
  | @answered m err incoming hfirst hm hcode herr hused hwoken =>
    obtain ⟨hapi, hrc⟩ := Prod.mk.inj hwoken
    obtain ⟨hresult, hrecv⟩ := hstarted.recv hm henergy
    have hcode' : r.rc = m.call.lenOrRc := hrc.symm.trans hresult
    have hheap : s'.api.heap = (api.recv m.call).1.heap := by
      rw [← hapi]
    rw [QueryTruthful, QueryAnswered, hcode', if_pos hm.1, hused, hheap, hrecv, hfirst, hcode]
    simp only [Option.mem_some_iff, forall_eq', Option.any_some, decide_eq_false (Int.not_lt.mpr herr),
      Bool.false_eq_true, if_false, List.mem_singleton, exists_eq_left]
    exact ⟨fun h => ⟨h.1, h.2.1⟩, fun h => ⟨h.1, h.2, if_pos h.2⟩⟩
  | timedOut incoming hfirst hcode herr hwoken =>
    obtain ⟨hapi, hrc⟩ := Prod.mk.inj hwoken
    have hheap : s'.api.heap = api.heap := by
      rw [← hapi]
    rw [QueryTruthful, QueryAnswered, ← hrc, hheap, hstarted.heap, hfirst]
    exact iff_of_true rfl fun m hm => by cases hm

/-- A query is answered with these bytes. -/
def queryEvents (payload : Bytes) : List Event :=
  [.request, .sent 35,
    .recv (answer responseFrame moduleAddressController energyApiType energyQueryMessage payload 2)]

theorem query_truthful_iff_answered : ∃ s' r,
    Returns sampleMktime (.energyQuery 16) quietState (queryEvents (List.replicate 14 7) ++ [.wake]) s' r ∧
      QueryTruthful 16 quietState s' r := by
  have hexec : (execCall sampleMktime (.energyQuery 16) quietState (queryEvents (List.replicate 14 7))
      .wake).isSome := by
    decide +kernel
  obtain ⟨⟨s', r⟩, hcall⟩ := Option.isSome_iff_exists.mp hexec
  have hreturns := Returns.of_exec hcall
  refine ⟨s', r, hreturns, (query_truthful_iff (by decide) hreturns).mpr ?_⟩
  unfold QueryAnswered
  decide +kernel

/-- A response of three bytes is a success, and copied nowhere. -/
theorem query_short_response : ∃ s' r,
    Returns sampleMktime (.energyQuery 16) quietState (queryEvents [1, 2, 3] ++ [.wake]) s' r ∧
      r.rc = 3 ∧ s'.api.heap.read 16 14 = List.replicate 14 0 ∧ ¬ QueryTruthful 16 quietState s' r := by
  have hexec : (execCall sampleMktime (.energyQuery 16) quietState (queryEvents [1, 2, 3]) .wake).any (fun p =>
      p.2.rc = 3 ∧ p.1.api.heap.read 16 14 = List.replicate 14 0 ∧ p.2.used.map (·.payload.length) = [3]) = true := by
    decide +kernel
  obtain ⟨⟨s', r⟩, hcall, hp⟩ := (Option.any_eq_true _ _).mp hexec
  obtain ⟨hrc, hheap, hused⟩ := of_decide_eq_true hp
  refine ⟨s', r, Returns.of_exec hcall, hrc, hheap, fun htrue => ?_⟩
  rw [QueryTruthful, if_pos (by rw [hrc]; decide)] at htrue
  obtain ⟨m, hm, -, hlen, -⟩ := htrue
  have hmem := List.mem_map_of_mem (f := (·.payload.length)) hm
  rw [hused, List.mem_singleton, hlen] at hmem
  cases hmem

end Signpost.Calls
