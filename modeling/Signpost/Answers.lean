/-
A call that waits, from its begin to its return, while no other call is made:
what it returns is made of the first response or error that comes in, if one
does before the time is over.

A run of it is cut at the step that ends the wait. Until then the call is
`Underway`: its callback holds the slot and nothing has come in that it takes,
so the result is computed from the state at its begin and the one message alone.
-/
import Signpost.Matching

namespace Signpost

open Lib

/-! ## Answers -/

namespace Incoming

/-- It is a response or an error, and has a header. -/
def IsAnswer (m : Incoming) : Prop :=
  0 ≤ m.call.lenOrRc ∧ ∃ frame ∈ m.call.frame, frame.frameType = responseFrame ∨ frame.frameType = errorFrame

instance (m : Incoming) : Decidable m.IsAnswer :=
  inferInstanceAs (Decidable (_ ∧ ∃ frame ∈ m.call.frame, _ ∨ _))

def IsResponse (m : Incoming) : Prop := ∃ frame ∈ m.call.frame, frame.frameType = responseFrame

instance (m : Incoming) : Decidable m.IsResponse := inferInstanceAs (Decidable (∃ frame ∈ m.call.frame, _))

def message (m : Incoming) : Mem UInt8 := fun i => m.recvBuf (3 + i)

def payload (m : Incoming) : Bytes := m.message.read 0 m.call.lenOrRc.toNat

@[simp] theorem length_payload (m : Incoming) : m.payload.length = m.call.lenOrRc.toNat := Mem.length_read ..

theorem taker_of_answer {m : Incoming} (h : m.IsAnswer) (s : Api) : s.taker m.call = s.incomingActiveCallback := by
  obtain ⟨hrc, frame, hframe, htype⟩ := h
  rw [Api.taker, show m.call.frame = some frame from hframe, Option.getD_some, if_pos ⟨hrc, htype⟩]

theorem taker_of_not_answer {m : Incoming} (h : ¬ m.IsAnswer) (s : Api) : s.taker m.call = none := by
  rw [Api.taker]
  refine if_neg fun hle => h ⟨hle.1, ?_⟩
  by_cases hneg : m.lenOrRc < 0
  · have hrc := hle.1
    simp only [call, appLayerCallback, if_pos hneg] at hrc
    exact absurd hrc (Int.not_le.mpr hneg)
  · simp only [call, appLayerCallback, if_neg hneg, Option.getD_some] at hle ⊢
    exact ⟨_, rfl, hle.2⟩

theorem incoming_of_answer {m : Incoming} (h : m.IsAnswer) :
    ∃ frame, m.call.frame = some frame ∧ frame.message = m.message := by
  obtain ⟨-, frame, hframe, -⟩ := h
  refine ⟨frame, hframe, ?_⟩
  simp only [call, appLayerCallback] at hframe
  split at hframe
  · cases hframe
  · cases hframe
    rfl

end Incoming

namespace Calls

def Event.answer : Event → Option Incoming
  | .recv m => if m.IsAnswer then some m else none
  | _ => none

def Event.sendCode : Event → Option Int
  | .sent err => some err
  | _ => none

def firstAnswer (es : List Event) : Option Incoming := es.findSome? Event.answer

def sendCode (es : List Event) : Option Int := es.findSome? Event.sendCode

theorem firstAnswer_concat (es : List Event) (e : Event) :
    firstAnswer (es ++ [e]) = (firstAnswer es).or e.answer := by
  rw [firstAnswer, List.findSome?_append, List.findSome?_singleton, firstAnswer]

theorem firstAnswer_concat_none {es : List Event} {e : Event} (h : e.answer = none) :
    firstAnswer (es ++ [e]) = firstAnswer es := by
  rw [firstAnswer_concat, h, Option.or_none]

theorem sendCode_concat (es : List Event) (e : Event) : sendCode (es ++ [e]) = (sendCode es).or e.sendCode := by
  rw [sendCode, List.findSome?_append, List.findSome?_singleton, sendCode]

/-- No call is made, and no other code takes the slot. -/
def Event.Quiet : Event → Prop
  | .begin _ | .other => False
  | _ => True

instance : ∀ e : Event, Decidable e.Quiet
  | .begin _ | .other => .isFalse id
  | .request | .sent _ | .wake | .timeout | .recv _ | .task | .ret => .isTrue trivial

/-- A call returns after these events, which are quiet. -/
inductive Returns (mktime : Tm → Bytes) (c : Api.Call) (s : State) : List Event → State → Returned → Prop
  | refused {s' r} : s.step mktime (.begin c) = some (s', [r]) → Returns mktime c s [] s' r
  | ended {s₀ es s₁ e s' r} : s.step mktime (.begin c) = some (s₀, []) →
      Run (fun s e s' rs => s.step mktime e = some (s', rs) ∧ e.Quiet) s₀ es s₁ [] →
      s₁.step mktime e = some (s', [r]) → e.Quiet → Returns mktime c s (es ++ [e]) s' r

/-- The module's variables once this answer has come in, if one has. -/
def afterAnswer (api : Api) (a : Option Incoming) : Api := a.elim api fun m => (api.recv m.call).1

/-- A call that waits for its answer, and looks at no message that came in later. -/
structure Waits (mktime : Tm → Bytes) (c : Api.Call) (w : Wait) : Prop where
  wait : (c.code mktime).wait = some w
  reads : reads c = false
  clearsLate : c.usage.clearsLate = false
  late : c.usage.late = false
  raises : ∀ energyCb, c.usage.callback.raises (c.usage.energyCb.or energyCb) = some w.flag
  sent : ∀ {err s}, 0 ≤ err → (c.code mktime).sent err s = (s, none)
  failed : ∀ {err s}, err < 0 → ((c.code mktime).sent err s).2 = some err

section
variable {mktime : Tm → Bytes} {c : Api.Call} {w : Wait} {api : Api} {s s' : State} {es : List Event} {e : Event}
  {r : Returned} {m : Incoming} {a : Option Incoming} {below : List Frame} {code : Option Int}

/-- The variables of a call that has begun: its callback waits, and its variable is not set. -/
structure Armed (api : Api) (cb : Callback) (f : Flag) : Prop where
  callback : api.incomingActiveCallback = some cb
  raises : cb.raises api.energyCb = some f
  low : api.flag f = false

theorem Waits.armed (h : Waits mktime c w) (hstart : ((c.code mktime).start api).2 = none) :
    Armed ((c.code mktime).start api).1 c.usage.callback w.flag := by
  obtain ⟨hslot, hcb, hlow⟩ := (c.uses mktime).start_none hstart
  rw [h.late, if_neg Bool.false_ne_true] at hslot
  exact ⟨hslot, hcb ▸ h.raises _, hlow h.clearsLate _ ((c.uses mktime).wait_flag h.wait)⟩

theorem Armed.recv {cb : Callback} {f : Flag} (h : Armed api cb f) (hm : m.IsAnswer) :
    (api.recv m.call).1.flag f = true ∧ (api.recv m.call).1.incomingActiveCallback = none ∧
      ∀ incoming, (Api.recv { api with incoming } m.call).1 = (api.recv m.call).1 := by
  obtain ⟨frame, hframe, -⟩ := Incoming.incoming_of_answer hm
  have htaker := (Incoming.taker_of_answer hm api).trans h.callback
  rw [Api.recv_taker htaker]
  refine ⟨?_, (cb.run_slots ..).1, fun incoming => ?_⟩
  · rw [Callback.run_flag]
    exact if_pos h.raises
  · have htaker' : Api.taker { api with incoming } m.call = some cb :=
      (Incoming.taker_of_answer hm _).trans h.callback
    rw [Api.recv_taker htaker', hframe]
    rfl

/-- The call is under way, under some tasks: its send has returned this code, if
it has returned, and this answer has come in. -/
structure Underway (c : Api.Call) (f : Flag) (api : Api) (below : List Frame) (code : Option Int)
    (a : Option Incoming) (s : State) : Prop where
  stack : ∃ n t, s.stack = List.replicate n .task ++ .call ⟨c, t, code⟩ :: below
  sent : ∀ err ∈ code, 0 ≤ err
  api : ∃ incoming, s.api = { afterAnswer api a with incoming }
  answered : ∀ m ∈ a, m.IsAnswer ∧ s.answered f = some m

theorem Underway.top {f : Flag} {p : Pending} {below' : List Frame} (h : Underway c f api below code a s)
    (hstack : s.stack = .call p :: below') : below' = below ∧ ∃ t, p = ⟨c, t, code⟩ := by
  obtain ⟨n, t, hn⟩ := h.stack
  rw [hstack] at hn
  cases n with
  | zero =>
    obtain ⟨hp, hbelow⟩ := List.cons.inj hn
    cases hp
    exact ⟨hbelow, t, rfl⟩
  | succ n =>
    rw [List.replicate_succ, List.cons_append] at hn
    cases (List.cons.inj hn).1

theorem Underway.now {f : Flag} (h : Underway c f api below code a s) (now : Nat) :
    Underway c f api below code a { s with now } := ⟨h.stack, h.sent, h.api, h.answered⟩

theorem Underway.received {cb : Callback} {f : Flag} (h : Underway c f api below code a s) (harmed : Armed api cb f)
    (m : Incoming) : Underway c f api below code (a.or (Event.answer (.recv m))) (s.received m) := by
  obtain ⟨incoming, hapi⟩ := h.api
  have hstack : ∃ n t, (s.received m).stack = List.replicate n .task ++ .call ⟨c, t, code⟩ :: below := by
    obtain ⟨n, t, hn⟩ := h.stack
    simp only [State.received, hn]
    split
    · exact ⟨n + 1, t, rfl⟩
    · exact ⟨n, t, rfl⟩
  -- Nothing takes a message that is no answer, or comes in after the answer.
  have hdropped : s.api.taker m.call = none → Underway c f api below code a (s.received m) := by
    intro htaker
    refine ⟨hstack, h.sent, ⟨m.call.frame.getD s.api.incoming, ?_⟩, fun m' hm' => ⟨(h.answered m' hm').1, ?_⟩⟩
    · simp only [State.received]
      rw [(Api.recv_dropped htaker).1, hapi]
    · simp only [State.received, State.raised, htaker, Option.bind_none]
      rw [if_neg (fun heq => by cases heq)]
      exact (h.answered m' hm').2
  by_cases hm : m.IsAnswer
  · cases a with
    | none =>
      obtain ⟨-, -, hrecv⟩ := harmed.recv hm
      rw [Option.none_or, Event.answer, if_pos hm]
      have hraised : s.raised m = some f := by
        rw [State.raised, Incoming.taker_of_answer hm, hapi]
        show (api.incomingActiveCallback.bind fun cb => cb.raises api.energyCb) = some f
        rw [harmed.callback]
        exact harmed.raises
      refine ⟨hstack, h.sent, ⟨(api.recv m.call).1.incoming, ?_⟩, ?_⟩
      · simp only [State.received, hapi]
        exact hrecv incoming
      · intro m' hm'
        cases hm'
        refine ⟨hm, ?_⟩
        simp only [State.received]
        rw [if_pos hraised]
    | some m₀ =>
      rw [Option.some_or]
      have hslot := (harmed.recv (h.answered m₀ rfl).1).2.1
      refine hdropped ?_
      rw [Incoming.taker_of_answer hm, hapi]
      exact hslot
  · rw [Event.answer, if_neg hm, Option.or_none]
    exact hdropped (Incoming.taker_of_not_answer hm _)

theorem Underway.step (hw : Waits mktime c w) {cb : Callback} (harmed : Armed api cb w.flag)
    (h : Underway c w.flag api below (sendCode es) (firstAnswer es) s) (hstep : s.step mktime e = some (s', []))
    (hquiet : e.Quiet) : Underway c w.flag api below (sendCode (es ++ [e])) (firstAnswer (es ++ [e])) s' := by
  obtain ⟨s₁, hstepped, rfl⟩ := step_stepped hstep
  refine Underway.now ?_ _
  rw [sendCode_concat, firstAnswer_concat]
  cases hstepped with
  | started | other => exact hquiet.elim
  | request hstack =>
    obtain ⟨rfl, t, hp⟩ := h.top hstack
    obtain ⟨rfl, rfl, hnone⟩ := Pending.mk.inj hp
    rw [← hnone] at h
    simp only [Event.sendCode, Event.answer, Option.or_none, ← hnone]
    exact ⟨⟨0, _, rfl⟩, h.sent, h.api, h.answered⟩
  | @waits c' t err below' hstack hrc =>
    obtain ⟨rfl, t, hp⟩ := h.top hstack
    obtain ⟨rfl, rfl, hnone⟩ := Pending.mk.inj hp
    have herr : 0 ≤ err := by
      by_contra hneg
      rw [hw.failed (Int.not_le.mp hneg)] at hrc
      cases hrc
    obtain ⟨incoming, hapi⟩ := h.api
    simp only [Event.sendCode, Event.answer, Option.or_none, ← hnone, Option.none_or, hw.sent herr]
    refine ⟨⟨0, _, rfl⟩, ?_, ⟨incoming, hapi⟩, fun m hm => ⟨(h.answered m hm).1, ?_⟩⟩
    · rintro _ ⟨⟩
      exact herr
    · have hset : s.api.flag w.flag = true := by
        rw [hapi, show firstAnswer es = some m from hm]
        exact (harmed.recv (h.answered m hm).1).1
      simp only [State.put]
      rw [if_pos hset]
      exact (h.answered m hm).2
  | @recv m htime =>
    simp only [Event.sendCode, Option.or_none]
    exact h.received harmed m
  | task =>
    obtain ⟨n, t, hn⟩ := h.stack
    simp only [Event.sendCode, Event.answer, Option.or_none]
    exact ⟨⟨n + 1, t, congrArg (Frame.task :: ·) hn⟩, h.sent, h.api, h.answered⟩
  | ret hstack =>
    obtain ⟨n, t, hn⟩ := h.stack
    simp only [Event.sendCode, Event.answer, Option.or_none]
    rw [hstack] at hn
    cases n with
    | zero => cases (List.cons.inj hn).1
    | succ n => exact ⟨⟨n, t, (List.cons.inj hn).2⟩, h.sent, h.api, h.answered⟩

/-- How a call ends: its send fails, it is answered, or the time is over. -/
inductive Ends (mktime : Tm → Bytes) (c : Api.Call) (w : Wait) (api : Api) (es : List Event) (s' : State)
    (r : Returned) : Prop
  | failed {err} (incoming : Parsed) : sendCode es = some err → err < 0 → (∀ m ∈ firstAnswer es, m.IsAnswer) →
      (c.code mktime).sent err { afterAnswer api (firstAnswer es) with incoming } = (s'.api, some r.rc) →
      Ends mktime c w api es s' r
  | answered {m err} (incoming : Parsed) : firstAnswer es = some m → m.IsAnswer → sendCode es = some err → 0 ≤ err →
      r.used = [m] → w.woken err portSuccess { (api.recv m.call).1 with incoming } = (s'.api, r.rc) →
      Ends mktime c w api es s' r
  | timedOut {err} (incoming : Parsed) : firstAnswer es = none → sendCode es = some err → 0 ≤ err →
      w.woken err portFail { api with incoming } = (s'.api, r.rc) → Ends mktime c w api es s' r

theorem Underway.ends (hw : Waits mktime c w) {cb : Callback} (harmed : Armed api cb w.flag)
    (h : Underway c w.flag api below (sendCode es) (firstAnswer es) s) (hstep : s.step mktime e = some (s', [r]))
    (hquiet : e.Quiet) : Ends mktime c w api (es ++ [e]) s' r := by
  obtain ⟨incoming, hapi⟩ := h.api
  obtain ⟨s₁, hstepped, rfl⟩ := step_stepped hstep
  cases hstepped with
  | refused => exact hquiet.elim
  | @returned c' t err rc below' hstack hrc =>
    obtain ⟨rfl, t, hp⟩ := h.top hstack
    obtain ⟨rfl, rfl, hnone⟩ := Pending.mk.inj hp
    have herr : err < 0 := by
      by_contra hle
      rw [hw.sent (Int.not_lt.mp hle)] at hrc
      cases hrc
    have hcode : sendCode (es ++ [.sent err]) = some err := by
      rw [sendCode_concat, ← hnone]
      rfl
    have hanswer : firstAnswer (es ++ [.sent err]) = firstAnswer es := firstAnswer_concat_none rfl
    refine .failed incoming hcode herr (fun m hm => ?_) ?_
    · rw [hanswer] at hm
      exact (h.answered m hm).1
    · rw [hanswer, ← hapi]
      exact Prod.ext rfl hrc
  | @woken c' t err below' w' hstack hwait hset =>
    obtain ⟨rfl, t, hp⟩ := h.top hstack
    obtain ⟨rfl, rfl, hsome⟩ := Pending.mk.inj hp
    obtain rfl : w = w' := Option.some.inj (hw.wait.symm.trans hwait)
    have hanswer : firstAnswer (es ++ [.wake]) = firstAnswer es := firstAnswer_concat_none rfl
    have hcode : sendCode (es ++ [.wake]) = some err := by
      rw [sendCode_concat, ← hsome]
      rfl
    cases hfirst : firstAnswer es with
    | none =>
      rw [hapi, hfirst] at hset
      rw [show (afterAnswer api none).flag w.flag = false from harmed.low] at hset
      cases hset
    | some m =>
      obtain ⟨hm, hanswered⟩ := h.answered m hfirst
      refine .answered incoming (hanswer.trans hfirst) hm hcode (h.sent err hsome.symm) ?_ ?_
      · simp only [State.used, (c'.uses mktime).wait_flag hw.wait, Option.bind_some, hanswered, hw.reads]
        rfl
      · rw [hfirst] at hapi
        rw [show (api.recv m.call).1 = afterAnswer api (some m) from rfl, ← hapi]
        rfl
  | @timeout c' t err below' w' hstack hwait hset hms =>
    obtain ⟨rfl, t, hp⟩ := h.top hstack
    obtain ⟨rfl, rfl, hsome⟩ := Pending.mk.inj hp
    obtain rfl : w = w' := Option.some.inj (hw.wait.symm.trans hwait)
    have hcode : sendCode (es ++ [.timeout]) = some err := by
      rw [sendCode_concat, ← hsome]
      rfl
    cases hfirst : firstAnswer es with
    | none =>
      have hanswer : firstAnswer (es ++ [.timeout]) = firstAnswer es := firstAnswer_concat_none rfl
      refine .timedOut incoming (hanswer.trans hfirst) hcode (h.sent err hsome.symm) ?_
      rw [hfirst] at hapi
      rw [show api = afterAnswer api none from rfl, ← hapi]
      rfl
    | some m =>
      rw [hapi, hfirst] at hset
      rw [show (afterAnswer api (some m)).flag w.flag = true from (harmed.recv (h.answered m hfirst).1).1] at hset
      cases hset

theorem Returns.ends (hw : Waits mktime c w) (h : Returns mktime c s es s' r) :
    (es = [] ∧ (c.code mktime).start s.api = (s'.api, some r.rc)) ∨
      ∃ api, (c.code mktime).start s.api = (api, none) ∧ Ends mktime c w api es s' r := by
  cases h with
  | refused hstep =>
    obtain ⟨s₁, hstepped, rfl⟩ := step_stepped hstep
    cases hstepped with
    | refused hrc => exact .inl ⟨rfl, Prod.ext rfl hrc⟩
  | ended hbegin hrun hlast hquiet =>
    obtain ⟨s₁, hstepped, rfl⟩ := step_stepped hbegin
    cases hstepped with
    | started hrc =>
      refine .inr ⟨_, Prod.ext rfl hrc, ?_⟩
      have harmed := hw.armed hrc
      have hbegun : Underway c w.flag ((c.code mktime).start s.api).1 s.stack (sendCode []) (firstAnswer [])
          { s.put ((c.code mktime).start s.api).1 with
            stack := .call ⟨c, none, none⟩ :: s.stack
            querying := s.querying || c.usage.energyCb = some EnergyCb.user
            now := s.now + 1 } :=
        ⟨⟨0, none, rfl⟩, by simp [sendCode], ⟨((c.code mktime).start s.api).1.incoming, rfl⟩, by simp [firstAnswer]⟩
      have hunder := hrun.silent (fun es s₁ => Underway c w.flag ((c.code mktime).start s.api).1 s.stack
        (sendCode es) (firstAnswer es) s₁) (fun h hs => h.step hw harmed hs.1 hs.2) hbegun
      exact hunder.ends hw harmed hlast hquiet

/-- The call begins, these events happen, and it returns at the last. -/
def execCall (mktime : Tm → Bytes) (c : Api.Call) (s : State) (es : List Event) (e : Event) :
    Option (State × Returned) :=
  match s.step mktime (.begin c) with
  | some (s₀, []) =>
    match Run.exec (fun s e => if e.Quiet then s.step mktime e else none) s₀ es with
    | some (s₁, []) =>
      match s₁.step mktime e with
      | some (s', [r]) => if e.Quiet then some (s', r) else none
      | _ => none
    | _ => none
  | _ => none

theorem Returns.of_exec (h : execCall mktime c s es e = some (s', r)) : Returns mktime c s (es ++ [e]) s' r := by
  rw [execCall] at h
  split at h
  · next hbegin =>
    split at h
    · next hexec =>
      split at h
      · next hlast =>
        split at h
        · next hquiet =>
          cases h
          exact .ended hbegin (Run.of_exec_guard hexec) hlast hquiet
        · cases h
      · cases h
    · cases h
  · cases h

end

end Calls

end Signpost
