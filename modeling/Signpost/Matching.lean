/-
Which message a call of the API takes for its response.

A message carries no number of the request it answers, and the callback in
`incoming_active_callback` takes whatever response or error comes in next. A
call that has been answered looks at the message that came in last when it
wakes, which need not be the one that answered it.

So it is the order of the answers that keeps them apart. Beside the calls there
are the requests that are still to be answered, and a message is an answer to
one of them or to none. Where the request answered is that of the innermost
call, and no answer comes to another call or too late, a call that succeeds has
its result from responses to its own request.
-/
import Signpost.Calls

namespace Signpost.Calls

open Lib

/-- A response to the request of this call: of its API and message, from the
module it went to, and sent after it. -/
def Matches (mktime : Tm → Bytes) (p : Pending) (m : Incoming) : Prop :=
  (∃ frame ∈ m.call.frame, frame.frameType = responseFrame ∧
    frame.apiType = (p.call.code mktime).request.apiType ∧
    frame.messageType = (p.call.code mktime).request.messageType) ∧
  m.senderAddress = (p.call.code mktime).request.dest ∧ ∃ t ∈ p.requestedAt, t < m.sentAt

instance (mktime : Tm → Bytes) (p : Pending) (m : Incoming) : Decidable (Matches mktime p m) :=
  inferInstanceAs (Decidable ((∃ frame ∈ m.call.frame, _ ∧ _ ∧ _) ∧ _ ∧ ∃ t ∈ p.requestedAt, _))

/-- If the call is one that has a response and has succeeded, its result is of
messages that are responses to its request. -/
def Returned.Matched (mktime : Tm → Bytes) (r : Returned) : Prop :=
  r.pending.call.usage.flag ≠ none → 0 ≤ r.rc → r.used ≠ [] ∧ ∀ m ∈ r.used, Matches mktime r.pending m

def calls : List Frame → List Pending
  | [] => []
  | .call p :: stack => p :: calls stack
  | .task :: stack => calls stack

theorem calls_received (s : State) (m : Incoming) : calls (s.received m).stack = calls s.stack := by
  simp only [State.received]
  split <;> rfl

/-- It has cleared the variable, and takes it for its answer when it is set. -/
def Pending.Listens (p : Pending) (f : Flag) : Prop :=
  p.call.usage.flag = some f ∧ (p.call.usage.clearsLate = true → p.sent.isSome = true)

instance (p : Pending) (f : Flag) : Decidable (p.Listens f) := inferInstanceAs (Decidable (_ ∧ (_ → _)))

def State.innermost (s : State) : Option Pending := (calls s.stack).head?

/-- No call below the one on top waits on `storage_ready`. -/
def State.StorageAlone (s : State) : Prop := ∀ p ∈ (calls s.stack).tail, ¬ p.Listens .storageReady

instance (s : State) : Decidable s.StorageAlone :=
  inferInstanceAs (Decidable (∀ p ∈ (calls s.stack).tail, _))

/-! ## Who answers what, and when -/

/-- A request, and when it was on the bus. -/
structure Asked where
  request : Request
  time : Nat
  deriving DecidableEq

/-- What the module it went to sends for it: a response or an error of its API and message, later. -/
def Asked.Answers (a : Asked) (m : Incoming) : Prop :=
  (∃ frame ∈ m.call.frame, (frame.frameType = responseFrame ∨ frame.frameType = errorFrame) ∧
    frame.apiType = a.request.apiType ∧ frame.messageType = a.request.messageType) ∧
  m.senderAddress = a.request.dest ∧ a.time < m.sentAt

instance (a : Asked) (m : Incoming) : Decidable (a.Answers m) :=
  inferInstanceAs (Decidable ((∃ frame ∈ m.call.frame, _ ∧ _ ∧ _) ∧ _ ∧ _))

/-- With this in the variables of the message that came in last, the call fails. -/
def Refuses : Api.Call → Parsed → Prop
  | .networkingPublish _, frame => frame.messageLength < 4 ∨ toInt (u32 frame.message 0) < 0
  | .timelocationGetTime _, frame => frame.messageType ≠ timeLocationGetTimeMessage ∨
    frame.messageLength ≠ sizeofTime ∨ frame.message 7 < 3
  | .timelocationGetLocation _, frame => frame.messageType ≠ timeLocationGetLocationMessage ∨
    frame.messageLength ≠ sizeofLocation
  | _, _ => False

instance : ∀ (c : Api.Call) (frame : Parsed), Decidable (Refuses c frame)
  | .networkingPublish _, frame => inferInstanceAs (Decidable (frame.messageLength < 4 ∨ _ < _))
  | .timelocationGetTime _, frame => inferInstanceAs (Decidable (frame.messageType ≠ _ ∨ _ ≠ _ ∨ _ < _))
  | .timelocationGetLocation _, frame => inferInstanceAs (Decidable (frame.messageType ≠ _ ∨ _ ≠ _))
  | .storageScan .., _ | .storageWrite _, _ | .storageRead .., _ | .storageDelete _, _ | .energyQuery _, _
  | .energyQueryAsync _, _ | .energyReport _, _ | .energyReset, _ | .initializationGetModuleState, _
  | .processingInit, _ | .processingOnewaySend, _ | .processingTwowaySend, _ | .watchdogStart, _
  | .watchdogTickle, _ => .isFalse id

/-- This message comes to the calls that `inTurn` is about, or is one that they refuse; so is any that
comes in once a call is answered that will look at it. -/
def State.Admits (s : State) (inTurn : Pending → Prop) (m : Incoming) : Prop :=
  ∀ p ∈ calls s.stack, ∀ f ∈ p.call.usage.flag, p.Listens f →
    if s.raised m = some f then inTurn p ∨ Refuses p.call (m.call.frame.getD s.api.incoming)
    else s.api.flag f = true → reads p.call = true → m.call.frame.isSome = true →
      Refuses p.call (m.call.frame.getD s.api.incoming)

instance (s : State) (inTurn : Pending → Prop) [DecidablePred inTurn] (m : Incoming) :
    Decidable (s.Admits inTurn m) :=
  inferInstanceAs (Decidable (∀ p ∈ calls s.stack, ∀ f ∈ p.call.usage.flag, _ → ite _ _ _))

/-- A write or a delete that was sent has been answered; a scan does not time out; and no storage call
sets `storage_ready` because it has failed while another one waits on it. -/
def State.Heeds (s : State) : Event → Prop
  | .sent err => ∀ p ∈ s.top, p.call.usage.flag = some .storageReady → s.api.flag .storageReady = false →
      if err < 0 then s.StorageAlone else ¬ p.call.Unwaiting
  | .timeout => ∀ p ∈ s.top, (p.call.usage.flag = some .storageReady → s.StorageAlone) ∧
      p.call.usage.callback ≠ .storageScan
  | _ => True

instance (s : State) : ∀ e, Decidable (s.Heeds e)
  | .sent _ => inferInstanceAs (Decidable (∀ p ∈ s.top, _ → _ → ite _ _ _))
  | .timeout => inferInstanceAs (Decidable (∀ p ∈ s.top, (_ → _) ∧ _))
  | .begin _ | .request | .wake | .recv _ | .task | .ret | .other => .isTrue trivial

/-- The calls of a module, and the requests that have not been answered. -/
structure Exchange where
  state : State
  asked : List Asked

inductive Exchange.Event
  /-- A step of the module, or a message that answers none of the requests. -/
  | act (e : Calls.Event)
  | answer (a : Asked) (m : Incoming)

def Exchange.Event.seen : Exchange.Event → Calls.Event
  | .act e => e
  | .answer _ m => .recv m

section
variable (mktime : Tm → Bytes)

/-- The request that the step puts on the bus. -/
def State.asks (s : State) : Event → Option Asked
  | .request => s.top.map fun p => ⟨(p.call.code mktime).request, s.now⟩
  | _ => none

namespace Exchange

/-- A request is answered once, by the module it went to. -/
def step (x : Exchange) : Exchange.Event → Option (Exchange × List Returned)
  | .act e => (x.state.step mktime e).map fun r => (⟨r.1, (x.state.asks mktime e).toList ++ x.asked⟩, r.2)
  | .answer a m =>
    if a ∈ x.asked ∧ a.Answers m then
      (x.state.step mktime (.recv m)).map fun r => (⟨r.1, x.asked.filter (· ≠ a)⟩, r.2)
    else none

variable (x : Exchange)

/-- The request is that of the innermost call, and this call is that one, or has made the same request. -/
def InTurn (a : Asked) (p : Pending) : Prop :=
  ∃ q ∈ x.state.innermost, q.requestedAt = some a.time ∧
    (q.call.code mktime).request = (p.call.code mktime).request ∧ p.requestedAt.isSome = true

instance (a : Asked) : DecidablePred (x.InTurn mktime a) := fun p =>
  inferInstanceAs (Decidable (∃ q ∈ x.state.innermost, _ ∧ _ ∧ p.requestedAt.isSome = true))

/-- The step keeps answers apart: a response comes in turn, and what is an error or answers no request
comes to no call, or is refused. -/
def Heeds : Exchange.Event → Prop
  | .answer a m => x.state.Admits (fun p => (∃ frame ∈ m.call.frame, frame.frameType = responseFrame) ∧
      x.InTurn mktime a p) m
  | .act (.recv m) => x.state.Admits (fun _ => False) m
  | .act e => x.state.Heeds e

instance : ∀ e, Decidable (x.Heeds mktime e)
  | .answer _ _ => inferInstanceAs (Decidable (x.state.Admits _ _))
  | .act (.recv _) => inferInstanceAs (Decidable (x.state.Admits _ _))
  | .act (.begin c) => inferInstanceAs (Decidable (x.state.Heeds (.begin c)))
  | .act .request => inferInstanceAs (Decidable (x.state.Heeds .request))
  | .act (.sent err) => inferInstanceAs (Decidable (x.state.Heeds (.sent err)))
  | .act .wake => inferInstanceAs (Decidable (x.state.Heeds .wake))
  | .act .timeout => inferInstanceAs (Decidable (x.state.Heeds .timeout))
  | .act .task => inferInstanceAs (Decidable (x.state.Heeds .task))
  | .act .ret => inferInstanceAs (Decidable (x.state.Heeds .ret))
  | .act .other => inferInstanceAs (Decidable (x.state.Heeds .other))

variable {mktime} {x}

theorem step_state {e : Exchange.Event} {x' : Exchange} {rs : List Returned} (h : x.step mktime e = some (x', rs)) :
    x.state.step mktime e.seen = some (x'.state, rs) ∧
      ∀ a ∈ x'.asked, a ∈ (x.state.asks mktime e.seen).toList ++ x.asked := by
  cases e with
  | act e =>
    obtain ⟨⟨s, rs'⟩, hstep, heq⟩ := Option.map_eq_some_iff.mp h
    cases heq
    exact ⟨hstep, fun a ha => ha⟩
  | answer a m =>
    simp only [step] at h
    split_ifs at h
    obtain ⟨⟨s, rs'⟩, hstep, heq⟩ := Option.map_eq_some_iff.mp h
    cases heq
    exact ⟨hstep, fun a ha => List.mem_append_right _ (List.mem_of_mem_filter ha)⟩

end Exchange

end

/-! ## What a call's result is made of -/

section
variable {mktime : Tm → Bytes} {s s' : State} {e : Event} {rs : List Returned} {p : Pending}
  {ps ps' : List Pending}

theorem timeout_neg {c : Api.Call} {w : Wait} (hscan : c.usage.callback ≠ .storageScan)
    (hwait : (c.code mktime).wait = some w) (hms : w.ms.isSome = true) (err : Int) (api : Api) :
    (w.woken err portFail api).2 < 0 := by
  cases c with
  | storageScan => exact absurd rfl hscan
  | storageWrite | storageDelete | energyQueryAsync | processingTwowaySend => cases hwait
  | processingInit | processingOnewaySend | watchdogStart | watchdogTickle =>
    cases hwait
    cases hms
  | storageRead | networkingPublish | energyQuery | energyReport | energyReset | timelocationGetTime
  | timelocationGetLocation | initializationGetModuleState =>
    cases hwait
    exact (by decide : (-1 : Int) < 0)

theorem reads_of_refuses {c : Api.Call} {frame : Parsed} (h : Refuses c frame) : reads c = true := by
  cases c with
  | networkingPublish | timelocationGetTime | timelocationGetLocation => rfl
  | storageScan | storageWrite | storageRead | storageDelete | energyQuery | energyQueryAsync | energyReport
  | energyReset | initializationGetModuleState | processingInit | processingOnewaySend | processingTwowaySend
  | watchdogStart | watchdogTickle => exact h.elim

theorem not_reads_of_unwaiting {c : Api.Call} (h : c.Unwaiting) : reads c = false := by
  cases c with
  | storageWrite | storageDelete | energyQueryAsync | processingTwowaySend => rfl
  | storageScan | storageRead | networkingPublish | energyQuery | energyReport | energyReset | timelocationGetTime
  | timelocationGetLocation | initializationGetModuleState | processingInit | processingOnewaySend | watchdogStart
  | watchdogTickle => exact h.elim

/-- A query of the time or the location that is answered with another message, or with one of another
length, fails. -/
theorem woken_timelocation_refused {messageType : UInt8} {length : UInt32} {null : Bool} {api : Api} {w : Wait}
    {next : Int → Api → Api × Int}
    (hwait : ((signpostTimelocationSync messageType).timelocation null fun rc api =>
      if api.incoming.messageLength ≠ length then (api, portFail) else next rc api).wait = some w)
    (h : api.incoming.messageType ≠ messageType ∨ api.incoming.messageLength ≠ length ∨ ∀ rc, (next rc api).2 < 0)
    (err : Int) : (w.woken err portSuccess api).2 < 0 := by
  cases hwait
  have hfail : portFail < 0 := by decide
  have hsuccess : ¬ portSuccess < 0 := by decide
  simp only
  rw [if_neg hsuccess]
  by_cases htype : api.incoming.messageType ≠ messageType
  · rw [if_pos htype, if_pos hfail]
    exact hfail
  · rw [if_neg htype]
    split_ifs with hresult hlength
    · exact hresult
    · exact hfail
    · exact (h.resolve_left htype).resolve_left hlength _

theorem woken_refused {c : Api.Call} {w : Wait} {api : Api} (h : Refuses c api.incoming)
    (hwait : (c.code mktime).wait = some w) (err : Int) : (w.woken err portSuccess api).2 < 0 := by
  cases c with
  | networkingPublish =>
    cases hwait
    simp only
    rw [if_neg (by decide)]
    split_ifs with hlong
    · exact h.resolve_left (by simpa using hlong)
    · exact (by decide : portFail < 0)
  | timelocationGetTime =>
    refine woken_timelocation_refused hwait (h.imp_right (Or.imp_right fun hsats _ => ?_)) err
    simp only
    rw [if_pos hsats]
    decide
  | timelocationGetLocation => exact woken_timelocation_refused hwait (h.imp_right .inl) err
  | storageScan | storageWrite | storageRead | storageDelete | energyQuery | energyQueryAsync | energyReport
  | energyReset | initializationGetModuleState | processingInit | processingOnewaySend | processingTwowaySend
  | watchdogStart | watchdogTickle => exact h.elim

/-! ## The requests that are still to be answered -/

/-- A request is known by its time: one that was made when a call made its own is that one, and a call
made its request no later than those above it. -/
structure Timed (mktime : Tm → Bytes) (asked : List Asked) (now : Nat) (ps : List Pending) : Prop where
  earlier : ∀ a ∈ asked, a.time < now
  requested : ∀ p ∈ ps, ∀ t ∈ p.requestedAt, t < now
  own : ∀ p ∈ ps, ∀ a ∈ asked, p.requestedAt = some a.time → a.request = (p.call.code mktime).request
  order : ps.Pairwise fun q p => ∀ t ∈ q.requestedAt, ∀ t' ∈ p.requestedAt, t' ≤ t

section
variable {asked asked' : List Asked} {now now' : Nat}

theorem Timed.mono (h : Timed mktime asked now ps) (hasked : ∀ a ∈ asked', a ∈ asked) (hnow : now ≤ now') :
    Timed mktime asked' now' ps where
  earlier a ha := Nat.lt_of_lt_of_le (h.earlier a (hasked a ha)) hnow
  requested p hp t ht := Nat.lt_of_lt_of_le (h.requested p hp t ht) hnow
  own p hp a ha := h.own p hp a (hasked a ha)
  order := h.order

theorem Timed.tail (h : Timed mktime asked now (p :: ps)) : Timed mktime asked now ps where
  earlier := h.earlier
  requested p hp := h.requested p (List.mem_cons_of_mem _ hp)
  own p hp := h.own p (List.mem_cons_of_mem _ hp)
  order := h.order.of_cons

theorem Timed.push (h : Timed mktime asked now ps) (c : Api.Call) : Timed mktime asked now (⟨c, none, none⟩ :: ps) where
  earlier := h.earlier
  requested p hp t ht := by
    rcases List.mem_cons.mp hp with rfl | hp
    · cases ht
    · exact h.requested p hp t ht
  own p hp a ha heq := by
    rcases List.mem_cons.mp hp with rfl | hp
    · cases heq
    · exact h.own p hp a ha heq
  order := List.pairwise_cons.mpr ⟨fun _ _ _ ht => (by cases ht), h.order⟩

theorem Timed.waits {c : Api.Call} {t : Option Nat} {err : Int} (h : Timed mktime asked now (⟨c, t, none⟩ :: ps)) :
    Timed mktime asked now (⟨c, t, some err⟩ :: ps) where
  earlier := h.earlier
  requested p hp := by
    rcases List.mem_cons.mp hp with rfl | hp
    · exact h.requested ⟨c, t, none⟩ List.mem_cons_self
    · exact h.requested p (List.mem_cons_of_mem _ hp)
  own p hp := by
    rcases List.mem_cons.mp hp with rfl | hp
    · exact h.own ⟨c, t, none⟩ List.mem_cons_self
    · exact h.own p (List.mem_cons_of_mem _ hp)
  order := List.pairwise_cons.mpr ⟨fun q hq => (List.pairwise_cons.mp h.order).1 q hq, h.order.of_cons⟩

theorem Timed.request {c : Api.Call} (h : Timed mktime asked now (⟨c, none, none⟩ :: ps)) :
    Timed mktime (⟨(c.code mktime).request, now⟩ :: asked) (now + 1) (⟨c, some now, none⟩ :: ps) where
  earlier a ha := by
    rcases List.mem_cons.mp ha with rfl | ha
    · exact Nat.lt_succ_self now
    · exact Nat.lt_succ_of_lt (h.earlier a ha)
  requested p hp t ht := by
    rcases List.mem_cons.mp hp with rfl | hp
    · cases ht
      exact Nat.lt_succ_self now
    · exact Nat.lt_succ_of_lt (h.tail.requested p hp t ht)
  own p hp a ha heq := by
    rcases List.mem_cons.mp hp with rfl | hp <;> rcases List.mem_cons.mp ha with rfl | ha
    · rfl
    · exact absurd (Option.some.inj heq).symm (Nat.ne_of_lt (h.earlier a ha))
    · exact absurd rfl (Nat.ne_of_lt (h.tail.requested p hp now heq))
    · exact h.tail.own p hp a ha heq
  order := by
    refine List.pairwise_cons.mpr ⟨fun p hp t ht t' ht' => ?_, h.order.of_cons⟩
    cases ht
    exact Nat.le_of_lt (h.tail.requested p hp t' ht')

end

theorem State.asks_eq_none (h : e ≠ .request) : s.asks mktime e = none := by
  cases e with
  | request => exact absurd rfl h
  | begin | sent | wake | timeout | recv | task | ret | other => rfl

theorem Stepped.timed {asked : List Asked} (hstep : Stepped mktime s e s' rs)
    (h : Timed mktime asked s.now (calls s.stack)) :
    Timed mktime ((s.asks mktime e).toList ++ asked) (s.now + 1) (calls s'.stack) := by
  by_cases he : e = .request
  · subst he
    cases hstep with
    | @request c below hstack =>
      rw [hstack] at h
      rw [State.asks, State.top_eq hstack]
      exact h.request
  rw [State.asks_eq_none he]
  suffices hkept : Timed mktime asked s.now (calls s'.stack) from hkept.mono (fun a ha => ha) (Nat.le_succ _)
  cases hstep with
  | refused => exact h
  | @started c => exact h.push c
  | request => exact absurd rfl he
  | returned hstack =>
    rw [hstack] at h
    exact h.tail
  | waits hstack =>
    rw [hstack] at h
    exact h.waits
  | woken hstack =>
    rw [hstack] at h
    exact h.tail
  | timeout hstack =>
    rw [hstack] at h
    exact h.tail
  | @recv m =>
    rw [calls_received]
    exact h
  | task => exact h
  | ret hstack =>
    rw [hstack] at h
    exact h
  | other => exact h

/-- The answer to the request of the innermost call is one to every call that has made it by then. -/
theorem Exchange.InTurn.matches {x : Exchange} {a : Asked} {m : Incoming} (h : x.InTurn mktime a p)
    (htimed : Timed mktime x.asked x.state.now (calls x.state.stack)) (hp : p ∈ calls x.state.stack)
    (hasked : a ∈ x.asked) (hanswers : a.Answers m)
    (hresponse : ∃ frame ∈ m.call.frame, frame.frameType = responseFrame) : Matches mktime p m := by
  obtain ⟨q, hq, htime, hrequest, hrequested⟩ := h
  obtain ⟨ps, hcalls⟩ := List.head?_eq_some_iff.mp hq
  rw [hcalls] at htimed hp
  have hown := htimed.own q List.mem_cons_self a hasked htime
  rw [hrequest] at hown
  obtain ⟨⟨frame, hframe, -, hapi, hmessage⟩, hsender, hlater⟩ := hanswers
  obtain ⟨frame', hframe', htype⟩ := hresponse
  cases Option.some.inj (hframe.symm.trans hframe')
  rw [hown] at hapi hmessage hsender
  refine ⟨⟨frame, hframe, htype, hapi, hmessage⟩, hsender, ?_⟩
  rcases List.mem_cons.mp hp with rfl | hp
  · exact ⟨a.time, htime, hlater⟩
  · obtain ⟨t, ht⟩ := Option.isSome_iff_exists.mp hrequested
    exact ⟨t, ht, Nat.lt_of_le_of_lt ((List.pairwise_cons.mp htimed.order).1 p hp a.time htime t ht) hlater⟩

/-! ## Answered calls -/

/-- A message that is a response to its request has set its variable, and so is the one that came in
last if it looks at that. -/
def Served (mktime : Tm → Bytes) (s : State) (p : Pending) (f : Flag) : Prop :=
  (∃ m, s.answered f = some m ∧ Matches mktime p m) ∧
    (reads p.call = true → ∃ m, s.held = some m ∧ Matches mktime p m)

/-- Where the variable of one of these calls is set, it has been served, or will fail. -/
def Sound (mktime : Tm → Bytes) (s : State) (ps : List Pending) : Prop :=
  ∀ p ∈ ps, ∀ f, p.Listens f → s.api.flag f = true → Served mktime s p f ∨ Refuses p.call s.api.incoming

theorem Sound.tail (h : Sound mktime s (p :: ps)) : Sound mktime s ps := fun q hq => h q (List.mem_cons_of_mem p hq)

/-- What a call does with the module's variables keeps it, where it leaves the message that came in last
and sets no variable one of them waits on. -/
theorem Sound.put (h : Sound mktime s ps) {api : Api} (hincoming : api.incoming = s.api.incoming)
    (hflag : ∀ p ∈ ps, ∀ f, p.Listens f → api.flag f = true → s.api.flag f = true) :
    Sound mktime (s.put api) ps := by
  intro p hp f hlistens hset
  rcases h p hp f hlistens (hflag p hp f hlistens hset) with ⟨⟨m, hm, hmatch⟩, hheld⟩ | hrefuses
  · refine .inl ⟨⟨m, ?_, hmatch⟩, hheld⟩
    simp only [State.put]
    rw [if_pos (show api.flag f = true from hset), hm]
  · exact .inr (hincoming ▸ hrefuses)

theorem Sound.waits {c : Api.Call} {t : Option Nat} {err : Int} (h : Sound mktime s (⟨c, t, none⟩ :: ps))
    (hrc : ((c.code mktime).sent err s.api).2 = none) :
    Sound mktime (s.put ((c.code mktime).sent err s.api).1) (⟨c, t, some err⟩ :: ps) := by
  obtain ⟨-, -, -, hflag, hlow⟩ := (c.uses mktime).sent_none hrc
  have hput := h.put (c.sent_same mktime err s.api).incoming fun _ _ f _ => hflag f
  intro p hp f hlistens hset
  rcases List.mem_cons.mp hp with rfl | hp
  · cases hlate : c.usage.clearsLate with
    | true =>
      have hclear := hlow hlate f hlistens.1
      simp only [State.put] at hset
      rw [hclear] at hset
      cases hset
    | false =>
      have hlistens' : Pending.Listens ⟨c, t, none⟩ f := ⟨hlistens.1, fun h => by rw [hlate] at h; cases h⟩
      exact hput _ List.mem_cons_self f hlistens' hset
  · exact hput p (List.mem_cons_of_mem _ hp) f hlistens hset

theorem Sound.received {m : Incoming} {inTurn : Pending → Prop} (h : Sound mktime s (calls s.stack))
    (hadmits : s.Admits inTurn m) (hmatches : ∀ p ∈ calls s.stack, inTurn p → Matches mktime p m) :
    Sound mktime (s.received m) (calls (s.received m).stack) := by
  rw [calls_received]
  intro p hp f hlistens hset
  have hincoming : (s.received m).api.incoming = m.call.frame.getD s.api.incoming := (s.api.recv_same m.call).1
  rw [hincoming]
  have htaken := hadmits p hp f hlistens.1 hlistens
  by_cases hraised : s.raised m = some f
  · rw [if_pos hraised] at htaken
    refine htaken.imp_left fun hturn => ?_
    have hmatch := hmatches p hp hturn
    refine ⟨⟨m, by simp only [State.received]; rw [if_pos hraised], hmatch⟩, fun _ => ⟨m, ?_, hmatch⟩⟩
    obtain ⟨⟨frame, hframe, -⟩, -⟩ := hmatch
    simp only [State.received]
    rw [hframe, Option.isSome_some, if_pos rfl]
  · rw [if_neg hraised] at htaken
    have hset' : s.api.flag f = true := by
      simp only [State.received] at hset
      cases htaker : s.api.taker m.call with
      | none =>
        rw [(Api.recv_dropped htaker).1] at hset
        exact hset
      | some cb =>
        rw [Api.recv_taker htaker, Callback.run_flag] at hset
        simp only [State.raised, htaker, Option.bind_some] at hraised
        rwa [if_neg hraised] at hset
    have hserved : Served mktime s p f ∨ Refuses p.call s.api.incoming := h p hp f hlistens hset'
    -- Only a call that looks at the message that came in last can lose by another one.
    by_cases hlost : reads p.call = true ∧ m.call.frame.isSome = true
    · exact .inr (htaken hset' hlost.1 hlost.2)
    · rcases hserved with ⟨⟨m', hm', hmatch'⟩, hheld⟩ | hrefuses
      · refine .inl ⟨⟨m', by simp only [State.received]; rw [if_neg hraised, hm'], hmatch'⟩, fun hreads => ?_⟩
        simp only [State.received]
        rw [if_neg fun hframe => hlost ⟨hreads, hframe⟩]
        exact hheld hreads
      · have hframe : m.call.frame = none := by
          rw [← Option.not_isSome_iff_eq_none]
          exact fun hframe => hlost ⟨reads_of_refuses hrefuses, hframe⟩
        rw [hframe]
        exact .inr hrefuses

theorem Served.used {f : Flag} (h : Served mktime s p f) (hflag : p.call.usage.flag = some f) :
    s.used p.call ≠ [] ∧ ∀ m ∈ s.used p.call, Matches mktime p m := by
  obtain ⟨⟨m, hm, hmatch⟩, hheld⟩ := h
  simp only [State.used, hflag, Option.bind_some, hm]
  refine ⟨by simp, fun m' hm' => ?_⟩
  rcases List.mem_append.mp hm' with hm' | hm'
  · rw [Option.toList_some, List.mem_singleton] at hm'
    rw [hm']
    exact hmatch
  · split at hm'
    · next hreads =>
      obtain ⟨m₁, hm₁, hmatch₁⟩ := hheld hreads
      rw [hm₁, Option.toList_some, List.mem_singleton] at hm'
      rw [hm']
      exact hmatch₁
    · cases hm'

/-- A call that does not wait has been served if a message has set its variable, and refuses none. -/
theorem Sound.unwaiting {c : Api.Call} {t : Option Nat} (h : Sound mktime s (⟨c, t, none⟩ :: ps)) (hun : c.Unwaiting)
    (hflag : c.usage.flag ≠ none) (hready : s.api.flag .storageReady ≠ false) :
    s.used c ≠ [] ∧ ∀ m ∈ s.used c, Matches mktime ⟨c, t, none⟩ m := by
  obtain ⟨hstorage, hearly⟩ := Api.Call.unwaiting_flag hun hflag
  have hlistens : Pending.Listens ⟨c, t, none⟩ .storageReady :=
    ⟨hstorage, fun hlate => by rw [hearly] at hlate; cases hlate⟩
  have hserved := h _ List.mem_cons_self _ hlistens (Bool.not_eq_false _ ▸ hready)
  refine (hserved.resolve_right fun hrefuses => ?_).used hstorage
  have hreads := reads_of_refuses hrefuses
  rw [not_reads_of_unwaiting hun] at hreads
  cases hreads

theorem Stepped.sound {inTurn : Incoming → Pending → Prop} (hstep : Stepped mktime s e s' rs) (hheeds : s.Heeds e)
    (hadmits : ∀ m, e = .recv m →
      s.Admits (inTurn m) m ∧ ∀ p ∈ calls s.stack, inTurn m p → Matches mktime p m)
    (h : Sound mktime s (calls s.stack)) :
    Sound mktime s' (calls s'.stack) ∧ ∀ r ∈ rs, r.Matched mktime := by
  cases hstep with
  | @refused c rc hrc =>
    refine ⟨h.put (c.start_same mktime s.api).incoming fun _ _ f _ => (c.uses mktime).start_flag, fun r hr _ hok => ?_⟩
    rw [List.mem_singleton.mp hr] at hok
    have hneg := ((c.uses mktime).start_some hrc).1
    exact absurd hok (Int.not_le.mpr hneg)
  | @started c hrc =>
    refine ⟨fun p hp f hlistens hset => ?_, by simp⟩
    rcases List.mem_cons.mp hp with rfl | hp
    · have hearly : c.usage.clearsLate = false := by
        rw [← Bool.not_eq_true]
        exact fun hlate => Bool.false_ne_true (hlistens.2 hlate)
      have hclear := ((c.uses mktime).start_none hrc).2.2 hearly f hlistens.1
      rw [show ((c.code mktime).start s.api).1.flag f = true from hset] at hclear
      cases hclear
    · exact h.put (c.start_same mktime s.api).incoming (fun _ _ f _ => (c.uses mktime).start_flag) p hp f hlistens hset
  | @request c below hstack =>
    rw [hstack] at h
    refine ⟨fun p hp f hlistens hset => ?_, by simp⟩
    rcases List.mem_cons.mp hp with rfl | hp
    · refine (h ⟨c, none, none⟩ List.mem_cons_self f hlistens hset).imp_left fun hserved => ?_
      obtain ⟨⟨m, -, -, -, t, ht, -⟩, -⟩ := hserved
      cases ht
    · exact h p (List.mem_cons_of_mem _ hp) f hlistens hset
  | @returned c t err rc below hstack hrc =>
    have hheed := hheeds _ (State.top_eq hstack)
    rw [hstack] at h
    refine ⟨?_, fun r hr hflag hok => ?_⟩
    · refine h.tail.put (c.sent_same mktime err s.api).incoming fun p hp f hlistens hset => ?_
      rcases (c.uses mktime).sent_flag err s.api f hset with hset | ⟨herr, rfl, hstorage⟩
      · exact hset
      · by_cases hready : s.api.flag .storageReady = true
        · exact hready
        · have halone := hheed hstorage (by simpa using hready)
          rw [if_pos herr] at halone
          exact absurd hlistens (halone p (by rw [hstack]; exact hp))
    · rw [List.mem_singleton.mp hr] at hflag hok ⊢
      by_cases herr : err < 0
      · exact absurd hok (Int.not_le.mpr ((c.uses mktime).sent_failed hrc herr).1)
      · have hun := Api.Call.unwaiting_iff.mpr ((c.uses mktime).sent_some hrc (Int.not_lt.mp herr)).1
        refine h.unwaiting hun hflag fun hready => ?_
        have hwaiting := hheed (Api.Call.unwaiting_flag hun hflag).1 hready
        rw [if_neg herr] at hwaiting
        exact hwaiting hun
  | @waits c t err below hstack hrc =>
    rw [hstack] at h
    exact ⟨h.waits hrc, by simp⟩
  | @woken c t err below w hstack hwait hset =>
    rw [hstack] at h
    refine ⟨?_, fun r hr _ hok => ?_⟩
    · refine h.tail.put (c.woken_incoming hwait err portSuccess s.api) fun p hp f hlistens hset' => ?_
      exact (c.uses mktime).woken_flag hwait hset hset'
    · rw [List.mem_singleton.mp hr] at hok ⊢
      have hflag := (c.uses mktime).wait_flag hwait
      refine ((h _ List.mem_cons_self _ ⟨hflag, fun _ => rfl⟩ hset).resolve_right fun hrefuses => ?_).used hflag
      exact absurd hok (Int.not_le.mpr (woken_refused hrefuses hwait err))
  | @timeout c t err below w hstack hwait hset hms =>
    obtain ⟨halone, hscan⟩ := hheeds _ (State.top_eq hstack)
    rw [hstack] at h
    refine ⟨?_, fun r hr _ hok => ?_⟩
    · refine h.tail.put (c.woken_incoming hwait err portFail s.api) fun p hp f hlistens hset' => ?_
      rcases (c.uses mktime).timeout_flag err s.api f hwait hms hset' with hset' | ⟨rfl, hstorage, -⟩
      · exact hset'
      · exact absurd hlistens (halone hstorage p (by rw [hstack]; exact hp))
    · rw [List.mem_singleton.mp hr] at hok
      exact absurd hok (Int.not_le.mpr (timeout_neg hscan hwait hms err s.api))
  | @recv m htime =>
    obtain ⟨hadmits, hmatches⟩ := hadmits m rfl
    exact ⟨h.received hadmits hmatches, by simp⟩
  | task => exact ⟨h, by simp⟩
  | ret hstack =>
    rw [hstack] at h
    exact ⟨h, by simp⟩
  | other => exact ⟨h, by simp⟩

/-! ## Every run -/

namespace Exchange

/-- What holds in the course of a run: the requests are known by their times, and whoever has been
answered has been served. -/
structure Kept (mktime : Tm → Bytes) (x : Exchange) : Prop where
  timed : Timed mktime x.asked x.state.now (calls x.state.stack)
  sound : Sound mktime x.state (calls x.state.stack)

theorem Heeds.state {x : Exchange} {e : Exchange.Event} (h : x.Heeds mktime e) : x.state.Heeds e.seen := by
  cases e with
  | answer => trivial
  | act e =>
    cases e with
    | recv => trivial
    | begin | request | sent | wake | timeout | task | ret | other => exact h

/-- A message that comes in turn is a response to the requests of the calls that take it. -/
theorem Kept.admits {x x' : Exchange} {e : Exchange.Event} (h : x.Kept mktime)
    (hstep : x.step mktime e = some (x', rs)) (hheeds : x.Heeds mktime e) :
    ∃ inTurn : Incoming → Pending → Prop, ∀ m, e.seen = .recv m →
      x.state.Admits (inTurn m) m ∧ ∀ p ∈ calls x.state.stack, inTurn m p → Matches mktime p m := by
  cases e with
  | act e =>
    refine ⟨fun _ _ => False, fun m hm => ⟨?_, fun _ _ hturn => hturn.elim⟩⟩
    obtain rfl : e = .recv m := hm
    exact hheeds
  | answer a m' =>
    simp only [step] at hstep
    split_ifs at hstep with hanswer
    refine ⟨fun m p => (∃ frame ∈ m.call.frame, frame.frameType = responseFrame) ∧ x.InTurn mktime a p,
      fun m hm => ?_⟩
    obtain rfl : m' = m := Event.recv.inj hm
    exact ⟨hheeds, fun p hp hturn => hturn.2.matches h.timed hp hanswer.1 hanswer.2 hturn.1⟩

theorem Kept.step {x x' : Exchange} {e : Exchange.Event} (h : x.Kept mktime)
    (hstep : x.step mktime e = some (x', rs)) (hheeds : x.Heeds mktime e) :
    x'.Kept mktime ∧ ∀ r ∈ rs, r.Matched mktime := by
  obtain ⟨hstate, hasked⟩ := step_state hstep
  obtain ⟨s₁, hstepped, hs₁⟩ := step_stepped hstate
  obtain ⟨inTurn, hadmits⟩ := h.admits hstep hheeds
  obtain ⟨hsound, hmatched⟩ := hstepped.sound hheeds.state hadmits h.sound
  refine ⟨⟨?_, ?_⟩, hmatched⟩
  · rw [hs₁]
    exact (hstepped.timed h.timed).mono hasked (Nat.le_refl _)
  · rw [hs₁]
    exact hsound

end Exchange

/-- **Responses are matched to requests where the steps heed them.** In every
run from a state with no call under way, over all orders of calls, messages and
timeouts: a call that succeeds has its result from responses to its own
request, of its API and message, from the module it went to and sent after it. -/
theorem returned_matched {x x' : Exchange} {es : List Exchange.Event} {os : List Returned}
    (hinit : x.state.stack = []) (hasked : x.asked = [])
    (hrun : Run (fun x e x' rs => x.step mktime e = some (x', rs) ∧ x.Heeds mktime e) x es x' os) :
    ∀ r ∈ os, r.Matched mktime := by
  have hkept : x.Kept mktime := by
    refine ⟨?_, ?_⟩
    · rw [hinit, hasked]
      exact ⟨by simp, by simp [calls], by simp, List.Pairwise.nil⟩
    · rw [hinit]
      exact fun p hp => by cases hp
  exact (hrun.outputs (fun x _ => x.Kept mktime) _ (fun h hs => h.step hs.1 hs.2) hkept).2

end

/-! ## A query of the time, and a reset -/

/-- The time as the controller sends it, in 2018. -/
def timeAnswer (sentAt : Nat) : Incoming :=
  answer responseFrame moduleAddressController timeLocationApiType timeLocationGetTimeMessage
    [226, 7, 5, 9, 1, 2, 3, 6]
    sentAt

def resetAnswer (sentAt : Nat) : Incoming :=
  answer responseFrame moduleAddressController energyApiType energyResetMessage [0, 0, 0, 0] sentAt

/-- The controller answers a query of the time with an error. While the next one waits a handler resets
the energy counters, and the reset is answered first. -/
def heededEvents : List Exchange.Event :=
  let getTime := Asked.mk ⟨moduleAddressController, timeLocationApiType, timeLocationGetTimeMessage⟩
  [.act (.begin (.timelocationGetTime 16)), .act .request, .act (.sent 35),
    .answer (getTime 1) (answer errorFrame moduleAddressController timeLocationApiType timeLocationGetTimeMessage
      [255, 255, 255, 255] 3),
    .act .wake,
    .act (.begin (.timelocationGetTime 16)), .act .request, .act (.sent 35), .act .task,
    .act (.begin .energyReset), .act .request, .act (.sent 35),
    .answer ⟨⟨moduleAddressController, energyApiType, energyResetMessage⟩, 10⟩ (resetAnswer 12), .act .wake, .act .ret,
    .answer (getTime 6) (timeAnswer 15), .act .timeout,
    .act (.begin (.timelocationGetTime 16)), .act .request, .act (.sent 35), .answer (getTime 18) (timeAnswer 20),
    .act .wake]

theorem returned_matched_sample : ∃ x os,
    Run (fun (x : Exchange) e x' rs => x.step sampleMktime e = some (x', rs) ∧ x.Heeds sampleMktime e) ⟨quietState, []⟩
      heededEvents x os ∧ os.map Returned.rc = [-1, 0, -1, 6] ∧ ∀ r ∈ os, r.Matched sampleMktime := by
  have hrun : (Run.exec (fun (x : Exchange) e => if x.Heeds sampleMktime e then x.step sampleMktime e else none)
      ⟨quietState, []⟩ heededEvents).any (fun r => r.2.map Returned.rc = [-1, 0, -1, 6]) = true := by decide +kernel
  obtain ⟨⟨x, os⟩, hexec, hrc⟩ := (Option.any_eq_true _ _).mp hrun
  have hsteps := Run.of_exec_guard hexec
  exact ⟨x, os, hsteps, of_decide_eq_true hrc, returned_matched rfl rfl hsteps⟩

/-- The query of the time times out, and its answer comes in while a reset waits. -/
def lateEvents : List Event :=
  [.begin (.timelocationGetTime 16), .request, .sent 35, .timeout, .begin .energyReset, .request, .sent 35,
    .recv (timeAnswer 3), .wake]

/-- The reset returns success, from the answer to the other call. -/
theorem reset_from_time : ∃ s' os,
    Run (fun s e s' rs => s.step sampleMktime e = some (s', rs)) quietState lateEvents s' os ∧
    ∃ r ∈ os, 0 ≤ r.rc ∧ (r.pending.call.code sampleMktime).request.apiType = energyApiType ∧
      ∃ m ∈ r.used, ∃ frame ∈ m.call.frame, frame.apiType = timeLocationApiType := by
  have hrun : (Run.exec (State.step sampleMktime) quietState lateEvents).any (fun o => ∃ r ∈ o.2, 0 ≤ r.rc ∧
      (r.pending.call.code sampleMktime).request.apiType = energyApiType ∧
      ∃ m ∈ r.used, ∃ frame ∈ m.call.frame, frame.apiType = timeLocationApiType) = true := by decide +kernel
  obtain ⟨⟨s', os⟩, hexec, hr⟩ := (Option.any_eq_true _ _).mp hrun
  exact ⟨s', os, Run.of_exec hexec, of_decide_eq_true hr⟩

end Signpost.Calls
