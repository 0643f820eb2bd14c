/-
`signpost_api_recv_callback`, with the functions that it calls: these run before it goes
on, and may send, wait, and so let it be called again.

A step has no outcome if a null pointer is dereferenced in it.

A call goes through a list of actions, and waits with the rest of it while a function runs. The
receive is armed again at the end of the list, whatever the message was; the calls that have not
returned are on a stack.
-/
import Signpost.Dispatch
import Signpost.Handlers

namespace Signpost

open Lib

/-- What is printed of a message that nobody gets. -/
inductive RecvWarning
  | hmacFailure
  | fubar
  | unsolicitedMessage (apiType : UInt8)
  | unsolicitedResponse
  | invalidFrameType (frameType : UInt8)

/-- What `signpost_api_recv_callback` does. -/
inductive RecvAction
  | warn (warning : RecvWarning)
  /-- The call of the callback of a handler. -/
  | handler (call : HandlerCall)
  /-- `incoming_active_callback = NULL`. -/
  | clear
  /-- The call of the callback that waited. -/
  | active (callback : Callback) (lenOrRc : Int)
  /-- `signpost_api_start_new_async_recv`. -/
  | startNewAsyncRecv

inductive RecvFrame
  /-- `get_message` waits for a packet. -/
  | getMessage
  /-- `signpost_api_recv_callback` waits for a function to return; this is left for it to do. -/
  | recvCallback (left : List RecvAction)

structure Dispatcher where
  /-- `module_api.api_handlers`, which may be `NULL`. -/
  apiHandlers : Option (List ApiHandler)
  incoming : Parsed
  incomingActiveCallback : Option Callback
  asyncActive : Bool
  /-- `async_callback` is not `NULL`. -/
  asyncCallback : Bool
  stack : List RecvFrame

namespace Dispatcher

inductive Event
  /-- The initialization has got this far with a table; it starts to receive. -/
  | init (apiHandlers : Option (List ApiHandler))
  /-- A call has stored its callback, or has cleared it. -/
  | store (callback : Option Callback)
  /-- `signpost_api_send` has sent. -/
  | send
  /-- `signbus_io_slave_write_callback`. -/
  | arrive
  /-- The end of the `get_message` on top, with the call that the layers above make of it. -/
  | received (call : AppCall)
  /-- The function that was called returns. -/
  | ret

/-- From `handler` on: the call for the first of the type, and the handler where the walk ends. -/
def walk (sourceAddress : UInt8) (incoming : Parsed) (handler : Nat) :
    List ApiHandler → Option (List RecvAction × Option Nat)
  | [] => some ([], some handler)
  | api :: rest =>
    if api.apiType = incoming.apiType then
      api.callback.map fun _ => ([.handler ⟨handler, sourceAddress, incoming⟩], some handler)
    else walk sourceAddress incoming (handler + 1) rest

/-- `signpost_api_recv_callback`, from what it finds when it is called. -/
def recvCallback (s : Dispatcher) (sourceAddress : UInt8) (lenOrRc : Int) : Option (List RecvAction) :=
  if lenOrRc < 0 then
    if lenOrRc = portEcrypt then some [.warn .hmacFailure, .startNewAsyncRecv]
    else some [.warn .fubar, .startNewAsyncRecv]
  else if s.incoming.frameType = notificationFrame ∨ s.incoming.frameType = commandFrame then do
    let apiHandlers ← s.apiHandlers
    let (actions, handler) ← walk sourceAddress s.incoming 0 apiHandlers
    let dropped := if handler = none then [.warn (.unsolicitedMessage s.incoming.apiType)] else []
    some (actions ++ dropped ++ [.startNewAsyncRecv])
  else if s.incoming.frameType = responseFrame ∨ s.incoming.frameType = errorFrame then
    match s.incomingActiveCallback with
    | some temp => some [.clear, .active temp lenOrRc, .startNewAsyncRecv]
    | none => some [.warn .unsolicitedResponse, .startNewAsyncRecv]
  else some [.warn (.invalidFrameType s.incoming.frameType), .startNewAsyncRecv]

def startNewAsyncRecv (s : Dispatcher) : Dispatcher := { s with asyncActive := true, asyncCallback := true }

/-- It does this, up to its end or to where it waits for a function. -/
def proceed (s : Dispatcher) : List RecvAction → Dispatcher × List RecvAction
  | [] => (s, [])
  | .handler call :: left => ({ s with stack := .recvCallback left :: s.stack }, [.handler call])
  | .active callback lenOrRc :: left =>
    ({ s with stack := .recvCallback left :: s.stack }, [.active callback lenOrRc])
  | .clear :: left => (proceed { s with incomingActiveCallback := none } left).map id (.clear :: ·)
  | .startNewAsyncRecv :: left => (proceed s.startNewAsyncRecv left).map id (.startNewAsyncRecv :: ·)
  | .warn warning :: left => (proceed s left).map id (.warn warning :: ·)

/-- Where `signpost_api_recv_callback` is called. -/
def entered (s : Dispatcher) (call : AppCall) (below : List RecvFrame) : Dispatcher :=
  { s with incoming := call.frame.getD s.incoming, asyncCallback := false, stack := below }

def next (s : Dispatcher) : Event → Option (Dispatcher × List RecvAction)
  | .init apiHandlers => some ({ s with apiHandlers }.startNewAsyncRecv, [])
  | .store callback => some ({ s with incomingActiveCallback := callback }, [])
  | .send => some (s.startNewAsyncRecv, [])
  | .arrive =>
    if s.asyncActive then some ({ s with asyncActive := false, stack := .getMessage :: s.stack }, [])
    else some (s, [])
  | .received call =>
    match s.stack with
    | .getMessage :: below =>
      if s.asyncCallback then
        ((s.entered call below).recvCallback call.senderAddress call.lenOrRc).map (s.entered call below).proceed
      else some ({ s with stack := below }, [])
    | _ => none
  | .ret =>
    match s.stack with
    | .recvCallback left :: below => some ({ s with stack := below }.proceed left)
    | _ => none

def step (s : Dispatcher) (e : Event) (s' : Dispatcher) (os : List RecvAction) : Prop := s.next e = some (s', os)

/-! ## What a call does -/

/-- It has been called with a message for a handler. -/
def Addressed (s : Dispatcher) (lenOrRc : Int) : Prop :=
  0 ≤ lenOrRc ∧ (s.incoming.frameType = notificationFrame ∨ s.incoming.frameType = commandFrame)

/-- It has been called with a message for the callback that waits. -/
def Answered (s : Dispatcher) (lenOrRc : Int) : Prop :=
  0 ≤ lenOrRc ∧ (s.incoming.frameType = responseFrame ∨ s.incoming.frameType = errorFrame)

instance (s : Dispatcher) (lenOrRc : Int) : Decidable (s.Addressed lenOrRc) := inferInstanceAs (Decidable (_ ∧ _))

instance (s : Dispatcher) (lenOrRc : Int) : Decidable (s.Answered lenOrRc) := inferInstanceAs (Decidable (_ ∧ _))

/-- A handler is registered for the API type of the message. -/
def Matches (s : Dispatcher) (api : ApiHandler) : Bool := api.apiType = s.incoming.apiType

end Dispatcher

/-- The call of a handler that this is, if it is one. -/
def RecvAction.handler? : RecvAction → Option HandlerCall
  | .handler call => some call
  | _ => none

/-- The call of the callback that waited that this is, if it is one. -/
def RecvAction.active? : RecvAction → Option (Callback × Int)
  | .active callback lenOrRc => some (callback, lenOrRc)
  | _ => none

namespace Dispatcher

/-- The message is handed to the first handler of its API or to the callback that waits,
as its frame type says, and to nobody else, or reported; and the receive is armed again. -/
structure Handles (s : Dispatcher) (sourceAddress : UInt8) (lenOrRc : Int) (actions : List RecvAction) : Prop where
  handler : actions.filterMap RecvAction.handler? = if s.Addressed lenOrRc then
      (((s.apiHandlers.getD []).findIdx? s.Matches).map fun i => ⟨i, sourceAddress, s.incoming⟩).toList
    else []
  active : actions.filterMap RecvAction.active? = if s.Answered lenOrRc then
      (s.incomingActiveCallback.map fun callback => (callback, lenOrRc)).toList
    else []
  cleared : ∀ callback rc, .active callback rc ∈ actions → [.clear, .active callback rc] <+: actions
  dropped : .warn (.unsolicitedMessage s.incoming.apiType) ∈ actions ↔
    s.Addressed lenOrRc ∧ ∀ api ∈ s.apiHandlers.getD [], ¬ s.Matches api
  rearmed : actions.getLast? = some .startNewAsyncRecv

/-- The first handler for a message has a callback. -/
def Handled (s : Dispatcher) : Prop :=
  ∃ apiHandlers, s.apiHandlers = some apiHandlers ∧ ∃ api, apiHandlers.find? s.Matches = some api ∧
    api.callback.isSome

section
variable {s : Dispatcher} {sourceAddress : UInt8} {lenOrRc : Int} {apiHandlers : List ApiHandler}
  {actions : List RecvAction} {n : Nat}

theorem walk_none (h : ∀ api ∈ apiHandlers, ¬ s.Matches api) :
    walk sourceAddress s.incoming n apiHandlers = some ([], some (n + apiHandlers.length)) := by
  induction apiHandlers generalizing n with
  | nil => rfl
  | cons api rest ih =>
    obtain ⟨hapi, hrest⟩ := List.forall_mem_cons.mp h
    rw [walk, if_neg (fun htype => hapi (decide_eq_true htype)), ih hrest, List.length_cons, Nat.add_right_comm,
      Nat.add_assoc]

theorem walk_some {api : ApiHandler} (h : apiHandlers.find? s.Matches = some api) :
    walk sourceAddress s.incoming n apiHandlers = api.callback.bind fun _ =>
      (apiHandlers.findIdx? s.Matches).map fun i => ([.handler ⟨n + i, sourceAddress, s.incoming⟩], some (n + i)) := by
  induction apiHandlers generalizing n with
  | nil => cases h
  | cons first rest ih =>
    rw [List.find?_cons] at h
    rw [walk, List.findIdx?_cons]
    cases hfirst : s.Matches first with
    | true =>
      rw [hfirst] at h
      obtain rfl := Option.some.inj h
      rw [if_pos (of_decide_eq_true hfirst), if_pos rfl]
      cases first.callback <;> rfl
    | false =>
      rw [hfirst] at h
      rw [if_neg (of_decide_eq_false hfirst), if_neg Bool.false_ne_true, ih h]
      simp only [Option.map_map, Function.comp_def, Nat.add_right_comm, Nat.add_assoc]

theorem answered_not_addressed (h : s.Answered lenOrRc) : ¬ s.Addressed lenOrRc := by
  rintro ⟨-, haddressed⟩
  rcases h.2 with h | h <;> rw [h] at haddressed <;> exact absurd haddressed (by decide)

theorem Handles.of_warn {warning : RecvWarning} (haddressed : ¬ s.Addressed lenOrRc)
    (hanswered : s.Answered lenOrRc → s.incomingActiveCallback = none)
    (hwarning : ∀ apiType, warning ≠ .unsolicitedMessage apiType) :
    s.Handles sourceAddress lenOrRc [.warn warning, .startNewAsyncRecv] where
  handler := by rw [if_neg haddressed]; rfl
  active := by
    split
    · next h => rw [hanswered h]; rfl
    · rfl
  cleared := by simp
  dropped := by
    refine ⟨fun h => ?_, fun h => absurd h.1 haddressed⟩
    simp only [List.mem_cons, RecvAction.warn.injEq, reduceCtorEq, List.not_mem_nil, or_false] at h
    exact absurd h.symm (hwarning _)
  rearmed := rfl

theorem Handles.of_active {callback : Callback} (h : s.Answered lenOrRc)
    (hactive : s.incomingActiveCallback = some callback) :
    s.Handles sourceAddress lenOrRc [.clear, .active callback lenOrRc, .startNewAsyncRecv] where
  handler := by rw [if_neg (answered_not_addressed h)]; rfl
  active := by rw [if_pos h, hactive]; rfl
  cleared := by
    intro callback rc hmem
    simp only [List.mem_cons, RecvAction.active.injEq, reduceCtorEq, List.not_mem_nil, or_false, false_or] at hmem
    obtain ⟨rfl, rfl⟩ := hmem
    exact ⟨[.startNewAsyncRecv], rfl⟩
  dropped := by simp [answered_not_addressed h]
  rearmed := rfl

theorem Handles.of_handler {i : Nat} (h : s.Addressed lenOrRc) (htable : s.apiHandlers = some apiHandlers)
    (hfirst : apiHandlers.findIdx? s.Matches = some i) :
    s.Handles sourceAddress lenOrRc [.handler ⟨i, sourceAddress, s.incoming⟩, .startNewAsyncRecv] where
  handler := by rw [if_pos h, htable, Option.getD_some, hfirst]; rfl
  active := by rw [if_neg fun hanswered => answered_not_addressed hanswered h]; rfl
  cleared := by simp
  dropped := by
    have hmatches : ∃ api ∈ apiHandlers, s.Matches api := by
      have hsome : (apiHandlers.findIdx? s.Matches).isSome = apiHandlers.any s.Matches := List.findIdx?_isSome
      rw [hfirst, Option.isSome_some] at hsome
      exact List.any_eq_true.mp hsome.symm
    obtain ⟨api, hapi, hmatch⟩ := hmatches
    simp only [List.mem_cons, reduceCtorEq, List.not_mem_nil, or_false, htable, Option.getD_some, false_iff]
    exact fun hnone => hnone.2 api hapi hmatch
  rearmed := rfl

theorem recvCallback_of_addressed (h : s.Addressed lenOrRc) (htable : s.apiHandlers = some apiHandlers) :
    s.recvCallback sourceAddress lenOrRc = (walk sourceAddress s.incoming 0 apiHandlers).bind fun walked =>
      some (walked.1 ++ (if walked.2 = none then [.warn (.unsolicitedMessage s.incoming.apiType)] else []) ++
        [.startNewAsyncRecv]) := by
  rw [recvCallback, if_neg (Int.not_lt.mpr h.1), if_pos h.2, htable]
  rfl

/-- A message for a handler: it is handled if and only if there is one, with a callback. -/
theorem dispatched_addressed (h : s.Addressed lenOrRc) :
    (∃ actions, s.recvCallback sourceAddress lenOrRc = some actions ∧ s.Handles sourceAddress lenOrRc actions) ↔
      s.Handled := by
  cases htable : s.apiHandlers with
  | none =>
    have hnull : s.recvCallback sourceAddress lenOrRc = none := by
      rw [recvCallback, if_neg (Int.not_lt.mpr h.1), if_pos h.2, htable]
      rfl
    simp [hnull, Handled, htable]
  | some apiHandlers =>
    rw [recvCallback_of_addressed h htable]
    cases hfind : apiHandlers.find? s.Matches with
    | none =>
      -- The walk ends at the `NULL` of the table, and that place is not `NULL`.
      rw [walk_none (List.find?_eq_none.mp hfind)]
      refine ⟨?_, fun ⟨_, hsome, _, hfirst, _⟩ => ?_⟩
      · rintro ⟨actions, hactions, hhandles⟩
        obtain rfl := Option.some.inj hactions
        have hdropped := hhandles.dropped.mpr ⟨h, by rw [htable]; exact List.find?_eq_none.mp hfind⟩
        simp at hdropped
      · obtain rfl := Option.some.inj (htable.symm.trans hsome)
        rw [hfind] at hfirst
        cases hfirst
    | some api =>
      obtain ⟨i, hi⟩ : ∃ i, apiHandlers.findIdx? s.Matches = some i := by
        refine Option.isSome_iff_exists.mp ?_
        rw [List.findIdx?_isSome]
        exact List.any_eq_true.mpr ⟨api, List.mem_of_find?_eq_some hfind, List.find?_some hfind⟩
      rw [walk_some hfind, hi]
      have hhandled : s.Handled ↔ api.callback.isSome := by
        simp [Handled, htable, hfind]
      rw [hhandled]
      cases api.callback with
      | none => simp
      | some function =>
        simp only [Option.bind_some, Option.map_some, Nat.zero_add, Option.some.injEq, Option.isSome_some, iff_true]
        exact ⟨_, rfl, Handles.of_handler h htable hi⟩

theorem recvCallback_of_not_addressed (sourceAddress : UInt8) (h : ¬ s.Addressed lenOrRc) :
    (∃ warning, (∀ apiType, warning ≠ .unsolicitedMessage apiType) ∧
      (s.Answered lenOrRc → s.incomingActiveCallback = none) ∧
      s.recvCallback sourceAddress lenOrRc = some [.warn warning, .startNewAsyncRecv]) ∨
    ∃ callback, s.Answered lenOrRc ∧ s.incomingActiveCallback = some callback ∧
      s.recvCallback sourceAddress lenOrRc = some [.clear, .active callback lenOrRc, .startNewAsyncRecv] := by
  unfold recvCallback
  split
  · next hrc =>
    have hanswered : s.Answered lenOrRc → s.incomingActiveCallback = none := fun h => absurd h.1 (Int.not_le.mpr hrc)
    split
    · exact .inl ⟨_, by simp, hanswered, rfl⟩
    · exact .inl ⟨_, by simp, hanswered, rfl⟩
  · next hrc =>
    rw [if_neg fun hframe => h ⟨Int.not_lt.mp hrc, hframe⟩]
    split
    · next hframe =>
      cases hactive : s.incomingActiveCallback with
      | some callback => exact .inr ⟨callback, ⟨Int.not_lt.mp hrc, hframe⟩, rfl, rfl⟩
      | none => exact .inl ⟨_, by simp, fun _ => rfl, rfl⟩
    · next hframe => exact .inl ⟨_, by simp, fun hanswered => absurd hanswered.2 hframe, rfl⟩

theorem dispatched_iff :
    (∃ actions, s.recvCallback sourceAddress lenOrRc = some actions ∧ s.Handles sourceAddress lenOrRc actions) ↔
      (s.Addressed lenOrRc → s.Handled) := by
  by_cases haddressed : s.Addressed lenOrRc
  · rw [dispatched_addressed haddressed, forall_prop_of_true haddressed]
  refine iff_of_true ?_ fun h => absurd h haddressed
  obtain ⟨warning, hwarning, hnone, hrecv⟩ | ⟨callback, hanswered, hactive, hrecv⟩ :=
    recvCallback_of_not_addressed sourceAddress haddressed
  · exact ⟨_, hrecv, .of_warn haddressed hnone hwarning⟩
  · exact ⟨_, hrecv, .of_active hanswered hactive⟩

/-! ## Runs -/

/-- If it is called at this event, the message is handled, and no null pointer is dereferenced. -/
def Dispatched (s : Dispatcher) (e : Event) : Prop :=
  ∀ call below, e = .received call → s.stack = .getMessage :: below → s.asyncCallback = true →
    ∃ actions, (s.entered call below).recvCallback call.senderAddress call.lenOrRc = some actions ∧
      (s.entered call below).Handles call.senderAddress call.lenOrRc actions

/-- If it is called at this event with a message for a handler, there is one, with a callback. -/
def Dispatchable (s : Dispatcher) (e : Event) : Prop :=
  ∀ call below, e = .received call → s.stack = .getMessage :: below → s.asyncCallback = true →
    (s.entered call below).Addressed call.lenOrRc → (s.entered call below).Handled

/-- Nothing is under way, and the receive is armed. -/
structure Armed (s : Dispatcher) : Prop where
  stack : s.stack = []
  asyncActive : s.asyncActive = true
  asyncCallback : s.asyncCallback = true

/-- The callback that an event stores. -/
def Event.stored? : Event → Option Callback
  | .store callback => callback
  | _ => none

/-- The callbacks that got a response or an error. -/
def handed (actions : List RecvAction) : List Callback := (actions.filterMap RecvAction.active?).map Prod.fst

/-- Of every message that is called for, what the call does is right; when nothing is under way, the
receive is armed; and every callback that was stored has got at most one response or error. -/
structure Dispatches (s : Dispatcher) (es : List Event) : Prop where
  dispatched : Run.Along step Dispatched s es
  rearmed {s' os} : Run step s es s' os → s'.stack = [] → s'.Armed
  once {s' os} : Run step s es s' os →
    (handed os ++ s'.incomingActiveCallback.toList).Sublist
      (s.incomingActiveCallback.toList ++ es.filterMap Event.stored?)

/-- What is left to do of every call arms the receive again. -/
structure Invariant (s : Dispatcher) : Prop where
  left {left} : .recvCallback left ∈ s.stack → left = [.startNewAsyncRecv]
  callback : s.asyncCallback = false → ∃ left, .recvCallback left ∈ s.stack
  active : s.asyncActive = false → s.stack ≠ []

variable {s' : Dispatcher} {e : Event} {es : List Event} {os : List RecvAction}

theorem walk_cases {walked : List RecvAction × Option Nat}
    (h : walk sourceAddress s.incoming n apiHandlers = some walked) :
    walked.2 ≠ none ∧ (walked.1 = [] ∨ ∃ call, walked.1 = [.handler call]) := by
  induction apiHandlers generalizing n with
  | nil =>
    cases h
    exact ⟨by simp, .inl rfl⟩
  | cons api rest ih =>
    rw [walk] at h
    split at h
    · obtain ⟨_, -, rfl⟩ := Option.map_eq_some_iff.mp h
      exact ⟨by simp, .inr ⟨_, rfl⟩⟩
    · exact ih h

theorem recvCallback_cases (h : s.recvCallback sourceAddress lenOrRc = some actions) :
    actions = [.startNewAsyncRecv] ∨ (∃ warning, actions = [.warn warning, .startNewAsyncRecv]) ∨
      (∃ call, actions = [.handler call, .startNewAsyncRecv]) ∨
      ∃ callback, s.incomingActiveCallback = some callback ∧
        actions = [.clear, .active callback lenOrRc, .startNewAsyncRecv] := by
  by_cases haddressed : s.Addressed lenOrRc
  · rw [recvCallback, if_neg (Int.not_lt.mpr haddressed.1), if_pos haddressed.2] at h
    simp only [Option.bind_eq_bind, Option.bind_eq_some_iff] at h
    obtain ⟨apiHandlers, -, walked, hwalk, hactions⟩ := h
    obtain rfl := Option.some.inj hactions
    obtain ⟨hpointer, hwalked | ⟨call, hwalked⟩⟩ := walk_cases hwalk
    · rw [hwalked, if_neg hpointer]
      exact .inl rfl
    · rw [hwalked, if_neg hpointer]
      exact .inr (.inr (.inl ⟨call, rfl⟩))
  · obtain ⟨warning, -, -, hrecv⟩ | ⟨callback, -, hactive, hrecv⟩ :=
      recvCallback_of_not_addressed sourceAddress haddressed
    · exact .inr (.inl ⟨warning, Option.some.inj (h.symm.trans hrecv)⟩)
    · exact .inr (.inr (.inr ⟨callback, hactive, Option.some.inj (h.symm.trans hrecv)⟩))

theorem recvCallback_proceeds (h : s.recvCallback sourceAddress lenOrRc = some actions)
    (hproceed : s.proceed actions = (s', os)) :
    (s' = s.startNewAsyncRecv ∧ handed os = []) ∨
      (s' = { s with stack := .recvCallback [.startNewAsyncRecv] :: s.stack } ∧ handed os = []) ∨
      ∃ callback, s.incomingActiveCallback = some callback ∧ handed os = [callback] ∧
        s' = { s with incomingActiveCallback := none, stack := .recvCallback [.startNewAsyncRecv] :: s.stack } := by
  obtain ⟨rfl, rfl⟩ := Prod.mk.inj hproceed.symm
  obtain rfl | ⟨warning, rfl⟩ | ⟨call, rfl⟩ | ⟨callback, hactive, rfl⟩ := recvCallback_cases h
  · exact .inl ⟨rfl, rfl⟩
  · exact .inl ⟨rfl, rfl⟩
  · exact .inr (.inl ⟨rfl, rfl⟩)
  · exact .inr (.inr ⟨callback, hactive, rfl, rfl⟩)

theorem Invariant.of_rearmed (hleft : ∀ {left}, .recvCallback left ∈ s.stack → left = [.startNewAsyncRecv])
    (hactive : s.asyncActive = true) (hcallback : s.asyncCallback = true) : s.Invariant where
  left := hleft
  callback hnull := absurd hcallback (Bool.eq_false_iff.mp hnull)
  active hnull := absurd hactive (Bool.eq_false_iff.mp hnull)

/-- The receive is armed, and no frame is new. -/
def Rearmed (s s' : Dispatcher) : Prop :=
  (∀ {frame}, frame ∈ s'.stack → frame ∈ s.stack) ∧ s'.asyncActive = true ∧ s'.asyncCallback = true

/-- At most a `get_message` has begun or has come to its end. -/
def Received (s s' : Dispatcher) : Prop :=
  (∀ {left}, .recvCallback left ∈ s'.stack ↔ .recvCallback left ∈ s.stack) ∧
    s'.asyncCallback = s.asyncCallback ∧ (s'.asyncActive = false → s'.stack ≠ [])

/-- A function is called, and arming the receive is left for when it returns. -/
def Called (s s' : Dispatcher) : Prop :=
  ∃ below, s'.stack = .recvCallback [.startNewAsyncRecv] :: below ∧ ∀ {frame}, frame ∈ below → frame ∈ s.stack

theorem step_cases (h : s.Invariant) (hstep : s.step e s' os) :
    (∃ callback, e = .store callback ∧ os = [] ∧ s' = { s with incomingActiveCallback := callback }) ∨
      (s.incomingActiveCallback.toList = handed os ++ s'.incomingActiveCallback.toList ∧
        (s.Rearmed s' ∨ s.Received s' ∨ s.Called s')) := by
  unfold Dispatcher.step at hstep
  cases e with
  | init apiHandlers =>
    cases hstep
    exact .inr ⟨rfl, .inl ⟨id, rfl, rfl⟩⟩
  | store callback =>
    cases hstep
    exact .inl ⟨callback, rfl, rfl, rfl⟩
  | send =>
    cases hstep
    exact .inr ⟨rfl, .inl ⟨id, rfl, rfl⟩⟩
  | arrive =>
    rw [next] at hstep
    split at hstep
    · cases hstep
      exact .inr ⟨rfl, .inr (.inl ⟨by simp, rfl, fun _ => List.cons_ne_nil _ _⟩)⟩
    · cases hstep
      exact .inr ⟨rfl, .inr (.inl ⟨Iff.rfl, rfl, h.active⟩)⟩
  | received call =>
    rw [next] at hstep
    split at hstep
    · next below hstack =>
      have hbelow : ∀ {frame}, frame ∈ below → frame ∈ s.stack := by simp +contextual [hstack]
      split at hstep
      · obtain ⟨actions, hactions, hproceed⟩ := Option.map_eq_some_iff.mp hstep
        obtain ⟨rfl, hnone⟩ | ⟨rfl, hnone⟩ | ⟨callback, hactive, hhanded, rfl⟩ :=
          recvCallback_proceeds hactions hproceed
        · exact .inr ⟨by rw [hnone]; rfl, .inl ⟨hbelow, rfl, rfl⟩⟩
        · exact .inr ⟨by rw [hnone]; rfl, .inr (.inr ⟨below, rfl, hbelow⟩)⟩
        · have hstored : s.incomingActiveCallback = some callback := hactive
          exact .inr ⟨by rw [hhanded, hstored]; rfl, .inr (.inr ⟨below, rfl, hbelow⟩)⟩
      · next hnull =>
        cases hstep
        have hsame : ∀ {left}, .recvCallback left ∈ below ↔ RecvFrame.recvCallback left ∈ s.stack := by simp [hstack]
        obtain ⟨left, hleft⟩ := h.callback (eq_false_of_ne_true hnull)
        exact .inr ⟨rfl, .inr (.inl ⟨hsame, rfl, fun _ => List.ne_nil_of_mem (hsame.mpr hleft)⟩)⟩
    · cases hstep
  | ret =>
    rw [next] at hstep
    split at hstep
    · next left below hstack =>
      have hbelow : ∀ {frame}, frame ∈ below → frame ∈ s.stack := by simp +contextual [hstack]
      obtain rfl : left = [.startNewAsyncRecv] := h.left (by simp [hstack])
      cases hstep
      exact .inr ⟨rfl, .inl ⟨hbelow, rfl, rfl⟩⟩
    · cases hstep

theorem Invariant.step (h : s.Invariant) (hstep : s.step e s' os) : s'.Invariant := by
  obtain ⟨callback, -, -, rfl⟩ | ⟨-, ⟨hstack, hactive, hcallback⟩ | ⟨hsame, hcallback, hactive⟩ |
    ⟨below, hstack, hbelow⟩⟩ := step_cases h hstep
  · exact ⟨h.left, h.callback, h.active⟩
  · exact .of_rearmed (fun hmem => h.left (hstack hmem)) hactive hcallback
  · refine ⟨fun hmem => h.left (hsame.mp hmem), fun hnull => ?_, hactive⟩
    obtain ⟨left, hleft⟩ := h.callback (hcallback.symm.trans hnull)
    exact ⟨left, hsame.mpr hleft⟩
  · refine ⟨fun hmem => ?_, fun _ => ⟨_, hstack ▸ List.mem_cons_self⟩, fun _ => hstack ▸ List.cons_ne_nil _ _⟩
    rw [hstack] at hmem
    rcases List.mem_cons.mp hmem with heq | hmem
    · exact RecvFrame.recvCallback.inj heq
    · exact h.left (hbelow hmem)

theorem step_once (h : s.Invariant) (hstep : s.step e s' os) :
    (handed os ++ s'.incomingActiveCallback.toList).Sublist (s.incomingActiveCallback.toList ++ e.stored?.toList) := by
  obtain ⟨callback, rfl, rfl, rfl⟩ | ⟨hhanded, -⟩ := step_cases h hstep
  · exact List.sublist_append_right ..
  · rw [hhanded]
    exact List.sublist_append_left ..

theorem handed_append (actions left : List RecvAction) : handed (actions ++ left) = handed actions ++ handed left := by
  rw [handed, List.filterMap_append, List.map_append]
  rfl

theorem run_once (h : s.Invariant) (hrun : Run step s es s' os) :
    (handed os ++ s'.incomingActiveCallback.toList).Sublist
      (s.incomingActiveCallback.toList ++ es.filterMap Event.stored?) := by
  induction hrun with
  | nil => exact List.sublist_append_left ..
  | @cons s e s₁ o es s' os hstep _ ih =>
    have hstored : (e :: es).filterMap Event.stored? = e.stored?.toList ++ es.filterMap Event.stored? := by
      rw [List.filterMap_cons]
      cases e.stored? <;> rfl
    rw [handed_append, hstored, List.append_assoc, ← List.append_assoc s.incomingActiveCallback.toList]
    calc (handed o ++ (handed os ++ s'.incomingActiveCallback.toList)).Sublist
          (handed o ++ (s₁.incomingActiveCallback.toList ++ es.filterMap Event.stored?)) :=
            (ih (h.step hstep)).append_left _
      _ = handed o ++ s₁.incomingActiveCallback.toList ++ es.filterMap Event.stored? := (List.append_assoc ..).symm
      List.Sublist _ _ := (step_once h hstep).append_right _

theorem Armed.invariant (h : s.Armed) : s.Invariant :=
  .of_rearmed (fun hmem => by simp [h.stack] at hmem) h.asyncActive h.asyncCallback

theorem Invariant.armed (h : s.Invariant) (hstack : s.stack = []) : s.Armed where
  stack := hstack
  asyncActive := by
    cases hactive : s.asyncActive with
    | true => rfl
    | false => exact absurd hstack (h.active hactive)
  asyncCallback := by
    cases hcallback : s.asyncCallback with
    | true => rfl
    | false =>
      obtain ⟨left, hleft⟩ := h.callback hcallback
      rw [hstack] at hleft
      cases hleft

/-- Every call of every run does what is right exactly when each message for a handler has one. -/
theorem recvCallback_dispatches (h : s.Armed) : s.Dispatches es ↔ Run.Along step Dispatchable s es := by
  have hdispatched : Run.Along step Dispatched s es ↔ Run.Along step Dispatchable s es :=
    Run.Along.congr fun s e => forall₅_congr fun _ _ _ _ _ => dispatched_iff
  refine ⟨fun hall => hdispatched.mp hall.dispatched, fun hall => ⟨hdispatched.mpr hall, ?_, ?_⟩⟩
  · intro s' os hrun hstack
    exact (hrun.invariant (fun hinv hstep => hinv.step hstep) h.invariant).armed hstack
  · intro s' os hrun
    exact run_once h.invariant hrun

end

/-- A notification for the networking API. -/
def sampleNotification : AppCall := ⟨0, 0x20, some ⟨notificationFrame, networkingApiType, 0, 0, fun _ => 0⟩⟩

def sampleDispatcher (apiHandlers : Option (List ApiHandler)) : Dispatcher :=
  ⟨apiHandlers, ⟨0, 0, 0, 0, fun _ => 0⟩, none, true, true, []⟩

theorem recvCallback_dispatches_subscribe : (sampleDispatcher (some [subscribeHandler])).Dispatches
    [.arrive, .received sampleNotification, .ret] := by
  refine (recvCallback_dispatches ⟨rfl, rfl, rfl⟩).mpr ?_
  have hother : ∀ s e, (∀ call, e ≠ .received call) → Dispatchable s e := fun s e he call below heq =>
    absurd heq (he call)
  refine Run.along_cons.mpr ⟨hother _ _ (by simp), fun s' o hstep => ?_⟩
  cases hstep
  refine Run.along_cons.mpr ⟨fun call below heq _ _ _ => ?_, fun s' o hstep => ?_⟩
  · cases heq
    exact ⟨_, rfl, _, rfl, rfl⟩
  · exact Run.along_cons.mpr ⟨hother _ _ (by simp), fun s' o hstep => Run.along_nil⟩

/-- With no table, or with an empty one, a notification is not handled. -/
theorem notification_not_dispatched :
    ¬ (sampleDispatcher none).Dispatches [.arrive, .received sampleNotification] ∧
      ¬ (sampleDispatcher (some [])).Dispatches [.arrive, .received sampleNotification] := by
  have hhandled : ∀ apiHandlers, (sampleDispatcher apiHandlers).Dispatches [.arrive, .received sampleNotification] →
      ∃ s : Dispatcher, s.apiHandlers = apiHandlers ∧ s.Handled := by
    intro apiHandlers h
    have hreceived := (Run.along_cons.mp ((Run.along_cons.mp h.dispatched).2 _ _ rfl)).1
    have hactions := hreceived sampleNotification [] rfl rfl rfl
    exact ⟨_, rfl, dispatched_iff.mp hactions ⟨Int.le_refl 0, .inl rfl⟩⟩
  refine ⟨fun h => ?_, fun h => ?_⟩
  · obtain ⟨s, hs, _, htable, -⟩ := hhandled _ h
    cases hs.symm.trans htable
  · obtain ⟨s, hs, _, htable, _, hfirst, -⟩ := hhandled _ h
    obtain rfl := Option.some.inj (hs.symm.trans htable)
    cases hfirst

end Dispatcher

end Signpost
