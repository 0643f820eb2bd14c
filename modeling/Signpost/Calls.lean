/-
Runs of the API's calls on a module's one stack, and who holds
`incoming_active_callback` and `energy_cb` in them.

While a call sends or waits, messages come in, and the code they run (a
handler, the callback of an asynchronous query) may begin calls of its own. The
times, and which message answered what, are kept beside the program's state.
-/
import Signpost.Lib.Run
import Signpost.Api

namespace Signpost

open Lib

/-- A message as the application layer gets it, and when its sender sent it. -/
structure Incoming where
  lenOrRc : Int
  senderAddress : UInt8
  recvBuf : Mem UInt8
  sentAt : Nat

def Incoming.call (m : Incoming) : AppCall := appLayerCallback m.lenOrRc m.senderAddress m.recvBuf

namespace Calls

structure Pending where
  call : Api.Call
  /-- When its request was on the bus. -/
  requestedAt : Option Nat
  /-- The code of its send, once it waits. -/
  sent : Option Int

inductive Frame
  | call (p : Pending)
  /-- A handler, a callback of the application, or another task. -/
  | task

structure State where
  api : Api
  stack : List Frame
  now : Nat
  /-- An asynchronous query has been made, and has neither failed nor called back. -/
  querying : Bool
  /-- The message that came in last. -/
  held : Option Incoming
  /-- The message that set a variable, where it is set. -/
  answered : Flag → Option Incoming

/-- A call that has returned, and the messages its result is from: the one that
answered it and, if it looks at that, the one that came in last. -/
structure Returned where
  pending : Pending
  rc : Int
  used : List Incoming

inductive Event
  /-- The task on top, or the main program, calls. -/
  | begin (c : Api.Call)
  /-- The request of the call on top is on the bus. -/
  | request
  /-- Its send returns. -/
  | sent (err : Int)
  /-- What it waits for is set. -/
  | wake
  | timeout
  | recv (m : Incoming)
  /-- A task begins. -/
  | task
  /-- The task on top returns. -/
  | ret
  /-- Other code sets `incoming_active_callback`. -/
  | other

/-- Its result is made of the message that came in last, once it wakes. -/
def reads : Api.Call → Bool
  | .storageScan .. | .storageWrite _ | .storageRead .. | .storageDelete _ | .energyQuery _ | .energyQueryAsync _ =>
    false
  | .processingTwowaySend | .watchdogStart | .watchdogTickle => false
  | .networkingPublish _ | .energyReport _ | .energyReset | .timelocationGetTime _ | .timelocationGetLocation _
  | .initializationGetModuleState | .processingInit | .processingOnewaySend => true

namespace State

/-- The variables a step of a call leaves. -/
def put (s : State) (api : Api) : State :=
  { s with api, answered := fun f => if api.flag f then s.answered f else none }

def used (s : State) (c : Api.Call) : List Incoming :=
  (c.usage.flag.bind s.answered).toList ++ if reads c then s.held.toList else []

/-- The end of a wait, with its code. -/
def woken (s : State) (p : Pending) (below : List Frame) (w : Wait) (err rc : Int) :
    State × List Returned :=
  let r := w.woken err rc s.api
  ({ s.put r.1 with stack := below }, [⟨p, r.2, s.used p.call⟩])

/-- The variable that a message sets. -/
def raised (s : State) (m : Incoming) : Option Flag :=
  (s.api.taker m.call).bind fun cb => cb.raises s.api.energyCb

/-- A message has come in: the application's code that it runs is on top. -/
def received (s : State) (m : Incoming) : State :=
  let r := s.api.recv m.call
  { s with
    api := r.1
    stack := if r.2.isSome then .task :: s.stack else s.stack
    querying := s.querying && r.2 ≠ some Called.energyCb
    held := if m.call.frame.isSome then some m else s.held
    answered := fun f => if s.raised m = some f then some m else s.answered f }

variable (mktime : Tm → Bytes)

def act (s : State) : Event → Option (State × List Returned)
  | .begin c =>
    match s.stack with
    | .call _ :: _ => none
    | stack =>
      let r := (c.code mktime).start s.api
      match r.2 with
      | some rc => some (s.put r.1, [⟨⟨c, none, none⟩, rc, []⟩])
      | none =>
        some ({ s.put r.1 with
          stack := .call ⟨c, none, none⟩ :: stack
          querying := s.querying || c.usage.energyCb = some .user }, [])
  | .request =>
    match s.stack with
    | .call ⟨c, none, none⟩ :: below => some ({ s with stack := .call ⟨c, some s.now, none⟩ :: below }, [])
    | _ => none
  | .sent err =>
    match s.stack with
    | .call ⟨c, requestedAt, none⟩ :: below =>
      if err < 0 ∨ requestedAt.isSome then
        let r := (c.code mktime).sent err s.api
        let s' := { s.put r.1 with querying := s.querying && !(err < 0 && c.usage.energyCb = some EnergyCb.user) }
        match r.2 with
        | some rc => some ({ s' with stack := below }, [⟨⟨c, requestedAt, none⟩, rc, s.used c⟩])
        | none => some ({ s' with stack := .call ⟨c, requestedAt, some err⟩ :: below }, [])
      else none
    | _ => none
  | .wake =>
    match s.stack with
    | .call ⟨c, requestedAt, some err⟩ :: below =>
      match (c.code mktime).wait with
      | some w =>
        if s.api.flag w.flag then some (s.woken ⟨c, requestedAt, some err⟩ below w err portSuccess)
        else none
      | none => none
    | _ => none
  | .timeout =>
    match s.stack with
    | .call ⟨c, requestedAt, some err⟩ :: below =>
      match (c.code mktime).wait with
      | some w =>
        if s.api.flag w.flag = false ∧ w.ms.isSome = true then
          some (s.woken ⟨c, requestedAt, some err⟩ below w err portFail)
        else none
      | none => none
    | _ => none
  | .recv m => if m.sentAt ≤ s.now then some (s.received m, []) else none
  | .task => some ({ s with stack := .task :: s.stack }, [])
  | .ret =>
    match s.stack with
    | .task :: below => some ({ s with stack := below }, [])
    | _ => none
  | .other =>
    match s.stack with
    | .call _ :: _ => none
    | _ => some ({ s with api := { s.api with incomingActiveCallback := some .other } }, [])

def step (s : State) (e : Event) : Option (State × List Returned) :=
  (s.act mktime e).map fun r => ({ r.1 with now := s.now + 1 }, r.2)

/-- No call and no asynchronous query is in flight. -/
def Idle (s : State) : Prop :=
  (∀ p, .call p ∉ s.stack) ∧ s.querying = false ∧ s.api.incomingActiveCallback ≠ some .other

def Released (s : State) : Prop := s.api.incomingActiveCallback = none ∧ s.api.energyCb = none

def top (s : State) : Option Pending :=
  match s.stack with
  | .call p :: _ => some p
  | _ => none

theorem top_eq {s : State} {p : Pending} {below : List Frame} (h : s.stack = .call p :: below) :
    s.top = some p := by
  rw [top, h]

/-- The step does not leave a slot behind: a call that does not wait has been
answered while it was sending, if it was sent; a call that does not clear
`incoming_active_callback` when it times out does not hold it; and no query
times out while it holds `energy_cb`. No call is one of the processing or the
watchdog API, which are other code here. -/
def Keeps (s : State) : Event → Prop
  | .begin c => ¬ c.Untimed
  | .sent err => ∀ p ∈ s.top, p.call.Unwaiting → p.call.usage.energyCb = none → 0 ≤ err →
      s.api.incomingActiveCallback ≠ some p.call.usage.callback
  | .timeout => ∀ p ∈ s.top,
      (p.sent.any p.call.usage.forgets → s.api.incomingActiveCallback ≠ some p.call.usage.callback) ∧
      (p.call.usage.energyCb = some .sync → s.api.energyCb ≠ some .sync)
  | _ => True

instance (s : State) : ∀ e, Decidable (s.Keeps e)
  | .sent _ => inferInstanceAs (Decidable (∀ p ∈ s.top, _ → _ → _ → _))
  | .timeout => inferInstanceAs (Decidable (∀ p ∈ s.top, (_ → _) ∧ (_ → _)))
  | .begin c => inferInstanceAs (Decidable (¬ c.Untimed))
  | .request => .isTrue trivial
  | .wake => .isTrue trivial
  | .recv _ => .isTrue trivial
  | .task => .isTrue trivial
  | .ret => .isTrue trivial
  | .other => .isTrue trivial

end State

/-! ## What a step can do -/

inductive Stepped (mktime : Tm → Bytes) (s : State) : Event → State → List Returned → Prop
  | refused {c rc} : ((c.code mktime).start s.api).2 = some rc →
      Stepped mktime s (.begin c) (s.put ((c.code mktime).start s.api).1) [⟨⟨c, none, none⟩, rc, []⟩]
  | started {c} : ((c.code mktime).start s.api).2 = none →
      Stepped mktime s (.begin c) { s.put ((c.code mktime).start s.api).1 with
        stack := .call ⟨c, none, none⟩ :: s.stack
        querying := s.querying || c.usage.energyCb = some EnergyCb.user } []
  | request {c below} : s.stack = .call ⟨c, none, none⟩ :: below →
      Stepped mktime s .request { s with stack := .call ⟨c, some s.now, none⟩ :: below } []
  | returned {c t err rc below} : s.stack = .call ⟨c, t, none⟩ :: below →
      ((c.code mktime).sent err s.api).2 = some rc →
      Stepped mktime s (.sent err) { s.put ((c.code mktime).sent err s.api).1 with
        stack := below
        querying := s.querying && !(err < 0 && c.usage.energyCb = some EnergyCb.user) }
        [⟨⟨c, t, none⟩, rc, s.used c⟩]
  | waits {c t err below} : s.stack = .call ⟨c, t, none⟩ :: below →
      ((c.code mktime).sent err s.api).2 = none →
      Stepped mktime s (.sent err) { s.put ((c.code mktime).sent err s.api).1 with
        stack := .call ⟨c, t, some err⟩ :: below
        querying := s.querying && !(err < 0 && c.usage.energyCb = some EnergyCb.user) } []
  | woken {c t err below w} : s.stack = .call ⟨c, t, some err⟩ :: below → (c.code mktime).wait = some w →
      s.api.flag w.flag = true →
      Stepped mktime s .wake (s.woken ⟨c, t, some err⟩ below w err portSuccess).1
        (s.woken ⟨c, t, some err⟩ below w err portSuccess).2
  | timeout {c t err below w} : s.stack = .call ⟨c, t, some err⟩ :: below → (c.code mktime).wait = some w →
      s.api.flag w.flag = false → w.ms.isSome = true →
      Stepped mktime s .timeout (s.woken ⟨c, t, some err⟩ below w err portFail).1
        (s.woken ⟨c, t, some err⟩ below w err portFail).2
  | recv {m} : m.sentAt ≤ s.now → Stepped mktime s (.recv m) (s.received m) []
  | task : Stepped mktime s .task { s with stack := .task :: s.stack } []
  | ret {below} : s.stack = .task :: below → Stepped mktime s .ret { s with stack := below } []
  | other : Stepped mktime s .other { s with api := { s.api with incomingActiveCallback := some .other } } []

theorem act_stepped {mktime : Tm → Bytes} {s s' : State} {e : Event} {rs : List Returned}
    (h : s.act mktime e = some (s', rs)) : Stepped mktime s e s' rs := by
  cases e with
  | begin c =>
    simp only [State.act] at h
    split at h
    · cases h
    · split at h
      · next hrc =>
        cases h
        exact .refused hrc
      · next hrc =>
        cases h
        exact .started hrc
  | request =>
    simp only [State.act] at h
    split at h
    · next hstack =>
      cases h
      exact .request hstack
    · cases h
  | sent err =>
    simp only [State.act] at h
    split at h
    · next hstack =>
      split at h
      · split at h
        · next hrc =>
          cases h
          exact .returned hstack hrc
        · next hrc =>
          cases h
          exact .waits hstack hrc
      · cases h
    · cases h
  | wake =>
    simp only [State.act] at h
    split at h
    · next hstack =>
      split at h
      · next w hwait =>
        split at h
        · next hset =>
          cases h
          exact .woken hstack hwait hset
        · cases h
      · cases h
    · cases h
  | timeout =>
    simp only [State.act] at h
    split at h
    · next hstack =>
      split at h
      · next w hwait =>
        split at h
        · next hset =>
          cases h
          exact .timeout hstack hwait hset.1 hset.2
        · cases h
      · cases h
    · cases h
  | recv m =>
    simp only [State.act] at h
    split at h
    · next htime =>
      cases h
      exact .recv htime
    · cases h
  | task =>
    cases h
    exact .task
  | ret =>
    simp only [State.act] at h
    split at h
    · next hstack =>
      cases h
      exact .ret hstack
    · cases h
  | other =>
    simp only [State.act] at h
    split at h
    · cases h
    · cases h
      exact .other

theorem step_stepped {mktime : Tm → Bytes} {s s' : State} {e : Event} {rs : List Returned}
    (h : s.step mktime e = some (s', rs)) :
    ∃ s₁, Stepped mktime s e s₁ rs ∧ s' = { s₁ with now := s.now + 1 } := by
  obtain ⟨⟨s₁, rs₁⟩, hact, heq⟩ := Option.map_eq_some_iff.mp h
  cases heq
  exact ⟨s₁, act_stepped hact, rfl⟩

/-! ## Who holds the slots -/

/-- `incoming_active_callback` can be set to this for it: the late calls set it after their send. -/
def Pending.Holds (p : Pending) (cb : Callback) : Prop :=
  p.call.usage.callback = cb ∧ (p.call.usage.late = true → p.sent.isSome = true)

/-- What the slots hold belongs to a call on the stack, or to a query that is
in flight, and the variable it will set is not set. -/
structure Owned (api : Api) (stack : List Frame) (querying : Bool) : Prop where
  timed {p} : .call p ∈ stack → ¬ p.call.Untimed
  slot {cb} : api.incomingActiveCallback = some cb → cb ≠ .other → cb ≠ .energyQueryAsync →
    ∃ p, .call p ∈ stack ∧ p.Holds cb
  lowered {cb f} : api.incomingActiveCallback = some cb → cb.raises api.energyCb = some f →
    api.flag f = false
  query : api.incomingActiveCallback = some .energyQueryAsync → api.energyCb ≠ none
  sync : api.energyCb = some .sync →
    api.flag .energyQueryReady = false ∧ ∃ p, .call p ∈ stack ∧ p.call.usage.energyCb = some .sync
  user : api.energyCb = some .user → querying = true

section
variable {mktime : Tm → Bytes} {api api' : Api} {stack below : List Frame} {q : Bool} {c : Api.Call}
  {p : Pending}
  {t : Option Nat} {err rc : Int} {m : Incoming} {f : Frame}

theorem Owned.clear (htimed : ∀ {p}, .call p ∈ stack → ¬ p.call.Untimed)
    (hslot : api.incomingActiveCallback = none) (hcb : api.energyCb = none) : Owned api stack q := by
  refine ⟨htimed, ?_, ?_, ?_, ?_, ?_⟩ <;> simp [hslot, hcb]

/-- What leaves `energy_cb`, and leaves or clears the other slot, and raises
only what no holder waits for. -/
theorem Owned.mono (h : Owned api stack q) (hcb : api'.energyCb = api.energyCb)
    (hslot : (api'.incomingActiveCallback = api.incomingActiveCallback ∧
        ∀ f, api'.flag f = true → api.flag f = true) ∨
      (api'.incomingActiveCallback = none ∧
        (api'.flag .energyQueryReady = true → api.flag .energyQueryReady = true))) :
    Owned api' stack q := by
  have hready : api'.flag .energyQueryReady = true → api.flag .energyQueryReady = true := by
    rcases hslot with ⟨-, hflag⟩ | ⟨-, hflag⟩
    · exact hflag _
    · exact hflag
  constructor
  case timed => exact h.timed
  case slot =>
    intro cb hcb'
    rcases hslot with ⟨hsame, -⟩ | ⟨hnone, -⟩
    · exact h.slot (hsame ▸ hcb')
    · rw [hnone] at hcb'
      cases hcb'
  case lowered =>
    intro cb f hcb' hraises
    rcases hslot with ⟨hsame, hflag⟩ | ⟨hnone, -⟩
    · have hlow := h.lowered (hsame ▸ hcb') (hcb ▸ hraises)
      rw [← Bool.not_eq_true] at hlow ⊢
      exact fun hf => hlow (hflag f hf)
    · rw [hnone] at hcb'
      cases hcb'
  case query =>
    intro hcb'
    rcases hslot with ⟨hsame, -⟩ | ⟨hnone, -⟩
    · exact hcb ▸ h.query (hsame ▸ hcb')
    · rw [hnone] at hcb'
      cases hcb'
  case sync =>
    intro hsync
    obtain ⟨hlow, hstack⟩ := h.sync (hcb ▸ hsync)
    refine ⟨?_, hstack⟩
    rw [← Bool.not_eq_true] at hlow ⊢
    exact fun hf => hlow (hready hf)
  case user => exact fun huser => h.user (hcb ▸ huser)

theorem Owned.push (h : Owned api stack q) (f : Frame) (hf : ∀ p, f = .call p → ¬ p.call.Untimed) :
    Owned api (f :: stack) q where
  timed hp := by
    rcases List.mem_cons.mp hp with heq | hp
    · exact hf _ heq.symm
    · exact h.timed hp
  slot hcb hother hquery := by
    obtain ⟨p, hp, hholds⟩ := h.slot hcb hother hquery
    exact ⟨p, List.mem_cons_of_mem f hp, hholds⟩
  lowered := h.lowered
  query := h.query
  sync hsync := by
    obtain ⟨hlow, p, hp, hcb⟩ := h.sync hsync
    exact ⟨hlow, p, List.mem_cons_of_mem f hp, hcb⟩
  user := h.user

theorem Owned.pop (h : Owned api (f :: below) q)
    (hslot : ∀ p cb, f = .call p → api.incomingActiveCallback = some cb → cb ≠ .energyQueryAsync → ¬ p.Holds cb)
    (hsync : ∀ p, f = .call p → api.energyCb = some .sync → p.call.usage.energyCb ≠ some .sync) :
    Owned api below q where
  timed hp := h.timed (List.mem_cons_of_mem f hp)
  slot hcb hother hquery := by
    obtain ⟨p, hp, hholds⟩ := h.slot hcb hother hquery
    rcases List.mem_cons.mp hp with heq | hp
    · exact absurd hholds (hslot p _ heq.symm hcb hquery)
    · exact ⟨p, hp, hholds⟩
  lowered := h.lowered
  query := h.query
  sync hcb := by
    obtain ⟨hlow, p, hp, hp'⟩ := h.sync hcb
    rcases List.mem_cons.mp hp with heq | hp
    · exact absurd hp' (hsync p heq.symm hcb)
    · exact ⟨hlow, p, hp, hp'⟩
  user := h.user

theorem Owned.retop (h : Owned api (.call p :: below) q) (p' : Pending) (hcall : p'.call = p.call)
    (hsent : p.sent.isSome = true → p'.sent.isSome = true) : Owned api (.call p' :: below) q where
  timed hp := by
    rcases List.mem_cons.mp hp with heq | hp
    · cases heq
      rw [hcall]
      exact h.timed List.mem_cons_self
    · exact h.timed (List.mem_cons_of_mem _ hp)
  slot hcb hother hquery := by
    obtain ⟨p₁, hp, hholds⟩ := h.slot hcb hother hquery
    rcases List.mem_cons.mp hp with heq | hp
    · cases heq
      exact ⟨p', List.mem_cons_self, hcall ▸ hholds.1, fun hlate => hsent (hholds.2 (hcall ▸ hlate))⟩
    · exact ⟨p₁, List.mem_cons_of_mem _ hp, hholds⟩
  lowered := h.lowered
  query := h.query
  sync hcb := by
    obtain ⟨hready, p₁, hp, henergy⟩ := h.sync hcb
    rcases List.mem_cons.mp hp with heq | hp
    · cases heq
      exact ⟨hready, p', List.mem_cons_self, hcall ▸ henergy⟩
    · exact ⟨hready, p₁, List.mem_cons_of_mem _ hp, henergy⟩
  user := h.user

theorem Owned.start (h : Owned api stack q) (hc : ¬ c.Untimed)
    (hstart : ((c.code mktime).start api).2 = none) :
    Owned ((c.code mktime).start api).1 (.call ⟨c, none, none⟩ :: stack)
      (q || c.usage.energyCb = some EnergyCb.user) := by
  obtain ⟨hslot, hcb, hlow⟩ := (c.uses mktime).start_none hstart
  have hflag : ∀ {f}, api.flag f = false → ((c.code mktime).start api).1.flag f = false := by
    intro f hf
    rw [← Bool.not_eq_true] at hf ⊢
    exact fun hf' => hf ((c.uses mktime).start_flag hf')
  have hframe : ∀ p, Frame.call ⟨c, none, none⟩ = .call p → ¬ p.call.Untimed := by
    intro p hp
    cases hp
    exact hc
  cases hlate : c.usage.late with
  | true =>
    rw [hlate, if_pos rfl] at hslot
    rw [Api.Call.late_energyCb hlate, Option.none_or] at hcb
    rw [Api.Call.late_energyCb hlate, decide_eq_false (by simp), Bool.or_false]
    exact (h.mono hcb (.inl ⟨hslot, fun f => (c.uses mktime).start_flag⟩)).push _ hframe
  | false =>
    rw [hlate, if_neg Bool.false_ne_true] at hslot
    have hlow := hlow ((Api.Call.clearsLate_eq hc).trans hlate)
    constructor
    case timed =>
      intro p hp
      rcases List.mem_cons.mp hp with heq | hp
      · exact hframe p heq.symm
      · exact h.timed hp
    case slot =>
      intro cb hcb' _ _
      rw [hslot] at hcb'
      exact ⟨⟨c, none, none⟩, List.mem_cons_self, Option.some.inj hcb',
        fun hl => by rw [hlate] at hl; cases hl⟩
    case lowered =>
      intro cb f hcb' hraises
      rw [hslot] at hcb'
      rw [← Option.some.inj hcb', hcb] at hraises
      exact hlow f (Api.Call.raises_started hc hraises)
    case query =>
      intro hcb'
      rw [hslot] at hcb'
      have := Api.Call.query_iff.mp (Option.some.inj hcb')
      rw [hcb]
      cases henergy : c.usage.energyCb with
      | none => exact absurd henergy this
      | some x => simp
    case sync =>
      intro hsync
      rw [hcb] at hsync
      cases henergy : c.usage.energyCb with
      | none =>
        rw [henergy, Option.none_or] at hsync
        obtain ⟨hready, p, hp, hp'⟩ := h.sync hsync
        exact ⟨hflag hready, p, List.mem_cons_of_mem _ hp, hp'⟩
      | some x =>
        rw [henergy, Option.some_or] at hsync
        rw [hsync] at henergy
        exact ⟨hlow _ (Api.Call.sync_flag henergy), ⟨c, none, none⟩, List.mem_cons_self, henergy⟩
    case user =>
      intro huser
      rw [hcb] at huser
      cases henergy : c.usage.energyCb with
      | none =>
        rw [henergy, Option.none_or] at huser
        rw [h.user huser, Bool.true_or]
      | some x =>
        rw [henergy, Option.some_or] at huser
        rw [huser, decide_eq_true rfl, Bool.or_true]

theorem Owned.refused (h : Owned api stack q) (hstart : ((c.code mktime).start api).2 = some rc) :
    Owned ((c.code mktime).start api).1 stack q := by
  obtain ⟨-, hslot, hcb⟩ := (c.uses mktime).start_some hstart
  exact h.mono hcb (.inl ⟨hslot, fun f => (c.uses mktime).start_flag⟩)

theorem Owned.waits (h : Owned api (.call ⟨c, t, none⟩ :: below) q)
    (hsent : ((c.code mktime).sent err api).2 = none) :
    Owned ((c.code mktime).sent err api).1 (.call ⟨c, t, some err⟩ :: below) q := by
  obtain ⟨-, hslot, hcb, hflag, hlow⟩ := (c.uses mktime).sent_none hsent
  have hsame := h.retop ⟨c, t, some err⟩ rfl fun _ => rfl
  have hc : ¬ c.Untimed := h.timed List.mem_cons_self
  cases hlate : c.usage.late with
  | false =>
    rw [hlate, if_neg Bool.false_ne_true] at hslot
    exact hsame.mono hcb (.inl ⟨hslot, hflag⟩)
  | true =>
    rw [hlate, if_pos rfl] at hslot
    have hquery : c.usage.callback ≠ .energyQueryAsync :=
      fun hq => Api.Call.query_iff.mp hq (Api.Call.late_energyCb hlate)
    constructor
    case timed => exact hsame.timed
    case slot =>
      intro cb hcb' _ _
      rw [hslot] at hcb'
      exact ⟨_, List.mem_cons_self, Option.some.inj hcb', fun _ => rfl⟩
    case lowered =>
      intro cb f hcb' hraises
      rw [hslot] at hcb'
      rw [← Option.some.inj hcb', Api.Call.raises_callback hc hquery] at hraises
      exact hlow ((Api.Call.clearsLate_eq hc).trans hlate) f hraises
    case query =>
      intro hcb'
      rw [hslot] at hcb'
      exact absurd (Option.some.inj hcb') hquery
    case sync =>
      intro hsync
      obtain ⟨hready, hp⟩ := hsame.sync (hcb ▸ hsync)
      refine ⟨?_, hp⟩
      rw [← Bool.not_eq_true] at hready ⊢
      exact fun hf => hready (hflag _ hf)
    case user => exact fun huser => h.user (hcb ▸ huser)

theorem Owned.failed (h : Owned api (.call ⟨c, t, none⟩ :: below) q)
    (hsent : ((c.code mktime).sent err api).2 = some rc) (herr : err < 0) :
    Owned ((c.code mktime).sent err api).1 below
    (q && !(err < 0 && c.usage.energyCb = some EnergyCb.user)) := by
  obtain ⟨-, hslot, hcb⟩ := (c.uses mktime).sent_failed hsent herr
  rw [Api.Call.leaves_eq (h.timed List.mem_cons_self)] at hslot
  have hflag := fun f => (c.uses mktime).sent_flag err api f
  have hready : ((c.code mktime).sent err api).1.flag .energyQueryReady = true →
    api.flag .energyQueryReady = true := by
    intro hf
    exact (hflag _ hf).resolve_right fun h => by cases h.2.1
  cases henergy : c.usage.energyCb with
  | some x =>
    rw [henergy, Option.isSome_some, if_pos rfl] at hcb
    cases hlate : c.usage.late with
    | true =>
      rw [Api.Call.late_energyCb hlate] at henergy
      cases henergy
    | false =>
      rw [hlate, if_neg Bool.false_ne_true] at hslot
      exact .clear (fun hp => h.timed (List.mem_cons_of_mem _ hp)) hslot hcb
  | none =>
    rw [henergy, Option.isSome_none, if_neg Bool.false_ne_true] at hcb
    have hq : (q && !(err < 0 && (none : Option EnergyCb) = some EnergyCb.user)) = q := by simp
    rw [hq]
    have hsync : ∀ p, Frame.call ⟨c, t, none⟩ = .call p →
        ((c.code mktime).sent err api).1.energyCb = some .sync → p.call.usage.energyCb ≠ some .sync := by
      intro p hp _
      cases hp
      rw [henergy]
      exact nofun
    cases hlate : c.usage.late with
    | true =>
      rw [hlate, if_pos rfl] at hslot
      have hlower : ∀ f, ((c.code mktime).sent err api).1.flag f = true → api.flag f = true := by
        intro f hf
        exact (hflag _ hf).resolve_right fun h => Api.Call.late_flag hlate h.2.2
      refine (h.mono hcb (.inl ⟨hslot, hlower⟩)).pop (fun p cb hp _ _ hholds => ?_) hsync
      cases hp
      exact Bool.false_ne_true (hholds.2 hlate)
    | false =>
      rw [hlate, if_neg Bool.false_ne_true] at hslot
      refine (h.mono hcb (.inr ⟨hslot, hready⟩)).pop (fun p cb _ hcb' _ _ => ?_) hsync
      rw [hslot] at hcb'
      cases hcb'

theorem Owned.unwaiting (h : Owned api (.call ⟨c, t, none⟩ :: below) q)
    (hsent : ((c.code mktime).sent err api).2 = some rc) (herr : 0 ≤ err)
    (hkeeps : c.Unwaiting → c.usage.energyCb = none → 0 ≤ err → api.incomingActiveCallback ≠ some c.usage.callback) :
    Owned ((c.code mktime).sent err api).1 below q := by
  obtain ⟨hwait, hslot, hcb⟩ := (c.uses mktime).sent_some hsent herr
  have hun := Api.Call.unwaiting_iff.mpr hwait
  have hflag : ∀ f, ((c.code mktime).sent err api).1.flag f = true → api.flag f = true :=
    fun f hf => ((c.uses mktime).sent_flag err api f hf).resolve_right fun hneg => by omega
  refine (h.mono hcb (.inl ⟨hslot, hflag⟩)).pop (fun p cb hp hcb hquery hholds => ?_) fun p hp _ => ?_
  · cases hp
    have hcall : c.usage.callback = cb := hholds.1
    have hnone : c.usage.energyCb = none := by
      by_cases henergy : c.usage.energyCb = none
      · exact henergy
      · exact absurd (hcall.symm.trans (Api.Call.query_iff.mpr henergy)) hquery
    exact hkeeps hun hnone herr (hcall ▸ hslot ▸ hcb)
  · cases hp
    exact Api.Call.unwaiting_sync hun

theorem Owned.woken {w : Wait} (h : Owned api (.call p :: below) q)
    (hwait : (p.call.code mktime).wait = some w) (hset : api.flag w.flag = true) :
    Owned (w.woken err portSuccess api).1 below q := by
  obtain ⟨hcb, hslot⟩ := (p.call.uses mktime).woken_slots err api hwait
  have hflag := (p.call.uses mktime).wait_flag hwait
  have hpop : Owned api below q := by
    refine h.pop (fun p' cb hp hcb hquery hholds => ?_) fun p' hp hsync henergy => ?_
    · cases hp
      have hcall : p.call.usage.callback = cb := hholds.1
      have hraises : cb.raises api.energyCb = some w.flag := by
        rw [← hcall, Api.Call.raises_callback (h.timed List.mem_cons_self) (hcall ▸ hquery), hflag]
      have hlow := h.lowered hcb hraises
      rw [hset] at hlow
      cases hlow
    · cases hp
      have hready := (h.sync hsync).1
      rw [Api.Call.sync_flag henergy] at hflag
      rw [Option.some.inj hflag, hset] at hready
      cases hready
  refine hpop.mono hcb ?_
  have hlower : ∀ f, (w.woken err portSuccess api).1.flag f = true → api.flag f = true :=
    fun f => (p.call.uses mktime).woken_flag hwait hset
  rcases hslot with hslot | hslot
  · exact .inl ⟨hslot, hlower⟩
  · exact .inr ⟨hslot, hlower _⟩

theorem Owned.timeout {w : Wait} (h : Owned api (.call p :: below) q)
    (hwait : (p.call.code mktime).wait = some w) (hms : w.ms.isSome = true)
    (hforgets : p.call.usage.forgets err = true → api.incomingActiveCallback ≠ some p.call.usage.callback)
    (hsync : p.call.usage.energyCb = some .sync → api.energyCb ≠ some .sync) :
    Owned (w.woken err portFail api).1 below q := by
  obtain ⟨hcb, hslot⟩ := (p.call.uses mktime).timeout_slots err api hwait hms
  have hflag := fun f => (p.call.uses mktime).timeout_flag err api f hwait hms
  cases hkept : p.call.usage.forgets err with
  | true =>
    rw [hkept, if_pos rfl] at hslot
    have hpop : Owned api below q := by
      refine h.pop (fun p' cb hp hcb hquery hholds => ?_) fun p' hp hsync' henergy => ?_
      · cases hp
        exact hforgets hkept (hholds.1 ▸ hcb)
      · cases hp
        exact hsync henergy hsync'
    cases hactive : api.incomingActiveCallback with
    | none =>
      refine hpop.mono hcb (.inr ⟨hslot.trans hactive, fun hf => ?_⟩)
      exact (hflag _ hf).resolve_right fun h => by cases h.1
    | some cb =>
      refine hpop.mono hcb (.inl ⟨hslot, fun f hf => ?_⟩)
      refine (hflag f hf).resolve_right fun h => ?_
      have hnone := h.2.2
      rw [hslot, hactive] at hnone
      cases hnone
  | false =>
    rw [hkept, if_neg Bool.false_ne_true] at hslot
    have hready : (w.woken err portFail api).1.flag .energyQueryReady = true →
      api.flag .energyQueryReady = true := by
      intro hf
      exact (hflag _ hf).resolve_right fun h => by cases h.1
    refine (h.mono hcb (.inr ⟨hslot, hready⟩)).pop
      (fun p' cb hp hcb' _ _ => ?_) fun p' hp hsync' henergy => ?_
    · rw [hslot] at hcb'
      cases hcb'
    · cases hp
      exact hsync henergy (hcb ▸ hsync')

theorem Owned.recv (h : Owned api stack q) (call : AppCall) :
    Owned (api.recv call).1 stack (q && (api.recv call).2 ≠ some Called.energyCb) := by
  have hq : Owned (api.recv call).1 stack q := by
    cases htaker : api.taker call with
    | none =>
      rw [(Api.recv_dropped htaker).1]
      exact h.mono rfl (.inl ⟨rfl, fun f hf => hf⟩)
    | some cb =>
      rw [Api.recv_taker htaker]
      obtain ⟨hslot, hcb⟩ := cb.run_slots call.lenOrRc { api with
        incoming := call.frame.getD api.incoming, incomingActiveCallback := none }
      by_cases hquery : cb = .energyQueryAsync
      · rw [if_pos hquery] at hcb
        exact .clear h.timed hslot hcb
      · rw [if_neg hquery] at hcb
        refine h.mono hcb (.inr ⟨hslot, fun hf => ?_⟩)
        rw [Callback.run_flag] at hf
        split at hf
        · next hraises =>
          cases cb with
          | energyQueryAsync => exact absurd rfl hquery
          | initializationGetState | storageScan | storageWrite | storageRead | networking | energyReport | energyReset
          | timelocation | processing | watchdog | other => cases hraises
        · exact hf
  by_cases hcalled : (api.recv call).2 = some .energyCb
  · have hnone := Api.recv_called hcalled
    refine ⟨hq.timed, hq.slot, hq.lowered, hq.query, hq.sync, fun huser => ?_⟩
    rw [hnone] at huser
    cases huser
  · rw [decide_eq_true hcalled, Bool.and_true]
    exact hq

theorem Stepped.owned {s s' : State} {e : Event} {rs : List Returned} (hstep : Stepped mktime s e s' rs)
    (hkeeps : s.Keeps e) (h : Owned s.api s.stack s.querying) : Owned s'.api s'.stack s'.querying := by
  cases hstep with
  | refused hrc => exact h.refused hrc
  | started hrc => exact h.start hkeeps hrc
  | request hstack =>
    rw [hstack] at h
    exact h.retop _ rfl fun hsent => hsent
  | @returned c t err rc below hstack hrc =>
    rw [hstack] at h
    by_cases herr : err < 0
    · exact h.failed hrc herr
    · have hkeeps := hkeeps _ (State.top_eq hstack)
      have hq : (s.querying && !(err < 0 && c.usage.energyCb = some EnergyCb.user)) = s.querying := by
        simp [herr]
      rw [hq]
      exact h.unwaiting hrc (Int.not_lt.mp herr) hkeeps
  | @waits c t err below hstack hrc =>
    rw [hstack] at h
    have hq : (s.querying && !(err < 0 && c.usage.energyCb = some EnergyCb.user)) = s.querying := by
      by_cases huser : c.usage.energyCb = some .user
      · have hwait := ((c.uses mktime).sent_none hrc).1
        rw [Api.Call.unwaiting_iff.mp (Api.Call.user_unwaiting huser)] at hwait
        cases hwait
      · simp [huser]
    rw [hq]
    exact h.waits hrc
  | woken hstack hwait hset =>
    rw [hstack] at h
    exact h.woken hwait hset
  | timeout hstack hwait hset hms =>
    rw [hstack] at h
    obtain ⟨hforgets, hsync⟩ := hkeeps _ (State.top_eq hstack)
    exact h.timeout hwait hms hforgets hsync
  | @recv m htime =>
    have hr := h.recv m.call
    simp only [State.received]
    split
    · exact hr.push .task fun _ hp => by cases hp
    · exact hr
  | task => exact h.push .task fun _ hp => by cases hp
  | ret hstack =>
    rw [hstack] at h
    exact h.pop (fun _ _ hp => by cases hp) fun _ hp => by cases hp
  | other =>
    refine ⟨h.timed, fun hcb hother => ?_, fun hcb hraises => ?_, fun hcb => ?_, h.sync, h.user⟩
    · cases hcb
      exact absurd rfl hother
    · cases hcb
      cases hraises
    · cases hcb

def State.Owned (s : State) : Prop := Calls.Owned s.api s.stack s.querying

theorem State.Owned.step {s s' : State} {e : Event} {rs : List Returned} (h : s.Owned)
    (hstep : s.step mktime e = some (s', rs)) (hkeeps : s.Keeps e) : s'.Owned := by
  obtain ⟨s₁, hstepped, rfl⟩ := step_stepped hstep
  exact hstepped.owned hkeeps h

theorem State.Owned.released {s : State} (h : s.Owned) (hidle : s.Idle) : s.Released := by
  obtain ⟨hstack, hquerying, hother⟩ := hidle
  have henergy : s.api.energyCb = none := by
    cases hcb : s.api.energyCb with
    | none => rfl
    | some x =>
      cases x with
      | sync =>
        obtain ⟨-, p, hp, -⟩ := h.sync hcb
        exact absurd hp (hstack p)
      | user =>
        have := h.user hcb
        rw [hquerying] at this
        cases this
  refine ⟨?_, henergy⟩
  cases hcb : s.api.incomingActiveCallback with
  | none => rfl
  | some cb =>
    by_cases hquery : cb = .energyQueryAsync
    · exact absurd henergy (h.query (hquery ▸ hcb))
    · obtain ⟨p, hp, -⟩ := h.slot hcb (fun ho => hother (ho ▸ hcb)) hquery
      exact absurd hp (hstack p)

theorem not_released {s s' : State} {e : Event} {rs : List Returned}
    (hstep : s.step mktime e = some (s', rs)) (hidle : s'.Idle) (hkeeps : ¬ s.Keeps e) : ¬ s'.Released := by
  obtain ⟨s₁, hstepped, rfl⟩ := step_stepped hstep
  cases hstepped with
  | request | woken | recv | task | ret | other => exact absurd trivial hkeeps
  | refused hrc =>
    rw [Api.Call.untimed_start (Classical.not_not.mp hkeeps)] at hrc
    cases hrc
  | started => exact absurd List.mem_cons_self (hidle.1 _)
  | @returned c t err rc below hstack hrc =>
    simp only [State.Keeps, State.top_eq hstack, Option.mem_some_iff, forall_eq'] at hkeeps
    obtain ⟨hun, hkeeps⟩ := Classical.not_imp.mp hkeeps
    obtain ⟨-, hkeeps⟩ := Classical.not_imp.mp hkeeps
    obtain ⟨herr, hslot⟩ := Classical.not_imp.mp hkeeps
    intro hreleased
    have hnone := hreleased.1
    simp only [State.put] at hnone
    rw [((c.uses mktime).sent_some hrc herr).2.1, Classical.not_not.mp hslot] at hnone
    cases hnone
  | @waits c t err below hstack hrc =>
    simp only [State.Keeps, State.top_eq hstack, Option.mem_some_iff, forall_eq'] at hkeeps
    obtain ⟨hun, -⟩ := Classical.not_imp.mp hkeeps
    have hwait := ((c.uses mktime).sent_none hrc).1
    rw [Api.Call.unwaiting_iff.mp hun] at hwait
    cases hwait
  | @timeout c t err below w hstack hwait hset hms =>
    simp only [State.Keeps, State.top_eq hstack, Option.mem_some_iff, forall_eq'] at hkeeps
    obtain ⟨henergy, hslot⟩ := (c.uses mktime).timeout_slots err s.api hwait hms
    intro hreleased
    obtain ⟨hnone, hcb⟩ := hreleased
    simp only [State.woken, State.put] at hnone hcb
    rw [henergy] at hcb
    rw [hslot] at hnone
    refine hkeeps ⟨fun hforgets heq => ?_, fun _ heq => ?_⟩
    · rw [if_pos (show c.usage.forgets err = true from hforgets), heq] at hnone
      cases hnone
    · rw [heq] at hcb
      cases hcb

/-- **When slots are released.** After any run from a start with both slots
free whose steps leave none behind, over all orders of calls, sends, messages
and timeouts: a step to where nothing is in flight leaves both slots free
exactly if it leaves none behind, and then no call is refused as busy. -/
theorem released_iff {s₀ s s' : State} {es : List Event} {e : Event} {os rs : List Returned}
    (hstack : s₀.stack = []) (hinit : s₀.Released)
    (hrun : Run (fun s e s' rs => s.step mktime e = some (s', rs) ∧ s.Keeps e) s₀ es s os)
    (hstep : s.step mktime e = some (s', rs)) (hidle : s'.Idle) :
    (s'.Released ↔ s.Keeps e) ∧ (s.Keeps e → ∀ c : Api.Call,
    ((c.code mktime).start s'.api).2 ≠ some portEbusy) := by
  have howned₀ : s₀.Owned := by
    refine Owned.clear (fun hp => ?_) hinit.1 hinit.2
    rw [hstack] at hp
    cases hp
  have howned : s.Owned := hrun.invariant (fun h hs => h.step hs.1 hs.2) howned₀
  have hkept : s.Keeps e → s'.Released := fun hkeeps => (howned.step hstep hkeeps).released hidle
  refine ⟨⟨fun hreleased => ?_, hkept⟩, fun hkeeps c hbusy => ?_⟩
  · by_cases hkeeps : s.Keeps e
    · exact hkeeps
    · exact absurd hreleased (not_released hstep hidle hkeeps)
  · obtain ⟨hslot, henergy⟩ := hkept hkeeps
    rcases (c.uses mktime).start_busy hbusy with h | h
    · exact h hslot
    · exact h henergy

end

/-! ## A module between calls -/

def blankModule : ModuleState :=
  ⟨0, 0, 9, ⟨List.replicate 16 0, length_zeros⟩, fun _ => ⟨List.replicate 16 0, length_zeros⟩,
    fun _ => 0, fun _ => 0, fun _ => false,
    fun _ => zeroKey⟩

def quietApi : Api where
  heap := fun _ => 0
  incoming := ⟨0, 0, 0, 0, fun _ => 0⟩
  incomingActiveCallback := none
  apiHandlers := []
  moduleInfo := blankModule
  flag := fun _ => false
  storageResult := false
  callbackRecord := 0
  callbackData := 0
  callbackLength := 0
  networkingResult := false
  energyQueryResult := 0
  energyCb := none
  energyCbData := 0
  energyReportResult := 0
  energyResetResult := 0
  timelocationQueryResult := 0

def quietState : State := ⟨quietApi, [], 0, false, none, fun _ => none⟩

/-- A module's answer: a frame of this type, for this API and message. -/
def answer (frameType src apiType messageType : UInt8) (payload : Bytes) (sentAt : Nat) : Incoming :=
  ⟨payload.length + 3, src, .ofList (frameType :: apiType :: messageType :: payload) 0, sentAt⟩

def sampleMktime : Tm → Bytes := fun _ => [0, 0, 0, 0]

/-- A reset of the energy counters is answered. -/
def resetEvents : List Event :=
  [.begin .energyReset, .request, .sent 35,
    .recv (answer responseFrame moduleAddressController energyApiType energyResetMessage [0, 0, 0, 0] 2)]

theorem released_iff_reset : ∃ s s' os rs,
    Run (fun s e s' rs => s.step sampleMktime e = some (s', rs) ∧ s.Keeps e) quietState resetEvents s os ∧
      s.step sampleMktime .wake = some (s', rs) ∧ s'.Released := by
  have hrun : (Run.exec (fun s e => if s.Keeps e then s.step sampleMktime e else none) quietState resetEvents).any
      (fun r => (r.1.step sampleMktime .wake).any fun r' => r'.1.stack.isEmpty ∧ r'.1.querying = false ∧
        r'.1.api.incomingActiveCallback ≠ some .other) = true := by decide +kernel
  obtain ⟨⟨s, os⟩, hexec, hwake⟩ := (Option.any_eq_true _ _).mp hrun
  obtain ⟨⟨s', rs⟩, hstep, hidle⟩ := (Option.any_eq_true _ _).mp hwake
  obtain ⟨hempty, hquiet⟩ := of_decide_eq_true hidle
  have hsteps := Run.of_exec_guard hexec
  have hnone : ∀ p, .call p ∉ s'.stack := by
    intro p hp
    rw [List.isEmpty_iff.mp hempty] at hp
    cases hp
  exact ⟨s, s', os, rs, hsteps, hstep, (released_iff rfl ⟨rfl, rfl⟩ hsteps hstep ⟨hnone, hquiet⟩).1.mpr trivial⟩

/-- A record is written, and the reply comes after the call has returned, or never. -/
def writeEvents : List Event := [.begin (.storageWrite 16), .request, .sent 80]

/-- The write returns success and leaves its callback in place: nothing is in
flight, and a query of the energy counters is refused as busy. -/
theorem write_leaves_slot : ∃ s os,
    Run (fun s e s' rs => s.step sampleMktime e = some (s', rs)) quietState writeEvents s os ∧
      os.map Returned.rc = [portSuccess] ∧ s.stack.isEmpty = true ∧ s.querying = false ∧ ¬ s.Released ∧
      (((Api.Call.energyQuery 32).code sampleMktime).start s.api).2 = some portEbusy := by
  have hrun : (Run.exec (State.step sampleMktime) quietState writeEvents).any (fun r =>
      r.2.map Returned.rc = [portSuccess] ∧ r.1.stack.isEmpty = true ∧ r.1.querying = false ∧
        r.1.api.incomingActiveCallback = some .storageWrite ∧
        (((Api.Call.energyQuery 32).code sampleMktime).start r.1.api).2 = some portEbusy) = true := by decide +kernel
  obtain ⟨⟨s, os⟩, hexec, hs⟩ := (Option.any_eq_true _ _).mp hrun
  obtain ⟨hrc, hstack, hquerying, hslot, hbusy⟩ := of_decide_eq_true hs
  refine ⟨s, os, Run.of_exec hexec, hrc, hstack, hquerying, fun hreleased => ?_, hbusy⟩
  rw [hreleased.1] at hslot
  cases hslot

end Calls

end Signpost
