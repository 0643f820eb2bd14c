/-
What a call of `signpost_initialization_get_module_state` makes of `module_info`.

Its callback looks at no message, and the copy takes as many bytes as the state has
from wherever the last message is.

The messages that have come in since the call began are kept beside the run. The
result is an equivalence at every step: the table is replaced by a state that
was sent, or left alone, exactly if the message at the copy is that state.
-/
import Signpost.Answers
import Signpost.StateReply
import Signpost.Strings

namespace Signpost

open Lib

/-! ## The response -/

/-- The controller's response, with all of a state. -/
def Incoming.IsState (m : Incoming) : Prop :=
  m.senderAddress = moduleAddressController ∧ ∃ frame ∈ m.call.frame, frame.frameType = responseFrame ∧
    frame.apiType = initializationApiType ∧ frame.messageType = initializationGetState ∧ frame.messageLength = 440

instance (m : Incoming) : Decidable m.IsState := inferInstanceAs (Decidable (_ ∧ ∃ frame ∈ m.call.frame, _))

def Incoming.moduleState (m : Incoming) : ModuleState := .ofMem m.message

/-- Two states that differ at most in the address and the name of the module itself. -/
def ModuleState.SameModules (m m' : ModuleState) : Prop :=
  m' = { m with i2cAddress := m'.i2cAddress, selfName := m'.selfName }

/-- `before` is replaced by `state`, but for the module's own address and name. -/
structure ModuleState.Replaced (before state after : ModuleState) : Prop where
  modules : state.SameModules after
  address : after.i2cAddress = before.i2cAddress
  name : cstr after.selfName.val = cstr before.selfName.val

theorem ModuleState.sameModules_own {m m' : ModuleState} (i2cAddress : UInt8) (selfName : Name) :
    m.SameModules { m' with i2cAddress, selfName } ↔ m.SameModules m' := by
  cases m
  cases m'
  simp [SameModules]

theorem cstr_strncpy (n : Name) : cstr n.strncpy.val = cstr n.val := by
  have hle : (cstr n.val).length ≤ 16 := Nat.le_trans (length_cstr_le n.val) (Nat.le_of_eq n.property)
  show cstr ((cstr n.val ++ List.replicate 16 0).take 16) = _
  rw [cstr_take, cstr_append_replicate, cstr_cstr, List.take_of_length_le hle]

namespace Calls

/-- The messages that have come in since such a call began. -/
def arrivals (es : List Event) : List Incoming :=
  es.foldl (fun ms e =>
    match e with
    | .begin .initializationGetModuleState => []
    | .recv m => ms ++ [m]
    | _ => ms) []

/-- What is known of the modules is replaced by a state that the controller has sent,
by a call that succeeds, or it is kept, and such a call fails. -/
def AllOrNothing (es : List Event) (s s' : State) (rs : List Returned) : Prop :=
  (∃ r ∈ rs, r.pending.call = .initializationGetModuleState ∧ r.rc = portSuccess ∧
    ∃ m ∈ arrivals es, m.IsState ∧ ModuleState.Replaced s.api.moduleInfo m.moduleState s'.api.moduleInfo) ∨
  (s'.api.moduleInfo = s.api.moduleInfo ∧
    ∀ r ∈ rs, r.pending.call = .initializationGetModuleState → r.rc < portSuccess)

/-- If the step wakes such a call, the message that came in last is a state that the
controller has sent, or one has come in before it whose bytes are still there. -/
def StateThere (es : List Event) (s : State) : Event → Prop
  | .wake => ∀ p ∈ s.top, p.call = .initializationGetModuleState →
    (∃ m ∈ s.held, m.IsState) ∨
      ∃ m ∈ arrivals es, m.IsState ∧ m.moduleState.SameModules (.ofMem s.api.incoming.message)
  | _ => True

section
variable {mktime : Tm → Bytes} {s s' : State} {es : List Event} {e : Event} {rs : List Returned}

/-- Where the variable of such a call is set, a message has come in since it began. -/
def Answered (es : List Event) (s : State) : Prop :=
  ∀ p, .call p ∈ s.stack → p.call = .initializationGetModuleState → s.api.flag .getStateComplete = true →
    ∃ m ∈ arrivals es, s.held = some m ∧ m.call.frame = some s.api.incoming

theorem arrivals_concat (es : List Event) (e : Event) : arrivals (es ++ [e]) =
    match e with
    | .begin .initializationGetModuleState => []
    | .recv m => arrivals es ++ [m]
    | _ => arrivals es := by
  rw [arrivals, List.foldl_append]
  rfl

/-- What leaves the message that came in last, begins no such call and sets no variable. -/
theorem Answered.mono (h : Answered es s) (harrivals : arrivals (es ++ [e]) = arrivals es)
    (hstack : ∀ p, .call p ∈ s'.stack → p.call = .initializationGetModuleState →
      ∃ p', .call p' ∈ s.stack ∧ p'.call = p.call)
    (hflag : s'.api.flag .getStateComplete = true → s.api.flag .getStateComplete = true)
    (hheld : s'.held = s.held) (hincoming : s'.api.incoming = s.api.incoming) : Answered (es ++ [e]) s' := by
  intro p hp hcall hset
  obtain ⟨p', hp', hcall'⟩ := hstack p hp hcall
  rw [harrivals, hheld, hincoming]
  exact h p' hp' (hcall'.trans hcall) (hflag hset)

theorem Answered.mono_stack (h : Answered es s) (harrivals : arrivals (es ++ [e]) = arrivals es)
    (hstack : s'.stack ⊆ s.stack)
    (hflag : s'.api.flag .getStateComplete = true → s.api.flag .getStateComplete = true)
    (hheld : s'.held = s.held) (hincoming : s'.api.incoming = s.api.incoming) : Answered (es ++ [e]) s' :=
  h.mono harrivals (fun p hp _ => ⟨p, hstack hp, rfl⟩) hflag hheld hincoming

theorem mem_of_continued {p p' q : Pending} {below : List Frame} (hcall : p.call = p'.call)
    (hq : .call q ∈ Frame.call p' :: below) : ∃ q', .call q' ∈ Frame.call p :: below ∧ q'.call = q.call := by
  rcases List.mem_cons.mp hq with heq | hq
  · cases heq
    exact ⟨p, List.mem_cons_self, hcall⟩
  · exact ⟨q, List.mem_cons_of_mem _ hq, rfl⟩

theorem arrivals_begin {c : Api.Call} (hc : c ≠ .initializationGetModuleState) :
    arrivals (es ++ [.begin c]) = arrivals es := by
  rw [arrivals_concat]
  cases c <;> first | rfl | exact absurd rfl hc

theorem Answered.received {m : Incoming} (h : Answered es s) : Answered (es ++ [.recv m]) (s.received m) := by
  intro p hp hcall hset
  rw [arrivals_concat]
  have hp' : .call p ∈ s.stack := by
    simp only [State.received] at hp
    split at hp
    · exact (List.mem_cons.mp hp).resolve_left (fun h => by cases h)
    · exact hp
  have hincoming : (s.received m).api.incoming = m.call.frame.getD s.api.incoming := (s.api.recv_same m.call).1
  simp only [hincoming]
  cases hframe : m.call.frame with
  | some frame =>
    refine ⟨m, List.mem_append_right _ List.mem_cons_self, ?_, hframe⟩
    simp only [State.received, hframe, Option.isSome_some, if_pos]
  | none =>
    have hneg : m.call.lenOrRc < 0 := by
      simp only [Incoming.call, appLayerCallback] at hframe ⊢
      split at hframe
      · next hneg => rwa [if_pos hneg]
      · cases hframe
    have htaker : s.api.taker m.call = none := by
      rw [Api.taker]
      exact if_neg fun hle => absurd hle.1 (Int.not_le.mpr hneg)
    have hset' : s.api.flag .getStateComplete = true := by
      simp only [State.received, (Api.recv_dropped htaker).1] at hset
      exact hset
    obtain ⟨m', hm', hheld, hframe'⟩ := h p hp' hcall hset'
    refine ⟨m', List.mem_append_left _ hm', ?_, hframe'⟩
    simp only [State.received, hframe, Option.isSome_none, hheld]
    rfl

theorem Answered.step (h : Answered es s) (hstep : Stepped mktime s e s' rs) : Answered (es ++ [e]) s' := by
  cases hstep with
  | @refused c rc hrc =>
    have hc : c ≠ .initializationGetModuleState := by
      rintro rfl
      cases hrc
    exact h.mono_stack (arrivals_begin hc) (List.Subset.refl _) (c.uses mktime).start_flag rfl
      (c.start_same mktime s.api).incoming
  | @started c hrc =>
    by_cases hc : c = .initializationGetModuleState
    · subst hc
      intro p _ _ hset
      cases hset
    · refine h.mono (arrivals_begin hc) (fun p hp hcall => ?_) (c.uses mktime).start_flag rfl
        (c.start_same mktime s.api).incoming
      rcases List.mem_cons.mp hp with heq | hp
      · cases heq
        exact absurd hcall hc
      · exact ⟨p, hp, rfl⟩
  | @request c below hstack =>
    refine h.mono (arrivals_concat ..) (fun p hp _ => ?_) id rfl rfl
    rw [hstack]
    exact mem_of_continued (by rfl) hp
  | @returned c t err rc below hstack hrc =>
    refine h.mono_stack (arrivals_concat ..) ?_ (fun hset => ?_) rfl (c.sent_same mktime err s.api).incoming
    · rw [hstack]
      exact List.subset_cons_self ..
    · exact ((c.uses mktime).sent_flag err s.api _ hset).resolve_right fun h => by cases h.2.1
  | @waits c t err below hstack hrc =>
    refine h.mono (arrivals_concat ..) (fun p hp _ => ?_) (fun hset => ?_) rfl (c.sent_same mktime err s.api).incoming
    · rw [hstack]
      exact mem_of_continued (by rfl) hp
    · exact ((c.uses mktime).sent_flag err s.api _ hset).resolve_right fun h => by cases h.2.1
  | @woken c t err below w hstack hwait hset =>
    refine h.mono_stack (arrivals_concat ..) ?_ ((c.uses mktime).woken_flag hwait hset) rfl
      (c.woken_incoming hwait err portSuccess s.api)
    rw [hstack]
    exact List.subset_cons_self ..
  | @timeout c t err below w hstack hwait hset hms =>
    refine h.mono_stack (arrivals_concat ..) ?_ (fun hset => ?_) rfl (c.woken_incoming hwait err portFail s.api)
    · rw [hstack]
      exact List.subset_cons_self ..
    · exact ((c.uses mktime).timeout_flag err s.api _ hwait hms hset).resolve_right fun h => by cases h.1
  | recv htime => exact h.received
  | task =>
    refine h.mono (arrivals_concat ..) (fun p hp _ => ⟨p, ?_, rfl⟩) id rfl rfl
    exact (List.mem_cons.mp hp).resolve_left fun h => by cases h
  | ret hstack =>
    refine h.mono_stack (arrivals_concat ..) ?_ id rfl rfl
    rw [hstack]
    exact List.subset_cons_self ..
  | other => exact h.mono_stack (arrivals_concat ..) (List.Subset.refl _) id rfl rfl

/-! ## What a step makes of it -/

theorem AllOrNothing.kept (h : s'.api.moduleInfo = s.api.moduleInfo)
    (hrs : ∀ r ∈ rs, r.pending.call ≠ .initializationGetModuleState) : AllOrNothing es s s' rs :=
  .inr ⟨h, fun r hr hcall => absurd hcall (hrs r hr)⟩

/-- A call that is woken succeeds, and what it has made of the message that came in
last is in place. -/
theorem allOrNothing_woken {t : Option Nat} {err : Int} {below : List Frame} {w : Wait}
    (hwait : (Api.Call.initializationGetModuleState.code mktime).wait = some w) :
    AllOrNothing es s (s.woken ⟨.initializationGetModuleState, t, some err⟩ below w err portSuccess).1
        (s.woken ⟨.initializationGetModuleState, t, some err⟩ below w err portSuccess).2 ↔
      ∃ m ∈ arrivals es, m.IsState ∧ m.moduleState.SameModules (.ofMem s.api.incoming.message) := by
  cases hwait
  constructor
  · rintro (⟨r, -, -, -, m, hm, hstate, hreplaced⟩ | ⟨-, hfailed⟩)
    · exact ⟨m, hm, hstate, (ModuleState.sameModules_own ..).mp hreplaced.modules⟩
    · exact absurd (hfailed _ List.mem_cons_self rfl) (Int.lt_irrefl portSuccess)
  · rintro ⟨m, hm, hstate, hsame⟩
    have hmodules := (ModuleState.sameModules_own s.api.moduleInfo.i2cAddress
      s.api.moduleInfo.selfName.strncpy.strncpy).mpr hsame
    exact .inl ⟨_, List.mem_cons_self, rfl, rfl, m, hm, hstate, hmodules, rfl, (cstr_strncpy _).trans (cstr_strncpy _)⟩

theorem sameModules_held {m : Incoming} (hstate : m.IsState) (hframe : m.call.frame = some s.api.incoming) :
    m.moduleState.SameModules (.ofMem s.api.incoming.message) := by
  obtain ⟨-, frame, hframe', -⟩ := hstate
  have hmessage : s.api.incoming.message = m.message := by
    simp only [Incoming.call, appLayerCallback] at hframe
    split at hframe
    · cases hframe
    · rw [← Option.some.inj hframe]
      rfl
  rw [hmessage]
  rfl

theorem Stepped.allOrNothing_iff (hstep : Stepped mktime s e s' rs) (h : Answered es s) :
    AllOrNothing es s s' rs ↔ StateThere es s e := by
  cases hstep with
  | @refused c rc hrc =>
    refine iff_of_true (.kept (c.start_same mktime s.api).moduleInfo fun r hr => ?_) trivial
    rw [List.mem_singleton.mp hr]
    rintro rfl
    cases hrc
  | @started c hrc => exact iff_of_true (.kept (c.start_same mktime s.api).moduleInfo (by simp)) trivial
  | @returned c t err rc below hstack hrc =>
    refine iff_of_true (.kept (c.sent_same mktime err s.api).moduleInfo fun r hr => ?_) trivial
    rw [List.mem_singleton.mp hr]
    rintro rfl
    cases hrc
  | @waits c t err below hstack hrc =>
    exact iff_of_true (.kept (c.sent_same mktime err s.api).moduleInfo (by simp)) trivial
  | request | task | ret | other => exact iff_of_true (.kept rfl (by simp)) trivial
  | @recv m htime => exact iff_of_true (.kept (s.api.recv_same m.call).2 (by simp)) trivial
  | @timeout c t err below w hstack hwait hset hms =>
    refine iff_of_true ?_ trivial
    by_cases hc : c = .initializationGetModuleState
    · subst hc
      cases hwait
      refine .inr ⟨rfl, fun r hr _ => ?_⟩
      rw [List.mem_singleton.mp hr]
      exact (by decide : portFail < portSuccess)
    · refine .kept ((Api.Call.leaves mktime hc).woken err portFail s.api hwait).moduleInfo fun r hr => ?_
      rwa [List.mem_singleton.mp hr]
  | @woken c t err below w hstack hwait hset =>
    have htop := State.top_eq hstack
    by_cases hc : c = .initializationGetModuleState
    · subst hc
      rw [allOrNothing_woken hwait]
      have hflag : s.api.flag .getStateComplete = true := by
        cases hwait
        exact hset
      constructor
      · intro hthere p hp _
        exact .inr hthere
      · intro hthere
        rcases hthere _ htop rfl with ⟨m, hheld, hstate⟩ | hthere
        · have hp : Frame.call ⟨.initializationGetModuleState, t, some err⟩ ∈ s.stack := by
            rw [hstack]
            exact List.mem_cons_self
          obtain ⟨m', hm', hheld', hframe⟩ := h _ hp rfl hflag
          obtain rfl : m' = m := Option.some.inj (hheld'.symm.trans hheld)
          exact ⟨m', hm', hstate, sameModules_held hstate hframe⟩
        · exact hthere
    · refine iff_of_true ?_ fun p hp hcall => ?_
      · refine .kept ((Api.Call.leaves mktime hc).woken err portSuccess s.api hwait).moduleInfo fun r hr => ?_
        rwa [List.mem_singleton.mp hr]
      · rw [htop] at hp
        cases hp
        exact absurd hcall hc

end

/-- In every run from where no call is under way, a step replaces what is known of the
modules by a state that the controller has sent or leaves it, as the call's result says,
exactly if it wakes no such call or the state is there. -/
theorem all_or_nothing_iff {mktime : Tm → Bytes} {s₀ s s' : State} {es : List Event} {os rs : List Returned}
    {e : Event} (hinit : s₀.stack = [])
    (hrun : Run (fun s e s' rs => s.step mktime e = some (s', rs)) s₀ es s os)
    (hstep : s.step mktime e = some (s', rs)) : AllOrNothing es s s' rs ↔ StateThere es s e := by
  have hanswered : Answered es s := by
    refine hrun.events Answered (fun h hs => ?_) fun p hp => ?_
    · obtain ⟨s₁, hstepped, rfl⟩ := step_stepped hs
      have hnext := h.step hstepped
      exact hnext
    · rw [hinit] at hp
      cases hp
  obtain ⟨s₁, hstepped, rfl⟩ := step_stepped hstep
  exact hstepped.allOrNothing_iff hanswered

section

/-- The state is asked for, and this comes in. -/
def getStateEvents (m : Incoming) : List Event := [.begin .initializationGetModuleState, .request, .sent 35, .recv m]

def stateAnswer (state : ModuleState) : Incoming :=
  answer responseFrame moduleAddressController initializationApiType initializationGetState state.bytes 2

theorem all_or_nothing_iff_answer : ∃ s s' os rs,
    Run (fun s e s' rs => s.step sampleMktime e = some (s', rs)) quietState (getStateEvents (stateAnswer blankModule))
      s os ∧ s.step sampleMktime .wake = some (s', rs) ∧
      AllOrNothing (getStateEvents (stateAnswer blankModule)) s s' rs := by
  have hrun : (Run.exec (State.step sampleMktime) quietState (getStateEvents (stateAnswer blankModule))).any
      (fun r => (r.1.step sampleMktime .wake).isSome ∧ ∃ m ∈ r.1.held, m.IsState) = true := by decide +kernel
  obtain ⟨⟨s, os⟩, hexec, hwake⟩ := (Option.any_eq_true _ _).mp hrun
  obtain ⟨hwake, hheld⟩ := of_decide_eq_true hwake
  obtain ⟨⟨s', rs⟩, hstep⟩ := Option.isSome_iff_exists.mp hwake
  have hsteps := Run.of_exec hexec
  exact ⟨s, s', os, rs, hsteps, hstep, (all_or_nothing_iff rfl hsteps hstep).mpr fun _ _ _ => .inl hheld⟩

/-- The controller answers with an error. -/
def stateError : Incoming :=
  answer errorFrame moduleAddressController initializationApiType initializationGetState [0xff, 0xff, 0xff, 0xff] 2

/-- The call succeeds, and what is known of the modules begins with the error's code. -/
theorem replaced_by_error : ∃ s s' os rs,
    Run (fun s e s' rs => s.step sampleMktime e = some (s', rs)) quietState (getStateEvents stateError) s os ∧
      s.step sampleMktime .wake = some (s', rs) ∧ rs.map Returned.rc = [portSuccess] ∧
      s.api.moduleInfo.magic = 0 ∧ s'.api.moduleInfo.magic = 0xffffffff ∧
      ¬ AllOrNothing (getStateEvents stateError) s s' rs := by
  have hrun : (Run.exec (State.step sampleMktime) quietState (getStateEvents stateError)).any
      (fun r => (r.1.step sampleMktime .wake).any fun r' => r'.2.map Returned.rc = [portSuccess] ∧
        r.1.api.moduleInfo.magic = 0 ∧ r'.1.api.moduleInfo.magic = 0xffffffff) = true := by decide +kernel
  obtain ⟨⟨s, os⟩, hexec, hwake⟩ := (Option.any_eq_true _ _).mp hrun
  obtain ⟨⟨s', rs⟩, hstep, hs⟩ := (Option.any_eq_true _ _).mp hwake
  obtain ⟨hrc, hbefore, hafter⟩ := of_decide_eq_true hs
  refine ⟨s, s', os, rs, Run.of_exec hexec, hstep, hrc, hbefore, hafter, ?_⟩
  rintro (⟨r, -, -, -, m, hm, hstate, -⟩ | ⟨hsame, -⟩)
  · obtain rfl : m = stateError := List.mem_singleton.mp hm
    exact absurd hstate (by decide)
  · have hmagic := congrArg ModuleState.magic hsame
    rw [hbefore, hafter] at hmagic
    cases hmagic

end

end Calls

end Signpost
