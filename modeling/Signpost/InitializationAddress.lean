/-
The address that a module takes in its initialization, and where it is from.

It is known whom each answer is from, and the result is an invariant over all
messages, interrupts and time-outs: the address is the one at the start, or was
sent by the controller. A guard names the messages for which that fails.
-/
import Signpost.Initialization

namespace Signpost

open Lib

namespace Initialization

/-- The controller's answer to a declaration. -/
structure Genuine (sender : UInt8) (frame : Parsed) : Prop where
  sender : sender = moduleAddressController
  frameType : frame.frameType = responseFrame
  apiType : frame.apiType = initializationApiType
  messageType : frame.messageType = initializationDeclare
  length : 0 < toInt frame.messageLength

/-- Where the loop takes an address, what was received last is the controller's
answer, or the byte there is the address that the module has and it does not
make the module return. -/
def AnswerGenuine (s : Initialization) : Event → Prop
  | .resume _ =>
    s.stage = .awaiting → Genuine s.sender s.incoming ∨
      (s.incoming.message 0 = s.moduleInfo.i2cAddress ∧ s.initState ≠ .done)
  | _ => True

/-- The controller has answered with this address. -/
def Answered (os : List Action) (address : UInt8) : Prop :=
  ∃ sender frame, Action.received sender frame ∈ os ∧ Genuine sender frame ∧ address = frame.message 0

/-- State `Done` is left by the loop only with an address that was answered. -/
structure Invariant (os : List Action) (s : Initialization) : Prop where
  done : s.initState = .done → s.AfterDeclaration ∨ Answered os s.moduleInfo.i2cAddress
  returned : s.stage = .returned → Answered os s.moduleInfo.i2cAddress
  incoming : Genuine s.sender s.incoming → Action.received s.sender s.incoming ∈ os

theorem Answered.append {os o : List Action} {address : UInt8} (h : Answered os address) :
    Answered (os ++ o) address := by
  obtain ⟨sender, frame, hmem, h⟩ := h
  exact ⟨sender, frame, List.mem_append_left o hmem, h⟩

theorem not_genuine_of_start {s : Initialization} (h : s.AtStart) : ¬ Genuine s.sender s.incoming := by
  intro hgenuine
  have hframe := h.incoming.symm.trans hgenuine.frameType
  exact absurd hframe (by decide)

theorem invariant_start {s : Initialization} (h : s.AtStart) : Invariant [] s where
  done hd := by simp [h.initState] at hd
  returned hr := by simp [h.stage] at hr
  incoming hg := absurd hg (not_genuine_of_start h)

section
variable {os o : List Action} {s : Initialization}

theorem Invariant.append (h : Invariant os s) : Invariant (os ++ o) s where
  done hdone := (h.done hdone).imp_right Answered.append
  returned hreturned := (h.returned hreturned).append
  incoming hgenuine := List.mem_append_left o (h.incoming hgenuine)

/-- After a declaration nothing is known of an address, and elsewhere it was
answered if the state is `Done`. -/
theorem Invariant.answered (h : Invariant os s) (hstage : ¬ s.AfterDeclaration) (hdone : s.initState = .done) :
    Answered os s.moduleInfo.i2cAddress :=
  (h.done hdone).resolve_left hstage

/-- The loop starts again in state `Done` only with an address that was answered. -/
theorem Invariant.of_loop (hdone : s.initState = .done → Answered os s.moduleInfo.i2cAddress)
    (hincoming : Genuine s.sender s.incoming → Action.received s.sender s.incoming ∈ os) (port : Port) :
    Invariant (os ++ (s.loop port).2) (s.loop port).1 := by
  have hanswered : ∀ o : List Action, s.initState = .done → Answered (os ++ o) s.moduleInfo.i2cAddress :=
    fun o hd => (hdone hd).append
  rcases loop_cases (s := s) port with ⟨-, heq | heq⟩ | ⟨-, heq⟩ | ⟨hstate, heq⟩ <;> rw [heq]
  · exact ⟨fun hd => .inr (hanswered _ hd), by simp, fun hg => List.mem_append_left _ (hincoming hg)⟩
  · exact ⟨fun hd => .inr (hanswered _ hd), by simp, fun hg => List.mem_append_left _ (hincoming hg)⟩
  · exact ⟨fun hd => .inr (hanswered _ hd), by simp, fun hg => List.mem_append_left _ (hincoming hg)⟩
  · exact ⟨fun hd => .inr (hanswered _ hd), fun _ => hanswered _ hstate,
      fun hg => List.mem_append_left _ (hincoming hg)⟩

theorem Invariant.recvCallback (h : Invariant os s) (hplaced : CallbackPlaced s) (lenOrRc : Int) :
    Invariant os (s.recvCallback lenOrRc) := by
  rcases recvCallback_cases (s := s) lenOrRc with heq | ⟨hactive, heq⟩
  · rwa [heq]
  · rw [heq]
    exact { h with done := fun _ => .inl (hplaced.active hactive) }

theorem Invariant.receive (h : Invariant os s) (hplaced : CallbackPlaced s) (call : AppCall) :
    Invariant (os ++ (s.receive call).2) (s.receive call).1 := by
  unfold Initialization.receive
  cases call.frame with
  | none => exact (h.recvCallback hplaced _).append
  | some frame =>
    have hbefore : Invariant (os ++ [.received call.senderAddress frame]) s := h.append
    have hreceived : Invariant (os ++ [.received call.senderAddress frame])
        { s with incoming := frame, sender := call.senderAddress } :=
      { hbefore with incoming := fun _ => List.mem_append_right os (List.mem_singleton.mpr rfl) }
    exact hreceived.recvCallback { hplaced with } _

theorem Invariant.isolationCallback (h : Invariant os s) : Invariant os s.isolationCallback := by
  simp only [Initialization.isolationCallback]
  split_ifs
  · exact { h with }
  · exact { h with done := (by simp) }

theorem Invariant.lostIsolationCallback (h : Invariant os s) : Invariant os s.lostIsolationCallback := by
  simp only [Initialization.lostIsolationCallback]
  split_ifs
  · exact { h with done := (by simp) }
  · exact { h with }

theorem Invariant.timeout (h : Invariant os s) {r : Initialization × List Action} (hstep : s.timeout = some r) :
    Invariant (os ++ r.2) r.1 := by
  unfold Initialization.timeout at hstep
  split at hstep
  · next hstage =>
    split_ifs at hstep
    cases hstep
    have hanswered := h.answered (by simp [AfterDeclaration, hstage])
    exact ⟨fun hd => .inr (hanswered hd).append, by simp, fun hg => List.mem_append_left _ (h.incoming hg)⟩
  · split_ifs at hstep
    cases hstep
    exact ⟨fun _ => .inl (.inr (.inr rfl)), by simp, fun hg => List.mem_append_left _ (h.incoming hg)⟩
  · cases hstep

theorem Invariant.takeAddress (h : Invariant os s) (hgenuine : Genuine s.sender s.incoming ∨
      (s.incoming.message 0 = s.moduleInfo.i2cAddress ∧ s.initState ≠ .done)) (port : Port) :
    Invariant (os ++ (s.takeAddress port).2) (s.takeAddress port).1 := by
  have hanswered : s.initState = .done ∨ s.moduleInfo.i2cAddress ≠ s.incoming.message 0 →
      Answered os (s.incoming.message 0) := by
    intro hs
    rcases hgenuine with hgenuine | ⟨heq, hdone⟩
    · exact ⟨s.sender, s.incoming, h.incoming hgenuine, hgenuine, rfl⟩
    · exact absurd hs (by simp [heq, hdone])
  simp only [Initialization.takeAddress]
  by_cases hnew : s.moduleInfo.i2cAddress ≠ s.incoming.message 0
  · rw [if_pos hnew]
    exact ⟨fun _ => .inr (hanswered (.inr hnew)).append, by simp,
      fun hg => List.mem_append_left _ (h.incoming hg)⟩
  · rw [if_neg hnew]
    generalize (if s.initState = .done then [Action.completed] else []) = o
    have hkept : s.initState = .done → Answered (os ++ o) s.moduleInfo.i2cAddress := by
      intro hdone
      rw [Decidable.not_not.mp hnew]
      exact (hanswered (.inl hdone)).append
    have hloop := Invariant.of_loop hkept (fun hg => List.mem_append_left o (h.incoming hg)) port
    rwa [List.append_assoc] at hloop

theorem Invariant.resume (h : Invariant os s) {port : Port} (hgenuine : AnswerGenuine s (.resume port))
    {r : Initialization × List Action} (hstep : s.resume port = some r) : Invariant (os ++ r.2) r.1 := by
  have hincoming : ∀ o : List Action, Genuine s.sender s.incoming →
      Action.received s.sender s.incoming ∈ os ++ o :=
    fun o hg => List.mem_append_left o (h.incoming hg)
  unfold Initialization.resume at hstep
  split at hstep
  · next hstage =>
    cases hstep
    exact .of_loop (h.answered (by simp [AfterDeclaration, hstage])) h.incoming port
  · next hstage =>
    split_ifs at hstep
    cases hstep
    exact .of_loop (h.answered (by simp [AfterDeclaration, hstage])) h.incoming port
  · cases hstep
    refine .of_loop ?_ ?_ port
    · simp
    · exact h.incoming
  · next hstage =>
    cases hstep
    unfold check
    split_ifs
    · refine .of_loop ?_ ?_ port
      · simp
      · exact h.incoming
    · have hanswered := h.answered (by simp [AfterDeclaration, hstage])
      exact ⟨fun hd => .inr (hanswered hd).append, by simp, hincoming _⟩
  · cases hstep
    exact ⟨fun _ => .inl (.inl rfl), by simp [declareController], hincoming _⟩
  · cases hstep
    dsimp only
    split_ifs
    · exact ⟨fun _ => .inl (.inr (.inl rfl)), by simp, hincoming _⟩
    · exact ⟨fun _ => .inl (.inr (.inr rfl)), by simp, hincoming _⟩
  · next hstage =>
    split_ifs at hstep
    cases hstep
    exact h.takeAddress (hgenuine hstage) port
  · next hstage =>
    cases hstep
    have hanswered := h.answered (by simp [AfterDeclaration, hstage])
    refine .of_loop ?_ ?_ port
    · intro hd
      dsimp only
      split_ifs <;> exact hanswered hd
    · exact h.incoming
  · cases hstep

theorem Invariant.step (h : Invariant os s) (hplaced : CallbackPlaced s) {e : Event}
    (hgenuine : AnswerGenuine s e) {r : Initialization × List Action} (hstep : s.step e = some r) :
    Invariant (os ++ r.2) r.1 := by
  cases e with
  | receive call =>
    obtain rfl := step_receive hstep
    exact h.receive hplaced call
  | isolation =>
    obtain rfl := step_isolation hstep
    exact h.isolationCallback.append
  | lostIsolation =>
    obtain rfl := step_lostIsolation hstep
    exact h.lostIsolationCallback.append
  | timeout => exact h.timeout hstep
  | resume port => exact h.resume hgenuine hstep

theorem address_resume {port : Port} {r : Initialization × List Action} (hstep : s.resume port = some r) :
    r.1.moduleInfo.i2cAddress = s.moduleInfo.i2cAddress ∨
      (s.stage = .awaiting ∧ r.1.moduleInfo.i2cAddress = s.incoming.message 0) := by
  unfold Initialization.resume at hstep
  split at hstep
  · cases hstep
    exact .inl (by rw [moduleInfo_loop])
  · split_ifs at hstep
    cases hstep
    exact .inl (by rw [moduleInfo_loop])
  · cases hstep
    exact .inl (by rw [moduleInfo_loop])
  · cases hstep
    left
    unfold Initialization.check
    split_ifs
    · rw [moduleInfo_loop]
    · rfl
  · cases hstep
    exact .inl rfl
  · cases hstep
    exact .inl rfl
  · next hstage =>
    split_ifs at hstep
    cases hstep
    simp only [Initialization.takeAddress]
    split_ifs
    · exact .inr ⟨hstage, rfl⟩
    · exact .inr ⟨hstage, rfl⟩
    all_goals exact .inl (by rw [moduleInfo_loop])
  · cases hstep
    left
    rw [moduleInfo_loop]
    dsimp only
    split_ifs <;> rfl
  · cases hstep

theorem address_step {e : Event} {r : Initialization × List Action} (hstep : s.step e = some r) :
    r.1.moduleInfo.i2cAddress = s.moduleInfo.i2cAddress ∨
      (s.stage = .awaiting ∧ (∃ port, e = .resume port) ∧ r.1.moduleInfo.i2cAddress = s.incoming.message 0) := by
  cases e with
  | receive call =>
    obtain rfl := step_receive hstep
    left
    unfold Initialization.receive
    cases call.frame <;> exact congrArg ModuleState.i2cAddress (moduleInfo_recvCallback _)
  | isolation =>
    obtain rfl := step_isolation hstep
    simp only [Initialization.isolationCallback]
    split_ifs <;> exact .inl rfl
  | lostIsolation =>
    obtain rfl := step_lostIsolation hstep
    simp only [Initialization.lostIsolationCallback]
    split_ifs <;> exact .inl rfl
  | timeout =>
    simp only [Initialization.step, Initialization.timeout] at hstep
    split at hstep
    · split_ifs at hstep
      cases hstep
      exact .inl rfl
    · split_ifs at hstep
      cases hstep
      exact .inl rfl
    · cases hstep
  | resume port =>
    rcases address_resume hstep with heq | ⟨hstage, heq⟩
    · exact .inl heq
    · exact .inr ⟨hstage, ⟨port, rfl⟩, heq⟩

theorem Invariant.address (h : Invariant os s) {e : Event} (hgenuine : AnswerGenuine s e)
    {r : Initialization × List Action} (hstep : s.step e = some r)
    (hchanged : r.1.moduleInfo.i2cAddress ≠ s.moduleInfo.i2cAddress) :
    Answered os r.1.moduleInfo.i2cAddress := by
  rcases address_step hstep with heq | ⟨hstage, ⟨port, rfl⟩, heq⟩
  · exact absurd heq hchanged
  · rcases hgenuine hstage with hgenuine | ⟨hsame, -⟩
    · exact ⟨s.sender, s.incoming, h.incoming hgenuine, hgenuine, heq⟩
    · exact absurd (heq.trans hsame) hchanged

end

/-- While only answers of the controller are taken, a module changes its address
only to one that the controller has answered, and returns with it. -/
theorem address_answered {s s' : Initialization} {es : List Event} {os : List Action} (hs : s.AtStart)
    (h : Run (fun s e s' o => s.step e = some (s', o) ∧ AnswerGenuine s e) s es s' os) :
    (∀ e s'' o, s'.step e = some (s'', o) → AnswerGenuine s' e →
      s''.moduleInfo.i2cAddress ≠ s'.moduleInfo.i2cAddress → Answered os s''.moduleInfo.i2cAddress) ∧
    (s'.stage = .returned → Answered os s'.moduleInfo.i2cAddress) := by
  have hkeep : ∀ {os : List Action} {s : Initialization} {e : Event} {s' : Initialization} {o : List Action},
      CallbackPlaced s ∧ Invariant os s → s.step e = some (s', o) ∧ AnswerGenuine s e →
        CallbackPlaced s' ∧ Invariant (os ++ o) s' :=
    fun ⟨hplaced, hinv⟩ ⟨hstep, hgenuine⟩ => ⟨hplaced.step hstep, hinv.step hplaced hgenuine hstep⟩
  have hinv := (h.history _ @hkeep ⟨.start hs, invariant_start hs⟩).2
  exact ⟨fun e s'' o hstep hgenuine hchanged => hinv.address hgenuine hstep hchanged, hinv.returned⟩

section

instance (sender : UInt8) (frame : Parsed) : Decidable (Genuine sender frame) :=
  decidable_of_iff (sender = moduleAddressController ∧ frame.frameType = responseFrame ∧
      frame.apiType = initializationApiType ∧ frame.messageType = initializationDeclare ∧
      0 < toInt frame.messageLength)
    ⟨fun h => ⟨h.1, h.2.1, h.2.2.1, h.2.2.2.1, h.2.2.2.2⟩,
      fun h => ⟨h.sender, h.frameType, h.apiType, h.messageType, h.length⟩⟩

instance (s : Initialization) : DecidablePred (AnswerGenuine s)
  | .resume _ =>
    inferInstanceAs (Decidable (s.stage = .awaiting → Genuine s.sender s.incoming ∨
      (s.incoming.message 0 = s.moduleInfo.i2cAddress ∧ s.initState ≠ .done)))
  | .receive _ => instDecidableTrue
  | .isolation => instDecidableTrue
  | .lostIsolation => instDecidableTrue
  | .timeout => instDecidableTrue

/-- The address that a message answers, if it is the controller's answer. -/
def answer : Action → Option UInt8
  | .received sender frame => if Genuine sender frame then some (frame.message 0) else none
  | _ => none

theorem answered_iff {os : List Action} {address : UInt8} :
    Answered os address ↔ address ∈ os.filterMap answer := by
  rw [List.mem_filterMap]
  constructor
  · rintro ⟨sender, frame, hmem, hgenuine, rfl⟩
    exact ⟨_, hmem, by simp [answer, hgenuine]⟩
  · rintro ⟨a, hmem, ha⟩
    cases a with
    | received sender frame =>
      simp only [answer] at ha
      split_ifs at ha with hgenuine
      exact ⟨sender, frame, hmem, hgenuine, (Option.some.inj ha).symm⟩
    | requested | passed | declared | completed | returned => cases ha

/-- Isolation is granted, and an answer with the address 0x31 comes from
`sender`. -/
def sampleAnswer (sender : UInt8) : List Event :=
  [.resume samplePort, .isolation, .resume samplePort, .resume samplePort, .resume samplePort, .resume samplePort,
    .receive ⟨1, sender, some ⟨responseFrame, initializationApiType, initializationDeclare, 1, fun _ => 0x31⟩⟩,
    .resume samplePort, .resume samplePort]

/-- The controller's answer is taken. -/
theorem address_answered_controller : ∃ s os,
    Run (fun s e s' o => s.step e = some (s', o) ∧ AnswerGenuine s e) sampleStart
      (sampleAnswer moduleAddressController) s os ∧
    s.stage = .returned ∧ s.moduleInfo.i2cAddress = 0x31 ∧ Answered os 0x31 := by
  have hexec : (Run.exec (fun (s : Initialization) e => if AnswerGenuine s e then s.step e else none) sampleStart
      (sampleAnswer moduleAddressController)).map
      (fun r => (r.1.stage, r.1.moduleInfo.i2cAddress)) = some (.returned, 0x31) := by decide +kernel
  obtain ⟨⟨s, os⟩, hexec, heq⟩ := Option.map_eq_some_iff.mp hexec
  obtain ⟨hstage, haddress⟩ := Prod.mk.inj heq
  have hrun := Run.of_exec_guard hexec
  exact ⟨s, os, hrun, hstage, haddress, haddress ▸ (address_answered atStart_sampleStart hrun).2 hstage⟩

/-- The answer of another module is taken, and the module returns. -/
theorem address_not_answered : ∃ s os,
    Run (fun s e s' o => s.step e = some (s', o)) sampleStart (sampleAnswer 0x30) s os ∧
    sampleStart.AtStart ∧ sampleStart.moduleInfo.i2cAddress = 0 ∧
    s.stage = .returned ∧ s.moduleInfo.i2cAddress = 0x31 ∧ ¬ Answered os 0x31 := by
  have hexec : (Run.exec (fun (s : Initialization) e => s.step e) sampleStart (sampleAnswer 0x30)).map
      (fun r => (r.1.stage, r.1.moduleInfo.i2cAddress, r.2.filterMap answer)) = some (.returned, 0x31, []) := by
    decide +kernel
  obtain ⟨⟨s, os⟩, hexec, heq⟩ := Option.map_eq_some_iff.mp hexec
  obtain ⟨hstage, heq⟩ := Prod.mk.inj heq
  obtain ⟨haddress, hanswers⟩ := Prod.mk.inj heq
  refine ⟨s, os, Run.of_exec hexec, atStart_sampleStart, rfl, hstage, haddress, fun hanswered => ?_⟩
  have hmem := answered_iff.mp hanswered
  simp [hanswers] at hmem

end

end Initialization

end Signpost
