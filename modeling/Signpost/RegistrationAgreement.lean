/-
The registration of the modules with the controller: the initialization of the module
at every line and the controller's callbacks in one system.

The bus may lose what is sent, delay it and deliver it more than once, and modules may
be restarted. It carries declarations of a module to the controller only while no other
module is isolated, and answers only to the module that has declared itself.
-/
import Signpost.ControllerDownlink
import Signpost.InitializationAddress

namespace Signpost

open Lib Controller Initialization

namespace Registration

/-- A declaration that a module has sent, with the address that it has sent it from. -/
structure Declaration where
  source : UInt8
  name : Bytes
  deriving DecidableEq

def Declaration.message (d : Declaration) : ApiMessage :=
  ⟨d.source, commandFrame, initializationApiType, initializationDeclare, d.name⟩

/-- The module at a line, the declarations that it has sent and the addresses that it
was answered. -/
structure Member where
  module : Initialization
  declarations : List Declaration
  answers : List UInt8

structure System where
  members : Fin 7 → Member
  controller : Controller

inductive Event
  | module (i : Fin 7) (e : Initialization.Event)
  /-- The module at a line is switched off and on. -/
  | restart (i : Fin 7)
  /-- The controller takes a step that is no declaration of a module. -/
  | controller (e : Controller.Event)
  /-- A declaration of the module at a line is handled. -/
  | deliver (i : Fin 7) (d : Declaration) (replied : Bool)

/-- What a module has sent with these actions. -/
def sent (address : UInt8) (os : List Initialization.Action) : List Declaration :=
  os.filterMap fun
    | .declared name => some ⟨address, name⟩
    | _ => none

/-- What `signpost_initialization_declare_respond` answers, if a module is isolated. -/
def respond (c : Controller) (source : UInt8) : List UInt8 :=
  (c.isolation.modIsolatedOut.map fun i => assignedAddress source (slotOf i)).toList

/-- An answer of the controller that a module receives is one that it was sent. -/
def FromController (answers : List UInt8) : Initialization.Event → Prop
  | .receive call => ∀ frame ∈ call.frame, Genuine call.senderAddress frame → frame.message 0 ∈ answers
  | _ => True

namespace System

def put (s : System) (i : Fin 7) (m : Member) : System := { s with members := Function.update s.members i m }

section
variable {s : System} {i k : Fin 7} {m : Member}

@[simp] theorem put_self : (s.put i m).members i = m := Function.update_self ..

theorem put_other (h : i ≠ k) : (s.put i m).members k = s.members k := Function.update_of_ne h.symm ..

@[simp] theorem put_controller : (s.put i m).controller = s.controller := rfl

end

def begin (start : Fin 7 → Initialization) (c : Controller) : System := ⟨fun i => ⟨start i, [], []⟩, c⟩

/-- The outputs are what the modules do. -/
def step (start : Fin 7 → Initialization) (s : System) :
    Event → Option (System × List (Fin 7 × Initialization.Action))
  | .module i e =>
    let m := s.members i
    (m.module.step e).map fun r =>
      (s.put i { m with
        module := r.1
        declarations := m.declarations ++ sent m.module.moduleInfo.i2cAddress r.2 }, r.2.map (i, ·))
  | .restart i => some (s.put i { s.members i with module := start i }, [])
  | .controller e => (s.controller.step e).map fun r => ({ s with controller := r.1 }, [])
  | .deliver i d replied =>
    let m := s.members i
    (s.controller.step (.message d.message replied)).map fun r =>
      ({ s.put i { m with answers := m.answers ++ respond s.controller d.source } with controller := r.1 }, [])

/-- What the bus does. A module takes an address only from an answer of the controller. -/
def Carried (s : System) : Event → Prop
  | .module i e => AnswerGenuine (s.members i).module e ∧ FromController (s.members i).answers e
  | .restart _ => True
  | .controller (.message msg _) => ¬ Declares msg
  | .controller _ => True
  | .deliver i d _ => d ∈ (s.members i).declarations ∧ ∀ j ∈ s.controller.isolation.modIsolatedOut, j = i

end System

def actionsOf (i : Fin 7) (os : List (Fin 7 × Initialization.Action)) : List Initialization.Action :=
  os.filterMap fun o => if o.1 = i then some o.2 else none

/-- The address that the controller has for a module that starts with this one. -/
def agreedAddress (m : Initialization) (i : Fin 7) : UInt8 := assignedAddress m.moduleInfo.i2cAddress (slotOf i)

/-- The controller's entry for the module at a line, which has started like this. -/
def Recorded (c : Controller) (m : Initialization) (i : Fin 7) : Prop :=
  c.moduleInfo.i2cAddressMods (slotOf i) = agreedAddress m i ∧ c.nameOf (slotOf i) = cstr m.moduleInfo.selfName.val

section
variable {i j : Fin 7} {os os' : List (Fin 7 × Initialization.Action)} {o : List Initialization.Action}

theorem actionsOf_append : actionsOf i (os ++ os') = actionsOf i os ++ actionsOf i os' := List.filterMap_append ..

theorem actionsOf_own : actionsOf i (o.map (i, ·)) = o := by
  rw [actionsOf, List.filterMap_map]
  simp

theorem actionsOf_other (h : j ≠ i) : actionsOf i (o.map (j, ·)) = [] := by
  rw [actionsOf, List.filterMap_map]
  simp [h]

theorem slotOf_injective : ∀ i j, slotOf i = slotOf j → i = j := by decide

theorem assignedAddress_twice (source : UInt8) (slot : Fin 8) :
    assignedAddress (assignedAddress source slot) slot = assignedAddress source slot := by
  have hslot : UInt8.ofNat (0x10 + slot) ≠ 0 := by
    revert slot
    decide
  by_cases hsource : source = 0
  · simp only [assignedAddress, if_pos hsource, if_neg hslot]
  · simp only [assignedAddress, if_neg hsource]

theorem cstr_declaredName (name : Bytes) : cstr (declaredName name).val = (cstr name).take 16 := by
  change cstr ((cstr name ++ List.replicate 16 0).take 16) = _
  rw [cstr_take, cstr_append_replicate, cstr_cstr]

end

/-! ## What a module does -/

section
variable {m : Initialization} {e : Initialization.Event} {r : Initialization × List Initialization.Action}
  {a : Initialization.Action}

/-- The action is none that sends or receives. -/
def Silent : Initialization.Action → Prop
  | .received .. => False
  | .declared _ => False
  | _ => True

theorem silent_loop {port : Port} (h : a ∈ (m.loop port).2) : Silent a := by
  rcases loop_cases (s := m) port with ⟨-, heq | heq⟩ | ⟨-, heq⟩ | ⟨-, heq⟩ <;> rw [heq] at h
  · obtain rfl := List.mem_singleton.mp h
    exact trivial
  · exact absurd h List.not_mem_nil
  · exact absurd h List.not_mem_nil
  · obtain rfl := List.mem_singleton.mp h
    exact trivial

theorem mem_resume {port : Port} (h : m.resume port = some r) (ha : a ∈ r.2) :
    Silent a ∨ a = .declared (cstr m.moduleInfo.selfName.val) := by
  unfold Initialization.resume at h
  split at h
  · cases h
    exact .inl (silent_loop ha)
  · split_ifs at h
    cases h
    exact .inl (silent_loop ha)
  · cases h
    exact .inl (silent_loop ha)
  · cases h
    unfold check at ha
    split_ifs at ha
    · exact .inl (silent_loop ha)
    · obtain rfl := List.mem_singleton.mp ha
      exact .inl trivial
  · cases h
    exact .inr (List.mem_singleton.mp ha)
  · cases h
    exact absurd ha List.not_mem_nil
  · split_ifs at h
    cases h
    left
    have hcompleted : ∀ {o : List Initialization.Action}, (∀ x ∈ o, Silent x) →
        ∀ x ∈ (if m.initState = .done then [Action.completed] else []) ++ o, Silent x := by
      intro o ho x hx
      rcases List.mem_append.mp hx with hx | hx
      · split_ifs at hx
        · obtain rfl := List.mem_singleton.mp hx
          exact trivial
        · exact absurd hx List.not_mem_nil
      · exact ho x hx
    simp only [takeAddress] at ha
    by_cases hnew : m.moduleInfo.i2cAddress ≠ m.incoming.message 0
    · rw [if_pos hnew, ← List.append_nil (ite ..)] at ha
      exact hcompleted (fun x hx => absurd hx List.not_mem_nil) a ha
    · rw [if_neg hnew] at ha
      exact hcompleted (fun x hx => silent_loop hx) a ha
  · cases h
    exact .inl (silent_loop ha)
  · cases h

theorem mem_step (h : m.step e = some r) (ha : a ∈ r.2) :
    Silent a ∨ a = .declared (cstr m.moduleInfo.selfName.val) ∨
      ∃ call frame, e = .receive call ∧ call.frame = some frame ∧ a = .received call.senderAddress frame := by
  cases e with
  | receive call =>
    obtain rfl := step_receive h
    unfold Initialization.receive at ha
    cases hframe : call.frame with
    | none =>
      rw [hframe] at ha
      exact absurd ha List.not_mem_nil
    | some frame =>
      rw [hframe] at ha
      exact .inr (.inr ⟨call, frame, rfl, hframe, List.mem_singleton.mp ha⟩)
  | isolation =>
    obtain rfl := step_isolation h
    exact absurd ha List.not_mem_nil
  | lostIsolation =>
    obtain rfl := step_lostIsolation h
    exact absurd ha List.not_mem_nil
  | timeout =>
    simp only [Initialization.step, Initialization.timeout] at h
    split at h
    · split_ifs at h
      cases h
      exact absurd ha List.not_mem_nil
    · split_ifs at h
      cases h
      exact absurd ha List.not_mem_nil
    · cases h
  | resume port =>
    exact (mem_resume h ha).imp_right .inl

theorem selfName_resume {port : Port} (h : m.resume port = some r) :
    r.1.moduleInfo.selfName = m.moduleInfo.selfName := by
  unfold Initialization.resume at h
  split at h
  · cases h
    rw [moduleInfo_loop]
  · split_ifs at h
    cases h
    rw [moduleInfo_loop]
  · cases h
    rw [moduleInfo_loop]
  · cases h
    unfold check
    split_ifs
    · rw [moduleInfo_loop]
    · rfl
  · cases h
    rfl
  · cases h
    rfl
  · split_ifs at h
    cases h
    unfold takeAddress
    dsimp only
    split_ifs
    all_goals first
      | rfl
      | rw [moduleInfo_loop]
  · cases h
    rw [moduleInfo_loop]
    dsimp only
    split_ifs <;> rfl
  · cases h

theorem selfName_step (h : m.step e = some r) : r.1.moduleInfo.selfName = m.moduleInfo.selfName := by
  cases e with
  | receive call =>
    obtain rfl := step_receive h
    unfold Initialization.receive
    cases call.frame <;> exact congrArg ModuleState.selfName (moduleInfo_recvCallback _)
  | isolation =>
    obtain rfl := step_isolation h
    simp only [isolationCallback]
    split_ifs <;> rfl
  | lostIsolation =>
    obtain rfl := step_lostIsolation h
    simp only [lostIsolationCallback]
    split_ifs <;> rfl
  | timeout =>
    simp only [Initialization.step, Initialization.timeout] at h
    split at h
    · split_ifs at h
      cases h
      rfl
    · split_ifs at h
      cases h
      rfl
    · cases h
  | resume port => exact selfName_resume h

theorem mem_sent {address : UInt8} {o : List Initialization.Action} {d : Declaration} (h : d ∈ sent address o) :
    d.source = address ∧ .declared d.name ∈ o := by
  obtain ⟨a, ha, hd⟩ := List.mem_filterMap.mp h
  cases a with
  | declared name =>
    cases hd
    exact ⟨rfl, ha⟩
  | received | requested | passed | completed | returned => cases hd

end

/-! ## What a declaration does -/

section
variable {c c' : Controller} {source : UInt8} {name : Bytes}

theorem entry_of_declare (h : c.declare source name = some c') {slot : Fin 8}
    (hslot : ∀ i ∈ c.isolation.modIsolatedOut, slotOf i ≠ slot) :
    c'.moduleInfo.i2cAddressMods slot = c.moduleInfo.i2cAddressMods slot ∧
      c'.moduleInfo.names slot = c.moduleInfo.names slot := by
  unfold Controller.declare at h
  split at h
  · cases h
    exact ⟨rfl, rfl⟩
  · next i hi =>
    by_cases hlength : name.length ≤ 17
    · rw [if_pos hlength] at h
      cases h
      have hne := (hslot i hi).symm
      exact ⟨Function.update_of_ne hne .., Function.update_of_ne hne ..⟩
    · rw [if_neg hlength] at h
      cases h

theorem entry_of_isolated (h : c.declare source name = some c') {i : Fin 7} (hi : c.isolation.modIsolatedOut = some i) :
    c'.moduleInfo.i2cAddressMods (slotOf i) = assignedAddress source (slotOf i) ∧
      c'.moduleInfo.names (slotOf i) = declaredName name := by
  unfold Controller.declare at h
  rw [hi] at h
  by_cases hlength : name.length ≤ 17
  · dsimp only at h
    rw [if_pos hlength] at h
    cases h
    exact ⟨Function.update_self .., Function.update_self ..⟩
  · dsimp only at h
    rw [if_neg hlength] at h
    cases h

end

/-! ## One module and its entry -/

/-- All that a module is answered is the address that the controller has for it. -/
structure Joined (start : Initialization) (i : Fin 7) (os : List Initialization.Action) (m : Member)
    (c : Controller) : Prop where
  placed : CallbackPlaced m.module
  inv : Invariant os m.module
  received : ∀ address, Answered os address → address ∈ m.answers
  address : m.module.moduleInfo.i2cAddress = start.moduleInfo.i2cAddress ∨
    m.module.moduleInfo.i2cAddress ∈ m.answers
  name : m.module.moduleInfo.selfName = start.moduleInfo.selfName
  declared : ∀ d ∈ m.declarations, (d.source = start.moduleInfo.i2cAddress ∨ d.source ∈ m.answers) ∧
    d.name = cstr start.moduleInfo.selfName.val
  answered : ∀ address ∈ m.answers, address = agreedAddress start i
  recorded : m.answers ≠ [] → Recorded c start i

section
variable {start : Initialization} {i : Fin 7} {os : List Initialization.Action} {m : Member} {c c' : Controller}

theorem Joined.initial (hstart : start.AtStart) : Joined start i [] ⟨start, [], []⟩ c where
  placed := .start hstart
  inv := invariant_start hstart
  received address h := by
    obtain ⟨sender, frame, hmem, -⟩ := h
    exact absurd hmem List.not_mem_nil
  address := .inl rfl
  name := rfl
  declared d h := absurd h List.not_mem_nil
  answered address h := absurd h List.not_mem_nil
  recorded h := absurd rfl h

theorem Joined.restart (h : Joined start i os m c) (hstart : start.AtStart) :
    Joined start i os { m with module := start } c :=
  { h with
    placed := .start hstart
    inv := (invariant_start hstart).append
    address := .inl rfl
    name := rfl }

theorem Joined.module (h : Joined start i os m c) {e : Initialization.Event}
    {r : Initialization × List Initialization.Action} (hstep : m.module.step e = some r)
    (hgenuine : AnswerGenuine m.module e) (hfrom : FromController m.answers e) :
    Joined start i (os ++ r.2)
      { m with
        module := r.1
        declarations := m.declarations ++ sent m.module.moduleInfo.i2cAddress r.2 } c where
  placed := h.placed.step hstep
  inv := h.inv.step h.placed hgenuine hstep
  received := by
    rintro address ⟨sender, frame, hmem, hanswer, rfl⟩
    rcases List.mem_append.mp hmem with hmem | hmem
    · exact h.received _ ⟨sender, frame, hmem, hanswer, rfl⟩
    · rcases mem_step hstep hmem with hsilent | hdeclared | ⟨call, frame', rfl, hframe, heq⟩
      · exact hsilent.elim
      · cases hdeclared
      · cases heq
        exact hfrom frame hframe hanswer
  address := by
    rcases address_step hstep with heq | ⟨hstage, ⟨port, rfl⟩, heq⟩
    · rw [heq]
      exact h.address
    · rcases hgenuine hstage with hanswer | ⟨hsame, -⟩
      · rw [heq]
        exact .inr (h.received _ ⟨_, _, h.inv.incoming hanswer, hanswer, rfl⟩)
      · rw [heq, hsame]
        exact h.address
  name := (selfName_step hstep).trans h.name
  declared := by
    intro d hd
    rcases List.mem_append.mp hd with hd | hd
    · exact h.declared d hd
    · obtain ⟨hsource, hname⟩ := mem_sent hd
      refine ⟨hsource ▸ h.address, ?_⟩
      rcases mem_step hstep hname with hsilent | hdeclared | ⟨call, frame, -, -, heq⟩
      · exact hsilent.elim
      · rw [← h.name]
        exact Initialization.Action.declared.inj hdeclared
      · cases heq
  answered := h.answered
  recorded := h.recorded

theorem Joined.controller (h : Joined start i os m c)
    (haddress : c'.moduleInfo.i2cAddressMods (slotOf i) = c.moduleInfo.i2cAddressMods (slotOf i))
    (hname : c'.moduleInfo.names (slotOf i) = c.moduleInfo.names (slotOf i)) : Joined start i os m c' :=
  { h with
    recorded := fun hne => ⟨haddress.trans (h.recorded hne).1, by
      rw [nameOf, hname]
      exact (h.recorded hne).2⟩ }

theorem Joined.deliver (h : Joined start i os m c) {d : Declaration} (hd : d ∈ m.declarations)
    (hisolated : ∀ j ∈ c.isolation.modIsolatedOut, j = i) (hdeclare : c.declare d.source d.name = some c') :
    Joined start i os { m with answers := m.answers ++ respond c d.source } c' := by
  obtain ⟨hsource, hname⟩ := h.declared d hd
  have hagreed : assignedAddress d.source (slotOf i) = agreedAddress start i := by
    rcases hsource with hsource | hanswer
    · rw [hsource]
      rfl
    · rw [h.answered _ hanswer, agreedAddress, assignedAddress_twice]
  cases hout : c.isolation.modIsolatedOut with
  | none =>
    have hrespond : respond c d.source = [] := by
      rw [respond, hout]
      rfl
    have hnone : ∀ j ∈ c.isolation.modIsolatedOut, slotOf j ≠ slotOf i := by simp [hout]
    obtain ⟨haddress, hentry⟩ := entry_of_declare hdeclare hnone
    rw [hrespond, List.append_nil]
    exact h.controller haddress hentry
  | some j =>
    obtain rfl := hisolated j hout
    have hrespond : respond c d.source = [agreedAddress start j] := by
      rw [respond, hout, ← hagreed]
      rfl
    obtain ⟨haddress, hentry⟩ := entry_of_isolated hdeclare hout
    have hrecorded : Recorded c' start j := by
      refine ⟨haddress.trans hagreed, ?_⟩
      rw [nameOf, hentry, cstr_declaredName, hname, cstr_cstr]
      exact List.take_of_length_le ((length_cstr_le _).trans_eq start.moduleInfo.selfName.property)
    have hanswers : ∀ address ∈ m.answers ++ [agreedAddress start j], address = agreedAddress start j := by
      intro address haddress
      rcases List.mem_append.mp haddress with haddress | haddress
      · exact h.answered address haddress
      · exact List.mem_singleton.mp haddress
    rw [hrespond]
    exact
      { h with
        received := fun address ha => List.mem_append_left _ (h.received address ha)
        address := h.address.imp_right (List.mem_append_left _)
        declared := fun d hd => ⟨(h.declared d hd).1.imp_right (List.mem_append_left _), (h.declared d hd).2⟩
        answered := hanswers
        recorded := fun _ => hrecorded }

end

/-! ## The system -/

theorem moduleInfo_of_carried {s : System} {e : Controller.Event} {r : Controller × List Controller.Action}
    (hstep : s.controller.step e = some r) (hcarried : s.Carried (.controller e)) :
    r.1.moduleInfo = s.controller.moduleInfo := by
  rcases moduleInfo_of_step hstep with heq | ⟨msg, replied, rfl, hdeclares, -⟩
  · exact heq
  · exact absurd hdeclares hcarried

theorem declare_of_step {c : Controller} {d : Declaration} {replied : Bool} {r : Controller × List Controller.Action}
    (h : c.step (.message d.message replied) = some r) : c.declare d.source d.name = some r.1 := by
  obtain ⟨c', hreceive, rfl⟩ := Option.map_eq_some_iff.mp h
  rwa [Controller.receive, if_pos ⟨rfl, rfl, rfl⟩] at hreceive

section
variable {start : Fin 7 → Initialization} {s s' : System} {e : Event}
  {os o : List (Fin 7 × Initialization.Action)}

def Agreed (start : Fin 7 → Initialization) (os : List (Fin 7 × Initialization.Action)) (s : System) : Prop :=
  ∀ i, Joined (start i) i (actionsOf i os) (s.members i) s.controller

theorem Agreed.step (hstart : ∀ i, (start i).AtStart) (h : Agreed start os s)
    (hstep : s.step start e = some (s', o)) (hcarried : s.Carried e) : Agreed start (os ++ o) s' := by
  intro k
  cases e with
  | module i e =>
    obtain ⟨r, hr, heq⟩ := Option.map_eq_some_iff.mp hstep
    cases heq
    rw [actionsOf_append]
    by_cases hk : i = k
    · subst hk
      rw [actionsOf_own, System.put_self]
      exact (h i).module hr hcarried.1 hcarried.2
    · rw [actionsOf_other hk, List.append_nil, System.put_other hk]
      exact h k
  | restart i =>
    cases hstep
    rw [List.append_nil]
    by_cases hk : i = k
    · subst hk
      rw [System.put_self]
      exact (h i).restart (hstart i)
    · rw [System.put_other hk]
      exact h k
  | controller e =>
    obtain ⟨r, hr, heq⟩ := Option.map_eq_some_iff.mp hstep
    cases heq
    have hinfo := moduleInfo_of_carried hr hcarried
    rw [List.append_nil]
    exact (h k).controller (by rw [hinfo]) (by rw [hinfo])
  | deliver i d replied =>
    obtain ⟨r, hr, heq⟩ := Option.map_eq_some_iff.mp hstep
    cases heq
    obtain ⟨hd, hisolated⟩ := hcarried
    have hdeclare := declare_of_step hr
    rw [List.append_nil]
    by_cases hk : i = k
    · subst hk
      change Joined (start i) i _ ((s.put i _).members i) r.1
      rw [System.put_self]
      exact (h i).deliver hd hisolated hdeclare
    · have hother : ∀ j ∈ s.controller.isolation.modIsolatedOut, slotOf j ≠ slotOf k := by
        intro j hj heq
        exact hk ((hisolated j hj).symm.trans (slotOf_injective j k heq))
      obtain ⟨haddress, hname⟩ := entry_of_declare hdeclare hother
      change Joined (start k) k _ ((s.put i _).members k) r.1
      rw [System.put_other hk]
      exact (h k).controller haddress hname

/-- **The modules and the controller agree.** Whatever is lost, delayed or repeated, and
whichever modules are restarted or time out: a module has the address that it has started
with or the one that the controller assigns to its slot, and one that has returned has the
latter, under which the controller has recorded it with its name. -/
theorem registration_agreed {c : Controller} {es : List Event} (hstart : ∀ i, (start i).AtStart)
    (h : Run (fun s e s' o => s.step start e = some (s', o) ∧ s.Carried e) (.begin start c) es s os) (i : Fin 7) :
    ((s.members i).module.moduleInfo.i2cAddress = (start i).moduleInfo.i2cAddress ∨
      (s.members i).module.moduleInfo.i2cAddress = agreedAddress (start i) i) ∧
    ((s.members i).module.stage = .returned →
      (s.members i).module.moduleInfo.i2cAddress = agreedAddress (start i) i ∧
      Recorded s.controller (start i) i ∧
      ((∀ t, t ≠ slotOf i → s.controller.moduleInfo.i2cAddressMods t ≠ agreedAddress (start i) i) →
        addrToModNum s.controller.moduleInfo (agreedAddress (start i) i) = some (slotOf i))) := by
  have hkeep : ∀ {os : List (Fin 7 × Initialization.Action)} {s : System} {e : Event} {s' : System}
      {o : List (Fin 7 × Initialization.Action)}, Agreed start os s →
        s.step start e = some (s', o) ∧ s.Carried e → Agreed start (os ++ o) s' :=
    fun hagreed hstep => hagreed.step hstart hstep.1 hstep.2
  have hjoined := h.history _ @hkeep (fun i => .initial (hstart i)) i
  refine ⟨hjoined.address.imp_right (hjoined.answered _), fun hreturned => ?_⟩
  have hanswer := hjoined.received _ (hjoined.inv.returned hreturned)
  have hrecorded := hjoined.recorded (List.ne_nil_of_mem hanswer)
  refine ⟨hjoined.answered _ hanswer, hrecorded, fun halone => ?_⟩
  rw [← hrecorded.1] at halone ⊢
  exact addrToModNum_of_alone halone

end

section

instance (answers : List UInt8) : DecidablePred (FromController answers)
  | .receive call => inferInstanceAs
      (Decidable (∀ frame ∈ call.frame, Genuine call.senderAddress frame → frame.message 0 ∈ answers))
  | .isolation => instDecidableTrue
  | .lostIsolation => instDecidableTrue
  | .timeout => instDecidableTrue
  | .resume _ => instDecidableTrue

instance (s : System) : DecidablePred s.Carried
  | .module .. => instDecidableAnd
  | .restart _ => instDecidableTrue
  | .controller (.message msg _) => inferInstanceAs (Decidable (¬ Declares msg))
  | .controller (.downlink ..) => instDecidableTrue
  | .controller (.checkModuleInit ..) => instDecidableTrue
  | .controller (.dutyCycleTimer ..) => instDecidableTrue
  | .controller .checkWatchdogs => instDecidableTrue
  | .controller (.updateEnergyPolicy _) => instDecidableTrue
  | .controller (.resume _) => instDecidableTrue
  | .deliver .. => instDecidableAnd

/-- `lab11/gps` at every line, without an address. -/
def sampleName : Name := Name.strncpy ⟨ofChars "lab11/gps" ++ List.replicate 7 0, rfl⟩

def sampleModule : Initialization :=
  { sampleStart with moduleInfo := { sampleStart.moduleInfo with selfName := sampleName } }

def sampleController : Controller := init (controllerModuleInfo zeroModuleInfo)

/-- A module is granted isolation and declares itself. -/
def sampleDeclared (i : Fin 7) : List Event :=
  [.module i (.resume samplePort), .controller (.checkModuleInit (· ≠ i) (· ≠ i)), .controller (.resume (· ≠ i)),
    .module i .isolation, .module i (.resume samplePort), .module i (.resume samplePort),
    .module i (.resume samplePort), .module i (.resume samplePort),
    .deliver i ⟨0, ofChars "lab11/gps"⟩ true]

/-- It is answered, and takes the address. -/
def sampleAnswered (i : Fin 7) : List Event :=
  [.module i (.receive ⟨1, moduleAddressController,
      some ⟨responseFrame, initializationApiType, initializationDeclare, 1, fun _ => 0x10⟩⟩),
    .module i (.resume samplePort), .module i (.resume samplePort)]

/-- A declaration is handled twice, and the module gets the second answer. -/
theorem registration_agreed_sample : ∃ s os,
    Run (fun (s : System) e s' o => s.step (fun _ => sampleModule) e = some (s', o) ∧ s.Carried e)
      (.begin (fun _ => sampleModule) sampleController)
      (sampleDeclared 0 ++ .deliver 0 ⟨0, ofChars "lab11/gps"⟩ true :: sampleAnswered 0) s os ∧
    (s.members 0).module.stage = .returned ∧
    (s.members 0).module.moduleInfo.i2cAddress = 0x10 ∧ s.controller.moduleInfo.i2cAddressMods 0 = 0x10 ∧
    s.controller.nameOf 0 = ofChars "lab11/gps" := by
  have hexec : (Run.exec (fun (s : System) e => if s.Carried e then s.step (fun _ => sampleModule) e else none)
      (.begin (fun _ => sampleModule) sampleController)
      (sampleDeclared 0 ++ .deliver 0 ⟨0, ofChars "lab11/gps"⟩ true :: sampleAnswered 0)).map
      (fun r => (r.1.members 0).module.stage) = some .returned := by decide +kernel
  obtain ⟨⟨s, os⟩, hexec, hstage⟩ := Option.map_eq_some_iff.mp hexec
  have hrun := Run.of_exec_guard hexec
  have hagreed := (registration_agreed (fun _ => ⟨rfl, rfl, rfl, rfl⟩) hrun 0).2 hstage
  exact ⟨s, os, hrun, hstage, hagreed.1, hagreed.2.1.1, hagreed.2.1.2⟩

end

end Registration

end Signpost
