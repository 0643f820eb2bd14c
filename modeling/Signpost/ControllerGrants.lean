/-
Grants of isolation: how failures to end one are counted, how long one lasts,
and what comes between two.

The count of failures is compared with the outcomes that a run has put out, so
its history is that of the outputs. One grant at a time, its bound and the one
after it are invariants of every run, whatever the lines read.
-/
import Signpost.ControllerIsolation

namespace Signpost.Controller

open Lib

/-! ## Checks one at a time -/

/-- No check waits, or one does, and a module is isolated. -/
inductive Phase (c : Controller) : Prop
  | idle (hnot : c.isolation.checkingInit = false) (hchecks : c.waitingChecks = [])
  | waiting {i stage} (hbusy : c.isolation.checkingInit = true) (hi : c.isolation.modIsolatedOut = some i)
      (hchecks : c.waitingChecks = [stage])

section
variable {c c' : Controller} {e : Event} {o : List Action} {stage : Stage} {stack : List Stage}

theorem Phase.none_waits (h : Phase c) (hnot : c.isolation.checkingInit = false) :
    c.waitingChecks = [] := by
  cases h with
  | idle _ hchecks => exact hchecks
  | waiting hbusy _ _ =>
    rw [hnot] at hbusy
    cases hbusy

theorem waitingChecks_wait (h : stage.isCheck = true) :
    (c.wait stage).waitingChecks = stage :: c.waitingChecks :=
  List.filter_cons_of_pos h

theorem waitingChecks_of_stack (hstack : c.stack = stage :: stack) (h : stage.isCheck = true) :
    c.waitingChecks = stage :: waitingChecks { c with stack := stack } := by
  rw [waitingChecks, hstack]
  exact List.filter_cons_of_pos h

theorem waitingChecks_grant {i : Fin 7} :
    (c.beginCheck.grant i).waitingChecks = .granting :: c.waitingChecks :=
  waitingChecks_wait rfl

theorem Phase.resumes (h : Phase c) (hstack : c.stack = stage :: stack) (hstage : stage.isCheck = true) :
    waitingChecks { c with stack := stack } = [] ∧ c.waitingChecks = [stage] := by
  have hchecks := waitingChecks_of_stack hstack hstage
  cases h with
  | idle _ hnone =>
    rw [hnone] at hchecks
    cases hchecks
  | waiting _ _ hone =>
    obtain ⟨rfl, hrest⟩ := List.cons.inj (hone.symm.trans hchecks)
    exact ⟨hrest.symm, hone⟩

theorem Phase.check (h : Phase c) (hcheck : CheckEffect c e c' o) : Phase c' := by
  cases hcheck with
  | grants hnot _ _ => exact .waiting rfl rfl (waitingChecks_grant.trans (by rw [h.none_waits hnot]))
  | powerCycles hnot hi _ _ _ =>
    exact .waiting rfl hi ((waitingChecks_wait rfl).trans (by rw [← h.none_waits hnot]; rfl))
  | idles hnot _ => exact .idle rfl (h.none_waits hnot)
  | succeeds hnot _ _ => exact .idle rfl (h.none_waits hnot)
  | timesOut hnot _ _ _ _ => exact .idle rfl (h.none_waits hnot)
  | counts hnot _ _ => exact .idle rfl (h.none_waits hnot)
  | grantBegun hstack => exact .idle rfl (h.resumes hstack rfl).1
  | powerCycled hstack _ => exact .idle rfl (h.resumes hstack rfl).1

theorem Phase.aside (h : Phase c) (haside : Aside c c' o) : Phase c' := by
  cases h with
  | idle hnot hchecks => exact .idle (by rw [haside.isolation, hnot]) (haside.checks.trans hchecks)
  | waiting hbusy hi hchecks =>
    exact .waiting (by rw [haside.isolation, hbusy]) (by rw [haside.isolation, hi])
      (haside.checks.trans hchecks)

end

/-! ## Failures -/

/-- What an action does to the number of time-outs of a module since its last
success or power cycle. -/
def countStep (m : Fin 8) (n : Nat) : Action → Nat
  | .timedOut m' => if m' = m then n + 1 else n
  | .succeeded m' => if m' = m then 0 else n
  | .powerCycled m' => if m' = m then 0 else n
  | _ => n

/-- The time-outs of a module since its last success or power cycle. -/
def timeoutsSince (m : Fin 8) (os : List Action) : Nat := os.foldl (countStep m) 0

/-- A success finds no failures that it would have to forget. -/
def FailureGuard (c : Controller) : Event → Prop
  | .checkModuleInit lines _ => c.isolation.checkingInit = false →
    ∀ i ∈ c.isolation.modIsolatedOut, lines i = true → (c.moduleState (slotOf i)).moduleInitFailures = 0
  | _ => True

/-- A module is inside its power cycle. -/
def Cycling (c : Controller) (m : Fin 8) : Prop :=
  c.waitingChecks = [.powerCycling] ∧ ∃ i, c.isolation.modIsolatedOut = some i ∧ slotOf i = m

structure FailuresCounted (os : List Action) (c : Controller) : Prop where
  phase : Phase c
  counts : ∀ m, (c.moduleState m).moduleInitFailures.toNat = timeoutsSince m os
  few : ∀ m, timeoutsSince m os = 5 ∧ c.Cycling m ∨ timeoutsSince m os ≤ 4 ∧ ¬ c.Cycling m
  cycled : ∀ (m : Fin 8) (os₁ os₂ : List Action), os = os₁ ++ .powerCycled m :: os₂ → timeoutsSince m os₁ = 5

section
variable {c c' : Controller} {m : Fin 8} {e : Event} {o os : List Action}

theorem timeoutsSince_append : timeoutsSince m (os ++ o) = o.foldl (countStep m) (timeoutsSince m os) :=
  List.foldl_append

theorem timeoutsSince_same (h : ∀ a ∈ o, ∀ n, countStep m n a = n) :
    timeoutsSince m (os ++ o) = timeoutsSince m os := by
  rw [timeoutsSince_append]
  induction o with
  | nil => rfl
  | cons a o ih =>
    rw [List.foldl_cons, h a List.mem_cons_self]
    exact ih fun a ha => h a (List.mem_cons_of_mem _ ha)

theorem countStep_finish {later : Fin 7 → Bool} :
    ∀ a ∈ c.highs later ++ [.checked], ∀ n, countStep m n a = n := by
  intro a ha n
  rcases List.mem_append.mp ha with ha | ha
  · obtain ⟨i, -, rfl⟩ := mem_highs.mp ha
    rfl
  · cases List.mem_singleton.mp ha
    rfl

theorem timeoutsSince_finish {later : Fin 7 → Bool} :
    timeoutsSince m (os ++ (o ++ (c.highs later ++ [.checked]))) =
      o.foldl (countStep m) (timeoutsSince m os) := by
  rw [← List.append_assoc, timeoutsSince_same countStep_finish, timeoutsSince_append]

theorem not_cycling (h : c.waitingChecks ≠ [.powerCycling]) : ¬ c.Cycling m := fun hcycling => h hcycling.1

theorem Cycling.slot (h : c.Cycling m) {i : Fin 7} (hi : c.isolation.modIsolatedOut = some i) : slotOf i = m := by
  obtain ⟨-, j, hj, heq⟩ := h
  cases hi.symm.trans hj
  exact heq

theorem FailuresCounted.few_of_not (h : FailuresCounted os c) (hm : ¬ c.Cycling m) :
    timeoutsSince m os ≤ 4 := by
  rcases h.few m with ⟨-, hcycling⟩ | ⟨hfew, -⟩
  · exact (hm hcycling).elim
  · exact hfew

theorem Phase.idle_not (h : Phase c) (hnot : c.isolation.checkingInit = false) :
    c.waitingChecks ≠ [.powerCycling] := by
  rw [h.none_waits hnot]
  exact (List.cons_ne_nil _ _).symm

theorem FailuresCounted.idle_few (h : FailuresCounted os c) (hnot : c.isolation.checkingInit = false)
    (m : Fin 8) : timeoutsSince m os ≤ 4 :=
  h.few_of_not (not_cycling (h.phase.idle_not hnot))

theorem FailuresCounted.cycled_append (h : FailuresCounted os c) (ho : ∀ m, .powerCycled m ∉ o)
    {os₁ os₂ : List Action} (heq : os ++ o = os₁ ++ .powerCycled m :: os₂) : timeoutsSince m os₁ = 5 := by
  rcases Run.append_eq_append_cons heq with ⟨r, hos, -⟩ | ⟨r, -, hr⟩
  · exact h.cycled m os₁ r hos
  · exact (ho m (hr ▸ List.mem_append_right _ List.mem_cons_self)).elim

theorem FailuresCounted.other (h : FailuresCounted os c) (hphase : Phase c')
    (hfailures : ∀ m, (c'.moduleState m).moduleInitFailures = (c.moduleState m).moduleInitFailures)
    (ho : ∀ a ∈ o, ∀ m n, countStep m n a = n) (hcycling : ∀ m, c'.Cycling m ↔ c.Cycling m) :
    FailuresCounted (os ++ o) c' := by
  have hsame : ∀ m, timeoutsSince m (os ++ o) = timeoutsSince m os := fun m =>
    timeoutsSince_same fun a ha n => ho a ha m n
  refine ⟨hphase, fun m => ?_, fun m => ?_, fun m os₁ os₂ => h.cycled_append fun m hmem => ?_⟩
  · rw [hfailures, hsame, h.counts]
  · rw [hsame, hcycling]
    exact h.few m
  · have hzero := ho _ hmem m 1
    rw [countStep, if_pos rfl] at hzero
    cases hzero

theorem FailuresCounted.goes_on (h : FailuresCounted os c) (hphase : Phase c')
    (hfailures : ∀ m, (c'.moduleState m).moduleInitFailures = (c.moduleState m).moduleInitFailures)
    (ho : ∀ a ∈ o, ∀ m n, countStep m n a = n) (hnot : c.waitingChecks ≠ [.powerCycling])
    (hnot' : c'.waitingChecks ≠ [.powerCycling]) : FailuresCounted (os ++ o) c' :=
  h.other hphase hfailures ho fun _ => iff_of_false (not_cycling hnot') (not_cycling hnot)

theorem FailuresCounted.aside (h : FailuresCounted os c) (haside : Aside c c' o) :
    FailuresCounted (os ++ o) c' := by
  refine h.other (h.phase.aside haside) haside.failures (fun a ha m n => ?_) fun m => ?_
  · have hnot := haside.actions a ha
    cases a with
    | cutOff _ _ => rfl
    | turnedOff _ => rfl
    | turnedOn _ => rfl
    | _ => cases hnot
  · rw [Cycling, Cycling, haside.checks, haside.isolation]

theorem FailuresCounted.next (h : FailuresCounted os c) (hnot : c.isolation.checkingInit = false)
    {n : UInt8} (hn : n = (c.moduleState m).moduleInitFailures + 1) : n.toNat = timeoutsSince m os + 1 := by
  have hfew := h.idle_few hnot m
  rw [hn, UInt8.toNat_add, h.counts, show (1 : UInt8).toNat = 1 from rfl]
  omega

theorem toNat_setFailures {n : UInt8} {m' : Fin 8} :
    ((c.setFailures m n).moduleState m').moduleInitFailures.toNat =
      if m = m' then n.toNat else (c.moduleState m').moduleInitFailures.toNat := by
  rw [failures_setFailures, apply_ite UInt8.toNat]
  simp only [eq_comm]

theorem countStep_timedOut {m' : Fin 8} :
    countStep m' (timeoutsSince m' os) (.timedOut m) =
      if m = m' then timeoutsSince m os + 1 else timeoutsSince m' os := by
  rw [countStep]
  split_ifs with heq
  · rw [heq]
  · rfl

theorem FailuresCounted.one (h : FailuresCounted os c) (hphase : Phase c') {t : Nat}
    (hcounts : ∀ m', timeoutsSince m' (os ++ o) = if m = m' then t else timeoutsSince m' os)
    (hfailures : ∀ m', (c'.moduleState m').moduleInitFailures.toNat =
      if m = m' then t else (c.moduleState m').moduleInitFailures.toNat)
    (hfew : t = 5 ∧ c'.Cycling m ∨ t ≤ 4 ∧ ¬ c'.Cycling m)
    (hothers : ∀ m', m ≠ m' → timeoutsSince m' os ≤ 4 ∧ ¬ c'.Cycling m')
    (hcycled : ∀ (m : Fin 8) (os₁ os₂ : List Action),
      os ++ o = os₁ ++ .powerCycled m :: os₂ → timeoutsSince m os₁ = 5) :
    FailuresCounted (os ++ o) c' := by
  refine ⟨hphase, fun m' => ?_, fun m' => ?_, hcycled⟩
  · rw [hcounts, hfailures, h.counts]
  · rw [hcounts]
    split_ifs with heq
    · rwa [← heq]
    · exact .inr (hothers m' heq)

theorem FailuresCounted.check (h : FailuresCounted os c) (hcheck : CheckEffect c e c' o)
    (hguard : FailureGuard c e) : FailuresCounted (os ++ o) c' := by
  have hphase := h.phase.check hcheck
  cases hcheck with
  | @grants lines later i hnot hnone hrequest =>
    refine h.goes_on hphase (fun _ => rfl) (fun a ha m n => ?_) (h.phase.idle_not hnot) ?_
    · cases List.mem_singleton.mp ha
      rfl
    · rw [waitingChecks_grant]
      simp
  | @idles lines later last hnot hnone =>
    exact h.goes_on hphase (fun _ => rfl) (fun a ha m n => countStep_finish a ha n) (h.phase.idle_not hnot)
      (h.phase.idle_not hnot)
  | @counts lines later i hnot hi hcount =>
    exact h.goes_on hphase (fun _ => rfl) (fun a ha m n => countStep_finish a ha n) (h.phase.idle_not hnot)
      (h.phase.idle_not hnot)
  | @grantBegun later stack hstack =>
    obtain ⟨hrest, hone⟩ := h.phase.resumes hstack rfl
    refine h.goes_on hphase (fun _ => rfl) (fun a ha m n => countStep_finish a ha n) ?_ ?_
    · rw [hone]
      simp
    · exact fun hcycling => List.cons_ne_nil _ _ (hcycling.symm.trans hrest)
  | @succeeds lines later i hnot hi hline =>
    have hnot' := h.phase.idle_not hnot
    refine h.one hphase (fun m => timeoutsSince_finish) (fun m => ?_) (.inr ⟨Nat.zero_le 4, not_cycling hnot'⟩)
      (fun m _ => ⟨h.idle_few hnot m, not_cycling hnot'⟩) fun m os₁ os₂ => h.cycled_append (by simp)
    -- The count is 0 although nothing sets it, since the module had no failures.
    split_ifs with heq
    · rw [← heq]
      exact congrArg UInt8.toNat (hguard hnot i hi hline)
    · rfl
  | @timesOut lines later i n hnot hi hcount hn hfew =>
    have hnext := h.next hnot hn
    have hnot' := h.phase.idle_not hnot
    refine h.one hphase (fun m => timeoutsSince_finish.trans countStep_timedOut) (fun m => ?_)
      (.inr ⟨?_, not_cycling hnot'⟩) (fun m _ => ⟨h.idle_few hnot m, not_cycling hnot'⟩)
      fun m os₁ os₂ => h.cycled_append (by simp)
    · rw [← hnext]
      exact toNat_setFailures
    · rw [← hnext]
      exact Nat.not_lt.mp fun h4 => hfew (UInt8.lt_iff_toNat_lt.mpr h4)
  | @powerCycles lines later i n hnot hi hcount hn hmany =>
    have hnext := h.next hnot hn
    have hwait := (waitingChecks_wait rfl).trans (congrArg (Stage.powerCycling :: ·) (h.phase.none_waits hnot))
    refine h.one hphase (fun m => timeoutsSince_append.trans countStep_timedOut) (fun m => ?_)
      (.inl ⟨?_, hwait, i, hi, rfl⟩) (fun m hne => ⟨h.idle_few hnot m, fun hcycling => hne (hcycling.slot hi)⟩)
      fun m os₁ os₂ => h.cycled_append (by simp)
    · rw [← hnext]
      exact toNat_setFailures
    · have hfew := h.idle_few hnot (slotOf i)
      have hmany' : 4 < n.toNat := UInt8.lt_iff_toNat_lt.mp hmany
      omega
  | @powerCycled later stack i hstack hi =>
    obtain ⟨hrest, hone⟩ := h.phase.resumes hstack rfl
    have hfive : timeoutsSince (slotOf i) os = 5 := by
      rcases h.few (slotOf i) with ⟨hfive, -⟩ | ⟨-, hnot⟩
      · exact hfive
      · exact (hnot ⟨hone, i, hi, rfl⟩).elim
    have hnot' : ∀ m, ¬ Cycling (powerCycle { c with stack := stack } i later).1 m := fun m =>
      not_cycling fun hcycling => List.cons_ne_nil _ _ (hcycling.symm.trans hrest)
    refine h.one hphase (fun m => timeoutsSince_finish) (fun m => toNat_setFailures)
      (.inr ⟨Nat.zero_le 4, hnot' _⟩)
      (fun m hne => ⟨h.few_of_not fun hcycling => hne (hcycling.slot hi), hnot' m⟩) fun m os₁ os₂ heq => ?_
    rcases Run.append_cons_eq_append_cons heq (by simp [finishCheck]) with ⟨r, hos, -⟩ | ⟨hm, rfl, -⟩
    · exact h.cycled m os₁ r hos
    · rwa [← (Action.powerCycled.inj hm : slotOf i = m)]

theorem FailuresCounted.effect (h : FailuresCounted os c) (heffect : Effect c e c' o)
    (hguard : FailureGuard c e) : FailuresCounted (os ++ o) c' := by
  rcases heffect.aside_or with haside | hcheck
  · exact h.aside haside
  · exact h.check hcheck hguard

theorem failuresCounted_init (moduleInfo : ModuleState) : FailuresCounted [] (init moduleInfo) :=
  ⟨.idle rfl rfl, fun _ => rfl, fun _ => .inr ⟨Nat.zero_le 4, not_cycling (List.cons_ne_nil _ _).symm⟩, by simp⟩

theorem moduleState_of_succeeded (heffect : Effect c e c' o) (h : .succeeded m ∈ o) :
    c'.moduleState = c.moduleState := by
  rcases heffect.aside_or with haside | hcheck
  · cases haside.actions _ h
  · cases hcheck with
    | succeeds _ _ _ => rfl
    | powerCycled _ _ => simp [powerCycle, after, finishCheck] at h
    | _ => simp at h

end

/-- The failures of a module are its time-outs since its last success or power
cycle, which comes after five of them; and a success changes no other module. -/
theorem failures_accounted {moduleInfo : ModuleState} {es : List Event} {c : Controller} {os : List Action}
    (h : Run (fun c e c' o => c.step e = some (c', o) ∧ FailureGuard c e) (init moduleInfo) es c os) :
    (∀ m, (c.moduleState m).moduleInitFailures.toNat = timeoutsSince m os) ∧
      (∀ (m : Fin 8) (os₁ os₂ : List Action), os = os₁ ++ .powerCycled m :: os₂ → timeoutsSince m os₁ = 5) ∧
      Run (fun c e c' o => c.step e = some (c', o) ∧
        ∀ m, .succeeded m ∈ o → ∀ m', m' ≠ m → c'.moduleState m' = c.moduleState m') (init moduleInfo) es c os := by
  have hcounted : FailuresCounted os c :=
    h.history _ (fun hinv hstep => hinv.effect (effect_of_step hstep.1) hstep.2)
      (failuresCounted_init moduleInfo)
  refine ⟨hcounted.counts, hcounted.cycled, h.mono fun hstep => ⟨hstep.1, fun m hm m' _ => ?_⟩⟩
  rw [moduleState_of_succeeded (effect_of_step hstep.1) hm]

section

instance (c : Controller) : DecidablePred (FailureGuard c)
  | .message .. => instDecidableTrue
  | .downlink .. => instDecidableTrue
  | .checkModuleInit lines _ => inferInstanceAs (Decidable (c.isolation.checkingInit = false →
      ∀ i ∈ c.isolation.modIsolatedOut, lines i = true → (c.moduleState (slotOf i)).moduleInitFailures = 0))
  | .dutyCycleTimer .. => instDecidableTrue
  | .checkWatchdogs => instDecidableTrue
  | .updateEnergyPolicy _ => instDecidableTrue
  | .resume _ => instDecidableTrue

/-- The second module's line is low but at the end of each check: it is isolated,
and takes too long. -/
def sampleTimeOut : List Event :=
  .checkModuleInit (· ≠ 1) (fun _ => true) :: .resume (fun _ => true) ::
    List.replicate 12 (.checkModuleInit (· ≠ 1) fun _ => true)

/-- A module takes too long once. -/
theorem failures_accounted_once : ∃ c os,
    Run (fun c e c' o => c.step e = some (c', o) ∧ FailureGuard c e) (init sampleInfo) sampleTimeOut c os ∧
    (c.moduleState 1).moduleInitFailures.toNat = timeoutsSince 1 os ∧ timeoutsSince 1 os = 1 := by
  have hexec : (Run.exec (fun (c : Controller) e => if FailureGuard c e then c.step e else none) (init sampleInfo)
      sampleTimeOut).map (fun r => timeoutsSince 1 r.2) = some 1 := by decide +kernel
  obtain ⟨⟨c, os⟩, hexec, hone⟩ := Option.map_eq_some_iff.mp hexec
  have hrun := Run.of_exec_guard hexec
  exact ⟨c, os, hrun, (failures_accounted hrun).1 1, hone⟩

/-- It is isolated again, and succeeds. -/
theorem failures_after_success : ∃ c os,
    Run (fun c e c' o => c.step e = some (c', o)) (init sampleInfo)
      (sampleTimeOut ++ [sampleCheck 1, .resume (· ≠ 1), .checkModuleInit (fun _ => true) fun _ => true]) c os ∧
    .succeeded 1 ∈ os ∧ timeoutsSince 1 os = 0 ∧ (c.moduleState 1).moduleInitFailures = 1 := by
  have hexec : (Run.exec (fun (c : Controller) e => c.step e) (init sampleInfo)
      (sampleTimeOut ++ [sampleCheck 1, .resume (· ≠ 1), .checkModuleInit (fun _ => true) fun _ => true])).map
      (fun r => (decide (.succeeded 1 ∈ r.2), timeoutsSince 1 r.2, (r.1.moduleState 1).moduleInitFailures)) =
      some (true, 0, 1) := by decide +kernel
  obtain ⟨⟨c, os⟩, hexec, heq⟩ := Option.map_eq_some_iff.mp hexec
  obtain ⟨hmem, heq⟩ := Prod.mk.inj heq
  exact ⟨c, os, Run.of_exec hexec, of_decide_eq_true hmem, (Prod.mk.inj heq).1, (Prod.mk.inj heq).2⟩

end

/-! ## Grants -/

/-- No line is low but that of the module that is isolated, and none during its
power cycle. -/
structure Lines (c : Controller) : Prop where
  phase : Phase c
  same : c.isolation.modIsolatedIn = c.isolation.modIsolatedOut
  low : ∀ i, c.isolation.modIn i = false → c.isolation.modIsolatedIn = some i
  raised : c.waitingChecks = [.powerCycling] → ∀ i, c.isolation.modIn i = true

section
variable {c c' : Controller} {e : Event} {o os : List Action} {i : Fin 7}

theorem lastModOutState_grant :
    (c.beginCheck.grant i).isolation.lastModOutState =
      Function.update c.isolation.lastModOutState i false :=
  rfl

theorem modIn_grant :
    (c.beginCheck.grant i).isolation.modIn = Function.update c.isolation.modIn i false :=
  rfl

theorem Lines.raises (h : Lines c) (hi : c.isolation.modIsolatedOut = some i) (j : Fin 7) :
    c.beginCheck.setIn.isolation.modIn j = true := by
  have hin : c.beginCheck.isolation.modIsolatedIn = some i := h.same.trans hi
  have hset : c.beginCheck.setIn.isolation.modIn = Function.update c.isolation.modIn i true := by
    simp only [setIn, hin]
    rfl
  rw [hset]
  by_cases hj : j = i
  · rw [hj, Function.update_self]
  · rw [Function.update_of_ne hj]
    by_contra hlow
    exact hj (Option.some_inj.mp ((h.low j (Bool.eq_false_of_not_eq_true hlow)).symm.trans hin))

theorem Lines.aside (h : Lines c) (haside : Aside c c' o) : Lines c' := by
  refine ⟨h.phase.aside haside, ?_, ?_, ?_⟩
  · rw [haside.isolation]
    exact h.same
  · rw [haside.isolation]
    exact h.low
  · rw [haside.isolation, haside.checks]
    exact h.raised

theorem Lines.check (h : Lines c) (hcheck : CheckEffect c e c' o) : Lines c' := by
  have hphase := h.phase.check hcheck
  cases hcheck with
  | @grants lines later i hnot hnone hrequest =>
    refine ⟨hphase, rfl, fun j hj => ?_, fun hcycling => ?_⟩
    · by_cases hji : j = i
      · rw [hji]
        rfl
      · rw [modIn_grant, Function.update_of_ne hji] at hj
        cases (h.low j hj).symm.trans (h.same.trans hnone)
    · rw [waitingChecks_grant] at hcycling
      cases hcycling
  | @idles lines later last hnot hnone =>
    exact ⟨hphase, h.same, h.low, fun hcycling => (h.phase.idle_not hnot hcycling).elim⟩
  | @counts lines later i hnot hi hcount =>
    exact ⟨hphase, h.same, h.low, fun hcycling => (h.phase.idle_not hnot hcycling).elim⟩
  | @succeeds lines later i hnot hi hline =>
    have hraised := h.raises hi
    exact ⟨hphase, rfl, fun j hj => absurd (hraised j) (Bool.eq_false_iff.mp hj), fun _ => hraised⟩
  | @timesOut lines later i n hnot hi hcount hn hfew =>
    have hraised := h.raises hi
    exact ⟨hphase, rfl, fun j hj => absurd (hraised j) (Bool.eq_false_iff.mp hj), fun _ => hraised⟩
  | @powerCycles lines later i n hnot hi hcount hn hmany =>
    have hraised := h.raises hi
    exact ⟨hphase, h.same, fun j hj => absurd (hraised j) (Bool.eq_false_iff.mp hj), fun _ => hraised⟩
  | @grantBegun later stack hstack =>
    have hrest := (h.phase.resumes hstack rfl).1
    exact ⟨hphase, h.same, h.low, fun hcycling => (List.cons_ne_nil _ _ (hcycling.symm.trans hrest)).elim⟩
  | @powerCycled later stack i hstack hi =>
    have hraised := h.raised (h.phase.resumes hstack rfl).2
    exact ⟨hphase, rfl, fun j hj => absurd (hraised j) (Bool.eq_false_iff.mp hj), fun _ => hraised⟩

/-- Module `i` is isolated, and this many checks have ended since it was granted
isolation. -/
def Pending (c : Controller) (i : Fin 7) (n : Nat) : Prop :=
  c.isolation.modIsolatedOut = some i ∧
    (c.waitingChecks = [.granting] ∧ c.isolation.isolatedCount = 0 ∧ n = 0 ∨
      c.waitingChecks ≠ [.granting] ∧ n = c.isolation.isolatedCount + 1)

/-- A module is isolated from a grant on until it is released. -/
structure Bounded (os : List Action) (c : Controller) : Prop where
  phase : Phase c
  few : c.isolation.isolatedCount ≤ 11
  isolated : ∀ i, c.isolation.modIsolatedOut = some i →
    ∃ os₁ os₂ : List Action, os = os₁ ++ .granted i :: os₂ ∧ .released ∉ os₂
  pending : ∀ (i : Fin 7) (os₁ os₂ : List Action), os = os₁ ++ .granted i :: os₂ → .released ∉ os₂ →
    c.Pending i (os₂.count .checked)

theorem count_finish {later : Fin 7 → Bool} : (c.highs later ++ [Action.checked]).count .checked = 1 := by
  have hnone : (c.highs later).count Action.checked = 0 := List.count_eq_zero.mpr (by simp)
  rw [List.count_append, hnone, List.count_singleton_self]

theorem Bounded.le (h : Bounded os c) {os₁ os₂ : List Action} (hos : os = os₁ ++ .granted i :: os₂)
    (hnot : .released ∉ os₂) : c.isolation.modIsolatedOut = some i ∧ os₂.count .checked ≤ 12 := by
  have hfew := h.few
  obtain ⟨hi, ⟨-, -, hzero⟩ | ⟨-, hnext⟩⟩ := h.pending i os₁ os₂ hos hnot
  · exact ⟨hi, by omega⟩
  · exact ⟨hi, by omega⟩

theorem Bounded.other (h : Bounded os c) (hphase : Phase c') (hfew : c'.isolation.isolatedCount ≤ 11)
    (ho : ∀ i, .granted i ∉ o)
    (hisolated : ∀ i, c'.isolation.modIsolatedOut = some i → c.isolation.modIsolatedOut = some i ∧ .released ∉ o)
    (hpending : .released ∉ o → ∀ i n, c.Pending i n → c'.Pending i (n + o.count .checked)) :
    Bounded (os ++ o) c' := by
  refine ⟨hphase, hfew, fun i hi => ?_, fun i os₁ os₂ heq hnot => ?_⟩
  · obtain ⟨hi, hreleased⟩ := hisolated i hi
    obtain ⟨os₁, os₂, rfl, hnot⟩ := h.isolated i hi
    refine ⟨os₁, os₂ ++ o, by simp, fun hmem => ?_⟩
    rcases List.mem_append.mp hmem with hmem | hmem
    · exact hnot hmem
    · exact hreleased hmem
  · rcases Run.append_eq_append_cons heq with ⟨r, hos, rfl⟩ | ⟨r, -, hr⟩
    · rw [List.count_append]
      exact hpending (fun hmem => hnot (List.mem_append_right _ hmem)) i _
        (h.pending i os₁ r hos fun hmem => hnot (List.mem_append_left _ hmem))
    · exact (ho i (hr ▸ List.mem_append_right _ List.mem_cons_self)).elim

theorem Bounded.aside (h : Bounded os c) (haside : Aside c c' o) : Bounded (os ++ o) c' := by
  have hnone : ∀ a : Action, a.isCheck = true → a ∉ o := fun a ha hmem => by
    rw [haside.actions a hmem] at ha
    cases ha
  refine h.other (h.phase.aside haside) ?_ (fun i => hnone _ rfl)
    (fun i hi => ⟨?_, hnone _ rfl⟩) fun _ i n hi => ?_
  · rw [haside.isolation]
    exact h.few
  · rwa [← haside.isolation]
  · rw [List.count_eq_zero.mpr (hnone _ rfl), Pending, haside.isolation, haside.checks]
    exact hi

theorem Bounded.check (h : Bounded os c) (hcheck : CheckEffect c e c' o) : Bounded (os ++ o) c' := by
  have hphase := h.phase.check hcheck
  cases hcheck with
  | @grants lines later i hnot hnone hrequest =>
    refine ⟨hphase, Nat.zero_le 11, fun j hj => ?_, fun j os₁ os₂ heq hnot' => ?_⟩
    · cases hj
      exact ⟨os, [], rfl, List.not_mem_nil⟩
    · rcases Run.append_cons_eq_append_cons heq List.not_mem_nil with ⟨r, hos, rfl⟩ | ⟨hij, -, rfl⟩
      · have hj := (h.pending j os₁ r hos fun hmem => hnot' (List.mem_append_left _ hmem)).1
        cases hnone.symm.trans hj
      · cases hij
        exact ⟨rfl, .inl ⟨waitingChecks_grant.trans (by rw [h.phase.none_waits hnot]), rfl, rfl⟩⟩
  | @idles lines later last hnot hnone =>
    refine h.other hphase h.few (by simp) (fun i hi => ⟨hi, by simp⟩) fun _ i n hi => ?_
    cases hnone.symm.trans hi.1
  | @counts lines later i hnot hi hcount =>
    refine h.other hphase (Nat.succ_le_succ (Nat.not_lt.mp hcount)) (by simp) (fun i hi => ⟨hi, by simp⟩)
      fun _ j n hj => ⟨hj.1, ?_⟩
    rcases hj.2 with ⟨hwait, -⟩ | ⟨hwait, rfl⟩
    · cases (h.phase.none_waits hnot).symm.trans hwait
    · exact .inr ⟨hwait, by rw [count_finish]; rfl⟩
  | @succeeds lines later i hnot hi hline =>
    exact h.other hphase h.few (by simp) (fun i hi => by cases hi) fun hreleased =>
      (hreleased (by simp)).elim
  | @timesOut lines later i n hnot hi hcount hn hfew =>
    exact h.other hphase h.few (by simp) (fun i hi => by cases hi) fun hreleased =>
      (hreleased (by simp)).elim
  | @powerCycles lines later i n hnot hi hcount hn hmany =>
    refine h.other hphase h.few (by simp) (fun i hi => ⟨hi, by simp⟩) fun _ j n hj => ⟨hj.1, ?_⟩
    rcases hj.2 with ⟨hwait, -⟩ | ⟨-, rfl⟩
    · cases (h.phase.none_waits hnot).symm.trans hwait
    · refine .inr ⟨fun hwait => ?_, rfl⟩
      cases (waitingChecks_wait rfl).symm.trans hwait
  | @grantBegun later stack hstack =>
    obtain ⟨hrest, hone⟩ := h.phase.resumes hstack rfl
    refine h.other hphase h.few (by simp) (fun i hi => ⟨hi, by simp⟩) fun _ j n hj => ⟨hj.1, ?_⟩
    rcases hj.2 with ⟨-, hcount, rfl⟩ | ⟨hwait, -⟩
    · refine .inr ⟨fun hwait => List.cons_ne_nil _ _ (hwait.symm.trans hrest), ?_⟩
      rw [count_finish]
      exact congrArg (· + 1) hcount.symm
    · exact (hwait hone).elim
  | @powerCycled later stack i hstack hi =>
    exact h.other hphase h.few (by simp [powerCycle, after, finishCheck]) (fun i hi => by cases hi)
      fun hreleased => (hreleased (by simp [powerCycle, after])).elim

/-- A module that was granted isolation is not granted it before its line is seen high. -/
structure Rearmed (os : List Action) (c : Controller) : Prop where
  armed : ∀ (i : Fin 7) (os₁ os₂ : List Action), os = os₁ ++ .granted i :: os₂ → .observedHigh i ∉ os₂ →
    c.isolation.lastModOutState i = false
  again : ∀ (i : Fin 7) (os₁ os₂ os₃ : List Action),
    os = os₁ ++ .granted i :: (os₂ ++ .granted i :: os₃) → .observedHigh i ∈ os₂

theorem Rearmed.other (h : Rearmed os c) (ho : ∀ i, .granted i ∉ o)
    (hlow : ∀ i, .observedHigh i ∉ o → c.isolation.lastModOutState i = false → c'.isolation.lastModOutState i = false) :
    Rearmed (os ++ o) c' := by
  refine ⟨fun i os₁ os₂ heq hnot => ?_, fun i os₁ os₂ os₃ heq => ?_⟩
  · rcases Run.append_eq_append_cons heq with ⟨r, hos, rfl⟩ | ⟨r, -, hr⟩
    · exact hlow i (fun hmem => hnot (List.mem_append_right _ hmem))
        (h.armed i os₁ r hos fun hmem => hnot (List.mem_append_left _ hmem))
    · exact (ho i (hr ▸ List.mem_append_right _ List.mem_cons_self)).elim
  · rw [← List.cons_append, ← List.append_assoc] at heq
    rcases Run.append_eq_append_cons heq with ⟨r, hos, -⟩ | ⟨r, -, hr⟩
    · exact h.again i os₁ os₂ r (by rw [hos]; simp)
    · exact (ho i (hr ▸ List.mem_append_right _ List.mem_cons_self)).elim

theorem Rearmed.aside (h : Rearmed os c) (haside : Aside c c' o) : Rearmed (os ++ o) c' := by
  refine h.other (fun i hmem => ?_) fun i _ hlow => ?_
  · cases haside.actions _ hmem
  · rwa [haside.isolation]

/-- A step with the end of a check, that grants nothing: a line that is not seen
high there stays low. -/
theorem Rearmed.finish (h : Rearmed os c) {later : Fin 7 → Bool} (ho : ∀ i, .granted i ∉ o)
    (hhighs : ∀ i, .observedHigh i ∈ c.highs later → .observedHigh i ∈ o)
    (hend : c'.isolation.lastModOutState = (c.endCheck later).isolation.lastModOutState) :
    Rearmed (os ++ o) c' := by
  refine h.other ho fun i hnot hlow => ?_
  have hlater : later i = false := by
    by_contra hhigh
    exact hnot (hhighs i (mem_highs.mpr ⟨i, ⟨hlow, Bool.eq_true_of_not_eq_false hhigh⟩, rfl⟩))
  rw [hend]
  exact Bool.or_eq_false_iff.mpr ⟨hlow, hlater⟩

theorem Rearmed.check (h : Rearmed os c) (hcheck : CheckEffect c e c' o) : Rearmed (os ++ o) c' := by
  cases hcheck with
  | @grants lines later i hnot hnone hrequest =>
    obtain ⟨last, -, -, hready, -⟩ := hrequest
    have hready' : c.isolation.lastModOutState i = true := hready
    refine ⟨fun j os₁ os₂ heq hseen => ?_, fun j os₁ os₂ os₃ heq => ?_⟩
    · rw [lastModOutState_grant]
      by_cases hji : j = i
      · rw [hji, Function.update_self]
      · rw [Function.update_of_ne hji]
        rcases Run.append_cons_eq_append_cons heq List.not_mem_nil with ⟨r, hos, rfl⟩ | ⟨hij, -⟩
        · exact h.armed j os₁ r hos fun hmem => hseen (List.mem_append_left _ hmem)
        · exact (hji (Action.granted.inj hij).symm).elim
    · rw [← List.cons_append, ← List.append_assoc] at heq
      rcases Run.append_cons_eq_append_cons heq List.not_mem_nil with ⟨r, hos, -⟩ | ⟨hij, hos, -⟩
      · exact h.again j os₁ os₂ r (by rw [hos]; simp)
      · by_contra hseen
        have hlow := h.armed j os₁ os₂ hos.symm hseen
        rw [← Action.granted.inj hij, hready'] at hlow
        cases hlow
  | idles _ _ => exact h.finish (by simp) (fun _ => List.mem_append_left _) rfl
  | counts _ _ _ => exact h.finish (by simp) (fun _ => List.mem_append_left _) rfl
  | grantBegun _ => exact h.finish (by simp) (fun _ => List.mem_append_left _) rfl
  | succeeds _ _ _ =>
    exact h.finish (by simp) (fun _ hi => List.mem_append_right _ (List.mem_append_left _ hi)) rfl
  | timesOut _ _ _ _ _ =>
    exact h.finish (by simp) (fun _ hi => List.mem_append_right _ (List.mem_append_left _ hi)) rfl
  | powerCycled _ _ =>
    exact h.finish (by simp [powerCycle, after, finishCheck])
      (fun _ hi => List.mem_append_right _ (List.mem_append_left _ hi)) rfl
  | powerCycles _ _ _ _ _ => exact h.other (by simp) fun _ _ hlow => hlow

end

/-- The line of a module is low only while it is isolated. It is isolated from a
grant on until it is released, which happens before the twelfth check after that
of the grant has ended; and its line is seen high before it is granted isolation again. -/
theorem grants_exclusive_bounded_rearmed {moduleInfo : ModuleState} {es : List Event} {c : Controller}
    {os : List Action} (h : Run (fun c e c' o => c.step e = some (c', o)) (init moduleInfo) es c os) :
    (∀ i, c.isolation.modIn i = false → c.isolation.modIsolatedIn = some i) ∧
      (∀ i, c.isolation.modIsolatedOut = some i →
        ∃ os₁ os₂ : List Action, os = os₁ ++ .granted i :: os₂ ∧ .released ∉ os₂) ∧
      (∀ (i : Fin 7) (os₁ os₂ : List Action), os = os₁ ++ .granted i :: os₂ → .released ∉ os₂ →
        c.isolation.modIsolatedOut = some i ∧ os₂.count .checked ≤ 12) ∧
      ∀ (i : Fin 7) (os₁ os₂ os₃ : List Action),
        os = os₁ ++ .granted i :: (os₂ ++ .granted i :: os₃) → .observedHigh i ∈ os₂ := by
  have hlines : Lines c := by
    refine h.invariant (fun hinv hstep => ?_) ⟨.idle rfl rfl, rfl, fun _ hlow => (by cases hlow),
      fun _ _ => rfl⟩
    exact (effect_of_step hstep).aside_or.elim hinv.aside hinv.check
  have hbounded : Bounded os c := by
    refine h.history _ (fun hinv hstep => ?_) ⟨.idle rfl rfl, Nat.zero_le 11,
      fun _ hi => (by cases hi), by simp⟩
    exact (effect_of_step hstep).aside_or.elim hinv.aside hinv.check
  have hrearmed : Rearmed os c := by
    refine h.history _ (fun hinv hstep => ?_) ⟨by simp, by simp⟩
    exact (effect_of_step hstep).aside_or.elim hinv.aside hinv.check
  exact ⟨hlines.low, hbounded.isolated, fun _ _ _ hos hnot => hbounded.le hos hnot, hrearmed.again⟩

/-- A module takes too long, and is granted isolation again. -/
theorem grants_again : ∃ c os,
    Run (fun c e c' o => c.step e = some (c', o)) (init sampleInfo)
    (sampleTimeOut ++ [sampleCheck 1]) c os ∧
    os.count (.granted 1) = 2 ∧ c.isolation.modIn 1 = false ∧ c.isolation.modIsolatedIn = some 1 := by
  have hexec : (Run.exec (fun (c : Controller) e => c.step e) (init sampleInfo) (sampleTimeOut ++ [sampleCheck 1])).map
      (fun r => (r.2.count (.granted 1), r.1.isolation.modIn 1)) = some (2, false) := by decide +kernel
  obtain ⟨⟨c, os⟩, hexec, heq⟩ := Option.map_eq_some_iff.mp hexec
  obtain ⟨hcount, hlow⟩ := Prod.mk.inj heq
  have hrun := Run.of_exec hexec
  exact ⟨c, os, hrun, hcount, hlow, (grants_exclusive_bounded_rearmed hrun).1 1 hlow⟩

end Signpost.Controller
