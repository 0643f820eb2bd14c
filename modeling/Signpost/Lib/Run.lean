/-
Runs of a system that takes events and produces outputs: `Run step s es s' os`
says the events `es` take `s` to `s'` and produce `os`, in order.

`step` is a relation, so a guard on the steps of a run is a stronger `step`.

An invariant of the steps is one of the runs, and so is a relation to the
outputs so far. The executable form of a run decides examples.
-/
import Mathlib.Data.List.Basic
import Mathlib.Logic.Relation

namespace Lib

variable {S E O : Type}

inductive Run (step : S → E → S → List O → Prop) : S → List E → S → List O → Prop
  | nil {s} : Run step s [] s []
  | cons {s e s' o es s'' os} : step s e s' o → Run step s' es s'' os → Run step s (e :: es) s'' (o ++ os)

namespace Run

variable {step step' : S → E → S → List O → Prop} {s s' s'' : S} {e : E} {es es' : List E}
  {o os os' : List O}

/-- A run over two lists of events goes through a state between them. -/
theorem of_append (h : Run step s (es ++ es') s'' os) :
    ∃ s' os₁ os₂, os = os₁ ++ os₂ ∧ Run step s es s' os₁ ∧ Run step s' es' s'' os₂ := by
  induction es generalizing s os with
  | nil => exact ⟨s, [], os, rfl, .nil, h⟩
  | cons e es ih =>
    cases h with
    | cons hs hr =>
      obtain ⟨t, os₁, os₂, rfl, h₁, h₂⟩ := ih hr
      exact ⟨t, _, os₂, (List.append_assoc ..).symm, .cons hs h₁, h₂⟩

theorem mono (h : Run step s es s' os) (hstep : ∀ {s e s' o}, step s e s' o → step' s e s' o) :
    Run step' s es s' os := by
  induction h with
  | nil => exact .nil
  | cons hs _ ih => exact .cons (hstep hs) ih

theorem invariant {Inv : S → Prop} (hstep : ∀ {s e s' o}, Inv s → step s e s' o → Inv s')
    (h : Run step s es s' os) (hs : Inv s) : Inv s' := by
  induction h with
  | nil => exact hs
  | cons hstp _ ih => exact ih (hstep hs hstp)

theorem history (Inv : List O → S → Prop)
    (hstep : ∀ {os s e s' o}, Inv os s → step s e s' o → Inv (os ++ o) s')
    (h : Run step s es s' os) (hs : Inv [] s) : Inv os s' := by
  suffices hall : ∀ {before}, Inv before s → Inv (before ++ os) s' from hall hs
  clear hs
  induction h with
  | nil =>
    intro before hs
    rwa [List.append_nil]
  | cons hstp _ ih =>
    intro before hs
    rw [← List.append_assoc]
    exact ih (hstep hs hstp)

theorem events (Inv : List E → S → Prop) (hstep : ∀ {es s e s' o}, Inv es s → step s e s' o → Inv (es ++ [e]) s')
    (h : Run step s es s' os) (hs : Inv [] s) : Inv es s' := by
  suffices hall : ∀ {before}, Inv before s → Inv (before ++ es) s' from hall hs
  clear hs
  induction h with
  | nil =>
    intro before hs
    rwa [List.append_nil]
  | cons hstp _ ih =>
    intro before hs
    rw [List.append_cons]
    exact ih (hstep hs hstp)

/-- An invariant of the state and of all events so far, in a run that puts out nothing. -/
theorem silent (Inv : List E → S → Prop) (hstep : ∀ {es s e s'}, Inv es s → step s e s' [] → Inv (es ++ [e]) s')
    (h : Run step s es s' []) (hs : Inv [] s) : Inv es s' := by
  suffices hall : ∀ {before}, Inv before s → Inv (before ++ es) s' from hall hs
  clear hs
  generalize hnone : ([] : List O) = os at h
  induction h with
  | nil =>
    intro before hs
    rwa [List.append_nil]
  | cons hstp _ ih =>
    intro before hs
    obtain ⟨rfl, rfl⟩ := List.append_eq_nil_iff.mp hnone.symm
    rw [List.append_cons]
    exact ih rfl (hstep hs hstp)

/-- An output of a longer run is one of the run before, or one of the step. -/
theorem append_eq_append_cons {a : O} {os₁ os₂ : List O} (h : os ++ o = os₁ ++ a :: os₂) :
    (∃ r, os = os₁ ++ a :: r ∧ os₂ = r ++ o) ∨ ∃ r, os₁ = os ++ r ∧ o = r ++ a :: os₂ := by
  rcases List.append_eq_append_iff.mp h with ⟨r, hos₁, ho⟩ | ⟨r, hos, hrest⟩
  · exact .inr ⟨r, hos₁, ho⟩
  · cases r with
    | nil => exact .inr ⟨[], by rw [hos, List.append_nil, List.append_nil], hrest.symm⟩
    | cons b r =>
      obtain ⟨rfl, hos₂⟩ := List.cons.inj hrest
      exact .inl ⟨r, hos, hos₂⟩

/-- A step puts out first an output that it does not put out later. -/
theorem append_cons_eq_append_cons {a b : O} {os₁ os₂ : List O} (h : os ++ a :: o = os₁ ++ b :: os₂)
    (hb : b ∉ o) : (∃ r, os = os₁ ++ b :: r ∧ os₂ = r ++ a :: o) ∨ (a = b ∧ os₁ = os ∧ os₂ = o) := by
  rcases append_eq_append_cons h with hbefore | ⟨r, rfl, hr⟩
  · exact .inl hbefore
  · cases r with
    | nil =>
      obtain ⟨rfl, rfl⟩ := List.cons.inj hr
      exact .inr ⟨rfl, List.append_nil os, rfl⟩
    | cons x r =>
      rw [List.cons_append] at hr
      obtain ⟨-, rfl⟩ := List.cons.inj hr
      exact (hb (List.mem_append_right _ List.mem_cons_self)).elim

/-- An invariant of the state and the events still to come: it is kept by
every step, and under it every output is good. -/
theorem outputs (Inv : S → List E → Prop) (Good : O → Prop)
    (hstep : ∀ {s e s' o es}, Inv s (e :: es) → step s e s' o → Inv s' es ∧ ∀ x ∈ o, Good x)
    (h : Run step s es s' os) (hs : Inv s es) : Inv s' [] ∧ ∀ x ∈ os, Good x := by
  induction h with
  | nil => exact ⟨hs, by simp⟩
  | cons hstp _ ih =>
    obtain ⟨hinv, ho⟩ := hstep hs hstp
    obtain ⟨hend, hos⟩ := ih hinv
    refine ⟨hend, fun x hx => ?_⟩
    rcases List.mem_append.mp hx with hx | hx
    · exact ho x hx
    · exact hos x hx

/-- At each of these events this holds, wherever the events before it have led. -/
def Along (step : S → E → S → List O → Prop) (P : S → E → Prop) (s : S) (es : List E) : Prop :=
  ∀ before e after, es = before ++ e :: after → ∀ s' os, Run step s before s' os → P s' e

theorem Along.congr {P Q : S → E → Prop} (h : ∀ s e, P s e ↔ Q s e) : Along step P s es ↔ Along step Q s es :=
  forall₅_congr fun _ _ _ _ _ => forall₂_congr fun _ _ => h _ _

theorem along_nil {P : S → E → Prop} : Along step P s [] := fun before _ _ h =>
  absurd h.symm (List.append_ne_nil_of_right_ne_nil before (List.cons_ne_nil _ _))

theorem along_cons {P : S → E → Prop} :
    Along step P s (e :: es) ↔ P s e ∧ ∀ s' o, step s e s' o → Along step P s' es := by
  constructor
  · refine fun h => ⟨h [] e es rfl s [] .nil, fun s' o hstep before e' after hes s'' os hrun => ?_⟩
    exact h (e :: before) e' after (congrArg (e :: ·) hes) s'' (o ++ os) (.cons hstep hrun)
  · rintro ⟨hfirst, hrest⟩ before e' after hes s' os hrun
    cases before with
    | nil =>
      obtain ⟨rfl, -⟩ := List.cons.inj hes
      cases hrun
      exact hfirst
    | cons _ before =>
      obtain ⟨rfl, rfl⟩ := List.cons.inj hes
      cases hrun with
      | cons hstep hrun => exact hrest _ _ hstep before e' after rfl s' _ hrun

/-! ## Running a step function -/

/-- The run of a step function on these events, if it takes them all. -/
def exec (f : S → E → Option (S × List O)) : S → List E → Option (S × List O)
  | s, [] => some (s, [])
  | s, e :: es => (f s e).bind fun p => (exec f p.1 es).map fun q => (q.1, p.2 ++ q.2)

theorem of_exec {f : S → E → Option (S × List O)} (h : exec f s es = some (s', os)) :
    Run (fun s e s' o => f s e = some (s', o)) s es s' os := by
  induction es generalizing s os with
  | nil =>
    cases h
    exact .nil
  | cons e es ih =>
    simp only [exec, Option.bind_eq_some_iff, Option.map_eq_some_iff] at h
    obtain ⟨⟨t, o⟩, hs, ⟨t', os'⟩, hr, heq⟩ := h
    cases heq
    exact .cons hs (ih hr)

/-- A step function takes all events that it can take under an invariant, and keeps it. -/
theorem exists_exec {f : S → E → Option (S × List O)} {Inv : S → Prop} {Good : E → Prop}
    (hstep : ∀ {s e}, Inv s → Good e → ∃ p, f s e = some p ∧ Inv p.1) (hs : Inv s) (hes : ∀ e ∈ es, Good e) :
    ∃ p, exec f s es = some p ∧ Inv p.1 := by
  induction es generalizing s with
  | nil => exact ⟨(s, []), rfl, hs⟩
  | cons e es ih =>
    obtain ⟨hgood, hrest⟩ := List.forall_mem_cons.mp hes
    obtain ⟨p, hp, hinv⟩ := hstep hs hgood
    obtain ⟨q, hq, hend⟩ := ih hinv hrest
    exact ⟨(q.1, p.2 ++ q.2), by rw [exec, hp, Option.bind_some, hq, Option.map_some], hend⟩

theorem of_exec_guard {f : S → E → Option (S × List O)} {guard : S → E → Prop}
    [∀ s e, Decidable (guard s e)]
    (h : exec (fun s e => if guard s e then f s e else none) s es = some (s', os)) :
    Run (fun s e s' o => f s e = some (s', o) ∧ guard s e) s es s' os := by
  refine (of_exec h).mono fun hs => ?_
  split at hs
  · next hg => exact ⟨hs, hg⟩
  · cases hs

end Run

/-! ## States that are reached -/

section
variable {S E : Type} {step : S → E → Option S} {guard : S → E → S → Prop} {s s' : S}

/-- A step on some event that the guard lets through. -/
def Guarded (step : S → E → Option S) (guard : S → E → S → Prop) (s s' : S) : Prop :=
  ∃ e, step s e = some s' ∧ guard s e s'

theorem Guarded.invariant {Inv : S → Prop} (hstep : ∀ {s e s'},
    Inv s → step s e = some s' → guard s e s' → Inv s')
    (h : Relation.ReflTransGen (Guarded step guard) s s') (hs : Inv s) : Inv s' := by
  induction h with
  | refl => exact hs
  | tail _ hstp ih =>
    obtain ⟨e, hc, hg⟩ := hstp
    exact hstep ih hc hg

/-- The state after these events, if each is possible and let through. -/
def execGuarded (step : S → E → Option S) (guard : S → E → S → Prop) [∀ s e s', Decidable (guard s e s')] :
    S → List E → Option S
  | s, [] => some s
  | s, e :: es => (step s e).bind fun s' => if guard s e s' then execGuarded step guard s' es else none

theorem Guarded.of_exec [∀ s e s', Decidable (guard s e s')] {es : List E}
    (h : execGuarded step guard s es = some s') : Relation.ReflTransGen (Guarded step guard) s s' := by
  induction es generalizing s with
  | nil =>
    cases h
    exact .refl
  | cons e es ih =>
    simp only [execGuarded, Option.bind_eq_some_iff] at h
    obtain ⟨t, hc, h⟩ := h
    split at h
    · next hg => exact .head ⟨e, hc, hg⟩ (ih h)
    · cases h

end

end Lib
