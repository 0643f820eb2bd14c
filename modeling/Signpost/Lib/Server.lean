/-
A server that takes jobs one at a time, and is not idle while one waits. Which
of those that wait is next is left open.

The jobs that have been taken and those that wait are together all that were
submitted, which is what each step keeps.
-/
import Mathlib.Data.List.Perm.Basic

namespace Lib

structure Server (J : Type) where
  served : List J
  /-- The job that is being served, and those that wait. -/
  serving : Option (J × List J)

namespace Server

variable {J : Type}

def empty : Server J := ⟨[], none⟩

/-- The jobs that are not served yet. -/
def outstanding (t : Server J) : List J := t.serving.elim [] fun p => p.1 :: p.2

def jobs (t : Server J) : List J := t.served ++ t.outstanding

def submit (t : Server J) (j : J) : Server J where
  served := t.served
  serving := some (t.serving.elim (j, []) fun p => (p.1, j :: p.2))

/-- The job is served, and another one that waits is next, if there is one. -/
inductive Finish : Server J → J → Server J → Prop
  | idle {served j} : Finish ⟨served, some (j, [])⟩ j ⟨served ++ [j], none⟩
  | next {served j ws ws' k} : Finish ⟨served, some (j, ws ++ k :: ws')⟩ j ⟨served ++ [j], some (k, ws ++ ws')⟩

variable {t t' : Server J} {j : J}

theorem outstanding_submit : (t.submit j).outstanding.Perm (j :: t.outstanding) := by
  obtain ⟨served, serving⟩ := t
  cases serving with
  | none => exact .refl _
  | some p => exact .swap j p.1 p.2

theorem jobs_submit : (t.submit j).jobs.Perm (t.jobs ++ [j]) := by
  refine (outstanding_submit.append_left t.served).trans ?_
  rw [jobs, List.append_assoc]
  exact (List.perm_append_singleton j t.outstanding).symm.append_left t.served

theorem Finish.jobs (h : Finish t j t') : t'.jobs.Perm t.jobs := by
  cases h with
  | idle => exact .of_eq (List.append_nil _)
  | @next served j ws ws' k =>
    simp only [Server.jobs, outstanding, Option.elim_some, List.append_assoc, List.singleton_append]
    exact (List.perm_middle.symm.cons j).append_left served

end Server

end Lib
