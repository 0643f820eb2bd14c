/-
A machine that works in memory that is lost with the power, and saves it in memory that is not,
after some of its operations. When the power comes back it goes on from what was saved.

What it did after it last saved, and before the power failed, is as if it had not been done.

The state after a start is a function of the state at the last save, so an invariant of the machine
is one of every run with failures if the start keeps it.
-/
import Mathlib.Data.List.Basic

namespace Lib.Recovery

/-- `V` is lost with the power, `S` is not, and `B` is what the machine finds when it starts. -/
structure Machine (V S E B : Type) where
  step : V → E → Option V
  saving : E → Bool
  save : S → V → S
  restore : S → B → V × S

inductive Event (E B : Type)
  | op (e : E)
  | powerCycle (b : B)

variable {V S E B : Type} (m : Machine V S E B)

def next : V × S → Event E B → Option (V × S)
  | (v, s), .op e => (m.step v e).map fun v => (v, if m.saving e then m.save s v else s)
  | (_, s), .powerCycle b => some (m.restore s b)

def exec : V × S → List (Event E B) → Option (V × S)
  | x, [] => some x
  | x, e :: es => (next m x e).bind fun x => exec x es

variable {m} {x x' : V × S} {es : List (Event E B)}

theorem exec_append (es es' : List (Event E B)) : exec m x (es ++ es') = (exec m x es).bind fun y => exec m y es' := by
  induction es generalizing x with
  | nil => rfl
  | cons e es ih =>
    rw [List.cons_append, exec, exec, Option.bind_assoc]
    exact congrArg _ (funext fun _ => ih)

theorem exec_unsaved (hes : ∀ e ∈ es, ∃ o, e = .op o ∧ m.saving o = false) (h : exec m x es = some x') :
    x'.2 = x.2 := by
  induction es generalizing x with
  | nil =>
    cases h
    rfl
  | cons e es ih =>
    obtain ⟨⟨o, rfl, ho⟩, hrestUnsaved⟩ := List.forall_mem_cons.mp hes
    obtain ⟨y, hy, hrest⟩ := Option.bind_eq_some_iff.mp h
    obtain ⟨v, -, rfl⟩ := Option.map_eq_some_iff.mp hy
    rw [ih hrestUnsaved hrest, ho]
    rfl

/-- What operations, saving and starting keep holds in every state. -/
theorem invariant {P : V → S → Prop} (Good : Event E B → Prop)
    (hstep : ∀ {v s e v'}, P v s → Good (.op e) → m.step v e = some v' → P v' s)
    (hsave : ∀ {v s}, P v s → P v (m.save s v))
    (hrestore : ∀ {v s b}, P v s → Good (.powerCycle b) → P (m.restore s b).1 (m.restore s b).2)
    (h : exec m x es = some x') (hx : P x.1 x.2) (hgood : ∀ e ∈ es, Good e) : P x'.1 x'.2 := by
  induction es generalizing x with
  | nil =>
    cases h
    exact hx
  | cons e es ih =>
    obtain ⟨y, hy, hrest⟩ := Option.bind_eq_some_iff.mp h
    obtain ⟨he, hes⟩ := List.forall_mem_cons.mp hgood
    refine ih hrest ?_ hes
    obtain ⟨v, s⟩ := x
    cases e with
    | op e =>
      obtain ⟨v', hv', rfl⟩ := Option.map_eq_some_iff.mp hy
      have hkeep := hstep hx he hv'
      simp only
      split
      · exact hsave hkeep
      · exact hkeep
    | powerCycle b =>
      cases hy
      exact hrestore hx he

/-! ## What is noted of a run -/

section
variable {H : Type}

/-- The machine with notes that are saved and lost with what they are about. -/
def noting (m : Machine V S E B) (onStep : E → V → H → H) (onRestore : S → B → H → H) :
    Machine (V × H) (S × H) E B where
  step x e := (m.step x.1 e).map fun v => (v, onStep e v x.2)
  saving := m.saving
  save y x := (m.save y.1 x.1, x.2)
  restore y b := (((m.restore y.1 b).1, onRestore y.1 b y.2), ((m.restore y.1 b).2, onRestore y.1 b y.2))

theorem exec_noting (onStep : E → V → H → H) (onRestore : S → B → H → H) (h hs : H)
    (hrun : exec m x es = some x') :
    ∃ h' hs', exec (noting m onStep onRestore) ((x.1, h), (x.2, hs)) es = some ((x'.1, h'), (x'.2, hs')) := by
  induction es generalizing x h hs with
  | nil =>
    cases hrun
    exact ⟨h, hs, rfl⟩
  | cons e es ih =>
    obtain ⟨y, hy, hrest⟩ := Option.bind_eq_some_iff.mp hrun
    cases e with
    | powerCycle b =>
      cases hy
      exact ih _ _ hrest
    | op e =>
      obtain ⟨v, hv, rfl⟩ := Option.map_eq_some_iff.mp hy
      obtain ⟨h', hs', hnoted⟩ := ih (onStep e v h) (if m.saving e then onStep e v h else hs) hrest
      refine ⟨h', hs', Option.bind_eq_some_iff.mpr ⟨_, Option.map_eq_some_iff.mpr ⟨(v, onStep e v h), ?_, rfl⟩, ?_⟩⟩
      · simp only [noting, hv, Option.map_some]
      · rw [← hnoted]
        cases hsaving : m.saving e <;> simp only [noting, hsaving] <;> rfl

end

end Lib.Recovery
