/-
SLIP: messages in a stream of characters, each between two `END`s, with two characters in place of
an `END` or an `ESC` of the message.

The receiver has room for `size` characters of a message and passes over the others. It waits for
an `END` after each message it has given out and after each `ESC` that nothing it knows follows, so
a sender puts at least two before a message.
-/
import Mathlib.Data.List.Induction

namespace Lib.Slip

structure Chars (α : Type) where
  «end» : α
  esc : α
  escEnd : α
  escEsc : α
  esc_ne_end : esc ≠ «end»
  end_ne_escEnd : «end» ≠ escEnd
  end_ne_escEsc : «end» ≠ escEsc
  escEsc_ne_escEnd : escEsc ≠ escEnd

/-- The receiver, with what it has stored of a message. -/
inductive Rx (α : Type)
  | start
  | frame (stored : List α)
  | escaped (stored : List α)

variable {α : Type} [DecidableEq α] (chars : Chars α) (size : Nat)

def escape (c : α) : List α :=
  if c = chars.end then [chars.esc, chars.escEnd]
  else if c = chars.esc then [chars.esc, chars.escEsc]
  else [c]

def body (m : List α) : List α := m.flatMap (escape chars)

/-- What a sender puts out that puts `n` times `END` before a message. -/
def send (n : Nat) (m : List α) : List α := List.replicate n chars.end ++ body chars m ++ [chars.end]

def store (stored : List α) (c : α) : List α := if stored.length < size then stored ++ [c] else stored

/-- The receiver takes a character, and may give out a message. -/
def step : Rx α → α → Rx α × List (List α)
  | .start, c => if c = chars.end then (.frame [], []) else (.start, [])
  | .frame stored, c =>
    if c = chars.end then (if stored = [] then (.frame [], []) else (.start, [stored]))
    else if c = chars.esc then (.escaped stored, [])
    else (.frame (store size stored c), [])
  | .escaped stored, c =>
    if c = chars.escEnd then (.frame (store size stored chars.end), [])
    else if c = chars.escEsc then (.frame (store size stored chars.esc), [])
    else (.start, [])

def run : Rx α → List α → Rx α × List (List α)
  | s, [] => (s, [])
  | s, c :: cs =>
    let r := step chars size s c
    let t := run r.1 cs
    (t.1, r.2 ++ t.2)

/-- What the receiver gives out of a message. -/
def given (m : List α) : List (List α) := if m.take size = [] then [] else [m.take size]

/-- What the receiver gives out at the next `END`. -/
def pending : Rx α → List (List α)
  | .frame stored => if stored = [] then [] else [stored]
  | _ => []

variable {chars size} {s : Rx α} {m : List α} {ms os : List (List α)}

theorem run_append (cs cs' : List α) :
    run chars size s (cs ++ cs') =
      ((run chars size (run chars size s cs).1 cs').1,
        (run chars size s cs).2 ++ (run chars size (run chars size s cs).1 cs').2) := by
  induction cs generalizing s with
  | nil => rfl
  | cons c cs ih =>
    rw [List.cons_append, run, run, ih]
    simp only [List.append_assoc]

theorem run_singleton (c : α) : run chars size s [c] = step chars size s c := by
  rw [run, run, List.append_nil]

/-! ## Messages that are sent -/

omit [DecidableEq α] in
theorem store_take (m : List α) (c : α) : store size (m.take size) c = (m ++ [c]).take size := by
  rw [store, List.take_append, List.length_take]
  split
  · next h =>
    have hlt : m.length < size := by omega
    have hroom : [c].length ≤ size - m.length := Nat.sub_pos_of_lt hlt
    rw [List.take_of_length_le hroom]
  · next h =>
    rw [Nat.sub_eq_zero_of_le (by omega), List.take_zero, List.append_nil]

theorem run_escape (m : List α) (c : α) :
    run chars size (.frame (m.take size)) (escape chars c) = (.frame ((m ++ [c]).take size), []) := by
  unfold escape
  split
  · next hend =>
    simp [run, step, chars.esc_ne_end, store_take, hend]
  · next hend =>
    split
    · next hesc => simp [run, step, chars.esc_ne_end, chars.escEsc_ne_escEnd, store_take, hesc]
    · next hesc => simp [run, step, hend, hesc, store_take]

variable (chars size) in
theorem run_body (m₀ m : List α) :
    run chars size (.frame (m₀.take size)) (body chars m) = (.frame ((m₀ ++ m).take size), []) := by
  induction m generalizing m₀ with
  | nil => rw [List.append_nil]; rfl
  | cons c m ih =>
    rw [body, List.flatMap_cons, run_append, run_escape]
    simp only
    rw [← body, ih, List.append_assoc]
    rfl

/-- Two `END`s bring the receiver to the beginning of a message, wherever it was. -/
theorem run_ends {n : Nat} (hn : 2 ≤ n) :
    run chars size s (List.replicate n chars.end) = (.frame [], pending s) := by
  have hmore : ∀ n, run chars size (.frame []) (List.replicate n chars.end) = (.frame [], []) := by
    intro n
    induction n with
    | zero => rfl
    | succ n ih => rw [List.replicate_succ, run, step, if_pos rfl, if_pos rfl, ih, List.nil_append]
  obtain ⟨n, rfl⟩ := Nat.exists_eq_add_of_le' hn
  rw [List.replicate_succ, List.replicate_succ, run, run]
  cases s with
  | start => simp [step, pending, hmore]
  | frame stored => by_cases hstored : stored = [] <;> simp [step, pending, hmore, hstored]
  | escaped stored => simp [step, pending, hmore, chars.end_ne_escEnd, chars.end_ne_escEsc]

variable (chars size) in
theorem run_send {n : Nat} (hn : 2 ≤ n) (s : Rx α) (m : List α) :
    ∃ s', run chars size s (send chars n m) = (s', pending s ++ given size m) ∧ pending s' = [] := by
  have hbody := run_body chars size [] m
  rw [List.take_nil, List.nil_append] at hbody
  rw [send, List.append_assoc, run_append, run_ends hn, run_append, hbody, run_singleton, step, if_pos rfl, given]
  split
  · exact ⟨.frame [], rfl, rfl⟩
  · exact ⟨.start, rfl, rfl⟩

omit [DecidableEq α] in
theorem length_pending_le (s : Rx α) : (pending s).length ≤ 1 := by
  unfold pending
  split
  · split <;> simp
  · exact Nat.zero_le 1

variable (chars size) in
/-- **Whatever the receiver has taken, it gives out all that is sent from then on**, in order and
after no more than one message, of what it had stored. -/
theorem run_sends {n : Nat} (hn : 2 ≤ n) (s : Rx α) (ms : List (List α)) :
    ∃ left, left <+: pending s ∧
      (run chars size s (ms.flatMap (send chars n))).2 = left ++ ms.flatMap (given size) := by
  have hclean : ∀ (ms : List (List α)) (s : Rx α), pending s = [] →
      (run chars size s (ms.flatMap (send chars n))).2 = ms.flatMap (given size) := by
    intro ms
    induction ms with
    | nil => exact fun s _ => rfl
    | cons m ms ih =>
      intro s hs
      obtain ⟨s', hsend, hs'⟩ := run_send chars size hn s m
      rw [List.flatMap_cons, run_append, hsend, ih s' hs', hs]
      rfl
  cases ms with
  | nil => exact ⟨[], List.nil_prefix, rfl⟩
  | cons m ms =>
    obtain ⟨s', hsend, hs'⟩ := run_send chars size hn s m
    refine ⟨pending s, List.prefix_rfl, ?_⟩
    rw [List.flatMap_cons, run_append, hsend, hclean ms s' hs', List.append_assoc]
    rfl

/-! ## Messages that are given out -/

/-- Messages can be read off a stream, each between two `END`s of its own. -/
inductive Carries (chars : Chars α) : List α → List (List α) → Prop
  | nil : Carries chars [] []
  | skip {cs : List α} {ms : List (List α)} (c : α) : Carries chars cs ms → Carries chars (cs ++ [c]) ms
  | message {cs : List α} {ms : List (List α)} (m : List α) :
      Carries chars cs ms → Carries chars (cs ++ (chars.end :: body chars m ++ [chars.end])) (ms ++ [m])

theorem Carries.skips {cs : List α} (h : Carries chars cs ms) (cs' : List α) : Carries chars (cs ++ cs') ms := by
  induction cs' generalizing cs with
  | nil => rwa [List.append_nil]
  | cons c cs' ih =>
    rw [List.append_cons]
    exact ih (h.skip c)

/-- Where the receiver is in a stream that carries `ms` so far. -/
def At (chars : Chars α) (size : Nat) (ms : List (List α)) (cs : List α) : Rx α → Prop
  | .start => Carries chars cs ms
  | .frame stored => ∃ before m, Carries chars before ms ∧ cs = before ++ chars.end :: body chars m ∧
      stored = m.take size
  | .escaped stored => ∃ before m, Carries chars before ms ∧
      cs = before ++ (chars.end :: body chars m ++ [chars.esc]) ∧ stored = m.take size

theorem At.carries {cs : List α} (h : At chars size ms cs s) : Carries chars cs ms := by
  cases s with
  | start => exact h
  | frame stored =>
    obtain ⟨before, m, hbefore, rfl, -⟩ := h
    exact hbefore.skips _
  | escaped stored =>
    obtain ⟨before, m, hbefore, rfl, -⟩ := h
    exact hbefore.skips _

theorem body_append (m m' : List α) : body chars (m ++ m') = body chars m ++ body chars m' := List.flatMap_append

theorem body_singleton (c : α) : body chars [c] = escape chars c := List.flatMap_singleton ..

theorem At.step {cs : List α} (h : At chars size ms cs s) (c : α) :
    ∃ ms', (step chars size s c).2 = ms'.map (List.take size) ∧
      At chars size (ms ++ ms') (cs ++ [c]) (step chars size s c).1 := by
  have hopen : c = chars.end → At chars size (ms ++ []) (cs ++ [c]) (.frame []) := by
    rintro rfl
    exact ⟨cs, [], (List.append_nil ms).symm ▸ h.carries, rfl, List.take_nil.symm⟩
  have hskip : At chars size (ms ++ []) (cs ++ [c]) .start := (List.append_nil ms).symm ▸ h.carries.skip c
  cases s with
  | start =>
    rw [Slip.step]
    split
    · next hc => exact ⟨[], rfl, hopen hc⟩
    · exact ⟨[], rfl, hskip⟩
  | frame stored =>
    obtain ⟨before, m, hbefore, hcs, hstored⟩ := id h
    have hgo : escape chars c = [c] → At chars size (ms ++ []) (cs ++ [c]) (.frame (store size stored c)) := by
      intro hc
      refine ⟨before, m ++ [c], (List.append_nil ms).symm ▸ hbefore, ?_, by rw [hstored, store_take]⟩
      rw [hcs, body_append, body_singleton, hc, List.append_assoc, List.cons_append]
    rw [Slip.step]
    split
    · next hc =>
      subst hc
      split
      · exact ⟨[], rfl, hopen rfl⟩
      · refine ⟨[m], by rw [hstored]; rfl, ?_⟩
        rw [hcs, List.append_assoc, List.cons_append]
        exact hbefore.message m
    · next hend =>
      split
      · next hc =>
        subst hc
        refine ⟨[], rfl, before, m, (List.append_nil ms).symm ▸ hbefore, ?_, hstored⟩
        rw [hcs, List.append_assoc]
      · next hesc => exact ⟨[], rfl, hgo (by rw [escape, if_neg hend, if_neg hesc])⟩
  | escaped stored =>
    obtain ⟨before, m, hbefore, hcs, hstored⟩ := id h
    have hgo : ∀ d, escape chars d = [chars.esc, c] →
        At chars size (ms ++ []) (cs ++ [c]) (.frame (store size stored d)) := by
      intro d hd
      refine ⟨before, m ++ [d], (List.append_nil ms).symm ▸ hbefore, ?_, by rw [hstored, store_take]⟩
      rw [hcs, body_append, body_singleton, hd]
      simp
    rw [Slip.step]
    split
    · next hc => exact ⟨[], rfl, hgo _ (by rw [escape, if_pos rfl, hc])⟩
    · split
      · next hc => exact ⟨[], rfl, hgo _ (by rw [escape, if_neg chars.esc_ne_end, if_pos rfl, hc])⟩
      · exact ⟨[], rfl, hskip⟩

theorem At.run {cs : List α} (h : At chars size ms cs s) (cs' : List α) :
    ∃ ms', (run chars size s cs').2 = ms'.map (List.take size) ∧
      At chars size (ms ++ ms') (cs ++ cs') (run chars size s cs').1 := by
  induction cs' generalizing cs ms s with
  | nil => exact ⟨[], rfl, by rwa [List.append_nil, List.append_nil]⟩
  | cons c cs' ih =>
    obtain ⟨ms₁, hout, hat⟩ := h.step c
    obtain ⟨ms₂, hout', hat'⟩ := ih hat
    refine ⟨ms₁ ++ ms₂, ?_, ?_⟩
    · rw [Slip.run, hout, hout', List.map_append]
    · rwa [List.append_assoc, List.append_assoc] at hat'

variable (chars size) in
/-- **No message is made up**: those given out are the beginnings of messages that the stream carries. -/
theorem run_carries (cs : List α) :
    ∃ ms, Carries chars cs ms ∧ (run chars size .start cs).2 = ms.map (List.take size) := by
  have hstart : At chars size [] [] .start := Carries.nil
  obtain ⟨ms, hout, hat⟩ := hstart.run cs
  exact ⟨ms, hat.carries, hout⟩

end Lib.Slip
