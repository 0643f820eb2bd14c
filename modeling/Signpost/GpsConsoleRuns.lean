/-
Runs of the console driver: each event keeps the accounts of its writes, if it
loses none, and the UART comes to an end of what there is to transmit.

Where no app writes again before it is signalled and nothing else is
transmitted, every write is served. Bytes of `putc` in between can make the
driver lose one, and the guard of the second result says when they do not.
-/
import Signpost.GpsConsoleWrites

namespace Signpost

open Lib

namespace GpsConsole

section
variable {ι κ : Type} [DecidableEq ι] {s s' : Console ι κ} {i j : ι} {app : App κ} {w : Write ι κ}
  {ws : List (Write ι κ)} {unsent : Bytes} {buffer : Mem UInt8}

/-! ## The events -/

theorem Holds.put_allow {slice : Option Bytes} (hkept : Kept s (.allow i slice)) (h : Holds (s.apps j) w unsent) :
    Holds ((s.put i { s.apps i with writeBuffer := slice }).apps j) w unsent := by
  by_cases hj : j = i
  · subst hj
    rw [Console.put_apps]
    exact h.allow hkept
  · rwa [Console.put_apps_of_ne hj]

theorem Waiting.allow {slice : Option Bytes} (h : Waiting s ws) (hkept : Kept s (.allow i slice)) :
    Waiting (s.put i { s.apps i with writeBuffer := slice }) ws := by
  have hfields : ∀ j, ((s.put i { s.apps i with writeBuffer := slice }).apps j).pendingWrite =
      (s.apps j).pendingWrite ∧ ((s.put i { s.apps i with writeBuffer := slice }).apps j).writeRemaining =
      (s.apps j).writeRemaining := fun j => by
    by_cases hj : j = i
    · rw [hj, Console.put_apps]
      exact ⟨rfl, rfl⟩
    · rw [Console.put_apps_of_ne hj]
      exact ⟨rfl, rfl⟩
  refine ⟨h.nonempty, fun w hw => ?_, fun w hw => ?_, fun j hj => ?_, fun j hj hpending => ?_⟩
  · rw [(hfields _).1]
    exact h.pending w hw
  · exact Holds.put_allow hkept (h.holds w hw)
  · rw [(hfields j).1] at hj
    exact h.only j hj
  · rw [(hfields j).1] at hpending
    rw [(hfields j).2]
    exact h.done j hj hpending

theorem Invariant.allow {os : List (Action ι κ)} {slice : Option Bytes} (h : Invariant os s)
    (hkept : Kept s (.allow i slice)) : Invariant os (s.put i { s.apps i with writeBuffer := slice }) := by
  obtain ⟨t, sent, hsim, hacc⟩ := h
  refine ⟨t, sent, ?_, hacc⟩
  cases hsim with
  | idle h => exact .idle ⟨h.inProgress, h.buffer, h.waiting.allow hkept⟩
  | serving h =>
    exact .serving ⟨h.inProgress, h.txBuffer, h.transmitting, h.data, h.whole, Holds.put_allow hkept h.holds,
      h.waiting.allow hkept, h.apart⟩

omit [DecidableEq ι] in
theorem Waiting.app_ne (h : Waiting s ws) (hpending : (s.apps i).pendingWrite = false) : ∀ w ∈ ws, w.app ≠ i := by
  rintro w hw rfl
  rw [h.pending w hw] at hpending
  cases hpending

theorem Waiting.pend {slice : Bytes} (callback : Option κ) (h : Waiting s ws) (hslice : slice ≠ [])
    (hpending : (s.apps i).pendingWrite = false) : Waiting (s.put i { s.apps i with
      writeBuffer := some slice, writeLen := slice.length, writeRemaining := slice.length,
      writeCallback := callback, pendingWrite := true }) (⟨i, slice, callback⟩ :: ws) := by
  have hne := h.app_ne hpending
  constructor
  case nonempty => exact List.forall_mem_cons.mpr ⟨hslice, h.nonempty⟩
  case pending =>
    refine List.forall_mem_cons.mpr ⟨by rw [Console.put_apps], fun w hw => ?_⟩
    rw [Console.put_apps_of_ne (hne w hw)]
    exact h.pending w hw
  case holds =>
    refine List.forall_mem_cons.mpr ⟨?_, fun w hw => ?_⟩
    · rw [Console.put_apps]
      exact ⟨rfl, rfl, rfl, fun _ => ⟨slice, rfl, List.suffix_rfl⟩⟩
    · rw [Console.put_apps_of_ne (hne w hw)]
      exact h.holds w hw
  case only =>
    intro j hj
    by_cases hji : j = i
    · exact ⟨_, List.mem_cons_self, hji.symm⟩
    · rw [Console.put_apps_of_ne hji] at hj
      obtain ⟨w, hw, rfl⟩ := h.only j hj
      exact ⟨w, List.mem_cons_of_mem _ hw, rfl⟩
  case done =>
    intro j hj hjp
    by_cases hji : j = i
    · rw [hji, Console.put_apps] at hjp
      cases hjp
    · rw [Console.put_apps_of_ne hji] at hjp ⊢
      exact h.done j hj hjp

theorem Serving.sendNew {slice : Bytes} (callback : Option κ) {w' : Write ι κ} {sent' : Bytes}
    (h : Serving s w' ws sent' unsent) (hbuffer : (s.apps i).writeBuffer = some slice) (hslice : slice ≠ [])
    (hprogress : s.inProgress ≠ some i) (hpending : (s.apps i).pendingWrite = false) :
    ∃ s', s.sendNew i callback = some (s', [.accepted ⟨i, slice, callback⟩]) ∧
      Serving s' w' (⟨i, slice, callback⟩ :: ws) sent' unsent := by
  have hi : i ≠ w'.app := by
    rintro rfl
    exact hprogress h.inProgress
  refine ⟨s.put i { s.apps i with
      writeBuffer := some slice, writeLen := slice.length, writeRemaining := slice.length,
      writeCallback := callback, pendingWrite := true }, ?_,
    h.inProgress, h.txBuffer, h.transmitting, h.data, h.whole, ?_, h.waiting.pend callback hslice hpending, ?_⟩
  · simp only [Console.sendNew, hbuffer, Console.send, Console.put_inProgress, h.inProgress, Option.isNone_some,
      Bool.false_eq_true, if_false, Option.map_some, Console.put_apps, Console.put_put]
  · rw [Console.put_apps_of_ne hi.symm]
    exact h.holds
  · rw [List.map_cons, List.map_cons, List.nodup_cons, List.nodup_cons]
    have hapart := List.nodup_cons.mp h.apart
    refine ⟨fun hmem => ?_, fun hmem => ?_, hapart.2⟩
    · rcases List.mem_cons.mp hmem with heq | hmem
      · exact hi heq.symm
      · exact hapart.1 hmem
    · obtain ⟨w, hw, heq⟩ := List.mem_map.mp hmem
      exact h.waiting.app_ne hpending w hw heq

theorem Idle.waiting_start (h : Idle s) (hpending : app.pendingWrite = (s.apps i).pendingWrite) :
    Waiting (s.start i app buffer) [] :=
  h.waiting.start (by simp) (fun j hj => by rw [h.inProgress] at hj; cases hj) (hpending.trans h.not_pending)

theorem Idle.sendNew_empty (callback : Option κ) (h : Idle s) (hbuffer : s.txBuffer = none)
    (hslice : (s.apps i).writeBuffer = some []) :
    ∃ s', s.sendNew i callback = some (s', [.accepted ⟨i, [], callback⟩]) ∧
      Serving s' ⟨i, [], callback⟩ [] [] [] := by
  have htransmitting : s.transmitting.isSome = true := by
    rw [← h.buffer, hbuffer]
    rfl
  let app : App κ :=
    { s.apps i with writeBuffer := none, writeLen := 0, writeRemaining := 0, writeCallback := callback }
  have hwaiting : Waiting (s.start i app fun _ => 0) [] := h.waiting_start rfl
  refine ⟨{ s.put i app with inProgress := some i, txBuffer := none }, ?_, rfl, rfl, htransmitting, rfl,
    fun hne => absurd rfl hne, ?_,
    ⟨hwaiting.nonempty, hwaiting.pending, hwaiting.holds, hwaiting.only, hwaiting.done⟩,
      List.nodup_cons.mpr (by simp)⟩
  · simp only [Console.sendNew, hslice, Console.send, Console.put_inProgress, h.inProgress, Option.isNone_none,
      if_true, Console.put_txBuffer, hbuffer, Option.map_some, List.length_nil]
    rfl
  · rw [Console.put_apps]
    exact ⟨rfl, rfl, rfl, fun hne => absurd rfl hne⟩

theorem Idle.sendNew {slice : Bytes} (callback : Option κ) (h : Idle s) (hbuffer : s.txBuffer = some buffer)
    (hslice : (s.apps i).writeBuffer = some slice) :
    ∃ s', s.sendNew i callback =
        some (s', [.accepted ⟨i, slice, callback⟩, .transmit (some i) (slice.take writeBufLen)]) ∧
      Serving s' ⟨i, slice, callback⟩ [] (slice.take writeBufLen) (slice.drop writeBufLen) := by
  obtain ⟨app, buffer', hsend, hpending, hholds⟩ := Console.send_start (w := ⟨i, slice, callback⟩) (i := i)
    (s := s.put i { s.apps i with
      writeBuffer := none, writeLen := slice.length, writeRemaining := slice.length, writeCallback := callback })
    h.inProgress hbuffer (by rw [Console.put_apps]) (by rw [Console.put_apps]) (by rw [Console.put_apps])
    List.suffix_rfl
  rw [Console.put_apps] at hpending
  refine ⟨s.start i app buffer', ?_, .start (List.take_append_drop ..).symm
    (fun hrest => dvd_sent [] (Nat.dvd_zero _) hrest) hholds (h.waiting_start hpending)
    (List.nodup_cons.mpr (by simp))⟩
  rw [Console.sendNew, hslice]
  simp only [hsend, Option.map_some, Console.start, Console.put_put]

theorem Invariant.subscribe {os o : List (Action ι κ)} {callback : Option κ} (h : Invariant os s)
    (hkept : Kept s (.subscribe i callback)) (hstep : s.sendNew i callback = some (s', o)) :
    Invariant (os ++ o) s' := by
  obtain ⟨t, sent, hsim, hacc⟩ := h
  cases hslice : (s.apps i).writeBuffer with
  | none =>
    rw [Console.sendNew, hslice] at hstep
    cases hstep
    rw [List.append_nil]
    exact ⟨t, sent, hsim, hacc⟩
  | some slice =>
    obtain ⟨hi, hpending, hempty, hfree⟩ := hkept slice hslice
    cases hsim with
    | @idle served h =>
      cases hbuffer : s.txBuffer with
      | none =>
        have hnil : slice = [] := by
          by_contra hne
          have := hfree hne h.inProgress
          rw [hbuffer] at this
          cases this
        rw [hnil] at hslice
        obtain ⟨s₁, hsend, hserving⟩ := h.sendNew_empty callback hbuffer hslice
        rw [hsend] at hstep
        obtain ⟨rfl, rfl⟩ := Prod.mk.inj (Option.some.inj hstep)
        exact ⟨_, _, .serving hserving, hacc.accept fun _ => rfl⟩
      | some buffer =>
        obtain ⟨s₁, hsend, hserving⟩ := h.sendNew callback hbuffer hslice
        rw [hsend] at hstep
        obtain ⟨rfl, rfl⟩ := Prod.mk.inj (Option.some.inj hstep)
        have hacc' := hacc.accept (w := ⟨i, slice, callback⟩) fun _ => rfl
        refine ⟨⟨served, some (⟨i, slice, callback⟩, [])⟩, _, .serving hserving, ?_⟩
        rw [List.append_cons]
        exact hacc'.transmit rfl (Nat.dvd_zero _)
    | @serving served w ws sent unsent h =>
      have hne : slice ≠ [] := fun hnil => by
        have hnone := hempty hnil
        rw [h.inProgress] at hnone
        cases hnone
      obtain ⟨s₁, hsend, hserving⟩ := h.sendNew callback hslice hne hi hpending
      rw [hsend] at hstep
      obtain ⟨rfl, rfl⟩ := Prod.mk.inj (Option.some.inj hstep)
      exact ⟨_, _, .serving hserving, hacc.accept fun hnone => by cases hnone⟩

theorem Invariant.transmitComplete {os o : List (Action ι κ)} {order : List ι} (horder : ∀ i, i ∈ order)
    (h : Invariant os s) (hstep : s.transmitComplete order = some (s', o)) : Invariant (os ++ o) s' := by
  obtain ⟨t, sent, hsim, hacc⟩ := h
  cases hsim with
  | idle h =>
    cases htransmitting : s.transmitting with
    | none =>
      rw [Console.transmitComplete, htransmitting] at hstep
      cases hstep
    | some buffer =>
      obtain ⟨s₁, hcomplete, hidle, -⟩ := h.complete order htransmitting
      rw [hcomplete] at hstep
      obtain ⟨rfl, rfl⟩ := Prod.mk.inj (Option.some.inj hstep)
      rw [List.append_nil]
      exact ⟨_, _, .idle hidle, hacc⟩
  | @serving served w ws sent unsent h =>
    by_cases hunsent : unsent = []
    · subst hunsent
      obtain rfl : w.data = sent := h.data.trans (List.append_nil _)
      by_cases hws : ws = []
      · subst hws
        obtain ⟨s₁, hcomplete, hidle, -⟩ := h.complete_last order
        rw [hcomplete] at hstep
        obtain ⟨rfl, rfl⟩ := Prod.mk.inj (Option.some.inj hstep)
        exact ⟨_, _, .idle hidle, hacc.finish .idle⟩
      · obtain ⟨s₁, ws₁, w', ws₂, rfl, hcomplete, hserving⟩ := h.complete_next hws horder
        rw [hcomplete] at hstep
        obtain ⟨rfl, rfl⟩ := Prod.mk.inj (Option.some.inj hstep)
        refine ⟨⟨served ++ [w], some (w', ws₁ ++ ws₂)⟩, _, .serving hserving, ?_⟩
        rw [← List.append_assoc]
        exact (hacc.finish .next).transmit rfl (Nat.dvd_zero _)
    · obtain ⟨s₁, hcomplete, hserving⟩ := h.complete_more order hunsent
      rw [hcomplete] at hstep
      obtain ⟨rfl, rfl⟩ := Prod.mk.inj (Option.some.inj hstep)
      exact ⟨_, _, .serving hserving, hacc.transmit h.data (h.whole hunsent)⟩

theorem Invariant.putc {os o : List (Action ι κ)} {arg : UInt8} {order : List ι} (h : Invariant os s)
    (hstep : s.step order (.putc arg) = some (s', o)) : Invariant (os ++ o) s' := by
  cases hbuffer : s.txBuffer with
  | none =>
    simp only [Console.step, hbuffer] at hstep
    cases hstep
    rwa [List.append_nil]
  | some buffer =>
    simp only [Console.step, hbuffer] at hstep
    cases hstep
    obtain ⟨t, sent, hsim, hacc⟩ := h
    cases hsim with
    | idle h =>
      have hwaiting := h.waiting
      exact ⟨_, _, .idle ⟨h.inProgress, rfl,
        hwaiting.nonempty, hwaiting.pending, hwaiting.holds, hwaiting.only, hwaiting.done⟩, hacc.byte⟩
    | serving h =>
      rw [h.txBuffer] at hbuffer
      cases hbuffer

theorem Invariant.step {os o : List (Action ι κ)} {order : List ι} {e : Event ι κ} (horder : ∀ i, i ∈ order)
    (h : Invariant os s) (hkept : Kept s e) (hstep : s.step order e = some (s', o)) : Invariant (os ++ o) s' := by
  cases e with
  | allow i slice =>
    cases hstep
    rw [List.append_nil]
    exact h.allow hkept
  | subscribe i callback => exact h.subscribe hkept hstep
  | putc arg => exact h.putc hstep
  | transmitComplete => exact h.transmitComplete horder hstep

omit [DecidableEq ι] in
theorem Invariant.boot : Invariant [] (Console.boot : Console ι κ) := by
  refine ⟨.empty, [], .idle ⟨rfl, rfl, ?_⟩, .nil⟩
  exact ⟨by simp, by simp, by simp, fun i hi => (Bool.noConfusion hi :), fun i _ _ => rfl⟩

/-! ## Until nothing is transmitted -/

/-- The UART completes what it transmits until nothing is left. -/
def Drains (order : List ι) (s : Console ι κ) : Prop :=
  ∃ n s' os, Run (fun s e s' o => s.step order e = some (s', o)) s (List.replicate n .transmitComplete) s' os ∧
    s'.transmitting = none

theorem Drains.of_none {order : List ι} (h : s.transmitting = none) : Drains order s := ⟨0, s, [], .nil, h⟩

theorem Drains.cons {os : List (Action ι κ)} {order : List ι} (hstep : s.transmitComplete order = some (s', os))
    (h : Drains order s') : Drains order s := by
  obtain ⟨n, s'', os', hrun, hnone⟩ := h
  refine ⟨n + 1, s'', os ++ os', ?_, hnone⟩
  rw [List.replicate_succ]
  exact .cons hstep hrun

theorem Serving.drains {order : List ι} (horder : ∀ i, i ∈ order) {sent : Bytes}
    (h : Serving s w ws sent unsent) : Drains order s := by
  generalize hwork : unsent.length + (ws.map fun w => w.data.length + 1).sum = k
  induction k using Nat.strongRecOn generalizing s w ws sent unsent with
  | ind k ih =>
    by_cases hunsent : unsent = []
    · subst hunsent
      by_cases hws : ws = []
      · subst hws
        obtain ⟨s₁, hcomplete, -, hnone⟩ := h.complete_last order
        exact .cons hcomplete (.of_none hnone)
      · obtain ⟨s₁, ws₁, w', ws₂, rfl, hcomplete, hserving⟩ := h.complete_next hws horder
        refine .cons hcomplete (ih _ ?_ hserving rfl)
        rw [← hwork, List.length_drop]
        simp only [List.map_append, List.map_cons, List.sum_append, List.sum_cons, List.length_nil]
        omega
    · obtain ⟨s₁, hcomplete, hserving⟩ := h.complete_more order hunsent
      refine .cons hcomplete (ih _ ?_ hserving rfl)
      have hpos := List.length_pos_iff.mpr hunsent
      have hlen : 0 < writeBufLen := by decide
      rw [← hwork, List.length_drop]
      omega

theorem Simulates.drains {order : List ι} {t : Server (Write ι κ)} {sent : Bytes} (horder : ∀ i, i ∈ order)
    (h : Simulates s t sent) : Drains order s := by
  cases h with
  | idle h =>
    cases htransmitting : s.transmitting with
    | none => exact .of_none htransmitting
    | some buffer =>
      obtain ⟨s₁, hcomplete, -, hnone⟩ := h.complete order htransmitting
      exact .cons hcomplete (.of_none hnone)
  | serving h => exact h.drains horder

omit [DecidableEq ι] in
theorem Simulates.serving_none {t : Server (Write ι κ)} {sent : Bytes} (h : Simulates s t sent)
    (hnone : s.transmitting = none) : t.serving = none ∧ ∀ i, (s.apps i).pendingWrite = false := by
  cases h with
  | idle h => exact ⟨rfl, fun i => h.not_pending⟩
  | serving h =>
    have htransmitting := h.transmitting
    rw [hnone] at htransmitting
    cases htransmitting

/-! ## One write an app, and nothing else -/

/-- Nothing is transmitted but the bytes of writes. -/
def Own (s : Console ι κ) (os : List (Action ι κ)) : Prop :=
  (s.inProgress = none → s.transmitting = none) ∧ transmits os = written os

section
variable {o : List (Action ι κ)} {order : List ι} {more : Continued}

omit [DecidableEq ι] in
theorem Own.of_inProgress (h : s.inProgress = some i) (ho : transmits o = written o) : Own s o :=
  ⟨fun hnone => (Option.some_ne_none i (h.symm.trans hnone)).elim, ho⟩

omit [DecidableEq ι] in
theorem Own.append (os : List (Action ι κ)) (h : transmits os = written os) (ho : Own s o) : Own s (os ++ o) :=
  ⟨ho.1, by rw [transmits_append, written_append, h, ho.2]⟩

theorem Console.send_own {slice : Bytes} (h : s.inProgress = none → s.transmitting = none)
    (hsend : s.send i slice = some (s', o)) : Own s' o := by
  simp only [Console.send] at hsend
  split at hsend
  · split at hsend
    · split at hsend
      · cases hsend
      · obtain ⟨rfl, rfl⟩ := Prod.mk.inj (Option.some.inj hsend)
        exact .of_inProgress rfl transmits_own
    · obtain ⟨rfl, rfl⟩ := Prod.mk.inj (Option.some.inj hsend)
      exact .of_inProgress rfl rfl
  · obtain ⟨rfl, rfl⟩ := Prod.mk.inj (Option.some.inj hsend)
    exact ⟨h, rfl⟩

theorem Console.sendNew_own {callback : Option κ} (h : s.inProgress = none → s.transmitting = none)
    (hsend : s.sendNew i callback = some (s', o)) : Own s' o := by
  simp only [Console.sendNew] at hsend
  split at hsend
  · obtain ⟨⟨s₁, o₁⟩, hsent, heq⟩ := Option.map_eq_some_iff.mp hsend
    obtain ⟨rfl, rfl⟩ := Prod.mk.inj heq
    exact Own.append [.accepted _] rfl (Console.send_own (s := s.put i _) h hsent)
  · obtain ⟨rfl, rfl⟩ := Prod.mk.inj (Option.some.inj hsend)
    exact ⟨h, rfl⟩

theorem Console.sendContinue_own (h : s.inProgress = none → s.transmitting = none)
    (hsend : s.sendContinue i = some (s', o, more)) : Own s' o := by
  simp only [Console.sendContinue] at hsend
  split at hsend
  · split at hsend
    · obtain ⟨⟨s₁, o₁⟩, hsent, heq⟩ := Option.map_eq_some_iff.mp hsend
      obtain ⟨rfl, rfl, -⟩ : s₁ = s' ∧ o₁ = o ∧ _ := by simpa using heq
      exact Console.send_own (s := s.put i _) h hsent
    · obtain ⟨rfl, rfl, -⟩ : s = s' ∧ [] = o ∧ _ := by simpa using hsend
      exact ⟨h, rfl⟩
  · obtain ⟨rfl, rfl, -⟩ : s = s' ∧ [] = o ∧ _ := by simpa using hsend
    exact ⟨h, rfl⟩

theorem Own.append_schedule (h : Own s o) (i : ι) (app : App κ) (written : Nat) :
    Own (s.put i app) (o ++ s.schedule i written) := by
  refine ⟨h.1, ?_⟩
  rw [transmits_append, written_append, h.2, Console.schedule]
  cases (s.apps i).writeCallback <;> rfl

theorem Console.proceed_own (h : s.inProgress = none → s.transmitting = none)
    (hproceed : s.proceed i = some (s', o)) : Own s' o := by
  obtain ⟨⟨s₁, o₁, more⟩, hcont, heq⟩ := Option.map_eq_some_iff.mp hproceed
  have hown := Console.sendContinue_own h hcont
  cases more with
  | active =>
    obtain ⟨rfl, rfl⟩ := Prod.mk.inj heq
    exact hown
  | completed =>
    obtain ⟨rfl, rfl⟩ := Prod.mk.inj heq
    exact hown.append_schedule ..
  | failed =>
    obtain ⟨rfl, rfl⟩ := Prod.mk.inj heq
    exact hown.append_schedule ..

theorem Console.startPending_own (h : s.inProgress = none → s.transmitting = none)
    (hstart : s.startPending order = some (s', o)) : Own s' o := by
  induction order generalizing s o with
  | nil =>
    obtain ⟨rfl, rfl⟩ := Prod.mk.inj (Option.some.inj hstart)
    exact ⟨h, rfl⟩
  | cons i is ih =>
    rw [Console.startPending] at hstart
    split at hstart
    · obtain ⟨⟨s₁, o₁, more⟩, hcont, hrest⟩ := Option.bind_eq_some_iff.mp hstart
      have hown := Console.sendContinue_own (s := s.put i _) h hcont
      cases more with
      | active =>
        obtain ⟨rfl, rfl⟩ := Prod.mk.inj (Option.some.inj hrest)
        exact hown
      | completed =>
        obtain ⟨⟨s₂, o₂⟩, hnext, heq⟩ := Option.map_eq_some_iff.mp hrest
        obtain ⟨rfl, rfl⟩ := Prod.mk.inj heq
        exact (ih hown.1 hnext).append _ hown.2
      | failed =>
        have hown' := hown.append_schedule i
          { s₁.apps i with writeLen := 0, writeRemaining := 0, pendingWrite := false }
          fail
        obtain ⟨⟨s₂, o₂⟩, hnext, heq⟩ := Option.map_eq_some_iff.mp hrest
        obtain ⟨rfl, rfl⟩ := Prod.mk.inj heq
        exact (ih hown'.1 hnext).append _ hown'.2
    · exact ih h hstart

theorem Console.transmitComplete_own (hcomplete : s.transmitComplete order = some (s', o)) : Own s' o := by
  rw [Console.transmitComplete] at hcomplete
  split at hcomplete
  · next buffer hbuffer =>
    obtain ⟨⟨s₁, o₁⟩, hfirst, hrest⟩ := Option.bind_eq_some_iff.mp hcomplete
    have hown : Own s₁ o₁ := by
      rw [Console.completeInProgress] at hfirst
      split at hfirst
      · exact Console.proceed_own (fun _ => rfl) hfirst
      · obtain ⟨rfl, rfl⟩ := Prod.mk.inj (Option.some.inj hfirst)
        exact ⟨fun _ => rfl, rfl⟩
    split at hrest
    · obtain ⟨⟨s₂, o₂⟩, hnext, heq⟩ := Option.map_eq_some_iff.mp hrest
      obtain ⟨rfl, rfl⟩ := Prod.mk.inj heq
      exact (Console.startPending_own hown.1 hnext).append _ hown.2
    · obtain ⟨rfl, rfl⟩ := Prod.mk.inj (Option.some.inj hrest)
      exact hown
  · cases hcomplete

end

/-- An app writes again, and swaps its buffer, when its last write is done, and
there is no `putc`. -/
def OneWrite (s : Console ι κ) : Event ι κ → Prop
  | .allow i _ => s.inProgress ≠ some i ∧ (s.apps i).pendingWrite = false
  | .subscribe i _ => ∀ slice ∈ (s.apps i).writeBuffer,
      slice ≠ [] ∧ s.inProgress ≠ some i ∧ (s.apps i).pendingWrite = false
  | .putc _ => False
  | .transmitComplete => True

instance (s : Console ι κ) (e : Event ι κ) : Decidable (OneWrite s e) :=
  match e with
  | .allow _ _ => inferInstanceAs (Decidable (_ ∧ _))
  | .subscribe i _ => inferInstanceAs (Decidable (∀ slice ∈ (s.apps i).writeBuffer,
      slice ≠ [] ∧ s.inProgress ≠ some i ∧ (s.apps i).pendingWrite = false))
  | .putc _ => .isFalse id
  | .transmitComplete => .isTrue trivial

theorem OneWrite.own {os o : List (Action ι κ)} {order : List ι} {e : Event ι κ} (hone : OneWrite s e)
    (h : Own s os) (hstep : s.step order e = some (s', o)) : Own s' (os ++ o) := by
  refine Own.append _ h.2 ?_
  cases e with
  | allow i slice =>
    cases hstep
    exact ⟨h.1, rfl⟩
  | subscribe i callback => exact Console.sendNew_own h.1 hstep
  | putc arg => exact hone.elim
  | transmitComplete => exact Console.transmitComplete_own hstep

omit [DecidableEq ι] in
theorem OneWrite.kept {t : Server (Write ι κ)} {sent : Bytes} {e : Event ι κ} (hone : OneWrite s e)
    (hfree : s.inProgress = none → s.transmitting = none) (h : Simulates s t sent) : Kept s e := by
  cases e with
  | allow i slice =>
    refine .inl ?_
    cases h with
    | idle h => exact h.waiting.done i hone.1 hone.2
    | serving h => exact h.waiting.done i hone.1 hone.2
  | subscribe i callback =>
    intro slice hslice
    obtain ⟨hne, hprogress, hpending⟩ := hone slice hslice
    refine ⟨hprogress, hpending, fun hnil => absurd hnil hne, fun _ hnone => ?_⟩
    cases h with
    | idle h =>
      have hbuffer := h.buffer
      rw [hfree hnone] at hbuffer
      simpa using hbuffer
    | serving h =>
      rw [h.inProgress] at hnone
      cases hnone
  | putc arg => trivial
  | transmitComplete => trivial

/-- What the UART transmits are the writes, one after the other, each in full
and in parts of the buffer's length; the app is signalled once, after its last
byte; and when nothing is transmitted, nothing waits. -/
theorem console_multiplexed {order : List ι} (horder : ∀ i, i ∈ order) {es : List (Event ι κ)}
    {os : List (Action ι κ)}
    (h : Run (fun s e s' o => s.step order e = some (s', o) ∧ OneWrite s e) .boot es s os) :
    ∃ t sent, Accounts os t sent ∧ transmits os = written os ∧
      (s.transmitting = none → t.serving = none ∧ ∀ i, (s.apps i).pendingWrite = false) ∧ Drains order s := by
  obtain ⟨⟨t, sent, hsim, hacc⟩, hown⟩ := h.history (fun os s => Invariant os s ∧ Own s os)
    (fun {os s e s' o} hinv hstep => by
      obtain ⟨⟨t, sent, hsim, hacc⟩, hown⟩ := hinv
      exact ⟨Invariant.step horder ⟨t, sent, hsim, hacc⟩ (hstep.2.kept hown.1 hsim) hstep.1,
        hstep.2.own hown hstep.1⟩)
    ⟨Invariant.boot, fun _ => rfl, rfl⟩
  exact ⟨t, sent, hacc, hown.2, hsim.serving_none, hsim.drains horder⟩

/-- Two apps write at once. -/
theorem console_multiplexed_two : ∃ s os,
    Run (fun (s : Console (Fin 2) Nat) e s' o => s.step [0, 1] e = some (s', o) ∧ OneWrite s e) .boot
      [.allow 0 (some [1, 2]), .subscribe 0 (some 7), .allow 1 (some [3]), .subscribe 1 (some 8),
        .transmitComplete, .transmitComplete] s os ∧
    transmits os = [(some 0, [1, 2]), (some 1, [3])] ∧ callbacks os = [(0, 7, 2), (1, 8, 1)] ∧
    ∃ t sent, Accounts os t sent ∧ transmits os = written os ∧
      (s.transmitting = none → t.serving = none ∧ ∀ i, (s.apps i).pendingWrite = false) ∧ Drains [0, 1] s := by
  have hexec : (Run.exec (fun (s : Console (Fin 2) Nat) e => if OneWrite s e then s.step [0, 1] e else none) .boot
      [.allow 0 (some [1, 2]), .subscribe 0 (some 7), .allow 1 (some [3]), .subscribe 1 (some 8),
        .transmitComplete, .transmitComplete]).map (fun r => (transmits r.2, callbacks r.2)) =
      some ([(some 0, [1, 2]), (some 1, [3])], [(0, 7, 2), (1, 8, 1)]) := by decide +kernel
  obtain ⟨⟨s, os⟩, hexec, heq⟩ := Option.map_eq_some_iff.mp hexec
  have hrun := Run.of_exec_guard hexec
  exact ⟨s, os, hrun, (Prod.mk.inj heq).1, (Prod.mk.inj heq).2, console_multiplexed (by decide) hrun⟩

/-! ## Every accepted write -/

instance (s : Console ι κ) (e : Event ι κ) : Decidable (Kept s e) :=
  match e with
  | .allow i slice => inferInstanceAs (Decidable ((s.apps i).writeRemaining = 0 ∨ ∃ new ∈ slice,
      (s.apps i).writeRemaining ≤ new.length ∧
        { s.apps i with writeBuffer := some new }.unsent = (s.apps i).unsent))
  | .subscribe i _ => inferInstanceAs (Decidable (∀ slice ∈ (s.apps i).writeBuffer,
      s.inProgress ≠ some i ∧ (s.apps i).pendingWrite = false ∧ (slice = [] → s.inProgress = none) ∧
        (slice ≠ [] → s.inProgress = none → s.txBuffer.isSome = true)))
  | .putc _ | .transmitComplete => .isTrue trivial

/-- No accepted write is lost in a run of such steps: the writes that have been
served were transmitted in full and their apps signalled once, and when the
UART is done there are no others. -/
theorem writes_kept {order : List ι} (horder : ∀ i, i ∈ order) {es : List (Event ι κ)} {os : List (Action ι κ)}
    (h : Run (fun s e s' o => s.step order e = some (s', o) ∧ Kept s e) .boot es s os) :
    ∃ t sent, Accounts os t sent ∧ (s.transmitting = none → t.serving = none) ∧ Drains order s := by
  obtain ⟨t, sent, hsim, hacc⟩ :=
    h.history Invariant (fun hinv hstep => hinv.step horder hstep.2 hstep.1) Invariant.boot
  exact ⟨t, sent, hacc, fun hnone => (hsim.serving_none hnone).1, hsim.drains horder⟩

/-- Two apps write, one while the other is served; then one without bytes while a byte of `putc` is transmitted. -/
def keptEvents : List (Event (Fin 2) Nat) :=
  [.allow 0 (some [1, 2, 3]), .subscribe 0 (some 7), .allow 1 (some [9]), .subscribe 1 (some 8), .transmitComplete,
    .transmitComplete, .putc 65, .allow 0 (some []), .subscribe 0 (some 7), .transmitComplete]

theorem writes_kept_two : ∃ s os,
    Run (fun (s : Console (Fin 2) Nat) e s' o => s.step [0, 1] e = some (s', o) ∧ Kept s e) .boot keptEvents s os ∧
    callbacks os = [(0, 7, 3), (1, 8, 1), (0, 7, 0)] ∧
    ∃ t sent, Accounts os t sent ∧ (s.transmitting = none → t.serving = none) ∧ Drains [0, 1] s := by
  have hexec : (Run.exec (fun (s : Console (Fin 2) Nat) e => if Kept s e then s.step [0, 1] e else none) .boot
      keptEvents).map (fun r => callbacks r.2) = some [(0, 7, 3), (1, 8, 1), (0, 7, 0)] := by decide +kernel
  obtain ⟨⟨s, os⟩, hexec, heq⟩ := Option.map_eq_some_iff.mp hexec
  have hrun := Run.of_exec_guard hexec
  exact ⟨s, os, hrun, heq, writes_kept (by decide) hrun⟩

/-- A write is accepted while a byte of `putc` is transmitted: it is dropped, and
the app is signalled a failure. -/
theorem write_lost : ∃ s os,
    Run (fun (s : Console (Fin 2) Nat) e s' o => s.step [0, 1] e = some (s', o)) .boot
      [.putc 65, .allow 0 (some [1]), .subscribe 0 (some 7), .transmitComplete] s os ∧
    (accepted os).length = 1 ∧ written os = [] ∧ callbacks os = [(0, 7, fail)] ∧
    s.transmitting.isNone = true ∧ s.inProgress = none ∧ ∀ i, (s.apps i).pendingWrite = false := by
  have hexec : (Run.exec (fun (s : Console (Fin 2) Nat) e => s.step [0, 1] e) .boot
      [.putc 65, .allow 0 (some [1]), .subscribe 0 (some 7), .transmitComplete]).map
      (fun r => decide ((accepted r.2).length = 1 ∧ written r.2 = [] ∧ callbacks r.2 = [(0, 7, fail)] ∧
        r.1.transmitting.isNone = true ∧ r.1.inProgress = none ∧ ∀ i, (r.1.apps i).pendingWrite = false)) =
      some true := by decide +kernel
  obtain ⟨⟨s, os⟩, hexec, heq⟩ := Option.map_eq_some_iff.mp hexec
  exact ⟨s, os, Run.of_exec hexec, of_decide_eq_true heq⟩

end

end GpsConsole

end Signpost
