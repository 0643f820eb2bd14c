/-
The software watchdogs of the kernel. A timeout in milliseconds becomes a deadline in ticks of an
alarm. The arithmetic is that of `u32`; on the boards `usize` has 32 bits too.

A product that does not fit wraps in one build of the kernel and panics in the other, so a deadline
is exact if and only if the product fits. Over runs this is an invariant of the timeouts that are
set: where they all fit, so do the deadlines.
-/
import Mathlib.Algebra.Group.Nat.Defs
import Mathlib.Data.Nat.Basic
import Signpost.Lib.Run

namespace Signpost

open Lib

/-- A product that overflows is a panic in one profile, and wraps in the other. -/
inductive Profile where
  | dev | release
  deriving DecidableEq

/-- `x * y` on `u32`. A panic has no outcome. -/
def Profile.mul : Profile → UInt32 → UInt32 → Option UInt32
  | .dev, x, y => if x.toNat * y.toNat < 2 ^ 32 then some (x * y) else none
  | .release, x, y => some (x * y)

/-- What the kernel is built with, and how many ticks a second its alarms have. -/
structure Board where
  profile : Profile
  frequency : UInt32

/-- The ticks of a timeout of so many milliseconds. -/
def Board.interval (b : Board) (timeout : UInt32) : Option UInt32 :=
  (b.profile.mul timeout b.frequency).map (· / 1000)

inductive TimeoutMode where
  | app | kernel
  deriving DecidableEq

/-- `alarm` has the deadline last set, unless it is disabled. -/
structure Timeout where
  alarm : Option UInt32
  timeout : UInt32
  mode : TimeoutMode
  deriving DecidableEq

namespace Timeout

def tickle (b : Board) (now : UInt32) (t : Timeout) : Option Timeout := do
  let interval ← b.interval t.timeout
  let tics := now + interval
  some { t with alarm := some tics }

def stop (t : Timeout) : Timeout := { t with alarm := none }

/-- Whether the processor is reset when the alarm fires. -/
def fired (t : Timeout) : Bool :=
  match t.mode with
  | .app => false
  | .kernel => true

end Timeout

/-- `ReturnCode` -/
inductive ReturnCode where
  | success | enosupport
  deriving DecidableEq

/-- `resets` counts the calls of the reset function. -/
structure AppWatchdog where
  appTimeout : Timeout
  kernelTimeout : Timeout
  resets : Nat
  deriving DecidableEq

namespace AppWatchdog

def setAppTimeout (w : AppWatchdog) (timeout : UInt32) : AppWatchdog :=
  { w with appTimeout := { w.appTimeout with timeout } }

def setKernelTimeout (w : AppWatchdog) (timeout : UInt32) : AppWatchdog :=
  { w with kernelTimeout := { w.kernelTimeout with timeout } }

/-- `now` is what the alarm of either timeout reads. -/
def tickleApp (b : Board) (now : TimeoutMode → UInt32) (w : AppWatchdog) : Option AppWatchdog := do
  let appTimeout ← w.appTimeout.tickle b (now .app)
  some { w with appTimeout }

def tickleKernel (b : Board) (now : TimeoutMode → UInt32) (w : AppWatchdog) : Option AppWatchdog := do
  let kernelTimeout ← w.kernelTimeout.tickle b (now .kernel)
  some { w with kernelTimeout }

def start (b : Board) (now : TimeoutMode → UInt32) (w : AppWatchdog) : Option AppWatchdog := do
  let w ← w.tickleApp b now
  w.tickleKernel b now

def stop (w : AppWatchdog) : AppWatchdog :=
  { w with appTimeout := w.appTimeout.stop, kernelTimeout := w.kernelTimeout.stop }

def reset (w : AppWatchdog) : AppWatchdog := { w with resets := w.resets + 1 }

/-- `command` -/
def command (b : Board) (now : TimeoutMode → UInt32) (w : AppWatchdog) (commandNum data : UInt32) :
    Option (AppWatchdog × ReturnCode) :=
  match commandNum.toNat with
  | 0 => (w.tickleApp b now).map (·, .success)
  | 1 => (w.tickleKernel b now).map (·, .success)
  | 2 => some (w.setAppTimeout data, .success)
  | 3 => some (w.setKernelTimeout data, .success)
  | 4 => (w.start b now).map (·, .success)
  | 5 => some (w.stop, .success)
  | 6 => some (if data = 0xDEAD then w.reset else w, .success)
  | _ => some (w, .enosupport)

def timeoutOf (w : AppWatchdog) : TimeoutMode → Timeout
  | .app => w.appTimeout
  | .kernel => w.kernelTimeout

/-- The alarm of a timeout fires. -/
def fired (w : AppWatchdog) (which : TimeoutMode) : AppWatchdog :=
  if (w.timeoutOf which).fired then w.reset else w

end AppWatchdog

/-- What the hardware watchdog is told. -/
inductive WatchdogCall where
  | start (period : UInt32)
  | tickle
  deriving DecidableEq

/-- `WatchdogKernel`, with its alarm as that of a `Timeout`. -/
structure WatchdogKernel where
  alarm : Option UInt32
  timeout : UInt32
  watchdog : List WatchdogCall
  deriving DecidableEq

namespace WatchdogKernel

def start (b : Board) (now : UInt32) (k : WatchdogKernel) : Option WatchdogKernel := do
  let interval ← b.interval k.timeout
  let tics := now + interval
  some { k with alarm := some tics, watchdog := k.watchdog ++ [WatchdogCall.start 2000] }

def fired (b : Board) (now : UInt32) (k : WatchdogKernel) : Option WatchdogKernel := do
  let k := { k with watchdog := k.watchdog ++ [WatchdogCall.tickle] }
  let interval ← b.interval k.timeout
  let tics := now + interval
  some { k with alarm := some tics }

end WatchdogKernel

/-! ## Deadlines -/

/-- The product of a timeout and the frequency has 32 bits. -/
def Board.Fits (b : Board) (timeout : UInt32) : Prop := timeout.toNat * b.frequency.toNat < 2 ^ 32

instance (b : Board) (timeout : UInt32) : Decidable (b.Fits timeout) := Nat.decLt ..

/-- The alarm is set to the end of the timeout, and not earlier than for a shorter one. -/
structure ExactDeadline (deadline : UInt32 → Option UInt32) (frequency now timeout : UInt32) : Prop where
  exact : deadline timeout = some (UInt32.ofNat (now.toNat + timeout.toNat * frequency.toNat / 1000))
  monotone : ∀ shorter ≤ timeout, ∃ early late,
    deadline shorter = some early ∧ deadline timeout = some late ∧ early - now ≤ late - now

section
variable {b : Board} {timeout shorter now ticks : UInt32}

theorem Board.Fits.of_le (h : b.Fits timeout) (hle : shorter ≤ timeout) : b.Fits shorter :=
  Nat.lt_of_le_of_lt (Nat.mul_le_mul_right _ (UInt32.le_iff_toNat_le.mp hle)) h

theorem Board.Fits.interval (h : b.Fits timeout) :
    b.interval timeout = some (UInt32.ofNat (timeout.toNat * b.frequency.toNat / 1000)) := by
  have hmul : b.profile.mul timeout b.frequency = some (timeout * b.frequency) := by
    cases hprofile : b.profile with
    | dev => exact if_pos h
    | release => rfl
  have hquotient : timeout * b.frequency / 1000 = UInt32.ofNat (timeout.toNat * b.frequency.toNat / 1000) := by
    rw [← UInt32.toNat_inj, UInt32.toNat_div, UInt32.toNat_mul, UInt32.toNat_ofNat', Nat.mod_eq_of_lt h]
    exact (Nat.mod_eq_of_lt (Nat.lt_of_le_of_lt (Nat.div_le_self ..) h)).symm
  rw [Board.interval, hmul, ← hquotient, Option.map_some]

theorem Board.toNat_of_interval (h : b.interval timeout = some ticks) :
    ticks.toNat = timeout.toNat * b.frequency.toNat % 2 ^ 32 / 1000 := by
  have hquotient : timeout * b.frequency / 1000 = ticks := by
    obtain ⟨product, hmul, hdiv⟩ := Option.map_eq_some_iff.mp h
    cases hprofile : b.profile with
    | dev =>
      rw [hprofile, Profile.mul, Option.ite_none_right_eq_some] at hmul
      rwa [Option.some.inj hmul.2]
    | release =>
      rw [hprofile, Profile.mul] at hmul
      rwa [Option.some.inj hmul]
  rw [← hquotient, UInt32.toNat_div, UInt32.toNat_mul]
  rfl

/-- A product that does not fit is made smaller by the overflow, and the interval with it. -/
theorem Board.interval_eq_iff (h : timeout.toNat * b.frequency.toNat / 1000 < 2 ^ 32) :
    b.interval timeout = some (UInt32.ofNat (timeout.toNat * b.frequency.toNat / 1000)) ↔ b.Fits timeout := by
  refine ⟨fun hinterval => ?_, Board.Fits.interval⟩
  have hquotient := b.toNat_of_interval hinterval
  rw [UInt32.toNat_ofNat', Nat.mod_eq_of_lt h] at hquotient
  rw [Board.Fits]
  omega

theorem Board.Fits.interval_le (h : b.Fits timeout) (hle : shorter ≤ timeout) :
    ∃ i j, b.interval shorter = some i ∧ b.interval timeout = some j ∧ i ≤ j := by
  refine ⟨_, _, (h.of_le hle).interval, h.interval, ?_⟩
  have hshorter := b.toNat_of_interval (h.of_le hle).interval
  have hlonger := b.toNat_of_interval h.interval
  rw [UInt32.le_iff_toNat_le, hshorter, hlonger, Nat.mod_eq_of_lt h, Nat.mod_eq_of_lt (h.of_le hle)]
  exact Nat.div_le_div_right (Nat.mul_le_mul_right _ (UInt32.le_iff_toNat_le.mp hle))

theorem Board.exactDeadline_iff (h : timeout.toNat * b.frequency.toNat / 1000 < 2 ^ 32) :
    ExactDeadline (fun timeout => (b.interval timeout).map (now + ·)) b.frequency now timeout ↔ b.Fits timeout := by
  have hsum : UInt32.ofNat (now.toNat + timeout.toNat * b.frequency.toNat / 1000) =
      now + UInt32.ofNat (timeout.toNat * b.frequency.toNat / 1000) := by
    rw [UInt32.ofNat_add, UInt32.ofNat_toNat]
  constructor
  · rintro ⟨hexact, -⟩
    obtain ⟨ticks, hinterval, heq⟩ := Option.map_eq_some_iff.mp hexact
    rw [hsum, UInt32.add_right_inj] at heq
    exact (b.interval_eq_iff h).mp (heq ▸ hinterval)
  · refine fun hfits => ⟨?_, fun shorter hle => ?_⟩
    · rw [hfits.interval, Option.map_some, hsum]
    · obtain ⟨i, j, hi, hj, hij⟩ := hfits.interval_le hle
      refine ⟨now + i, now + j, by rw [hi, Option.map_some], by rw [hj, Option.map_some], ?_⟩
      rwa [UInt32.add_comm now, UInt32.add_comm now, UInt32.add_sub_cancel, UInt32.add_sub_cancel]

end

namespace AppWatchdog

/-- The command that sets a timeout. -/
def setTimeout : TimeoutMode → UInt32
  | .app => 2
  | .kernel => 3

/-- The command that tickles it. -/
def tickle : TimeoutMode → UInt32
  | .app => 0
  | .kernel => 1

/-- What the alarm is set to by a tickle, once the timeout has been set. -/
def deadline (b : Board) (now : TimeoutMode → UInt32) (w : AppWatchdog) (which : TimeoutMode) (timeout : UInt32) :
    Option UInt32 := do
  let (w, _) ← w.command b now (setTimeout which) timeout
  let (w, _) ← w.command b now (tickle which) 0
  (w.timeoutOf which).alarm

theorem deadline_eq (b : Board) (now : TimeoutMode → UInt32) (w : AppWatchdog) (which : TimeoutMode)
    (timeout : UInt32) : w.deadline b now which timeout = (b.interval timeout).map (now which + ·) := by
  cases hticks : b.interval timeout with
  | none => cases which <;> simp [deadline, command, setTimeout, tickle, setAppTimeout, setKernelTimeout, tickleApp,
      tickleKernel, Timeout.tickle, hticks]
  | some ticks => cases which <;> simp [deadline, command, setTimeout, tickle, setAppTimeout, setKernelTimeout,
      tickleApp, tickleKernel, Timeout.tickle, timeoutOf, hticks]

end AppWatchdog

namespace WatchdogKernel

/-- What the alarm of the kernel's own timer is set to with such a timeout. -/
def deadline (set : WatchdogKernel → Option WatchdogKernel) (k : WatchdogKernel) (timeout : UInt32) :
    Option UInt32 :=
  (set { k with timeout }).bind (·.alarm)

variable {b : Board} {now : UInt32} {k : WatchdogKernel}

theorem deadline_start : deadline (start b now) k = fun timeout => (b.interval timeout).map (now + ·) := by
  funext timeout
  cases hticks : b.interval timeout <;> simp [deadline, start, hticks]

theorem deadline_fired : deadline (fired b now) k = fun timeout => (b.interval timeout).map (now + ·) := by
  funext timeout
  cases hticks : b.interval timeout <;> simp [deadline, fired, hticks]

end WatchdogKernel

/-- A deadline is exact if and only if the product of the timeout and the frequency does not overflow:
for both timeouts of the driver, in every state of it, and for the kernel's own timer. -/
theorem deadline_exact_iff (b : Board) (now : TimeoutMode → UInt32) (w : AppWatchdog) (which : TimeoutMode)
    (k : WatchdogKernel) (time timeout : UInt32) (h : timeout.toNat * b.frequency.toNat / 1000 < 2 ^ 32) :
    (ExactDeadline (w.deadline b now which) b.frequency (now which) timeout ↔ b.Fits timeout) ∧
      (ExactDeadline (WatchdogKernel.deadline (WatchdogKernel.start b time) k) b.frequency time timeout ↔
        b.Fits timeout) ∧
      (ExactDeadline (WatchdogKernel.deadline (WatchdogKernel.fired b time) k) b.frequency time timeout ↔
        b.Fits timeout) := by
  refine ⟨?_, ?_, ?_⟩
  · rw [funext (w.deadline_eq b now which)]
    exact b.exactDeadline_iff h
  · rw [WatchdogKernel.deadline_start]
    exact b.exactDeadline_iff h
  · rw [WatchdogKernel.deadline_fired]
    exact b.exactDeadline_iff h

/-- The timeouts that the boards begin with. -/
def AppWatchdog.boot : AppWatchdog := ⟨⟨none, 1000, .app⟩, ⟨none, 5000, .kernel⟩, 0⟩

def WatchdogKernel.boot : WatchdogKernel := ⟨none, 1200, []⟩

/-- Three minutes at 16 kHz. -/
theorem deadline_exact_iff_minutes :
    (180000 : UInt32).toNat * (16000 : UInt32).toNat / 1000 < 2 ^ 32 ∧
      ExactDeadline (AppWatchdog.boot.deadline ⟨.release, 16000⟩ (fun _ => 7) .kernel) 16000 7 180000 ∧
      ExactDeadline (WatchdogKernel.deadline (WatchdogKernel.start ⟨.release, 16000⟩ 7) .boot) 16000 7 180000 ∧
      ExactDeadline (WatchdogKernel.deadline (WatchdogKernel.fired ⟨.release, 16000⟩ 7) .boot) 16000 7 180000 := by
  have hfits : Board.Fits ⟨.release, 16000⟩ 180000 := by decide
  obtain ⟨hdriver, hstart, hfired⟩ :=
    deadline_exact_iff ⟨.release, 16000⟩ (fun _ => 7) .boot .kernel .boot 7 180000 (by decide)
  exact ⟨by decide, hdriver.mpr hfits, hstart.mpr hfits, hfired.mpr hfits⟩

/-- Five minutes at 16 kHz: half a minute in one profile, and a panic in the other. A timeout of 268436
milliseconds has an earlier deadline than one of a millisecond. -/
theorem deadline_not_exact :
    (300000 : UInt32).toNat * (16000 : UInt32).toNat / 1000 < 2 ^ 32 ∧
      ¬ ExactDeadline (AppWatchdog.boot.deadline ⟨.release, 16000⟩ (fun _ => 0) .kernel) 16000 0 300000 ∧
      ¬ ExactDeadline (AppWatchdog.boot.deadline ⟨.dev, 16000⟩ (fun _ => 0) .kernel) 16000 0 300000 ∧
      AppWatchdog.boot.deadline ⟨.release, 16000⟩ (fun _ => 0) .kernel 300000 = some 505032 ∧
      AppWatchdog.boot.deadline ⟨.dev, 16000⟩ (fun _ => 0) .kernel 300000 = none ∧
      AppWatchdog.boot.deadline ⟨.release, 16000⟩ (fun _ => 0) .kernel 268436 = some 8 ∧
      AppWatchdog.boot.deadline ⟨.release, 16000⟩ (fun _ => 0) .kernel 1 = some 16 := by
  have hrelease : AppWatchdog.boot.deadline ⟨.release, 16000⟩ (fun _ => 0) .kernel 300000 = some 505032 := by decide
  have hdev : AppWatchdog.boot.deadline ⟨.dev, 16000⟩ (fun _ => 0) .kernel 300000 = none := by decide
  refine ⟨by decide, fun h => ?_, fun h => ?_, hrelease, hdev, by decide, by decide⟩
  · have hexact := hrelease.symm.trans h.exact
    exact absurd hexact (by decide)
  · have hexact := hdev.symm.trans h.exact
    exact absurd hexact (by decide)

/-! ## Runs -/

/-- The timeout in force fits, and if the alarm is set, it is to an exact deadline. -/
structure Timeout.Exact (b : Board) (t : Timeout) : Prop where
  fits : b.Fits t.timeout
  alarm : ∀ tics ∈ t.alarm, ∃ now timeout : UInt32, b.Fits timeout ∧
    tics = UInt32.ofNat (now.toNat + timeout.toNat * b.frequency.toNat / 1000)

section
variable {b : Board} {t : Timeout}

theorem Timeout.Exact.tickle (h : t.Exact b) (now : UInt32) : ∃ t', t.tickle b now = some t' ∧ t'.Exact b := by
  refine ⟨{ t with alarm := some (now + UInt32.ofNat (t.timeout.toNat * b.frequency.toNat / 1000)) }, ?_, h.fits,
    fun tics htics => ⟨now, t.timeout, h.fits, ?_⟩⟩
  · rw [Timeout.tickle, h.fits.interval]
    rfl
  · rw [← Option.some.inj htics, UInt32.ofNat_add, UInt32.ofNat_toNat]

theorem Timeout.Exact.stop (h : t.Exact b) : t.stop.Exact b := ⟨h.fits, fun _ htics => nomatch htics⟩

theorem Timeout.Exact.set (h : t.Exact b) {timeout : UInt32} (hfits : b.Fits timeout) :
    { t with timeout }.Exact b := ⟨hfits, h.alarm⟩

end

namespace AppWatchdog

inductive Event where
  | command (commandNum data : UInt32) (now : TimeoutMode → UInt32)
  | fired (which : TimeoutMode)

def step (b : Board) (w : AppWatchdog) : Event → Option (AppWatchdog × List ReturnCode)
  | .command commandNum data now => (w.command b now commandNum data).map fun p => (p.1, [p.2])
  | .fired which => some (w.fired which, [])

def Event.Fits (b : Board) : Event → Prop
  | .command commandNum data _ => commandNum = 2 ∨ commandNum = 3 → b.Fits data
  | .fired _ => True

structure Exact (b : Board) (w : AppWatchdog) : Prop where
  app : w.appTimeout.Exact b
  kernel : w.kernelTimeout.Exact b

variable {b : Board} {w : AppWatchdog}

theorem Exact.boot (h : b.Fits 5000) : boot.Exact b :=
  ⟨⟨h.of_le (by decide), fun _ htics => nomatch htics⟩, h, fun _ htics => nomatch htics⟩

theorem Exact.tickleApp (h : w.Exact b) (now : TimeoutMode → UInt32) :
    ∃ w', w.tickleApp b now = some w' ∧ w'.Exact b := by
  obtain ⟨t, ht, hexact⟩ := h.app.tickle (now .app)
  exact ⟨{ w with appTimeout := t }, by rw [AppWatchdog.tickleApp, ht]; rfl, hexact, h.kernel⟩

theorem Exact.tickleKernel (h : w.Exact b) (now : TimeoutMode → UInt32) :
    ∃ w', w.tickleKernel b now = some w' ∧ w'.Exact b := by
  obtain ⟨t, ht, hexact⟩ := h.kernel.tickle (now .kernel)
  exact ⟨{ w with kernelTimeout := t }, by rw [AppWatchdog.tickleKernel, ht]; rfl, h.app, hexact⟩

theorem Exact.start (h : w.Exact b) (now : TimeoutMode → UInt32) :
    ∃ w', w.start b now = some w' ∧ w'.Exact b := by
  obtain ⟨w₁, hw₁, hexact⟩ := h.tickleApp now
  obtain ⟨w₂, hw₂, hexact⟩ := hexact.tickleKernel now
  exact ⟨w₂, by rw [AppWatchdog.start, hw₁, Option.bind_eq_bind, Option.bind_some, hw₂], hexact⟩

theorem Exact.reset (h : w.Exact b) : w.reset.Exact b := ⟨h.app, h.kernel⟩

theorem Exact.command (h : w.Exact b) (now : TimeoutMode → UInt32) {commandNum data : UInt32}
    (hfits : commandNum = 2 ∨ commandNum = 3 → b.Fits data) :
    ∃ p, w.command b now commandNum data = some p ∧ p.1.Exact b := by
  have answer : ∀ {o : Option AppWatchdog}, (∃ w', o = some w' ∧ w'.Exact b) →
      ∃ p, o.map (·, ReturnCode.success) = some p ∧ p.1.Exact b := fun ⟨w', ho, hexact⟩ =>
    ⟨(w', .success), by rw [ho, Option.map_some], hexact⟩
  rw [AppWatchdog.command]
  split
  · exact answer (h.tickleApp now)
  · exact answer (h.tickleKernel now)
  · next hnum => exact ⟨_, rfl, h.app.set (hfits (.inl (UInt32.toNat_inj.mp hnum))), h.kernel⟩
  · next hnum => exact ⟨_, rfl, h.app, h.kernel.set (hfits (.inr (UInt32.toNat_inj.mp hnum)))⟩
  · exact answer (h.start now)
  · exact ⟨_, rfl, h.app.stop, h.kernel.stop⟩
  · refine ⟨_, rfl, ?_⟩
    dsimp only
    split
    · exact h.reset
    · exact h
  · exact ⟨_, rfl, h⟩

theorem Exact.step (h : w.Exact b) {e : Event} (he : e.Fits b) : ∃ p, w.step b e = some p ∧ p.1.Exact b := by
  cases e with
  | command commandNum data now =>
    obtain ⟨p, hp, hexact⟩ := h.command now he
    exact ⟨(p.1, [p.2]), by rw [AppWatchdog.step, hp, Option.map_some], hexact⟩
  | fired which =>
    refine ⟨_, rfl, ?_⟩
    rw [fired]
    split
    · exact h.reset
    · exact h

theorem Exact.exec (h : w.Exact b) {es : List Event} (hes : ∀ e ∈ es, e.Fits b) :
    ∃ p, Run.exec (AppWatchdog.step b) w es = some p ∧ p.1.Exact b :=
  Run.exists_exec (fun hw he => hw.step he) h hes

end AppWatchdog

end Signpost
