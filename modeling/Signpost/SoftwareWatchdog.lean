/-
The software watchdog of the controller: three parts of it report, and when all have, the
kernel is told, which resets the processor when it has not been told for a timeout.

Time is that of the alarm, whose ticks are counted without an end. An alarm fires when
it reads its deadline. What the sources' reports say of the time is noted beside.
-/
import Signpost.AppWatchdog
import Signpost.Lib.Rounds

namespace Signpost

open Lib

/-- `watchdog_tickler_t` -/
inductive WatchdogTickler
  | watchAppTickle
  | watchLibGps
  | watchLibInit
  deriving DecidableEq, Inhabited

instance : Fintype WatchdogTickler :=
  ⟨{.watchAppTickle, .watchLibGps, .watchLibInit}, fun which => by cases which <;> decide⟩

/-- The numbers from 0 to `NUM_WATCH_STATES`. -/
def WatchdogTickler.all : List WatchdogTickler := [.watchAppTickle, .watchLibGps, .watchLibInit]

structure SoftwareWatchdog where
  watchdogStates : WatchdogTickler → Bool
  appWatchdog : AppWatchdog
  /-- The ticks of the alarm. -/
  now : Nat
  rounds : Rounds WatchdogTickler

namespace SoftwareWatchdog

/-- The timeout that `signpost_controller_init` sets, in milliseconds. -/
def kernelTimeout : UInt32 := 180000

def alarms (now : Nat) : TimeoutMode → UInt32 := fun _ => UInt32.ofNat now

/-- After `app_watchdog_set_kernel_timeout` and `app_watchdog_start`. -/
def init (b : Board) (now : Nat) : Option SoftwareWatchdog := do
  let (w, _) ← AppWatchdog.boot.command b (alarms now) 3 kernelTimeout
  let (w, _) ← w.command b (alarms now) 4 0
  some ⟨fun _ => false, w, now, .start now⟩

/-- `app_watchdog_combine` -/
def appWatchdogCombine (b : Board) (s : SoftwareWatchdog) (which : WatchdogTickler) : Option SoftwareWatchdog :=
  let watchdogStates := Function.update s.watchdogStates which true
  let all := WatchdogTickler.all.foldl (fun all i => all && watchdogStates i) true
  if all then do
    let (appWatchdog, _) ← s.appWatchdog.command b (alarms s.now) 1 0
    some { s with watchdogStates := fun _ => false, appWatchdog }
  else some { s with watchdogStates }

/-- The alarm of a timeout fires if this is its deadline. -/
def alarm (now : Nat) (w : AppWatchdog) (which : TimeoutMode) : AppWatchdog :=
  if (w.timeoutOf which).alarm = some (alarms now which) then w.fired which else w

def tick (s : SoftwareWatchdog) : SoftwareWatchdog :=
  { s with
    appWatchdog := [TimeoutMode.app, .kernel].foldl (alarm (s.now + 1)) s.appWatchdog
    now := s.now + 1
    rounds := s.rounds.tick }

inductive Event
  | report (which : WatchdogTickler)
  | tick

/-- Nothing happens after a reset. -/
def step (b : Board) (s : SoftwareWatchdog) (e : Event) : Option SoftwareWatchdog :=
  if s.appWatchdog.resets ≠ 0 then none
  else
    match e with
    | .report which => (s.appWatchdogCombine b which).map fun s => { s with rounds := s.rounds.report which }
    | .tick => some s.tick

def interval (b : Board) : Nat := kernelTimeout.toNat * b.frequency.toNat / 1000

/-! ## The rounds -/

/-- The driver is in the round that the reports say: its alarm is set to the end of it. -/
structure InRound (b : Board) (s : SoftwareWatchdog) : Prop where
  timely : s.rounds.Timely (interval b)
  now : s.rounds.now = s.now
  reported : s.watchdogStates = s.rounds.reported
  app : s.appWatchdog.appTimeout.mode = .app
  kernel : s.appWatchdog.kernelTimeout =
    ⟨some (UInt32.ofNat (s.rounds.current + interval b)), kernelTimeout, .kernel⟩
  resets : s.appWatchdog.resets = 0

/-- The processor was reset, when a source had been silent for all of a timeout. -/
structure Reset (b : Board) (s : SoftwareWatchdog) : Prop where
  resets : s.appWatchdog.resets ≠ 0
  silent : ∃ i, interval b ≤ s.rounds.silence i

section
variable {b : Board} {s s' : SoftwareWatchdog} {e : Event}

theorem foldl_all_iff (f : WatchdogTickler → Bool) :
    WatchdogTickler.all.foldl (fun all i => all && f i) true = true ↔ ∀ i, f i = true := by
  simp only [WatchdogTickler.all, List.foldl_cons, List.foldl_nil, Bool.true_and, Bool.and_eq_true]
  constructor
  · rintro ⟨⟨happ, hgps⟩, hinit⟩ i
    cases i with
    | watchAppTickle => exact happ
    | watchLibGps => exact hgps
    | watchLibInit => exact hinit
  · exact fun h => ⟨⟨h _, h _⟩, h _⟩

theorem interval_lt (h : b.Fits kernelTimeout) : interval b < 2 ^ 32 := Nat.lt_of_le_of_lt (Nat.div_le_self _ _) h

theorem interval_pos (h : 0 < b.frequency) : 0 < interval b := by
  have hfrequency : 0 < b.frequency.toNat := UInt32.lt_iff_toNat_lt.mp h
  have hproduct : interval b = 180000 * b.frequency.toNat / 1000 := rfl
  omega

theorem tickled (h : b.Fits kernelTimeout) {w : AppWatchdog} (htimeout : w.kernelTimeout.timeout = kernelTimeout)
    (now : Nat) :
    w.command b (alarms now) 1 0 = some
      ({ w with kernelTimeout := { w.kernelTimeout with alarm := some (UInt32.ofNat (now + interval b)) } },
        .success) := by
  have hinterval : b.interval w.kernelTimeout.timeout = some (UInt32.ofNat (interval b)) := htimeout ▸ h.interval
  change (w.tickleKernel b (alarms now)).map (·, ReturnCode.success) = _
  rw [AppWatchdog.tickleKernel, Timeout.tickle, hinterval, UInt32.ofNat_add]
  rfl

theorem inRound_init (hfits : b.Fits kernelTimeout) (hfrequency : 0 < b.frequency) {now : Nat}
    (h : init b now = some s) : s.InRound b := by
  have hshort : b.interval 1000 = some (UInt32.ofNat (1000 * b.frequency.toNat / 1000)) :=
    (hfits.of_le (by decide)).interval
  have hlong : b.interval kernelTimeout = some (UInt32.ofNat (interval b)) := hfits.interval
  simp only [init, AppWatchdog.command] at h
  simp only [AppWatchdog.boot, AppWatchdog.setKernelTimeout, AppWatchdog.start, AppWatchdog.tickleApp,
    AppWatchdog.tickleKernel, Timeout.tickle, hshort, hlong, Option.bind_eq_bind, Option.bind_some, Option.map_some,
    UInt32.reduceToNat, Option.some.injEq] at h
  subst h
  exact {
    timely := .start (interval_pos hfrequency) now
    now := rfl
    reported := rfl
    app := rfl
    kernel := by
      rw [UInt32.ofNat_add]
      rfl
    resets := rfl }

theorem InRound.report (hfits : b.Fits kernelTimeout) (h : s.InRound b) (which : WatchdogTickler) :
    ∃ s', step b s (.report which) = some s' ∧ s'.InRound b := by
  have hmark : Function.update s.watchdogStates which true = (s.rounds.mark which).reported := by
    rw [h.reported]
    rfl
  have hstep : step b s (.report which) =
      (s.appWatchdogCombine b which).map fun s => { s with rounds := s.rounds.report which } :=
    if_neg (not_not.mpr h.resets)
  have htimely := h.timely.report which
  rw [hstep, appWatchdogCombine, hmark]
  by_cases hall : ∀ i, (s.rounds.mark which).reported i = true
  · have hnext : s.rounds.report which = (s.rounds.mark which).next := if_pos hall
    rw [if_pos ((foldl_all_iff _).mpr hall), tickled hfits (by rw [h.kernel]), h.kernel, ← h.now]
    simp only [Option.bind_eq_bind, Option.bind_some, Option.map_some, hnext]
    exact ⟨_, rfl, hnext ▸ htimely, rfl, rfl, h.app, rfl, h.resets⟩
  · have hmarked : s.rounds.report which = s.rounds.mark which := if_neg hall
    rw [if_neg (mt (foldl_all_iff _).mp hall)]
    simp only [Option.map_some, hmarked]
    exact ⟨_, rfl, hmarked ▸ htimely, h.now, rfl, h.app, h.kernel, h.resets⟩

theorem InRound.deadline_iff (hfits : b.Fits kernelTimeout) (h : s.InRound b) :
    s.appWatchdog.kernelTimeout.alarm = some (alarms (s.now + 1) .kernel) ↔ s.rounds.tick.Expired (interval b) := by
  have hlt := interval_lt hfits
  have hbegun := h.timely.current_le
  have hopen := h.timely.now_lt
  rw [h.timely.expired_iff, h.kernel, alarms, Option.some_inj, ← UInt32.toNat_inj, UInt32.toNat_ofNat',
    UInt32.toNat_ofNat', ← h.now]
  omega

theorem InRound.tick (hfits : b.Fits kernelTimeout) (h : s.InRound b) : s.tick.InRound b ∨ s.tick.Reset b := by
  have happ : alarm (s.now + 1) s.appWatchdog .app = s.appWatchdog := by
    have hmode : s.appWatchdog.fired .app = s.appWatchdog := by
      rw [AppWatchdog.fired, AppWatchdog.timeoutOf, Timeout.fired, h.app]
      rfl
    rw [alarm, hmode, ite_self]
  have hwatchdog : s.tick.appWatchdog = alarm (s.now + 1) s.appWatchdog .kernel := by
    change alarm _ (alarm _ s.appWatchdog .app) .kernel = _
    rw [happ]
  by_cases hexpired : s.rounds.tick.Expired (interval b)
  · right
    have hreset : s.tick.appWatchdog = s.appWatchdog.reset := by
      rw [hwatchdog, alarm, AppWatchdog.timeoutOf, if_pos ((h.deadline_iff hfits).mpr hexpired), AppWatchdog.fired,
        AppWatchdog.timeoutOf, Timeout.fired, h.kernel]
      rfl
    exact ⟨hreset ▸ Nat.succ_ne_zero _, h.timely.silent hexpired⟩
  · left
    have hsame : s.tick.appWatchdog = s.appWatchdog := by
      rw [hwatchdog, alarm, AppWatchdog.timeoutOf]
      exact if_neg (mt (h.deadline_iff hfits).mp hexpired)
    exact {
      timely := h.timely.tick hexpired
      now := congrArg (· + 1) h.now
      reported := h.reported
      app := hsame ▸ h.app
      kernel := hsame ▸ h.kernel
      resets := hsame ▸ h.resets }

theorem step_inRound (hfits : b.Fits kernelTimeout) (h : s.InRound b) (e : Event) :
    ∃ s', step b s e = some s' ∧ (s'.InRound b ∨ s'.Reset b) := by
  cases e with
  | report which =>
    obtain ⟨s', hs', hround⟩ := h.report hfits which
    exact ⟨s', hs', .inl hround⟩
  | tick => exact ⟨_, if_neg (not_not.mpr h.resets), h.tick hfits⟩

/-- From the start on, whatever the order of the reports, the processor is reset only when a source has been
silent for all of the timeout, and it is reset before one has been silent for two. Until then no report panics. -/
theorem watchdog_guards (now : Nat) {s₀ : SoftwareWatchdog} (hfits : b.Fits kernelTimeout)
    (hfrequency : 0 < b.frequency) (h₀ : init b now = some s₀)
    (h : Relation.ReflTransGen (fun s s' => ∃ e, step b s e = some s') s₀ s) :
    ((∀ i, s.rounds.silence i < interval b) → s.appWatchdog.resets = 0) ∧
      (s.appWatchdog.resets = 0 → ∀ i, s.rounds.silence i < 2 * interval b) ∧
      (s.appWatchdog.resets = 0 → ∀ e, (step b s e).isSome) := by
  have hinv : s.InRound b ∨ s.Reset b := by
    induction h with
    | refl => exact .inl (inRound_init hfits hfrequency h₀)
    | tail _ hstep ih =>
      obtain ⟨e, he⟩ := hstep
      obtain hround | hreset := ih
      · obtain ⟨s', hs', hinv⟩ := step_inRound hfits hround e
        cases hs'.symm.trans he
        exact hinv
      · cases (if_pos hreset.resets).symm.trans he
  obtain hround | hreset := hinv
  · refine ⟨fun _ => hround.resets, fun _ => hround.timely.silence_lt, fun _ e => ?_⟩
    obtain ⟨s', hs', -⟩ := step_inRound hfits hround e
    exact Option.isSome_of_eq_some hs'
  · refine ⟨fun hshort => ?_, fun hresets => absurd hresets hreset.resets, fun hresets => absurd hresets hreset.resets⟩
    obtain ⟨i, hi⟩ := hreset.silent
    exact absurd (hshort i) (Nat.not_lt.mpr hi)

end

/-- Two of the three have reported when a tick passes. -/
theorem watchdog_guards_sample : ∃ s₀ s, init ⟨.release, 16000⟩ 7 = some s₀ ∧
    ((∀ i, s.rounds.silence i < interval ⟨.release, 16000⟩) → s.appWatchdog.resets = 0) ∧
      (s.appWatchdog.resets = 0 → ∀ i, s.rounds.silence i < 2 * interval ⟨.release, 16000⟩) ∧
      (s.appWatchdog.resets = 0 → ∀ e, (step ⟨.release, 16000⟩ s e).isSome) :=
  ⟨_, _, rfl, watchdog_guards 7 (by decide) (by decide) rfl
    (.tail (.tail (.tail .refl ⟨.report .watchAppTickle, rfl⟩) ⟨.report .watchLibGps, rfl⟩) ⟨.tick, rfl⟩)⟩

end SoftwareWatchdog

end Signpost
