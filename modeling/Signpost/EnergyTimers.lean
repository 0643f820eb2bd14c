/-
The times since a reset over runs of the controller: updates fold what has
elapsed into a total of milliseconds and start the timers again, resets start one
at nothing, and in between the times are asked for.

The alarm goes on within an update: it is read for what has elapsed, and again
for where the timer starts. So what is given here of the alarm is how many ticks
it has made in all when it is read, of which it shows the last 32 bits. What has elapsed
is computed in doubles: `RoundsBelow` names the numbers of ticks of which these make a
millisecond less.
-/
import Signpost.EnergyTimes
import Signpost.Lib.History

namespace Signpost

open Lib

inductive Timer
  | controller
  | linux
  | module (m : Fin 8)
  deriving DecidableEq

/-- All timers, in the order in which an update folds them. -/
def timers : List Timer := .controller :: .linux :: (List.finRange 8).map .module

theorem mem_timers (i : Timer) : i ∈ timers := by
  cases i with
  | controller => exact List.mem_cons_self
  | linux => exact List.mem_cons_of_mem _ List.mem_cons_self
  | module m =>
    exact List.mem_cons_of_mem _ (List.mem_cons_of_mem _ (List.mem_map_of_mem (List.mem_finRange m)))

namespace Figures

variable {α β : Type} (f : Figures α)

def get : Timer → α
  | .controller => f.controller
  | .linux => f.linux
  | .module m => f.modules m

def set (v : α) : Timer → Figures α
  | .controller => { f with controller := v }
  | .linux => { f with linux := v }
  | .module m => { f with modules := Function.update f.modules m v }

def map (g : α → β) : Figures β := ⟨g f.controller, g f.linux, fun m => g (f.modules m)⟩

def toList : List α := f.controller :: f.linux :: (List.finRange 8).map f.modules

@[simp] theorem get_map (g : α → β) (i : Timer) : (f.map g).get i = g (f.get i) := by
  cases i <;> rfl

theorem get_set (v : α) (i j : Timer) : (f.set v i).get j = if j = i then v else f.get j := by
  cases i <;> cases j <;> simp [set, get, Function.update_apply]

theorem get_mem (i : Timer) : f.get i ∈ f.toList := by
  have hlist : f.toList = timers.map f.get := by
    simp only [toList, timers, List.map_cons, List.map_map, get]
    rfl
  rw [hlist]
  exact List.mem_map_of_mem (mem_timers i)

end Figures

namespace EnergyPolicy

section
variable (p : EnergyPolicy) (r : Readings) (f : Nat)

/-- The alarm after so many ticks, and the arithmetic of the processor. -/
def alarmAt (r : Readings) (f tick : Nat) : Readings :=
  { r with alarm := UInt32.ofNat tick, alarmFrequency := f, arithmetic := .double }

/-- `signpost_energy_policy_get_time_since_…_reset_ms` -/
def getTimeSinceReset : Timer → UInt32
  | .controller => p.getTimeSinceControllerReset r
  | .linux => p.getTimeSinceLinuxReset r
  | .module m => p.getTimeSinceModuleReset r m

/-- `signpost_energy_policy_reset_…_energy_used` -/
def resetEnergyUsed : Timer → EnergyPolicy
  | .controller => p.resetControllerEnergyUsed r
  | .linux => p.resetLinuxEnergyUsed r
  | .module m => p.resetModuleEnergyUsed r m

/-- An update that reads the alarm for each timer at these ticks: for what has
elapsed, and for its start. -/
def updateEnergyAt (reads : Figures (Nat × Nat)) : EnergyPolicy :=
  { p.updateEnergy r with
    timeSinceReset :=
      { controller := p.getTimeSinceControllerReset (alarmAt r f reads.controller.1)
        linux := p.getTimeSinceLinuxReset (alarmAt r f reads.linux.1)
        modules := fun m => p.getTimeSinceModuleReset (alarmAt r f (reads.modules m).1) m }
    energyResetStartTime := reads.map fun read => UInt32.ofNat read.2 }

theorem getTimeSinceReset_eq (i : Timer) :
    p.getTimeSinceReset r i = p.timeSinceReset.get i + timeSince r (p.energyResetStartTime.get i) := by
  cases i <;> rfl

theorem timeSinceReset_resetEnergyUsed (i : Timer) :
    (p.resetEnergyUsed r i).timeSinceReset = p.timeSinceReset.set 0 i := by
  cases i <;> rfl

theorem energyResetStartTime_resetEnergyUsed (i : Timer) :
    (p.resetEnergyUsed r i).energyResetStartTime = p.energyResetStartTime.set r.alarm i := by
  cases i <;> rfl

theorem timeSinceReset_updateEnergyAt (reads : Figures (Nat × Nat)) (i : Timer) :
    (p.updateEnergyAt r f reads).timeSinceReset.get i =
      p.getTimeSinceReset (alarmAt r f (reads.get i).1) i := by
  cases i <;> rfl

theorem updateEnergyAt_of_still {tick : Nat} (h : r = alarmAt r f tick) :
    p.updateEnergyAt r f ⟨(tick, tick), (tick, tick), fun _ => (tick, tick)⟩ = p.updateEnergy r := by
  have halarm : UInt32.ofNat tick = r.alarm := (congrArg Readings.alarm h).symm
  simp only [updateEnergyAt, Figures.map, ← h, halarm, updateEnergy, resetAndUpdateTimers]

end

/-! ## Runs -/

/-- The policy and the ticks of the alarm. -/
structure Clocked where
  policy : EnergyPolicy
  tick : Nat
  /-- When the last update started. -/
  updated : Nat
  /-- When the starts of the timers were read. -/
  started : Figures Nat

inductive ClockEvent
  | wait (ticks : Nat)
  /-- An update reads the alarm at these ticks, and ends. -/
  | update (r : Readings) (reads : Figures (Nat × Nat)) (done : Nat)
  | reset (r : Readings) (i : Timer)
  | query (i : Timer)

inductive ClockOutput
  /-- The time since a reset, as an `int`. -/
  | value (i : Timer) (ms : Int)
  | reset (i : Timer)
  /-- So many ticks since the start of a timer became so many milliseconds. -/
  | folded (i : Timer) (ticks : Nat) (ms : Int)
  deriving DecidableEq

namespace Clocked

/-- The ticks of an update, in the order in which the alarm is read. -/
def InOrder (s : Clocked) (reads : Figures (Nat × Nat)) (done : Nat) : Prop :=
  (s.tick :: reads.toList.flatMap (fun read => [read.1, read.2]) ++ [done]).Pairwise (· ≤ ·)

instance (s : Clocked) (reads : Figures (Nat × Nat)) (done : Nat) : Decidable (s.InOrder reads done) :=
  inferInstanceAs (Decidable (List.Pairwise ..))

/-- What an update makes of a timer. -/
def folded (s : Clocked) (p' : EnergyPolicy) (reads : Figures (Nat × Nat)) (i : Timer) : ClockOutput :=
  .folded i ((reads.get i).2 - s.started.get i)
    ((p'.timeSinceReset.get i).toNat - (s.policy.timeSinceReset.get i).toNat)

def step (f : Nat) (s : Clocked) : ClockEvent → Option (Clocked × List ClockOutput)
  | .wait ticks => some ({ s with tick := s.tick + ticks }, [])
  | .update r reads done =>
    if s.InOrder reads done then
      let policy := s.policy.updateEnergyAt r f reads
      some (⟨policy, done, s.tick, reads.map (·.2)⟩, timers.map (s.folded policy reads))
    else none
  | .reset r i =>
    some ({ s with
      policy := s.policy.resetEnergyUsed (alarmAt r f s.tick) i
      started := s.started.set s.tick i }, [.reset i])
  | .query i =>
    some (s, [.value i (s.policy.getTimeSinceReset (alarmAt (idleReadings 0) f s.tick) i).toInt32.toInt])

end Clocked

/-! ## Ticks -/

/-- These ticks are a whole number of milliseconds, and the doubles of the code come out
below it: the quotient by the frequency, or a thousand times it, is rounded down. -/
def RoundsBelow (ticks f : Nat) : Prop :=
  f ∣ 1000 * ticks ∧
    Floats.roundTo 53 (Floats.roundTo 53 ((ticks : ℚ) / f) * 1000) < (1000 * ticks / f : Nat)

instance (ticks f : Nat) : Decidable (RoundsBelow ticks f) := instDecidableAnd

/-- A second and a millisecond of 16 kHz. -/
example : RoundsBelow 16016 16000 := by decide +kernel

theorem millis_double {ticks f : Nat} (hticks : ticks < 2 ^ 32) (h : ¬ RoundsBelow ticks f) :
    millis .double ticks f = 1000 * ticks / f := by
  obtain ⟨hle, -, heq⟩ := millis_near .double f hticks
  by_cases hdvd : f ∣ 1000 * ticks
  · exact Nat.le_antisymm hle (Nat.le_floor (not_lt.mp fun hlt => h ⟨hdvd, hlt⟩))
  · exact heq hdvd

/-- How often the alarm goes from 0xffffffff to zero between these ticks. -/
def wraps (start tick : Nat) : Nat := tick / 2 ^ 32 - start / 2 ^ 32

/-- The ticks that are counted between these. -/
def countedTicks (start tick : Nat) : Nat := tick - start - wraps start tick

section
variable {start tick tick' : Nat}

theorem countedTicks_add_wraps (h : start ≤ tick) : countedTicks start tick + wraps start tick = tick - start := by
  unfold countedTicks wraps
  omega

theorem countedTicks_mono (h : start ≤ tick) (htick : tick ≤ tick') :
    countedTicks start tick ≤ countedTicks start tick' := by
  unfold countedTicks wraps
  omega

theorem countedTicks_lt (hwrap : tick < start + 2 ^ 32) : countedTicks start tick < 2 ^ 32 := by
  unfold countedTicks
  omega

theorem counted_alarmAt (r : Readings) (f : Nat) (h : start ≤ tick) (hwrap : tick < start + 2 ^ 32) :
    counted (alarmAt r f tick) (UInt32.ofNat start) = countedTicks start tick := by
  have helapsed : elapsed (alarmAt r f tick) (UInt32.ofNat start) = tick - start := by
    simp only [elapsed, alarmAt, UInt32.toNat_sub, UInt32.toNat_ofNat']
    omega
  have hless : (alarmAt r f tick).alarm < UInt32.ofNat start ↔ tick % 2 ^ 32 < start % 2 ^ 32 := by
    rw [UInt32.lt_iff_toNat_lt]
    simp only [alarmAt, UInt32.toNat_ofNat']
  rw [counted, helapsed]
  simp only [hless]
  unfold countedTicks wraps
  split <;> omega

end

namespace Clocked

/-- The policy's times are those of the alarm. -/
structure InStep (s : Clocked) : Prop where
  start : ∀ i, s.policy.energyResetStartTime.get i = UInt32.ofNat (s.started.get i)
  updated : ∀ i, s.updated ≤ s.started.get i
  started : ∀ i, s.started.get i ≤ s.tick

/-- The milliseconds since a reset, at a tick. -/
def total (f : Nat) (s : Clocked) (i : Timer) (tick : Nat) : Nat :=
  (s.policy.timeSinceReset.get i).toNat + millis .double (countedTicks (s.started.get i) tick) f

section
variable {f : Nat} {s s' : Clocked} {i : Timer} {tick tick' : Nat}

theorem total_mono (h : s.started.get i ≤ tick) (htick : tick ≤ tick') (hwrap : tick' < s.started.get i + 2 ^ 32) :
    s.total f i tick ≤ s.total f i tick' :=
  Nat.add_le_add_left (millis_mono (countedTicks_mono h htick) (countedTicks_lt hwrap)) _

theorem InStep.lt_started (h : s.InStep) (i : Timer) (hwrap : tick < s.updated + 2 ^ 32) :
    tick < s.started.get i + 2 ^ 32 := by
  have hupdated := h.updated i
  omega

theorem InStep.getTimeSinceReset_toNat (h : s.InStep) (r : Readings) (htick : s.tick ≤ tick)
    (hwrap : tick < s.updated + 2 ^ 32) (hfits : s.total f i tick < 2 ^ 32) :
    (s.policy.getTimeSinceReset (alarmAt r f tick) i).toNat = s.total f i tick := by
  have hcounted := counted_alarmAt r f (Nat.le_trans (h.started i) htick) (h.lt_started i hwrap)
  have hms : millis .double (countedTicks (s.started.get i) tick) f < 2 ^ 32 :=
    Nat.lt_of_le_of_lt (Nat.le_add_left ..) hfits
  have hread : (alarmAt r f tick).alarmFrequency = f ∧ (alarmAt r f tick).arithmetic = .double := ⟨rfl, rfl⟩
  rw [getTimeSinceReset_eq, h.start, timeSince_eq, hcounted, hread.1, hread.2, UInt32.toNat_add,
    UInt32.toNat_ofNat_of_lt' hms]
  exact Nat.mod_eq_of_lt hfits

theorem InOrder.bounds {reads : Figures (Nat × Nat)} {done : Nat} (h : s.InOrder reads done) (i : Timer) :
    s.tick ≤ (reads.get i).1 ∧ (reads.get i).1 ≤ (reads.get i).2 ∧ (reads.get i).2 ≤ done := by
  obtain ⟨hreads, -, hdone⟩ := List.pairwise_append.mp h
  obtain ⟨htick, hflat⟩ := List.pairwise_cons.mp hreads
  have hmem : ∀ {read}, read ∈ [(reads.get i).1, (reads.get i).2] →
      read ∈ reads.toList.flatMap (fun read => [read.1, read.2]) :=
    fun hread => List.mem_flatMap.mpr ⟨reads.get i, reads.get_mem i, hread⟩
  have hpair := (List.pairwise_flatMap.mp hflat).1 (reads.get i) (reads.get_mem i)
  refine ⟨htick _ (hmem (by simp)), ?_, hdone _ (List.mem_cons_of_mem _ (hmem (by simp))) done (by simp)⟩
  exact (List.pairwise_cons.mp hpair).1 _ (by simp)

def tickAfter (s : Clocked) : ClockEvent → Nat
  | .wait ticks => s.tick + ticks
  | .update _ _ done => done
  | .reset .. | .query _ => s.tick

/-- No update is left out while the alarm goes round. -/
def OncePerWrap (s : Clocked) (e : ClockEvent) : Prop := s.tickAfter e < s.updated + 2 ^ 32

instance (s : Clocked) (e : ClockEvent) : Decidable (s.OncePerWrap e) := Nat.decLt ..

/-- What the times need at a step. A time that is asked for fits in an `int`. At an
update the totals fit in 32 bits; what passes between the two times that the alarm is
read, the tick that is not counted where it has wrapped and what rounding down leaves are
less than a millisecond together; and the ticks are not whole milliseconds that doubles
make one less of. -/
def Within (f : Nat) (s : Clocked) : ClockEvent → Prop
  | .update _ reads _ => ∀ i, s.total f i (reads.get i).1 < 2 ^ 32 ∧
      1000 * ((reads.get i).2 - (reads.get i).1) + 1000 * wraps (s.started.get i) (reads.get i).1 +
        1000 * countedTicks (s.started.get i) (reads.get i).1 % f < f ∧
      ¬ RoundsBelow (countedTicks (s.started.get i) (reads.get i).1) f
  | .query i => s.total f i s.tick < 2 ^ 31
  | .wait _ | .reset .. => True

/-- What the outputs should be. Times are not negative and do not go back until a
reset, and an update loses less than a millisecond. -/
def Sound (f : Nat) (before : List ClockOutput) : ClockOutput → Prop
  | .value i ms => 0 ≤ ms ∧
      ∀ earlier, Since (· = .value i earlier) (· = .reset i) before → earlier ≤ ms
  | .folded _ ticks ms => 1000 * (ticks : Int) < (ms + 1) * f
  | .reset _ => True

/-- The times are sound so far, and no time that was given since a reset is more than it is now. -/
structure Kept (f : Nat) (os : List ClockOutput) (s : Clocked) : Prop where
  inStep : s.InStep
  sound : Throughout (Sound f) os
  given : ∀ i (ms : Int), Since (· = .value i ms) (· = .reset i) os → ms ≤ s.total f i s.tick

theorem Kept.wait {os : List ClockOutput} (h : Kept f os s) {ticks : Nat}
    (hwrap : s.tick + ticks < s.updated + 2 ^ 32) :
    Kept f (os ++ []) { s with tick := s.tick + ticks } := by
  rw [List.append_nil]
  refine ⟨⟨h.inStep.start, h.inStep.updated, fun j => ?_⟩, h.sound, fun j ms hgiven => ?_⟩
  · exact Nat.le_trans (h.inStep.started j) (Nat.le_add_right ..)
  · exact Int.le_trans (h.given j ms hgiven)
      (Int.ofNat_le.mpr (total_mono (h.inStep.started j) (Nat.le_add_right ..) (h.inStep.lt_started j hwrap)))

theorem Kept.query {os : List ClockOutput} (h : Kept f os s) (hwrap : s.tick < s.updated + 2 ^ 32)
    (hfits : s.total f i s.tick < 2 ^ 31) :
    Kept f (os ++ [.value i (s.policy.getTimeSinceReset (alarmAt (idleReadings 0) f s.tick) i).toInt32.toInt]) s := by
  have htotal := h.inStep.getTimeSinceReset_toNat (idleReadings 0) (Nat.le_refl s.tick) hwrap
    (Nat.lt_trans hfits (by decide))
  have hvalue : (s.policy.getTimeSinceReset (alarmAt (idleReadings 0) f s.tick) i).toInt32.toInt =
      s.total f i s.tick := by
    rw [← htotal]
    exact toInt_of_lt (htotal ▸ hfits)
  rw [hvalue]
  refine ⟨h.inStep, h.sound.append (.singleton ?_), fun j ms hgiven => ?_⟩
  · exact ⟨Int.natCast_nonneg _, fun earlier hearlier => h.given i earlier (by rwa [List.append_nil] at hearlier)⟩
  · rcases since_concat.mp hgiven with hnow | ⟨hearlier, -⟩
    · obtain ⟨rfl, rfl⟩ := ClockOutput.value.inj hnow
      exact Int.le_refl _
    · exact h.given j ms hearlier

theorem Kept.reset {os : List ClockOutput} (h : Kept f os s) (r : Readings) :
    Kept f (os ++ [.reset i]) { s with
      policy := s.policy.resetEnergyUsed (alarmAt r f s.tick) i
      started := s.started.set s.tick i } := by
  have hother : ∀ j, j ≠ i → ∀ tick, total f { s with
      policy := s.policy.resetEnergyUsed (alarmAt r f s.tick) i
      started := s.started.set s.tick i } j tick = s.total f j tick := by
    intro j hj tick
    simp only [total, timeSinceReset_resetEnergyUsed, Figures.get_set, if_neg hj]
  refine ⟨⟨fun j => ?_, fun j => ?_, fun j => ?_⟩, h.sound.append (.singleton trivial), fun j ms hgiven => ?_⟩
  · simp only [energyResetStartTime_resetEnergyUsed, Figures.get_set]
    split
    · rfl
    · exact h.inStep.start j
  · simp only [Figures.get_set]
    split
    · exact Nat.le_trans (h.inStep.updated i) (h.inStep.started i)
    · exact h.inStep.updated j
  · simp only [Figures.get_set]
    split
    · exact Nat.le_refl _
    · exact h.inStep.started j
  · rcases since_concat.mp hgiven with hnow | ⟨hearlier, hkept⟩
    · cases hnow
    · have hj : j ≠ i := fun heq => hkept (by rw [heq])
      rw [hother j hj]
      exact h.given j ms hearlier

theorem InStep.timeSinceReset_update (h : s.InStep) (r : Readings) {reads : Figures (Nat × Nat)}
    (htick : s.tick ≤ (reads.get i).1) (hwrap : (reads.get i).1 < s.updated + 2 ^ 32)
    (hfits : s.total f i (reads.get i).1 < 2 ^ 32) :
    ((s.policy.updateEnergyAt r f reads).timeSinceReset.get i).toNat = s.total f i (reads.get i).1 := by
  rw [timeSinceReset_updateEnergyAt]
  exact h.getTimeSinceReset_toNat r htick hwrap hfits

/-- What a fold loses is what passes between the readings, the tick at the wrap and
what rounding leaves. -/
theorem lost_lt {start got again f : Nat} (hstart : start ≤ got) (hgot : got ≤ again)
    (h : 1000 * (again - got) + 1000 * wraps start got + 1000 * countedTicks start got % f < f) :
    1000 * (again - start) < (1000 * countedTicks start got / f + 1) * f := by
  have hdiv := Nat.div_add_mod (1000 * countedTicks start got) f
  have hticks := countedTicks_add_wraps hstart
  rw [Nat.add_mul, Nat.one_mul, Nat.mul_comm _ f]
  omega

theorem Kept.update {os : List ClockOutput} (h : Kept f os s) (r : Readings) {reads : Figures (Nat × Nat)}
    {done : Nat} (horder : s.InOrder reads done) (hwrap : done < s.updated + 2 ^ 32)
    (hwithin : s.Within f (.update r reads done)) :
    Kept f (os ++ timers.map (s.folded (s.policy.updateEnergyAt r f reads) reads))
      ⟨s.policy.updateEnergyAt r f reads, done, s.tick, reads.map (·.2)⟩ := by
  have hfold : ∀ j, ((s.policy.updateEnergyAt r f reads).timeSinceReset.get j).toNat =
      s.total f j (reads.get j).1 := by
    intro j
    obtain ⟨htick, hgot, hdone⟩ := horder.bounds j
    exact h.inStep.timeSinceReset_update r htick (by omega) (hwithin j).1
  have hplain : ∀ b ∈ timers.map (s.folded (s.policy.updateEnergyAt r f reads) reads),
      ∃ j ticks ms, b = .folded j ticks ms := by
    intro b hb
    obtain ⟨j, -, rfl⟩ := List.mem_map.mp hb
    exact ⟨j, _, _, rfl⟩
  refine ⟨⟨fun j => ?_, fun j => ?_, fun j => ?_⟩, h.sound.append (.of_mem fun before a ha => ?_),
    fun j ms hgiven => ?_⟩
  · simp only [updateEnergyAt, Figures.get_map]
  · obtain ⟨htick, hgot, -⟩ := horder.bounds j
    simp only [Figures.get_map]
    omega
  · simp only [Figures.get_map]
    exact (horder.bounds j).2.2
  · obtain ⟨j, -, rfl⟩ := List.mem_map.mp ha
    obtain ⟨htick, hgot, hdone⟩ := horder.bounds j
    have hlost := lost_lt (Nat.le_trans (h.inStep.started j) htick) hgot (hwithin j).2.1
    have hround := millis_double (countedTicks_lt (h.inStep.lt_started j (by omega))) (hwithin j).2.2
    have hms : ((s.total f j (reads.get j).1 : Nat) : Int) - (s.policy.timeSinceReset.get j).toNat =
        (1000 * countedTicks (s.started.get j) (reads.get j).1 / f : Nat) := by
      rw [total, hround]
      omega
    simp only [Clocked.folded, Sound, hfold, hms]
    exact_mod_cast hlost
  · rcases since_append.mp hgiven with ⟨before, b, after, hb, hvalue, -⟩ | ⟨hearlier, -⟩
    · obtain ⟨_, _, _, rfl⟩ := hplain b (hb ▸ List.mem_append_right before List.mem_cons_self)
      cases hvalue
    · obtain ⟨htick, hgot, hdone⟩ := horder.bounds j
      have hmono := total_mono (f := f) (h.inStep.started j) htick (h.inStep.lt_started j (by omega))
      have hfolded := Nat.le_trans hmono (Nat.le_of_eq (hfold j).symm)
      exact Int.le_trans (h.given j ms hearlier) (Int.ofNat_le.mpr (Nat.le_trans hfolded (Nat.le_add_right ..)))

theorem Kept.step {os o : List ClockOutput} {e : ClockEvent} (h : Kept f os s)
    (hstep : Clocked.step f s e = some (s', o)) (hwrap : s.OncePerWrap e) (hwithin : s.Within f e) :
    Kept f (os ++ o) s' := by
  cases e with
  | wait ticks =>
    cases hstep
    exact h.wait hwrap
  | update r reads done =>
    simp only [Clocked.step] at hstep
    split at hstep
    · next horder =>
      cases hstep
      exact h.update r horder hwrap hwithin
    · cases hstep
  | reset r i =>
    cases hstep
    exact h.reset r
  | query i =>
    cases hstep
    exact h.query hwrap hwithin

/-- In a run with an update at least once while the alarm goes round, times do not go
back between resets and are not negative, and no fold loses a millisecond. -/
theorem times_sound {es : List ClockEvent} {os : List ClockOutput} (hs : s.InStep)
    (h : Run (fun s e s' o => Clocked.step f s e = some (s', o) ∧ s.OncePerWrap e ∧ s.Within f e) s es s' os) :
    Throughout (Sound f) os := by
  have hkept : Kept f os s' := Run.history (fun os s => Kept f os s)
    (fun hkept hstp => hkept.step hstp.1 hstp.2.1 hstp.2.2) h
    ⟨hs, .nil, fun _ _ hgiven => absurd hgiven not_since_nil⟩
  exact hkept.sound

end

section
open Controller

instance (f : Nat) (s : Clocked) : ∀ e, Decidable (s.Within f e)
  | .update _ reads _ =>
    decidable_of_iff (∀ i ∈ timers, s.total f i (reads.get i).1 < 2 ^ 32 ∧
        1000 * ((reads.get i).2 - (reads.get i).1) + 1000 * wraps (s.started.get i) (reads.get i).1 +
          1000 * countedTicks (s.started.get i) (reads.get i).1 % f < f ∧
        ¬ RoundsBelow (countedTicks (s.started.get i) (reads.get i).1) f)
      ⟨fun h i => h i (mem_timers i), fun h i _ => h i⟩
  | .query i => inferInstanceAs (Decidable (s.total f i s.tick < 2 ^ 31))
  | .wait _ => instDecidableTrue
  | .reset .. => instDecidableTrue

def boot : Clocked := ⟨EnergyPolicy.boot, 0, 0, ⟨0, 0, fun _ => 0⟩⟩

theorem boot_inStep : boot.InStep := by
  refine ⟨fun i => ?_, fun i => ?_, fun i => ?_⟩ <;> cases i <;> rfl

/-- An update in which the alarm does not go on. -/
def still (tick : Nat) : ClockEvent :=
  .update (idleReadings 0) ⟨(tick, tick), (tick, tick), fun _ => (tick, tick)⟩ tick

/-- A second, in which the alarm goes on by a tick within an update. -/
def second : List ClockEvent :=
  [.wait 16000, .query (.module 0),
    .update (idleReadings 0) ⟨(16000, 16000), (16000, 16001), fun _ => (16001, 16001)⟩ 16001,
    .wait 16000, .query (.module 0)]

theorem times_sound_second : ∃ s os,
    Run (fun s e s' o => Clocked.step 16000 s e = some (s', o) ∧ s.OncePerWrap e ∧ s.Within 16000 e)
      boot second s os ∧ os.getLast? = some (.value (.module 0) 2000) ∧ Throughout (Sound 16000) os := by
  have hexec : (Run.exec (fun s e => if s.OncePerWrap e ∧ s.Within 16000 e then Clocked.step 16000 s e else none)
      boot second).map (·.2.getLast?) = some (some (.value (.module 0) 2000)) := by decide +kernel
  obtain ⟨⟨s, os⟩, hexec, hlast⟩ := Option.map_eq_some_iff.mp hexec
  have hrun := Run.of_exec_guard hexec
  exact ⟨s, os, hrun, hlast, times_sound boot_inStep hrun⟩

/-- An update at the last tick of each time that the alarm goes round. -/
def rounds (n : Nat) : List ClockEvent :=
  (List.range n).flatMap fun k => [.wait (2 ^ 32 - 1), still ((k + 1) * (2 ^ 32 - 1))]

/-- After 28 days the time is negative. -/
theorem time_negative : ∃ s os,
    Run (fun s e s' o => Clocked.step 16000 s e = some (s', o) ∧ s.OncePerWrap e)
      boot (rounds 9 ++ [.query (.module 0)]) s os ∧ ¬ Throughout (Sound 16000) os := by
  have hexec : (Run.exec (fun s e => if s.OncePerWrap e then Clocked.step 16000 s e else none)
      boot (rounds 9 ++ [.query (.module 0)])).map (·.2.getLast?) =
      some (some (.value (.module 0) (-1879048201))) := by decide +kernel
  obtain ⟨⟨s, os⟩, hexec, hlast⟩ := Option.map_eq_some_iff.mp hexec
  refine ⟨s, os, Run.of_exec_guard hexec, fun hsound => ?_⟩
  obtain ⟨before, hos⟩ := List.getLast?_eq_some_iff.mp hlast
  exact absurd (hsound before _ [] hos).1 (by decide)

end

end Clocked

end EnergyPolicy

end Signpost
