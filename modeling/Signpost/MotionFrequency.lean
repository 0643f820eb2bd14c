/-
`motion_frequency_calculator` of the microwave radar. It looks for the samples at which the signal
turns, and there it computes a frequency from the samples that it has counted since the turn before.

The state is compared with the turns of the signal as `Lib.Zigzag` defines them. Between two turns
the samples are counted, so the quotient has a divisor that is not zero, unless the count wraps,
which takes 2^32 samples.
-/
import Mathlib.Algebra.Group.Nat.Defs
import Mathlib.Data.Nat.Basic
import Signpost.Lib.Zigzag

namespace Signpost

open Lib

/-- `sample_state` -/
inductive SampleState where
  | rising | falling | finishedRising | finishedFalling
  deriving DecidableEq

/-- The variables of `motion_frequency_calculator`. -/
structure MotionFrequency where
  sampleState : SampleState
  sampleCounter : UInt32
  maxSample : UInt32
  minSample : UInt32
  deriving DecidableEq

namespace MotionFrequency

def noiseOffset : UInt32 := 100

def boot : MotionFrequency := ⟨.rising, 0, 2024, 2024⟩

/-- It goes on until the signal peaks or bottoms. -/
def track (m : MotionFrequency) (sample : UInt16) : MotionFrequency :=
  match m.sampleState with
  | .rising =>
    if sample.toUInt32 ≤ m.maxSample - noiseOffset then { m with sampleState := .finishedRising }
    else
      { m with
        maxSample := if m.maxSample < sample.toUInt32 then sample.toUInt32 else m.maxSample
        sampleState := .rising
        sampleCounter := m.sampleCounter + 1 }
  | .falling =>
    if m.minSample + noiseOffset ≤ sample.toUInt32 then { m with sampleState := .finishedFalling }
    else
      { m with
        minSample := if sample.toUInt32 < m.minSample then sample.toUInt32 else m.minSample
        sampleState := .falling
        sampleCounter := m.sampleCounter + 1 }
  | .finishedRising | .finishedFalling => m

/-- `motion_frequency_calculator`. A frequency, if one is computed, is a quotient by this counter. -/
def motionFrequencyCalculator (m : MotionFrequency) (sample : UInt16) : MotionFrequency × Option UInt32 :=
  let m := m.track sample
  match m.sampleState with
  | .finishedFalling => (⟨.rising, 0, sample.toUInt32, sample.toUInt32⟩, some m.sampleCounter)
  | .finishedRising => (⟨.falling, 0, sample.toUInt32, sample.toUInt32⟩, some m.sampleCounter)
  | .rising | .falling => (m, none)

/-- What a stream of samples leaves. -/
def after (samples : List UInt16) : MotionFrequency :=
  samples.foldl (fun m sample => (m.motionFrequencyCalculator sample).1) boot

/-- The threshold that the next sample is compared with has not wrapped. -/
def Unwrapped (m : MotionFrequency) : Prop :=
  match m.sampleState with
  | .rising => noiseOffset.toNat ≤ m.maxSample.toNat
  | .falling => m.minSample.toNat + noiseOffset.toNat < 2 ^ 32
  | .finishedRising | .finishedFalling => True

/-- If a frequency is computed at this sample, it is over at least one sample. -/
def Defined (m : MotionFrequency) (sample : UInt16) : Prop :=
  ∀ counter, (m.motionFrequencyCalculator sample).2 = some counter → 1 ≤ counter ∧ m.Unwrapped

/-! ## A sample -/

/-- The signal that the samples are of. -/
def signal (samples : List UInt16) : Zigzag.Phase Nat :=
  Zigzag.phase 100 (.rising 2024) (samples.map UInt16.toNat)

/-- It follows the signal: of the extremes it keeps the one that counts. -/
def Follows (m : MotionFrequency) : Zigzag.Phase Nat → Prop
  | .rising top => m.sampleState = .rising ∧ m.maxSample.toNat = top ∧ 100 ≤ top ∧ top < 2 ^ 16
  | .falling bottom => m.sampleState = .falling ∧ m.minSample.toNat = bottom ∧ bottom < 2 ^ 16

variable {m : MotionFrequency} {p : Zigzag.Phase Nat} {sample : UInt16}

theorem Follows.unwrapped (h : m.Follows p) : m.Unwrapped := by
  cases p with
  | rising top =>
    obtain ⟨hstate, hmax, hle, -⟩ := h
    rw [Unwrapped, hstate, hmax]
    exact hle
  | falling bottom =>
    obtain ⟨hstate, hmin, hlt⟩ := h
    rw [Unwrapped, hstate, hmin]
    exact Nat.lt_trans (Nat.add_lt_add_right hlt 100) (by decide)

theorem le_threshold (h : 100 ≤ m.maxSample.toNat) :
    sample.toUInt32 ≤ m.maxSample - noiseOffset ↔ sample.toNat + 100 ≤ m.maxSample.toNat := by
  have hsub : (m.maxSample - noiseOffset).toNat = m.maxSample.toNat - 100 :=
    UInt32.toNat_sub_of_le _ _ (UInt32.le_iff_toNat_le.mpr h)
  rw [UInt32.le_iff_toNat_le, hsub, UInt16.toNat_toUInt32]
  omega

theorem threshold_le (h : m.minSample.toNat < 2 ^ 16) :
    m.minSample + noiseOffset ≤ sample.toUInt32 ↔ m.minSample.toNat + 100 ≤ sample.toNat := by
  have hadd : (m.minSample + noiseOffset).toNat = m.minSample.toNat + 100 := by
    rw [UInt32.toNat_add]
    exact Nat.mod_eq_of_lt (Nat.lt_trans (Nat.add_lt_add_right h 100) (by decide))
  rw [UInt32.le_iff_toNat_le, hadd, UInt16.toNat_toUInt32]

theorem toNat_max (a b : UInt32) : (if a < b then b else a).toNat = max a.toNat b.toNat := by
  split
  · next h => exact (Nat.max_eq_right (Nat.le_of_lt (UInt32.lt_iff_toNat_lt.mp h))).symm
  · next h => exact (Nat.max_eq_left (Nat.not_lt.mp (mt UInt32.lt_iff_toNat_lt.mpr h))).symm

theorem toNat_min (a b : UInt32) : (if b < a then b else a).toNat = min a.toNat b.toNat := by
  split
  · next h => exact (Nat.min_eq_right (Nat.le_of_lt (UInt32.lt_iff_toNat_lt.mp h))).symm
  · next h => exact (Nat.min_eq_left (Nat.not_lt.mp (mt UInt32.lt_iff_toNat_lt.mpr h))).symm

theorem Follows.turn (h : m.Follows p) (hturn : Zigzag.Turns 100 p sample.toNat) :
    (m.motionFrequencyCalculator sample).2 = some m.sampleCounter ∧
      (m.motionFrequencyCalculator sample).1.sampleCounter = 0 ∧
      (m.motionFrequencyCalculator sample).1.Follows (Zigzag.next 100 p sample.toNat) := by
  cases p with
  | rising top =>
    obtain ⟨hstate, rfl, hle, -⟩ := h
    have htrack : m.track sample = { m with sampleState := .finishedRising } := by
      simp only [track, hstate]
      exact if_pos ((le_threshold hle).mpr hturn)
    have hnext : Zigzag.next 100 (.rising m.maxSample.toNat) sample.toNat = .falling sample.toNat := if_pos hturn
    rw [motionFrequencyCalculator, htrack, hnext]
    exact ⟨rfl, rfl, rfl, UInt16.toNat_toUInt32 sample, sample.toNat_lt⟩
  | falling bottom =>
    obtain ⟨hstate, rfl, hlt⟩ := h
    have htrack : m.track sample = { m with sampleState := .finishedFalling } := by
      simp only [track, hstate]
      exact if_pos ((threshold_le hlt).mpr hturn)
    have hnext : Zigzag.next 100 (.falling m.minSample.toNat) sample.toNat = .rising sample.toNat := if_pos hturn
    rw [motionFrequencyCalculator, htrack, hnext]
    exact ⟨rfl, rfl, rfl, UInt16.toNat_toUInt32 sample, Nat.le_trans (Nat.le_add_left ..) hturn, sample.toNat_lt⟩

theorem Follows.steady (h : m.Follows p) (hturn : ¬ Zigzag.Turns 100 p sample.toNat) :
    (m.motionFrequencyCalculator sample).2 = none ∧
      (m.motionFrequencyCalculator sample).1.sampleCounter = m.sampleCounter + 1 ∧
      (m.motionFrequencyCalculator sample).1.Follows (Zigzag.next 100 p sample.toNat) := by
  cases p with
  | rising top =>
    obtain ⟨hstate, rfl, hle, hlt⟩ := h
    have htrack : m.track sample = { m with
        maxSample := if m.maxSample < sample.toUInt32 then sample.toUInt32 else m.maxSample
        sampleState := .rising
        sampleCounter := m.sampleCounter + 1 } := by
      simp only [track, hstate]
      exact if_neg (mt (le_threshold hle).mp hturn)
    have hnext : Zigzag.next 100 (.rising m.maxSample.toNat) sample.toNat =
        .rising (max m.maxSample.toNat sample.toNat) := if_neg hturn
    rw [motionFrequencyCalculator, htrack, hnext]
    refine ⟨rfl, rfl, rfl, ?_, Nat.le_trans hle (Nat.le_max_left ..), Nat.max_lt.mpr ⟨hlt, sample.toNat_lt⟩⟩
    rw [toNat_max, UInt16.toNat_toUInt32]
  | falling bottom =>
    obtain ⟨hstate, rfl, hlt⟩ := h
    have htrack : m.track sample = { m with
        minSample := if sample.toUInt32 < m.minSample then sample.toUInt32 else m.minSample
        sampleState := .falling
        sampleCounter := m.sampleCounter + 1 } := by
      simp only [track, hstate]
      exact if_neg (mt (threshold_le hlt).mp hturn)
    have hnext : Zigzag.next 100 (.falling m.minSample.toNat) sample.toNat =
        .falling (min m.minSample.toNat sample.toNat) := if_neg hturn
    rw [motionFrequencyCalculator, htrack, hnext]
    refine ⟨rfl, rfl, rfl, ?_, Nat.lt_of_le_of_lt (Nat.min_le_left ..) hlt⟩
    rw [toNat_min, UInt16.toNat_toUInt32]

/-! ## A stream -/

variable {samples start between : List UInt16}

theorem after_concat : after (samples ++ [sample]) = ((after samples).motionFrequencyCalculator sample).1 :=
  List.foldl_append

theorem signal_append : signal (start ++ between) = Zigzag.phase 100 (signal start) (between.map UInt16.toNat) := by
  rw [signal, List.map_append, Zigzag.phase_append]
  rfl

theorem follows (samples : List UInt16) : (after samples).Follows (signal samples) := by
  induction samples using List.reverseRecOn with
  | nil => exact ⟨rfl, rfl, by decide, by decide⟩
  | append_singleton samples sample ih =>
    rw [after_concat, signal_append]
    by_cases hturn : Zigzag.Turns 100 (signal samples) sample.toNat
    · exact (ih.turn hturn).2.2
    · exact (ih.steady hturn).2.2

theorem unwrapped_after (samples : List UInt16) : (after samples).Unwrapped := (follows samples).unwrapped

theorem sampleCounter_begins (h : Zigzag.Begins 100 (.rising 2024) (start.map UInt16.toNat)) :
    (after start).sampleCounter = 0 := by
  rcases List.eq_nil_or_concat start with rfl | ⟨before, sample, rfl⟩
  · rfl
  · rw [List.concat_eq_append] at h ⊢
    rw [List.map_append] at h
    rw [after_concat]
    exact ((follows before).turn (Zigzag.begins_concat.mp h)).2.1

theorem sampleCounter_swing (hbegins : Zigzag.Begins 100 (.rising 2024) (start.map UInt16.toNat))
    (hsteady : Zigzag.Steady 100 (signal start) (between.map UInt16.toNat)) :
    (after (start ++ between)).sampleCounter = UInt32.ofNat between.length := by
  induction between using List.reverseRecOn with
  | nil =>
    rw [List.append_nil]
    exact sampleCounter_begins hbegins
  | append_singleton between sample ih =>
    rw [List.map_append] at hsteady
    obtain ⟨hsteady, hturn⟩ := Zigzag.steady_concat.mp hsteady
    rw [← signal_append] at hturn
    rw [← List.append_assoc, after_concat, ((follows (start ++ between)).steady hturn).2.1, ih hsteady,
      List.length_append, UInt32.ofNat_add]
    rfl

theorem one_le_ofNat {n : Nat} : 1 ≤ UInt32.ofNat n ↔ ¬ 2 ^ 32 ∣ n := by
  rw [UInt32.le_iff_toNat_le, UInt32.toNat_ofNat', Nat.dvd_iff_mod_eq_zero]
  exact Nat.one_le_iff_ne_zero

/-- What a frequency is computed from is always defined if and only if no swing has a multiple
of `2 ^ 32` samples, as a swing of no samples has. -/
theorem frequency_defined_iff (samples : List UInt16) :
    (∀ before sample rest, samples = before ++ sample :: rest → (after before).Defined sample) ↔
      ∀ between, Zigzag.Swing 100 (.rising 2024) (samples.map UInt16.toNat) between → ¬ 2 ^ 32 ∣ between.length := by
  constructor
  · rintro h between ⟨start, x, rest, heq, hbegins, hsteady, hturn⟩
    obtain ⟨before, _, rfl, hbefore, hrest⟩ := List.map_eq_append_iff.mp heq
    obtain ⟨start, between, rfl, rfl, rfl⟩ := List.map_eq_append_iff.mp hbefore
    obtain ⟨sample, rest, rfl, rfl, rfl⟩ := List.map_eq_cons_iff.mp hrest
    rw [← List.map_append] at hturn
    have hcounter := ((follows (start ++ between)).turn hturn).1
    have hone := (h (start ++ between) sample rest rfl _ hcounter).1
    rw [sampleCounter_swing hbegins hsteady] at hone
    rw [List.length_map]
    exact one_le_ofNat.mp hone
  · rintro h before sample rest rfl counter hcounter
    refine ⟨?_, unwrapped_after before⟩
    by_cases hturn : Zigzag.Turns 100 (signal before) sample.toNat
    · rw [List.map_append, List.map_cons] at h
      obtain ⟨_, _, hbefore, hbegins, hsteady, hswing⟩ := Zigzag.exists_swing (rest.map UInt16.toNat) hturn
      obtain ⟨start, between, rfl, rfl, rfl⟩ := List.map_eq_append_iff.mp hbefore
      have hlength := h _ hswing
      rw [List.length_map] at hlength
      rw [((follows (start ++ between)).turn hturn).1, sampleCounter_swing hbegins hsteady] at hcounter
      rw [← Option.some.inj hcounter]
      exact one_le_ofNat.mpr hlength
    · rw [((follows before).steady hturn).1] at hcounter
      cases hcounter

/-- The signal may turn at the first sample. -/
theorem not_frequency_defined : ¬ ∀ samples before sample rest, samples = before ++ sample :: rest →
    (after before).Defined sample := fun h =>
  absurd (h [0] [] 0 [] rfl 0 (by decide)).1 (by decide)

end MotionFrequency

end Signpost
