/-
Times in the energy policy: when the elapsed part of a time is right, and when
the averages of an update are.

Where the alarm has wrapped, the ticks are counted from the last reading to
0xffffffff and from zero on, one too few. The milliseconds are computed in doubles:
`millis_near` says that they are those of the ticks rounded down, and only where the ticks
are a whole number of milliseconds perhaps one less; whole seconds (`millis_seconds`) are
always right. The averages are taken for as many whole periods as an hour has.
-/
import Mathlib.Algebra.Order.Floor.Semifield
import Signpost.EnergyUpdate

namespace Signpost

open Lib

namespace EnergyPolicy

/-! ## Milliseconds -/

section
variable {a : Arithmetic} {ticks f : Nat}

theorem millis_exact (ticks f : Nat) : millis .exact ticks f = 1000 * ticks / f := by
  have hquotient : (ticks : ℚ) / f * 1000 = (1000 * ticks : ℕ) / f := by
    push_cast
    ring
  rw [millis, Arithmetic.round, Arithmetic.round, hquotient, Nat.floor_div_eq_div]

theorem abs_double_sub_lt (hf : 0 < f) (hticks : ticks < 2 ^ 32) :
    |Floats.roundTo 53 (Floats.roundTo 53 ((ticks : ℚ) / f) * 1000) - (1000 * ticks : ℕ) / f| < 1 / f := by
  have hfpos : (0 : ℚ) < f := by exact_mod_cast hf
  have hquotient : (ticks : ℚ) / f * 1000 = (1000 * ticks : ℕ) / f := by
    push_cast
    ring
  have hnonneg : (0 : ℚ) ≤ (1000 * ticks : ℕ) / f := by positivity
  have hsmall : ((1000 * ticks : ℕ) : ℚ) * 3 < 2 ^ 53 := by exact_mod_cast (by omega : 1000 * ticks * 3 < 2 ^ 53)
  rw [← hquotient]
  refine lt_of_le_of_lt (Floats.abs_roundTo_mul_sub_le _ _) ?_
  rw [hquotient, abs_of_nonneg hnonneg, div_lt_iff₀ (by positivity), mul_div_assoc', div_lt_iff₀ hfpos,
    mul_right_comm, one_div_mul_cancel hfpos.ne']
  linarith

/-- The milliseconds are those of the ticks rounded down, or one less where the ticks are
whole milliseconds. -/
theorem millis_near (a : Arithmetic) (f : Nat) (hticks : ticks < 2 ^ 32) :
    millis a ticks f ≤ 1000 * ticks / f ∧ 1000 * ticks / f ≤ millis a ticks f + 1 ∧
      (¬ f ∣ 1000 * ticks → millis a ticks f = 1000 * ticks / f) := by
  cases a with
  | exact =>
    rw [millis_exact]
    exact ⟨Nat.le_refl _, Nat.le_succ _, fun _ => rfl⟩
  | double =>
    rcases Nat.eq_zero_or_pos f with rfl | hf
    · have hzero : millis .double ticks 0 = 0 := by
        simp [millis, Arithmetic.round, Floats.roundTo_zero]
      simp [hzero]
    · exact Floats.floor_near hf (abs_double_sub_lt hf hticks)

theorem millis_whole (a : Arithmetic) {k : Nat} (hf : 0 < f) (hk : k < 2 ^ 32) : millis a (f * k) f = 1000 * k := by
  have hfpos : (f : ℚ) ≠ 0 := by exact_mod_cast hf.ne'
  have hquotient : ((f * k : ℕ) : ℚ) / f = k := by rw [Nat.cast_mul, mul_div_cancel_left₀ _ hfpos]
  have hproduct : (k : ℚ) * 1000 = (1000 * k : ℕ) := by
    push_cast
    ring
  cases a with
  | exact => rw [millis_exact, Nat.mul_left_comm, Nat.mul_div_cancel_left _ hf]
  | double =>
    rw [millis, Arithmetic.round, Arithmetic.round, hquotient, Floats.roundTo_natCast (by omega), hproduct,
      Floats.roundTo_natCast (by omega), Nat.floor_natCast]

theorem millis_seconds (hticks : ticks < 2 ^ 32) : millis a ticks f / 1000 = ticks / f := by
  have hseconds : 1000 * ticks / f / 1000 = ticks / f := by
    rw [Nat.div_div_eq_div_mul, Nat.mul_comm f, Nat.mul_div_mul_left _ _ (by decide)]
  rcases Nat.eq_zero_or_pos f with rfl | hf
  · have hle := (millis_near a 0 hticks).1
    rw [Nat.div_zero] at hle ⊢
    rw [Nat.le_zero.mp hle]
  obtain ⟨hle, hge, heq⟩ := millis_near a f hticks
  by_cases hdvd : f ∣ 1000 * ticks
  · by_cases hwhole : 1000 ∣ 1000 * ticks / f
    · obtain ⟨k, hk⟩ := hwhole
      have hticksk : ticks = f * k := by
        have hmul := Nat.div_mul_cancel hdvd
        rw [hk, Nat.mul_assoc] at hmul
        rw [Nat.mul_comm f]
        exact (Nat.eq_of_mul_eq_mul_left (by decide) hmul).symm
      have hle : k ≤ ticks := hticksk ▸ Nat.le_mul_of_pos_left k hf
      rw [hticksk, millis_whole a hf (by omega), Nat.mul_div_cancel_left _ (by decide), Nat.mul_div_cancel_left _ hf]
    · omega
  · rw [heq hdvd, hseconds]

theorem millis_mono {ticks' : Nat} (h : ticks ≤ ticks') (hticks : ticks' < 2 ^ 32) :
    millis a ticks f ≤ millis a ticks' f := by
  rcases Nat.eq_or_lt_of_le h with rfl | hlt
  · exact Nat.le_refl _
  obtain ⟨hle, -, -⟩ := millis_near a f (Nat.lt_of_le_of_lt h hticks)
  obtain ⟨-, hge, heq⟩ := millis_near a f hticks
  have hfloor : 1000 * ticks / f ≤ 1000 * ticks' / f := Nat.div_le_div_right (Nat.mul_le_mul_left 1000 h)
  by_cases hdvd : f ∣ 1000 * ticks'
  · -- The floor grows to the whole number of milliseconds, of which at most one is missing.
    rcases Nat.eq_zero_or_pos f with rfl | hf
    · rw [Nat.div_zero] at hle
      omega
    · have hgrows : 1000 * ticks / f < 1000 * ticks' / f := by
        rw [Nat.div_lt_iff_lt_mul hf, Nat.div_mul_cancel hdvd]
        omega
      omega
  · rw [heq hdvd]
    exact Nat.le_trans hle hfloor

end

/-! ## Elapsed time -/

section
variable (r : Readings) (last : UInt32)

/-- The ticks of the alarm since it read this. -/
def elapsed : Nat := (r.alarm - last).toNat

/-- The ticks that are counted: the alarm has wrapped if it reads less. -/
def counted : Nat := if r.alarm < last then elapsed r last - 1 else elapsed r last

theorem elapsed_pos (h : r.alarm < last) : 0 < elapsed r last := by
  have hlt := UInt32.lt_iff_toNat_lt.mp h
  have hlast := last.toNat_lt
  rw [elapsed, UInt32.toNat_sub]
  omega

theorem counted_le : counted r last ≤ elapsed r last := by
  unfold counted
  split <;> omega

theorem counted_lt : counted r last < 2 ^ 32 :=
  Nat.lt_of_le_of_lt (counted_le r last) (UInt32.toNat_lt _)

theorem timeSince_eq : timeSince r last = UInt32.ofNat (millis r.arithmetic (counted r last) r.alarmFrequency) := by
  have hticks : (if r.alarm < last then 0xffffffff - last + r.alarm else r.alarm - last).toNat = counted r last := by
    unfold counted elapsed
    by_cases h : r.alarm < last
    · have hlt := UInt32.lt_iff_toNat_lt.mp h
      have hlast := last.toNat_lt
      have hall : (0xffffffff : UInt32).toNat = 0xffffffff := rfl
      rw [if_pos h, if_pos h, UInt32.toNat_add, UInt32.toNat_sub, UInt32.toNat_sub, hall]
      omega
    · rw [if_neg h, if_neg h]
  rw [← hticks]
  rfl

/-- A number of milliseconds is what has elapsed. -/
def ExactSince (ms : UInt32) : Prop := ms.toNat = 1000 * elapsed r last / r.alarmFrequency

instance (ms : UInt32) : Decidable (ExactSince r last ms) := inferInstanceAs (Decidable (_ = _))

/-- The tick that is not counted takes no millisecond away. -/
def TickToSpare : Prop := r.alarm < last → 1000 ≤ 1000 * elapsed r last % r.alarmFrequency

/-- What has elapsed fits in 32 bits. -/
def Fits : Prop := 1000 * elapsed r last / r.alarmFrequency < 2 ^ 32

end

theorem floor_pred_iff {ticks f : Nat} (hf : 0 < f) (hticks : 0 < ticks) :
    1000 * (ticks - 1) / f = 1000 * ticks / f ↔ 1000 ≤ 1000 * ticks % f := by
  have hdiv := Nat.div_add_mod (1000 * ticks) f
  have hmod := Nat.mod_lt (1000 * ticks) hf
  rw [Nat.div_eq_iff hf]
  generalize 1000 * ticks / f = q at hdiv ⊢
  rw [Nat.mul_comm] at hdiv
  omega

section
variable (p : EnergyPolicy) {r : Readings} {last : UInt32} (hf : 0 < r.alarmFrequency)
include hf

theorem timeSince_exact_iff (hexact : r.arithmetic = .exact) (hfits : Fits r last) :
    ExactSince r last (timeSince r last) ↔ TickToSpare r last := by
  have hle : 1000 * counted r last / r.alarmFrequency ≤ 1000 * elapsed r last / r.alarmFrequency :=
    Nat.div_le_div_right (Nat.mul_le_mul_left 1000 (counted_le r last))
  unfold ExactSince TickToSpare
  rw [timeSince_eq, hexact, millis_exact, UInt32.toNat_ofNat_of_lt' (Nat.lt_of_le_of_lt hle hfits)]
  unfold counted
  split
  · next h =>
    rw [floor_pred_iff hf (elapsed_pos r last h)]
    exact ⟨fun hspare _ => hspare, fun hspare => hspare h⟩
  · next h => exact ⟨fun _ hw => absurd hw h, fun _ => rfl⟩

/-- Where the elapsed time fits, and with exact arithmetic, the four places that compute it
are right exactly if the alarm has not wrapped, or the tick that is lost then takes no
millisecond away. -/
theorem elapsed_exact_iff (hexact : r.arithmetic = .exact) :
    (∀ last : UInt32, Fits r last → (ExactSince r last (timeSince r last) ↔ TickToSpare r last)) ∧
      (Fits r p.energyResetStartTime.controller →
        (ExactSince r p.energyResetStartTime.controller
            (p.getTimeSinceControllerReset r - p.timeSinceReset.controller) ↔
          TickToSpare r p.energyResetStartTime.controller)) ∧
      (Fits r p.energyResetStartTime.linux →
        (ExactSince r p.energyResetStartTime.linux (p.getTimeSinceLinuxReset r - p.timeSinceReset.linux) ↔
          TickToSpare r p.energyResetStartTime.linux)) ∧
      ∀ m, Fits r (p.energyResetStartTime.modules m) →
        (ExactSince r (p.energyResetStartTime.modules m)
            (p.getTimeSinceModuleReset r m - p.timeSinceReset.modules m) ↔
          TickToSpare r (p.energyResetStartTime.modules m)) := by
  have hgetter : ∀ stored last, Fits r last →
      (ExactSince r last (stored + timeSince r last - stored) ↔ TickToSpare r last) := by
    intro stored last hfits
    rw [UInt32.add_comm, UInt32.add_sub_cancel]
    exact timeSince_exact_iff hf hexact hfits
  exact ⟨fun _ => timeSince_exact_iff hf hexact, hgetter _ _, hgetter _ _, fun m => hgetter _ _⟩

end

/-- The alarm reads this, and the arithmetic is exact. -/
def alarmReadings (alarm : UInt32) : Readings := { idleReadings 0 with alarm, arithmetic := .exact }

/-- Of 17 ticks around the wrap one can be lost, of 16 not. -/
theorem elapsed_exact_iff_at_wrap :
    ExactSince (alarmReadings 7) 0xfffffff6 (timeSince (alarmReadings 7) 0xfffffff6) ∧
      ¬ ExactSince (alarmReadings 6) 0xfffffff6 (timeSince (alarmReadings 6) 0xfffffff6) := by
  have hspare := (elapsed_exact_iff boot (r := alarmReadings 7) (by decide) rfl).1 0xfffffff6
    (by unfold Fits; decide +kernel)
  have hnone := (elapsed_exact_iff boot (r := alarmReadings 6) (by decide) rfl).1 0xfffffff6
    (by unfold Fits; decide +kernel)
  exact ⟨hspare.mpr (by unfold TickToSpare; decide +kernel), mt hnone.mp (by unfold TickToSpare; decide +kernel)⟩

/-- 16 ticks of 16 kHz are a millisecond, but not around the wrap. -/
theorem millisecond_lost_at_wrap :
    0 < (alarmReadings 6).alarmFrequency ∧ Fits (alarmReadings 6) 0xfffffff6 ∧
      ¬ ExactSince (alarmReadings 6) 0xfffffff6 (timeSince (alarmReadings 6) 0xfffffff6) := by
  unfold Fits
  decide +kernel

/-! ## Averages -/

section
variable (p : EnergyPolicy) (r : Readings)

/-- The figures of all that is metered. -/
def figures (f : Figures Int) : List Int := f.controller :: f.linux :: metered.map f.modules

/-- What was used since the last update, with what reports moved. -/
def periodEnergy : Figures Int where
  controller := p.virtualEnergyAverage.controller + r.controller
  linux := p.virtualEnergyAverage.linux + r.linux
  modules m := p.virtualEnergyAverage.modules m + r.modules m

/-- The whole seconds since the last update. -/
def wholeSeconds : Nat := elapsed r p.lastEnergyUpdateTime / r.alarmFrequency

/-- The tick that is not counted takes a second away. -/
def SecondShort : Prop :=
  r.alarm < p.lastEnergyUpdateTime ∧ r.alarmFrequency ∣ elapsed r p.lastEnergyUpdateTime

instance : Decidable (p.SecondShort r) := inferInstanceAs (Decidable (_ ∧ _))

/-- An average is within 1 of the energy times 3600, divided by the seconds. -/
def Accurate (seconds : Nat) (energy average : Int) : Prop :=
  (average * seconds - energy * 3600).natAbs ≤ seconds

instance (seconds : Nat) (energy average : Int) : Decidable (Accurate seconds energy average) := Nat.decLe ..

/-- The seconds by which the whole periods in an hour miss the hour. -/
def hourError : Nat :=
  if p.SecondShort r then
    ((p.wholeSeconds r : Int) * (3600 / (p.wholeSeconds r - 1) : Nat) - 3600).natAbs
  else 3600 % p.wholeSeconds r

theorem counted_seconds :
    counted r p.lastEnergyUpdateTime / r.alarmFrequency =
      if p.SecondShort r then p.wholeSeconds r - 1 else p.wholeSeconds r := by
  unfold counted wholeSeconds
  by_cases hwrap : r.alarm < p.lastEnergyUpdateTime
  · have hpred : (elapsed r p.lastEnergyUpdateTime - 1) / r.alarmFrequency =
        elapsed r p.lastEnergyUpdateTime / r.alarmFrequency -
          if r.alarmFrequency ∣ elapsed r p.lastEnergyUpdateTime then 1 else 0 := by
      obtain ⟨n, hn⟩ := Nat.exists_eq_add_one.mpr (elapsed_pos r p.lastEnergyUpdateTime hwrap)
      rw [hn, Nat.add_sub_cancel, Nat.succ_div, Nat.add_sub_cancel]
    rw [if_pos hwrap, hpred]
    by_cases hdvd : r.alarmFrequency ∣ elapsed r p.lastEnergyUpdateTime
    · rw [if_pos hdvd, if_pos (show p.SecondShort r from ⟨hwrap, hdvd⟩)]
    · rw [if_neg hdvd, if_neg fun h : p.SecondShort r => hdvd h.2, Nat.sub_zero]
  · rw [if_neg hwrap, if_neg fun h : p.SecondShort r => hwrap h.1]

theorem updatePeriod_eq (hfits : 1000 * elapsed r p.lastEnergyUpdateTime / r.alarmFrequency < 2 ^ 31) :
    p.updatePeriod r = (counted r p.lastEnergyUpdateTime / r.alarmFrequency : Nat) := by
  have hlt := counted_lt r p.lastEnergyUpdateTime
  have hle : millis r.arithmetic (counted r p.lastEnergyUpdateTime) r.alarmFrequency < 2 ^ 31 := by
    refine Nat.lt_of_le_of_lt (Nat.le_trans (millis_near _ _ hlt).1 ?_) hfits
    exact Nat.div_le_div_right (Nat.mul_le_mul_left 1000 (counted_le ..))
  rw [updatePeriod, timeSince_eq, UInt32.toInt32_ofNat', Int32.toInt_ofNat_of_lt hle]
  exact (Int.ofNat_tdiv _ 1000).symm.trans (by rw [millis_seconds hlt])

theorem figures_averages :
    figures (p.averages r) = (figures (p.periodEnergy r)).map (· * Int.tdiv 3600 (p.updatePeriod r)) := by
  simp [figures, averages, periodEnergy, metered]

theorem accurate_mul_iff (seconds : Nat) (energy periods : Int) :
    Accurate seconds energy (energy * periods) ↔
      energy.natAbs * ((seconds : Int) * periods - 3600).natAbs ≤ seconds := by
  have hfactor : energy * periods * seconds - energy * 3600 = energy * ((seconds : Int) * periods - 3600) := by
    rw [Int.mul_sub, Int.mul_assoc, Int.mul_comm periods]
  rw [Accurate, hfactor, Int.natAbs_mul]

theorem hourError_eq :
    ((p.wholeSeconds r : Int) * (3600 / (if p.SecondShort r then p.wholeSeconds r - 1 else p.wholeSeconds r) : Nat) -
        3600).natAbs = p.hourError r := by
  unfold hourError
  split
  · rfl
  · have hdiv := Nat.div_add_mod 3600 (p.wholeSeconds r)
    rw [← Int.natCast_mul]
    omega

/-- Where the milliseconds of the period fit in an `int`, an update divides by a
period of at least a second and sets accurate averages exactly if the period is at
least a second as it is counted, and no energy is so large that it shows by how
much the whole periods in an hour miss the hour. -/
theorem averages_accurate_iff (hfits : 1000 * elapsed r p.lastEnergyUpdateTime / r.alarmFrequency < 2 ^ 31) :
    (p.updatePeriod r ≠ 0 ∧
        List.Forall₂ (Accurate (p.wholeSeconds r)) (figures (p.periodEnergy r))
          (figures (p.updateEnergy r).energyAverage)) ↔
      (if p.SecondShort r then 2 ≤ p.wholeSeconds r else 1 ≤ p.wholeSeconds r) ∧
        ∀ energy ∈ figures (p.periodEnergy r), energy.natAbs * p.hourError r ≤ p.wholeSeconds r := by
  have hperiod := p.updatePeriod_eq r hfits
  rw [counted_seconds] at hperiod
  have hdefined : p.updatePeriod r ≠ 0 ↔
      if p.SecondShort r then 2 ≤ p.wholeSeconds r else 1 ≤ p.wholeSeconds r := by
    rw [hperiod]
    split <;> omega
  have haverages : (p.updateEnergy r).energyAverage = p.averages r := rfl
  have hperiods : Int.tdiv 3600 (p.updatePeriod r) =
      (3600 / (if p.SecondShort r then p.wholeSeconds r - 1 else p.wholeSeconds r) : Nat) := by
    rw [hperiod]
    exact (Int.ofNat_tdiv ..).symm
  rw [hdefined, haverages, figures_averages, List.forall₂_map_right_iff, List.forall₂_same, hperiods]
  simp only [accurate_mul_iff, hourError_eq]

end

/-- Every counter has counted for 7 seconds. -/
def sevenSeconds : Readings := { busyReadings with alarm := 112000 }

/-- Every counter has counted for 10 seconds, of which an hour has a whole number. -/
def tenSeconds : Readings := { busyReadings with alarm := 160000 }

/-- The averages of 10 seconds are accurate, those of 7 are not. -/
theorem averages_accurate_iff_seven :
    (samplePolicy.updatePeriod tenSeconds ≠ 0 ∧
        List.Forall₂ (Accurate (samplePolicy.wholeSeconds tenSeconds))
          (figures (samplePolicy.periodEnergy tenSeconds))
          (figures (samplePolicy.updateEnergy tenSeconds).energyAverage)) ∧
      ¬ (samplePolicy.updatePeriod sevenSeconds ≠ 0 ∧
        List.Forall₂ (Accurate (samplePolicy.wholeSeconds sevenSeconds))
          (figures (samplePolicy.periodEnergy sevenSeconds))
          (figures (samplePolicy.updateEnergy sevenSeconds).energyAverage)) :=
  ⟨(averages_accurate_iff samplePolicy tenSeconds (by decide +kernel)).mpr (by decide +kernel),
    mt (averages_accurate_iff samplePolicy sevenSeconds (by decide +kernel)).mp (by decide +kernel)⟩

/-- An hour is 514 periods of 7 seconds and 2 more, which shows with 100 uWh; and it
is no number of periods of 0. -/
theorem averages_inaccurate_seven :
    samplePolicy.wholeSeconds sevenSeconds = 7 ∧
      ¬ List.Forall₂ (Accurate (samplePolicy.wholeSeconds sevenSeconds))
        (figures (samplePolicy.periodEnergy sevenSeconds))
        (figures (samplePolicy.updateEnergy sevenSeconds).energyAverage) ∧
      samplePolicy.updatePeriod { idleReadings 0 with alarm := 15999 } = 0 := by
  refine ⟨by decide +kernel, fun h => ?_, by decide +kernel⟩
  obtain ⟨hcontroller, -⟩ := List.forall₂_cons.mp h
  exact absurd hcontroller (by decide +kernel)

end EnergyPolicy

end Signpost
