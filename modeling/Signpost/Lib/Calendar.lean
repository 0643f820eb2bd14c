/-
The Gregorian calendar in UTC: the seconds since the beginning of 1970, as POSIX computes
them from the fields of a time, and the calendar's own next day and next second.

The fields are taken as they are: months and days that are outside their year and month
count on into others.

The two are connected by induction on days: the seconds of the next day are a day's more, over leap
years and centuries, so the count of a moment some seconds later is so much greater.
-/
import Mathlib.Algebra.Group.Int.Defs
import Mathlib.Logic.Function.Iterate
import Mathlib.Tactic.IntervalCases

namespace Lib.Calendar

def Leap (year : Int) : Prop := year % 4 = 0 ∧ (year % 100 ≠ 0 ∨ year % 400 = 0)

instance : DecidablePred Leap := fun _ => instDecidableAnd

/-! ## Counting -/

/-- The days from 1970 to the beginning of a year. -/
def daysBeforeYear (year : Int) : Int :=
  365 * (year - 1970) + (year - 1969) / 4 - (year - 1901) / 100 + (year - 1601) / 400

/-- The days of a year before a month, which is counted from 0. -/
def daysBeforeMonth (year : Int) (mon : Nat) : Int :=
  [0, 31, 59, 90, 120, 151, 181, 212, 243, 273, 304, 334].getD mon 0 + if 2 ≤ mon ∧ Leap year then 1 else 0

/-- The days from the beginning of 1970, of a month that is counted from 0. -/
def days (year mon mday : Int) : Int :=
  daysBeforeYear (year + mon / 12) + daysBeforeMonth (year + mon / 12) (mon % 12).toNat + (mday - 1)

def seconds (year mon mday hour min sec : Int) : Int := days year mon mday * 86400 + hour * 3600 + min * 60 + sec

/-! ## The calendar -/

def monthLength (year month : Int) : Int :=
  if month = 2 then if Leap year then 29 else 28
  else if month = 4 ∨ month = 6 ∨ month = 9 ∨ month = 11 then 30 else 31

structure Moment where
  year : Int
  month : Int
  day : Int
  hour : Int
  minute : Int
  second : Int
  deriving DecidableEq

namespace Moment

structure Valid (m : Moment) : Prop where
  month : 1 ≤ m.month ∧ m.month ≤ 12
  day : 1 ≤ m.day ∧ m.day ≤ monthLength m.year m.month
  hour : 0 ≤ m.hour ∧ m.hour ≤ 23
  minute : 0 ≤ m.minute ∧ m.minute ≤ 59
  second : 0 ≤ m.second ∧ m.second ≤ 59

def nextDay (m : Moment) : Moment :=
  if m.day < monthLength m.year m.month then ⟨m.year, m.month, m.day + 1, 0, 0, 0⟩
  else if m.month < 12 then ⟨m.year, m.month + 1, 1, 0, 0, 0⟩
  else ⟨m.year + 1, 1, 1, 0, 0, 0⟩

def tick (m : Moment) : Moment :=
  if m.second < 59 then { m with second := m.second + 1 }
  else if m.minute < 59 then { m with minute := m.minute + 1, second := 0 }
  else if m.hour < 23 then { m with hour := m.hour + 1, minute := 0, second := 0 }
  else m.nextDay

/-- The seconds from the beginning of 1970. -/
def epoch (m : Moment) : Int := seconds m.year (m.month - 1) m.day m.hour m.minute m.second

end Moment

/-! ## What the count has of the calendar -/

section
variable {year month : Int} {m : Moment}

theorem daysBeforeYear_succ (year : Int) :
    daysBeforeYear (year + 1) = daysBeforeYear year + 365 + if Leap year then 1 else 0 := by
  by_cases hleap : Leap year
  · rw [if_pos hleap]
    unfold Leap at hleap
    unfold daysBeforeYear
    omega
  · rw [if_neg hleap]
    unfold Leap at hleap
    unfold daysBeforeYear
    omega

theorem monthLength_pos (year month : Int) : 1 ≤ monthLength year month := by
  unfold monthLength
  split_ifs <;> decide

theorem days_of_month (mday : Int) (h : 1 ≤ month ∧ month ≤ 12) :
    days year (month - 1) mday = daysBeforeYear year + daysBeforeMonth year (month - 1).toNat + (mday - 1) := by
  rw [days, Int.ediv_eq_zero_of_lt (by omega) (by omega), Int.emod_eq_of_lt (by omega) (by omega), Int.add_zero]

theorem daysBeforeMonth_succ (year : Int) (h : 1 ≤ month ∧ month < 12) :
    daysBeforeMonth year month.toNat = daysBeforeMonth year (month - 1).toNat + monthLength year month := by
  obtain ⟨hlow, hhigh⟩ := h
  interval_cases month <;> by_cases hleap : Leap year <;> simp [daysBeforeMonth, monthLength, hleap]

theorem daysBeforeMonth_december (year : Int) :
    daysBeforeMonth year 11 + 31 = 365 + if Leap year then 1 else 0 := by
  by_cases hleap : Leap year <;> simp [daysBeforeMonth, hleap]

theorem days_nextDay (h : m.Valid) :
    days m.nextDay.year (m.nextDay.month - 1) m.nextDay.day = days m.year (m.month - 1) m.day + 1 := by
  have hday := h.day
  rw [days_of_month _ h.month, Moment.nextDay]
  split_ifs with hmonth hyear
  · rw [days_of_month _ h.month]
    dsimp only
    omega
  · have hnext := daysBeforeMonth_succ m.year ⟨h.month.1, hyear⟩
    have hlow := h.month.1
    rw [days_of_month _ (by dsimp only; omega)]
    dsimp only
    rw [Int.add_sub_cancel]
    omega
  · have hdecember : m.month = 12 := by
      have hlow := h.month
      omega
    have hlength : monthLength m.year m.month = 31 := by
      rw [hdecember]
      rfl
    have hsucc := daysBeforeYear_succ m.year
    have hlast := daysBeforeMonth_december m.year
    have hfirst : daysBeforeMonth (m.year + 1) (1 - 1 : Int).toNat = 0 := rfl
    rw [days_of_month _ (show (1 : Int) ≤ 1 ∧ (1 : Int) ≤ 12 by decide)]
    dsimp only
    rw [hfirst, hdecember, show ((12 : Int) - 1).toNat = 11 from rfl]
    omega

theorem Moment.Valid.nextDay (h : m.Valid) : m.nextDay.Valid := by
  have hday := h.day
  have hmonth := h.month
  have hhour : (0 : Int) ≤ 0 ∧ (0 : Int) ≤ 23 := by decide
  have hminute : (0 : Int) ≤ 0 ∧ (0 : Int) ≤ 59 := by decide
  have hfirst : ∀ y month, (1 : Int) ≤ 1 ∧ 1 ≤ monthLength y month :=
    fun y month => ⟨by decide, monthLength_pos y month⟩
  unfold Moment.nextDay
  split_ifs
  · exact ⟨h.month, by dsimp only; omega, hhour, hminute, hminute⟩
  · exact ⟨by dsimp only; omega, hfirst _ _, hhour, hminute, hminute⟩
  · exact ⟨by dsimp only; omega, hfirst _ _, hhour, hminute, hminute⟩

theorem Moment.Valid.tick (h : m.Valid) : m.tick.Valid := by
  have hhour := h.hour
  have hminute := h.minute
  have hsecond := h.second
  unfold Moment.tick
  split_ifs
  · exact ⟨h.month, h.day, hhour, hminute, by dsimp only; omega⟩
  · exact ⟨h.month, h.day, hhour, by dsimp only; omega, by dsimp only; omega⟩
  · exact ⟨h.month, h.day, by dsimp only; omega, by dsimp only; omega, by dsimp only; omega⟩
  · exact h.nextDay

theorem epoch_tick (h : m.Valid) : m.tick.epoch = m.epoch + 1 := by
  have hhour := h.hour
  have hminute := h.minute
  have hsecond := h.second
  unfold Moment.tick
  split_ifs
  · simp only [Moment.epoch, seconds]
    omega
  · simp only [Moment.epoch, seconds]
    omega
  · simp only [Moment.epoch, seconds]
    omega
  · have hzero : m.nextDay.hour = 0 ∧ m.nextDay.minute = 0 ∧ m.nextDay.second = 0 := by
      unfold Moment.nextDay
      split_ifs <;> exact ⟨rfl, rfl, rfl⟩
    simp only [Moment.epoch, seconds, days_nextDay h, hzero]
    omega

theorem Moment.Valid.iterate_tick (h : m.Valid) (n : Nat) : (Moment.tick^[n] m).Valid := by
  induction n with
  | zero => exact h
  | succ n ih =>
    rw [Function.iterate_succ_apply']
    exact ih.tick

/-- **The count is a clock**: after `n` seconds of the calendar it is `n` more. -/
theorem epoch_iterate_tick (h : m.Valid) (n : Nat) : (Moment.tick^[n] m).epoch = m.epoch + n := by
  induction n with
  | zero => exact (Int.add_zero _).symm
  | succ n ih =>
    rw [Function.iterate_succ_apply', epoch_tick (h.iterate_tick n), ih]
    omega

theorem epoch_century_lt (h : m.Valid) : ({ m with year := m.year - 100 } : Moment).epoch < m.epoch := by
  have hmonth : ∀ y, 0 ≤ daysBeforeMonth y (m.month - 1).toNat - daysBeforeMonth m.year (m.month - 1).toNat + 1 := by
    intro y
    unfold daysBeforeMonth
    split_ifs <;> omega
  have hyear : daysBeforeYear (m.year - 100) + 36000 ≤ daysBeforeYear m.year := by
    unfold daysBeforeYear
    omega
  have hother : daysBeforeMonth (m.year - 100) (m.month - 1).toNat ≤
      daysBeforeMonth m.year (m.month - 1).toNat + 1 := by
    unfold daysBeforeMonth
    split_ifs <;> omega
  simp only [Moment.epoch, seconds, days_of_month _ h.month]
  omega

end

/-- The beginning of 1970, and a leap day. -/
example : (⟨1970, 1, 1, 0, 0, 0⟩ : Moment).epoch = 0 ∧ (⟨2016, 2, 28, 23, 59, 59⟩ : Moment).tick =
    ⟨2016, 2, 29, 0, 0, 0⟩ := by decide

end Lib.Calendar
