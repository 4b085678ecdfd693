import Mathlib.Data.Int.Basic
import Mathlib.Tactic.IntervalCases

/-!
# The proleptic Gregorian calendar

Dates and day numbers, counted from 1 January of year 1. Years are integers, so
the calendar runs in both directions without a gap. Day numbers are turned into
dates one 400-year era at a time, with years starting in March: the leap day is
then the last day of its year and never shifts a month boundary.

## Main definitions

* `Gregorian.Date` — a year, a month and a day
* `Gregorian.daysIn` — the length of a month
* `Gregorian.ofDays` / `Gregorian.toDays` — the two conversions

## Main results

* `Gregorian.toDays_ofDays` — no day number is lost
* `Gregorian.ofDays_valid` — every day number names a day its month has
* `Gregorian.before_ofDays` — later days have later dates
-/

namespace Gregorian

/-- A calendar date; `month` counts from 1. -/
structure Date where
  year : Int
  month : Nat
  day : Nat
  deriving DecidableEq, Repr

/-- Whether a year has a leap day. -/
def isLeap (y : Int) : Bool := y % 4 = 0 && (y % 100 ≠ 0 || y % 400 = 0)

/-- The number of days in a month. -/
def daysIn (month : Nat) (y : Int) : Nat :=
  if month = 2 then if isLeap y then 29 else 28
  else if month = 4 ∨ month = 6 ∨ month = 9 ∨ month = 11 then 30
  else 31

/-- The date falls on a day that its month has. -/
def Date.Valid (d : Date) : Prop :=
  1 ≤ d.month ∧ d.month ≤ 12 ∧ 1 ≤ d.day ∧ d.day ≤ daysIn d.month d.year

instance (d : Date) : Decidable d.Valid := by unfold Date.Valid; infer_instance

/-! ### Within one era

An era is 400 March years of 146097 days in all. It is cut into four centuries,
a century into four-year cycles, a cycle into years; the last piece of each cut
may be a day longer than the others. -/

/-- The century of the era, 0 to 3. -/
def century (doe : Int) : Int := doe / 36524 - doe / 36524 / 4

/-- The day within the century. -/
def dayOfCentury (doe : Int) : Int := doe - 36524 * century doe

/-- The four-year cycle of the century. -/
def cycle (doe : Int) : Int := dayOfCentury doe / 1461

/-- The day within the four-year cycle. -/
def dayOfCycle (doe : Int) : Int := dayOfCentury doe % 1461

/-- The year of the four-year cycle, 0 to 3. -/
def yearOfCycle (doe : Int) : Int := dayOfCycle doe / 365 - dayOfCycle doe / 365 / 4

/-- The March year of the era. -/
def yearOfEra (doe : Int) : Int := 100 * century doe + 4 * cycle doe + yearOfCycle doe

/-- The day of the March year. -/
def dayOfYear (doe : Int) : Int := dayOfCycle doe - 365 * yearOfCycle doe

/-- The month of the March year, counted from 0 for March. -/
def monthOfYear (doy : Int) : Int := (5 * doy + 2) / 153

/-- The day of the March year on which a month starts. -/
def monthStart (mp : Int) : Int := (153 * mp + 2) / 5

/-- The calendar month, counted from 1 for January, of a month counted from March. -/
def calendarMonth (mp : Int) : Int := if mp < 10 then mp + 3 else mp - 9

theorem yearOfCycle_bounds (doe : Int) : 0 ≤ yearOfCycle doe ∧ yearOfCycle doe ≤ 3 := by
  unfold yearOfCycle dayOfCycle
  omega

theorem dayOfYear_bounds (doe : Int) : 0 ≤ dayOfYear doe ∧ dayOfYear doe ≤ 365 := by
  unfold dayOfYear yearOfCycle dayOfCycle
  omega

section Era

variable {doe : Int} (h0 : 0 ≤ doe) (h1 : doe < 146097)
include h0 h1

theorem century_bounds : 0 ≤ century doe ∧ century doe ≤ 3 := by
  unfold century
  omega

theorem dayOfCentury_bounds : 0 ≤ dayOfCentury doe ∧
    (dayOfCentury doe < 36524 ∨ dayOfCentury doe = 36524 ∧ century doe = 3) := by
  unfold dayOfCentury century
  omega

theorem cycle_bounds : 0 ≤ cycle doe ∧ cycle doe ≤ 24 := by
  have := dayOfCentury_bounds h0 h1
  unfold cycle
  omega

theorem yearOfEra_bounds : 0 ≤ yearOfEra doe ∧ yearOfEra doe < 400 := by
  have hc := century_bounds h0 h1
  have hq := cycle_bounds h0 h1
  have hr := yearOfCycle_bounds doe
  unfold yearOfEra
  omega

/-- The 366th day of a March year exists only where the next calendar year is a
leap year. -/
theorem isLeap_of_dayOfYear_eq (h : dayOfYear doe = 365) :
    isLeap (yearOfEra doe + 1) = true := by
  have hc := century_bounds h0 h1
  have hd := dayOfCentury_bounds h0 h1
  have hq := cycle_bounds h0 h1
  have hr : yearOfCycle doe = 3 := by
    unfold dayOfYear yearOfCycle dayOfCycle at *
    omega
  have hlast : cycle doe = 24 → century doe = 3 := by
    intro h24
    unfold dayOfYear yearOfCycle dayOfCycle cycle at *
    omega
  have hyear : yearOfEra doe + 1 = 100 * century doe + 4 * cycle doe + 4 := by
    unfold yearOfEra
    omega
  rw [hyear]
  simp only [isLeap, Bool.and_eq_true, Bool.or_eq_true, decide_eq_true_eq]
  omega

/-- The closed form of the number of days before a March year of the era. -/
theorem yearStart_add_dayOfYear :
    365 * yearOfEra doe + yearOfEra doe / 4 - yearOfEra doe / 100 + dayOfYear doe = doe := by
  have hc := century_bounds h0 h1
  have hq := cycle_bounds h0 h1
  have hr := yearOfCycle_bounds doe
  have h4 : yearOfEra doe / 4 = 25 * century doe + cycle doe := by
    unfold yearOfEra
    omega
  have h100 : yearOfEra doe / 100 = century doe := by
    unfold yearOfEra
    omega
  rw [h4, h100]
  unfold yearOfEra dayOfYear dayOfCycle cycle dayOfCentury
  omega

end Era

theorem monthOfYear_bounds {doy : Int} (h0 : 0 ≤ doy) (h1 : doy ≤ 365) :
    0 ≤ monthOfYear doy ∧ monthOfYear doy ≤ 11 := by
  unfold monthOfYear
  omega

theorem monthStart_monthOfYear_le (doy : Int) : monthStart (monthOfYear doy) ≤ doy := by
  unfold monthStart monthOfYear
  omega

/-! ### Dates and day numbers -/

/-- The date of the day `n` days after 1 January of year 1. -/
def ofDays (n : Int) : Date :=
  let z := n + 306
  let doe := z % 146097
  let doy := dayOfYear doe
  let mp := monthOfYear doy
  { year := yearOfEra doe + 400 * (z / 146097) + (if mp < 10 then 0 else 1)
    month := (calendarMonth mp).toNat
    day := (doy - monthStart mp + 1).toNat }

/-- The number of days from 1 January of year 1 to a date. -/
def toDays (d : Date) : Int :=
  let y := if d.month ≤ 2 then d.year - 1 else d.year
  let mp : Int := if d.month ≤ 2 then d.month + 9 else d.month - 3
  let yoe := y % 400
  146097 * (y / 400) + (365 * yoe + yoe / 4 - yoe / 100) +
    (monthStart mp + (d.day - 1)) - 306

/-- `toDays` on a date given by its March year, March month and day. -/
theorem toDays_of_march {yoe era mp : Int} (hy : 0 ≤ yoe ∧ yoe < 400) (hm : 0 ≤ mp ∧ mp ≤ 11)
    (day : Nat) :
    toDays ⟨yoe + 400 * era + (if mp < 10 then 0 else 1), (calendarMonth mp).toNat, day⟩ =
      146097 * era + (365 * yoe + yoe / 4 - yoe / 100) + (monthStart mp + (day - 1)) - 306 := by
  simp only [toDays, calendarMonth]
  have hmod : (yoe + 400 * era) % 400 = yoe := by omega
  have hdiv : (yoe + 400 * era) / 400 = era := by omega
  by_cases h : mp < 10
  · have hle : ¬ ((mp + 3).toNat ≤ 2) := by omega
    have hmp : ((mp + 3).toNat : Int) - 3 = mp := by omega
    simp only [h, hle, if_true, if_false, Int.add_zero, hmod, hdiv, hmp]
  · have hle : (mp - 9).toNat ≤ 2 := by omega
    have hmp : ((mp - 9).toNat : Int) + 9 = mp := by omega
    have hyear : yoe + 400 * era + 1 - 1 = yoe + 400 * era := by omega
    simp only [h, hle, if_true, if_false, hyear, hmod, hdiv, hmp]

theorem toDays_ofDays (n : Int) : toDays (ofDays n) = n := by
  have h0 : 0 ≤ (n + 306) % 146097 := by omega
  have h1 : (n + 306) % 146097 < 146097 := by omega
  have hd := dayOfYear_bounds ((n + 306) % 146097)
  have hsum := yearStart_add_dayOfYear h0 h1
  have hms := monthStart_monthOfYear_le (dayOfYear ((n + 306) % 146097))
  rw [ofDays, toDays_of_march (yearOfEra_bounds h0 h1) (monthOfYear_bounds hd.1 hd.2)]
  omega

theorem isLeap_add_era (y era : Int) : isLeap (y + 400 * era) = isLeap y := by
  have h4 : (y + 400 * era) % 4 = y % 4 := by omega
  have h100 : (y + 400 * era) % 100 = y % 100 := by omega
  have h400 : (y + 400 * era) % 400 = y % 400 := by omega
  simp only [isLeap, h4, h100, h400]

/-- A day of a March year lies within its month: only February, the last month,
depends on whether the year has a 366th day. -/
theorem day_le_daysIn {doy y : Int} (h0 : 0 ≤ doy) (h1 : doy ≤ 365)
    (hleap : doy = 365 → isLeap y = true) :
    (doy - monthStart (monthOfYear doy) + 1).toNat ≤
      daysIn (calendarMonth (monthOfYear doy)).toNat y := by
  obtain ⟨hlo, hhi⟩ := monthOfYear_bounds h0 h1
  have hmp : 153 * monthOfYear doy ≤ 5 * doy + 2 ∧ 5 * doy + 2 < 153 * (monthOfYear doy + 1) := by
    unfold monthOfYear
    omega
  generalize monthOfYear doy = mp at *
  interval_cases mp <;> simp [calendarMonth, daysIn, monthStart] <;> try omega
  by_cases h : isLeap y = true
  · simp only [h, if_true]
    omega
  · have hne : doy ≠ 365 := fun h365 => h (hleap h365)
    simp only [h]
    omega

theorem ofDays_valid (n : Int) : (ofDays n).Valid := by
  have h0 : 0 ≤ (n + 306) % 146097 := by omega
  have h1 : (n + 306) % 146097 < 146097 := by omega
  have hd := dayOfYear_bounds ((n + 306) % 146097)
  have hm := monthOfYear_bounds hd.1 hd.2
  have hms := monthStart_monthOfYear_le (dayOfYear ((n + 306) % 146097))
  have hmonth : 1 ≤ calendarMonth (monthOfYear (dayOfYear ((n + 306) % 146097))) ∧
      calendarMonth (monthOfYear (dayOfYear ((n + 306) % 146097))) ≤ 12 := by
    unfold calendarMonth
    split <;> omega
  refine ⟨by simp only [ofDays]; omega, by simp only [ofDays]; omega,
    by simp only [ofDays]; omega, day_le_daysIn hd.1 hd.2 fun h365 => ?_⟩
  -- a 366th day lies in February, whose calendar year is the next one
  have hmp : ¬ monthOfYear (dayOfYear ((n + 306) % 146097)) < 10 := by
    rw [h365]
    decide
  simp only [ofDays, if_neg hmp]
  rw [Int.add_right_comm, isLeap_add_era]
  exact isLeap_of_dayOfYear_eq h0 h1 h365

/-! ### Order -/

/-- A date is before another: in an earlier year, or month, or on an earlier day. -/
def Date.Before (d e : Date) : Prop :=
  d.year < e.year ∨ d.year = e.year ∧ (d.month < e.month ∨ d.month = e.month ∧ d.day < e.day)

/-- The March year a date falls in. -/
def marchYear (d : Date) : Int := if d.month ≤ 2 then d.year - 1 else d.year

/-- The month of its March year a date falls in, counted from 0 for March. -/
def marchMonth (d : Date) : Int := if d.month ≤ 2 then d.month + 9 else d.month - 3

/-- The days before a March year, from the start of the March year 0. -/
def marchDays (y : Int) : Int := 365 * y + y / 4 - y / 100 + y / 400

theorem toDays_eq (d : Date) : toDays d =
    marchDays (marchYear d) + (monthStart (marchMonth d) + (d.day - 1)) - 306 := by
  have hera : ∀ y : Int, 146097 * (y / 400) + (365 * (y % 400) + y % 400 / 4 - y % 400 / 100) =
      marchDays y := by
    intro y
    unfold marchDays
    omega
  simp only [toDays, hera, marchYear, marchMonth]

/-- A March year is a day longer if the calendar year it ends in is a leap year. -/
theorem marchDays_add_le {y z : Int} (h : y < z) :
    marchDays y + 365 + (if isLeap (y + 1) then 1 else 0) ≤ marchDays z := by
  have hnext : marchDays y + 365 + (if isLeap (y + 1) then 1 else 0) ≤ marchDays (y + 1) := by
    simp only [isLeap, marchDays, Bool.and_eq_true, Bool.or_eq_true, decide_eq_true_eq]
    split_ifs <;> omega
  have hmono : marchDays (y + 1) ≤ marchDays z := by
    have hquarters : ∀ x : Int, marchDays x = 365 * x + (x / 4 - x / 4 / 25 + x / 4 / 25 / 4) := by
      intro x
      unfold marchDays
      omega
    rw [hquarters, hquarters]
    omega
  exact hnext.trans hmono

/-- A day of a March year, counted from 0, comes before its end. -/
theorem monthStart_add_le {d : Date} (h : d.Valid) :
    0 ≤ monthStart (marchMonth d) + ((d.day : Int) - 1) ∧
      monthStart (marchMonth d) + ((d.day : Int) - 1) ≤
        364 + if isLeap (marchYear d + 1) then 1 else 0 := by
  obtain ⟨hm1, hm12, hd1, hd⟩ := h
  obtain ⟨year, month, day⟩ := d
  dsimp only at hm1 hm12 hd1 hd
  simp only [monthStart, marchMonth, marchYear]
  interval_cases month <;> simp [daysIn] at hd ⊢ <;> (try split_ifs at hd ⊢) <;> omega

/-- Within a March year, later dates have later day numbers. -/
theorem monthStart_add_lt {d e : Date} (hd : d.Valid) (he : e.Valid)
    (h : marchMonth d < marchMonth e ∨ marchMonth d = marchMonth e ∧ d.day < e.day) :
    monthStart (marchMonth d) + ((d.day : Int) - 1) <
      monthStart (marchMonth e) + ((e.day : Int) - 1) := by
  rcases h with hmonth | ⟨hmonth, hday⟩
  · have hlength : monthStart (marchMonth d) + d.day ≤ monthStart (marchMonth d + 1) ∨
        marchMonth d = 11 := by
      obtain ⟨hm1, hm12, hd1, hd⟩ := hd
      obtain ⟨year, month, day⟩ := d
      dsimp only at hm1 hm12 hd1 hd
      simp only [monthStart, marchMonth]
      interval_cases month <;> simp [daysIn] at hd ⊢ <;> omega
    have hmax : marchMonth e ≤ 11 := by
      have := he.1
      have := he.2.1
      unfold marchMonth
      split_ifs <;> omega
    have hday : 1 ≤ e.day := he.2.2.1
    unfold monthStart at *
    omega
  · rw [hmonth]
    omega

/-- Later dates have later day numbers. -/
theorem toDays_lt {d e : Date} (hd : d.Valid) (he : e.Valid) (h : d.Before e) :
    toDays d < toDays e := by
  have hlast := monthStart_add_le hd
  have hfirst := monthStart_add_le he
  have hcases : marchYear d < marchYear e ∨ marchYear d = marchYear e ∧
      (marchMonth d < marchMonth e ∨ marchMonth d = marchMonth e ∧ d.day < e.day) := by
    obtain ⟨hd1, hd12, -⟩ := hd
    obtain ⟨he1, he12, -⟩ := he
    unfold Date.Before at h
    unfold marchYear marchMonth
    split_ifs <;> omega
  rw [toDays_eq, toDays_eq]
  rcases hcases with hyear | ⟨hyear, hwithin⟩
  · have := marchDays_add_le hyear
    omega
  · have := monthStart_add_lt hd he hwithin
    rw [hyear]
    omega

/-- Of two dates one is before the other, or they are the same. -/
theorem Date.before_or (d e : Date) : d.Before e ∨ d = e ∨ e.Before d := by
  obtain ⟨year, month, day⟩ := d
  obtain ⟨year', month', day'⟩ := e
  simp only [Date.Before, Date.mk.injEq]
  omega

/-- A date is the one its day number names. -/
theorem ofDays_toDays {d : Date} (hd : d.Valid) : ofDays (toDays d) = d := by
  have hsame := toDays_ofDays (toDays d)
  rcases (ofDays (toDays d)).before_or d with hbefore | heq | hbefore
  · have := toDays_lt (ofDays_valid _) hd hbefore
    omega
  · exact heq
  · have := toDays_lt hd (ofDays_valid _) hbefore
    omega

/-- Later days have later dates. -/
theorem before_ofDays {m n : Int} (h : m < n) : (ofDays m).Before (ofDays n) := by
  rcases (ofDays m).before_or (ofDays n) with hbefore | heq | hbefore
  · exact hbefore
  · have := congrArg toDays heq
    rw [toDays_ofDays, toDays_ofDays] at this
    omega
  · have := toDays_lt (ofDays_valid n) (ofDays_valid m) hbefore
    rw [toDays_ofDays, toDays_ofDays] at this
    omega

end Gregorian
