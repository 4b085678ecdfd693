import CertGuard.Lib.Months
import CertGuard.Model.Channel
import CertGuard.Web.ChainRisk

/-!
# The days of the pages

Dates as the scripts of the pages have them: a day is the number of days from 1 January of year 1,
in UTC. Days outside the range of the language's dates are not told apart from others.

## Main definitions

* `Script.dateUTC` — `Date.UTC` of a year, a month and a day that need not be in range
* `Script.utcDay` — the day of a time
* `Script.padStart2` — a number in two digits

## Main results

* `Script.getUTCDate_last` — the last day of a month, as the pages find it
* `Script.dashed_three_inj` — texts between dashes are told apart
* `Script.eq_of_fields` — a day is known by its year, month and date
-/

namespace CertGuard.Script

/-- `Date.UTC(y, m, d)`: months and days out of range carry over; a year of one or two digits is
one of the last century but one. -/
def dateUTC (y m d : Int) : Int :=
  Gregorian.firstDay (12 * (if 0 ≤ y ∧ y ≤ 99 then 1900 + y else y) + m) + (d - 1)

def getUTCFullYear (x : Int) : Int := (Gregorian.ofDays x).year

/-- The month, counted from 0. -/
def getUTCMonth (x : Int) : Int := (Gregorian.ofDays x).month - 1

def getUTCDate (x : Int) : Int := (Gregorian.ofDays x).day

/-- The day of the week, counted from Sunday; 1 January of year 1 was a Monday. -/
def getUTCDay (x : Int) : Int := (x + 1) % 7

/-- The day of a time in milliseconds. -/
def utcDay (ms : Int) : Int := Rfc3339.dayNumber (unixEpoch + ms * 1000000)

/-- `String(n).padStart(2, '0')`. -/
def padStart2 (n : Int) : List Char := (itoa n).leftpad 2 '0'

/-! ### Months -/

variable {y m n : Int}

/-- The first of a month. -/
theorem dateUTC_first (hy : 100 ≤ y) : dateUTC y m 1 = Gregorian.firstDay (12 * y + m) := by
  have hlate : ¬ (0 ≤ y ∧ y ≤ 99) := by omega
  rw [dateUTC, if_neg hlate]
  omega

/-- A day of a month. -/
theorem dateUTC_day (hy : 100 ≤ y) (d : Int) :
    dateUTC y m d = Gregorian.firstDay (12 * y + m) + (d - 1) := by
  have hlate : ¬ (0 ≤ y ∧ y ≤ 99) := by omega
  rw [dateUTC, if_neg hlate]

theorem monthIndex_eq (x : Int) :
    Gregorian.monthIndex (Gregorian.ofDays x) = 12 * getUTCFullYear x + getUTCMonth x := rfl

theorem getUTCMonth_bounds (x : Int) : 0 ≤ getUTCMonth x ∧ getUTCMonth x < 12 := by
  obtain ⟨h1, h12, -⟩ := Gregorian.ofDays_valid x
  unfold getUTCMonth
  omega

/-- The days of a month, by their numbers. -/
theorem fields_of_lt {k : Nat} (hk : k < Gregorian.monthLength n) :
    getUTCFullYear (Gregorian.firstDay n + k) = n / 12 ∧
      getUTCMonth (Gregorian.firstDay n + k) = n % 12 ∧
      getUTCDate (Gregorian.firstDay n + k) = k + 1 := by
  have h12 : 0 ≤ n % 12 := Int.emod_nonneg n (by decide)
  unfold getUTCFullYear getUTCMonth getUTCDate
  rw [Gregorian.ofDays_firstDay_add hk]
  dsimp only
  omega

/-- The day before the first of the next month is the last. -/
theorem getUTCDate_last (hy : 100 ≤ y) :
    getUTCDate (dateUTC y (m + 1) 0) = Gregorian.monthLength (12 * y + m) := by
  have hpos := (Gregorian.monthLength_bounds (12 * y + m)).1
  have hlast := (@fields_of_lt (12 * y + m) (Gregorian.monthLength (12 * y + m) - 1)
    (by omega)).2.2
  have hsame : dateUTC y (m + 1) 0 = Gregorian.firstDay (12 * y + m) +
      ((Gregorian.monthLength (12 * y + m) - 1 : Nat) : Int) := by
    rw [dateUTC_day hy, ← Int.add_assoc, Gregorian.firstDay_succ]
    omega
  rw [hsame, hlast]
  omega

/-! ### Numbers as texts -/

theorem itoa_of_nonneg (hn : 0 ≤ n) : itoa n = Nat.toDigits 10 n.natAbs := if_neg (by omega)

theorem dash_not_mem_itoa (hn : 0 ≤ n) : '-' ∉ itoa n :=
  itoa_of_nonneg hn ▸ dash_not_mem_toDigits _

theorem dash_not_mem_padStart2 (hn : 0 ≤ n) : '-' ∉ padStart2 n := by
  unfold padStart2 List.leftpad
  rw [List.mem_append, not_or]
  refine ⟨fun h => ?_, dash_not_mem_itoa hn⟩
  exact absurd (List.eq_of_mem_replicate h) (by decide)

theorem padStart2_inj {a b : Int} (ha : 0 ≤ a) (hb : 0 ≤ b) (h : padStart2 a = padStart2 b) :
    a = b := by
  -- zeros in front do not change the value
  have hvalue : ∀ x : Int, 0 ≤ x → Nat.ofDigitChars 10 (padStart2 x) 0 = x.natAbs := by
    intro x hx
    rw [padStart2, List.leftpad, Nat.ofDigitChars_append, Nat.ofDigitChars_replicate_zero,
      Nat.mul_zero, itoa_of_nonneg hx, Nat.ofDigitChars_ten_toDigits]
  have hsame := hvalue a ha
  rw [h, hvalue b hb] at hsame
  omega

/-- What stands behind the last dash, and what stands in front of it. -/
theorem dashed_inj {a a' b b' : List Char} (hb : '-' ∉ b) (hb' : '-' ∉ b')
    (h : a ++ '-' :: b = a' ++ '-' :: b') : a = a' ∧ b = b' :=
  eq_of_last_separator hb hb' h

/-- What stands in front of the first dash, and what stands behind it. -/
theorem dashed_left_inj {a a' b b' : List Char} (ha : '-' ∉ a) (ha' : '-' ∉ a')
    (h : a ++ '-' :: b = a' ++ '-' :: b') : a = a' ∧ b = b' :=
  eq_of_first_separator ha ha' h

theorem length_padStart2 (h0 : 0 ≤ n) (h99 : n ≤ 99) : (padStart2 n).length = 2 := by
  have hlen : (itoa n).length ≤ 2 := by
    rw [itoa_of_nonneg h0, Nat.length_toDigits_le_iff (by decide) (by decide)]
    omega
  rw [padStart2, List.length_leftpad, max_eq_left hlen]

theorem dashed_three_inj {a a' b b' c c' : List Char} (hb : '-' ∉ b) (hb' : '-' ∉ b')
    (hc : '-' ∉ c) (hc' : '-' ∉ c')
    (h : a ++ '-' :: (b ++ '-' :: c) = a' ++ '-' :: (b' ++ '-' :: c')) :
    a = a' ∧ b = b' ∧ c = c' := by
  have hassoc : ∀ x y z : List Char, x ++ '-' :: (y ++ '-' :: z) = (x ++ '-' :: y) ++ '-' :: z :=
    fun x y z => by simp
  rw [hassoc, hassoc] at h
  obtain ⟨hfront, hlast⟩ := dashed_inj hc hc' h
  obtain ⟨hfirst, hmiddle⟩ := dashed_inj hb hb' hfront
  exact ⟨hfirst, hmiddle, hlast⟩

/-- A day is known by its year, month and date. -/
theorem eq_of_fields {x y : Int} (hyear : getUTCFullYear x = getUTCFullYear y)
    (hmonth : getUTCMonth x = getUTCMonth y) (hdate : getUTCDate x = getUTCDate y) : x = y := by
  have hext : ∀ d e : Gregorian.Date, d.year = e.year → d.month = e.month → d.day = e.day →
      d = e := by
    intro d e hy hm hd
    cases d
    cases e
    simp only at hy hm hd
    rw [hy, hm, hd]
  have hsame : Gregorian.ofDays x = Gregorian.ofDays y := by
    apply hext
    · exact hyear
    · unfold getUTCMonth at hmonth
      omega
    · exact Int.ofNat_inj.mp hdate
  rw [← Gregorian.toDays_ofDays x, hsame, Gregorian.toDays_ofDays]

theorem getUTCDate_nonneg (x : Int) : 0 ≤ getUTCDate x := Int.natCast_nonneg _

end CertGuard.Script
