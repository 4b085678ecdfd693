import CertGuard.Lib.Gregorian

/-!
# Months

The months of the calendar in a row, numbered from January of the year 0, and the days that fall
into each.

## Main definitions

* `Gregorian.firstOf`, `Gregorian.firstDay` — the first of a month, and its day number
* `Gregorian.monthLength` — how many days it has
* `Gregorian.monthIndex` — the month a date falls in

## Main results

* `Gregorian.firstDay_succ` — a month begins where the one before it ends
* `Gregorian.ofDays_firstDay_add` — the days of a month are its dates
* `Gregorian.monthIndex_ofDays_iff`, `Gregorian.le_monthIndex_iff` — every day falls into the month
  it lies in
-/

namespace Gregorian

/-- The first day of a month. -/
def firstOf (n : Int) : Date := ⟨n / 12, (n % 12).toNat + 1, 1⟩

/-- The day number of the first day of a month. -/
def firstDay (n : Int) : Int := toDays (firstOf n)

/-- The number of days of a month. -/
def monthLength (n : Int) : Nat := daysIn ((n % 12).toNat + 1) (n / 12)

/-- The month a date falls in. -/
def monthIndex (d : Date) : Int := 12 * d.year + ((d.month : Int) - 1)

theorem daysIn_bounds (month : Nat) (y : Int) : 28 ≤ daysIn month y ∧ daysIn month y ≤ 31 := by
  unfold daysIn
  split_ifs <;> omega

theorem monthLength_bounds (n : Int) : 28 ≤ monthLength n ∧ monthLength n ≤ 31 :=
  daysIn_bounds _ _

/-- The day of a month is valid. -/
theorem valid_of_lt {n : Int} {k : Nat} (hk : k < monthLength n) :
    (⟨n / 12, (n % 12).toNat + 1, k + 1⟩ : Date).Valid := by
  have hlt : n % 12 < 12 := Int.emod_lt_of_pos n (by decide)
  refine ⟨by simp, by simp only; omega, by simp, hk⟩

/-- The day number of a day of a month. -/
theorem toDays_day (n : Int) (k : Nat) :
    toDays ⟨n / 12, (n % 12).toNat + 1, k + 1⟩ = firstDay n + k := by
  unfold firstDay firstOf toDays
  dsimp only
  push_cast
  omega

/-- The days of a month are its dates. -/
theorem ofDays_firstDay_add {n : Int} {k : Nat} (hk : k < monthLength n) :
    ofDays (firstDay n + k) = ⟨n / 12, (n % 12).toNat + 1, k + 1⟩ := by
  rw [← toDays_day, ofDays_toDays (valid_of_lt hk)]

/-- A date lies in its month. -/
theorem toDays_eq_firstDay {d : Date} (hd : d.Valid) :
    toDays d = firstDay (monthIndex d) + ((d.day : Int) - 1) ∧
      (d.day : Int) - 1 < monthLength (monthIndex d) := by
  obtain ⟨year, month, day⟩ := d
  obtain ⟨hm1, hm12, hd1, hdays⟩ := hd
  dsimp only at hm1 hm12 hd1 hdays
  have hyear : monthIndex ⟨year, month, day⟩ / 12 = year := by
    unfold monthIndex
    dsimp only
    omega
  have hmonth : (monthIndex ⟨year, month, day⟩ % 12).toNat + 1 = month := by
    unfold monthIndex
    dsimp only
    omega
  have hday := toDays_day (monthIndex ⟨year, month, day⟩) (day - 1)
  rw [hyear, hmonth, Nat.sub_add_cancel hd1] at hday
  have hlength : monthLength (monthIndex ⟨year, month, day⟩) = daysIn month year := by
    rw [monthLength, hyear, hmonth]
  refine ⟨?_, ?_⟩
  · rw [hday]
    dsimp only
    omega
  · rw [hlength]
    dsimp only
    omega

/-- Dates come in the order of their months, and within a month of their days. -/
theorem before_iff {d e : Date} (hd : d.Valid) (he : e.Valid) :
    d.Before e ↔ monthIndex d < monthIndex e ∨
      monthIndex d = monthIndex e ∧ d.day < e.day := by
  obtain ⟨hd1, hd12, -⟩ := hd
  obtain ⟨he1, he12, -⟩ := he
  unfold Date.Before monthIndex
  omega

theorem monthIndex_mk (n : Int) (k : Nat) :
    monthIndex ⟨n / 12, (n % 12).toNat + 1, k⟩ = n := by
  unfold monthIndex
  dsimp only
  omega

/-- A month begins where the one before it ends. -/
theorem firstDay_succ (n : Int) : firstDay (n + 1) = firstDay n + monthLength n := by
  have hpos := (monthLength_bounds n).1
  have hlast := @valid_of_lt n (monthLength n - 1) (by omega)
  have hfirst := @valid_of_lt (n + 1) 0 (by have := (monthLength_bounds (n + 1)).1; omega)
  have hbetween := toDays_day n (monthLength n - 1)
  have hstart : firstDay (n + 1) = toDays ⟨(n + 1) / 12, ((n + 1) % 12).toNat + 1, 0 + 1⟩ := rfl
  apply le_antisymm
  · -- no date lies between the last of a month and the first of the next
    by_contra hgap
    have hvalid := ofDays_valid (firstDay n + monthLength n)
    have hafter : Date.Before ⟨n / 12, (n % 12).toNat + 1, monthLength n - 1 + 1⟩
        (ofDays (firstDay n + monthLength n)) := by
      rw [← ofDays_toDays hlast, hbetween]
      exact before_ofDays (by omega)
    have hbefore : Date.Before (ofDays (firstDay n + monthLength n))
        ⟨(n + 1) / 12, ((n + 1) % 12).toNat + 1, 0 + 1⟩ := by
      rw [← ofDays_toDays hfirst, ← hstart]
      exact before_ofDays (by omega)
    rw [before_iff hlast hvalid, monthIndex_mk] at hafter
    rw [before_iff hvalid hfirst, monthIndex_mk] at hbefore
    have hday := (toDays_eq_firstDay hvalid).2
    have hone := hvalid.2.2.1
    dsimp only at hafter hbefore
    rcases hafter with hlt | ⟨heq, hlt⟩
    · omega
    · rw [← heq] at hday
      omega
  · have hlt := toDays_lt hlast hfirst ((before_iff hlast hfirst).mpr (Or.inl (by
      rw [monthIndex_mk, monthIndex_mk]
      omega)))
    omega

/-- Later months begin later. -/
theorem firstDay_add_le {m n : Int} (h : m < n) : firstDay m + monthLength m ≤ firstDay n := by
  rw [← firstDay_succ]
  induction n, Int.add_one_le_iff.mpr h using Int.leInduction with
  | base => exact le_rfl
  | succ n hn ih =>
    have hnext := firstDay_succ n
    have := ih (by omega)
    omega

/-- Every day falls into the month it lies in. -/
theorem monthIndex_ofDays_iff {x n : Int} :
    monthIndex (ofDays x) = n ↔ firstDay n ≤ x ∧ x < firstDay n + monthLength n := by
  have hvalid := ofDays_valid x
  obtain ⟨hday, hlt⟩ := toDays_eq_firstDay hvalid
  have hone := hvalid.2.2.1
  rw [toDays_ofDays] at hday
  constructor
  · rintro rfl
    omega
  · rintro ⟨hlo, hhi⟩
    rcases lt_trichotomy (monthIndex (ofDays x)) n with hbefore | heq | hafter
    · have := firstDay_add_le hbefore
      omega
    · exact heq
    · have := firstDay_add_le hafter
      omega

/-- A day comes after the first of a month just if its month is not before it. -/
theorem le_monthIndex_iff {x n : Int} : n ≤ monthIndex (ofDays x) ↔ firstDay n ≤ x := by
  obtain ⟨hlo, hhi⟩ := (@monthIndex_ofDays_iff x (monthIndex (ofDays x))).mp rfl
  constructor
  · intro h
    rcases h.eq_or_lt with heq | hlt
    · rw [heq]
      exact hlo
    · have := firstDay_add_le hlt
      omega
  · intro h
    by_contra hlt
    have := @firstDay_add_le (monthIndex (ofDays x)) n (by omega)
    omega

/-- A day is a day of its month. -/
theorem exists_day {x n : Int} (h : monthIndex (ofDays x) = n) :
    ∃ k < monthLength n, x = firstDay n + (k : Int) := by
  obtain ⟨hlo, hhi⟩ := monthIndex_ofDays_iff.mp h
  exact ⟨(x - firstDay n).toNat, by omega, by omega⟩

end Gregorian
