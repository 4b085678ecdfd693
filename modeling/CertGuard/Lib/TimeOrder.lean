import CertGuard.Lib.Rfc3339
import Mathlib.Data.Char
import Mathlib.Data.List.Lex

/-!
# Timestamps in the order of their text

Years of four digits, and everything else of a fixed width: the texts of such instants are in
the order of the instants, to the second.

## Main definitions

* `Rfc3339.FourDigitYear` — a year that is printed with four digits

## Main results

* `Rfc3339.format_lt` — later instants have later texts
* `Rfc3339.seconds_le_of_format_le` — texts that are not earlier are of instants that are not
-/

namespace Rfc3339

open Gregorian

/-- The year of the instant has four digits. -/
def FourDigitYear (t : Int) : Prop := 0 ≤ year t ∧ year t ≤ 9999

instance (t : Int) : Decidable (FourDigitYear t) := inferInstanceAs (Decidable (_ ∧ _))

variable {xs ys us vs : List Char} {t u : Int}

/-! ### Texts in order -/

/-- Of two texts of one length, whatever follows makes no difference. -/
theorem append_lt_append (hlen : xs.length = ys.length) (h : xs < ys) : xs ++ us < ys ++ vs := by
  induction xs generalizing ys with
  | nil =>
    obtain rfl := List.length_eq_zero_iff.mp hlen.symm
    exact absurd h (List.not_lt_nil [])
  | cons x xs ih =>
    obtain ⟨y, ys, rfl⟩ := List.exists_cons_of_length_eq_add_one hlen.symm
    rw [List.cons_append, List.cons_append, List.cons_lt_cons_iff]
    rcases List.cons_lt_cons_iff.mp h with hlt | ⟨rfl, hlt⟩
    · exact .inl hlt
    · exact .inr ⟨rfl, ih (by simpa using hlen) hlt⟩

/-- What two texts begin with alike makes none either. -/
theorem append_lt_append_of_lt (h : us < vs) : xs ++ us < xs ++ vs := by
  induction xs with
  | nil => exact h
  | cons x xs ih => exact List.cons_lt_cons_iff.mpr (.inr ⟨rfl, ih⟩)

theorem digitChar_lt : ∀ e, e < 10 → ∀ d, d < e → Nat.digitChar d < Nat.digitChar e := by
  decide

/-- Numbers of one width are in the order of their digits. -/
theorem digits_lt {w n m : Nat} (hm : m < 10 ^ w) (h : n < m) : digits w n < digits w m := by
  induction w generalizing n m with
  | zero => omega
  | succ w ih =>
    have hdiv : m / 10 < 10 ^ w := by omega
    rw [digits, digits]
    rcases Nat.lt_or_eq_of_le (Nat.div_le_div_right h.le : n / 10 ≤ m / 10) with hlt | heq
    · exact append_lt_append (by simp) (ih hdiv hlt)
    · rw [heq]
      refine append_lt_append_of_lt (List.cons_lt_cons_iff.mpr (.inl ?_))
      exact digitChar_lt _ (Nat.mod_lt _ (by decide)) _ (by omega)

/-! ### Instants -/

/-- The date of an instant whose year has four digits. -/
theorem formatDate_eq (h : FourDigitYear t) : formatDate t =
    digits 4 (year t).toNat ++ '-' :: digits 2 (ofDays (dayNumber t)).month ++
      '-' :: digits 2 (ofDays (dayNumber t)).day := by
  rw [formatDate, ← appendInt_eq_digits h.1 h.2]
  rfl

theorem length_formatDate (h : FourDigitYear t) : (formatDate t).length = 10 := by
  rw [formatDate_eq h]
  simp

/-- Later days have later dates, in text. -/
theorem formatDate_lt (ht : FourDigitYear t) (hu : FourDigitYear u)
    (h : dayNumber t < dayNumber u) : formatDate t < formatDate u := by
  obtain ⟨-, hmonth, hday1, hday⟩ := ofDays_valid (dayNumber u)
  have hdays : daysIn (ofDays (dayNumber u)).month (ofDays (dayNumber u)).year ≤ 31 := by
    unfold daysIn
    split_ifs <;> omega
  have hbefore := before_ofDays h
  rw [formatDate_eq ht, formatDate_eq hu, List.append_assoc, List.append_assoc]
  rcases hbefore with hyear | ⟨hyear, hrest⟩
  · have ht0 := ht.1
    have hu9 := hu.2
    unfold year at *
    exact append_lt_append (by simp) (digits_lt (by omega) (by omega))
  · have hsame : year t = year u := hyear
    rw [hsame]
    refine append_lt_append_of_lt ?_
    rw [List.cons_append, List.cons_append]
    refine List.cons_lt_cons_iff.mpr (.inr ⟨rfl, ?_⟩)
    rcases hrest with hlt | ⟨heq, hlt⟩
    · exact append_lt_append (by simp) (digits_lt (by omega) hlt)
    · rw [heq]
      refine append_lt_append_of_lt (List.cons_lt_cons_iff.mpr (.inr ⟨rfl, ?_⟩))
      exact digits_lt (by omega) hlt

/-- Later times of day have later texts. -/
theorem formatClock_lt (h : secondOfDay t < secondOfDay u) : formatClock t < formatClock u := by
  have hday := secondOfDay_lt u
  simp only [formatClock, List.append_assoc, List.cons_append]
  rcases Nat.lt_or_eq_of_le (Nat.div_le_div_right h.le :
      secondOfDay t / 3600 ≤ secondOfDay u / 3600) with hlt | hhour
  · exact append_lt_append (by simp) (digits_lt (by omega) hlt)
  · rw [hhour]
    refine append_lt_append_of_lt (List.cons_lt_cons_iff.mpr (.inr ⟨rfl, ?_⟩))
    rcases Nat.lt_or_eq_of_le (by omega :
        secondOfDay t / 60 % 60 ≤ secondOfDay u / 60 % 60) with hlt | hminute
    · exact append_lt_append (by simp) (digits_lt (by omega) hlt)
    · rw [hminute]
      refine append_lt_append_of_lt (List.cons_lt_cons_iff.mpr (.inr ⟨rfl, ?_⟩))
      exact digits_lt (by omega) (by omega)

/-- Later instants have later texts, where they differ by a second at least. -/
theorem format_lt (ht : FourDigitYear t) (hu : FourDigitYear u)
    (h : t / oneSecond < u / oneSecond) : format t < format u := by
  have hdays : dayNumber t < dayNumber u ∨
      dayNumber t = dayNumber u ∧ secondOfDay t < secondOfDay u := by
    simp only [dayNumber, secondOfDay, oneDay, oneSecond] at *
    omega
  rw [format, format, List.append_assoc, List.append_assoc]
  rcases hdays with hday | ⟨hday, hsecond⟩
  · refine append_lt_append ?_ (formatDate_lt ht hu hday)
    rw [length_formatDate ht, length_formatDate hu]
  · have hdate : formatDate t = formatDate u := by rw [formatDate, formatDate, hday]
    rw [hdate]
    refine append_lt_append_of_lt (List.cons_lt_cons_iff.mpr (.inr ⟨rfl, ?_⟩))
    exact append_lt_append (by simp [formatClock]) (formatClock_lt hsecond)

/-- A text that does not come later is not of a later second. -/
theorem seconds_le_of_format_le (ht : FourDigitYear t) (hu : FourDigitYear u)
    (h : format t ≤ format u) : t / oneSecond ≤ u / oneSecond := by
  by_contra hlt
  exact absurd h (not_le.mpr (format_lt hu ht (by omega)))

end Rfc3339
