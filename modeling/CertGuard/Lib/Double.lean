import Mathlib.Algebra.Order.Round
import Mathlib.Data.Int.Log
import Mathlib.Data.Rat.Floor
import Mathlib.Tactic.Linarith
import Mathlib.Tactic.Positivity
import Mathlib.Tactic.Ring

/-!
# Numbers with 53 binary digits

The numbers of double precision, without the bounds of their exponents.

## Main definitions

* `Double.round` — the nearest such number, of two as near the even one

## Main results

* `Double.round_of_digits` — a number with so many digits is kept
* `Double.round_le_add`, `Double.natCast_le_round` — rounding does not go far up, nor down below a
  whole number
-/

namespace Double

/-- The nearest integer, of two as near the even one. -/
def roundEven (x : ℚ) : ℤ :=
  if Int.fract x < 1 / 2 then ⌊x⌋
  else if 1 / 2 < Int.fract x then ⌊x⌋ + 1
  else if ⌊x⌋ % 2 = 0 then ⌊x⌋ else ⌊x⌋ + 1

/-- The unit in the last place of a number. -/
def ulp (x : ℚ) : ℚ := 2 ^ (Int.log 2 x - 52)

/-- The nearest number with 53 binary digits; of positive numbers. -/
def round (x : ℚ) : ℚ := roundEven (x / ulp x) * ulp x

variable {x : ℚ}

theorem roundEven_intCast (n : ℤ) : roundEven n = n := by
  simp [roundEven]

theorem roundEven_le (x : ℚ) : (roundEven x : ℚ) ≤ x + 1 / 2 := by
  have hx := Int.floor_add_fract x
  have hfract := Int.fract_nonneg x
  unfold roundEven
  split_ifs <;> push_cast <;> linarith

theorem ulp_pos (x : ℚ) : 0 < ulp x := zpow_pos (by norm_num) _

theorem zpow_log_le (hx : 0 < x) : (2 : ℚ) ^ Int.log 2 x ≤ x := by
  exact_mod_cast Int.zpow_log_le_self (by decide : 1 < 2) hx

/-- Of numbers below a power of two, by no more than half a unit in the last place. -/
theorem round_le_add {k : ℕ} (hx : 0 ≤ x) (hlt : x < 2 ^ (k + 1)) :
    round x ≤ x + 2 ^ ((k : ℤ) - 52) / 2 := by
  have hlog : Int.log 2 x ≤ k := by
    rcases hx.eq_or_lt with rfl | hpos
    · simp
    · exact Int.lt_add_one_iff.mp
        ((Int.lt_zpow_iff_log_lt (by decide) hpos).mp (by exact_mod_cast hlt))
  have hulp : ulp x ≤ 2 ^ ((k : ℤ) - 52) := zpow_le_zpow_right₀ (by norm_num) (by omega)
  have hround := mul_le_mul_of_nonneg_right (roundEven_le (x / ulp x)) (ulp_pos x).le
  rw [add_mul, div_mul_cancel₀ _ (ulp_pos x).ne'] at hround
  unfold round
  linarith

/-- Nothing is rounded to below a whole number that it was not below. -/
theorem natCast_le_round {n : ℕ} (hn : (n : ℚ) ≤ x) (hlt : x < 2 ^ 53) : (n : ℚ) ≤ round x := by
  have hlog : Int.log 2 x ≤ 52 := by
    rcases (n.cast_nonneg.trans hn).eq_or_lt with rfl | hpos
    · simp
    · exact Int.lt_add_one_iff.mp
        ((Int.lt_zpow_iff_log_lt (by decide) hpos).mp (by exact_mod_cast hlt))
  -- so many units make one
  obtain ⟨j, hj⟩ := Int.eq_ofNat_of_zero_le (sub_nonneg.mpr hlog)
  have hunits : (2 : ℚ) ^ j * ulp x = 1 := by
    rw [ulp, ← zpow_natCast, ← zpow_add₀ (by norm_num), show (j : ℤ) + (Int.log 2 x - 52) = 0 by
      omega, zpow_zero]
  have hfloor : ((n * 2 ^ j : ℕ) : ℤ) ≤ ⌊x / ulp x⌋ := by
    rw [Int.le_floor, le_div_iff₀ (ulp_pos x)]
    push_cast
    rw [mul_assoc, hunits, mul_one]
    exact hn
  have hround : ⌊x / ulp x⌋ ≤ roundEven (x / ulp x) := by
    unfold roundEven
    split_ifs <;> omega
  have hle : ((n * 2 ^ j : ℕ) : ℚ) ≤ roundEven (x / ulp x) := by
    exact_mod_cast hfloor.trans hround
  calc (n : ℚ) = ((n * 2 ^ j : ℕ) : ℚ) * ulp x := by
        push_cast
        rw [mul_assoc, hunits, mul_one]
    _ ≤ roundEven (x / ulp x) * ulp x := mul_le_mul_of_nonneg_right hle (ulp_pos x).le

/-- A number that has at most 53 binary digits. -/
theorem round_of_digits {m e : ℕ} (hm : 0 < m) (hlt : m < 2 ^ 53) (hx : x = m * 2 ^ e) :
    round x = x := by
  have hpos : 0 < x := by
    rw [hx]
    positivity
  -- the number is below the power of two after its last digit
  have hlog : Int.log 2 x - 52 ≤ e := by
    by_contra hgt
    have hpow : (2 : ℚ) ^ ((53 + e : ℕ) : ℤ) ≤ x :=
      (zpow_le_zpow_right₀ (by norm_num) (by push_cast; omega)).trans (zpow_log_le hpos)
    rw [zpow_natCast, pow_add, hx] at hpow
    have hle : (2 : ℚ) ^ 53 ≤ m := le_of_mul_le_mul_right hpow (by positivity)
    exact absurd (by exact_mod_cast hle) (not_le.mpr hlt)
  obtain ⟨k, hk⟩ := Int.eq_ofNat_of_zero_le (sub_nonneg.mpr hlog)
  have hulp : (2 : ℚ) ^ e = 2 ^ k * ulp x := by
    rw [ulp, ← zpow_natCast, ← zpow_natCast, ← zpow_add₀ (by norm_num)]
    congr 1
    omega
  have hquot : x / ulp x = ((m * 2 ^ k : ℕ) : ℤ) := by
    rw [div_eq_iff (ulp_pos x).ne']
    push_cast
    rw [mul_assoc, ← hulp, hx]
  rw [round, hquot, roundEven_intCast, ← hquot, div_mul_cancel₀ _ (ulp_pos x).ne']

/-- A whole number with at most 53 binary digits. -/
theorem round_natCast {n : ℕ} (hlt : n < 2 ^ 53) : round n = n := by
  rcases Nat.eq_zero_or_pos n with rfl | hpos
  · rw [Nat.cast_zero, round, zero_div, ← Int.cast_zero, roundEven_intCast, Int.cast_zero,
      zero_mul]
  · exact round_of_digits (e := 0) hpos hlt (by rw [pow_zero, mul_one])

end Double
