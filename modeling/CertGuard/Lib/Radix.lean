import Mathlib.Data.Nat.Basic
import Mathlib.Tactic.Ring

/-!
# Numerals of a fixed length

The digits of a number in some radix, the most significant first, and texts in one radix written
in another: a block of digits is taken for the first digits of a number, and as many digits of the
other radix are written as there is something in.

## Main definitions

* `Radix.value`, `Radix.digits` — the number of some digits, and the digits of a number
* `Radix.regroup` — the digits of a block in another radix

## Main results

* `Radix.value_digits`, `Radix.digits_value` — digits and numbers belong to each other
* `Radix.regroup_regroup` — a block is read back, where the digits left out are those that are
  filled up
-/

namespace Radix

variable {r s : Nat} {ds : List Nat} {i j k n : Nat}

/-- The number that digits stand for, the most significant first. -/
def value (r : Nat) (ds : List Nat) : Nat := ds.foldl (fun n d => r * n + d) 0

/-- The last `k` digits of a number, the most significant first. -/
def digits (r : Nat) : Nat → Nat → List Nat
  | 0, _ => []
  | k + 1, n => n / r ^ k % r :: digits r k n

@[simp] theorem length_digits (r k n : Nat) : (digits r k n).length = k := by
  induction k with
  | zero => rfl
  | succ k ih => rw [digits, List.length_cons, ih]

theorem lt_of_mem_digits (hr : 0 < r) {d : Nat} (hd : d ∈ digits r k n) : d < r := by
  induction k with
  | zero => exact absurd hd List.not_mem_nil
  | succ k ih =>
    rcases List.mem_cons.mp hd with rfl | hd
    · exact Nat.mod_lt _ hr
    · exact ih hd

/-! ### Digits and their number -/

/-- The digits in front count for more. -/
theorem foldl_eq (r : Nat) (ds : List Nat) (n : Nat) :
    ds.foldl (fun n d => r * n + d) n = n * r ^ ds.length + value r ds := by
  induction ds generalizing n with
  | nil => simp [value]
  | cons d ds ih =>
    rw [value, List.foldl_cons, List.foldl_cons, ih, ih (r * 0 + d), List.length_cons]
    ring

theorem value_cons (r d : Nat) (ds : List Nat) :
    value r (d :: ds) = d * r ^ ds.length + value r ds := by
  rw [value, List.foldl_cons, foldl_eq, Nat.mul_zero, Nat.zero_add]

theorem value_lt (hds : ∀ d ∈ ds, d < r) : value r ds < r ^ ds.length := by
  induction ds with
  | nil => exact Nat.one_pos
  | cons d ds ih =>
    obtain ⟨hd, hds⟩ := List.forall_mem_cons.mp hds
    rw [value_cons, List.length_cons, Nat.pow_succ']
    calc d * r ^ ds.length + value r ds < d * r ^ ds.length + r ^ ds.length :=
          Nat.add_lt_add_left (ih hds) _
      _ = (d + 1) * r ^ ds.length := by ring
      _ ≤ r * r ^ ds.length := Nat.mul_le_mul_right _ hd

theorem value_digits (r k n : Nat) : value r (digits r k n) = n % r ^ k := by
  induction k with
  | zero => rw [Nat.pow_zero, Nat.mod_one]; rfl
  | succ k ih =>
    rw [digits, value_cons, length_digits, ih, Nat.mul_comm, Nat.add_comm]
    exact (Nat.mod_pow_succ).symm

/-- The first digits are those of the number without the others. -/
theorem digits_add (r j k n : Nat) :
    digits r (j + k) n = digits r j (n / r ^ k) ++ digits r k n := by
  induction j with
  | zero => rw [Nat.zero_add]; rfl
  | succ j ih =>
    rw [Nat.add_right_comm, digits, ih, digits, List.cons_append, Nat.div_div_eq_div_mul,
      ← Nat.pow_add, Nat.add_comm k j]

theorem take_digits (h : j ≤ k) : (digits r k n).take j = digits r j (n / r ^ (k - j)) := by
  obtain ⟨i, rfl⟩ := Nat.exists_eq_add_of_le h
  rw [digits_add, List.take_left' (length_digits r j _), Nat.add_sub_cancel_left]

theorem digits_add_mul (r k m n : Nat) : digits r k (m * r ^ k + n) = digits r k n := by
  induction k generalizing m with
  | zero => rfl
  | succ k ih =>
    have hmul : m * r ^ (k + 1) = m * r * r ^ k := by ring
    rw [digits, digits, hmul, ih]
    congr 1
    rcases Nat.eq_zero_or_pos r with rfl | hr
    · simp
    · rw [Nat.add_comm, Nat.add_mul_div_right _ _ (Nat.pow_pos hr), Nat.add_mul_mod_self_right]

theorem digits_value (hr : 0 < r) (hds : ∀ d ∈ ds, d < r) :
    digits r ds.length (value r ds) = ds := by
  induction ds with
  | nil => rfl
  | cons d ds ih =>
    obtain ⟨hd, hds⟩ := List.forall_mem_cons.mp hds
    rw [value_cons, List.length_cons, digits, digits_add_mul, ih hds]
    congr 1
    rw [Nat.add_comm, Nat.add_mul_div_right _ _ (Nat.pow_pos hr),
      Nat.div_eq_of_lt (value_lt hds), Nat.zero_add, Nat.mod_eq_of_lt hd]

/-! ### Other radices -/

/-- The first `i` of the `j` digits in radix `s` that belong to digits in radix `r`, filled up to
`k` of them. -/
def regroup (r k s j i : Nat) (ds : List Nat) : List Nat :=
  (digits s j (value r ds * r ^ (k - ds.length))).take i

theorem length_regroup (h : i ≤ j) : (regroup r k s j i ds).length = i := by
  rw [regroup, List.length_take, length_digits, Nat.min_eq_left h]

theorem lt_of_mem_regroup (hs : 0 < s) {d : Nat} (hd : d ∈ regroup r k s j i ds) : d < s :=
  lt_of_mem_digits hs (List.mem_of_mem_take hd)

/-- Digits are read back from those of another radix, as long as nothing is lost with the digits
left out. -/
theorem regroup_regroup (hr : 0 < r) (hs : 0 < s) (hds : ∀ d ∈ ds, d < r) (hk : ds.length ≤ k)
    (hi : i ≤ j) (hfull : s ^ j = r ^ k) (hdvd : s ^ (j - i) ∣ r ^ (k - ds.length)) :
    regroup s j r k ds.length (regroup r k s j i ds) = ds := by
  have hlt : value r ds * r ^ (k - ds.length) < s ^ j := by
    rw [hfull, ← Nat.add_sub_cancel' hk, Nat.pow_add, Nat.add_sub_cancel_left]
    exact Nat.mul_lt_mul_of_pos_right (value_lt hds) (Nat.pow_pos hr)
  -- the digits left out are zeros
  have hkept : value s (regroup r k s j i ds) * s ^ (j - i) =
      value r ds * r ^ (k - ds.length) := by
    obtain ⟨m, hm⟩ := hdvd
    have hquot : value r ds * r ^ (k - ds.length) / s ^ (j - i) = value r ds * m := by
      rw [hm, Nat.mul_left_comm, Nat.mul_div_cancel_left _ (Nat.pow_pos hs)]
    have hsmall : value r ds * m < s ^ i := by
      refine Nat.lt_of_mul_lt_mul_right (a := s ^ (j - i)) ?_
      rw [← Nat.pow_add, Nat.add_sub_cancel' hi, Nat.mul_assoc, Nat.mul_comm m, ← hm]
      exact hlt
    rw [regroup, take_digits hi, value_digits, hquot, Nat.mod_eq_of_lt hsmall, Nat.mul_assoc,
      Nat.mul_comm m, ← hm]
  rw [regroup, length_regroup hi, hkept, take_digits hk,
    Nat.mul_div_cancel _ (Nat.pow_pos hr), digits_value hr hds]

end Radix
