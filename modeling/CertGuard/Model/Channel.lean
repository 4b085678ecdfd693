import Mathlib.Data.List.DropRight

/-!
# Notification channels

A channel is a user's destination for alerts, with the day-thresholds it
subscribes to written as comma-separated numbers.

## Main definitions

* `Channel` — a row of `notification_channels`
* `Channel.wantsThreshold` — whether the channel subscribes to a threshold
-/

namespace CertGuard

/-- The delivery mechanism of a channel. The column is free text, so a type the
program does not know is kept as it is. -/
inductive ChannelType
  | email
  | slack
  | discord
  | webhook
  | other (name : String)
  deriving DecidableEq, Repr

/-- A per-user notification destination. -/
structure Channel where
  id : Int
  userId : Int
  type : ChannelType
  target : String
  thresholds : String
  enabled : Bool
  deriving DecidableEq, Repr

/-- `unicode.IsSpace`. -/
def isSpace (c : Char) : Bool :=
  let n := c.toNat
  (9 ≤ n && n ≤ 13) || n = 0x20 || n = 0x85 || n = 0xA0 || n = 0x1680 ||
    (0x2000 ≤ n && n ≤ 0x200A) || n = 0x2028 || n = 0x2029 || n = 0x202F || n = 0x205F || n = 0x3000

/-- `strings.TrimSpace`. -/
def trimSpace (s : List Char) : List Char := (s.dropWhile isSpace).rdropWhile isSpace

/-- `strings.TrimPrefix`. -/
def trimPrefix (s start : List Char) : List Char :=
  if start <+: s then s.drop start.length else s

/-- `strconv.Itoa`. -/
def itoa (n : Int) : List Char :=
  if n < 0 then '-' :: Nat.toDigits 10 n.natAbs else Nat.toDigits 10 n.natAbs

/-- Whether the channel should be notified at a day-threshold. An empty list of
thresholds means all of them. -/
def Channel.wantsThreshold (c : Channel) (th : Int) : Bool :=
  if trimSpace c.thresholds.toList = [] then true
  else (c.thresholds.toList.splitOn ',').any fun p => trimSpace p = itoa th

example : (Channel.mk 1 1 .slack "" "30, 7" true).wantsThreshold 7 = true := by decide

/-! ### Digits -/

theorem toNat_of_isDigit {c : Char} (h : c.isDigit = true) : 48 ≤ c.toNat ∧ c.toNat ≤ 57 := by
  simp only [Char.isDigit, Bool.and_eq_true, decide_eq_true_eq, ge_iff_le,
    UInt32.le_iff_toNat_le] at h
  exact h

theorem isSpace_of_isDigit {c : Char} (h : c.isDigit = true) : isSpace c = false := by
  have hc := toNat_of_isDigit h
  simp only [isSpace, Bool.or_eq_false_iff, Bool.and_eq_false_iff, decide_eq_false_iff_not]
  omega

/-! ### Numbers as texts -/

theorem ne_of_isDigit {c x : Char} (hx : x.isDigit = false) (h : c.isDigit = true) : c ≠ x := by
  rintro rfl
  exact absurd (h.symm.trans hx) (by decide)

/-- A number has digits and perhaps a minus sign. -/
theorem not_mem_itoa {x : Char} (hx : x.isDigit = false) (hdash : x ≠ '-') (n : Int) :
    x ∉ itoa n := by
  have hdigits : x ∉ Nat.toDigits 10 n.natAbs := fun h =>
    ne_of_isDigit hx (Nat.isDigit_of_mem_toDigits (by decide) (by decide) h) rfl
  unfold itoa
  split_ifs
  · exact fun h => (List.mem_cons.mp h).elim hdash hdigits
  · exact hdigits

theorem dash_not_mem_toDigits (n : Nat) : '-' ∉ Nat.toDigits 10 n := fun h =>
  ne_of_isDigit (by decide) (Nat.isDigit_of_mem_toDigits (by decide) (by decide) h) rfl

theorem itoa_inj {a b : Int} (h : itoa a = itoa b) : a = b := by
  have hvalue : Nat.toDigits 10 a.natAbs = Nat.toDigits 10 b.natAbs → a.natAbs = b.natAbs := by
    intro heq
    rw [← @Nat.ofDigitChars_ten_toDigits a.natAbs, heq, Nat.ofDigitChars_ten_toDigits]
  unfold itoa at h
  split_ifs at h with ha hb hb
  · have := hvalue (List.cons.inj h).2
    omega
  · exact absurd (h ▸ List.mem_cons_self) (dash_not_mem_toDigits b.natAbs)
  · exact absurd (h ▸ List.mem_cons_self) (dash_not_mem_toDigits a.natAbs)
  · have := hvalue h
    omega

end CertGuard
