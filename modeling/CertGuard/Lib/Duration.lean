import CertGuard.Lib.Double
import CertGuard.Lib.GoString
import Mathlib.Algebra.GroupWithZero.Nat

/-!
# Texts of durations

What `time.ParseDuration` and `strconv.Atoi` make of a text. A duration is a sequence of numbers
with units, each of which is read to whole nanoseconds; they are added up in 64 bits.

## Main definitions

* `Duration.nextPart` — the next number with its unit, in nanoseconds
* `Duration.parse` — `time.ParseDuration`
* `Duration.amount` — the sum of what was read, however large
* `Duration.atoi` — `strconv.Atoi`

## Main results

* `Duration.length_nextPart` — a part is not empty
* `Duration.parse_pos_iff` — when a duration is positive and the sum of its parts
-/

namespace Duration

/-- A 64-bit number with a sign. -/
def wrap (n : Int) : Int := n.bmod (2 ^ 64)

/-- The value of a digit. -/
def digit? : Rune → Option Nat
  | .char c => if c.isDigit then some (c.toNat - '0'.toNat) else none
  | .stray _ => none

/-- What ends a unit: a digit or a point. -/
def startsNumber (r : Rune) : Bool := r = .char '.' || (digit? r).isSome

/-! ### Numbers -/

/-- `leadingInt`, from what was read of the number so far. -/
def leadingInt (x : Nat) : GoString → Option (Nat × GoString)
  | [] => some (x, [])
  | r :: s =>
    match digit? r with
    | none => some (x, r :: s)
    | some d =>
      if 2 ^ 63 / 10 < x then none
      else if 2 ^ 63 < x * 10 + d then none
      else leadingInt (x * 10 + d) s

/-- A fraction as far as it was read: the number `f` of its digits, the power of ten below it, and
whether further digits are dropped. -/
structure Fraction where
  f : Nat := 0
  scale : ℚ := 1
  overflow : Bool := false

/-- One more digit of a fraction. -/
def Fraction.digit (p : Fraction) (d : Nat) : Fraction :=
  if p.overflow then p
  else if (2 ^ 63 - 1) / 10 < p.f then { p with overflow := true }
  else if 2 ^ 63 < p.f * 10 + d then { p with overflow := true }
  else { p with f := p.f * 10 + d, scale := Double.round (p.scale * 10) }

/-- `leadingFraction`, from what was read so far. -/
def leadingFraction (p : Fraction) : GoString → Fraction × GoString
  | [] => (p, [])
  | r :: s =>
    match digit? r with
    | none => (p, r :: s)
    | some d => leadingFraction (p.digit d) s

/-- The nanoseconds of a fraction of a unit, in double precision. Exponents have no bounds here:
beyond those of a `float64` no whole nanosecond is left. -/
def Fraction.nanos (p : Fraction) (unit : Nat) : Nat :=
  if 0 < p.f then
    ⌊Double.round (Double.round p.f * Double.round (Double.round unit / p.scale))⌋₊
  else 0

/-- The units with their nanoseconds. -/
def unitMap : List (String × Nat) :=
  [("ns", 1), ("us", 1000), ("\u00b5s", 1000), ("\u03bcs", 1000), ("ms", 1000000),
    ("s", 1000000000), ("m", 60 * 1000000000), ("h", 3600 * 1000000000)]

/-- The nanoseconds of a unit. -/
def unitOf (u : GoString) : Option Nat :=
  (unitMap.find? fun e => GoString.ofString e.1 = u).map Prod.snd

/-! ### Durations -/

/-- The digits before the point and those after it, with what follows; there have to be some. -/
def number (s : GoString) : Option (Nat × Fraction × GoString) :=
  (leadingInt 0 s).bind fun whole =>
    if whole.2.head? = some (.char '.') then
      let fraction := leadingFraction {} whole.2.tail
      if whole.2.length ≠ s.length ∨ fraction.2.length ≠ whole.2.tail.length then
        some (whole.1, fraction)
      else none
    else if whole.2.length ≠ s.length then some (whole.1, {}, whole.2)
    else none

/-- The next number with its unit, in nanoseconds, with what follows. The sum fits in 64 bits where
it is compared: a fraction adds less than 16 units. -/
def nextPart (s : GoString) : Option (Nat × GoString) :=
  if s.head?.all (fun r => !startsNumber r) then none
  else
    (number s).bind fun n =>
      let rest := n.2.2
      let u := rest.takeWhile fun r => !startsNumber r
      if u = [] then none
      else
        (unitOf u).bind fun unit =>
          if 2 ^ 63 / unit < n.1 then none
          else
            let v := n.1 * unit + n.2.1.nanos unit
            if 0 < n.2.1.f ∧ 2 ^ 63 < v then none
            else some (v, rest.dropWhile fun r => !startsNumber r)

variable {s rest : GoString} {n : Nat × Fraction × GoString} {p : Nat × GoString}

theorem length_leadingInt {x : Nat} (h : leadingInt x s = some p) : p.2.length ≤ s.length := by
  induction s generalizing x with
  | nil =>
    obtain rfl := Option.some.inj h
    exact Nat.le_refl _
  | cons r s ih =>
    simp only [leadingInt] at h
    split at h
    · obtain rfl := Option.some.inj h
      exact Nat.le_refl _
    · split_ifs at h
      exact (ih h).trans (Nat.le_succ _)

theorem length_leadingFraction (q : Fraction) (s : GoString) :
    (leadingFraction q s).2.length ≤ s.length := by
  induction s generalizing q with
  | nil => exact Nat.le_refl _
  | cons r s ih =>
    simp only [leadingFraction]
    split
    · exact Nat.le_refl _
    · exact (ih _).trans (Nat.le_succ _)

theorem length_number (h : number s = some n) : n.2.2.length ≤ s.length := by
  obtain ⟨whole, hwhole, h⟩ := Option.bind_eq_some_iff.mp h
  have hle := length_leadingInt hwhole
  dsimp only at h
  split_ifs at h
  · obtain rfl := Option.some.inj h
    have hfraction := length_leadingFraction {} whole.2.tail
    rw [List.length_tail] at hfraction
    dsimp only
    omega
  · obtain rfl := Option.some.inj h
    exact hle

/-- A part is not empty. -/
theorem length_nextPart (h : nextPart s = some p) : p.2.length < s.length := by
  unfold nextPart at h
  split_ifs at h
  obtain ⟨n, hnumber, h⟩ := Option.bind_eq_some_iff.mp h
  dsimp only at h
  split_ifs at h with hunit
  obtain ⟨unit, -, h⟩ := Option.bind_eq_some_iff.mp h
  split_ifs at h
  obtain rfl := Option.some.inj h
  -- the unit is not empty
  have hsplit := congrArg List.length (List.takeWhile_append_dropWhile (l := n.2.2)
    (p := fun r => !startsNumber r))
  have hpos := List.length_pos_of_ne_nil hunit
  have hle := length_number hnumber
  rw [List.length_append] at hsplit
  dsimp only
  omega

/-- The parts of a text, in nanoseconds. -/
def parts (s : GoString) : Option (List Nat) :=
  if s = [] then some []
  else
    match _h : nextPart s with
    | none => none
    | some p => (parts p.2).map (p.1 :: ·)
termination_by s.length
decreasing_by exact length_nextPart ‹_›

/-- The loop of `ParseDuration`, from what was added up so far in 64 bits. -/
def addParts (d : Nat) (s : GoString) : Option Nat :=
  if s = [] then some d
  else
    match _h : nextPart s with
    | none => none
    | some p =>
      if 2 ^ 63 < (d + p.1) % 2 ^ 64 then none else addParts ((d + p.1) % 2 ^ 64) p.2
termination_by s.length
decreasing_by exact length_nextPart ‹_›

/-- A text without its sign. -/
def unsigned (s : GoString) : GoString :=
  if s.head? = some (.char '-') ∨ s.head? = some (.char '+') then s.tail else s

/-- `time.ParseDuration`, in nanoseconds. -/
def parse (s : GoString) : Option Int :=
  if unsigned s = GoString.ofString "0" then some 0
  else if unsigned s = [] then none
  else
    (addParts 0 (unsigned s)).bind fun d =>
      if s.head? = some (.char '-') then some (wrap (-wrap d))
      else if 2 ^ 63 - 1 < d then none
      else some (wrap d)

/-- What the parts of a text come to, however much that is. -/
def amount (s : GoString) : Int :=
  let total : Nat :=
    if unsigned s = GoString.ofString "0" then 0 else ((parts (unsigned s)).getD []).sum
  if s.head? = some (.char '-') then -total else total

/-- `strconv.Atoi`. -/
def atoi (s : GoString) : Option Int :=
  if unsigned s = [] then none
  else
    ((unsigned s).mapM digit?).bind fun digits =>
      let n : Nat := digits.foldl (fun x d => x * 10 + d) 0
      let n : Int := if s.head? = some (.char '-') then -n else n
      if -2 ^ 63 ≤ n ∧ n < 2 ^ 63 then some n else none

/-! ### What is added up -/

theorem parts_nil : parts [] = some [] := by
  rw [parts, if_pos rfl]

theorem ne_nil_of_nextPart (h : nextPart s = some p) : s ≠ [] := by
  rintro rfl
  exact absurd (length_nextPart h) (Nat.not_lt_zero _)

theorem parts_of_nextPart (h : nextPart s = some p) :
    parts s = (parts p.2).map (p.1 :: ·) := by
  rw [parts, if_neg (ne_nil_of_nextPart h)]
  split
  · next hnone => exact absurd (hnone.symm.trans h) (by simp)
  · next hsome => rw [Option.some.inj (hsome.symm.trans h)]

theorem addParts_nil (d : Nat) : addParts d [] = some d := by
  rw [addParts, if_pos rfl]

theorem addParts_of_none {d : Nat} (hs : s ≠ []) (h : nextPart s = none) :
    addParts d s = none := by
  rw [addParts, if_neg hs]
  split
  · rfl
  · next hsome => exact absurd (hsome.symm.trans h) (by simp)

theorem addParts_of_nextPart {d : Nat} (h : nextPart s = some p) : addParts d s =
    if 2 ^ 63 < (d + p.1) % 2 ^ 64 then none else addParts ((d + p.1) % 2 ^ 64) p.2 := by
  rw [addParts, if_neg (ne_nil_of_nextPart h)]
  split
  · next hnone => exact absurd (hnone.symm.trans h) (by simp)
  · next hsome => rw [Option.some.inj (hsome.symm.trans h)]

/-- What is added up is the sum of the parts, but in 64 bits. -/
theorem addParts_eq_some {d d' : Nat} (hd : d ≤ 2 ^ 63) (h : addParts d s = some d') :
    d' ≤ 2 ^ 63 ∧ ∃ vs, parts s = some vs ∧ d' = (d + vs.sum) % 2 ^ 64 := by
  induction d, s using addParts.induct with
  | case1 d =>
    rw [addParts_nil] at h
    obtain rfl := Option.some.inj h
    refine ⟨hd, [], parts_nil, ?_⟩
    rw [List.sum_nil]
    omega
  | case2 d s hs hnone => exact absurd h (by simp [addParts_of_none hs hnone])
  | case3 d s hs p hsome hover =>
    rw [addParts_of_nextPart hsome, if_pos hover] at h
    exact absurd h (by simp)
  | case4 d s hs p hsome hle ih =>
    rw [addParts_of_nextPart hsome, if_neg hle] at h
    -- the sum so far is taken modulo `2 ^ 64`, as the whole sum is
    obtain ⟨hd', vs, hvs, hsum⟩ := ih (not_lt.mp hle) h
    refine ⟨hd', p.1 :: vs, by rw [parts_of_nextPart hsome, hvs, Option.map_some], ?_⟩
    rw [hsum, List.sum_cons, Nat.mod_add_mod, Nat.add_assoc]

theorem wrap_of_lt {n : Int} (hlow : -2 ^ 63 ≤ n) (hlt : n < 2 ^ 63) : wrap n = n :=
  Int.bmod_eq_of_le (by omega) (by omega)

/-- A number of 64 bits read with a sign, and its negative. -/
theorem wrap_neg_wrap {d : Nat} (hd : d ≤ 2 ^ 63) : wrap (-wrap d) = -d := by
  rcases hd.lt_or_eq with hlt | rfl
  · rw [wrap_of_lt (n := d) (by omega) (by omega), wrap_of_lt (by omega) (by omega)]
  · decide

/-- A duration that is read is what its parts come to in 64 bits. -/
theorem parse_eq_some {x : Int} (h : parse s = some x) : ∃ total d : Nat, d = total % 2 ^ 64 ∧
    if s.head? = some (.char '-') then amount s = -total ∧ x = -d
    else amount s = total ∧ x = d ∧ d < 2 ^ 63 := by
  unfold parse at h
  by_cases hzero : unsigned s = GoString.ofString "0"
  · rw [if_pos hzero] at h
    obtain rfl := Option.some.inj h
    refine ⟨0, 0, rfl, ?_⟩
    split_ifs with hsign <;> simp [amount, hzero, hsign]
  · rw [if_neg hzero, Option.ite_none_left_eq_some] at h
    obtain ⟨d, hd, hread⟩ := Option.bind_eq_some_iff.mp h.2
    obtain ⟨hle, vs, hvs, hsum⟩ := addParts_eq_some (Nat.zero_le _) hd
    rw [Nat.zero_add] at hsum
    refine ⟨vs.sum, d, hsum, ?_⟩
    split_ifs at hread ⊢ with hsign hover
    · obtain rfl := Option.some.inj hread
      exact ⟨by simp [amount, hzero, hsign, hvs], wrap_neg_wrap hle⟩
    · obtain rfl := Option.some.inj hread
      have hlt : d < 2 ^ 63 := by omega
      exact ⟨by simp [amount, hzero, hsign, hvs], wrap_of_lt (by omega) (by omega), hlt⟩

/-- A duration that is read is positive and what its parts come to exactly if that is positive
and has 63 binary digits at most. -/
theorem parse_pos_iff {x : Int} (h : parse s = some x) :
    0 < x ∧ x = amount s ↔ 0 < amount s ∧ amount s < 2 ^ 63 := by
  obtain ⟨total, d, hd, hcases⟩ := parse_eq_some h
  split_ifs at hcases with hsign
  · obtain ⟨hamount, rfl⟩ := hcases
    rw [hamount]
    omega
  · obtain ⟨hamount, rfl, hlt⟩ := hcases
    rw [hamount]
    omega

end Duration
