import CertGuard.Lib.Gregorian
import Mathlib.Data.List.DropRight
import Mathlib.Tactic.Ring

/-!
# RFC 3339 time text

Instants are nanoseconds since the start of year 1 in UTC, so that the zero
instant is the number `0`. They are printed with whole seconds (`format`) or with
a fraction that drops its trailing zeros (`formatNano`), and read back by
`parse`, which also takes a numeric zone offset.

## Main definitions

* `Rfc3339.format`, `Rfc3339.formatNano` — printing in UTC
* `Rfc3339.parse` — reading

## Main results

* `Rfc3339.parse_format` — printing whole seconds loses only the fraction
* `Rfc3339.parse_formatNano` — printing with a fraction loses nothing
* `Rfc3339.parse_format_of_year` — what is printed is not always read
-/

namespace Rfc3339

open Gregorian

/-- Nanoseconds in a second. -/
abbrev oneSecond : Int := 1000000000

/-- Nanoseconds in a 24-hour day. -/
abbrev oneDay : Int := 86400000000000

/-! ### Decimal fields -/

/-- The last `w` decimal digits of `n`. -/
def digits : Nat → Nat → List Char
  | 0, _ => []
  | w + 1, n => digits w (n / 10) ++ [Nat.digitChar (n % 10)]

/-- A decimal number padded with zeros to a width, as wide as it has to be. -/
def appendInt (x : Int) (w : Nat) : List Char :=
  if x < 0 then '-' :: (if x.natAbs < 10 ^ w then digits w x.natAbs else Nat.toDigits 10 x.natAbs)
  else if x.natAbs < 10 ^ w then digits w x.natAbs
  else Nat.toDigits 10 x.natAbs

/-- The value of a decimal digit. -/
def digitVal (c : Char) : Option Nat := if c.isDigit then some (c.toNat - '0'.toNat) else none

/-- The number a list of digits spells, continuing from `acc`. -/
def parseDigits (acc : Nat) : List Char → Option Nat
  | [] => some acc
  | c :: cs => (digitVal c).bind fun d => parseDigits (10 * acc + d) cs

/-- A number in a range, spelled by digits only. -/
def parseUint (s : List Char) (lo hi : Nat) : Option Nat :=
  (parseDigits 0 s).filter fun n => lo ≤ n && n ≤ hi

theorem digitVal_digitChar : ∀ d, d < 10 → digitVal (Nat.digitChar d) = some d := by
  decide

theorem isDigit_digitChar : ∀ d, d < 10 → (Nat.digitChar d).isDigit = true := by
  decide

@[simp] theorem length_digits (w n : Nat) : (digits w n).length = w := by
  induction w generalizing n with
  | zero => rfl
  | succ w ih => simp [digits, ih]

theorem isDigit_of_mem_digits {w n : Nat} {c : Char} (hc : c ∈ digits w n) : c.isDigit = true := by
  induction w generalizing n with
  | zero => simp [digits] at hc
  | succ w ih =>
    simp only [digits, List.mem_append, List.mem_singleton] at hc
    rcases hc with hc | rfl
    · exact ih hc
    · exact isDigit_digitChar _ (Nat.mod_lt _ (by decide))

theorem parseDigits_append (acc : Nat) (xs ys : List Char) :
    parseDigits acc (xs ++ ys) = (parseDigits acc xs).bind fun n => parseDigits n ys := by
  induction xs generalizing acc with
  | nil => rfl
  | cons c xs ih =>
    simp only [List.cons_append, parseDigits]
    cases digitVal c with
    | none => rfl
    | some d => exact ih _

theorem parseDigits_digits (w n acc : Nat) :
    parseDigits acc (digits w n) = some (acc * 10 ^ w + n % 10 ^ w) := by
  induction w generalizing n with
  | zero => simp [digits, parseDigits, Nat.mod_one]
  | succ w ih =>
    have hd := digitVal_digitChar (n % 10) (Nat.mod_lt _ (by decide))
    have hmod : n % 10 ^ (w + 1) = 10 * (n / 10 % 10 ^ w) + n % 10 := by
      rw [Nat.pow_succ', Nat.mod_mul]
      omega
    simp only [digits, parseDigits_append, ih, Option.bind_some, parseDigits, hd]
    rw [hmod, Nat.pow_succ']
    congr 1
    ring

theorem parseUint_digits {w n : Nat} (lo hi : Nat) (hw : n < 10 ^ w) (hlo : lo ≤ n) (hhi : n ≤ hi) :
    parseUint (digits w n) lo hi = some n := by
  simp [parseUint, parseDigits_digits, Nat.mod_eq_of_lt hw, hlo, hhi]

/-! ### Printing -/

/-- The days from 1 January of year 1 to the day of an instant. -/
def dayNumber (t : Int) : Int := t / oneDay

/-- The seconds of the day of an instant. -/
def secondOfDay (t : Int) : Nat := (t % oneDay / oneSecond).toNat

/-- The nanoseconds within the second of an instant. -/
def nanosecond (t : Int) : Nat := (t % oneSecond).toNat

/-- The calendar year of an instant. -/
def year (t : Int) : Int := (ofDays (dayNumber t)).year

/-- The date of an instant, as in `2006-01-02`. -/
def formatDate (t : Int) : List Char :=
  let d := ofDays (dayNumber t)
  appendInt d.year 4 ++ '-' :: digits 2 d.month ++ '-' :: digits 2 d.day

/-- The time of day of an instant, as in `15:04:05`. -/
def formatClock (t : Int) : List Char :=
  let s := secondOfDay t
  digits 2 (s / 3600) ++ ':' :: digits 2 (s / 60 % 60) ++ ':' :: digits 2 (s % 60)

/-- A fraction of a second in as many digits as it needs; nothing for none. -/
def formatFraction (ns : Nat) : List Char :=
  if ns = 0 then [] else '.' :: (digits 9 ns).rdropWhile (· = '0')

/-- An instant in UTC, to the second. -/
def format (t : Int) : List Char := formatDate t ++ 'T' :: formatClock t ++ ['Z']

/-- An instant in UTC, to the nanosecond. -/
def formatNano (t : Int) : List Char :=
  formatDate t ++ 'T' :: formatClock t ++ formatFraction (nanosecond t) ++ ['Z']

/-! ### Reading -/

/-- The optional fraction: a point and at least one digit. Digits after the ninth
are dropped. Returns the nanoseconds and the text that follows. -/
def parseFraction (s : List Char) : Option (Nat × List Char) :=
  match s with
  | '.' :: c :: rest =>
    if c.isDigit then
      let ds := ((c :: rest).takeWhile Char.isDigit).take 9
      (parseDigits 0 ds).map fun n =>
        (n * 10 ^ (9 - ds.length), (c :: rest).dropWhile Char.isDigit)
    else some (0, s)
  | _ => some (0, s)

/-- The zone: `Z`, or a sign, hours and minutes. Returns seconds east of UTC. -/
def parseZone (s : List Char) : Option Int :=
  match s with
  | ['Z'] => some 0
  | [sign, h0, h1, colon, m0, m1] => do
    let hr ← parseUint [h0, h1] 0 23
    let mm ← parseUint [m0, m1] 0 59
    if (sign = '-' ∨ sign = '+') ∧ colon = ':' then
      some (if sign = '-' then -((hr * 60 + mm) * 60 : Nat) else ((hr * 60 + mm) * 60 : Nat))
    else none
  | _ => none

/-- The instant of a date and a time of day in UTC. -/
def instant (d : Date) (sec ns : Nat) : Int := toDays d * oneDay + sec * oneSecond + ns

/-- Reads the text of an instant: date, `T`, time of day, fraction and zone. -/
def parse (s : List Char) : Option Int :=
  match s with
  | y0 :: y1 :: y2 :: y3 :: p4 :: m0 :: m1 :: p7 :: d0 :: d1 :: p10 :: h0 :: h1 :: p13 ::
      n0 :: n1 :: p16 :: s0 :: s1 :: rest => do
    let year ← parseUint [y0, y1, y2, y3] 0 9999
    let month ← parseUint [m0, m1] 1 12
    let day ← parseUint [d0, d1] 1 (daysIn month year)
    let hour ← parseUint [h0, h1] 0 23
    let min ← parseUint [n0, n1] 0 59
    let sec ← parseUint [s0, s1] 0 59
    if p4 = '-' ∧ p7 = '-' ∧ p10 = 'T' ∧ p13 = ':' ∧ p16 = ':' then
      let (ns, rest) ← parseFraction rest
      let offset ← parseZone rest
      some (instant ⟨year, month, day⟩ (hour * 3600 + min * 60 + sec) ns - offset * oneSecond)
    else none
  | _ => none

/-! ### Reading what was printed -/

theorem secondOfDay_lt (t : Int) : secondOfDay t < 86400 := by
  unfold secondOfDay oneDay oneSecond
  omega

theorem nanosecond_lt (t : Int) : nanosecond t < 10 ^ 9 := by
  unfold nanosecond oneSecond
  omega

/-- An instant is its day, its second of the day and its nanosecond. -/
theorem instant_of_fields (t : Int) :
    instant (ofDays (dayNumber t)) (secondOfDay t) (nanosecond t) = t := by
  rw [instant, toDays_ofDays]
  unfold dayNumber secondOfDay nanosecond oneDay oneSecond
  omega

theorem appendInt_eq_digits {y : Int} (h0 : 0 ≤ y) (h1 : y ≤ 9999) :
    appendInt y 4 = digits 4 y.toNat := by
  have hneg : ¬ y < 0 := by omega
  have hlt : y.natAbs < 10 ^ 4 := by omega
  have habs : y.natAbs = y.toNat := by omega
  rw [appendInt, if_neg hneg, if_pos hlt, habs]

theorem parseFraction_of_head {c : Char} {s : List Char} (h : c ≠ '.') :
    parseFraction (c :: s) = some (0, c :: s) := by
  simp [parseFraction, h]

/-- Zeros dropped from the end of a fraction are put back by its width. -/
theorem parseDigits_rdropWhile (ds : List Char) (acc : Nat) {n : Nat}
    (h : parseDigits acc ds = some n) :
    ∃ m, parseDigits acc (ds.rdropWhile (· = '0')) = some m ∧
      m * 10 ^ (ds.length - (ds.rdropWhile (· = '0')).length) = n := by
  induction ds using List.reverseRecOn generalizing n with
  | nil => exact ⟨n, h, by simp⟩
  | append_singleton ds c ih =>
    by_cases hc : c = '0'
    · -- a zero that is dropped was worth a power of ten
      subst hc
      rw [parseDigits_append, Option.bind_eq_some_iff] at h
      obtain ⟨k, hk, hz⟩ := h
      have hz' : 10 * k = n := by simpa [parseDigits, digitVal] using hz
      obtain ⟨m, hm, hmk⟩ := ih hk
      have hlen : (ds.rdropWhile (· = '0')).length ≤ ds.length :=
        (List.rdropWhile_prefix (p := (· = '0')) ds).length_le
      have hdrop : (ds ++ ['0']).rdropWhile (· = '0') = ds.rdropWhile (· = '0') := by
        simp
      refine ⟨m, by rw [hdrop]; exact hm, ?_⟩
      rw [hdrop, List.length_append, List.length_singleton, Nat.sub_add_comm hlen,
        Nat.pow_succ', ← hz', ← hmk]
      ring
    · have hdrop : (ds ++ [c]).rdropWhile (· = '0') = ds ++ [c] := by
        simp [hc]
      exact ⟨n, by rw [hdrop]; exact h, by simp [hdrop]⟩

theorem parseFraction_formatFraction {ns : Nat} (h : ns < 10 ^ 9) :
    parseFraction (formatFraction ns ++ ['Z']) = some (ns, ['Z']) := by
  by_cases h0 : ns = 0
  · subst h0
    rfl
  · have hval : parseDigits 0 (digits 9 ns) = some ns := by
      rw [parseDigits_digits, Nat.mod_eq_of_lt h]
      simp
    -- the zeros that were cut off at the end are put back as powers of ten
    obtain ⟨m, hm, hmul⟩ := parseDigits_rdropWhile _ _ hval
    have hinit := List.rdropWhile_prefix (p := (· = '0')) (digits 9 ns)
    rw [formatFraction, if_neg h0]
    generalize (digits 9 ns).rdropWhile (· = '0') = ds at *
    have hlen : ds.length ≤ 9 := by simpa using hinit.length_le
    have hdigit : ∀ c ∈ ds, c.isDigit = true := fun c hc =>
      isDigit_of_mem_digits (hinit.subset hc)
    cases ds with
    | nil =>
      -- nothing but zeros
      simp only [parseDigits, Option.some.injEq] at hm
      exact absurd (by rw [← hmul, ← hm]; simp) h0
    | cons c cs =>
      have htake : ((c :: cs) ++ ['Z']).takeWhile Char.isDigit = c :: cs := by
        rw [List.takeWhile_append_of_pos hdigit]
        simp
      have hdrop : ((c :: cs) ++ ['Z']).dropWhile Char.isDigit = ['Z'] := by
        rw [List.dropWhile_append_of_pos hdigit]
        simp
      have hc : c.isDigit = true := hdigit c (by simp)
      rw [List.cons_append] at htake hdrop
      simp only [List.cons_append, parseFraction, hc, if_true, htake, hdrop,
        List.take_of_length_le hlen, hm, Option.map_some]
      rw [length_digits] at hmul
      rw [hmul]

/-- Reading the fields of a date and a time of day back from their digits. -/
theorem parse_fields {y m d h n s ns : Nat} {rest : List Char} (hy : y ≤ 9999)
    (hdate : Date.Valid ⟨y, m, d⟩) (hh : h ≤ 23) (hn : n ≤ 59) (hs : s ≤ 59)
    (hrest : parseFraction rest = some (ns, ['Z'])) :
    parse (digits 4 y ++ '-' :: digits 2 m ++ '-' :: digits 2 d ++
        'T' :: (digits 2 h ++ ':' :: digits 2 n ++ ':' :: digits 2 s) ++ rest) =
      some (instant ⟨y, m, d⟩ (h * 3600 + n * 60 + s) ns) := by
  obtain ⟨hm1, hm2, hd1, hd2⟩ := hdate
  dsimp only at hm1 hm2 hd1 hd2
  have hdlt : d < 10 ^ 2 := by
    have : daysIn m y ≤ 31 := by
      unfold daysIn
      split_ifs <;> omega
    omega
  -- every field is read back with its own bounds
  have hY := parseUint_digits (w := 4) (n := y) 0 9999 (by omega) (by omega) hy
  have hM := parseUint_digits (w := 2) (n := m) 1 12 (by omega) hm1 hm2
  have hD := parseUint_digits (w := 2) 1 _ hdlt hd1 hd2
  have hH := parseUint_digits (w := 2) (n := h) 0 23 (by omega) (by omega) hh
  have hN := parseUint_digits (w := 2) (n := n) 0 59 (by omega) (by omega) hn
  have hS := parseUint_digits (w := 2) (n := s) 0 59 (by omega) (by omega) hs
  -- what is left is a text whose separators are known, so that the match reduces
  change (do
    let year ← parseUint (digits 4 y) 0 9999
    let month ← parseUint (digits 2 m) 1 12
    let day ← parseUint (digits 2 d) 1 (daysIn month year)
    let hour ← parseUint (digits 2 h) 0 23
    let min ← parseUint (digits 2 n) 0 59
    let sec ← parseUint (digits 2 s) 0 59
    if '-' = '-' ∧ '-' = '-' ∧ 'T' = 'T' ∧ ':' = ':' ∧ ':' = ':' then
      let (ns, rest) ← parseFraction rest
      let offset ← parseZone rest
      some (instant ⟨year, month, day⟩ (hour * 3600 + min * 60 + sec) ns - offset * oneSecond)
    else none) = _
  simp [hY, hM, hD, hH, hN, hS, hrest, parseZone]

/-- The text before the fraction determines an instant up to its nanoseconds. -/
theorem parse_formatDate_formatClock {t : Int} (h0 : 0 ≤ year t) (h1 : year t ≤ 9999)
    {rest : List Char} {ns : Nat} (hrest : parseFraction rest = some (ns, ['Z'])) :
    parse (formatDate t ++ 'T' :: formatClock t ++ rest) =
      some (instant (ofDays (dayNumber t)) (secondOfDay t) ns) := by
  have hsod := secondOfDay_lt t
  have hyear : ((year t).toNat : Int) = year t := Int.toNat_of_nonneg h0
  have hvalid : Date.Valid ⟨(year t).toNat, (ofDays (dayNumber t)).month,
      (ofDays (dayNumber t)).day⟩ := by
    rw [hyear]
    exact ofDays_valid (dayNumber t)
  have hparse := parse_fields (h := secondOfDay t / 3600) (n := secondOfDay t / 60 % 60)
    (s := secondOfDay t % 60) (by omega) hvalid (by omega) (by omega) (by omega) hrest
  rw [hyear] at hparse
  rw [formatDate, appendInt_eq_digits (y := (ofDays (dayNumber t)).year) h0 h1]
  refine hparse.trans ?_
  congr 2
  omega

/-- Printing to the nanosecond and reading back is the identity. -/
theorem parse_formatNano {t : Int} (h0 : 0 ≤ year t) (h1 : year t ≤ 9999) :
    parse (formatNano t) = some t := by
  have hfrac := parseFraction_formatFraction (nanosecond_lt t)
  rw [formatNano, List.append_assoc, parse_formatDate_formatClock h0 h1 hfrac, instant_of_fields]

/-- Printing to the second and reading back drops the fraction. -/
theorem parse_format {t : Int} (h0 : 0 ≤ year t) (h1 : year t ≤ 9999) :
    parse (format t) = some (t - nanosecond t) := by
  have hfrac : parseFraction ['Z'] = some (0, ['Z']) := parseFraction_of_head (by decide)
  rw [format, parse_formatDate_formatClock h0 h1 hfrac]
  have h := instant_of_fields t
  unfold instant at *
  congr 1
  omega

/-- A text that is read starts with four digits and a dash. -/
theorem head_of_parse {s : List Char} {t : Int} (h : parse s = some t) :
    (∃ c, s.head? = some c ∧ c.isDigit = true) ∧ s[4]? = some '-' := by
  unfold parse at h
  split at h
  · rename_i y0 y1 y2 y3 p4 m0 m1 p7 d0 d1 p10 h0 h1 p13 n0 n1 p16 s0 s1 rest
    simp only [Option.bind_eq_bind, Option.bind_eq_some_iff] at h
    obtain ⟨year, hyear, month, -, day, -, hour, -, min, -, sec, -, hite⟩ := h
    split at hite
    · rename_i hmarks
      refine ⟨⟨y0, rfl, ?_⟩, ?_⟩
      · by_contra hdigit
        simp [parseUint, parseDigits, digitVal, hdigit] at hyear
      · simp [hmarks.1]
    · exact absurd hite (by simp)
  · exact absurd h (by simp)

/-- A year that has not four digits is not read back. -/
theorem parse_format_of_year {t : Int} (h : year t < 0 ∨ 9999 < year t) :
    parse (format t) = none := by
  cases hparse : parse (format t) with
  | none => rfl
  | some u =>
    exfalso
    obtain ⟨⟨c, hc, hdigit⟩, hdash⟩ := head_of_parse hparse
    simp only [format, formatDate, List.append_assoc, List.cons_append] at hc hdash
    rw [year] at h
    rcases h with hneg | hbig
    · rw [appendInt, if_pos hneg] at hc
      obtain rfl := Option.some.inj hc
      exact absurd hdigit (by decide)
    · have hlen : 4 < (Nat.toDigits 10 (ofDays (dayNumber t)).year.natAbs).length := by
        rw [← not_le, Nat.length_toDigits_le_iff (by decide) (by decide)]
        omega
      rw [appendInt, if_neg (by omega), if_neg (by omega), List.getElem?_append_left hlen] at hdash
      exact absurd (Nat.isDigit_of_mem_toDigits (by decide) (by decide)
        (List.mem_of_getElem? hdash)) (by decide)

/-- Printing looks at the whole seconds only. -/
theorem format_sub_fraction (t : Int) : format (t - t % oneSecond) = format t := by
  have hday : dayNumber (t - t % oneSecond) = dayNumber t := by
    simp only [dayNumber, oneDay, oneSecond]
    omega
  have hsec : secondOfDay (t - t % oneSecond) = secondOfDay t := by
    simp only [secondOfDay, oneDay, oneSecond]
    omega
  simp only [format, formatDate, formatClock, hday, hsec]

example : formatNano 63881568000120000000 = "2025-04-30T00:00:00.12Z".toList := by decide

example : parse "2025-04-30T02:00:00.5+02:00".toList = some 63881568000500000000 := by decide

end Rfc3339
