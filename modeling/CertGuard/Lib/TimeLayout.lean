import CertGuard.Lib.Rfc3339

/-!
# Reading dates by a layout

A layout is read field by field. Two layouts are enough here, a date and the whole of a timestamp;
read this way, a timestamp may have an hour of one digit, a comma before its fraction, and a zone
of up to 24 hours and 60 minutes.

## Main definitions

* `TimeLayout.getnum`, `TimeLayout.skip` — the steps of a layout
* `TimeLayout.parseDate` — the layout `2006-01-02`
* `TimeLayout.parseTimestamp` — the layout `2006-01-02T15:04:05Z07:00`

## Main results

* `TimeLayout.exists_of_parseDate` — what is read as a date is one
-/

namespace TimeLayout

open Gregorian Rfc3339

/-- `getnum`: a number of one digit or two, or of two only. -/
def getnum (fixed : Bool) : List Char → Option (Nat × List Char)
  | a :: b :: s => do
    let d ← digitVal a
    match digitVal b with
    | some e => some (10 * d + e, s)
    | none => if fixed then none else some (d, b :: s)
  | [a] => if fixed then none else (digitVal a).map fun d => (d, [])
  | [] => none

/-- `getnum`, in a range. -/
def getnumIn (fixed : Bool) (lo hi : Nat) (s : List Char) : Option (Nat × List Char) :=
  (getnum fixed s).filter fun r => lo ≤ r.1 ∧ r.1 ≤ hi

/-- A text of the layout, here one character. -/
def skip (c : Char) : List Char → Option (List Char)
  | x :: s => if x = c then some s else none
  | [] => none

/-- Year, month and day, with what follows. The day is held against its month in the end. -/
def dateFields (s : List Char) : Option ((Nat × Nat × Nat) × List Char) :=
  match s with
  | y0 :: y1 :: y2 :: y3 :: s => do
    let year ← parseUint [y0, y1, y2, y3] 0 9999
    let s ← skip '-' s
    let (month, s) ← getnumIn true 1 12 s
    let s ← skip '-' s
    let (day, s) ← getnum true s
    some ((year, month, day), s)
  | _ => none

/-- Reads a date as the first instant of its day. -/
def parseDate (s : List Char) : Option Int := do
  let ((year, month, day), s) ← dateFields s
  if s = [] ∧ 1 ≤ day ∧ day ≤ daysIn month year then some (instant ⟨year, month, day⟩ 0 0) else none

/-- A fraction after a point or a comma. -/
def fraction (s : List Char) : Option (Nat × List Char) :=
  match s with
  | ',' :: c :: rest => if c.isDigit then parseFraction ('.' :: c :: rest) else some (0, s)
  | s => parseFraction s

/-- `Z`, or a sign, hours and minutes: seconds east of UTC. -/
def zone (s : List Char) : Option Int :=
  match s with
  | ['Z'] => some 0
  | [sign, h0, h1, ':', m0, m1] => do
    let hr ← parseUint [h0, h1] 0 24
    let mm ← parseUint [m0, m1] 0 60
    if sign = '+' then some ((hr * 60 + mm) * 60 : Nat)
    else if sign = '-' then some (-((hr * 60 + mm) * 60 : Nat))
    else none
  | _ => none

/-- Reads a timestamp. -/
def parseTimestamp (s : List Char) : Option Int := do
  let ((year, month, day), s) ← dateFields s
  let s ← skip 'T' s
  let (hour, s) ← getnumIn false 0 23 s
  let s ← skip ':' s
  let (min, s) ← getnumIn true 0 59 s
  let s ← skip ':' s
  let (sec, s) ← getnumIn true 0 59 s
  let (ns, s) ← fraction s
  let offset ← zone s
  if 1 ≤ day ∧ day ≤ daysIn month year then
    some (instant ⟨year, month, day⟩ (hour * 3600 + min * 60 + sec) ns - offset * oneSecond)
  else none

/-! ### Dates -/

/-- What is read as a date is the first instant of a day in a year of four digits. -/
theorem exists_of_parseDate {s : List Char} {t : Int} (h : parseDate s = some t) :
    ∃ d : Date, d.Valid ∧ (0 ≤ d.year ∧ d.year ≤ 9999) ∧ t = toDays d * oneDay := by
  simp only [parseDate, Option.bind_eq_bind, Option.bind_eq_some_iff] at h
  obtain ⟨⟨⟨year, month, day⟩, rest⟩, hfields, hdate⟩ := h
  obtain ⟨hyear, hmonth⟩ : year ≤ 9999 ∧ 1 ≤ month ∧ month ≤ 12 := by
    unfold dateFields at hfields
    split at hfields
    · simp only [Option.bind_eq_bind, Option.bind_eq_some_iff, Option.some.injEq,
        Prod.mk.injEq] at hfields
      obtain ⟨y, hy, _, -, ⟨m, _⟩, hm, _, -, _, -, ⟨rfl, rfl, -⟩, -⟩ := hfields
      simp only [parseUint, getnumIn, Option.filter_eq_some_iff, decide_eq_true_eq,
        Bool.and_eq_true] at hy hm
      exact ⟨hy.2.2, hm.2⟩
    · exact absurd hfields (by simp)
  dsimp only at hdate
  split_ifs at hdate with hday
  refine ⟨⟨year, month, day⟩, ⟨hmonth.1, hmonth.2, hday.2⟩, by dsimp only; omega, ?_⟩
  rw [← Option.some.inj hdate, instant]
  omega

example : parseTimestamp "2025-04-30T2:00:00,5+02:00".toList = some 63881568000500000000 := by
  decide

end TimeLayout
