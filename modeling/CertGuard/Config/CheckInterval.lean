import CertGuard.Lib.Duration

/-!
# How often the scheduler runs

The interval is read from the environment, as a duration or as a number of seconds, and goes to
`time.NewTicker` as it is, which panics unless it is positive.

## Main definitions

* `envDuration`, `checkInterval` — what is read
* `newTicker` — what `Scheduler.Start` makes of it
* `configuredInterval` — the time that was asked for
* `UsableInterval` — the values that ask for a time there is

## Main results

* `checkInterval_iff` — the scheduler runs as often as was asked for exactly for those
* `newTicker_checkInterval` — and for those it does not panic
* `checkInterval_wraps` — a number of seconds that makes a negative interval
-/

namespace CertGuard

/-- `time.Second`, in nanoseconds. -/
abbrev second : Int := 1000000000

/-- `time.Hour`. -/
abbrev hour : Int := 3600 * second

/-- `envDuration`, of the variable if it is set. -/
def envDuration (v : Option GoString) (dflt : Int) : Int :=
  match v with
  | none => dflt
  | some v =>
    if v = [] then dflt
    else
      match Duration.parse v with
      | some d => d
      | none =>
        match Duration.atoi v with
        | some secs => Duration.wrap (secs * second)
        | none => dflt

/-- `CheckInterval`, of `CERTGUARD_CHECK_INTERVAL`. -/
def checkInterval (v : Option GoString) : Int := envDuration v (6 * hour)

/-- `time.NewTicker` in `Scheduler.Start`: the time between its ticks, or a panic. -/
def newTicker (interval : Int) : Option Int := if interval ≤ 0 then none else some interval

/-! ### What was asked for -/

/-- The time that was asked for: what the parts of a duration come to, or the seconds, or the
default. -/
def configuredInterval (v : Option GoString) : Int :=
  match v with
  | none => 6 * hour
  | some v =>
    if v = [] then 6 * hour
    else if (Duration.parse v).isSome then Duration.amount v
    else ((Duration.atoi v).map (· * second)).getD (6 * hour)

/-- The value is read as a duration whose parts come to at least a nanosecond and to less than
`2 ^ 63` of them, or as a number from 1 to 9223372036, or not at all. -/
def UsableInterval (v : Option GoString) : Prop :=
  ∀ text, v = some text → text ≠ [] →
    ((Duration.parse text).isSome → 0 < Duration.amount text ∧ Duration.amount text < 2 ^ 63) ∧
    (Duration.parse text = none → ∀ secs, Duration.atoi text = some secs →
      1 ≤ secs ∧ secs ≤ 9223372036)

variable {v : Option GoString} {text : GoString}

/-! ### What is read -/

/-- As many seconds as have 63 binary digits of nanoseconds are kept. -/
theorem wrap_seconds_iff {secs : Int} : 0 < Duration.wrap (secs * second) ∧
    Duration.wrap (secs * second) = secs * second ↔ 1 ≤ secs ∧ secs ≤ 9223372036 := by
  unfold second
  constructor
  · rintro ⟨hpos, heq⟩
    -- what is kept has 63 binary digits
    have hlt : Duration.wrap (secs * 1000000000) < 2 ^ 63 := Int.bmod_lt (by decide)
    omega
  · rintro ⟨hpos, hle⟩
    rw [Duration.wrap_of_lt (by omega) (by omega)]
    exact ⟨by omega, rfl⟩

theorem checkInterval_of_parse {d : Int} (hne : text ≠ []) (h : Duration.parse text = some d) :
    checkInterval (some text) = d ∧ configuredInterval (some text) = Duration.amount text := by
  simp [checkInterval, envDuration, configuredInterval, hne, h]

theorem checkInterval_of_atoi {secs : Int} (hne : text ≠ []) (h : Duration.parse text = none)
    (hsecs : Duration.atoi text = some secs) :
    checkInterval (some text) = Duration.wrap (secs * second) ∧
      configuredInterval (some text) = secs * second := by
  simp [checkInterval, envDuration, configuredInterval, hne, h, hsecs]

theorem checkInterval_of_none (hne : text ≠ []) (h : Duration.parse text = none)
    (hsecs : Duration.atoi text = none) :
    checkInterval (some text) = 6 * hour ∧ configuredInterval (some text) = 6 * hour := by
  simp [checkInterval, envDuration, configuredInterval, hne, h, hsecs]

/-- Whatever the environment holds: the interval is positive and the time that was asked for
exactly if the value is usable. -/
theorem checkInterval_iff (v : Option GoString) :
    (0 < checkInterval v ∧ checkInterval v = configuredInterval v) ↔ UsableInterval v := by
  cases v with
  | none => exact iff_of_true (by decide) fun text h => absurd h (by simp)
  | some text =>
    have husable : UsableInterval (some text) ↔ (text ≠ [] →
        ((Duration.parse text).isSome → 0 < Duration.amount text ∧ Duration.amount text < 2 ^ 63) ∧
        (Duration.parse text = none → ∀ secs, Duration.atoi text = some secs →
          1 ≤ secs ∧ secs ≤ 9223372036)) := by
      simp [UsableInterval]
    rw [husable]
    -- `envDuration` tries a duration, then a number of seconds, then takes what it is given
    by_cases hne : text = []
    · rw [hne]
      exact iff_of_true (by decide) fun h => absurd rfl h
    · cases hparse : Duration.parse text with
      | some d =>
        obtain ⟨hread, hasked⟩ := checkInterval_of_parse hne hparse
        rw [hread, hasked, Duration.parse_pos_iff hparse]
        simp [hne]
      | none =>
        cases hatoi : Duration.atoi text with
        | some secs =>
          obtain ⟨hread, hasked⟩ := checkInterval_of_atoi hne hparse hatoi
          rw [hread, hasked, wrap_seconds_iff]
          simp [hne]
        | none =>
          obtain ⟨hread, hasked⟩ := checkInterval_of_none hne hparse hatoi
          rw [hread, hasked]
          exact iff_of_true (by decide) (by simp)

/-- The scheduler starts its ticker with the time that was asked for exactly if the value is
usable. -/
theorem newTicker_checkInterval (v : Option GoString) :
    newTicker (checkInterval v) = some (configuredInterval v) ↔ UsableInterval v := by
  rw [← checkInterval_iff, newTicker, Option.ite_none_left_eq_some, not_le, Option.some.injEq]

/-- A number of seconds for which the interval is negative. -/
theorem checkInterval_wraps :
    ¬ ∀ v, 0 < checkInterval v ∧ checkInterval v = configuredInterval v := by
  intro hall
  have hparse : Duration.parse (GoString.ofString "9223372037") = none := by
    have hpart : Duration.nextPart (GoString.ofString "9223372037") = none := by decide
    have hbody : Duration.unsigned (GoString.ofString "9223372037") =
        GoString.ofString "9223372037" := by decide
    rw [Duration.parse, hbody, Duration.addParts_of_none (by decide) hpart]
    decide
  have hatoi : Duration.atoi (GoString.ofString "9223372037") = some 9223372037 := by decide
  have hread := (checkInterval_of_atoi (by decide) hparse hatoi).1
  have hpos := (hall (some (GoString.ofString "9223372037"))).1
  rw [hread] at hpos
  exact absurd hpos (by decide)

end CertGuard
