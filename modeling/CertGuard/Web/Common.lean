import CertGuard.Lib.Markup
import CertGuard.Web.CsvExport

/-!
# What the pages share

The helpers of `common.js` that every page uses to write an entry: escaping, the remaining time,
how urgent it is, and the colours of the categories.

## Main definitions

* `escapeHtml`, `fmtRemaining`, `expiryLevel`, `relTime`, `categoryColor` — as in the source

## Main results

* `escapeHtml_eq` — data is escaped as a browser reads it
* `escape_fmtDate`, `escape_fmtRemaining`, `escape_expiryLevel` — what is written without escaping
  needs none
-/

namespace CertGuard.Common

open Markup Inventory

abbrev Text := List Char

/-! ### The helpers of the pages -/

/-- The five characters that could end a text or an attribute. -/
def escapeHtml (s : Text) : Text :=
  s.flatMap fun c =>
    match c with
    | '&' => "&amp;".toList
    | '<' => "&lt;".toList
    | '>' => "&gt;".toList
    | '"' => "&quot;".toList
    | '\'' => "&#39;".toList
    | c => [c]

def expiryLevel (days : Int) : Text :=
  if days ≤ 3 then "urgent".toList
  else if days ≤ 7 then "warn".toList
  else if days ≤ 30 then "notice".toList
  else "ok".toList

def fmtRemaining (days : Int) : Text :=
  if days < 0 then "expired ".toList ++ itoa days.natAbs ++ "d ago".toList
  else if days = 0 then "today".toList
  else if days = 1 then "1 day".toList
  else itoa days ++ " days".toList

/-- `relTime`, at a time in milliseconds. -/
def relTime (date : Text → Option Int) (now : Int) (iso : Text) : Text :=
  if iso = [] then []
  else
    match date iso with
    | none => []
    | some t =>
      let ms := max 0 (now - t)
      if ms < 45000 then "just now".toList
      else
        let m := ms / 60000
        if m < 60 then itoa m ++ "m ago".toList
        else
          let h := m / 60
          if h < 24 then itoa h ++ "h ago".toList
          else
            let d := h / 24
            if d < 30 then itoa d ++ "d ago".toList
            else
              let mo := d / 30
              if mo < 12 then itoa mo ++ "mo ago".toList
              else itoa (mo / 12) ++ "y ago".toList

/-- `CATEGORIES`: values with their colours. -/
def categoryColors : List (Text × Text) :=
  [("certificate".toList, "#3b82f6".toList),
    ("api-key".toList, "#8b5cf6".toList),
    ("subscription".toList, "#14b8a6".toList),
    ("domain".toList, "#f59e0b".toList),
    ("service".toList, "#ec4899".toList),
    ("other".toList, "#94a3b8".toList)]

def categoryColor (v : Text) : Text :=
  ((categoryColors.find? fun c => c.1 = v).map Prod.snd).getD "#94a3b8".toList

/-- How urgent a level is. -/
def urgency (level : Text) : Nat :=
  if level = "urgent".toList then 3
  else if level = "warn".toList then 2
  else if level = "notice".toList then 1
  else 0

/-! ### What needs no escaping -/

variable {date : Text → Option Int} {iso d : Text}

/-- `escapeHtml` writes data as a browser reads it. -/
theorem escapeHtml_eq : escapeHtml = escape := by
  funext s
  refine congrArg (List.flatMap · s) ?_
  funext c
  obtain hmark | ⟨hletter, hamp, hlt, hquot⟩ := mem_marks_or c
  · simp only [references, List.map_cons, List.map_nil, List.mem_cons, List.not_mem_nil,
      or_false] at hmark
    rcases hmark with rfl | rfl | rfl | rfl | rfl <;> rfl
  · have hgt : c ≠ '>' := by
      rintro rfl
      exact absurd hletter (by decide)
    have hapos : c ≠ '\'' := by
      rintro rfl
      exact absurd hletter (by decide)
    rw [hletter]
    split
    · exact absurd rfl hamp
    · exact absurd rfl hlt
    · exact absurd rfl hgt
    · exact absurd rfl hquot
    · exact absurd rfl hapos
    · rfl

theorem not_mark_of_isDigit {c : Char} (h : c.isDigit = true) : c ∉ references.map Prod.snd := by
  intro hmark
  simp only [references, List.map_cons, List.map_nil, List.mem_cons, List.not_mem_nil,
    or_false] at hmark
  rcases hmark with rfl | rfl | rfl | rfl | rfl <;> exact absurd h (by decide)

theorem escape_itoa (n : Int) : escape (itoa n) = itoa n := by
  have hdigits : escape (Nat.toDigits 10 n.natAbs) = Nat.toDigits 10 n.natAbs :=
    escape_of_plain fun c hc =>
      not_mark_of_isDigit (Nat.isDigit_of_mem_toDigits (by decide) (by decide) hc)
  unfold itoa
  split_ifs
  · rw [← List.singleton_append, escape_append, hdigits]
    rfl
  · exact hdigits

theorem escape_expiryLevel (days : Int) : escape (expiryLevel days) = expiryLevel days := by
  unfold expiryLevel
  split_ifs <;> decide

theorem escape_fmtRemaining (days : Int) : escape (fmtRemaining days) = fmtRemaining days := by
  unfold fmtRemaining
  split_ifs
  · simp only [escape_append, escape_itoa]
    rfl
  · decide
  · decide
  · simp only [escape_append, escape_itoa]
    rfl

/-- A date that is printed has digits, dashes, and at most a sign. -/
theorem escape_fmtDate (h : fmtDate date iso = some d) : escape d = d := by
  unfold fmtDate at h
  split_ifs at h
  · obtain rfl := Option.some.inj h
    decide
  · obtain ⟨ms, -, rfl⟩ := Option.map_eq_some_iff.mp h
    have hdigits : ∀ w n, ∀ c ∈ Rfc3339.digits w n, c ∉ references.map Prod.snd := fun w n c hc =>
      not_mark_of_isDigit (Rfc3339.isDigit_of_mem_digits hc)
    have hall : ∀ c ∈ toISOString ms, c ∉ references.map Prod.snd := by
      simp only [toISOString, Rfc3339.formatClock, List.forall_mem_append, List.forall_mem_cons]
      refine ⟨⟨⟨⟨⟨?_, by decide, hdigits _ _⟩, by decide, hdigits _ _⟩, by decide,
        ⟨hdigits _ _, by decide, hdigits _ _⟩, by decide, hdigits _ _⟩, by decide, hdigits _ _⟩,
        by decide, List.forall_mem_nil _⟩
      -- years beyond four digits have six and a sign
      split
      · exact hdigits _ _
      · refine List.forall_mem_cons.mpr ⟨?_, hdigits _ _⟩
        split <;> decide
    exact escape_of_plain fun c hc => hall c (List.mem_of_mem_take hc)

/-! ### Levels -/

/-- Fewer days are never less urgent. -/
theorem urgency_antitone {a b : Int} (h : a ≤ b) :
    urgency (expiryLevel b) ≤ urgency (expiryLevel a) := by
  have hlevel : ∀ d : Int, urgency (expiryLevel d) =
      if d ≤ 3 then 3 else if d ≤ 7 then 2 else if d ≤ 30 then 1 else 0 := by
    intro d
    unfold expiryLevel
    split_ifs <;> decide
  rw [hlevel, hlevel]
  split_ifs <;> omega

end CertGuard.Common
