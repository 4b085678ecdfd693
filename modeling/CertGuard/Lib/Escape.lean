import Mathlib.Data.List.Basic

/-!
# Escaping

Some letters of a text are written as a mark and another letter. A reader that meets the mark takes
the letter after it for what it stands for; it takes no letter as it is that has to be escaped.

## Main definitions

* `Escaping` — the letters that are escaped, and what is written for each
* `Escaping.escape`, `Escaping.unescape` — writing and reading

## Main results

* `Escaping.unescape_escape_append` — what is written is read back, whatever follows
* `Escaping.not_mem_escape`, `Escaping.mem_escape_iff` — which letters are written
-/

/-- Which letters are escaped and how; the mark is one of them. -/
structure Escaping (α : Type*) where
  mark : α
  /-- What is written after the mark. -/
  code : α → Option α
  /-- What a letter after the mark stands for. -/
  meaning : α → Option α
  code_mark : code mark ≠ none
  meaning_code : ∀ {a b}, code a = some b → meaning b = some a

namespace Escaping

variable {α : Type*} (e : Escaping α) {a b : α} {s t : List α}

/-- What is written for one letter. -/
def letter (a : α) : List α :=
  match e.code a with
  | some b => [e.mark, b]
  | none => [a]

/-- Writes a text. -/
def escape (s : List α) : List α := s.flatMap e.letter

/-- Reads a text; `none` where the mark is followed by a letter that stands for nothing, or a letter
that has to be escaped is not. -/
def unescape [DecidableEq α] : List α → Option (List α)
  | [] => some []
  | a :: s =>
    if a = e.mark then
      match s with
      | [] => none
      | b :: s => (e.meaning b).bind fun c => (unescape s).map (c :: ·)
    else if e.code a = none then (unescape s).map (a :: ·)
    else none

variable {e}

theorem letter_of_some (h : e.code a = some b) : e.letter a = [e.mark, b] := by
  rw [letter, h]

theorem letter_of_none (h : e.code a = none) : e.letter a = [a] := by
  rw [letter, h]

/-- A letter that is escaped, and stands for none after the mark, is never written. -/
theorem not_mem_escape (ha : e.code a ≠ none) (hmark : a ≠ e.mark)
    (hcode : ∀ b, e.code b ≠ some a) : a ∉ e.escape s := by
  intro hmem
  obtain ⟨b, -, hb⟩ := List.mem_flatMap.mp hmem
  cases h : e.code b with
  | none =>
    rw [letter_of_none h, List.mem_singleton] at hb
    exact ha (hb ▸ h)
  | some d =>
    rw [letter_of_some h] at hb
    rcases List.mem_cons.mp hb with rfl | hd
    · exact hmark rfl
    · exact hcode b (List.mem_singleton.mp hd ▸ h)

/-- One that is not escaped, and stands for none either, is written where it is there. -/
theorem mem_escape_iff (ha : e.code a = none) (hcode : ∀ b, e.code b ≠ some a) :
    a ∈ e.escape s ↔ a ∈ s := by
  constructor
  · intro hmem
    obtain ⟨b, hb, hletter⟩ := List.mem_flatMap.mp hmem
    cases h : e.code b with
    | none =>
      rw [letter_of_none h, List.mem_singleton] at hletter
      exact hletter ▸ hb
    | some d =>
      rw [letter_of_some h] at hletter
      rcases List.mem_cons.mp hletter with rfl | hd
      · exact absurd ha e.code_mark
      · exact absurd (List.mem_singleton.mp hd ▸ h) (hcode b)
  · intro hmem
    exact List.mem_flatMap.mpr ⟨a, hmem, by rw [letter_of_none ha]; exact List.mem_cons_self⟩

variable [DecidableEq α]

@[simp] theorem unescape_nil : e.unescape [] = some [] := by
  rw [unescape]

theorem unescape_mark : e.unescape (e.mark :: b :: s) =
    (e.meaning b).bind fun c => (e.unescape s).map (c :: ·) := by
  rw [unescape, if_pos rfl]

theorem unescape_cons (h : e.code a = none) :
    e.unescape (a :: s) = (e.unescape s).map (a :: ·) := by
  have hmark : a ≠ e.mark := fun heq => e.code_mark (heq ▸ h)
  rw [unescape.eq_def]
  simp only [if_neg hmark, if_pos h]

/-- What is written is read back, whatever follows. -/
theorem unescape_escape_append (s t : List α) :
    e.unescape (e.escape s ++ t) = (e.unescape t).map (s ++ ·) := by
  induction s with
  | nil => simp [escape]
  | cons a s ih =>
    rw [escape, List.flatMap_cons, List.append_assoc, ← escape]
    cases hcode : e.code a with
    | none =>
      rw [letter_of_none hcode, List.singleton_append, unescape_cons hcode, ih, Option.map_map]
      rfl
    | some b =>
      rw [letter_of_some hcode, List.cons_append, List.singleton_append, unescape_mark,
        e.meaning_code hcode, Option.bind_some, ih, Option.map_map]
      rfl

/-- A text of letters that are not escaped is read as it is. -/
theorem unescape_of_plain (h : ∀ a ∈ s, e.code a = none) : e.unescape s = some s := by
  induction s with
  | nil => exact unescape_nil
  | cons a s ih =>
    rw [unescape_cons (h a List.mem_cons_self), ih fun b hb => h b (List.mem_cons_of_mem a hb)]
    rfl

end Escaping
