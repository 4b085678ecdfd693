import Mathlib.Data.List.Count
import Mathlib.Algebra.GroupWithZero.Nat

/-!
# Lines that end with CR LF

A text is written line by line, each ended by CR LF. A reader ends a line at CR LF, at a CR and at
an LF, so that a line break of either kind within a line makes two of it.

## Main definitions

* `ContentLines.write` — writing lines
* `ContentLines.read` — reading them

## Main results

* `ContentLines.read_write` — lines without breaks are read as they were written
* `ContentLines.length_read_write` — how many lines are read
-/

namespace ContentLines

variable {l s : List Char} {ls : List (List Char)}

/-- Writes lines, and ends each. -/
def write (ls : List (List Char)) : List Char := ls.flatMap fun l => l ++ ['\r', '\n']

/-- The lines of a text. The last one may not be ended. -/
def read : List Char → List (List Char)
  | [] => []
  | '\r' :: '\n' :: s => [] :: read s
  | c :: s =>
    if c = '\r' ∨ c = '\n' then [] :: read s
    else
      match read s with
      | [] => [[c]]
      | l :: ls => (c :: l) :: ls

/-- The line has no line break. -/
def Unbroken (l : List Char) : Prop := '\r' ∉ l ∧ '\n' ∉ l

instance (l : List Char) : Decidable (Unbroken l) := inferInstanceAs (Decidable (_ ∧ _))

theorem unbroken_append {m : List Char} : Unbroken (l ++ m) ↔ Unbroken l ∧ Unbroken m := by
  simp only [Unbroken, List.mem_append, not_or]
  exact and_and_and_comm

theorem unbroken_cons {c : Char} : Unbroken (c :: l) ↔ (c ≠ '\r' ∧ c ≠ '\n') ∧ Unbroken l := by
  simp only [Unbroken, List.mem_cons, not_or, ne_eq, eq_comm (a := c)]
  exact and_and_and_comm

@[simp] theorem write_nil : write [] = [] := rfl

@[simp] theorem write_cons (l : List Char) (ls : List (List Char)) :
    write (l :: ls) = l ++ '\r' :: '\n' :: write ls := by
  simp [write]

theorem read_crlf (s : List Char) : read ('\r' :: '\n' :: s) = [] :: read s := by
  rw [read]

/-- A CR that no LF follows ends a line. -/
theorem read_cr (hs : s.head? ≠ some '\n') : read ('\r' :: s) = [] :: read s := by
  cases s with
  | nil => rfl
  | cons c s =>
    rw [read]
    · simp
    · intro _ heq
      simp at heq
      simp_all

/-- Any other character is of the line that follows. -/
theorem read_cons {c : Char} (hcr : c ≠ '\r') (hlf : c ≠ '\n') :
    read (c :: s) = match read s with
      | [] => [[c]]
      | l :: ls => (c :: l) :: ls := by
  rw [read]
  · simp [hcr, hlf]
  · intro _ heq
    exact absurd heq hcr

/-- A line without breaks is read as it is. -/
theorem read_append (hl : Unbroken l) : read (l ++ '\r' :: '\n' :: s) = l :: read s := by
  induction l with
  | nil => exact read_crlf s
  | cons c l ih =>
    obtain ⟨⟨hcr, hlf⟩, hl⟩ := unbroken_cons.mp hl
    rw [List.cons_append, read_cons hcr hlf, ih hl]

/-- Each CR within a line makes one line more, if no LF is within it. -/
theorem length_read_append (hl : '\n' ∉ l) :
    (read (l ++ '\r' :: '\n' :: s)).length = l.count '\r' + 1 + (read s).length := by
  induction l with
  | nil => simp [read_crlf, Nat.add_comm]
  | cons c l ih =>
    obtain ⟨hlf, hrest⟩ : c ≠ '\n' ∧ '\n' ∉ l := by simpa [eq_comm] using hl
    rw [List.cons_append]
    by_cases hcr : c = '\r'
    · subst hcr
      have hhead : (l ++ '\r' :: '\n' :: s).head? ≠ some '\n' := by
        cases l with
        | nil => simp
        | cons d l =>
          have hd : d ≠ '\n' := fun heq => hrest (heq ▸ List.mem_cons_self)
          simpa using hd
      rw [read_cr hhead, List.length_cons, ih hrest, List.count_cons_self]
      omega
    · rw [read_cons hcr hlf, List.count_cons_of_ne hcr, ← ih hrest]
      -- there is a line to go on with, the one that is ended
      have hlength := ih hrest
      cases hread : read (l ++ '\r' :: '\n' :: s) with
      | nil =>
        rw [hread, List.length_nil] at hlength
        omega
      | cons m ms => rfl

/-- How many lines are read. -/
theorem length_read_write (hls : ∀ l ∈ ls, '\n' ∉ l) :
    (read (write ls)).length = ls.length + (ls.map (List.count '\r')).sum := by
  induction ls with
  | nil => rfl
  | cons l ls ih =>
    rw [write_cons, length_read_append (hls l List.mem_cons_self),
      ih fun m hm => hls m (List.mem_cons_of_mem l hm), List.length_cons, List.map_cons,
      List.sum_cons]
    omega

theorem read_write (hls : ∀ l ∈ ls, Unbroken l) : read (write ls) = ls := by
  induction ls with
  | nil => rfl
  | cons l ls ih =>
    rw [write_cons, read_append (hls l List.mem_cons_self),
      ih fun m hm => hls m (List.mem_cons_of_mem l hm)]

/-- If as many lines are read as were written, no line had a break. -/
theorem unbroken_of_length_read (hls : ∀ l ∈ ls, '\n' ∉ l)
    (h : (read (write ls)).length = ls.length) : ∀ l ∈ ls, Unbroken l := by
  intro l hl
  have hsum : (ls.map (List.count '\r')).sum = 0 := by
    have hlength := length_read_write hls
    omega
  have hcount : l.count '\r' = 0 :=
    List.sum_eq_zero_iff_forall_eq_nat.mp hsum _ (List.mem_map.mpr ⟨l, hl, rfl⟩)
  exact ⟨List.count_eq_zero.mp hcount, hls l hl⟩

end ContentLines
