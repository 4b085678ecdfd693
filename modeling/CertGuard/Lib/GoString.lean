import Mathlib.Data.List.Basic

/-!
# Byte strings as a decoder reads them

A byte string that should be UTF-8 but need not be is read as a sequence of
items: a character, or a byte that belongs to no character. Two byte strings with
the same items are the same string, so nothing is lost by working with items.

## Main definitions

* `Rune`, `GoString` — the items and their sequences
* `GoString.Valid` — the string is UTF-8
* `GoString.sanitize` — replaces every stray byte by the replacement character
* `GoString.cut` — the first bytes of a text
-/

/-! ### Texts around a separator -/

/-- A list is cut at the last separator in one way. -/
theorem eq_of_last_separator {α : Type*} {x : α} {a a' b b' : List α} (hb : x ∉ b) (hb' : x ∉ b')
    (h : a ++ x :: b = a' ++ x :: b') : a = a' ∧ b = b' := by
  rcases List.append_eq_append_iff.mp h with ⟨c, rfl, hc⟩ | ⟨c, rfl, hc⟩
  · cases c with
    | nil => exact ⟨(List.append_nil a).symm, (List.cons.inj hc).2⟩
    | cons y c =>
      obtain ⟨-, rfl⟩ := List.cons.inj hc
      exact absurd (by simp) hb
  · cases c with
    | nil => exact ⟨List.append_nil a', (List.cons.inj hc).2.symm⟩
    | cons y c =>
      obtain ⟨-, rfl⟩ := List.cons.inj hc
      exact absurd (by simp) hb'

/-- A list is cut at the first separator in one way. -/
theorem eq_of_first_separator {α : Type*} {x : α} {a a' b b' : List α} (ha : x ∉ a) (ha' : x ∉ a')
    (h : a ++ x :: b = a' ++ x :: b') : a = a' ∧ b = b' := by
  rcases List.append_eq_append_iff.mp h with ⟨c, rfl, hc⟩ | ⟨c, rfl, hc⟩
  · cases c with
    | nil => exact ⟨(List.append_nil a).symm, (List.cons.inj hc).2⟩
    | cons y c =>
      obtain ⟨rfl, -⟩ := List.cons.inj hc
      exact absurd (by simp) ha'
  · cases c with
    | nil => exact ⟨List.append_nil a', (List.cons.inj hc).2.symm⟩
    | cons y c =>
      obtain ⟨rfl, -⟩ := List.cons.inj hc
      exact absurd (by simp) ha

/-! ### Byte strings -/

/-- One item of a decoded byte string: a character or a stray byte. -/
inductive Rune
  | char (c : Char)
  | stray (b : UInt8)
  deriving DecidableEq, Repr

/-- A byte string, decoded. -/
abbrev GoString := List Rune

namespace Rune

/-- The character a decoder reports; a stray byte reads as U+FFFD. -/
def toChar : Rune → Char
  | .char c => c
  | .stray _ => '\uFFFD'

@[simp] theorem toChar_char (c : Char) : (char c).toChar = c := rfl

end Rune

namespace GoString

/-- A text as a byte string. -/
def ofList (cs : List Char) : GoString := cs.map .char

/-- A text as a byte string. -/
def ofString (s : String) : GoString := ofList s.toList

/-- The characters a decoder reports. -/
def chars (s : GoString) : List Char := s.map Rune.toChar

/-- The string is UTF-8: it has no stray bytes. -/
def Valid (s : GoString) : Prop := ∀ r ∈ s, r = .char r.toChar

instance (s : GoString) : Decidable s.Valid := by unfold Valid; infer_instance

/-- The string with every stray byte replaced. -/
def sanitize (s : GoString) : GoString := ofList s.chars

/-- The first bytes of a text: a character that does not fit is cut in two. -/
def cut : Nat → List Char → GoString
  | _, [] => []
  | n, c :: cs =>
    if c.utf8Size ≤ n then .char c :: cut (n - c.utf8Size) cs
    else ((String.utf8EncodeChar c).take n).map .stray

example : cut 3 ['a', 'é', 'é'] = [.char 'a', .char 'é'] := by decide

theorem valid_ofList (cs : List Char) : Valid (ofList cs) := by
  intro r hr
  obtain ⟨c, -, rfl⟩ := List.mem_map.mp hr
  rfl

@[simp] theorem chars_ofList (cs : List Char) : chars (ofList cs) = cs := by
  simp [chars, ofList, Function.comp_def]

/-- A UTF-8 string is its own characters. -/
theorem Valid.sanitize_eq {s : GoString} (h : Valid s) : s.sanitize = s := by
  rw [sanitize, ofList, chars, List.map_map]
  conv_rhs => rw [← List.map_id s]
  exact List.map_congr_left fun r hr => (h r hr).symm

theorem length_sanitize (s : GoString) : s.sanitize.length = s.length := by
  simp [sanitize, ofList, chars]

theorem sanitize_eq_nil_iff {s : GoString} : s.sanitize = [] ↔ s = [] := by
  rw [← List.length_eq_zero_iff, length_sanitize, List.length_eq_zero_iff]

@[simp] theorem sanitize_ofList (cs : List Char) : (ofList cs).sanitize = ofList cs :=
  (valid_ofList cs).sanitize_eq

end GoString
