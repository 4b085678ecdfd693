import Mathlib.Tactic.SplitIfs

/-!
# Ideal authenticated encryption

A stored text either was sealed under a key or is some other text. Opening gives
the payload exactly under the key that sealed it, and no other text opens.

## Main definitions

* `Sealed` — texts, with what was sealed under which key
* `Sealed.openWith` — opening under a key
* `Sealed.payload?` — what was sealed

## Main results

* `Sealed.openWith_eq_some_iff` — what opens was sealed under that key
-/

/-- A stored text: sealed under a key, or anything else. -/
inductive Sealed (κ π : Type*)
  | under (key : κ) (payload : π)
  | text (s : String)
  deriving DecidableEq, Repr

namespace Sealed

variable {κ π : Type*}

/-- The empty text. -/
def empty : Sealed κ π := text ""

/-- What was sealed, whatever the key. -/
def payload? : Sealed κ π → Option π
  | under _ payload => some payload
  | text _ => none

variable [DecidableEq κ]

/-- Opens a text under a key. -/
def openWith (key : κ) : Sealed κ π → Option π
  | under k payload => if k = key then some payload else none
  | text _ => none

variable {key key' : κ} {payload payload' : π} {c : Sealed κ π}

@[simp] theorem openWith_under_self : (under key payload).openWith key = some payload := if_pos rfl

@[simp] theorem openWith_text (s : String) : (text s : Sealed κ π).openWith key = none := rfl

@[simp] theorem openWith_empty : (empty : Sealed κ π).openWith key = none := rfl

theorem openWith_eq_some_iff : c.openWith key = some payload ↔ c = under key payload := by
  cases c with
  | under k p =>
    simp only [openWith, under.injEq]
    split_ifs with h <;> simp [h]
  | text s => simp [openWith]

end Sealed
