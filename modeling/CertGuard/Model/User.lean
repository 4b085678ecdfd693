import Mathlib.Tactic.SplitIfs

/-!
# Users

## Main definitions

* `Role` — what a user may do
* `User` — a row of `users` as the program reads it
-/

namespace CertGuard

/-- The role of a user. -/
inductive Role
  /-- May add, delete and scan. -/
  | admin
  /-- May read. -/
  | viewer
  deriving DecidableEq, Repr

/-- `Role.Valid`, with the role a text names. -/
def Role.ofText (s : String) : Option Role :=
  if s = "admin" then some .admin else if s = "viewer" then some .viewer else none

/-- An authenticated principal. -/
structure User where
  id : Int
  email : String
  passwordHash : String
  role : Role
  totpSecret : String
  totpEnabled : Bool
  totpLastStep : Int
  deriving DecidableEq, Repr

def User.isAdmin (u : User) : Bool := u.role = .admin

end CertGuard
