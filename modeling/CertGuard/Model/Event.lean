import CertGuard.Model.Cert

/-!
# Lines of the activity log

What the program logs, and what it says about it. Two of its texts quote something from outside:
a name in a certificate, and the label somebody gives a security key.

## Main definitions

* `EventKind`, `EventKind.text` — what a line is about
* `quote` — a text in quotes, as `strconv.Quote` and the verb `%q` write it
* `EventDetail`, `EventDetail.text` — what a line says
-/

namespace CertGuard

/-- What an activity-log line is about. -/
inductive EventKind
  | added
  | updated
  | deleted
  | renewed
  | scanFailed
  | scanRecovered
  | coverageBroken
  | chainExpiring
  | notified
  | keyAdded
  | keyRemoved
  | keyCloneWarning
  deriving DecidableEq, Repr

/-- The text of an event's kind. -/
def EventKind.text : EventKind → String
  | added => "added"
  | updated => "updated"
  | deleted => "deleted"
  | renewed => "renewed"
  | scanFailed => "scan_failed"
  | scanRecovered => "scan_recovered"
  | coverageBroken => "coverage_broken"
  | chainExpiring => "chain_expiring"
  | notified => "notified"
  | keyAdded => "key_added"
  | keyRemoved => "key_removed"
  | keyCloneWarning => "key_clone_warning"

/-! ### Quoting -/

/-- `strconv.IsPrint`; above Latin-1 it goes by tables of the language's library. -/
def isPrint (tables : Char → Bool) (c : Char) : Bool :=
  if c.toNat ≤ 0xff then
    (0x20 ≤ c.toNat && c.toNat < 0x7f) || (0xa1 ≤ c.toNat && c.toNat ≠ 0xad)
  else tables c

/-- An escape by the number of a character or a byte. -/
def numberEscape (letter : Char) (width n : Nat) : List Char :=
  '\\' :: letter :: (List.range width).reverse.map fun i => hexDigit (n / 16 ^ i)

/-- The control characters that have a letter. -/
def letterEscapes : List (Char × Char) :=
  [('\x07', 'a'), ('\x08', 'b'), ('\x0c', 'f'), ('\n', 'n'), ('\x0d', 'r'), ('\t', 't'),
    ('\x0b', 'v')]

/-- What stands in quotes for a character, or for a byte that belongs to none. -/
def quoteRune (tables : Char → Bool) : Rune → List Char
  | .stray b => numberEscape 'x' 2 b.toNat
  | .char c =>
    if c = '"' ∨ c = '\\' then ['\\', c]
    else if isPrint tables c then [c]
    else
      match letterEscapes.lookup c with
      | some letter => ['\\', letter]
      | none =>
        if c.toNat < 0x20 ∨ c.toNat = 0x7f then numberEscape 'x' 2 c.toNat
        else if c.toNat < 0x10000 then numberEscape 'u' 4 c.toNat
        else numberEscape 'U' 8 c.toNat

/-- `strconv.Quote`. -/
def quote (tables : Char → Bool) (s : GoString) : GoString :=
  GoString.ofList ('"' :: (s.flatMap (quoteRune tables) ++ ['"']))

/-! ### What a line says -/

/-- What a line says besides its kind, apart from how something is quoted in it. -/
inductive EventDetail
  | plain (text : GoString)
  | chainExpires (subject : GoString) (notAfter : Int)
  | keyRegistered (name : GoString)
  deriving DecidableEq, Repr

/-- The text that is stored. -/
def EventDetail.text (tables : Char → Bool) : EventDetail → GoString
  | plain text => text
  | chainExpires subject notAfter =>
    GoString.ofString "chain certificate " ++ quote tables subject ++
      GoString.ofString " expires " ++ GoString.ofList (Rfc3339.formatDate notAfter) ++
      GoString.ofString ", before the certificate does"
  | keyRegistered name => GoString.ofString "registered security key " ++ quote tables name

example : (EventDetail.keyRegistered (GoString.ofString "my \"key\"\n")).text (fun _ => false) =
    GoString.ofString "registered security key \"my \\\"key\\\"\\n\"" := by decide

end CertGuard
