import CertGuard.Lib.Rfc3339
import CertGuard.Lib.Sha1
import CertGuard.Model.Channel

/-!
# One-time codes

A code of six digits belongs to a shared secret and a step of 30 seconds. A code is taken for
the step before and the step after the current one as well.

## Main definitions

* `base32Decode` — the bytes a secret stands for
* `codeAt` — the code of a step
* `validateStep` — the step near a time that a code belongs to
-/

namespace CertGuard

/-- How many digits a code has. -/
def digits : Nat := 6

/-- The seconds of a step. -/
def period : Int := 30

/-! ### Secrets -/

/-- The value of a letter of the base32 alphabet. -/
def base32Value (c : Char) : Option Nat :=
  if 'A' ≤ c ∧ c ≤ 'Z' then some (c.toNat - 65)
  else if '2' ≤ c ∧ c ≤ '7' then some (c.toNat - 24)
  else none

/-- The whole bytes in a group of at most 8 letters. -/
def base32Group (values : List Nat) : List UInt8 :=
  let n := values.foldl (fun n v => 32 * n + v) 0
  (Sha1.bigEndian 5 (n * 32 ^ (8 - values.length))).take (values.length * 5 / 8)

/-- Decodes at most `n` groups; the last may be filled up with `=`. -/
def base32Groups : Nat → List Char → Option (List UInt8)
  | 0, _ => some []
  | _ + 1, [] => some []
  | n + 1, src =>
    let letters := (src.take 8).takeWhile (· ≠ '=')
    match letters.mapM base32Value with
    | none => none
    | some values =>
      if letters.length = 8 then (base32Groups n (src.drop 8)).map (base32Group values ++ ·)
      else
        let filling := src.drop letters.length
        -- 1, 3 and 6 letters make no whole bytes
        if letters.length ∈ [2, 4, 5, 7] ∧ filling.length ≤ 8 ∧
            8 ≤ filling.length + letters.length ∧
            (filling.take (8 - letters.length)).all (· = '=') then
          some (base32Group values)
        else none

/-- `base32.StdEncoding.DecodeString`; line breaks are skipped. -/
def base32Decode (s : List Char) : Option (List UInt8) :=
  let src := s.filter fun c => c ≠ '\r' ∧ c ≠ '\n'
  base32Groups (src.length / 8 + 1) src

/-- `pad`: upper case, without blanks around, filled up to whole groups. -/
def padSecret (s : List Char) : List Char :=
  let s := (trimSpace s).map Char.toUpper
  s ++ List.replicate ((8 - s.length % 8) % 8) '='

/-! ### Codes -/

/-- `codeAt`; there is no code for a secret that is not base32. -/
def codeAt (secret : String) (counter : Nat) : Option (List Char) :=
  (base32Decode (padSecret secret.toList)).map fun key =>
    let sum := Sha1.hmac key (Sha1.bigEndian 8 counter)
    let off := (sum.getD (sum.length - 1) 0 &&& 0x0f).toNat
    let val := (sum.getD off 0 &&& 0x7f).toNat * 2 ^ 24 + (sum.getD (off + 1) 0).toNat * 2 ^ 16 +
      (sum.getD (off + 2) 0).toNat * 2 ^ 8 + (sum.getD (off + 3) 0).toNat
    let text := Nat.toDigits 10 (val % 10 ^ digits)
    List.replicate (digits - text.length) '0' ++ text

/-- `ValidateStep`: the earliest step around the time whose code is the input. -/
def validateStep (secret input : String) (now : Int) : Option Int :=
  let input := trimSpace input.toList
  if (input.map Char.utf8Size).sum ≠ digits then none
  else
    let step := (now / Rfc3339.oneSecond).tdiv period
    [step - 1, step, step + 1].find? fun s => codeAt secret (s % 2 ^ 64).toNat = some input

-- 59 seconds into 1970, with the secret of the test vectors of RFC 4226
example : validateStep "GEZDGNBVGY3TQOJQGEZDGNBVGY3TQOJQ" "287082" (59 * Rfc3339.oneSecond) =
    some 1 := by decide +kernel

end CertGuard
