import CertGuard.Lib.Percent
import CertGuard.Server.AccountRequests
import CertGuard.Twofa.Secret

/-!
# Authenticators

A user who sets up TOTP is shown a URI and hands it to an app; from then on the app and the server
go their own ways, and share nothing but what stands in the URI.

## Main definitions

* `Authenticator`, `Authenticator.scan` — an app, and what it takes from a URI
* `Authenticator.code`, `Authenticator.stepOf` — its codes, and the step of a code
* `appOf` — the app of somebody who has scanned the URI of a set-up

## Main results

* `scan_provisioningURI` — what an app reads in the URI of a set-up
* `stepOf_eq_validateStep` — an app and the server agree on every code
-/

namespace CertGuard

/-! ### Apps -/

/-- An authenticator app, with what it has read. -/
structure Authenticator where
  issuer : String
  account : String
  key : List UInt8
  digits : Nat
  period : Nat
  deriving DecidableEq, Repr

namespace Authenticator

/-- A number as it stands in a URI. -/
def number (text : String) : Nat := Nat.ofDigitChars 10 text.toList 0

/-- What an app takes from an `otpauth` URI. -/
def scan (uri : String) : Option Authenticator := do
  let start := "otpauth://totp/".toList
  guard (start <+: uri.toList)
  let rest := uri.toList.drop start.length
  let label ← Percent.decodeText (rest.takeWhile (· ≠ '?'))
  let fields ← Percent.fields ((rest.dropWhile (· ≠ '?')).drop 1)
  let secret ← fields.lookup "secret"
  let key ← base32Decode (padSecret secret.toList)
  return {
    issuer := ← fields.lookup "issuer"
    -- the label is the issuer and the account, with a colon between them
    account := String.ofList ((label.toList.dropWhile (· ≠ ':')).drop 1)
    key := key
    digits := number (← fields.lookup "digits")
    period := number (← fields.lookup "period") }

/-- The code of a step. -/
def code (app : Authenticator) (step : Int) : List Char :=
  hotp app.digits app.key (step % 2 ^ 64).toNat

/-- The step of an instant. -/
def stepAt (app : Authenticator) (now : Int) : Int := (now / Rfc3339.oneSecond).tdiv app.period

/-- The step whose code an app shows: the one before an instant, the one of the instant, or the
one after it. -/
def stepOf (app : Authenticator) (input : List Char) (now : Int) : Option Int :=
  [app.stepAt now - 1, app.stepAt now, app.stepAt now + 1].find? fun s => app.code s = input

end Authenticator

/-- The app of somebody who has scanned what the set-up answers. -/
def appOf (account : String) (key : List UInt8) : Authenticator where
  issuer := "certguard"
  account := account
  key := key
  digits := 6
  period := 30

/-! ### What an app reads -/

theorem keepsQuery_unreserved : Percent.KeepsQuery urlUnreserved where
  keeps c hc := by
    simp only [urlUnreserved, Bool.or_eq_true, decide_eq_true_eq] at hc
    rcases hc with (((h | rfl) | rfl) | rfl) | rfl
    · refine ⟨?_, Percent.lt_of_isAlphanum h⟩
      rintro rfl
      exact absurd h (by decide)
    all_goals decide
  plus := by decide
  ampersand := by decide
  equals := by decide

theorem keeps_path : Percent.Keeps fun c => urlUnreserved c || "$&+=:@".toList.contains c := by
  intro c hc
  rcases Bool.or_eq_true_iff.mp hc with hc | hc
  · exact keepsQuery_unreserved.keeps c hc
  · have hall : "$&+=:@".toList.all (fun c => decide (c ≠ '%' ∧ c.toNat < 128)) = true := by decide
    exact of_decide_eq_true (List.all_eq_true.mp hall c (List.contains_iff_mem.mp hc))

theorem toList_pathEscape (text : String) : (pathEscape text).toList =
    Percent.encodeText (fun c => urlUnreserved c || "$&+=:@".toList.contains c) text :=
  String.toList_ofList

theorem toList_queryEscape (text : String) :
    (queryEscape text).toList = Percent.encodeQuery urlUnreserved text := by
  rw [queryEscape, String.toList_map, percentEncode, String.toList_ofList]
  rfl

/-- The fields of a URI. -/
def uriFields (secret : String) : List (String × String) :=
  [("digits", "6"), ("issuer", "certguard"), ("period", "30"), ("secret", secret)]

/-- A letter that stands as it is in a query. -/
theorem encodeQuery_plain {text : String} (h : text.toList.all Char.isAlphanum = true) :
    Percent.encodeQuery urlUnreserved text = text.toList := by
  refine Percent.encodeQuery_of_keep fun c hc => ?_
  have halphanum : c.isAlphanum = true := List.all_eq_true.mp h c hc
  refine ⟨by simp [urlUnreserved, halphanum], Percent.lt_of_isAlphanum halphanum, ?_⟩
  rintro rfl
  exact absurd halphanum (by decide)

theorem joined_uriFields (secret : String) : Percent.joined urlUnreserved (uriFields secret) =
    "digits".toList ++ '=' :: ("6".toList ++ '&' :: ("issuer".toList ++ '=' ::
      (Percent.encodeQuery urlUnreserved "certguard" ++ '&' :: ("period".toList ++ '=' ::
        ("30".toList ++ '&' :: ("secret".toList ++ '=' ::
          Percent.encodeQuery urlUnreserved secret)))))) := by
  have hjoin : ∀ a b c d : List Char,
      ['&'].intercalate [a, b, c, d] = a ++ '&' :: (b ++ '&' :: (c ++ '&' :: d)) := by
    intro a b c d
    simp [List.intercalate]
  have hdigits : Percent.encodeQuery urlUnreserved "digits" = "digits".toList :=
    encodeQuery_plain (by decide)
  have hsix : Percent.encodeQuery urlUnreserved "6" = "6".toList := encodeQuery_plain (by decide)
  have hissuer : Percent.encodeQuery urlUnreserved "issuer" = "issuer".toList :=
    encodeQuery_plain (by decide)
  have hperiod : Percent.encodeQuery urlUnreserved "period" = "period".toList :=
    encodeQuery_plain (by decide)
  have hthirty : Percent.encodeQuery urlUnreserved "30" = "30".toList :=
    encodeQuery_plain (by decide)
  have hsecret : Percent.encodeQuery urlUnreserved "secret" = "secret".toList :=
    encodeQuery_plain (by decide)
  simp only [Percent.joined, uriFields, List.map_cons, List.map_nil, hjoin, hdigits, hsix, hissuer,
    hperiod, hthirty, hsecret, List.append_assoc, List.cons_append]

theorem toList_provisioningURI (secret account issuer : String) :
    (provisioningURI secret account issuer).toList = "otpauth://totp/".toList ++
      ((pathEscape (issuer ++ ":" ++ account)).toList ++ ("?digits=6&issuer=".toList ++
        (Percent.encodeQuery urlUnreserved issuer ++ ("&period=30&secret=".toList ++
          Percent.encodeQuery urlUnreserved secret)))) := by
  have happend : ∀ a b c d e f : String, (a ++ b ++ c ++ d ++ e ++ f).toList =
      a.toList ++ (b.toList ++ (c.toList ++ (d.toList ++ (e.toList ++ f.toList)))) := by
    intro a b c d e f
    simp only [String.toList_append, List.append_assoc]
  have hissuer := toList_queryEscape issuer
  have hsecret := toList_queryEscape secret
  rw [← hissuer, ← hsecret]
  exact happend "otpauth://totp/" (pathEscape (issuer ++ ":" ++ account)) "?digits=6&issuer="
    (queryEscape issuer) "&period=30&secret=" (queryEscape secret)

theorem provisioningURI_eq (secret account : String) :
    (provisioningURI secret account "certguard").toList = "otpauth://totp/".toList ++
      ((pathEscape ("certguard" ++ ":" ++ account)).toList ++
        '?' :: Percent.joined urlUnreserved (uriFields secret)) := by
  have hstart : "?digits=6&issuer=".toList =
      '?' :: ("digits".toList ++ '=' :: ("6".toList ++ '&' :: ("issuer".toList ++ ['=']))) := by
    decide
  have hend : "&period=30&secret=".toList = '&' :: ("period".toList ++ '=' ::
      ("30".toList ++ '&' :: ("secret".toList ++ ['=']))) := by
    decide
  rw [toList_provisioningURI, joined_uriFields, hstart, hend]
  simp only [List.append_assoc, List.cons_append, List.nil_append]

theorem not_mem_pathEscape (text : String) : '?' ∉ (pathEscape text).toList := by
  rw [toList_pathEscape]
  intro hmem
  rcases Percent.of_mem_encode hmem with h | h | h
  · exact absurd h (by decide)
  · exact absurd h (by decide)
  · exact absurd h (by decide)

/-- What an app reads in the URI of a set-up. -/
theorem scan_provisioningURI (account : String) (key : List UInt8) :
    Authenticator.scan (provisioningURI (generateSecret key) account "certguard") =
      some (appOf account key) := by
  have hpath : ∀ c ∈ (pathEscape ("certguard" ++ ":" ++ account)).toList,
      decide (c ≠ '?') = true := fun c hc =>
    decide_eq_true fun hcontra => not_mem_pathEscape _ (hcontra ▸ hc)
  have hlabel : Percent.decodeText (pathEscape ("certguard" ++ ":" ++ account)).toList =
      some ("certguard" ++ ":" ++ account) := by
    rw [toList_pathEscape, Percent.decodeText_encodeText keeps_path]
  have hfields : Percent.fields (Percent.joined urlUnreserved (uriFields (generateSecret key))) =
      some (uriFields (generateSecret key)) :=
    Percent.fields_joined keepsQuery_unreserved (List.cons_ne_nil _ _)
  have hsecret : (uriFields (generateSecret key)).lookup "secret" = some (generateSecret key) := rfl
  have hissuer : (uriFields (generateSecret key)).lookup "issuer" = some "certguard" := rfl
  have hdigits : (uriFields (generateSecret key)).lookup "digits" = some "6" := rfl
  have hperiod : (uriFields (generateSecret key)).lookup "period" = some "30" := rfl
  have hsix : Authenticator.number "6" = 6 := by decide
  have hthirty : Authenticator.number "30" = 30 := by decide
  rw [Authenticator.scan, provisioningURI_eq]
  generalize (pathEscape ("certguard" ++ ":" ++ account)).toList = path at hpath hlabel
  generalize Percent.joined urlUnreserved (uriFields (generateSecret key)) = query at hfields
  simp only [List.prefix_append, guard_true, List.drop_left, List.takeWhile_append_of_pos hpath,
    List.dropWhile_append_of_pos hpath]
  simp [hlabel, hfields, hsecret, hissuer, hdigits, hperiod, hsix, hthirty,
    base32Decode_padSecret, appOf]

/-- An app and the server agree on every code. -/
theorem stepOf_eq_validateStep (account : String) (key : List UInt8) (input : String) (now : Int) :
    validateStep (generateSecret key) input now =
      (appOf account key).stepOf (trimSpace input.toList) now :=
  validateStep_generateSecret key input now

end CertGuard
