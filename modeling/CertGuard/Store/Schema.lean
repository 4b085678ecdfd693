import CertGuard.Lib.Table
import CertGuard.Model.ChainJson
import CertGuard.Model.Event
import CertGuard.Model.User

/-!
# The database

The tables the program keeps and how a row becomes the value the rest of the
program works with. Timestamps are stored as text.

## Main definitions

* `CertRow`, `ChannelRow`, `EventRow`, `CredentialRow`, `WrapperRow`, `UserRow`,
  `SessionRow`, `TokenRow` — rows, their generated keys apart
* `Keyring` — the rows of `meta`
* `Store` — the tables
* `scanRowValues`, `scanChannel`, `scanUser` — a row as a `Cert`, a `Channel`, a `User`

## Main results

* `parseTime_format` — a stored timestamp reads back to the second
-/

namespace CertGuard

/-- A row of `certs`. -/
structure CertRow where
  name : String
  kind : Kind
  category : String := ""
  host : String := ""
  port : Int := 0
  serverName : String := ""
  subject : GoString := []
  issuer : GoString := []
  serial : String := ""
  sha256 : String := ""
  notBefore : List Char := []
  expiresAt : List Char
  dnsNames : List Char := []
  keyType : String := ""
  sigAlg : String := ""
  autoRescan : Bool := true
  lastScannedAt : Option (List Char) := none
  lastError : String := ""
  notes : String := ""
  active : Bool := true
  createdAt : List Char
  lastNotifiedThreshold : Int := 0
  lastNotifiedOn : Option (List Char) := none
  secretEnc : Cipher := Sealed.empty
  chainJson : List Char := []
  lastChainNotifiedThreshold : Int := 0
  coverageJson : List Char := []
  coverageAt : List Char := []
  deriving DecidableEq, Repr

/-- A row of `notification_channels`. -/
structure ChannelRow where
  userId : Int
  type : ChannelType
  target : String
  thresholds : String := ""
  enabled : Bool := true
  deriving DecidableEq, Repr

/-- A row of `events`. A line about an account names it in the place of an entry. -/
structure EventRow where
  atTime : List Char
  kind : EventKind
  certId : Option Int
  certName : String
  /-- The e-mail address of who did it; empty for the scheduler. -/
  actor : String
  detail : EventDetail
  deriving DecidableEq, Repr

/-- How the server's data key is protected; unset stands for an empty row. -/
inductive VaultMode
  | unset
  | auto
  | passphrase
  deriving DecidableEq, Repr

/-- The rows of `meta` the vault keeps, `none` where there is no such row yet. The text
of a salt is empty when there is none. -/
structure Keyring where
  wrapped : Option Wrapped := none
  salt : Option (Option Salt) := none
  mode : Option VaultMode := none
  zkWrapped : Option Wrapped := none
  zkSalt : Option String := none
  zkIters : Option String := none
  deriving DecidableEq, Repr

/-- A row of `webauthn_credentials`, without its times and what is only shown of the
authenticator. -/
structure CredentialRow where
  userId : Int
  credentialId : String
  publicKey : String := ""
  signCount : Nat := 0
  name : GoString := []
  deriving DecidableEq, Repr

/-- A row of `vault_key_wrappers`. -/
structure WrapperRow where
  credentialId : String
  wrapped : Wrapped
  prfSalt : String
  deriving DecidableEq, Repr

/-- A row of `users`. -/
structure UserRow where
  email : String
  passwordHash : String
  role : Role
  totpSecret : String := ""
  totpEnabled : Bool := false
  totpLastStep : Int := 0
  deriving DecidableEq, Repr

/-- A row of `sessions`. -/
structure SessionRow where
  userId : Int
  sessionHash : String
  expiresAt : List Char
  deriving DecidableEq, Repr

/-- A row of `api_tokens`, without the time of its last use: a request stamps it, and none reads
it. -/
structure TokenRow where
  userId : Int
  tokenHash : String
  deriving DecidableEq, Repr

/-- The tables. -/
structure Store where
  certs : Table CertRow := Table.empty
  channels : Table ChannelRow := Table.empty
  events : Table EventRow := Table.empty
  keyring : Keyring := {}
  credentials : Table CredentialRow := Table.empty
  wrappers : List WrapperRow := []
  users : Table UserRow := Table.empty
  sessions : Table SessionRow := Table.empty
  tokens : Table TokenRow := Table.empty

/-! ### Timestamps -/

/-- `parseTime`: text that is not a timestamp reads as the zero time. -/
def parseTime (s : List Char) : Int := if s = [] then 0 else (Rfc3339.parse s).getD 0

/-- A time as it is stored where there may be none. -/
def nullTime (t : Option Int) : Option (List Char) := t.map Rfc3339.format

/-- A timestamp in a year of four digits is read back as it was, to the second. -/
theorem parseTime_format {t : Int} (h0 : 0 ≤ Rfc3339.year t) (h1 : Rfc3339.year t ≤ 9999) :
    parseTime (Rfc3339.format t) = t - t % Rfc3339.oneSecond := by
  have hne : Rfc3339.format t ≠ [] := by simp [Rfc3339.format]
  have hns : (Rfc3339.nanosecond t : Int) = t % Rfc3339.oneSecond :=
    Int.toNat_of_nonneg (Int.emod_nonneg t (by decide))
  rw [parseTime, if_neg hne, Rfc3339.parse_format h0 h1, Option.getD_some, hns]

/-- A timestamp on a whole second is read back as it was. -/
theorem parseTime_format_of_dvd {t : Int} (h0 : 0 ≤ Rfc3339.year t) (h1 : Rfc3339.year t ≤ 9999)
    (hs : t % Rfc3339.oneSecond = 0) : parseTime (Rfc3339.format t) = t := by
  rw [parseTime_format h0 h1, hs, Int.sub_zero]

theorem parseTime_format_of_year {t : Int} (h : Rfc3339.year t < 0 ∨ 9999 < Rfc3339.year t) :
    parseTime (Rfc3339.format t) = 0 := by
  have hne : Rfc3339.format t ≠ [] := by simp [Rfc3339.format]
  rw [parseTime, if_neg hne, Rfc3339.parse_format_of_year h, Option.getD_none]

/-- A date a certificate can carry: a year of four digits and whole seconds. -/
def CertDate (t : Int) : Prop :=
  (0 ≤ Rfc3339.year t ∧ Rfc3339.year t ≤ 9999) ∧ t % Rfc3339.oneSecond = 0

instance (t : Int) : Decidable (CertDate t) := by unfold CertDate; infer_instance

/-- These are the instants that a timestamp column holds without loss. -/
theorem parseTime_format_eq_iff {t : Int} :
    parseTime (Rfc3339.format t) = t ↔ CertDate t := by
  constructor
  · intro h
    by_cases hyear : 0 ≤ Rfc3339.year t ∧ Rfc3339.year t ≤ 9999
    · rw [parseTime_format hyear.1 hyear.2] at h
      exact ⟨hyear, by omega⟩
    · rw [parseTime_format_of_year (by omega)] at h
      subst h
      exact absurd (by decide) hyear
  · exact fun h => parseTime_format_of_dvd h.1.1 h.1.2 h.2

/-- A timestamp is read and written back as it is. -/
theorem format_parseTime_format {t : Int} (h0 : 0 ≤ Rfc3339.year t)
    (h1 : Rfc3339.year t ≤ 9999) :
    Rfc3339.format (parseTime (Rfc3339.format t)) = Rfc3339.format t := by
  rw [parseTime_format h0 h1, Rfc3339.format_sub_fraction]

/-! ### Rows as values -/

/-- A row of `certs` as `scanRowValues` reads it. -/
def scanRowValues (id : Int) (r : CertRow) : Cert where
  id := id
  name := r.name
  kind := r.kind
  category := r.category
  host := r.host
  port := r.port
  serverName := r.serverName
  subject := r.subject
  issuer := r.issuer
  serial := r.serial
  sha256 := r.sha256
  notBefore := parseTime r.notBefore
  expiresAt := parseTime r.expiresAt
  dnsNames := unmarshalStrings r.dnsNames
  keyType := r.keyType
  sigAlg := r.sigAlg
  chain := unmarshalChain r.chainJson
  autoRescan := r.autoRescan
  lastScannedAt := r.lastScannedAt.map parseTime
  lastError := r.lastError
  notes := r.notes
  active := r.active
  createdAt := parseTime r.createdAt
  secretEnc := r.secretEnc
  lastNotifiedThreshold := r.lastNotifiedThreshold
  lastNotifiedOn := r.lastNotifiedOn.map parseTime
  lastChainNotifiedThreshold := r.lastChainNotifiedThreshold
  coverage := unmarshalCoverage r.coverageJson
  coverageAt := if r.coverageAt = [] then none else some (parseTime r.coverageAt)

/-- A row of `notification_channels` as `scanChannel` reads it. -/
def scanChannel (id : Int) (r : ChannelRow) : Channel where
  id := id
  userId := r.userId
  type := r.type
  target := r.target
  thresholds := r.thresholds
  enabled := r.enabled

/-- A row of `users` as `scanUser` reads it. -/
def scanUser (id : Int) (r : UserRow) : User where
  id := id
  email := r.email
  passwordHash := r.passwordHash
  role := r.role
  totpSecret := r.totpSecret
  totpEnabled := r.totpEnabled
  totpLastStep := r.totpLastStep

end CertGuard
