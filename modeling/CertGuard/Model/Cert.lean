import CertGuard.Lib.GoString
import CertGuard.Lib.Rfc3339
import CertGuard.Secret.Key
import Mathlib.Algebra.Order.Group.Unbundled.Int

/-!
# Tracked certificates

The entry of the inventory as the rest of the program sees it, its day counts,
and the chain link that would break it first. Instants are nanoseconds since the
start of year 1, so the zero `time.Time` is `0`.

## Main definitions

* `Cert`, `ChainCert`, `CoveredName` — an entry, one intermediate served under it, and what
  answers for one of its names
* `Cert.daysRemaining`, `Cert.chainDaysRemaining` — whole days to an expiry
* `Cert.chainRisk` — the soonest intermediate to expire before the leaf

## Main results

* `daysBetween_antitone` — a day count never goes up as time passes
* `Cert.chainRisk_mem` — the link at risk is one of the chain
-/

namespace CertGuard

/-- How an entry is sourced and monitored. -/
inductive Kind
  | endpoint
  | file
  | manual
  | domain
  deriving DecidableEq, Repr

/-- The text of a kind. -/
def Kind.text : Kind → String
  | endpoint => "endpoint"
  | file => "file"
  | manual => "manual"
  | domain => "domain"

/-- One intermediate presented under the leaf. -/
structure ChainCert where
  subject : GoString
  issuer : GoString
  notAfter : Int
  sha256 : GoString
  deriving DecidableEq, Repr

/-- What answers for a name a certificate covers. -/
inductive CoverageStatus
  /-- The certificate itself. -/
  | same
  | different
  | wildcard
  | unreachable
  deriving DecidableEq, Repr

/-- What one of a certificate's names actually serves. -/
structure CoveredName where
  name : GoString
  status : CoverageStatus
  detail : GoString := []
  subject : GoString := []
  sha256 : GoString := []
  deriving DecidableEq, Repr

/-- A tracked certificate or credential. -/
structure Cert where
  id : Int
  name : String
  kind : Kind
  category : String
  host : String
  port : Int
  serverName : String
  subject : GoString
  issuer : GoString
  serial : String
  sha256 : String
  notBefore : Int
  expiresAt : Int
  dnsNames : List GoString
  keyType : String
  sigAlg : String
  chain : List ChainCert
  autoRescan : Bool
  lastScannedAt : Option Int
  lastError : String
  notes : String
  active : Bool
  createdAt : Int
  secretEnc : Cipher
  lastNotifiedThreshold : Int
  lastNotifiedOn : Option Int
  lastChainNotifiedThreshold : Int
  coverage : List CoveredName := []
  coverageAt : Option Int := none
  deriving DecidableEq, Repr

/-! ### Day counts -/

/-- The largest `time.Duration`. -/
abbrev maxDuration : Int := 2 ^ 63 - 1

/-- The smallest `time.Duration`. -/
abbrev minDuration : Int := -(2 ^ 63)

/-- `Time.Sub`: the difference of two instants, cut off at the ends of the
duration range. -/
def timeSub (t u : Int) : Int := max minDuration (min maxDuration (t - u))

/-- `int(t.Sub(now).Hours() / 24)`: whole days, rounded towards zero. -/
def daysBetween (t now : Int) : Int := (timeSub t now).tdiv Rfc3339.oneDay

/-- Whole days from now until expiry; negative once it has passed. -/
def Cert.daysRemaining (c : Cert) (now : Int) : Int := daysBetween c.expiresAt now

theorem timeSub_antitone (t : Int) {u v : Int} (h : u ≤ v) : timeSub t v ≤ timeSub t u := by
  unfold timeSub
  omega

theorem tdiv_oneDay_mono {a b : Int} (h : a ≤ b) :
    a.tdiv Rfc3339.oneDay ≤ b.tdiv Rfc3339.oneDay :=
  Int.tdiv_le_tdiv (by decide) h

/-- Rounding towards zero, by sign. -/
theorem tdiv_oneDay_eq (a : Int) :
    a.tdiv Rfc3339.oneDay =
      if 0 ≤ a then a / Rfc3339.oneDay else -(-a / Rfc3339.oneDay) := by
  split
  · rename_i h
    exact Int.tdiv_eq_ediv_of_nonneg h
  · rename_i h
    rw [← Int.tdiv_eq_ediv_of_nonneg (by omega), Int.neg_tdiv, neg_neg]

theorem daysBetween_antitone (t : Int) {u v : Int} (h : u ≤ v) :
    daysBetween t v ≤ daysBetween t u :=
  tdiv_oneDay_mono (timeSub_antitone t h)

/-! ### The link at risk -/

/-- One turn of the loop of `ChainRisk`. Links without a date and links that
outlive the leaf are passed over. -/
def chainRiskStep (expiresAt : Int) (soonest : Option ChainCert) (ic : ChainCert) :
    Option ChainCert :=
  if ic.notAfter = 0 then soonest
  else if expiresAt ≠ 0 ∧ ¬ ic.notAfter < expiresAt then soonest
  else
    match soonest with
    | none => some ic
    | some s => if ic.notAfter < s.notAfter then some ic else some s

/-- The soonest intermediate expiry that would break the entry before its own
certificate does. -/
def Cert.chainRisk (c : Cert) : Option ChainCert := c.chain.foldl (chainRiskStep c.expiresAt) none

/-- Whole days until the link at risk expires. -/
def Cert.chainDaysRemaining (c : Cert) (now : Int) : Option Int :=
  c.chainRisk.map fun risk => daysBetween risk.notAfter now

theorem chainRiskStep_eq (e : Int) (acc : Option ChainCert) (ic : ChainCert) :
    chainRiskStep e acc ic = acc ∨ chainRiskStep e acc ic = some ic := by
  unfold chainRiskStep
  split_ifs
  · exact Or.inl rfl
  · exact Or.inl rfl
  · cases acc with
    | none => exact Or.inr rfl
    | some s =>
      dsimp only
      split_ifs
      · exact Or.inr rfl
      · exact Or.inl rfl

theorem foldl_chainRiskStep_mem {e : Int} {chain : List ChainCert} {acc : Option ChainCert}
    {risk : ChainCert} (h : chain.foldl (chainRiskStep e) acc = some risk) :
    acc = some risk ∨ risk ∈ chain := by
  induction chain generalizing acc with
  | nil => exact Or.inl h
  | cons ic chain ih =>
    rcases ih h with hacc | hmem
    · rcases chainRiskStep_eq e acc ic with heq | heq
      · exact Or.inl (heq ▸ hacc)
      · rw [heq] at hacc
        exact Or.inr (Option.some.inj hacc ▸ List.mem_cons_self)
    · exact Or.inr (List.mem_cons_of_mem _ hmem)

theorem Cert.chainRisk_mem {c : Cert} {risk : ChainCert} (h : c.chainRisk = some risk) :
    risk ∈ c.chain :=
  (foldl_chainRiskStep_mem h).resolve_left (by simp)

end CertGuard
