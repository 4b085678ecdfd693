import CertGuard.Lib.Escalation
import CertGuard.Model.Cert
import Mathlib.Data.Int.ConditionallyCompleteOrder

/-!
# Notification thresholds

Which day-threshold an entry stands at, and whether an alert is due for it. The
leaf and the chain of an entry escalate on counters of their own; `Alert` names
the two so that what holds of both is said once.

## Main definitions

* `currentThreshold`, `currentDomainThreshold` — the two ladders
* `notificationThreshold`, `chainNotificationThreshold` — what is due now
* `Alert.current`, `Alert.last`, `Alert.due` — the same for either kind of alert
* `Alert.rung`, `ofCounter` — thresholds and counters as rungs, `⊤` for none

## Main results

* `Alert.due_pos_iff` — an alert is due when the rung is below the counter
* `Alert.rung_antitone` — rungs only go down as time passes
-/

namespace CertGuard

open Escalation

/-- The bucket of a certificate: 3, 7, 30, or -1 for nothing to notify. -/
def currentThreshold (days : Int) : Int :=
  if days ≤ 3 then 3 else if days ≤ 7 then 7 else if days ≤ 30 then 30 else -1

/-- The bucket of a domain registration: 7, 30, 60, or -1. -/
def currentDomainThreshold (days : Int) : Int :=
  if days ≤ 7 then 7 else if days ≤ 30 then 30 else if days ≤ 60 then 60 else -1

/-- The ladder appropriate to what the entry is. -/
def thresholdFor (c : Cert) (days : Int) : Int :=
  if c.kind = .domain then currentDomainThreshold days else currentThreshold days

/-- The state machine both alerts share: never notified, notify at the current
threshold; more urgent than last time, escalate; otherwise stay quiet. -/
def escalate (current last : Int) : Int :=
  if current = -1 then -1
  else if last = 0 then current
  else if current < last then current
  else -1

/-- The threshold to notify a leaf at now, or -1. -/
def notificationThreshold (c : Cert) (now : Int) : Int :=
  escalate (thresholdFor c (c.daysRemaining now)) c.lastNotifiedThreshold

/-- The threshold to notify a chain at now, or -1. It reuses the certificate ladder. -/
def chainNotificationThreshold (c : Cert) (now : Int) : Int :=
  match c.chainDaysRemaining now with
  | none => -1
  | some days => escalate (currentThreshold days) c.lastChainNotifiedThreshold

/-- The two kinds of alert an entry can raise. -/
inductive Alert
  | leaf
  | chain
  deriving DecidableEq, Repr

namespace Alert

theorem forall_iff {P : Alert → Prop} : (∀ a, P a) ↔ P leaf ∧ P chain := by
  constructor
  · exact fun h => ⟨h leaf, h chain⟩
  · rintro ⟨hleaf, hchain⟩ (_ | _)
    · exact hleaf
    · exact hchain

instance {P : Alert → Prop} [DecidablePred P] : Decidable (∀ a, P a) :=
  decidable_of_iff _ forall_iff.symm

/-- The bucket an entry stands at now for a kind of alert, or -1. -/
def current : Alert → Cert → Int → Int
  | leaf, c, now => thresholdFor c (c.daysRemaining now)
  | chain, c, now => ((c.chainDaysRemaining now).map currentThreshold).getD (-1)

/-- The counter of a kind of alert. -/
def last : Alert → Cert → Int
  | leaf, c => c.lastNotifiedThreshold
  | chain, c => c.lastChainNotifiedThreshold

/-- The threshold an alert is due at now, or -1. -/
def due : Alert → Cert → Int → Int
  | leaf => notificationThreshold
  | chain => chainNotificationThreshold

theorem due_eq_escalate (a : Alert) (c : Cert) (now : Int) :
    a.due c now = escalate (a.current c now) (a.last c) := by
  cases a with
  | leaf => rfl
  | chain =>
    simp only [due, chainNotificationThreshold, current, last]
    cases c.chainDaysRemaining now with
    | none => rfl
    | some days => rfl

/-! ### Thresholds as rungs -/

/-- The rung an entry stands on; `⊤` when there is nothing to notify. -/
def rung (a : Alert) (c : Cert) (now : Int) : WithTop Int :=
  if a.current c now = -1 then ⊤ else (a.current c now : WithTop Int)

end Alert

/-- The last rung alerted on, by its counter; 0 is never. -/
def ofCounter (n : Int) : WithTop Int := if n = 0 then ⊤ else (n : WithTop Int)

@[simp] theorem ofCounter_zero : ofCounter 0 = ⊤ := rfl

theorem ofCounter_of_pos {n : Int} (h : 0 < n) : ofCounter n = (n : WithTop Int) :=
  if_neg (by omega)

theorem currentThreshold_cases (days : Int) :
    currentThreshold days = 3 ∨ currentThreshold days = 7 ∨ currentThreshold days = 30 ∨
      currentThreshold days = -1 := by
  unfold currentThreshold
  split_ifs <;> simp

theorem currentDomainThreshold_cases (days : Int) :
    currentDomainThreshold days = 7 ∨ currentDomainThreshold days = 30 ∨
      currentDomainThreshold days = 60 ∨ currentDomainThreshold days = -1 := by
  unfold currentDomainThreshold
  split_ifs <;> simp

namespace Alert

variable {a : Alert} {c : Cert} {now : Int}

/-- A bucket is a positive threshold or the mark for none. -/
theorem current_pos_or (a : Alert) (c : Cert) (now : Int) :
    0 < a.current c now ∨ a.current c now = -1 := by
  cases a with
  | leaf =>
    have h1 := currentThreshold_cases (c.daysRemaining now)
    have h2 := currentDomainThreshold_cases (c.daysRemaining now)
    simp only [current, thresholdFor]
    split_ifs <;> omega
  | chain =>
    simp only [current]
    cases c.chainDaysRemaining now with
    | none => exact Or.inr rfl
    | some days =>
      have h := currentThreshold_cases days
      simp only [Option.map_some, Option.getD_some]
      omega

theorem rung_of_pos (h : 0 < a.current c now) : a.rung c now = (a.current c now : WithTop Int) :=
  if_neg (by omega)

theorem rung_eq_coe_iff {th : Int} :
    a.rung c now = (th : WithTop Int) ↔ 0 < th ∧ a.current c now = th := by
  rcases current_pos_or a c now with h | h
  · rw [rung_of_pos h, WithTop.coe_inj]
    omega
  · simp only [rung, h, if_true, WithTop.top_ne_coe, false_iff]
    omega

/-- An alert is due exactly when the rung found is below the one last alerted on,
and it is due at that rung. -/
theorem due_pos_iff : 0 < a.due c now ↔ a.rung c now < ofCounter (a.last c) := by
  rw [due_eq_escalate]
  rcases current_pos_or a c now with h | h
  · have hne : a.current c now ≠ -1 := by omega
    rw [rung_of_pos h]
    simp only [escalate, hne, if_false, ofCounter]
    split_ifs with h0 hlt
    · simp [h]
    · simp [h, hlt]
    · simp [hlt]
  · simp [escalate, rung, h]

theorem due_eq_current (h : 0 < a.due c now) : a.due c now = a.current c now := by
  rw [due_eq_escalate] at h ⊢
  unfold escalate at h ⊢
  split_ifs at h ⊢ <;> first | rfl | omega

theorem current_pos_of_due (h : 0 < a.due c now) : 0 < a.current c now := by
  rw [← due_eq_current h]
  exact h

/-! ### Buckets over time -/

/-- The day count an alert goes by, if it has one. -/
def days : Alert → Cert → Int → Option Int
  | leaf, c, now => some (c.daysRemaining now)
  | chain, c, now => c.chainDaysRemaining now

/-- The bucket of a kind of alert at a day count. -/
def bucket : Alert → Cert → Int → Int
  | leaf, c => thresholdFor c
  | chain, _ => currentThreshold

theorem current_eq_days (a : Alert) (c : Cert) (now : Int) :
    a.current c now = ((a.days c now).map (a.bucket c)).getD (-1) := by
  cases a <;> rfl

/-- Fewer days never mean a less urgent bucket. -/
theorem bucket_mono {d e : Int} (h : d ≤ e) (he : a.bucket c e ≠ -1) :
    a.bucket c d ≠ -1 ∧ a.bucket c d ≤ a.bucket c e := by
  have hcert : currentThreshold e ≠ -1 →
      currentThreshold d ≠ -1 ∧ currentThreshold d ≤ currentThreshold e := by
    unfold currentThreshold
    split_ifs <;> omega
  have hdomain : currentDomainThreshold e ≠ -1 →
      currentDomainThreshold d ≠ -1 ∧ currentDomainThreshold d ≤ currentDomainThreshold e := by
    unfold currentDomainThreshold
    split_ifs <;> omega
  cases a with
  | leaf =>
    simp only [bucket, thresholdFor] at he ⊢
    split_ifs at he ⊢
    · exact hdomain he
    · exact hcert he
  | chain => exact hcert he

theorem rung_antitone (a : Alert) (c : Cert) {u v : Int} (h : u ≤ v) :
    a.rung c v ≤ a.rung c u := by
  by_cases hu : a.current c u = -1
  · simp [rung, hu]
  · have key : a.current c v ≠ -1 ∧ a.current c v ≤ a.current c u := by
      rw [current_eq_days] at hu ⊢
      rw [current_eq_days a c u]
      cases a with
      | leaf => exact bucket_mono (a := leaf) (daysBetween_antitone c.expiresAt h) hu
      | chain =>
        simp only [days, Cert.chainDaysRemaining] at hu ⊢
        cases hrisk : c.chainRisk with
        | none => simp [hrisk] at hu
        | some risk =>
          rw [hrisk] at hu
          exact bucket_mono (a := chain) (c := c) (daysBetween_antitone risk.notAfter h) hu
    rw [rung, if_neg key.1, rung, if_neg hu]
    exact WithTop.coe_le_coe.mpr key.2

end Alert

end CertGuard
