import CertGuard.Scheduler.Runs
import CertGuard.Scheduler.StaleCoverage
import CertGuard.Server.EntryRequests

/-!
# The public status page

What anybody may learn of the inventory, when the operator lets them: how many entries there are,
how many of them are in which state, and when one was last looked at. The states come from a
count of whole days, which is rounded towards zero on both sides of the expiry.

## Main definitions

* `PublicStatus`, `publicStatusStep`, `handlePublicStatus` — the counts and the loop that makes
  them
* `PublicStatus.CountsRight` — what the counts should be
* `JustExpired` — expired less than a day ago

## Main results

* `foldl_publicStatusStep` — what the loop counts
* `public_status_iff` — the counts are right exactly when nothing expired within the last day
-/

namespace CertGuard

/-! ### The handler -/

/-- The counts of `handlePublicStatus`. -/
structure PublicStatus where
  tracked : Nat := 0
  healthy : Nat := 0
  expiring : Nat := 0
  expired : Nat := 0
  problems : Nat := 0
  lastCheck : Option Int := none
  now : Int
  deriving DecidableEq, Repr

/-- The later of the last check so far and that of one more entry. -/
def laterCheck (lastCheck scanned : Option Int) : Option Int :=
  match scanned with
  | none => lastCheck
  | some t =>
    match lastCheck with
    | none => some t
    | some u => if u < t then some t else some u

/-- The loop body of `handlePublicStatus`. -/
def publicStatusStep (out : PublicStatus) (c : Cert) : PublicStatus :=
  let d := c.daysRemaining out.now
  { out with
    tracked := out.tracked + 1
    healthy := if d < 0 ∨ d ≤ 30 then out.healthy else out.healthy + 1
    expiring := if ¬ d < 0 ∧ d ≤ 30 then out.expiring + 1 else out.expiring
    expired := if d < 0 then out.expired + 1 else out.expired
    problems := if c.isProblem then out.problems + 1 else out.problems
    lastCheck := laterCheck out.lastCheck c.lastScannedAt }

/-- The counts over a list of entries. -/
def countPublic (now : Int) (certs : List Cert) : PublicStatus :=
  certs.foldl publicStatusStep { now }

/-- `handlePublicStatus`; `certs` is what `List` gives, or nothing if it fails. -/
def handlePublicStatus (statusPublic : Bool) (now : Int) (certs : Option (List Cert)) :
    Answer PublicStatus :=
  if statusPublic = false then writeErr 404 "404 page not found"
  else
    match certs with
    | none => writeErr 500 "unavailable"
    | some certs => writeJSON 200 (countPublic now certs)

/-! ### What the loop counts -/

theorem daysRemaining_neg_iff (c : Cert) (now : Int) :
    c.daysRemaining now < 0 ↔ c.expiresAt ≤ now - Rfc3339.oneDay := by
  rw [Cert.daysRemaining, daysBetween, tdiv_oneDay_eq]
  simp only [timeSub, maxDuration, minDuration, Rfc3339.oneDay]
  split_ifs <;> omega

/-- At most thirty whole days are left when less than thirty-one days are. -/
theorem daysRemaining_le_thirty_iff (c : Cert) (now : Int) :
    c.daysRemaining now ≤ 30 ↔ c.expiresAt - now < 31 * Rfc3339.oneDay := by
  rw [Cert.daysRemaining, daysBetween, tdiv_oneDay_eq]
  simp only [timeSub, maxDuration, minDuration, Rfc3339.oneDay]
  split_ifs <;> omega

/-- The later of two checks, as a maximum. -/
theorem laterCheck_eq (lastCheck scanned : Option Int) :
    laterCheck lastCheck scanned = (lastCheck.toList ++ scanned.toList).max? := by
  cases scanned with
  | none => cases lastCheck <;> simp [laterCheck]
  | some t =>
    cases lastCheck with
    | none => simp [laterCheck]
    | some u =>
      simp only [laterCheck, Option.toList_some, List.singleton_append, List.max?_cons',
        List.foldl_cons, List.foldl_nil]
      split <;> simp <;> omega

theorem max?_toList_append (xs ys : List Int) : (xs.max?.toList ++ ys).max? = (xs ++ ys).max? := by
  cases xs with
  | nil => rfl
  | cons x xs =>
    simp only [List.max?_cons', Option.toList_some, List.cons_append, List.nil_append,
      List.foldl_append]

/-- What the loop adds to counts that it starts from. -/
theorem foldl_publicStatusStep (certs : List Cert) (out : PublicStatus) :
    certs.foldl publicStatusStep out =
      { tracked := out.tracked + certs.length
        healthy := out.healthy + certs.countP fun c => 30 < c.daysRemaining out.now
        expiring := out.expiring + certs.countP fun c =>
          0 ≤ c.daysRemaining out.now ∧ c.daysRemaining out.now ≤ 30
        expired := out.expired + certs.countP fun c => c.daysRemaining out.now < 0
        problems := out.problems + certs.countP Cert.isProblem
        lastCheck := (out.lastCheck.toList ++ certs.filterMap Cert.lastScannedAt).max?
        now := out.now } := by
  induction certs generalizing out with
  | nil =>
    have hlast : out.lastCheck.toList.max? = out.lastCheck := by cases out.lastCheck <;> simp
    simp [hlast]
  | cons c cs ih =>
    -- the later of the two checks goes first, which the maximum does not see
    have hlast : ((laterCheck out.lastCheck c.lastScannedAt).toList ++
        cs.filterMap Cert.lastScannedAt).max? =
          (out.lastCheck.toList ++ (c :: cs).filterMap Cert.lastScannedAt).max? := by
      rw [laterCheck_eq, max?_toList_append, List.append_assoc]
      cases hc : c.lastScannedAt <;> simp [hc]
    have hnow : (publicStatusStep out c).now = out.now := rfl
    rw [List.foldl_cons, ih, hnow]
    simp only [publicStatusStep, PublicStatus.mk.injEq, List.length_cons, List.countP_cons,
      hlast, decide_eq_true_eq, and_true]
    refine ⟨by omega, ?_, ?_, ?_, ?_⟩ <;> split_ifs <;> omega

/-! ### What the counts should be -/

/-- The counts are those of the entries, each in the one state it is in at this instant. -/
structure PublicStatus.CountsRight (out : PublicStatus) (now : Int) (certs : List Cert) :
    Prop where
  tracked : out.tracked = out.healthy + out.expiring + out.expired
  all : out.tracked = certs.length
  expired : out.expired = certs.countP fun c => c.expiresAt < now
  expiring : out.expiring = certs.countP fun c =>
    ¬ c.expiresAt < now ∧ c.expiresAt - now < 31 * Rfc3339.oneDay
  problems : out.problems = certs.countP fun c =>
    c.lastError ≠ "" ∨ ∃ n ∈ c.coverage, n.status = .unreachable
  lastCheck : out.lastCheck = (certs.filterMap Cert.lastScannedAt).max?

/-- Expired, but less than a day ago. -/
def JustExpired (now : Int) (c : Cert) : Prop :=
  now - Rfc3339.oneDay < c.expiresAt ∧ c.expiresAt < now

/-- Counting two properties of which one implies the other gives the same number exactly when
they agree. -/
theorem countP_eq_countP_iff {α : Type*} {p q : α → Bool} {l : List α}
    (h : ∀ a ∈ l, p a = true → q a = true) :
    l.countP p = l.countP q ↔ ∀ a ∈ l, q a = true → p a = true := by
  induction l with
  | nil => simp
  | cons a l ih =>
    have ih := ih fun b hb => h b (List.mem_cons_of_mem _ hb)
    have hle : l.countP p ≤ l.countP q :=
      List.countP_mono_left fun b hb => h b (List.mem_cons_of_mem _ hb)
    have ha := h a (by simp)
    simp only [List.countP_cons, List.forall_mem_cons, ← ih]
    split_ifs <;> simp_all
    omega

/-- The day count goes negative a day late. -/
theorem justExpired_iff (now : Int) (c : Cert) :
    JustExpired now c ↔ c.expiresAt < now ∧ ¬ c.daysRemaining now < 0 := by
  -- truncation towards zero: the count is 0 for the whole day after the expiry
  rw [daysRemaining_neg_iff, JustExpired]
  omega

theorem expired_of_daysRemaining_neg {now : Int} {c : Cert} (h : c.daysRemaining now < 0) :
    c.expiresAt < now := by
  rw [daysRemaining_neg_iff, Rfc3339.oneDay] at h
  omega

/-- The entries counted as expired are those that are, but for those of the last day. -/
theorem countP_expired_eq_iff (now : Int) (certs : List Cert) :
    ((certs.countP fun c => c.daysRemaining now < 0) =
      certs.countP fun c => c.expiresAt < now) ↔ ∀ c ∈ certs, ¬ JustExpired now c := by
  rw [countP_eq_countP_iff]
  · refine forall₂_congr fun c _ => ?_
    rw [decide_eq_true_iff, decide_eq_true_iff, justExpired_iff]
    tauto
  · intro c _ hc
    rw [decide_eq_true_iff] at hc ⊢
    exact expired_of_daysRemaining_neg hc

/-- Every entry is in one of the three states. -/
theorem length_eq_countP_states (now : Int) (certs : List Cert) :
    certs.length = certs.countP (fun c => 30 < c.daysRemaining now) +
      certs.countP (fun c => 0 ≤ c.daysRemaining now ∧ c.daysRemaining now ≤ 30) +
        certs.countP fun c => c.daysRemaining now < 0 := by
  induction certs with
  | nil => rfl
  | cons c cs ih =>
    simp only [List.length_cons, ih, List.countP_cons, decide_eq_true_eq]
    split_ifs <;> omega

theorem countPublic_countsRight {now : Int} {certs : List Cert}
    (h : ∀ c ∈ certs, ¬ JustExpired now c) : (countPublic now certs).CountsRight now certs := by
  rw [countPublic, foldl_publicStatusStep]
  exact {
    tracked := by simpa using length_eq_countP_states now certs
    all := by simp
    expired := by simpa using (countP_expired_eq_iff now certs).mpr h
    expiring := by
      simp only [Nat.zero_add]
      refine List.countP_congr fun c hc => ?_
      have hnot := h c hc
      have hthirty := daysRemaining_le_thirty_iff c now
      have hneg : c.daysRemaining now < 0 → c.expiresAt < now := expired_of_daysRemaining_neg
      -- outside the last day, having expired and a negative count of days are the same
      rw [justExpired_iff] at hnot
      rw [decide_eq_true_iff, decide_eq_true_iff]
      omega
    problems := by
      simp only [Nat.zero_add]
      exact List.countP_congr fun c _ => by simp [Cert.isProblem]
    lastCheck := by simp }

/-- The counts are right exactly when no entry expired within the last day: such an entry has
zero whole days left, and is counted as expiring. -/
theorem public_status_iff (now : Int) (certs : List Cert) :
    (∃ out, handlePublicStatus true now (some certs) = writeJSON 200 out ∧
      out.CountsRight now certs) ↔ ∀ c ∈ certs, ¬ JustExpired now c := by
  constructor
  · -- the count of the expired entries alone tells
    rintro ⟨out, hreply, hright⟩
    have hout : countPublic now certs = out := by
      simpa [handlePublicStatus, writeJSON] using hreply
    rw [← countP_expired_eq_iff, ← hright.expired, ← hout, countPublic, foldl_publicStatusStep]
    simp
  · exact fun h => ⟨countPublic now certs, rfl, countPublic_countsRight h⟩

/-- An entry added by hand, which expires at the start of a day. -/
def demoManual : Cert :=
  scanRowValues 1 (createRow 0 demoDay { name := "legacy", expiresAt := some demoDay })

theorem demoManual_expiresAt : demoManual.expiresAt = demoDay := by
  rw [demoManual, scanRowValues, createRow]
  exact parseTime_format_of_dvd (t := demoDay) (by decide +kernel) (by decide +kernel) (by decide)

/-- An hour after its expiry the entry is not counted as expired. -/
theorem hour_after_expiry :
    ¬ ∃ out, handlePublicStatus true (demoDay + 3600 * Rfc3339.oneSecond) (some [demoManual]) =
        writeJSON 200 out ∧ out.CountsRight (demoDay + 3600 * Rfc3339.oneSecond) [demoManual] := by
  rintro ⟨out, hreply, hright⟩
  have hout : countPublic (demoDay + 3600 * Rfc3339.oneSecond) [demoManual] = out := by
    simpa [handlePublicStatus, writeJSON] using hreply
  have hdays : ¬ daysBetween demoDay (demoDay + 3600 * Rfc3339.oneSecond) < 0 := by decide
  have hgone : demoDay < demoDay + 3600 * Rfc3339.oneSecond := by decide
  have hexpired := hright.expired
  rw [← hout] at hexpired
  simp [countPublic, publicStatusStep, Cert.daysRemaining, demoManual_expiresAt, hdays, hgone]
    at hexpired

end CertGuard
