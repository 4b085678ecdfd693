import CertGuard.Lib.Batch
import CertGuard.Server.Accounts

/-!
# Two statements where one fails

`SetVaultWrapper` deletes the row of a credential and inserts the new one; `SetUserPassword` stores
the new hash and deletes the sessions. If the second statement fails, the first stands.

## Main definitions

* `Store.setVaultWrapper`, `Store.setUserPassword` — the two as batches of statements
* `Store.WrapperKept`, `Store.PasswordWhole` — what an error should leave behind

## Main results

* `statements_atomic_iff` — an error leaves that behind exactly if the first statement has nothing
  to lose, or the second does not fail after it
* `statements_atomic_all_iff` — the rows for which no failure does harm
* `statements_not_atomic` — a store where a failure does
* `resetPc_setUserPassword` — the requests that reset a password take these statements
-/

namespace CertGuard

namespace Store

/-! ### The batches -/

/-- The `DELETE` of `SetVaultWrapper`. -/
def dropWrapper (w : WrapperRow) (s : Store) : Option Store :=
  some (s.deleteVaultWrapper w.credentialId)

/-- The `INSERT` of `SetVaultWrapper`. The table refuses a row without its credential. -/
def insertWrapper (w : WrapperRow) (s : Store) : Option Store :=
  if s.TakesWrapper w then some (s.insertVaultWrapper w) else none

/-- `SetVaultWrapper`, where the database carries out statement `i` if `ok i`: the store after,
and whether it returns no error. -/
def setVaultWrapper (s : Store) (ok : Nat → Bool) (w : WrapperRow) : Store × Bool :=
  Batch.exec [dropWrapper w, insertWrapper w] ok s

/-- The `UPDATE` of `SetUserPassword`; that it changes no row is `ErrNotFound`. -/
def updateHash (id : Int) (hash : String) (s : Store) : Option Store :=
  if (s.users.get? id).isSome then some (s.setPasswordHash id hash) else none

/-- The `DELETE` of `SetUserPassword`. -/
def endSessions (id : Int) (s : Store) : Option Store := some (s.deleteSessions id)

/-- A new password and, by a second statement, the end of the user's sessions. -/
def setUserPassword (s : Store) (ok : Nat → Bool) (id : Int) (hash : String) : Store × Bool :=
  Batch.exec [updateHash id hash, endSessions id] ok s

/-! ### What an error should leave behind -/

/-- The hash a user has. -/
def passwordHash (s : Store) (id : Int) : Option String :=
  (s.users.get? id).map UserRow.passwordHash

/-- The user is signed in somewhere. -/
def SignedIn (s : Store) (id : Int) : Prop :=
  ∃ k row, s.sessions.get? k = some row ∧ row.userId = id

/-- The row of the credential is what it was. -/
def WrapperKept (s s' : Store) (credentialId : String) : Prop :=
  s'.vaultWrapper credentialId = s.vaultWrapper credentialId

/-- The password and all sessions are what they were, or the password is the new one and the user
is signed out. -/
def PasswordWhole (s s' : Store) (id : Int) (hash : String) : Prop :=
  (s'.passwordHash id = s.passwordHash id ∧ s'.sessions = s.sessions) ∨
    (s'.passwordHash id = some hash ∧ ¬ s'.SignedIn id)

variable {s : Store} {ok : Nat → Bool} {w : WrapperRow} {id : Int} {hash : String}

/-! ### What the statements do -/

theorem vaultWrapper_deleteVaultWrapper (s : Store) (credentialId : String) :
    (s.deleteVaultWrapper credentialId).vaultWrapper credentialId = none := by
  rw [vaultWrapper, List.find?_eq_none]
  intro w hw
  simpa [deleteVaultWrapper] using (List.mem_filter.mp hw).2

/-- The row is deleted, so only a credential that is not there keeps the new one out. -/
theorem takesWrapper_deleteVaultWrapper : (s.deleteVaultWrapper w.credentialId).TakesWrapper w ↔
    (s.credentialByID w.credentialId).isSome := by
  refine and_iff_left fun w' hw' => ?_
  simpa using (List.mem_filter.mp hw').2

theorem passwordHash_setPasswordHash (h : (s.users.get? id).isSome) :
    (s.setPasswordHash id hash).passwordHash id = some hash := by
  obtain ⟨row, hrow⟩ := Option.isSome_iff_exists.mp h
  simp [passwordHash, setPasswordHash, hrow]

/-- Where a call of `SetVaultWrapper` ends. -/
theorem setVaultWrapper_eq (s : Store) (ok : Nat → Bool) (w : WrapperRow) :
    s.setVaultWrapper ok w =
      if ok 0 then
        if ok 1 = true ∧ (s.credentialByID w.credentialId).isSome then
          ((s.deleteVaultWrapper w.credentialId).insertVaultWrapper w, true)
        else (s.deleteVaultWrapper w.credentialId, false)
      else (s, false) := by
  cases hdelete : ok 0 with
  | false => exact Batch.exec_fails hdelete
  | true =>
    have hnext : s.setVaultWrapper ok w = Batch.exec [insertWrapper w] (fun i => ok (i + 1))
        (s.deleteVaultWrapper w.credentialId) := Batch.exec_next hdelete rfl
    rw [hnext, if_pos rfl]
    by_cases htakes : (s.deleteVaultWrapper w.credentialId).TakesWrapper w
    · have hinsert : insertWrapper w (s.deleteVaultWrapper w.credentialId) =
          some ((s.deleteVaultWrapper w.credentialId).insertVaultWrapper w) := if_pos htakes
      rw [Batch.exec_one hinsert]
      simp [takesWrapper_deleteVaultWrapper.mp htakes]
    · have hrefused : insertWrapper w (s.deleteVaultWrapper w.credentialId) = none :=
        if_neg htakes
      rw [Batch.exec_refused hrefused, if_neg]
      exact fun h => htakes (takesWrapper_deleteVaultWrapper.mpr h.2)

/-- Where a call of `SetUserPassword` ends. -/
theorem setUserPassword_eq (s : Store) (ok : Nat → Bool) (id : Int) (hash : String) :
    s.setUserPassword ok id hash =
      if ok 0 = true ∧ (s.users.get? id).isSome then
        if ok 1 then ((s.setPasswordHash id hash).deleteSessions id, true)
        else (s.setPasswordHash id hash, false)
      else (s, false) := by
  cases hupdate : ok 0 with
  | false => exact Batch.exec_fails hupdate
  | true =>
    by_cases huser : (s.users.get? id).isSome
    · have hnext : s.setUserPassword ok id hash = Batch.exec [endSessions id]
          (fun i => ok (i + 1)) (s.setPasswordHash id hash) :=
        Batch.exec_next hupdate (if_pos huser)
      rw [hnext, if_pos ⟨rfl, huser⟩]
      exact Batch.exec_one rfl
    · rw [if_neg fun h => huser h.2]
      exact Batch.exec_refused (if_neg huser)

/-! ### Where a statement fails -/

/-- The row of the credential is lost exactly if there is one, it is deleted, and the new one is
not inserted. -/
theorem wrapperKept_iff :
    ((s.setVaultWrapper ok w).2 = false →
        s.WrapperKept (s.setVaultWrapper ok w).1 w.credentialId) ↔
      (s.vaultWrapper w.credentialId = none ∨ ok 0 = false ∨
        (ok 1 = true ∧ (s.credentialByID w.credentialId).isSome)) := by
  rw [setVaultWrapper_eq]
  split_ifs with hdelete hinsert
  · exact iff_of_true (by simp) (.inr (.inr hinsert))
  · -- the row is gone, and no other is there
    have hlost : s.WrapperKept (s.deleteVaultWrapper w.credentialId) w.credentialId ↔
        s.vaultWrapper w.credentialId = none := by
      rw [WrapperKept, vaultWrapper_deleteVaultWrapper, eq_comm]
    simpa [hdelete, hinsert] using hlost
  · exact iff_of_true (fun _ => rfl) (.inr (.inl (by simpa using hdelete)))

/-- A new password is stored and the old sessions stay exactly if the user exists and is signed
in, the hash is another, and the sessions are not deleted. -/
theorem passwordWhole_iff :
    ((s.setUserPassword ok id hash).2 = false →
        s.PasswordWhole (s.setUserPassword ok id hash).1 id hash) ↔
      (s.passwordHash id = none ∨ s.passwordHash id = some hash ∨ ¬ s.SignedIn id ∨
        ok 0 = false ∨ ok 1 = true) := by
  rw [setUserPassword_eq]
  split_ifs with hupdate hdelete
  · exact iff_of_true (by simp) (.inr (.inr (.inr (.inr hdelete))))
  · -- the hash is stored and the sessions are there
    obtain ⟨hok, huser⟩ := hupdate
    have hstored : (s.setPasswordHash id hash).passwordHash id = some hash :=
      passwordHash_setPasswordHash huser
    have hsome : s.passwordHash id ≠ none := by
      simpa [passwordHash, Option.isSome_iff_ne_none] using huser
    have hsignedIn : (s.setPasswordHash id hash).SignedIn id ↔ s.SignedIn id := Iff.rfl
    have hsessions : (s.setPasswordHash id hash).sessions = s.sessions := rfl
    simp only [PasswordWhole, hstored, hsome, hsessions, hsignedIn, hok, hdelete, and_true,
      true_and, false_or, or_false, forall_const, Bool.true_eq_false, Bool.false_eq_true,
      eq_comm (b := s.passwordHash id)]
  · -- nothing is written
    refine iff_of_true (fun _ => .inl ⟨rfl, rfl⟩) ?_
    cases hok : ok 0 with
    | false => exact .inr (.inr (.inr (.inl rfl)))
    | true =>
      refine .inl ?_
      simpa [passwordHash, hok] using hupdate

end Store

/-- Where statements fail: `SetVaultWrapper` returns an error and leaves the row of the credential
as it was exactly if it had none, the deletion fails, or the insertion does not; and
`SetUserPassword` returns one and leaves nothing half done exactly if there is no such user, the
hash is the same or the user is signed in nowhere, the update fails, or the deletion does not. -/
theorem statements_atomic_iff (s : Store) (ok : Nat → Bool) (w : WrapperRow) (id : Int)
    (hash : String) :
    (((s.setVaultWrapper ok w).2 = false →
        s.WrapperKept (s.setVaultWrapper ok w).1 w.credentialId) ↔
      (s.vaultWrapper w.credentialId = none ∨ ok 0 = false ∨
        (ok 1 = true ∧ (s.credentialByID w.credentialId).isSome))) ∧
    (((s.setUserPassword ok id hash).2 = false →
        s.PasswordWhole (s.setUserPassword ok id hash).1 id hash) ↔
      (s.passwordHash id = none ∨ s.passwordHash id = some hash ∨ ¬ s.SignedIn id ∨
        ok 0 = false ∨ ok 1 = true)) :=
  ⟨Store.wrapperKept_iff, Store.passwordWhole_iff⟩

/-- What an error leaves whichever statement fails: no call of `SetVaultWrapper` for a credential
loses its row exactly if there is none, and no call of `SetUserPassword` is left half done exactly
if there is no such user, the hash is the same or the user is signed in nowhere. -/
theorem statements_atomic_all_iff (s : Store) (w : WrapperRow) (id : Int) (hash : String) :
    ((∀ ok, (s.setVaultWrapper ok w).2 = false →
        s.WrapperKept (s.setVaultWrapper ok w).1 w.credentialId) ↔
      s.vaultWrapper w.credentialId = none) ∧
    ((∀ ok, (s.setUserPassword ok id hash).2 = false →
        s.PasswordWhole (s.setUserPassword ok id hash).1 id hash) ↔
      (s.passwordHash id = none ∨ s.passwordHash id = some hash ∨ ¬ s.SignedIn id)) := by
  constructor
  · have hpoints : (∀ ok, (s.setVaultWrapper ok w).2 = false →
        s.WrapperKept (s.setVaultWrapper ok w).1 w.credentialId) ↔
          ∀ n < 2, ∀ s', Batch.upTo [Store.dropWrapper w, Store.insertWrapper w] n s = some s' →
            s.WrapperKept s' w.credentialId :=
      Batch.forall_error_iff (P := fun s' => s.WrapperKept s' w.credentialId)
    refine hpoints.trans ⟨fun h => ?_, fun h n hn s' hupTo => ?_⟩
    · -- after the deletion alone
      have hlost := h 1 (by simp) (s.deleteVaultWrapper w.credentialId) rfl
      rw [Store.WrapperKept, Store.vaultWrapper_deleteVaultWrapper] at hlost
      exact hlost.symm
    · match n, hn with
      | 0, _ =>
        obtain rfl := Option.some.inj hupTo
        rfl
      | 1, _ =>
        obtain rfl := Option.some.inj hupTo
        rw [Store.WrapperKept, Store.vaultWrapper_deleteVaultWrapper, h]
  · constructor
    · intro h
      -- the password is changed and the sessions are not deleted
      have hpoint := Store.passwordWhole_iff.mp (h fun i => i != 1)
      simpa using hpoint
    · intro h ok
      refine Store.passwordWhole_iff.mpr ?_
      tauto

/-- A user with a key that opens the vault, who is signed in. -/
def signedInUser : Store where
  users := Table.empty.insert
    { email := "ann@example.org", passwordHash := "$2a$10$long enough", role := .admin }
  sessions := Table.empty.insert
    { userId := 1, sessionHash := "session", expiresAt := [] }
  credentials := Table.empty.insert { userId := 1, credentialId := "key" }
  wrappers := [⟨"key", wrapKey (.drawn 1) (.fromPRF "key" "salt"), "salt"⟩]

/-- The data key wrapped for the key once more. -/
def newWrapper : WrapperRow := ⟨"key", wrapKey (.drawn 1) (.fromPRF "key" "new salt"), "new salt"⟩

/-- The key opens the vault no more, and the session outlives the password. -/
theorem statements_not_atomic :
    (¬ ∀ (s : Store) ok w, (s.setVaultWrapper ok w).2 = false →
      s.WrapperKept (s.setVaultWrapper ok w).1 w.credentialId) ∧
    ¬ ∀ (s : Store) ok id hash, (s.setUserPassword ok id hash).2 = false →
      s.PasswordWhole (s.setUserPassword ok id hash).1 id hash := by
  constructor
  · intro hall
    have hkept := hall signedInUser (fun i => i != 1) newWrapper (by decide)
    exact absurd hkept (by unfold Store.WrapperKept; decide)
  · intro hall
    rcases hall signedInUser (fun i => i != 1) 1 "$2a$10$a new one" (by decide) with
      ⟨hhash, -⟩ | ⟨-, hout⟩
    · exact absurd hhash (by decide)
    · exact hout ⟨1, _, rfl, rfl⟩

/-- A request that resets a password takes the statements of `SetUserPassword`, if no other
request comes in between. -/
theorem resetPc_setUserPassword (s : Store) (ok : Nat → Bool) (id : Int) (hash : String)
    (t t' : Turn) (ht : t.ok = ok 0) (ht' : t'.ok = ok 1) :
    ∃ eff pc, (ResetPc.update id hash).next s t = some (eff, pc) ∧
      ((pc = .done id false ∧ s.setUserPassword ok id hash = (eff.apply s, false)) ∨
        ∃ eff' b, pc.next (eff.apply s) t' = some (eff', .done id b) ∧
          s.setUserPassword ok id hash = (eff'.apply (eff.apply s), b)) := by
  rw [Store.setUserPassword_eq, ← ht, ← ht']
  by_cases hupdate : t.ok = true ∧ (s.users.get? id).isSome
  · refine ⟨_, _, if_pos hupdate, .inr ⟨_, _, rfl, ?_⟩⟩
    rw [if_pos hupdate]
    cases t'.ok <;> rfl
  · exact ⟨_, _, if_neg hupdate, .inl ⟨rfl, if_neg hupdate⟩⟩

end CertGuard
