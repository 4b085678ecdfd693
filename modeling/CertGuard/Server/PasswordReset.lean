import Mathlib.Logic.Function.Basic
import CertGuard.Server.Accounts

/-!
# Passwords that are replaced

`SetUserPassword` stores the new hash and then ends the sessions of the user. A login reads
the hash first, compares, and inserts its session at the end; one that compared with the old
hash may insert after the sessions were ended.

## Main definitions

* `ResetLog` — which password of a user a login read, a reset made and a session goes back to
* `OldSignedOut` — after a reset no session goes back to an older password
* `StartsInTime` — a login inserts its session before a later password was set and its
  sessions ended

## Main results

* `old_signed_out_iff` — a run signs out the old password exactly if its logins are in time
* `signed_in_after_reset` — and a run in which one is late
-/

namespace CertGuard

open Transition

/-- The passwords of a user are numbered in the order they are set. -/
structure ResetLog where
  /-- The password a user has now. -/
  current : Int → Nat := fun _ => 0
  /-- The password a login compares with, by the number of the request. -/
  read : Nat → Nat := fun _ => 0
  /-- The password a reset has set. -/
  made : Nat → Nat := fun _ => 0
  /-- The password a session was opened with, by its key; none unless by a login. -/
  opened : Int → Option Nat := fun _ => none

namespace ResetLog

/-- A statement of request `i` is recorded. -/
def noteNext (g : ResetLog) (s : Store) (i : Nat) (eff : AccountEffect) : Request → ResetLog
  | .login (.find email _ _) =>
    { g with
      read := Function.update g.read i (((s.getUserByEmail email).map fun u =>
        g.current u.id).getD 0) }
  | .login (.start _) =>
    match eff with
    | .createSession _ =>
      { g with opened := Function.update g.opened s.sessions.nextKey (some (g.read i)) }
    | _ => g
  | .setup (.start _) => { g with opened := Function.update g.opened s.sessions.nextKey none }
  | .reset (.update id _) =>
    match eff with
    | .setPasswordHash _ _ =>
      { g with
        current := Function.update g.current id (g.current id + 1)
        made := Function.update g.made i (g.current id + 1) }
    | _ => g
  | _ => g

/-- Keeps the log of a run. -/
def note (cfg : AuthConfig) (g : ResetLog) (y : Accounts) (act : AccountAct) : ResetLog :=
  match act with
  | .step i _ => y.requests[i]?.elim g (g.noteNext y.store i (y.effect cfg act))
  | _ => g

end ResetLog

/-- Accounts with the log. -/
abbrev resetStep (cfg : AuthConfig) :
    Accounts × ResetLog → AccountAct → Option (Accounts × ResetLog) :=
  watch (Accounts.step cfg) (ResetLog.note cfg)

/-- Once a reset has returned no error, no session of the user goes back to an older password
than the one it set. -/
def OldSignedOut (w : Accounts × ResetLog) : Prop :=
  ∀ j id, w.1.requests[j]? = some (.reset (.done id true)) →
    ∀ k row, w.1.store.sessions.get? k = some row → row.userId = id →
      ∀ v, w.2.opened k = some v → w.2.made j ≤ v

/-- A login that inserts its session compared with a password no reset that has returned is
newer than. -/
def StartsInTime (cfg : AuthConfig) (w : Accounts × ResetLog) (act : AccountAct) : Prop :=
  ∀ i t user row, act = .step i t → w.1.requests[i]? = some (.login (.start user)) →
    w.1.effect cfg act = .createSession row → w.1.store.TakesSession row →
      ∀ j, w.1.requests[j]? = some (.reset (.done user.id true)) → w.2.made j ≤ w.2.read i

variable {cfg : AuthConfig} {s : Store} {w w' : Accounts × ResetLog} {act : AccountAct}
variable {y y' : Accounts} {eff : AccountEffect} {k id : Int} {j i : Nat} {t : Turn}

/-! ### What a statement does -/

/-- Where a session comes from that is there after a statement. -/
theorem session_apply {row : SessionRow} (h : (eff.apply s).sessions.get? k = some row) :
    s.sessions.get? k = some row ∨
      eff = .createSession row ∧ s.TakesSession row ∧ k = s.sessions.nextKey := by
  -- a deletion makes no session
  have herase : ∀ p : SessionRow → Bool, (s.sessions.eraseAll p).get? k = some row →
      s.sessions.get? k = some row := fun p hp => by
    rw [Table.get?_eraseAll, Option.filter_eq_some_iff] at hp
    exact hp.1
  cases eff with
  | createSession row' =>
    rw [AccountEffect.apply, Store.createSession] at h
    split_ifs at h with htakes
    · rw [Table.get?_insert] at h
      split_ifs at h with hk
      · obtain rfl := Option.some.inj h
        exact Or.inr ⟨rfl, htakes, hk⟩
      · exact Or.inl h
    · exact Or.inl h
  | createUser row' =>
    rw [AccountEffect.apply, Store.createUser] at h
    split_ifs at h <;> exact Or.inl h
  | deleteUser id => exact Or.inl (herase _ h)
  | deleteSessions id => exact Or.inl (herase _ h)
  | deleteSession sessionHash => exact Or.inl (herase _ h)
  | _ => exact Or.inl h

/-- A reset that has returned had done so before, or it has just ended the sessions. -/
theorem reset_done_step (hstep : y.step cfg act = some y')
    (h : y'.requests[j]? = some (.reset (.done id true))) :
    y.requests[j]? = some (.reset (.done id true)) ∨ y.effect cfg act = .deleteSessions id := by
  rcases Accounts.request_cases hstep h with ⟨hold, -⟩ | harrival | ⟨t, r, rfl, hr, hnext⟩
  · exact Or.inl hold
  · cases act <;> simp [AccountAct.arrival] at harrival
  · cases r with
    | reset pc =>
      obtain ⟨m, hpc, hm⟩ := Option.map_eq_some_iff.mp hnext
      obtain ⟨heff, hrequest⟩ := Prod.mk.inj hm
      cases pc with
      | update id' hash =>
        simp only [ResetPc.next] at hpc
        split_ifs at hpc <;> obtain rfl := Option.some.inj hpc <;> simp at hrequest
      | signOut id' =>
        obtain rfl := Option.some.inj hpc
        simp only [Request.reset.injEq, ResetPc.done.injEq] at hrequest
        obtain ⟨rfl, hok⟩ := hrequest
        exact Or.inr (by rw [← heff, if_pos hok])
      | done id' ok => simp [ResetPc.next] at hpc
    | _ =>
      -- a request of another kind does not become a reset
      obtain ⟨m, -, hm⟩ := Option.map_eq_some_iff.mp hnext
      simp at hm

/-- A session is inserted by a login or by the request that set the instance up. -/
theorem createSession_step {row : SessionRow} (hstep : y.step cfg act = some y')
    (h : y.effect cfg act = .createSession row) :
    ∃ i t user, act = .step i t ∧ row.userId = user.id ∧
      (y.requests[i]? = some (.login (.start user)) ∨
        y.requests[i]? = some (.setup (.start user))) := by
  rcases Accounts.effect_cases hstep with hnothing | ⟨i, t, r, hact, hr, heff⟩
  · exact absurd (h.symm.trans hnothing) (by simp)
  · have hstatement := h.symm.trans heff
    unfold Request.statement at hstatement
    split at hstatement <;>
      simp only [reduceCtorEq, AccountEffect.createSession.injEq] at hstatement
    · exact ⟨i, t, _, hact, congrArg SessionRow.userId hstatement, Or.inl hr⟩
    · exact ⟨i, t, _, hact, congrArg SessionRow.userId hstatement, Or.inr hr⟩

/-! ### The log -/

variable {g : ResetLog}

/-- The log says nothing new about a session that was there. -/
theorem opened_note {row : SessionRow} (h : y.store.sessions.get? k = some row) :
    (g.note cfg y act).opened k = g.opened k := by
  -- the log notes only new sessions
  have hk : k ≠ y.store.sessions.nextKey := fun hk => by
    rw [hk, Table.get?_nextKey] at h
    exact absurd h (by simp)
  cases act with
  | step i t =>
    simp only [ResetLog.note]
    cases y.requests[i]? with
    | none => rfl
    | some r =>
      simp only [Option.elim_some, ResetLog.noteNext]
      split
      · rfl
      · split
        · exact Function.update_of_ne hk _ _
        · rfl
      · exact Function.update_of_ne hk _ _
      · split <;> rfl
      · rfl
  | _ => rfl

/-- Nor about a reset that has returned. -/
theorem made_note {ok : Bool} (h : y.requests[j]? = some (.reset (.done id ok))) :
    (g.note cfg y act).made j = g.made j := by
  cases act with
  | step i t =>
    simp only [ResetLog.note]
    cases hr : y.requests[i]? with
    | none => rfl
    | some r =>
      simp only [Option.elim_some, ResetLog.noteNext]
      split
      · rfl
      · split <;> rfl
      · rfl
      · split
        · -- a reset is noted when it ends, and this one has
          refine Function.update_of_ne (fun hij => ?_) _ _
          rw [hij, hr] at h
          exact absurd h (by simp)
        · rfl
      · rfl
  | _ => rfl

/-- A session a login inserts goes back to the password the login read. -/
theorem opened_note_login {user : User} {row : SessionRow}
    (hr : y.requests[i]? = some (.login (.start user)))
    (heff : y.effect cfg (.step i t) = .createSession row) :
    (g.note cfg y (.step i t)).opened y.store.sessions.nextKey = some (g.read i) := by
  simp only [ResetLog.note, hr, Option.elim_some, ResetLog.noteNext, heff, Function.update_self]

theorem opened_note_setup {user : User} (hr : y.requests[i]? = some (.setup (.start user))) :
    (g.note cfg y (.step i t)).opened y.store.sessions.nextKey = none := by
  simp only [ResetLog.note, hr, Option.elim_some, ResetLog.noteNext, Function.update_self]

/-! ### Signing out -/

/-- After a step the old passwords are signed out exactly if a login was in time. -/
theorem oldSignedOut_step (h : OldSignedOut w) (hstep : resetStep cfg w act = some w') :
    OldSignedOut w' ↔ StartsInTime cfg w act := by
  obtain ⟨y', hy', rfl⟩ := Option.map_eq_some_iff.mp hstep
  have hstore := Accounts.store_step hy'
  constructor
  · rintro hafter i t user row rfl hr heff htakes j hj
    -- the reset has returned, so it is not the login that takes the step
    have hij : i ≠ j := fun hij => by
      rw [hij, hj] at hr
      exact absurd hr (by simp)
    have hj' : y'.requests[j]? = some (.reset (.done user.id true)) :=
      Accounts.request_kept hy' (fun t' hact => hij (AccountAct.step.inj hact).1) hj
    have hnew : y'.store.sessions.get? w.1.store.sessions.nextKey = some row := by
      rw [hstore, heff, AccountEffect.apply, Store.createSession, if_pos htakes, Table.get?_insert,
        if_pos rfl]
    have hid : row.userId = user.id := by
      obtain ⟨i', t', user', hact, hid, hr'⟩ := createSession_step hy' heff
      obtain ⟨rfl, rfl⟩ := AccountAct.step.inj hact
      have hsame : user = user' := by simpa [hr] using hr'
      rw [hid, hsame]
    have hmade := hafter j user.id hj' _ row hnew hid _ (opened_note_login hr heff)
    rwa [made_note hj] at hmade
  · intro hintime j id hj k row hrow hid v hv
    rw [hstore] at hrow
    rcases reset_done_step hy' hj with hold | hsignOut
    · rw [made_note hold]
      rcases session_apply hrow with hthere | ⟨heff, htakes, rfl⟩
      · -- a session from before the step
        rw [opened_note hthere] at hv
        exact h j id hold k row hthere hid v hv
      · obtain ⟨i, t, user, rfl, huser, hr | hr⟩ := createSession_step hy' heff
        · obtain rfl := Option.some.inj ((opened_note_login hr heff).symm.trans hv)
          obtain rfl : user.id = id := huser.symm.trans hid
          exact hintime i t user row rfl hr heff htakes j hold
        · exact absurd ((opened_note_setup hr).symm.trans hv) (by simp)
    · -- the sessions of the user have just been ended
      rw [hsignOut, AccountEffect.apply, Store.deleteSessions, Table.get?_eraseAll,
        Option.filter_eq_some_iff] at hrow
      exact absurd hid (by simpa using hrow.2)

/-- Over every interleaving of resets, logins and other requests, whatever fails in them:
once a reset has returned no error no session of its user was opened with an older password,
exactly if no login that read an older one inserts its session after that. -/
theorem old_signed_out_iff (cfg : AuthConfig) (s : Store) (acts : List AccountAct) :
    Always (resetStep cfg) OldSignedOut (⟨s, []⟩, {}) acts ↔
      Meets (resetStep cfg) (StartsInTime cfg) (⟨s, []⟩, {}) acts := by
  apply always_iff_meets_of_step
  · intro j id hj
    simp at hj
  · intro w act w' hold hstep
    exact oldSignedOut_step hold hstep
  · rintro w act hrefused i t user row rfl - heff
    have hnone : w.1.step cfg (.step i t) = none := Option.map_eq_none_iff.mp hrefused
    rw [Accounts.effect_of_refused hnone] at heff
    exact absurd heff (by simp)

/-- One user, with a password. -/
def demoUser : Store where
  users := Table.empty.insert
    { email := "ann@example.org", passwordHash := "$2a$10$long enough", role := .admin }

/-- A login compares with the old password and starts its session when the reset is over. -/
def lateLogin : List AccountAct :=
  [.login "ann@example.org" "long enough" "", .setUserPassword 1 "$2a$10$a new one",
    .step 0 {}, .step 0 {}, .step 1 {}, .step 1 {}, .step 0 { drawn := "session" }]

/-- The session of the old password is there to stay. -/
theorem signed_in_after_reset : ¬ ∀ cfg s acts,
    Always (resetStep cfg) OldSignedOut (⟨s, []⟩, {}) acts := by
  intro hall
  have hend : ((run (resetStep demoConfig) (⟨demoUser, []⟩, {}) lateLogin).map fun w =>
      (w.1.requests[1]?, (w.1.store.sessions.get? 1).map SessionRow.userId, w.2.opened 1,
        w.2.made 1)) = some (some (.reset (.done 1 true)), some 1, some 0, 1) := by decide
  obtain ⟨w, hrun, hw⟩ := Option.map_eq_some_iff.mp hend
  simp only [Prod.mk.injEq, Option.map_eq_some_iff] at hw
  obtain ⟨hreset, ⟨row, hrow, hid⟩, hopened, hmade⟩ := hw
  have hold := hall demoConfig demoUser lateLogin lateLogin w (List.prefix_refl _) hrun 1 1 hreset 1
    row hrow hid 0 hopened
  omega

end CertGuard
