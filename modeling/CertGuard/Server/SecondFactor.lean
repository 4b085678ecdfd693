import CertGuard.Server.Entrances

/-!
# Second factors

What a request does to the second factor of a user: nothing, unless it is one of the four that set
it up, switch it on or off, or delete a user, or a password and a code get past it.

## Main definitions

* `UserRow.factor`, `SameFactor` — a second factor, and that it stays
* `RouteRequest.touches` — the requests that may change one

## Main results

* `sameFactor_dispatch`, `sameFactor_of_other` — requests behind a sign-in
* `sameFactor_serve`, `handleLogin_cases` — requests to sign in
-/

namespace CertGuard

/-! ### Who is left alone -/

/-- The second factor of a user, with the last step that was taken. -/
def UserRow.factor (r : UserRow) : String × Bool × Int :=
  (r.totpSecret, r.totpEnabled, r.totpLastStep)

/-- A user has the second factor that was there. -/
def SameFactor (id : Int) (s s' : Store) : Prop :=
  (s'.users.get? id).map UserRow.factor = (s.users.get? id).map UserRow.factor

variable {id : Int} {s s' s'' : Store}

theorem SameFactor.refl (id : Int) (s : Store) : SameFactor id s s := rfl

theorem SameFactor.trans (h : SameFactor id s s') (h' : SameFactor id s' s'') :
    SameFactor id s s'' := Eq.trans h' h

theorem sameFactor_of_users (h : s'.users = s.users) : SameFactor id s s' := by
  rw [SameFactor, h]

theorem sameFactor_of_apart {β : Type} {handle : Store → Store × β} (actor : String)
    (h : ApartFromAccounts actor handle) (s : Store) : SameFactor id s (handle s).1 := by
  obtain ⟨lines, hself⟩ := h.accounts s
  rw [hself]
  exact sameFactor_of_users rfl

theorem sameFactor_of_hostApart {β : Type} {handle : Host → Host × β} {h : Host}
    (hapart : HostApart handle h) : SameFactor id h.store (handle h).1.store := by
  have hself : (handle h).1.store = (handle h).1.store.beside h.store :=
    congrArg (fun r : Host × β => r.1.store) (hapart h.store)
  rw [hself]
  exact sameFactor_of_users rfl

/-! ### Requests that leave everybody alone -/

/-- A change of one user is none for another, and none where it keeps the second factor. -/
theorem sameFactor_modifyUser {k : Int} {f : UserRow → UserRow}
    (h : k = id → ∀ r, (f r).factor = r.factor) :
    SameFactor id s { s with users := s.users.modify k f } := by
  rw [SameFactor, Table.get?_modify]
  split_ifs with hid
  · subst hid
    rw [Option.map_map]
    exact congrArg (fun g => (s.users.get? id).map g) (funext (h rfl))
  · rfl

theorem sameFactor_createUser {row : UserRow} (hid : (s.users.get? id).isSome) :
    SameFactor id s (s.createUser row) := by
  rw [Store.createUser]
  split_ifs
  · obtain ⟨r, hr⟩ := Option.isSome_iff_exists.mp hid
    rw [SameFactor, Table.get?_insert_of_some hr, hr]
  · exact SameFactor.refl id s

theorem sameFactor_deleteUser {k : Int} (hid : k ≠ id) : SameFactor id s (s.deleteUser k) := by
  change ((s.users.erase k).get? id).map _ = _
  rw [Table.get?_erase, if_neg hid.symm]

theorem users_addCredential (s : Store) (row : CredentialRow) :
    (s.addCredential row).users = s.users := by
  rw [Store.addCredential]
  split_ifs <;> rfl

theorem users_deleteCredential (s : Store) (k userId : Int) :
    (s.deleteCredential k userId).users = s.users := by
  unfold Store.deleteCredential
  repeat' split
  all_goals rfl

theorem users_withPathID {handle : Int → Store × Answer RouteBody} {path : Option Int}
    (h : ∀ k, (handle k).1.users = s.users) : (withPathID s path handle).1.users = s.users := by
  cases path with
  | none => rfl
  | some k => exact h k

theorem users_handleDeleteChannel (me : User) (s : Store) (path : Option Int) :
    (handleDeleteChannel me s path).1.users = s.users := by
  refine users_withPathID fun k => ?_
  cases hdelete : s.deleteChannel k me.id with
  | none => rfl
  | some s' =>
    unfold Store.deleteChannel at hdelete
    split at hdelete
    · exact absurd hdelete (by simp)
    · obtain ⟨-, hs'⟩ := Option.ite_none_right_eq_some.mp hdelete
      obtain rfl := Option.some.inj hs'
      rfl

theorem users_sweepSession {now : Int} {bearer cookie : Option String} :
    ((sweepSession s now bearer cookie).apply s).users = s.users := by
  unfold sweepSession
  split
  · split_ifs <;> rfl
  · rfl

theorem users_storeSecrets (s : Store) (secrets : List (Int × Cipher)) :
    (storeSecrets s secrets).users = s.users := by
  induction secrets generalizing s with
  | nil => rfl
  | cons sec secrets ih =>
    refine (ih _).trans ?_
    change ((s.setSecret sec.1 sec.2).getD s).users = s.users
    cases hset : s.setSecret sec.1 sec.2 with
    | none => rfl
    | some s' =>
      unfold Store.setSecret at hset
      split at hset
      · obtain ⟨-, hs'⟩ := Option.ite_none_right_eq_some.mp hset
        obtain rfl := Option.some.inj hs'
        rfl
      · exact absurd hset (by simp)

theorem sameFactor_handleZKKeyringSet (env : VaultEnv) (h : Host) (body : Option KeyringReq) :
    SameFactor id h.store (handleZKKeyringSet env h body).1.store := by
  cases body with
  | none => exact SameFactor.refl id h.store
  | some req =>
    have hapart : HostApart (Host.enableZK env · req.keyring.wrapped req.keyring.salt
        req.keyring.iters) h := enableZK_beside env _ _ _
    have henable : SameFactor id h.store _ := sameFactor_of_hostApart hapart
    simp only [handleZKKeyringSet]
    split_ifs
    · exact SameFactor.refl id h.store
    all_goals
      generalize h.enableZK env req.keyring.wrapped req.keyring.salt req.keyring.iters = r
        at henable
      obtain ⟨h', e⟩ := r
      cases e with
      | some e => exact henable
      | none => exact henable.trans (sameFactor_of_users (users_storeSecrets _ req.secrets))

theorem users_setMeta (s : Store) (ok : Bool) (f : Keyring → Keyring) :
    (s.setMeta ok f).users = s.users := by
  cases ok <;> rfl

theorem users_disableZK (env : VaultEnv) (h : Host) :
    (h.disableZK env).1.store.users = h.store.users := by
  unfold Host.disableZK
  dsimp only
  split
  · dsimp only
    split_ifs <;> simp only [users_setMeta, Store.clearAllSecrets]
  · dsimp only
    split_ifs <;> simp only [users_setMeta, Store.clearAllSecrets]

theorem users_handleZKKeyringDelete (env : VaultEnv) (h : Host) :
    (handleZKKeyringDelete env h).1.store.users = h.store.users := by
  have hdisable := users_disableZK env h
  simp only [handleZKKeyringDelete]
  generalize h.disableZK env = r at hdisable
  obtain ⟨h', e⟩ := r
  cases e with
  | some e => exact hdisable
  | none => exact hdisable

/-- The requests that may change a second factor, or take an account with it. -/
def RouteRequest.touches : RouteRequest → Bool
  | setup2FA | enable2FA _ | disable2FA _ | deleteUser _ => true
  | _ => false

theorem sameFactor_dispatch (cfg : Config) (t : RouteTurn) (me : User) (y : Server)
    {req : RouteRequest} (hreq : req.touches = false) (hid : (y.store.users.get? id).isSome) :
    SameFactor id y.store (y.dispatch cfg t me req).1.store := by
  cases req with
  | setup2FA | enable2FA body | disable2FA body | deleteUser path =>
    exact absurd hreq (by simp [RouteRequest.touches])
  | whoami | version | scanStatus | vaultStatus | listCerts | calendar | listChannels
  | listCredentials | listEvents kind limit | listUsers =>
    exact SameFactor.refl id y.store
  | createUser body =>
    change SameFactor id y.store (handleCreateUser cfg.auth t.salt y.store body).1
    unfold handleCreateUser
    dsimp only
    repeat' split
    all_goals first
      | exact SameFactor.refl id y.store
      | exact sameFactor_createUser hid
  | zkKeyringSet body => exact sameFactor_handleZKKeyringSet t.vault y.host body
  | scanAll => exact sameFactor_of_apart me.email (apart_handleScanAll t.sweep) y.store
  | backupKey => exact sameFactor_of_hostApart (apart_handleBackupKey cfg)
  | vaultUnlock body => exact sameFactor_of_hostApart (apart_handleVaultUnlock body)
  | vaultLock => exact sameFactor_of_hostApart apart_handleVaultLock
  | vaultPassphrase body => exact sameFactor_of_hostApart (apart_handleVaultPassphrase t.vault body)
  | scan body => exact sameFactor_of_apart me.email (apart_handleScan t.scan body) y.store
  | createCert body =>
    exact sameFactor_of_apart me.email (apart_handleCreateCert y.host body) y.store
  | rescanCert k => exact sameFactor_of_apart me.email (apart_handleRescanCert t.sweep) y.store
  | coverage k => exact sameFactor_of_apart me.email (apart_handleCoverage t.sweep) y.store
  | trackDomain body =>
    exact sameFactor_of_apart me.email (apart_handleTrackDomain t.lookup body) y.store
  | domainCandidates body =>
    exact sameFactor_of_apart me.email (apart_handleDomainCandidates t body) y.store
  | updateCert k body => exact sameFactor_of_apart me.email (apart_handleUpdateCert body) y.store
  | deleteCert k => exact sameFactor_of_apart me.email apart_handleDeleteCert y.store
  | revealSecret k => exact sameFactor_of_apart me.email (apart_handleRevealSecret y.host) y.store
  | setSecret k body =>
    exact sameFactor_of_apart me.email (apart_handleSetSecret y.host body) y.store
  | logout =>
    refine sameFactor_of_users ?_
    change (handleLogout t.deleted t.cookie y.store).1.users = y.store.users
    rw [handleLogout]
    split_ifs
    · cases t.cookie <;> rfl
    · rfl
  | calendarOne k =>
    refine sameFactor_of_users ?_
    change (handleCalendarOne y.store k).1.users = y.store.users
    cases k with
    | none => rfl
    | some k =>
      simp only [handleCalendarOne, withID]
      split <;> rfl
  | createChannel body =>
    refine sameFactor_of_users ?_
    change (handleCreateChannel me y.store body).1.users = y.store.users
    unfold handleCreateChannel
    repeat' split
    all_goals rfl
  | deleteChannel k => exact sameFactor_of_users (users_handleDeleteChannel me y.store k)
  | testChannel k =>
    refine sameFactor_of_users (users_withPathID fun k => ?_)
    dsimp only
    repeat' split
    all_goals rfl
  | backupDB =>
    refine sameFactor_of_users ?_
    change (handleBackupDB cfg y.store).1.users = y.store.users
    rw [handleBackupDB]
    split_ifs <;> rfl
  | zkKeyringGet =>
    refine sameFactor_of_users ?_
    exact congrArg (fun h : Host => h.store.users) (handleZKKeyringGet_fst y.host)
  | zkKeyringDelete => exact sameFactor_of_users (users_handleZKKeyringDelete t.vault y.host)
  | webAuthnRegisterBegin =>
    refine sameFactor_of_users ?_
    change (handleWebAuthnRegisterBegin me t ⟨y.store, y.ceremonies⟩).1.store.users = y.store.users
    unfold handleWebAuthnRegisterBegin
    dsimp only
    repeat' split
    all_goals rfl
  | webAuthnRegisterFinish body =>
    refine sameFactor_of_users ?_
    change (handleWebAuthnRegisterFinish me t ⟨y.store, y.ceremonies⟩ body).1.store.users =
      y.store.users
    unfold handleWebAuthnRegisterFinish
    dsimp only
    repeat' split
    all_goals first
      | rfl
      | exact users_addCredential y.store _
  | deleteCredential k =>
    exact sameFactor_of_users (users_withPathID fun k => users_deleteCredential y.store k me.id)
  | vaultWrapperGet cid =>
    refine sameFactor_of_users ?_
    change (handleVaultWrapperGet me y.store cid).1.users = y.store.users
    unfold handleVaultWrapperGet
    repeat' split
    all_goals rfl
  | vaultWrapperSet cid body =>
    refine sameFactor_of_users ?_
    change (handleVaultWrapperSet me y.store cid body).1.users = y.store.users
    unfold handleVaultWrapperSet
    repeat' split
    all_goals first
      | rfl
      | (rw [Store.insertVaultWrapper]; split_ifs <;> rfl)
  | vaultWrapperDelete cid =>
    refine sameFactor_of_users ?_
    change (handleVaultWrapperDelete me y.store cid).1.users = y.store.users
    unfold handleVaultWrapperDelete
    split <;> rfl
  | qr2FA =>
    refine sameFactor_of_users ?_
    change (handle2FAQR me t.qr y.store).1.users = y.store.users
    unfold handle2FAQR
    repeat' split
    all_goals rfl

theorem sameFactor_setUserTOTP {k : Int} (hk : k ≠ id) (secret : String) (on : Bool) :
    SameFactor id s (s.setUserTOTP k secret on) := sameFactor_modifyUser fun h => absurd h hk

/-- Switching the second factor on: nothing happens, or a code has been given. -/
theorem handle2FAEnable_cases (me : User) (now : Int) (s : Store) (body : Option String) :
    (handle2FAEnable me now s body).1 = s ∨ ∃ user code step, body = some code ∧
      s.getUserByID me.id = some user ∧ validateStep user.totpSecret code now = some step ∧
      (handle2FAEnable me now s body).1 = s.setUserTOTP user.id user.totpSecret true := by
  unfold handle2FAEnable
  split
  · exact Or.inl rfl
  · rename_i code
    split
    · exact Or.inl rfl
    · rename_i user huser
      split
      · exact Or.inl rfl
      · rename_i step hstep
        exact Or.inr ⟨user, code, step, rfl, (Option.filter_eq_some_iff.mp huser).1, hstep, rfl⟩

/-- Switching it off: the same, and it was on. -/
theorem handle2FADisable_cases (me : User) (now : Int) (s : Store) (body : Option String) :
    (handle2FADisable me now s body).1 = s ∨ ∃ user code step, body = some code ∧
      s.getUserByID me.id = some user ∧ user.totpEnabled = true ∧
      validateStep user.totpSecret code now = some step ∧
      (handle2FADisable me now s body).1 = s.setUserTOTP user.id "" false := by
  unfold handle2FADisable
  split
  · exact Or.inl rfl
  · rename_i code
    split
    · exact Or.inl rfl
    · rename_i user huser
      obtain ⟨hget, henabled⟩ := Option.filter_eq_some_iff.mp huser
      split
      · exact Or.inl rfl
      · rename_i step hstep
        exact Or.inr ⟨user, code, step, rfl, hget, henabled, hstep, rfl⟩

theorem id_of_getUserByID {k : Int} {user : User} (h : s.getUserByID k = some user) :
    user.id = k := by
  obtain ⟨row, -, rfl⟩ := getUserByID_eq_some_iff.mp h
  rfl

theorem sameFactor_handleDeleteUser (me : User) (s : Store) {path : Option Int}
    (hpath : path ≠ some id) : SameFactor id s (handleDeleteUser me s path).1 := by
  cases path with
  | none => exact SameFactor.refl id s
  | some k =>
    have hk : k ≠ id := fun hcontra => hpath (congrArg some hcontra)
    simp only [handleDeleteUser, withPathID]
    split_ifs
    · exact SameFactor.refl id s
    · exact sameFactor_deleteUser hk
    · exact SameFactor.refl id s

/-- Who is nobody else's business. -/
theorem sameFactor_of_other (cfg : Config) (t : RouteTurn) {me : User} (y : Server)
    {req : RouteRequest} (hme : me.id ≠ id) (hdelete : req ≠ .deleteUser (some id))
    (hid : (y.store.users.get? id).isSome) :
    SameFactor id y.store (y.dispatch cfg t me req).1.store := by
  by_cases hreq : req.touches = false
  · exact sameFactor_dispatch cfg t me y hreq hid
  cases req with
  | setup2FA =>
    change SameFactor id y.store (handle2FASetup me t.secret y.store).1
    rw [handle2FASetup]
    split_ifs
    · exact SameFactor.refl id y.store
    · exact sameFactor_setUserTOTP hme t.secret false
  | enable2FA body =>
    change SameFactor id y.store (handle2FAEnable me t.now y.store body).1
    obtain hsame | ⟨user, _, _, -, hget, -, hset⟩ := handle2FAEnable_cases me t.now y.store body
    · rw [hsame]
      exact SameFactor.refl id y.store
    · rw [hset]
      exact sameFactor_setUserTOTP ((id_of_getUserByID hget).symm ▸ hme) _ _
  | disable2FA body =>
    change SameFactor id y.store (handle2FADisable me t.now y.store body).1
    obtain hsame | ⟨user, _, _, -, hget, -, -, hset⟩ :=
      handle2FADisable_cases me t.now y.store body
    · rw [hsame]
      exact SameFactor.refl id y.store
    · rw [hset]
      exact sameFactor_setUserTOTP ((id_of_getUserByID hget).symm ▸ hme) _ _
  | deleteUser path =>
    exact sameFactor_handleDeleteUser me y.store fun hcontra => hdelete (congrArg _ hcontra)
  | _ => exact absurd rfl hreq

/-! ### Requests to sign in -/

section Door

variable {cfg : AuthConfig} {t : SignInTurn} {y : SignIn}

theorem users_startSession (cfg : AuthConfig) (env : LoginEnv) (s : Store) (user : User) :
    (startSession cfg env s user).1.users = s.users := by
  rw [startSession]
  split_ifs
  · rw [Store.createSession]
    split_ifs <;> rfl
  · rfl

theorem sameFactor_consume {k : Int} (hk : k ≠ id) (s : Store) (step : Int) :
    SameFactor id s (s.consumeTOTPStep k step) :=
  sameFactor_modifyUser fun h => absurd h hk

/-- A password and a code: either no user is touched, and an account that asks for codes has not
been entered; or a fresh step of the account is used up, and there is a session or none could be
started. -/
theorem handleLogin_cases (cfg : AuthConfig) (t : SignInTurn) (s : Store)
    (email password code : String) :
    ((CertGuard.handleLogin cfg t.loginEnv s email password code).1.users = s.users ∧
        ∀ user, s.getUserByEmail email = some user → user.totpEnabled = true →
          (SignIn.loginAnswer
            (CertGuard.handleLogin cfg t.loginEnv s email password code).2).status = 401) ∨
      ∃ user step, s.getUserByEmail email = some user ∧ user.totpEnabled = true ∧
        validateStep user.totpSecret code t.now = some step ∧ s.FreshStep user.id step ∧
        (CertGuard.handleLogin cfg t.loginEnv s email password code).1.users =
          (s.consumeTOTPStep user.id step).users ∧
        ((SignIn.loginAnswer
            (CertGuard.handleLogin cfg t.loginEnv s email password code).2).status = 200 ∨
          (SignIn.loginAnswer
            (CertGuard.handleLogin cfg t.loginEnv s email password code).2).status = 500) := by
  have hnow : t.loginEnv.now = t.now := rfl
  have hget : t.loginEnv.getUser = true := rfl
  have hcount : t.loginEnv.countKeys = true := rfl
  unfold CertGuard.handleLogin
  simp only [hget, hcount, hnow, if_true]
  cases huser : s.getUserByEmail email with
  | none => exact Or.inl ⟨rfl, fun user h => absurd h (by simp)⟩
  | some user =>
    dsimp only
    split_ifs with hcompare hasks htotp
    · exact Or.inl ⟨rfl, fun _ _ _ => rfl⟩
    · cases hstep : validateStep user.totpSecret code t.now with
      | none => exact Or.inl ⟨rfl, fun _ _ _ => rfl⟩
      | some step =>
        dsimp only
        split_ifs with hfresh
        · refine Or.inr ⟨user, step, rfl, htotp, hstep, hfresh.2, users_startSession cfg _ _ _, ?_⟩
          rw [startSession]
          split_ifs
          · exact Or.inl rfl
          · exact Or.inr rfl
        · exact Or.inl ⟨rfl, fun _ _ _ => rfl⟩
    · exact Or.inl ⟨rfl, fun _ _ _ => rfl⟩
    · -- nothing but the password is asked for
      refine Or.inl ⟨users_startSession cfg _ s user, fun user' h henabled => ?_⟩
      obtain rfl := Option.some.inj h
      exact absurd (Or.inl henabled) hasks

theorem sameFactor_webAuthnBegin (body : Option LoginRequest) :
    SameFactor id y.store (y.handleWebAuthnLoginBegin cfg t body).1.store := by
  unfold SignIn.handleWebAuthnLoginBegin
  dsimp only
  repeat' split
  all_goals exact SameFactor.refl id y.store

theorem sameFactor_webAuthnFinish (assertion : String) :
    SameFactor id y.store (y.handleWebAuthnLoginFinish cfg t assertion).1.store := by
  have htaken : (y.takeCeremony t).1.store = y.store := store_takeCeremony y
  unfold SignIn.handleWebAuthnLoginFinish
  generalize y.takeCeremony t = taken at htaken
  obtain ⟨y', cer⟩ := taken
  rw [← htaken]
  refine sameFactor_of_users ?_
  cases cer with
  | none => rfl
  | some cer =>
    dsimp only
    repeat' split
    all_goals first
      | rfl
      | exact users_startSession cfg _ _ _

theorem sameFactor_passkeyBegin : SameFactor id y.store (y.handlePasskeyBegin t).1.store := by
  unfold SignIn.handlePasskeyBegin
  repeat' split
  all_goals exact SameFactor.refl id y.store

theorem sameFactor_passkeyFinish (assertion : String) :
    SameFactor id y.store (y.handlePasskeyFinish cfg t assertion).1.store := by
  have htaken : (y.takeCeremony t).1.store = y.store := store_takeCeremony y
  unfold SignIn.handlePasskeyFinish
  generalize y.takeCeremony t = taken at htaken
  obtain ⟨y', cer⟩ := taken
  rw [← htaken]
  refine sameFactor_of_users ?_
  cases cer with
  | none => rfl
  | some cer =>
    dsimp only
    repeat' split
    all_goals first
      | rfl
      | exact users_startSession cfg _ _ _

theorem sameFactor_handleSetup (hid : (y.store.users.get? id).isSome)
    (body : Option LoginRequest) : SameFactor id y.store (y.handleSetup cfg t body).1.store := by
  unfold SignIn.handleSetup
  dsimp only
  repeat' split
  all_goals first
    | exact SameFactor.refl id y.store
    | exact (sameFactor_createUser hid).trans
        (sameFactor_of_users (users_startSession cfg _ _ _))

/-- A request to sign in without a password and a code. -/
theorem sameFactor_serve (hid : (y.store.users.get? id).isSome) {req : SignInRequest}
    (hreq : ∀ body, req ≠ .login body) : SameFactor id y.store (y.serve cfg t req).1.store := by
  -- the limiter lets the request through, or answers itself
  have hlimit : ∀ next : SignIn → SignIn × Answer SignInBody,
      (∀ rl, SameFactor id y.store (next { y with loginLimiter := rl }).1.store) →
      SameFactor id y.store (y.limitAuth t next).1.store := by
    intro next hnext
    unfold SignIn.limitAuth
    split
    · exact hnext _
    · exact SameFactor.refl id y.store
  cases req with
  | login body => exact absurd rfl (hreq body)
  | webAuthnBegin body => exact hlimit _ fun rl => sameFactor_webAuthnBegin body
  | webAuthnFinish assertion => exact hlimit _ fun rl => sameFactor_webAuthnFinish assertion
  | passkeyBegin => exact hlimit _ fun rl => sameFactor_passkeyBegin
  | passkeyFinish assertion => exact hlimit _ fun rl => sameFactor_passkeyFinish assertion
  | setupStatus => exact SameFactor.refl id y.store
  | setup body =>
    exact hlimit _ fun rl => @sameFactor_handleSetup id cfg t { y with loginLimiter := rl } hid body

end Door

end CertGuard
