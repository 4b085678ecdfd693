import CertGuard.Server.Isolation
import CertGuard.Server.Service

/-!
# Ways in

Every request behind a sign-in comes with a token or with a session. Tokens are not made by
requests at all, and sessions only by requests that sign in; a request behind a sign-in can only
take ways in away. What holds of them in every run follows.

## Main definitions

* `Within` — no way in that was not there, and no user that was gone
* `Opens` — one way in more, for the session a sign-in drew

## Main results

* `within_authed`, `opens_serve` — what one request does to the ways in
* `caller_provenance` — who is let in was let in from the beginning, or signed in during the run
* `revocation_final` — a session that was ended and a user that was deleted stay out
-/

namespace CertGuard

variable {s s' s'' : Store}

/-! ### Less and less -/

/-- The second store has no session and no token the first has not, and no user who was gone. -/
structure Within (s s' : Store) : Prop where
  sessions : ∀ r ∈ s'.sessions.rows, r ∈ s.sessions.rows
  tokens : ∀ r ∈ s'.tokens.rows, r ∈ s.tokens.rows
  seq : s.users.seq ≤ s'.users.seq
  gone : ∀ id, id ≤ s.users.seq → s.users.get? id = none → s'.users.get? id = none

theorem Within.refl (s : Store) : Within s s :=
  ⟨fun _ h => h, fun _ h => h, le_rfl, fun _ _ h => h⟩

theorem Within.trans (h : Within s s') (h' : Within s' s'') : Within s s'' :=
  ⟨fun r hr => h.sessions r (h'.sessions r hr), fun r hr => h.tokens r (h'.tokens r hr),
    h.seq.trans h'.seq, fun id hid hnone => h'.gone id (hid.trans h.seq) (h.gone id hid hnone)⟩

/-- What leaves the accounts alone opens nothing. -/
theorem within_of_same (hsessions : s'.sessions = s.sessions) (htokens : s'.tokens = s.tokens)
    (husers : s'.users = s.users) : Within s s' := by
  refine ⟨fun r hr => ?_, fun r hr => ?_, ?_, fun id _ hnone => ?_⟩
  · rwa [hsessions] at hr
  · rwa [htokens] at hr
  · rw [husers]
  · rwa [husers]

theorem within_of_apart {β : Type} {handle : Store → Store × β} (actor : String)
    (h : ApartFromAccounts actor handle) (s : Store) : Within s (handle s).1 := by
  obtain ⟨lines, hself⟩ := h.accounts s
  rw [hself]
  exact within_of_same rfl rfl rfl

theorem within_of_hostApart {β : Type} {handle : Host → Host × β} {h : Host}
    (hapart : HostApart handle h) : Within h.store (handle h).1.store := by
  have hself : (handle h).1.store = (handle h).1.store.beside h.store :=
    congrArg (fun r : Host × β => r.1.store) (hapart h.store)
  rw [hself]
  exact within_of_same rfl rfl rfl

/-! ### What is one's own -/

/-- What nobody but an admin may change of a user. -/
def UserRow.standing (r : UserRow) : String × String × Role := (r.email, r.passwordHash, r.role)

/-- What a request for one's own account may do: the entries, the keyring and the tokens stay, and
so does the standing of every user; a wrapper or a session may go. -/
structure Personal (s s' : Store) : Prop where
  certs : s'.certs = s.certs
  keyring : s'.keyring = s.keyring
  sessions : ∀ r ∈ s'.sessions.rows, r ∈ s.sessions.rows
  tokens : s'.tokens = s.tokens
  seq : s'.users.seq = s.users.seq
  standing : ∀ id, (s'.users.get? id).map UserRow.standing = (s.users.get? id).map UserRow.standing
  wrappers : ∀ w ∈ s'.wrappers, w ∈ s.wrappers

theorem Personal.refl (s : Store) : Personal s s :=
  ⟨rfl, rfl, fun _ h => h, rfl, rfl, fun _ => rfl, fun _ h => h⟩

theorem Personal.trans (h : Personal s s') (h' : Personal s' s'') : Personal s s'' :=
  ⟨h'.certs.trans h.certs, h'.keyring.trans h.keyring, fun r hr => h.sessions r (h'.sessions r hr),
    h'.tokens.trans h.tokens, h'.seq.trans h.seq, fun id => (h'.standing id).trans (h.standing id),
    fun w hw => h.wrappers w (h'.wrappers w hw)⟩

theorem Personal.within (h : Personal s s') : Within s s' := by
  refine ⟨h.sessions, fun r hr => ?_, h.seq.symm.le, fun id _ hnone => ?_⟩
  · rwa [h.tokens] at hr
  · have hstanding := h.standing id
    rw [hnone] at hstanding
    exact Option.map_eq_none_iff.mp hstanding

/-- Statements on what is left out. -/
theorem personal_of_same (hcerts : s'.certs = s.certs) (hkeyring : s'.keyring = s.keyring)
    (hsessions : s'.sessions = s.sessions) (htokens : s'.tokens = s.tokens)
    (husers : s'.users = s.users) (hwrappers : s'.wrappers = s.wrappers) : Personal s s' := by
  refine ⟨hcerts, hkeyring, fun r hr => ?_, htokens, by rw [husers], fun id => by rw [husers],
    fun w hw => ?_⟩
  · rwa [hsessions] at hr
  · rwa [hwrappers] at hw

theorem mem_of_mem_eraseAll {ρ : Type*} {t : Table ρ} {p : ρ → Bool} {r : Int × ρ}
    (h : r ∈ (t.eraseAll p).rows) : r ∈ t.rows := List.mem_of_mem_filter h

theorem personal_deleteSession (s : Store) (sessionHash : String) :
    Personal s (s.deleteSession sessionHash) :=
  ⟨rfl, rfl, fun _ => mem_of_mem_eraseAll, rfl, rfl, fun _ => rfl, fun _ h => h⟩

/-- A change of what is no user's standing. -/
theorem personal_modifyUser (s : Store) (id : Int) {f : UserRow → UserRow}
    (hf : ∀ r, (f r).standing = r.standing) :
    Personal s { s with users := s.users.modify id f } := by
  refine ⟨rfl, rfl, fun _ h => h, rfl, rfl, fun k => ?_, fun _ h => h⟩
  rw [Table.get?_modify]
  split_ifs
  · rw [Option.map_map]
    exact congrArg (fun g => (s.users.get? k).map g) (funext hf)
  · rfl

theorem personal_setUserTOTP (s : Store) (id : Int) (secret : String) (enabled : Bool) :
    Personal s (s.setUserTOTP id secret enabled) := personal_modifyUser s id fun _ => rfl

theorem personal_consumeTOTPStep (s : Store) (id step : Int) :
    Personal s (s.consumeTOTPStep id step) := by
  refine personal_modifyUser s id fun r => ?_
  split_ifs <;> rfl

theorem personal_touchCredential (s : Store) (cid : String) (signCount : Nat) :
    Personal s (s.touchCredential cid signCount) := personal_of_same rfl rfl rfl rfl rfl rfl

theorem personal_addEvent (s : Store) (now : Int) (kind : EventKind) (certID : Int)
    (name actor : String) (detail : EventDetail) :
    Personal s (s.addEvent now kind certID name actor detail) :=
  personal_of_same rfl rfl rfl rfl rfl rfl

theorem personal_addCredential (s : Store) (row : CredentialRow) :
    Personal s (s.addCredential row) := by
  rw [Store.addCredential]
  split_ifs
  · exact personal_of_same rfl rfl rfl rfl rfl rfl
  · exact Personal.refl s

theorem personal_deleteCredential (s : Store) (id userId : Int) :
    Personal s (s.deleteCredential id userId) := by
  unfold Store.deleteCredential
  repeat' split
  · exact ⟨rfl, rfl, fun _ h => h, rfl, rfl, fun _ => rfl, fun _ => List.mem_of_mem_filter⟩
  · exact Personal.refl s
  · exact Personal.refl s

theorem personal_deleteChannel {id userId : Int} (h : s.deleteChannel id userId = some s') :
    Personal s s' := by
  unfold Store.deleteChannel at h
  split at h
  · exact absurd h (by simp)
  · obtain ⟨-, hs'⟩ := Option.ite_none_right_eq_some.mp h
    obtain rfl := Option.some.inj hs'
    exact personal_of_same rfl rfl rfl rfl rfl rfl

/-! ### Handlers for one's own account -/

theorem personal_withPathID {handle : Int → Store × Answer RouteBody} {path : Option Int}
    (h : ∀ id, Personal s (handle id).1) : Personal s (withPathID s path handle).1 := by
  cases path with
  | none => exact Personal.refl s
  | some id => exact h id

theorem personal_handleLogout (deleted : Bool) (cookie : Option String) (s : Store) :
    Personal s (handleLogout deleted cookie s).1 := by
  cases deleted with
  | false => exact Personal.refl s
  | true =>
    cases cookie with
    | none => exact Personal.refl s
    | some sessionHash => exact personal_deleteSession s sessionHash

theorem personal_handle2FASetup (me : User) (secret : String) (s : Store) :
    Personal s (handle2FASetup me secret s).1 := by
  rw [handle2FASetup]
  split_ifs
  · exact Personal.refl s
  · exact personal_setUserTOTP s me.id secret false

theorem personal_handle2FAQR (me : User) (qr : String → Except String String) (s : Store) :
    Personal s (handle2FAQR me qr s).1 := by
  unfold handle2FAQR
  repeat' split
  all_goals exact Personal.refl s

theorem personal_handle2FAEnable (me : User) (now : Int) (s : Store) (body : Option String) :
    Personal s (handle2FAEnable me now s body).1 := by
  unfold handle2FAEnable
  repeat' split
  · exact Personal.refl s
  · exact Personal.refl s
  · exact Personal.refl s
  · exact personal_setUserTOTP s _ _ _

theorem personal_handle2FADisable (me : User) (now : Int) (s : Store) (body : Option String) :
    Personal s (handle2FADisable me now s body).1 := by
  unfold handle2FADisable
  repeat' split
  · exact Personal.refl s
  · exact Personal.refl s
  · exact Personal.refl s
  · exact personal_setUserTOTP s _ _ _

theorem personal_handleCreateChannel (me : User) (s : Store)
    (body : Option CreateChannelRequest) : Personal s (handleCreateChannel me s body).1 := by
  unfold handleCreateChannel
  repeat' split
  all_goals exact personal_of_same rfl rfl rfl rfl rfl rfl

theorem personal_handleDeleteChannel (me : User) (s : Store) (path : Option Int) :
    Personal s (handleDeleteChannel me s path).1 := by
  refine personal_withPathID fun id => ?_
  cases hdelete : s.deleteChannel id me.id with
  | none => exact Personal.refl s
  | some s' => exact personal_deleteChannel hdelete

theorem personal_handleTestChannel (me : User) (t : RouteTurn) (s : Store) (path : Option Int) :
    Personal s (handleTestChannel me t s path).1 := by
  refine personal_withPathID fun id => ?_
  dsimp only
  repeat' split
  all_goals exact Personal.refl s

theorem personal_handleDeleteCredential (me : User) (now : Int) (s : Store) (path : Option Int) :
    Personal s (handleDeleteCredential me now s path).1 := by
  refine personal_withPathID fun id => ?_
  exact (personal_deleteCredential s id me.id).trans (personal_addEvent _ _ _ _ _ _ _)

theorem personal_registerBegin (me : User) (t : RouteTurn) (y : KeyState) :
    Personal y.store (handleWebAuthnRegisterBegin me t y).1.store := by
  unfold handleWebAuthnRegisterBegin
  dsimp only
  repeat' split
  all_goals exact Personal.refl y.store

theorem personal_registerFinish (me : User) (t : RouteTurn) (y : KeyState) (body : String) :
    Personal y.store (handleWebAuthnRegisterFinish me t y body).1.store := by
  unfold handleWebAuthnRegisterFinish
  dsimp only
  repeat' split
  · exact Personal.refl y.store
  · exact Personal.refl y.store
  · exact Personal.refl y.store
  · exact (personal_addCredential y.store _).trans (personal_addEvent _ _ _ _ _ _ _)
  · exact Personal.refl y.store

theorem personal_handleCalendarOne (s : Store) (path : Option Int) :
    Personal s (handleCalendarOne s path).1 := by
  cases path with
  | none => exact Personal.refl s
  | some id =>
    simp only [handleCalendarOne, withID]
    split
    · exact Personal.refl s
    · exact Personal.refl s

theorem personal_handleVaultWrapperGet (me : User) (s : Store) (cid : String) :
    Personal s (handleVaultWrapperGet me s cid).1 := by
  unfold handleVaultWrapperGet
  repeat' split
  all_goals exact Personal.refl s

/-! ### Requests that are not for admins only -/

/-- The vault and its key file stay, and of the tables what a request for one's own account
leaves. -/
structure Keeps (h h' : Host) : Prop where
  vault : h'.vault = h.vault
  keyFile : h'.keyFile = h.keyFile
  store : Personal h.store h'.store

theorem Keeps.refl (h : Host) : Keeps h h := ⟨rfl, rfl, Personal.refl h.store⟩

theorem keeps_onStore (y : Server) (handle : Store → Store × Answer RouteBody)
    (h : Personal y.store (handle y.store).1) : Keeps y.host (y.onStore handle).1.host :=
  ⟨rfl, rfl, h⟩

theorem keeps_onKeys (y : Server) (handle : KeyState → KeyState × Answer RouteBody)
    (h : Personal y.store (handle ⟨y.store, y.ceremonies⟩).1.store) :
    Keeps y.host (y.onKeys handle).1.host :=
  ⟨rfl, rfl, h⟩

theorem handleZKKeyringGet_fst (h : Host) : (handleZKKeyringGet h).1 = h := by
  rw [handleZKKeyringGet]
  split_ifs <;> rfl

/-- A request anybody may make who is signed in. -/
theorem keeps_dispatch (cfg : Config) (t : RouteTurn) (me : User) (y : Server)
    {req : RouteRequest} (hreq : req.adminOnly = false) :
    Keeps y.host (y.dispatch cfg t me req).1.host := by
  cases req with
  | logout => exact keeps_onStore y _ (personal_handleLogout t.deleted t.cookie y.store)
  | whoami | version | scanStatus | vaultStatus => exact Keeps.refl y.host
  | listCerts | calendar | listChannels | listCredentials | listEvents kind limit =>
    exact keeps_onStore y _ (Personal.refl y.store)
  | calendarOne id =>
    exact keeps_onStore y
      (fun s => ((handleCalendarOne s id).1, Server.entryAnswer (handleCalendarOne s id).2))
      (personal_handleCalendarOne y.store id)
  | createChannel body =>
    exact keeps_onStore y (fun s => handleCreateChannel me s body)
      (personal_handleCreateChannel me y.store body)
  | deleteChannel id =>
    exact keeps_onStore y (fun s => handleDeleteChannel me s id)
      (personal_handleDeleteChannel me y.store id)
  | testChannel id =>
    exact keeps_onStore y (fun s => handleTestChannel me t s id)
      (personal_handleTestChannel me t y.store id)
  | zkKeyringGet =>
    have hsame : (y.dispatch cfg t me .zkKeyringGet).1.host = y.host :=
      handleZKKeyringGet_fst y.host
    rw [hsame]
    exact Keeps.refl y.host
  | webAuthnRegisterBegin =>
    exact keeps_onKeys y _ (personal_registerBegin me t ⟨y.store, y.ceremonies⟩)
  | webAuthnRegisterFinish body =>
    exact keeps_onKeys y (fun y => handleWebAuthnRegisterFinish me t y body)
      (personal_registerFinish me t ⟨y.store, y.ceremonies⟩ body)
  | deleteCredential id =>
    exact keeps_onStore y (fun s => handleDeleteCredential me t.now s id)
      (personal_handleDeleteCredential me t.now y.store id)
  | vaultWrapperGet cid =>
    exact keeps_onStore y (fun s => handleVaultWrapperGet me s cid)
      (personal_handleVaultWrapperGet me y.store cid)
  | setup2FA => exact keeps_onStore y _ (personal_handle2FASetup me t.secret y.store)
  | qr2FA => exact keeps_onStore y _ (personal_handle2FAQR me t.qr y.store)
  | enable2FA body =>
    exact keeps_onStore y (fun s => handle2FAEnable me t.now s body)
      (personal_handle2FAEnable me t.now y.store body)
  | disable2FA body =>
    exact keeps_onStore y (fun s => handle2FADisable me t.now s body)
      (personal_handle2FADisable me t.now y.store body)
  | listUsers | createUser body | deleteUser id | scanAll | backupKey | backupDB
  | vaultUnlock body | vaultLock | vaultPassphrase body | zkKeyringSet body | zkKeyringDelete
  | vaultWrapperSet cid body | vaultWrapperDelete cid | scan body | createCert body
  | rescanCert id | coverage id | trackDomain body | domainCandidates body
  | updateCert id body | deleteCert id | revealSecret id | setSecret id body =>
    exact absurd hreq (by simp [RouteRequest.adminOnly])

/-! ### Requests for admins -/

theorem within_createUser (s : Store) (row : UserRow) : Within s (s.createUser row) := by
  rw [Store.createUser]
  split_ifs
  · refine ⟨fun _ h => h, fun _ h => h, Int.le_of_lt (Int.lt_add_one_of_le le_rfl),
      fun id hid hnone => ?_⟩
    -- the new user has an id nobody has had
    have hne : id ≠ s.users.nextKey := ne_of_lt (Int.lt_add_one_of_le hid)
    rw [Table.get?_insert, if_neg hne, hnone]
  · exact Within.refl s

theorem within_deleteUser (s : Store) (id : Int) : Within s (s.deleteUser id) := by
  refine ⟨fun _ => mem_of_mem_eraseAll, fun _ => mem_of_mem_eraseAll, le_rfl, fun k _ hnone => ?_⟩
  change (s.users.erase id).get? k = none
  rw [Table.get?_erase, hnone, ite_self]

theorem within_handleCreateUser (cfg : AuthConfig) (salt : Nat) (s : Store)
    (body : Option CreateUserRequest) : Within s (handleCreateUser cfg salt s body).1 := by
  unfold handleCreateUser
  dsimp only
  repeat' split
  · exact Within.refl s
  · exact Within.refl s
  · exact Within.refl s
  · exact Within.refl s
  · exact within_createUser s _
  · exact Within.refl s

theorem within_handleDeleteUser (me : User) (s : Store) (path : Option Int) :
    Within s (handleDeleteUser me s path).1 := by
  cases path with
  | none => exact Within.refl s
  | some id =>
    simp only [handleDeleteUser, withPathID]
    split_ifs
    · exact Within.refl s
    · exact within_deleteUser s id
    · exact Within.refl s

theorem within_insertVaultWrapper (s : Store) (w : WrapperRow) :
    Within s (s.insertVaultWrapper w) := by
  rw [Store.insertVaultWrapper]
  split_ifs
  · exact within_of_same rfl rfl rfl
  · exact Within.refl s

theorem within_handleVaultWrapperSet (me : User) (s : Store) (cid : String)
    (body : Option (Wrapped × String)) : Within s (handleVaultWrapperSet me s cid body).1 := by
  have hdeleted : ∀ cid, Within s (s.deleteVaultWrapper cid) := fun _ =>
    within_of_same rfl rfl rfl
  unfold handleVaultWrapperSet
  repeat' split
  · exact Within.refl s
  · exact Within.refl s
  · exact Within.refl s
  · exact (hdeleted _).trans (within_insertVaultWrapper _ _)

theorem within_handleVaultWrapperDelete (me : User) (s : Store) (cid : String) :
    Within s (handleVaultWrapperDelete me s cid).1 := by
  unfold handleVaultWrapperDelete
  split
  · exact Within.refl s
  · exact within_of_same rfl rfl rfl

theorem within_setSecret {id : Int} {enc : Cipher} (h : s.setSecret id enc = some s') :
    Within s s' := by
  unfold Store.setSecret at h
  split at h
  · obtain ⟨-, hs'⟩ := Option.ite_none_right_eq_some.mp h
    obtain rfl := Option.some.inj hs'
    exact within_of_same rfl rfl rfl
  · exact absurd h (by simp)

theorem within_storeSecrets (s : Store) (secrets : List (Int × Cipher)) :
    Within s (storeSecrets s secrets) := by
  induction secrets generalizing s with
  | nil => exact Within.refl s
  | cons sec secrets ih =>
    refine Within.trans ?_ (ih _)
    change Within s ((s.setSecret sec.1 sec.2).getD s)
    cases hset : s.setSecret sec.1 sec.2 with
    | none => exact Within.refl s
    | some s' => exact within_setSecret hset

theorem within_handleZKKeyringSet (env : VaultEnv) (h : Host) (body : Option KeyringReq) :
    Within h.store (handleZKKeyringSet env h body).1.store := by
  cases body with
  | none => exact Within.refl h.store
  | some req =>
    have hapart : HostApart (Host.enableZK env · req.keyring.wrapped req.keyring.salt
        req.keyring.iters) h := enableZK_beside env _ _ _
    have henable := within_of_hostApart hapart
    simp only [handleZKKeyringSet]
    split_ifs
    · exact Within.refl h.store
    · generalize h.enableZK env req.keyring.wrapped req.keyring.salt req.keyring.iters = r
        at henable
      obtain ⟨h', e⟩ := r
      cases e with
      | some e => exact henable
      | none => exact henable.trans (within_storeSecrets h'.store req.secrets)
    · generalize h.enableZK env req.keyring.wrapped req.keyring.salt req.keyring.iters = r
        at henable
      obtain ⟨h', e⟩ := r
      cases e with
      | some e => exact henable
      | none =>
        have hclear : Within h'.store h'.store.clearVaultWrappers := within_of_same rfl rfl rfl
        exact (henable.trans hclear).trans (within_storeSecrets _ req.secrets)

theorem within_setMeta (s : Store) (ok : Bool) (f : Keyring → Keyring) :
    Within s (s.setMeta ok f) := by
  cases ok with
  | false => exact Within.refl s
  | true => exact within_of_same rfl rfl rfl

theorem within_disableZK (env : VaultEnv) (h : Host) :
    Within h.store (h.disableZK env).1.store := by
  have hclear : ∀ s : Store, Within s (if env.clearSecrets then s.clearAllSecrets else s) := by
    intro s
    split_ifs
    · exact within_of_same rfl rfl rfl
    · exact Within.refl s
  have hoff := (((within_setMeta h.store (env.setMeta .zkWrapped) fun k =>
    { k with zkWrapped := some Sealed.empty }).trans
      (within_setMeta _ (env.setMeta .zkSalt) fun k => { k with zkSalt := some "" })).trans
      (within_setMeta _ (env.setMeta .zkIters) fun k => { k with zkIters := some "" })).trans
      (hclear _)
  unfold Host.disableZK
  dsimp only
  split
  · exact hoff
  · dsimp only
    refine Within.trans ?_ (within_setMeta _ _ _)
    refine Within.trans ?_ (within_setMeta _ _ _)
    exact hoff.trans (within_setMeta _ _ _)

theorem within_handleZKKeyringDelete (env : VaultEnv) (h : Host) :
    Within h.store (handleZKKeyringDelete env h).1.store := by
  have hdisable := within_disableZK env h
  simp only [handleZKKeyringDelete]
  generalize h.disableZK env = r at hdisable
  obtain ⟨h', e⟩ := r
  cases e with
  | some e => exact hdisable
  | none =>
    have hclear : Within h'.store h'.store.clearVaultWrappers := within_of_same rfl rfl rfl
    exact hdisable.trans hclear

/-! ### Requests behind a sign-in -/

theorem within_onStore (y : Server) (handle : Store → Store × Answer RouteBody)
    (h : Within y.store (handle y.store).1) : Within y.store (y.onStore handle).1.store := h

theorem within_onEntries (y : Server) (actor : String)
    (handle : Store → Store × Answer EntryBody) (h : ApartFromAccounts actor handle) :
    Within y.store (y.onEntries handle).1.store :=
  within_of_apart actor h y.store

theorem within_onHost (y : Server) (handle : Host → Host × Answer RouteBody)
    (h : Within y.host.store (handle y.host).1.store) :
    Within y.store (y.onHost handle).1.store := h

/-- No request behind a sign-in opens a way in. -/
theorem within_dispatch (cfg : Config) (t : RouteTurn) (me : User) (y : Server)
    (req : RouteRequest) : Within y.store (y.dispatch cfg t me req).1.store := by
  by_cases hreq : req.adminOnly = false
  · exact (keeps_dispatch cfg t me y hreq).store.within
  cases req with
  | listUsers => exact within_onStore y _ (Within.refl y.store)
  | backupDB =>
    refine within_onStore y _ ?_
    rw [handleBackupDB]
    split_ifs <;> exact Within.refl y.store
  | createUser body =>
    exact within_onStore y (fun s => handleCreateUser cfg.auth t.salt s body)
      (within_handleCreateUser cfg.auth t.salt y.store body)
  | deleteUser id =>
    exact within_onStore y (fun s => handleDeleteUser me s id)
      (within_handleDeleteUser me y.store id)
  | scanAll => exact within_onEntries y me.email _ (apart_handleScanAll t.sweep)
  | backupKey => exact within_onHost y _ (within_of_hostApart (apart_handleBackupKey cfg))
  | vaultUnlock body => exact within_onHost y _ (within_of_hostApart (apart_handleVaultUnlock body))
  | vaultLock => exact within_onHost y _ (within_of_hostApart apart_handleVaultLock)
  | vaultPassphrase body =>
    exact within_onHost y _ (within_of_hostApart (apart_handleVaultPassphrase t.vault body))
  | zkKeyringSet body => exact within_onHost y _ (within_handleZKKeyringSet t.vault y.host body)
  | zkKeyringDelete => exact within_onHost y _ (within_handleZKKeyringDelete t.vault y.host)
  | vaultWrapperSet cid body =>
    exact within_onStore y (fun s => handleVaultWrapperSet me s cid body)
      (within_handleVaultWrapperSet me y.store cid body)
  | vaultWrapperDelete cid =>
    exact within_onStore y (fun s => handleVaultWrapperDelete me s cid)
      (within_handleVaultWrapperDelete me y.store cid)
  | scan body => exact within_onEntries y me.email _ (apart_handleScan t.scan body)
  | createCert body => exact within_onEntries y me.email _ (apart_handleCreateCert y.host body)
  | rescanCert id => exact within_onEntries y me.email _ (apart_handleRescanCert t.sweep)
  | coverage id => exact within_onEntries y me.email _ (apart_handleCoverage t.sweep)
  | trackDomain body => exact within_onEntries y me.email _ (apart_handleTrackDomain t.lookup body)
  | domainCandidates body =>
    exact within_onStore y _
      (within_of_apart me.email (apart_handleDomainCandidates t body) y.store)
  | updateCert id body => exact within_onEntries y me.email _ (apart_handleUpdateCert body)
  | deleteCert id => exact within_onEntries y me.email _ apart_handleDeleteCert
  | revealSecret id => exact within_onEntries y me.email _ (apart_handleRevealSecret y.host)
  | setSecret id body => exact within_onEntries y me.email _ (apart_handleSetSecret y.host body)
  | _ => exact absurd rfl hreq

/-- What is done with a request behind a sign-in: nothing but that an expired session is removed,
or what the handler does. -/
theorem authed_cases (cfg : Config) (t : RouteTurn) (y : Server) (req : RouteRequest) :
    (resolveUser y.store t.now t.bearer t.cookie = none ∧
      (y.authed cfg t req).1.host.vault = y.host.vault ∧
      (y.authed cfg t req).1.host.keyFile = y.host.keyFile ∧
      Personal y.store (y.authed cfg t req).1.store ∧ (y.authed cfg t req).2.status = 401) ∨
    (∃ me, resolveUser y.store t.now t.bearer t.cookie = some me ∧ req.adminOnly = true ∧
      me.isAdmin = false ∧ y.authed cfg t req = (y, writeErr 403 "admin role required")) ∨
    (∃ me, resolveUser y.store t.now t.bearer t.cookie = some me ∧
      (req.adminOnly = true → me.isAdmin = true) ∧
      y.authed cfg t req = y.dispatch cfg t me req) := by
  cases hresolve : resolveUser y.store t.now t.bearer t.cookie with
  | none =>
    have hauthed : y.authed cfg t req = ({ y with host := { y.host with
        store := (sweepSession y.store t.now t.bearer t.cookie).apply y.store } },
        writeErr 401 "authentication required") := by
      rw [Server.authed, hresolve]
    refine Or.inl ⟨rfl, ?_⟩
    rw [hauthed]
    refine ⟨rfl, rfl, ?_, rfl⟩
    change Personal y.store ((sweepSession y.store t.now t.bearer t.cookie).apply y.store)
    unfold sweepSession
    repeat' split
    · exact personal_deleteSession y.store _
    · exact Personal.refl y.store
    · exact Personal.refl y.store
  | some me =>
    right
    by_cases hdenied : req.adminOnly = true ∧ me.isAdmin = false
    · refine Or.inl ⟨me, rfl, hdenied.1, hdenied.2, ?_⟩
      rw [Server.authed, hresolve]
      exact if_pos hdenied
    · refine Or.inr ⟨me, rfl, fun hreq => ?_, ?_⟩
      · rw [← Bool.not_eq_false]
        exact fun hme => hdenied ⟨hreq, hme⟩
      · rw [Server.authed, hresolve]
        exact if_neg hdenied

theorem within_authed (cfg : Config) (t : RouteTurn) (y : Server) (req : RouteRequest) :
    Within y.store (y.authed cfg t req).1.store := by
  obtain ⟨-, -, -, h, -⟩ | ⟨me, -, -, -, h⟩ | ⟨me, -, -, h⟩ := authed_cases cfg t y req
  · exact h.within
  · rw [h]
    exact Within.refl y.store
  · rw [h]
    exact within_dispatch cfg t me y req

/-! ### Requests to sign in -/

/-- Nobody was signed in, or a user was and has the session that was drawn. -/
def Opens (cfg : AuthConfig) (t : SignInTurn) (s s' : Store) (ans : Answer SignInBody) : Prop :=
  (s' = s ∧ ∀ user, ans ≠ writeJSON 200 (.user user)) ∨
  ∃ user : User, s.TakesSession (sessionRow cfg t.now t.session user.id) ∧
    s' = s.createSession (sessionRow cfg t.now t.session user.id) ∧
    ans = writeJSON 200 (.user user.body)

section Door

variable {cfg : AuthConfig} {t : SignInTurn} (y : SignIn)

theorem opens_writeErr (s : Store) (status : Nat) (msg : String) :
    Opens cfg t s s (writeErr status msg) :=
  Or.inl ⟨rfl, fun user h => by simp [writeErr, writeJSON] at h⟩

theorem opens_startSession (s : Store) (user : User) :
    Opens cfg t s (startSession cfg t.loginEnv s user).1
      (SignIn.loginAnswer (startSession cfg t.loginEnv s user).2) := by
  by_cases htakes : s.TakesSession (sessionRow cfg t.now t.session user.id)
  · have hstart : startSession cfg t.loginEnv s user =
        (s.createSession (sessionRow cfg t.now t.session user.id), .signedIn user) :=
      if_pos ⟨rfl, htakes⟩
    rw [hstart]
    exact Or.inr ⟨user, htakes, rfl, rfl⟩
  · have hstart : startSession cfg t.loginEnv s user = (s, .noSession) :=
      if_neg fun h => htakes h.2
    rw [hstart]
    exact opens_writeErr s 500 "could not start session"

/-- A password, with a second factor where there is one. -/
theorem opens_handleLogin (body : Option LoginRequest) :
    ∃ s, Personal y.store s ∧
      Opens cfg t s (y.handleLogin cfg t body).1.store (y.handleLogin cfg t body).2 := by
  cases body with
  | none => exact ⟨y.store, Personal.refl y.store, opens_writeErr y.store 400 _⟩
  | some req =>
    change ∃ s, Personal y.store s ∧ Opens cfg t s
      (CertGuard.handleLogin cfg t.loginEnv y.store req.email req.password req.code).1
      (SignIn.loginAnswer
        (CertGuard.handleLogin cfg t.loginEnv y.store req.email req.password req.code).2)
    have hsecond : ∀ totp webauthn, Opens cfg t y.store y.store
        (SignIn.loginAnswer (.secondFactor totp webauthn)) := fun totp webauthn =>
      Or.inl ⟨rfl, fun user h => by simp [SignIn.loginAnswer, writeJSON] at h⟩
    have hcount : t.loginEnv.countKeys = true := rfl
    unfold CertGuard.handleLogin
    simp only [hcount, if_true]
    repeat' split
    · exact ⟨y.store, Personal.refl y.store, opens_writeErr y.store 401 _⟩
    · exact ⟨y.store, Personal.refl y.store, opens_writeErr y.store 401 _⟩
    · exact ⟨y.store, Personal.refl y.store, hsecond _ _⟩
    · exact ⟨_, personal_consumeTOTPStep y.store _ _, opens_startSession _ _⟩
    · exact ⟨y.store, Personal.refl y.store, hsecond _ _⟩
    · exact ⟨y.store, Personal.refl y.store, opens_startSession y.store _⟩

/-- What the other handlers end with. -/
theorem opens_signIn (user : User) :
    Opens cfg t y.store (y.signIn cfg t user).1.store (y.signIn cfg t user).2 :=
  opens_startSession y.store user

theorem store_takeCeremony : (y.takeCeremony t).1.store = y.store := by
  rw [SignIn.takeCeremony]
  cases t.ceremony <;> rfl

theorem opens_webAuthnBegin (body : Option LoginRequest) :
    Opens cfg t y.store (y.handleWebAuthnLoginBegin cfg t body).1.store
      (y.handleWebAuthnLoginBegin cfg t body).2 := by
  have hoptions : ∀ options, Opens cfg t y.store y.store (writeJSON 200 (.assertion options)) :=
    fun options => Or.inl ⟨rfl, fun user h => by simp [writeJSON] at h⟩
  unfold SignIn.handleWebAuthnLoginBegin
  dsimp only
  repeat' split
  all_goals first
    | exact opens_writeErr y.store _ _
    | exact hoptions _

theorem opens_webAuthnFinish (assertion : String) :
    ∃ s, Personal y.store s ∧
      Opens cfg t s (y.handleWebAuthnLoginFinish cfg t assertion).1.store
        (y.handleWebAuthnLoginFinish cfg t assertion).2 := by
  have htaken : (y.takeCeremony t).1.store = y.store := store_takeCeremony y
  unfold SignIn.handleWebAuthnLoginFinish
  generalize y.takeCeremony t = taken at htaken
  obtain ⟨y', cer⟩ := taken
  simp only at htaken
  rw [← htaken]
  have hrefused : ∀ status msg, ∃ s, Personal y'.store s ∧
      Opens cfg t s y'.store (writeErr status msg) := fun status msg =>
    ⟨y'.store, Personal.refl y'.store, opens_writeErr y'.store status msg⟩
  cases cer with
  | none => exact hrefused _ _
  | some cer =>
    dsimp only
    repeat' split
    · exact hrefused _ _
    · exact hrefused _ _
    · exact hrefused _ _
    · exact ⟨_, personal_addEvent _ _ _ _ _ _ _, opens_writeErr _ _ _⟩
    · exact ⟨_, personal_touchCredential y'.store _ _, opens_signIn { y' with store := _ } _⟩

theorem opens_passkeyBegin :
    Opens cfg t y.store (y.handlePasskeyBegin t).1.store (y.handlePasskeyBegin t).2 := by
  unfold SignIn.handlePasskeyBegin
  repeat' split
  · exact opens_writeErr y.store _ _
  · exact opens_writeErr y.store _ _
  · exact Or.inl ⟨rfl, fun user h => by simp [writeJSON] at h⟩

theorem opens_passkeyFinish (assertion : String) :
    ∃ s, Personal y.store s ∧
      Opens cfg t s (y.handlePasskeyFinish cfg t assertion).1.store
        (y.handlePasskeyFinish cfg t assertion).2 := by
  have htaken : (y.takeCeremony t).1.store = y.store := store_takeCeremony y
  unfold SignIn.handlePasskeyFinish
  generalize y.takeCeremony t = taken at htaken
  obtain ⟨y', cer⟩ := taken
  simp only at htaken
  rw [← htaken]
  have hrefused : ∀ status msg, ∃ s, Personal y'.store s ∧
      Opens cfg t s y'.store (writeErr status msg) := fun status msg =>
    ⟨y'.store, Personal.refl y'.store, opens_writeErr y'.store status msg⟩
  cases cer with
  | none => exact hrefused _ _
  | some cer =>
    dsimp only
    repeat' split
    · exact hrefused _ _
    · exact hrefused _ _
    · exact ⟨_, personal_addEvent _ _ _ _ _ _ _, opens_writeErr _ _ _⟩
    · exact ⟨_, personal_touchCredential y'.store _ _, opens_signIn { y' with store := _ } _⟩

/-- The first account; once there is one, nothing happens. -/
theorem opens_handleSetup (body : Option LoginRequest) :
    ∃ s, Within y.store s ∧ (0 < y.store.countUsers → Personal y.store s) ∧
      Opens cfg t s (y.handleSetup cfg t body).1.store (y.handleSetup cfg t body).2 := by
  by_cases husers : 0 < y.store.countUsers
  · have hset : y.handleSetup cfg t body =
        (y, writeErr 409 "setup already completed — ask an admin to add your account") :=
      if_pos husers
    rw [hset]
    exact ⟨y.store, Within.refl _, fun _ => Personal.refl _, opens_writeErr y.store _ _⟩
  · have hrefused : ∀ status msg, ∃ s, Within y.store s ∧
        (0 < y.store.countUsers → Personal y.store s) ∧
        Opens cfg t s y.store (writeErr status msg) := fun status msg =>
      ⟨y.store, Within.refl _, fun _ => Personal.refl _, opens_writeErr y.store status msg⟩
    cases body with
    | none =>
      rw [SignIn.handleSetup, if_neg husers]
      exact hrefused _ _
    | some req =>
      simp only [SignIn.handleSetup, if_neg husers]
      by_cases hemail : req.email = ""
      · rw [if_pos hemail]
        exact hrefused _ _
      rw [if_neg hemail]
      cases hhash : hashPasswordErr cfg req.password t.salt with
      | error msg => exact hrefused _ _
      | ok hash =>
        by_cases htakes : y.store.TakesUser ⟨req.email, hash, .admin, "", false, 0⟩
        · have hopens := @opens_startSession cfg t
            (y.store.createUser ⟨req.email, hash, .admin, "", false, 0⟩)
            (scanUser y.store.users.nextKey ⟨req.email, hash, .admin, "", false, 0⟩)
          refine ⟨_, within_createUser y.store ⟨req.email, hash, .admin, "", false, 0⟩,
            fun h => absurd h husers, ?_⟩
          simp only [if_pos htakes]
          by_cases hno : (startSession cfg t.loginEnv
              (y.store.createUser ⟨req.email, hash, .admin, "", false, 0⟩)
              (scanUser y.store.users.nextKey ⟨req.email, hash, .admin, "", false, 0⟩)).2
                = .noSession
          · rw [if_pos hno]
            rw [hno] at hopens
            obtain ⟨hsame, -⟩ | ⟨user, -, -, hans⟩ := hopens
            · exact Or.inl ⟨hsame, fun user h => by simp [writeErr, writeJSON] at h⟩
            · simp [SignIn.loginAnswer, writeErr, writeJSON] at hans
          · rw [if_neg hno]
            exact hopens
        · simp only [if_neg htakes]
          exact hrefused _ _

/-- What a request to sign in does to the store. -/
theorem opens_serve (req : SignInRequest) :
    ∃ s, Within y.store s ∧ (0 < y.store.countUsers → Personal y.store s) ∧
      Opens cfg t s (y.serve cfg t req).1.store (y.serve cfg t req).2 := by
  -- the limiter lets the request through, or answers itself
  have hlimit : ∀ next : SignIn → SignIn × Answer SignInBody,
      (∀ rl, ∃ s, Within y.store s ∧ (0 < y.store.countUsers → Personal y.store s) ∧
        Opens cfg t s (next { y with loginLimiter := rl }).1.store
          (next { y with loginLimiter := rl }).2) →
      ∃ s, Within y.store s ∧ (0 < y.store.countUsers → Personal y.store s) ∧
        Opens cfg t s (y.limitAuth t next).1.store (y.limitAuth t next).2 := by
    intro next hnext
    unfold SignIn.limitAuth
    split
    · exact hnext _
    · exact ⟨y.store, Within.refl _, fun _ => Personal.refl _, opens_writeErr y.store _ _⟩
  have hpersonal : ∀ {s' : Store} {ans : Answer SignInBody},
      (∃ s, Personal y.store s ∧ Opens cfg t s s' ans) →
      ∃ s, Within y.store s ∧ (0 < y.store.countUsers → Personal y.store s) ∧
        Opens cfg t s s' ans := by
    rintro s' ans ⟨s, hs, hopens⟩
    exact ⟨s, hs.within, fun _ => hs, hopens⟩
  cases req with
  | login body =>
    exact hlimit _ fun rl => hpersonal (opens_handleLogin { y with loginLimiter := rl } body)
  | webAuthnBegin body =>
    exact hlimit _ fun rl =>
      hpersonal ⟨y.store, Personal.refl _, opens_webAuthnBegin { y with loginLimiter := rl } body⟩
  | webAuthnFinish assertion =>
    exact hlimit _ fun rl =>
      hpersonal (opens_webAuthnFinish { y with loginLimiter := rl } assertion)
  | passkeyBegin =>
    exact hlimit _ fun rl =>
      hpersonal ⟨y.store, Personal.refl _, opens_passkeyBegin { y with loginLimiter := rl }⟩
  | passkeyFinish assertion =>
    exact hlimit _ fun rl =>
      hpersonal (opens_passkeyFinish { y with loginLimiter := rl } assertion)
  | setupStatus =>
    exact ⟨y.store, Within.refl _, fun _ => Personal.refl _,
      Or.inl ⟨rfl, fun user h => by simp [SignIn.serve, SignIn.handleSetupStatus, writeJSON] at h⟩⟩
  | setup body => exact hlimit _ fun rl => opens_handleSetup { y with loginLimiter := rl } body

end Door

/-! ### Runs -/

section Runs

open Transition

variable {cfg : ServiceConfig} {y z w : Service} {log log' : List Exchange}

/-- What a state has of another, with what was answered in between: sessions that were there or
that a sign-in has given, tokens that were there, and nobody who was gone. -/
structure Since (cfg : ServiceConfig) (y z : Service) (log : List Exchange) : Prop where
  sessions : ∀ r ∈ z.store.sessions.rows, r ∈ y.store.sessions.rows ∨
    ∃ e ∈ log, ∃ user t, e.SignsIn user t ∧ r.2 = sessionRow cfg.auth t.now t.session user.id
  tokens : ∀ r ∈ z.store.tokens.rows, r ∈ y.store.tokens.rows
  seq : y.store.users.seq ≤ z.store.users.seq
  gone : ∀ id, id ≤ y.store.users.seq → y.store.users.get? id = none → z.store.users.get? id = none

theorem since_of_within (h : Within y.store z.store) (log : List Exchange) :
    Since cfg y z log :=
  ⟨fun r hr => Or.inl (h.sessions r hr), h.tokens, h.seq, h.gone⟩

theorem Since.trans (h : Since cfg y z log) (h' : Since cfg z w log') :
    Since cfg y w (log ++ log') := by
  refine ⟨fun r hr => ?_, fun r hr => h.tokens r (h'.tokens r hr), h.seq.trans h'.seq,
    fun id hid hnone => h'.gone id (hid.trans h.seq) (h.gone id hid hnone)⟩
  obtain hr' | ⟨e, he, hsigns⟩ := h'.sessions r hr
  · obtain hr'' | ⟨e, he, hsigns⟩ := h.sessions r hr'
    · exact Or.inl hr''
    · exact Or.inr ⟨e, List.mem_append_left _ he, hsigns⟩
  · exact Or.inr ⟨e, List.mem_append_right _ he, hsigns⟩

/-- One request. -/
theorem since_serve (cfg : ServiceConfig) (y : Service) (act : ServiceAct) :
    Since cfg y (y.serve cfg act).1 [(act, (y.serve cfg act).2)] := by
  cases act with
  | route t req => exact since_of_within (within_authed cfg.toConfig t y.inside req) _
  | signIn t peer req =>
    obtain ⟨s, hwithin, -, hopens⟩ :=
      @opens_serve cfg.auth (Service.turnOf cfg t peer) y.door req
    obtain ⟨hsame, -⟩ | ⟨user, htakes, hcreated, hans⟩ := hopens
    · have hstore : (y.serve cfg (.signIn t peer req)).1.store = s := hsame
      rw [← hstore] at hwithin
      exact since_of_within hwithin _
    · have hstore : (y.serve cfg (.signIn t peer req)).1.store = { s with
          sessions := s.sessions.insert (sessionRow cfg.auth t.now t.session user.id) } :=
        hcreated.trans (if_pos htakes)
      have hanswer : (y.serve cfg (.signIn t peer req)).2
          = .signIn (writeJSON 200 (.user user.body)) := congrArg ServiceAnswer.signIn hans
      refine ⟨fun r hr => ?_, ?_, ?_, ?_⟩
      · rw [hstore] at hr
        rcases List.mem_append.mp hr with hold | hnew
        · exact Or.inl (hwithin.sessions r hold)
        · -- the row is the one of the session that was drawn
          obtain rfl := List.mem_singleton.mp hnew
          refine Or.inr ⟨_, List.mem_singleton_self _, user.body, t, ⟨peer, req, ?_⟩, rfl⟩
          rw [hanswer]
      · rw [hstore]
        exact hwithin.tokens
      · rw [hstore]
        exact hwithin.seq
      · rw [hstore]
        exact hwithin.gone

/-- Any number of requests. -/
theorem since_run (cfg : ServiceConfig) (y : Service) (acts : List ServiceAct) :
    Since cfg y (runOut (serviceStep cfg) y acts).1 (runOut (serviceStep cfg) y acts).2 := by
  induction acts generalizing y with
  | nil => exact since_of_within (Within.refl y.store) []
  | cons act acts ih => exact (since_serve cfg y act).trans (ih (y.serve cfg act).1)

/-- Who is let in comes with a token of the table, or with a session of the table that is not
over. -/
theorem caller_eq_some {t : RouteTurn} {me : User} (h : z.caller t = some me) :
    z.store.getUserByID me.id = some me ∧
    ((∃ r ∈ z.store.tokens.rows, t.bearer = some r.2.tokenHash ∧ r.2.userId = me.id) ∨
      t.bearer = none ∧ ∃ r ∈ z.store.sessions.rows, t.cookie = some r.2.sessionHash ∧
        r.2.userId = me.id ∧ Store.expired r.2 t.now = false) := by
  have hfound : ∀ id, z.store.getUserByID id = some me →
      me.id = id ∧ z.store.getUserByID me.id = some me := by
    intro id hid
    obtain ⟨row, -, rfl⟩ := getUserByID_eq_some_iff.mp hid
    exact ⟨rfl, hid⟩
  unfold Service.caller at h
  cases hbearer : t.bearer with
  | some tokenHash =>
    rw [hbearer] at h
    obtain ⟨r, hr, hid⟩ := Option.bind_eq_some_iff.mp h
    obtain ⟨hme, hthere⟩ := hfound _ hid
    have hhash : r.2.tokenHash = tokenHash := by simpa using List.find?_some hr
    exact ⟨hthere, Or.inl ⟨r, List.mem_of_find?_eq_some hr, by rw [hhash], hme.symm⟩⟩
  | none =>
    rw [hbearer] at h
    cases hcookie : t.cookie with
    | none => simp [hcookie, resolveUser] at h
    | some sessionHash =>
      simp only [hcookie, resolveUser, Store.userBySessionHash] at h
      cases hsession : z.store.findSession sessionHash with
      | none => simp [hsession] at h
      | some row =>
        simp only [hsession] at h
        split_ifs at h with hover
        obtain ⟨hme, hthere⟩ := hfound _ h
        obtain ⟨r, hr, rfl⟩ := Option.map_eq_some_iff.mp hsession
        have hhash : r.2.sessionHash = sessionHash := by simpa using List.find?_some hr
        refine ⟨hthere, Or.inr ⟨rfl, r, List.mem_of_find?_eq_some hr, by rw [hhash], hme.symm, ?_⟩⟩
        simpa using hover

/-- A request that is not answered 401 has a caller. -/
theorem exists_caller {t : RouteTurn} {req : RouteRequest}
    (h : (z.serve cfg (.route t req)).2.status ≠ 401) : ∃ me, z.caller t = some me := by
  obtain ⟨-, -, -, -, hstatus⟩ | ⟨me, hme, -⟩ | ⟨me, hme, -⟩ :=
    authed_cases cfg.toConfig t z.inside req
  · exact absurd hstatus h
  · exact ⟨me, hme⟩
  · exact ⟨me, hme⟩

/-- After any run, a request behind a sign-in that is not turned away is made by a user with a
token from the beginning, or with a session that is not over: one from the beginning, or one that
a sign-in of the run has given to that very user. -/
theorem caller_provenance (cfg : ServiceConfig) (y : Service) (acts : List ServiceAct)
    (t : RouteTurn) (req : RouteRequest)
    (h : ((runOut (serviceStep cfg) y acts).1.serve cfg (.route t req)).2.status ≠ 401) :
    ∃ me, (runOut (serviceStep cfg) y acts).1.caller t = some me ∧
      ((∃ r ∈ y.store.tokens.rows, t.bearer = some r.2.tokenHash ∧ r.2.userId = me.id) ∨
        t.bearer = none ∧ ∃ row : SessionRow, t.cookie = some row.sessionHash ∧
          row.userId = me.id ∧ Store.expired row t.now = false ∧
          ((∃ r ∈ y.store.sessions.rows, r.2 = row) ∨
            ∃ e ∈ (runOut (serviceStep cfg) y acts).2, ∃ user turn, e.SignsIn user turn ∧
              row = sessionRow cfg.auth turn.now turn.session user.id)) := by
  have hsince := since_run cfg y acts
  obtain ⟨me, hme⟩ := exists_caller h
  refine ⟨me, hme, ?_⟩
  obtain ⟨-, ⟨r, hr, hbearer, huser⟩ | ⟨hbearer, r, hr, hcookie, huser, hover⟩⟩ :=
    caller_eq_some hme
  · exact Or.inl ⟨r, hsince.tokens r hr, hbearer, huser⟩
  · refine Or.inr ⟨hbearer, r.2, hcookie, huser, hover, ?_⟩
    obtain hold | hnew := hsince.sessions r hr
    · exact Or.inl ⟨r, hold, rfl⟩
    · exact Or.inr hnew

/-- The server of two users, the first of whom has a token. -/
def demoService : Service where
  host := (twoUsers "target" "salt" "key").host

/-- It is not behind a proxy. -/
def demoServiceConfig : ServiceConfig := { demoServing with trustedProxy := false }

/-- A request of the first user. -/
def tokenRoute (req : RouteRequest) : ServiceAct := .route (tokenAct req).turn req

theorem caller_provenance_demo :
    ∃ me, (runOut (serviceStep demoServiceConfig) demoService [tokenRoute .setup2FA]).1.caller
      (tokenAct .whoami).turn = some me ∧ me.id = 1 := by
  obtain ⟨me, hme, hfrom⟩ := caller_provenance demoServiceConfig demoService
    [tokenRoute .setup2FA] (tokenAct .whoami).turn .whoami (by decide)
  refine ⟨me, hme, ?_⟩
  obtain ⟨r, hr, hbearer, huser⟩ | ⟨hbearer, -⟩ := hfrom
  · -- the token of the other user is another
    obtain rfl | hr := List.mem_cons.mp hr
    · exact huser.symm
    · obtain rfl := List.mem_singleton.mp hr
      exact absurd hbearer (by decide)
  · exact absurd hbearer (by decide)

/-! ### What is taken away for good -/

/-- Without a session in the table a cookie lets nobody in. -/
theorem serve_of_no_session {t : RouteTurn} (hbearer : t.bearer = none) {sessionHash : String}
    (hcookie : t.cookie = some sessionHash)
    (hnone : ∀ r ∈ z.store.sessions.rows, r.2.sessionHash ≠ sessionHash) (req : RouteRequest) :
    (z.serve cfg (.route t req)).2.status = 401 := by
  by_contra h
  obtain ⟨me, hme⟩ := exists_caller h
  obtain ⟨-, ⟨r, -, hr, -⟩ | ⟨-, r, hr, hhash, -⟩⟩ := caller_eq_some hme
  · rw [hbearer] at hr
    exact absurd hr (by simp)
  · rw [hcookie] at hhash
    exact hnone r hr (Option.some.inj hhash).symm

/-- A sign-out that is answered has removed the session, if its statement succeeds. -/
theorem sessions_logout {t : RouteTurn} {sessionHash : String} (hdeleted : t.deleted = true)
    (hcookie : t.cookie = some sessionHash)
    (hok : (y.serve cfg (.route t .logout)).2.status = 200) :
    ∀ r ∈ (y.serve cfg (.route t .logout)).1.store.sessions.rows,
      r.2.sessionHash ≠ sessionHash := by
  obtain ⟨-, -, -, -, hstatus⟩ | ⟨me, -, hreq, -⟩ | ⟨me, -, -, hserved⟩ :=
    authed_cases cfg.toConfig t y.inside .logout
  · exact absurd (hstatus.symm.trans hok) (by decide)
  · exact absurd hreq (by decide)
  · have hstore : (y.serve cfg (.route t .logout)).1.store = y.store.deleteSession sessionHash := by
      change (y.inside.authed cfg.toConfig t .logout).1.host.store = _
      rw [hserved]
      change (handleLogout t.deleted t.cookie y.store).1 = _
      rw [hdeleted, hcookie]
      rfl
    intro r hr heq
    rw [hstore] at hr
    have hkept := (List.mem_filter.mp hr).2
    simp [heq] at hkept

/-- A deletion that is answered has removed the user. -/
theorem users_deleteUser {t : RouteTurn} {id : Int}
    (hok : (y.serve cfg (.route t (.deleteUser (some id)))).2.status = 204) :
    (y.serve cfg (.route t (.deleteUser (some id)))).1.store.users.get? id = none ∧
      id ≤ (y.serve cfg (.route t (.deleteUser (some id)))).1.store.users.seq := by
  obtain ⟨-, -, -, -, hstatus⟩ | ⟨me, -, -, -, hserved⟩ | ⟨me, -, -, hserved⟩ :=
    authed_cases cfg.toConfig t y.inside (.deleteUser (some id))
  · exact absurd (hstatus.symm.trans hok) (by decide)
  · have hstatus : (y.inside.authed cfg.toConfig t (.deleteUser (some id))).2.status = 204 := hok
    rw [hserved] at hstatus
    simp [writeErr] at hstatus
  · have hhandled : y.inside.authed cfg.toConfig t (.deleteUser (some id)) =
        y.inside.onStore fun s => handleDeleteUser me s (some id) := hserved
    have hstatus : (y.inside.authed cfg.toConfig t (.deleteUser (some id))).2.status = 204 := hok
    have hstore : (y.serve cfg (.route t (.deleteUser (some id)))).1.store =
        (handleDeleteUser me y.store (some id)).1 := by
      change (y.inside.authed cfg.toConfig t (.deleteUser (some id))).1.host.store = _
      rw [hhandled]
      rfl
    rw [hhandled] at hstatus
    change (handleDeleteUser me y.store (some id)).2.status = 204 at hstatus
    rw [hstore]
    simp only [handleDeleteUser, withPathID] at hstatus ⊢
    split_ifs at hstatus ⊢ with hself hthere
    · exact absurd hstatus (by simp [writeErr])
    · obtain ⟨row, hrow⟩ := Option.isSome_iff_exists.mp hthere
      have hseq : id ≤ y.store.users.seq := Table.le_seq_of_get? hrow
      refine ⟨?_, hseq⟩
      change (y.store.users.erase id).get? id = none
      rw [Table.get?_erase, if_pos rfl]
    · exact absurd hstatus (by simp [writeErr])

/-- A session that its user has ended, where the statement that deletes it succeeds, lets nobody in
again, unless a later sign-in draws the same; and a user that was deleted is never again who makes a
request, whatever sessions and tokens there were. -/
theorem revocation_final (cfg : ServiceConfig) (y : Service) (t : RouteTurn)
    (acts : List ServiceAct) :
    (∀ sessionHash, t.deleted = true → t.cookie = some sessionHash →
      (y.serve cfg (.route t .logout)).2.status = 200 →
      (∀ e ∈ (runOut (serviceStep cfg) (y.serve cfg (.route t .logout)).1 acts).2,
        ∀ user turn, e.SignsIn user turn → turn.session ≠ sessionHash) →
      ∀ t' req, t'.bearer = none → t'.cookie = some sessionHash →
        ((runOut (serviceStep cfg) (y.serve cfg (.route t .logout)).1 acts).1.serve cfg
          (.route t' req)).2.status = 401) ∧
    (∀ id, (y.serve cfg (.route t (.deleteUser (some id)))).2.status = 204 →
      ∀ t' me, (runOut (serviceStep cfg) (y.serve cfg (.route t (.deleteUser (some id)))).1
        acts).1.caller t' = some me → me.id ≠ id) := by
  constructor
  · intro sessionHash hdeleted hcookie hok hfresh t' req hbearer hcookie'
    refine serve_of_no_session hbearer hcookie' (fun r hr => ?_) req
    obtain hold | ⟨e, he, user, turn, hsigns, hrow⟩ := (since_run cfg _ acts).sessions r hr
    · exact sessions_logout hdeleted hcookie hok r hold
    · rw [hrow]
      exact hfresh e he user turn hsigns
  · intro id hok t' me hme hid
    obtain ⟨hgone, hseq⟩ := users_deleteUser hok
    have hnone := (since_run cfg _ acts).gone id hseq hgone
    obtain ⟨row, hrow, -⟩ := getUserByID_eq_some_iff.mp (caller_eq_some hme).1
    rw [hid, hnone] at hrow
    exact absurd hrow (by simp)

/-- The server of two users where the second has a session too. -/
def demoSession : Service where
  host :=
    { demoService.host with
      store :=
        { demoService.store with
          sessions := Table.empty.insert
            ⟨2, "cookie", Rfc3339.format (3600 * Rfc3339.oneSecond)⟩ } }

/-- What the second user's browser sends. -/
def cookieTurn : RouteTurn :=
  { (tokenAct .whoami).turn with bearer := none, cookie := some "cookie" }

/-- The session is ended, and the user deleted. -/
theorem revocation_final_demo :
    ((runOut (serviceStep demoServiceConfig)
      (demoSession.serve demoServiceConfig (.route cookieTurn .logout)).1
      [tokenRoute .whoami]).1.serve demoServiceConfig (.route cookieTurn .whoami)).2.status = 401 ∧
    ∀ t' me, (runOut (serviceStep demoServiceConfig)
      (demoSession.serve demoServiceConfig (.route (tokenAct .whoami).turn
        (.deleteUser (some 2)))).1 [tokenRoute .whoami]).1.caller t' = some me → me.id ≠ 2 := by
  constructor
  · refine (revocation_final demoServiceConfig demoSession cookieTurn [tokenRoute .whoami]).1
      "cookie" rfl rfl (by decide) ?_ cookieTurn .whoami rfl rfl
    intro e he user turn ⟨peer, req, hsigns⟩
    obtain rfl := List.mem_singleton.mp he
    exact absurd (congrArg Prod.fst hsigns) (by simp [tokenRoute])
  · exact (revocation_final demoServiceConfig demoSession (tokenAct .whoami).turn
      [tokenRoute .whoami]).2 2 (by decide)

end Runs

end CertGuard
