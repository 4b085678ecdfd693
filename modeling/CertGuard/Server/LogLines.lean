import CertGuard.Server.AccountsApart

/-!
# What requests log

A request behind a sign-in does the same whatever the activity log holds, and adds the same lines
to it, unless it asks for the log itself or for the whole database. Each of these lines is about an
entry, or says that whoever asks registered or removed a security key.

## Main definitions

* `Store.withLog`, `Host.withLog`, `Server.withLog` — another log in the place of the log
* `keyAddedLine`, `keyRemovedLine`, `RequestLine` — the lines a request adds
* `LogsAlike` — the same is done and the same lines are added, whatever the log holds

## Main results

* `logs_dispatch` — the requests that do not ask for the log
* `dispatch_asking` — those that do
-/

namespace CertGuard

/-- A store with another log. -/
def Store.withLog (s : Store) (log : Table EventRow) : Store := { s with events := log }

def Host.withLog (h : Host) (log : Table EventRow) : Host := { h with store := h.store.withLog log }

def Server.withLog (y : Server) (log : Table EventRow) : Server :=
  { y with host := y.host.withLog log }

/-- The line about a security key that somebody registers; it shows the label of the key. -/
def keyAddedLine (me : User) (t : RouteTurn) : EventRow where
  atTime := Rfc3339.format t.now
  kind := .keyAdded
  certId := none
  certName := me.email
  actor := me.email
  detail := .keyRegistered (credentialLabel t.label)

/-- The line about a security key that somebody removes. -/
def keyRemovedLine (me : User) (t : RouteTurn) : EventRow where
  atTime := Rfc3339.format t.now
  kind := .keyRemoved
  certId := none
  certName := me.email
  actor := me.email
  detail := .plain (GoString.ofString "removed a security key")

/-- A line that a request adds. -/
def RequestLine (me : User) (t : RouteTurn) (s s' : Store) (l : EventRow) : Prop :=
  EntryLine me.email s s' l ∨ l = keyAddedLine me t ∨ l = keyRemovedLine me t

/-- With any log, a server does the same with a request, and adds the same lines. -/
def LogsAlike (me : User) (t : RouteTurn) (y : Server)
    (handle : Server → Server × Answer RouteBody) : Prop :=
  ∃ lines, (∀ l ∈ lines, RequestLine me t y.store (handle y).1.store l) ∧
    ∀ log, handle (y.withLog log) = ((handle y).1.withLog (log.insertAll lines), (handle y).2)

/-- With any log a handler does the same, and it adds no line. -/
def Quiet {β : Type} (handle : Store → Store × β) : Prop :=
  ∀ s log, handle (s.withLog log) = ((handle s).1.withLog log, (handle s).2)

/-- The whole database is asked for. -/
def RouteRequest.asksDatabase : RouteRequest → Bool
  | backupDB => true
  | _ => false

/-- The activity log is asked for. -/
def RouteRequest.asksLog : RouteRequest → Bool
  | listEvents _ _ => true
  | _ => false

variable {me : User} {t : RouteTurn} {y : Server} {s r : Store} {path : Option Int}

/-! ### Statements -/

section Statements

variable (log : Table EventRow)

theorem createUser_withLog (row : UserRow) :
    (s.withLog log).createUser row = (s.createUser row).withLog log := by
  have htakes : (s.withLog log).TakesUser row ↔ s.TakesUser row := Iff.rfl
  simp only [Store.createUser, htakes]
  split_ifs <;> rfl

theorem deleteChannel_withLog (id userId : Int) :
    (s.withLog log).deleteChannel id userId = (s.deleteChannel id userId).map (·.withLog log) := by
  have hget : (s.withLog log).channels.get? id = s.channels.get? id := rfl
  simp only [Store.deleteChannel, hget]
  repeat' split
  all_goals rfl

theorem addCredential_withLog (row : CredentialRow) :
    (s.withLog log).addCredential row = (s.addCredential row).withLog log := by
  have htakes : (s.withLog log).TakesCredential row ↔ s.TakesCredential row := Iff.rfl
  simp only [Store.TakesCredential] at htakes
  simp only [Store.addCredential, htakes]
  split_ifs <;> rfl

theorem deleteCredential_withLog (id userId : Int) :
    (s.withLog log).deleteCredential id userId = (s.deleteCredential id userId).withLog log := by
  have hget : (s.withLog log).credentials.get? id = s.credentials.get? id := rfl
  simp only [Store.deleteCredential, hget]
  repeat' split
  all_goals rfl

theorem insertVaultWrapper_withLog (w : WrapperRow) :
    (s.withLog log).insertVaultWrapper w = (s.insertVaultWrapper w).withLog log := by
  have htakes : (s.withLog log).TakesWrapper w ↔ s.TakesWrapper w := Iff.rfl
  simp only [Store.insertVaultWrapper, htakes]
  split_ifs <;> rfl

end Statements

/-! ### Handlers -/

theorem LogsAlike.of_quiet {handle : Server → Server × Answer RouteBody}
    (h : ∀ log, handle (y.withLog log) = ((handle y).1.withLog log, (handle y).2)) :
    LogsAlike me t y handle :=
  ⟨[], fun _ hl => absurd hl List.not_mem_nil, h⟩

theorem logs_onStore {handle : Store → Store × Answer RouteBody} (h : Quiet handle) :
    LogsAlike me t y (Server.onStore · handle) := by
  refine LogsAlike.of_quiet fun log => ?_
  have hquiet : handle (y.withLog log).store = _ := h y.store log
  simp only [Server.onStore, hquiet]
  rfl

/-- The accounts beside which a handler leaves the entries are those of before, so that another log
is all that can be beside them. -/
theorem beside_withLog (h : r = r.beside s) (log : Table EventRow) :
    r.beside (s.withLog log) = r.withLog log := by
  calc r.beside (s.withLog log) = (r.beside s).withLog log := rfl
    _ = r.withLog log := by rw [← h]

theorem logs_onEntries {handle : Store → Store × Answer EntryBody}
    (happart : ApartFromAccounts me.email handle) :
    LogsAlike me t y (Server.onEntries · handle) := by
  obtain ⟨lines, hlines, hbesides⟩ := happart y.store
  -- beside its own accounts, so that only the log is left to differ
  have hself : (handle y.store).1 = (handle y.store).1.beside (y.store.addLines lines) :=
    congrArg Prod.fst (hbesides y.store)
  refine ⟨lines, fun l hl => Or.inl (hlines l hl), fun log => ?_⟩
  have hwith : handle (y.withLog log).store =
      ((handle y.store).1.withLog (log.insertAll lines), (handle y.store).2) := by
    rw [← beside_withLog hself]
    exact hbesides (y.store.withLog log)
  simp only [Server.onEntries, Server.onStore, hwith]
  rfl

theorem HostApart.withLog {β : Type} {handle : Host → Host × β} {h : Host}
    (happart : HostApart handle h) (log : Table EventRow) :
    handle (h.withLog log) = ((handle h).1.withLog log, (handle h).2) := by
  have hself : (handle h).1.store = (handle h).1.store.beside h.store :=
    congrArg (fun r : Host × β => r.1.store) (happart h.store)
  have hbesides : handle (h.withLog log) = _ := happart (h.store.withLog log)
  rw [hbesides]
  refine Prod.ext (congrArg (fun s => { (handle h).1 with store := s }) ?_) rfl
  exact beside_withLog hself log

theorem logs_onHost {handle : Host → Host × Answer RouteBody} (happart : HostApart handle y.host) :
    LogsAlike me t y (Server.onHost · handle) := by
  refine LogsAlike.of_quiet fun log => ?_
  have hwith : handle (y.withLog log).host = _ := happart.withLog log
  simp only [Server.onHost, hwith]
  rfl

theorem quiet_withPathID {handle : Int → Store → Store × Answer RouteBody}
    (h : ∀ id, Quiet (handle id)) :
    Quiet fun s => withPathID s path fun id => handle id s := by
  intro s log
  cases path with
  | none => rfl
  | some id => exact h id s log

theorem quiet_handleDomainCandidates (body : Option (List String)) :
    Quiet (handleDomainCandidates t · body) := by
  intro s log
  cases body with
  | none => rfl
  | some hosts => cases hosts <;> rfl

/-! ### Accounts -/

theorem quiet_handleCreateUser (cfg : AuthConfig) (salt : Nat) (body : Option CreateUserRequest) :
    Quiet (handleCreateUser cfg salt · body) := by
  intro s log
  have htakes : ∀ row, (s.withLog log).TakesUser row ↔ s.TakesUser row := fun _ => Iff.rfl
  cases body with
  | none => rfl
  | some req =>
    simp only [handleCreateUser, htakes, createUser_withLog]
    repeat' split
    all_goals rfl

theorem quiet_handleDeleteUser : Quiet (handleDeleteUser me · path) := by
  refine quiet_withPathID fun id s log => ?_
  have hget : (s.withLog log).users.get? id = s.users.get? id := rfl
  simp only [hget]
  split_ifs <;> rfl

theorem quiet_handleLogout (deleted : Bool) (cookie : Option String) :
    Quiet (handleLogout deleted cookie) := by
  intro s log
  cases deleted with
  | false => rfl
  | true => cases cookie <;> rfl

theorem quiet_handle2FASetup (secret : String) : Quiet (handle2FASetup me secret) := by
  intro s log
  unfold handle2FASetup
  split_ifs <;> rfl

/-- Handlers of the second factor look at who asks. -/
theorem getUserByID_withLog (log : Table EventRow) (id : Int) :
    (s.withLog log).getUserByID id = s.getUserByID id := rfl

theorem quiet_handle2FAQR (qr : String → Except String String) : Quiet (handle2FAQR me qr) := by
  intro s log
  simp only [handle2FAQR, getUserByID_withLog]
  repeat' split
  all_goals rfl

theorem quiet_handle2FAEnable (now : Int) (body : Option String) :
    Quiet (handle2FAEnable me now · body) := by
  intro s log
  simp only [handle2FAEnable, getUserByID_withLog]
  repeat' split
  all_goals rfl

theorem quiet_handle2FADisable (now : Int) (body : Option String) :
    Quiet (handle2FADisable me now · body) := by
  intro s log
  simp only [handle2FADisable, getUserByID_withLog]
  repeat' split
  all_goals rfl

/-! ### Channels -/

theorem quiet_handleCreateChannel (body : Option CreateChannelRequest) :
    Quiet (handleCreateChannel me · body) := by
  intro s log
  unfold handleCreateChannel
  repeat' split
  all_goals rfl

theorem quiet_handleDeleteChannel : Quiet (handleDeleteChannel me · path) := by
  refine quiet_withPathID fun id s log => ?_
  simp only [deleteChannel_withLog]
  cases s.deleteChannel id me.id <;> rfl

theorem quiet_handleTestChannel : Quiet (handleTestChannel me t · path) := by
  refine quiet_withPathID fun id s log => ?_
  have hget : (s.withLog log).getChannel id = s.getChannel id := rfl
  simp only [hget]
  repeat' split
  all_goals rfl

/-! ### Keys -/

theorem logs_handleDeleteCredential (id : Option Int) :
    LogsAlike me t y (Server.onStore · (handleDeleteCredential me t.now · id)) := by
  cases id with
  | none => exact LogsAlike.of_quiet fun _ => rfl
  | some id =>
    refine ⟨[keyRemovedLine me t], fun l hl => ?_, fun log => ?_⟩
    · exact Or.inr (Or.inr (List.mem_singleton.mp hl))
    · have hwith : (y.withLog log).store.deleteCredential id me.id =
          (y.store.deleteCredential id me.id).withLog log := deleteCredential_withLog log id me.id
      simp only [Server.onStore, handleDeleteCredential, withPathID, hwith]
      rfl

theorem logs_registerBegin :
    LogsAlike me t y (Server.onKeys · (handleWebAuthnRegisterBegin me t)) := by
  refine LogsAlike.of_quiet fun log => ?_
  have huser : webAuthnUserFor (y.withLog log).store me = webAuthnUserFor y.store me := rfl
  simp only [Server.onKeys, handleWebAuthnRegisterBegin, huser]
  repeat' split
  all_goals rfl

theorem logs_registerFinish (body : String) :
    LogsAlike me t y (Server.onKeys · (handleWebAuthnRegisterFinish me t · body)) := by
  have huser : ∀ log, webAuthnUserFor (y.withLog log).store me = webAuthnUserFor y.store me :=
    fun _ => rfl
  have htakes : ∀ log row, (y.withLog log).store.TakesCredential row ↔
      y.store.TakesCredential row := fun _ _ => Iff.rfl
  have hadd : ∀ log row, (y.withLog log).store.addCredential row =
      (y.store.addCredential row).withLog log := fun log row => addCredential_withLog log row
  have hceremonies : ∀ log, (y.withLog log).ceremonies = y.ceremonies := fun _ => rfl
  simp only [LogsAlike, Server.onKeys, handleWebAuthnRegisterFinish, huser, htakes, hadd,
    hceremonies]
  -- only a ceremony of the one who asks, and one that the library accepts, adds a key
  cases (t.ceremony.bind fun token =>
      y.ceremonies.take Ceremony.expires t.now token).filter fun cer => cer.userID = me.id with
  | none => exact ⟨[], fun _ hl => absurd hl List.not_mem_nil, fun _ => rfl⟩
  | some cer =>
    cases t.webAuthn with
    | error msg => exact ⟨[], fun _ hl => absurd hl List.not_mem_nil, fun _ => rfl⟩
    | ok lib =>
      dsimp only
      cases lib.finishRegistration (webAuthnUserFor y.store me) cer.session body with
      | error err => exact ⟨[], fun _ hl => absurd hl List.not_mem_nil, fun _ => rfl⟩
      | ok cred =>
        dsimp only
        split_ifs
        · -- the key is stored, and the log says so
          refine ⟨[keyAddedLine me t], fun l hl => ?_, fun _ => rfl⟩
          exact Or.inr (Or.inl (List.mem_singleton.mp hl))
        · exact ⟨[], fun _ hl => absurd hl List.not_mem_nil, fun _ => rfl⟩

/-- Handlers of wrappers look for a key of who asks. -/
theorem ownedCredential_withLog (log : Table EventRow) (cid : String) :
    ownedCredential me (s.withLog log) cid = ownedCredential me s cid := rfl

theorem quiet_handleVaultWrapperGet (cid : String) : Quiet (handleVaultWrapperGet me · cid) := by
  intro s log
  have hwrapper : ∀ c, (s.withLog log).vaultWrapper c = s.vaultWrapper c := fun _ => rfl
  simp only [handleVaultWrapperGet, ownedCredential_withLog, hwrapper]
  repeat' split
  all_goals rfl

theorem quiet_handleVaultWrapperSet (cid : String) (body : Option (Wrapped × String)) :
    Quiet (handleVaultWrapperSet me · cid body) := by
  intro s log
  have hdelete : ∀ c, (s.withLog log).deleteVaultWrapper c = (s.deleteVaultWrapper c).withLog log :=
    fun _ => rfl
  simp only [handleVaultWrapperSet, ownedCredential_withLog, hdelete, insertVaultWrapper_withLog]
  repeat' split
  all_goals rfl

theorem quiet_handleVaultWrapperDelete (cid : String) :
    Quiet (handleVaultWrapperDelete me · cid) := by
  intro s log
  simp only [handleVaultWrapperDelete, ownedCredential_withLog]
  split <;> rfl

/-! ### The vault -/

theorem storeSecrets_withLog (log : Table EventRow) (secrets : List (Int × Cipher)) :
    storeSecrets (s.withLog log) secrets = (storeSecrets s secrets).withLog log := by
  have hself : storeSecrets s secrets = (storeSecrets s secrets).beside s :=
    storeSecrets_beside secrets
  calc storeSecrets (s.withLog log) secrets
      = storeSecrets (s.beside (s.withLog log)) secrets := rfl
    _ = (storeSecrets s secrets).beside (s.withLog log) := storeSecrets_beside secrets
    _ = (storeSecrets s secrets).withLog log := beside_withLog hself log

theorem logs_handleZKKeyringSet (env : VaultEnv) (body : Option KeyringReq) :
    LogsAlike me t y (Server.onHost · (handleZKKeyringSet env · body)) := by
  refine LogsAlike.of_quiet fun log => ?_
  cases body with
  | none => rfl
  | some req =>
    have henable := (enableZK_beside (h := y.host) env req.keyring.wrapped req.keyring.salt
      req.keyring.iters).withLog log
    have hhost : (y.withLog log).host = y.host.withLog log := rfl
    have hzk : (y.host.withLog log).vault.zk = y.host.vault.zk := rfl
    simp only [Server.onHost, handleZKKeyringSet, hhost, henable, hzk]
    obtain ⟨h', e⟩ := Host.enableZK env y.host req.keyring.wrapped req.keyring.salt
      req.keyring.iters
    -- the wrappers go where the mode was off before
    have hclear : ∀ s : Store, (if y.host.vault.zk then s.withLog log
        else (s.withLog log).clearVaultWrappers) =
          (if y.host.vault.zk then s else s.clearVaultWrappers).withLog log := by
      intro s
      split_ifs <;> rfl
    have hstore : (h'.withLog log).store = h'.store.withLog log := rfl
    cases e with
    | some e => split_ifs <;> rfl
    | none =>
      simp only [hstore, hclear, storeSecrets_withLog]
      split_ifs <;> rfl

theorem logs_handleZKKeyringDelete (env : VaultEnv) :
    LogsAlike me t y (Server.onHost · (handleZKKeyringDelete env)) := by
  refine LogsAlike.of_quiet fun log => ?_
  have hdisable : Host.disableZK env (y.withLog log).host =
      ((Host.disableZK env y.host).1.withLog log, (Host.disableZK env y.host).2) :=
    (disableZK_beside env).withLog log
  simp only [Server.onHost, handleZKKeyringDelete, hdisable]
  obtain ⟨h', e⟩ := Host.disableZK env y.host
  cases e <;> rfl

/-! ### Every request -/

/-- A request that asks neither for the log nor for the whole database. -/
theorem logs_dispatch (cfg : Config) (req : RouteRequest) (hdb : req.asksDatabase = false)
    (hlog : req.asksLog = false) : LogsAlike me t y fun y => y.dispatch cfg t me req := by
  cases req with
  | logout => exact logs_onStore (quiet_handleLogout t.deleted t.cookie)
  | whoami => exact logs_onHost (apart_handleWhoami cfg me)
  | version => exact LogsAlike.of_quiet fun _ => rfl
  | listCerts => exact logs_onStore fun _ _ => rfl
  | calendar => exact logs_onStore fun _ _ => rfl
  | calendarOne id => exact logs_onEntries apart_handleCalendarOne
  | listChannels => exact logs_onStore fun _ _ => rfl
  | createChannel body => exact logs_onStore (quiet_handleCreateChannel body)
  | deleteChannel id => exact logs_onStore quiet_handleDeleteChannel
  | testChannel id => exact logs_onStore quiet_handleTestChannel
  | listUsers => exact logs_onStore fun _ _ => rfl
  | createUser body => exact logs_onStore (quiet_handleCreateUser cfg.auth t.salt body)
  | deleteUser id => exact logs_onStore quiet_handleDeleteUser
  | scanStatus => exact LogsAlike.of_quiet fun _ => rfl
  | scanAll => exact logs_onEntries (apart_handleScanAll t.sweep)
  | backupKey => exact logs_onHost (apart_handleBackupKey cfg)
  | backupDB => exact absurd hdb (by decide)
  | vaultStatus => exact LogsAlike.of_quiet fun _ => rfl
  | vaultUnlock body => exact logs_onHost (apart_handleVaultUnlock body)
  | vaultLock => exact logs_onHost apart_handleVaultLock
  | vaultPassphrase body => exact logs_onHost (apart_handleVaultPassphrase t.vault body)
  | zkKeyringGet => exact logs_onHost apart_handleZKKeyringGet
  | zkKeyringSet body => exact logs_handleZKKeyringSet t.vault body
  | zkKeyringDelete => exact logs_handleZKKeyringDelete t.vault
  | webAuthnRegisterBegin => exact logs_registerBegin
  | webAuthnRegisterFinish body => exact logs_registerFinish body
  | listCredentials => exact logs_onStore fun _ _ => rfl
  | deleteCredential id => exact logs_handleDeleteCredential id
  | vaultWrapperGet cid => exact logs_onStore (quiet_handleVaultWrapperGet cid)
  | vaultWrapperSet cid body => exact logs_onStore (quiet_handleVaultWrapperSet cid body)
  | vaultWrapperDelete cid => exact logs_onStore (quiet_handleVaultWrapperDelete cid)
  | setup2FA => exact logs_onStore (quiet_handle2FASetup t.secret)
  | qr2FA => exact logs_onStore (quiet_handle2FAQR t.qr)
  | enable2FA body => exact logs_onStore (quiet_handle2FAEnable t.now body)
  | disable2FA body => exact logs_onStore (quiet_handle2FADisable t.now body)
  | scan body => exact logs_onEntries (apart_handleScan t.scan body)
  | createCert body =>
    -- the handler is given the vault beside the store
    obtain ⟨lines, hlines, hwith⟩ := @logs_onEntries me t y _ (apart_handleCreateCert y.host body)
    exact ⟨lines, hlines, hwith⟩
  | rescanCert id => exact logs_onEntries (apart_handleRescanCert t.sweep)
  | coverage id => exact logs_onEntries (apart_handleCoverage t.sweep)
  | trackDomain body => exact logs_onEntries (apart_handleTrackDomain t.lookup body)
  | domainCandidates body => exact logs_onStore (quiet_handleDomainCandidates body)
  | updateCert id body => exact logs_onEntries (apart_handleUpdateCert body)
  | deleteCert id => exact logs_onEntries apart_handleDeleteCert
  | revealSecret id =>
    obtain ⟨lines, hlines, hwith⟩ := @logs_onEntries me t y _ (apart_handleRevealSecret y.host)
    exact ⟨lines, hlines, hwith⟩
  | setSecret id body =>
    obtain ⟨lines, hlines, hwith⟩ := @logs_onEntries me t y _ (apart_handleSetSecret y.host body)
    exact ⟨lines, hlines, hwith⟩
  | listEvents kind limit => exact absurd hlog (by simp [RouteRequest.asksLog])

/-- What asks for the log or for the whole database only looks. -/
theorem dispatch_asking (cfg : Config) (req : RouteRequest)
    (hasks : req.asksDatabase = true ∨ req.asksLog = true) :
    (y.dispatch cfg t me req).1 = y := by
  cases req with
  | backupDB =>
    simp only [Server.dispatch, Server.onStore, handleBackupDB]
    split_ifs <;> rfl
  | listEvents kind limit => rfl
  | _ => simp [RouteRequest.asksDatabase, RouteRequest.asksLog] at hasks

end CertGuard
