import CertGuard.Server.AccountRequests

/-!
# Everything behind a sign-in

The remaining handlers, the middleware that finds out who asks, and the routes that need a
sign-in, which every request goes through.

## Main definitions

* `Config`, `Server` — the configuration the handlers read, and the server
* `handleVaultUnlock`, `handleVaultLock`, `handleVaultPassphrase`, `handleZKKeyringGet`,
  `handleZKKeyringSet`, `handleZKKeyringDelete` — the vault
* `handleListCerts`, `handleCalendar`, `handleDomainCandidates`, `handleListEvents`,
  `handleBackupKey`, `handleBackupDB` — what can be looked at
* `RouteRequest`, `RouteRequest.adminOnly` — the routes, and those for admins only
* `Server.dispatch` — the handlers
* `Server.authed` — the middleware
-/

namespace CertGuard

/-- What the handlers read of the configuration. -/
structure Config where
  auth : AuthConfig
  masterKey : List Char := []
  schedulerEnabled : Bool := true
  intervalSeconds : Int := 86400
  caFile : String := ""
  caDownloadURL : String := ""
  statusPublic : Bool := false
  sqlite : Bool := true
  version : VersionInfo

/-- The server: the vault with its tables and its key file, and the ceremonies in memory. -/
structure Server where
  host : Host
  ceremonies : CeremonyStore := fun _ => none

/-- The tables. -/
abbrev Server.store (y : Server) : Store := y.host.store

/-! ### The vault -/

/-- What `status` answers. -/
def Vault.status (v : Vault) : RouteBody := .vault v.enabled v.box.isSome (v.mode = .passphrase)

/-- The answer to a call that fails or not. -/
def vaultAnswer (status : Nat) (ok : String) : Option VaultError → Answer RouteBody
  | some e => writeErr status (e.message.getD "")
  | none => writeJSON 200 (.status ok)

def handleVaultUnlock (h : Host) (body : Option String) : Host × Answer RouteBody :=
  match body with
  | none => (h, writeErr 400 "invalid JSON body")
  | some passphrase => ((h.unlock passphrase).1, vaultAnswer 400 "unlocked" (h.unlock passphrase).2)

def handleVaultLock (h : Host) : Host × Answer RouteBody :=
  (h.lock, writeJSON 200 (.status "locked"))

/-- `handleVaultPassphrase`; the body is the current passphrase and the new one. -/
def handleVaultPassphrase (env : VaultEnv) (h : Host) (body : Option (String × String)) :
    Host × Answer RouteBody :=
  match body with
  | none => (h, writeErr 400 "invalid JSON body")
  | some (currentPass, newPass) =>
    if newPass ≠ "" ∧ newPass.utf8ByteSize < 8 then
      (h, writeErr 400 "passphrase must be at least 8 characters")
    else
      ((h.setPassphrase env currentPass newPass).1,
        vaultAnswer 400 "ok" (h.setPassphrase env currentPass newPass).2)

def handleZKKeyringGet (h : Host) : Host × Answer RouteBody :=
  if h.vault.zk = false then (h, writeErr 404 "zero-knowledge mode is not enabled")
  else (h, writeJSON 200 (.keyring h.zkKeyring))

/-- The loop of `handleZKKeyringSet`, which ignores the entries that are gone. -/
def storeSecrets (s : Store) (secrets : List (Int × Cipher)) : Store :=
  secrets.foldl (fun s sec => (s.setSecret sec.1 sec.2).getD s) s

/-- Turns zero-knowledge mode on, or rotates its passphrase, and stores the secrets sealed again. -/
def handleZKKeyringSet (env : VaultEnv) (h : Host) (body : Option KeyringReq) :
    Host × Answer RouteBody :=
  match body with
  | none => (h, writeErr 400 "invalid JSON body")
  | some req =>
    if req.keyring.wrapped = Sealed.empty ∨ req.keyring.salt = "" ∨ req.keyring.iters = "" then
      (h, writeErr 400 "wrapped, salt, and iters are required")
    else
      let wasOn := h.vault.zk
      match h.enableZK env req.keyring.wrapped req.keyring.salt req.keyring.iters with
      | (h, some e) => (h, writeErr 500 (e.message.getD ""))
      | (h, none) =>
        -- a new data key makes the wrappers worthless, the same one does not
        let s := if wasOn then h.store else h.store.clearVaultWrappers
        ({ h with store := storeSecrets s req.secrets }, writeJSON 200 (.status "ok"))

def handleZKKeyringDelete (env : VaultEnv) (h : Host) : Host × Answer RouteBody :=
  match h.disableZK env with
  | (h, some e) => (h, writeErr 500 (e.message.getD ""))
  | (h, none) => ({ h with store := h.store.clearVaultWrappers }, writeJSON 200 (.status "ok"))

/-! ### What can be looked at -/

def handleWhoami (cfg : Config) (me : User) (h : Host) : Host × Answer RouteBody :=
  let caURL := if cfg.caDownloadURL = "" then "/ca.crt" else cfg.caDownloadURL
  (h, writeJSON 200 (.whoami me.body h.vault.enabled h.vault.box.isSome
    (h.vault.mode = .passphrase) h.vault.zk (cfg.caFile ≠ "" ∨ cfg.caDownloadURL ≠ "") caURL
    cfg.statusPublic))

def handleListCerts (now : Int) (s : Store) : Store × Answer RouteBody :=
  (s, writeJSON 200 (.entries (s.list.map fun c => (c, c.daysRemaining now))))

/-- `handleCalendar`; the calendar is made of the entries. -/
def handleCalendar (s : Store) : Store × Answer RouteBody :=
  (s, writeJSON 200 (.entry (.calendar s.list)))

/-- The domains of `handleDomainCandidates`, each with the hosts it was found behind. -/
def candidateDomains (registrable : String → Option String) (hosts : List String) :
    List (String × List String) :=
  let found := hosts.filterMap fun h => (registrable h).map fun d => (d, h)
  -- a domain stands where it was seen first
  ((found.map Prod.fst).eraseDups.take 40).map fun d =>
    (d, (found.filter fun p => p.1 = d).map Prod.snd)

/-- The domains behind the hosts, each with what a registry says unless it is tracked already. -/
def handleDomainCandidates (t : RouteTurn) (s : Store) (body : Option (List String)) :
    Store × Answer RouteBody :=
  match body with
  | none => (s, writeErr 400 "invalid JSON body")
  | some [] => (s, writeErr 400 "hosts is required")
  | some hosts =>
    let tracked := (s.list.filter fun c => c.kind = .domain).map fun c => c.host.toLower
    (s, writeJSON 200 (.candidates ((candidateDomains t.registrable hosts).map fun p =>
      { domain := p.1
        tracked := p.1 ∈ tracked
        fromHosts := p.2
        lookup :=
          if p.1 ∈ tracked then none
          else some ((t.lookup p.1).mapError LookupError.msg) })))

/-- The latest lines of the log, of one kind or of all. -/
def Store.listEvents (s : Store) (kind : String) (limit : Nat) : List (Int × EventRow) :=
  let rows := s.events.rows.filter fun r => kind = "" ∨ r.2.kind.text = kind
  -- the latest first, and of one second the last
  (rows.insertionSort fun r r' =>
    r'.2.atTime < r.2.atTime ∨ r'.2.atTime = r.2.atTime ∧ r'.1 ≤ r.1).take limit

/-- `handleListEvents`; the limit is what `strconv.Atoi` makes of the query. -/
def handleListEvents (s : Store) (kind : String) (limit : Option Int) : Store × Answer RouteBody :=
  let limit := match limit with
    | some n => if 0 < n then n else 200
    | none => 200
  (s, writeJSON 200 (.events (s.listEvents kind (min limit 1000).toNat)))

/-- The master key or the key file, where the vault is under one. -/
def handleBackupKey (cfg : Config) (h : Host) : Host × Answer RouteBody :=
  if h.vault.enabled = false then (h, writeErr 503 "secret vault not enabled")
  else if h.vault.zk then
    (h, writeErr 409 ("zero-knowledge mode — the server has no key; your recovery is the vault " ++
      "passphrase plus a database backup"))
  else if h.vault.mode = .passphrase then
    (h, writeErr 409 ("vault is passphrase-protected — there is no key file to download; your " ++
      "recovery is your passphrase plus a database backup"))
  else if cfg.masterKey ≠ [] then (h, writeJSON 200 (.key cfg.masterKey))
  else
    match h.keyFile with
    | none => (h, writeErr 500 "no key file to read")
    | some content => (h, writeJSON 200 (.key (trimSpace content)))

/-- A copy of the database, of SQLite only. -/
def handleBackupDB (cfg : Config) (s : Store) : Store × Answer RouteBody :=
  if cfg.sqlite = false then
    (s, writeErr 400
      "database download is only available for SQLite (use pg_dump for Postgres)")
  else (s, writeJSON 200 (.database s))

/-! ### Routes -/

/-- A request behind a sign-in, with its path, its query and its body. An id in a path is what
`strconv.ParseInt` makes of it, and a body is `none` where it is no such JSON. -/
inductive RouteRequest
  | logout
  | whoami
  | version
  | listCerts
  | calendar
  | calendarOne (id : Option Int)
  | listChannels
  | createChannel (body : Option CreateChannelRequest)
  | deleteChannel (id : Option Int)
  | testChannel (id : Option Int)
  | listUsers
  | createUser (body : Option CreateUserRequest)
  | deleteUser (id : Option Int)
  | scanStatus
  | scanAll
  | backupKey
  | backupDB
  | vaultStatus
  | vaultUnlock (body : Option String)
  | vaultLock
  | vaultPassphrase (body : Option (String × String))
  | zkKeyringGet
  | zkKeyringSet (body : Option KeyringReq)
  | zkKeyringDelete
  | webAuthnRegisterBegin
  | webAuthnRegisterFinish (body : String)
  | listCredentials
  | deleteCredential (id : Option Int)
  | vaultWrapperGet (cid : String)
  | vaultWrapperSet (cid : String) (body : Option (Wrapped × String))
  | vaultWrapperDelete (cid : String)
  | setup2FA
  | qr2FA
  | enable2FA (body : Option String)
  | disable2FA (body : Option String)
  | scan (body : Option ScanRequest)
  | createCert (body : Option CreateCertRequest)
  | rescanCert (id : Option Int)
  | coverage (id : Option Int)
  | trackDomain (body : Option TrackRequest)
  | domainCandidates (body : Option (List String))
  | updateCert (id : Option Int) (body : Option UpdateCertRequest)
  | deleteCert (id : Option Int)
  | revealSecret (id : Option Int)
  | setSecret (id : Option Int) (body : Option SetSecretRequest)
  | listEvents (kind : String) (limit : Option Int)

/-- The routes that go through `adminOnly`. -/
def RouteRequest.adminOnly : RouteRequest → Bool
  | listUsers | createUser _ | deleteUser _ | scanAll | backupKey | backupDB => true
  | vaultUnlock _ | vaultLock | vaultPassphrase _ | zkKeyringSet _ | zkKeyringDelete => true
  | vaultWrapperSet _ _ | vaultWrapperDelete _ => true
  | scan _ | createCert _ | rescanCert _ | coverage _ | trackDomain _ | domainCandidates _ => true
  | updateCert _ _ | deleteCert _ | revealSecret _ | setSecret _ _ => true
  | _ => false

namespace Server

/-- The answer of a handler that works on entries. -/
def entryAnswer (ans : Answer EntryBody) : Answer RouteBody := ⟨ans.status, ans.body.map .entry⟩

/-- What a handler does that works on the tables. -/
def onStore (y : Server) (handle : Store → Store × Answer RouteBody) : Server × Answer RouteBody :=
  let res := handle y.store
  ({ y with host := { y.host with store := res.1 } }, res.2)

/-- What a handler does that works on entries. -/
def onEntries (y : Server) (handle : Store → Store × Answer EntryBody) :
    Server × Answer RouteBody :=
  y.onStore fun s => ((handle s).1, entryAnswer (handle s).2)

/-- What a handler does that works on the vault. -/
def onHost (y : Server) (handle : Host → Host × Answer RouteBody) : Server × Answer RouteBody :=
  let res := handle y.host
  ({ y with host := res.1 }, res.2)

/-- What a handler does that works on the ceremonies. -/
def onKeys (y : Server) (handle : KeyState → KeyState × Answer RouteBody) :
    Server × Answer RouteBody :=
  let res := handle ⟨y.store, y.ceremonies⟩
  (⟨{ y.host with store := res.1.store }, res.1.ceremonies⟩, res.2)

/-- The handlers. -/
def dispatch (cfg : Config) (t : RouteTurn) (me : User) (y : Server) :
    RouteRequest → Server × Answer RouteBody
  | .logout => y.onStore (handleLogout t.deleted t.cookie)
  | .whoami => y.onHost (handleWhoami cfg me)
  | .version => (y, writeJSON 200 (.version cfg.version))
  | .listCerts => y.onStore (handleListCerts t.now)
  | .calendar => y.onStore handleCalendar
  | .calendarOne id => y.onEntries fun s => handleCalendarOne s id
  | .listChannels => y.onStore (handleListChannels me)
  | .createChannel body => y.onStore fun s => handleCreateChannel me s body
  | .deleteChannel id => y.onStore fun s => handleDeleteChannel me s id
  | .testChannel id => y.onStore fun s => handleTestChannel me t s id
  | .listUsers => y.onStore handleListUsers
  | .createUser body => y.onStore fun s => handleCreateUser cfg.auth t.salt s body
  | .deleteUser id => y.onStore fun s => handleDeleteUser me s id
  | .scanStatus => (y, writeJSON 200 (.schedule cfg.schedulerEnabled cfg.intervalSeconds))
  | .scanAll => y.onEntries (handleScanAll t.sweep)
  | .backupKey => y.onHost (handleBackupKey cfg)
  | .backupDB => y.onStore (handleBackupDB cfg)
  | .vaultStatus => (y, writeJSON 200 y.host.vault.status)
  | .vaultUnlock body => y.onHost fun h => handleVaultUnlock h body
  | .vaultLock => y.onHost handleVaultLock
  | .vaultPassphrase body => y.onHost fun h => handleVaultPassphrase t.vault h body
  | .zkKeyringGet => y.onHost handleZKKeyringGet
  | .zkKeyringSet body => y.onHost fun h => handleZKKeyringSet t.vault h body
  | .zkKeyringDelete => y.onHost (handleZKKeyringDelete t.vault)
  | .webAuthnRegisterBegin => y.onKeys (handleWebAuthnRegisterBegin me t)
  | .webAuthnRegisterFinish body => y.onKeys fun y => handleWebAuthnRegisterFinish me t y body
  | .listCredentials => y.onStore (handleListCredentials me)
  | .deleteCredential id => y.onStore fun s => handleDeleteCredential me t.now s id
  | .vaultWrapperGet cid => y.onStore fun s => handleVaultWrapperGet me s cid
  | .vaultWrapperSet cid body => y.onStore fun s => handleVaultWrapperSet me s cid body
  | .vaultWrapperDelete cid => y.onStore fun s => handleVaultWrapperDelete me s cid
  | .setup2FA => y.onStore (handle2FASetup me t.secret)
  | .qr2FA => y.onStore (handle2FAQR me t.qr)
  | .enable2FA body => y.onStore fun s => handle2FAEnable me t.now s body
  | .disable2FA body => y.onStore fun s => handle2FADisable me t.now s body
  | .scan body => y.onEntries fun s => handleScan me.email t.now t.scan s body
  | .createCert body =>
    y.onEntries fun s => handleCreateCert me.email t.now { y.host with store := s } body
  | .rescanCert id => y.onEntries fun s => handleRescanCert t.sweep s id
  | .coverage id => y.onEntries fun s => handleCoverage t.sweep s id
  | .trackDomain body => y.onEntries fun s => handleTrackDomain me.email t.now t.lookup s body
  | .domainCandidates body => y.onStore fun s => handleDomainCandidates t s body
  | .updateCert id body => y.onEntries fun s => handleUpdateCert me.email t.now s id body
  | .deleteCert id => y.onEntries fun s => handleDeleteCert me.email t.now s id
  | .revealSecret id => y.onEntries fun s => handleRevealSecret { y.host with store := s } id
  | .setSecret id body => y.onEntries fun s => handleSetSecret { y.host with store := s } id body
  | .listEvents kind limit => y.onStore fun s => handleListEvents s kind limit

/-- `authed` and `adminOnly` around a handler. -/
def authed (cfg : Config) (t : RouteTurn) (y : Server) (req : RouteRequest) :
    Server × Answer RouteBody :=
  match resolveUser y.store t.now t.bearer t.cookie with
  | none =>
    -- a session past its end is removed on the way
    let s := (sweepSession y.store t.now t.bearer t.cookie).apply y.store
    ({ y with host := { y.host with store := s } }, writeErr 401 "authentication required")
  | some me =>
    if req.adminOnly = true ∧ me.isAdmin = false then (y, writeErr 403 "admin role required")
    else y.dispatch cfg t me req

end Server

end CertGuard
