import CertGuard.Notify.Message
import CertGuard.Server.Sessions
import CertGuard.Server.SignInRequests

/-!
# Requests about one's own account

The handlers behind a sign-in that work on accounts and on what belongs to one: users, TOTP,
notification channels, security keys and the wrappers of the vault's data key. Each runs by
itself, at one instant; its statements follow one another, and none fails but for the
constraints of the tables and for the one whose error is ignored at a sign-out.

## Main definitions

* `RouteBody` — what is answered behind a sign-in
* `RouteTurn` — what a request comes with and what its handler meets outside
* `handleListUsers`, `handleCreateUser`, `handleDeleteUser`, `handleLogout` — users
* `handle2FASetup`, `handle2FAQR`, `handle2FAEnable`, `handle2FADisable` — TOTP
* `handleListChannels`, `handleCreateChannel`, `handleDeleteChannel`, `handleTestChannel` —
  notification channels
* `handleWebAuthnRegisterBegin`, `handleWebAuthnRegisterFinish`, `handleListCredentials`,
  `handleDeleteCredential` — security keys
* `handleVaultWrapperGet`, `handleVaultWrapperSet`, `handleVaultWrapperDelete` — wrappers
-/

namespace CertGuard

/-! ### Answers -/

/-- A channel as an answer shows it. -/
structure ChannelBody where
  id : Int
  userId : Int
  type : ChannelType
  target : GoString
  thresholds : String
  enabled : Bool
  deriving DecidableEq, Repr

/-- A long target is cut, unless it is an e-mail address. -/
def Channel.redacted (c : Channel) : ChannelBody where
  id := c.id
  userId := c.userId
  type := c.type
  target :=
    if c.type ≠ .email ∧ 40 < c.target.utf8ByteSize then
      GoString.cut 40 c.target.toList ++ GoString.ofString "…"
    else GoString.ofString c.target
  thresholds := c.thresholds
  enabled := c.enabled

/-- A registered key as an answer shows it, with whether it opens the vault. -/
structure CredentialBody where
  id : Int
  credential : CredentialRow
  unlocksVault : Bool
  deriving DecidableEq, Repr

structure DomainCandidate where
  domain : String
  tracked : Bool
  fromHosts : List String
  /-- What the registry says, unless the domain is tracked. -/
  lookup : Option (Except String DomainResult) := none

structure VersionInfo where
  version : String
  commit : String := ""
  dirty : Bool := false
  buildDate : String := ""
  goVersion : String := ""
  os : String := ""
  arch : String := ""
  deriving DecidableEq, Repr

/-- What is answered behind a sign-in. -/
inductive RouteBody
  | entry (body : EntryBody)
  | entries (certs : List (Cert × Int))
  | status (status : String)
  | noContent
  | whoami (user : UserBody) (enabled unlocked passphrase zk ca : Bool) (caURL : String)
    (statusPublic : Bool)
  | version (info : VersionInfo)
  | user (user : UserBody)
  | users (users : List UserBody)
  | totp (secret uri : String)
  | png (image : String)
  | channel (channel : ChannelBody)
  | channels (channels : List ChannelBody)
  | creation (options : String)
  | credential (cred : CredentialBody)
  | credentials (creds : List CredentialBody)
  | wrapper (wrapped : Wrapped) (prfSalt : String)
  | vault (enabled unlocked passphrase : Bool)
  | keyring (keyring : ClientKeyring)
  | schedule (enabled : Bool) (intervalSeconds : Int)
  | key (material : List Char)
  | database (store : Store)
  | candidates (domains : List DomainCandidate)
  | events (events : List (Int × EventRow))

/-- What a request comes with besides its body, what its handler draws, and what it meets
outside. -/
structure RouteTurn where
  now : Int := 0
  /-- The hash of the bearer token. -/
  bearer : Option String := none
  /-- The hash of the session in the cookie. -/
  cookie : Option String := none
  /-- The ceremony in the cookie. -/
  ceremony : Option String := none
  /-- The name for a key in the query. -/
  label : String := ""
  /-- Whether the `DELETE` of a sign-out succeeds. -/
  deleted : Bool := true
  /-- `webAuthnFor`, of the host the request was sent to. -/
  webAuthn : Except String KeyLibrary
  challenge : String := ""
  token : String := ""
  /-- `GenerateSecret`. -/
  secret : String := ""
  salt : Nat := 0
  /-- `qrcode.Encode`. -/
  qr : String → Except String String
  /-- The sender, if notifications are enabled. -/
  sender : Option (Channel → Message → Except String Unit) := none
  /-- What the vault meets. -/
  vault : VaultEnv
  /-- What handlers meet that look again at entries. -/
  sweep : SweepEnv
  /-- What comes of connecting to an address under a name. -/
  scan : String → Int → String → Except String Served
  /-- What the registries say of a domain. -/
  lookup : String → Except LookupError DomainResult
  /-- `rdap.Registrable`. -/
  registrable : String → Option String

/-- A path that is to hold an id, as `strconv.ParseInt` reads it. -/
def withPathID {σ β : Type} (s : σ) (path : Option Int) (handle : Int → σ × Answer β) :
    σ × Answer β :=
  match path with
  | none => (s, writeErr 400 "invalid id")
  | some id => handle id

/-! ### Users -/

structure CreateUserRequest where
  email : String
  password : String
  role : String := ""
  deriving DecidableEq, Repr

def handleListUsers (s : Store) : Store × Answer RouteBody :=
  (s, writeJSON 200 (.users (s.users.rows.map fun r => (scanUser r.1 r.2).body)))

/-- The address has to be new, and a role that is not given is that of a viewer. -/
def handleCreateUser (cfg : AuthConfig) (salt : Nat) (s : Store)
    (body : Option CreateUserRequest) : Store × Answer RouteBody :=
  match body with
  | none => (s, writeErr 400 "invalid JSON body")
  | some req =>
    if req.email = "" then (s, writeErr 400 "email is required")
    else
      match Role.ofText (if req.role = "" then "viewer" else req.role) with
      | none => (s, writeErr 400 "role must be admin or viewer")
      | some role =>
        match hashPasswordErr cfg req.password salt with
        | .error msg => (s, writeErr 400 msg)
        | .ok hash =>
          let row : UserRow := { email := req.email, passwordHash := hash, role := role }
          if s.TakesUser row then
            (s.createUser row, writeJSON 201 (.user (scanUser s.users.nextKey row).body))
          else (s, writeErr 409 "could not create user (email may already exist)")

/-- Anybody but oneself. -/
def handleDeleteUser (me : User) (s : Store) (path : Option Int) : Store × Answer RouteBody :=
  withPathID s path fun id =>
    if me.id = id then (s, writeErr 400 "you can't delete your own account")
    else if (s.users.get? id).isSome then (s.deleteUser id, writeJSON 204 .noContent)
    else (s, writeErr 404 "user not found")

/-- `handleLogout`; it does not ask whether the session could be deleted. -/
def handleLogout (deleted : Bool) (cookie : Option String) (s : Store) : Store × Answer RouteBody :=
  (if deleted then cookie.elim s s.deleteSession else s, writeJSON 200 (.status "logged out"))

/-! ### TOTP -/

/-- The bytes of a text, each as it is or in hexadecimal. -/
def percentEncode (keep : Char → Bool) (text : String) : String :=
  String.ofList (text.toUTF8.toList.flatMap fun b =>
    if keep (Char.ofNat b.toNat) then [Char.ofNat b.toNat]
    else ['%', (Nat.digitChar (b.toNat / 16)).toUpper, (Nat.digitChar (b.toNat % 16)).toUpper])

/-- A character no part of a URL has to escape. -/
def urlUnreserved (c : Char) : Bool := c.isAlphanum || c = '-' || c = '_' || c = '.' || c = '~'

/-- `url.PathEscape`. -/
def pathEscape : String → String :=
  percentEncode fun c => urlUnreserved c || "$&+=:@".toList.contains c

/-- `url.QueryEscape`; a blank becomes a plus sign. -/
def queryEscape (text : String) : String :=
  (percentEncode (fun c => urlUnreserved c || c = ' ') text).map fun c => if c = ' ' then '+' else c

/-- `ProvisioningURI`; the parameters are in the order of their names. -/
def provisioningURI (secret account issuer : String) : String :=
  "otpauth://totp/" ++ pathEscape (issuer ++ ":" ++ account) ++ "?digits=6&issuer=" ++
    queryEscape issuer ++ "&period=30&secret=" ++ queryEscape secret

/-- Stores a new secret that is not enabled yet. -/
def handle2FASetup (me : User) (secret : String) (s : Store) : Store × Answer RouteBody :=
  if me.totpEnabled then (s, writeErr 409 "two-factor is already enabled")
  else
    (s.setUserTOTP me.id secret false,
      writeJSON 200 (.totp secret (provisioningURI secret me.email "certguard")))

def handle2FAQR (me : User) (qr : String → Except String String) (s : Store) :
    Store × Answer RouteBody :=
  match (s.getUserByID me.id).filter fun user => user.totpSecret ≠ "" with
  | none => (s, writeErr 404 "no authenticator secret; start setup first")
  | some user =>
    match qr (provisioningURI user.totpSecret user.email "certguard") with
    | .error msg => (s, writeErr 500 msg)
    | .ok image => (s, writeJSON 200 (.png image))

/-- A code of the new secret enables it; its step is not recorded as used. -/
def handle2FAEnable (me : User) (now : Int) (s : Store) (body : Option String) :
    Store × Answer RouteBody :=
  match body with
  | none => (s, writeErr 400 "invalid JSON body")
  | some code =>
    match (s.getUserByID me.id).filter fun user => user.totpSecret ≠ "" with
    | none => (s, writeErr 400 "start setup first")
    | some user =>
      match validateStep user.totpSecret code now with
      | none => (s, writeErr 400 "incorrect code")
      | some _ =>
        (s.setUserTOTP user.id user.totpSecret true, writeJSON 200 (.status "enabled"))

/-- A code disables the second factor and forgets its secret. -/
def handle2FADisable (me : User) (now : Int) (s : Store) (body : Option String) :
    Store × Answer RouteBody :=
  match body with
  | none => (s, writeErr 400 "invalid JSON body")
  | some code =>
    match (s.getUserByID me.id).filter fun user => user.totpEnabled with
    | none => (s, writeErr 400 "two-factor is not enabled")
    | some user =>
      match validateStep user.totpSecret code now with
      | none => (s, writeErr 400 "incorrect code")
      | some _ => (s.setUserTOTP user.id "" false, writeJSON 200 (.status "disabled"))

/-! ### Notification channels -/

namespace Store

def listChannels (s : Store) (userId : Int) : List Channel :=
  (s.channels.rows.filter fun r => r.2.userId = userId).map fun r => scanChannel r.1 r.2

def getChannel (s : Store) (id : Int) : Option Channel := (s.channels.get? id).map (scanChannel id)

/-- `DeleteChannel`, of anybody's channel where the user is 0; `none` when there is none. -/
def deleteChannel (s : Store) (id userId : Int) : Option Store :=
  match s.channels.get? id with
  | none => none
  | some r =>
    if userId = 0 ∨ r.userId = userId then some { s with channels := s.channels.erase id } else none

end Store

/-- A type a channel may be given, by its text. -/
def ChannelType.ofText (text : String) : Option ChannelType :=
  if text = "email" then some .email
  else if text = "slack" then some .slack
  else if text = "discord" then some .discord
  else if text = "webhook" then some .webhook
  else none

structure CreateChannelRequest where
  type : String
  target : String
  thresholds : String := ""
  deriving DecidableEq, Repr

def handleListChannels (me : User) (s : Store) : Store × Answer RouteBody :=
  (s, writeJSON 200 (.channels ((s.listChannels me.id).map Channel.redacted)))

def handleCreateChannel (me : User) (s : Store) (body : Option CreateChannelRequest) :
    Store × Answer RouteBody :=
  match body with
  | none => (s, writeErr 400 "invalid JSON body")
  | some req =>
    match ChannelType.ofText req.type with
    | none => (s, writeErr 400 "type must be email, slack, discord, or webhook")
    | some type =>
      if req.target = "" then (s, writeErr 400 "target is required")
      else
        let row : ChannelRow :=
          { userId := me.id, type := type, target := req.target, thresholds := req.thresholds }
        ({ s with channels := s.channels.insert row },
          writeJSON 201 (.channel (scanChannel s.channels.nextKey row).redacted))

def handleDeleteChannel (me : User) (s : Store) (path : Option Int) : Store × Answer RouteBody :=
  withPathID s path fun id =>
    match s.deleteChannel id me.id with
    | none => (s, writeErr 404 "channel not found")
    | some s => (s, writeJSON 204 .noContent)

/-- The entry a test notification is about. It has a name and an expiry only; no message looks
at its kind. -/
def sampleCert (now : Int) : Cert where
  id := 0
  name := "certguard-test.example.com"
  kind := .manual
  category := ""
  host := ""
  port := 0
  serverName := ""
  subject := []
  issuer := []
  serial := ""
  sha256 := ""
  notBefore := 0
  expiresAt := now + 3 * 86400 * Rfc3339.oneSecond
  dnsNames := []
  keyType := ""
  sigAlg := ""
  chain := []
  autoRescan := false
  lastScannedAt := none
  lastError := ""
  notes := ""
  active := false
  createdAt := 0
  secretEnc := Sealed.empty
  lastNotifiedThreshold := 0
  lastNotifiedOn := none
  lastChainNotifiedThreshold := 0

/-- Sends a test notification through one of one's own channels. -/
def handleTestChannel (me : User) (t : RouteTurn) (s : Store) (path : Option Int) :
    Store × Answer RouteBody :=
  withPathID s path fun id =>
    match (s.getChannel id).filter fun ch => ch.userId = me.id with
    | none => (s, writeErr 404 "channel not found")
    | some ch =>
      match t.sender with
      | none => (s, writeErr 503 "notifications are not enabled on this server")
      | some send =>
        let msg := { buildMessage (sampleCert t.now) 3 t.now with
          subject := GoString.ofString "[certguard] test notification" }
        match send ch msg with
        | .error text => (s, writeErr 502 ("send failed: " ++ text))
        | .ok _ => (s, writeJSON 200 (.status "sent"))

/-! ### Security keys -/

/-- A store with the ceremonies in memory. -/
structure KeyState where
  store : Store
  ceremonies : CeremonyStore

def handleWebAuthnRegisterBegin (me : User) (t : RouteTurn) (y : KeyState) :
    KeyState × Answer RouteBody :=
  match t.webAuthn with
  | .error msg => (y, writeErr 400 msg)
  | .ok lib =>
    let wu := webAuthnUserFor y.store me
    match lib.beginRegistration wu (wu.creds.map CredentialRow.credentialId) t.challenge with
    | .error err => (y, writeErr 500 ("could not begin registration: " ++ err.text))
    | .ok begun =>
      let cer : Ceremony := ⟨begun.2, me.id, t.now + ceremonyTTL⟩
      ({ y with ceremonies := y.ceremonies.put Ceremony.expires t.now t.token cer },
        writeJSON 200 (.creation begun.1))

/-- The row `handleWebAuthnRegisterFinish` has `AddCredential` insert. -/
def credentialRow (me : User) (label : String) (cred : WebAuthn.Credential) : CredentialRow where
  userId := me.id
  credentialId := cred.id
  publicKey := cred.publicKey
  signCount := cred.signCount
  name := credentialLabel label

/-- `AddCredential` succeeds. -/
def Store.TakesCredential (s : Store) (row : CredentialRow) : Prop :=
  (s.users.get? row.userId).isSome ∧
    ∀ r ∈ s.credentials.rows, r.2.credentialId ≠ row.credentialId

instance (s : Store) (row : CredentialRow) : Decidable (s.TakesCredential row) :=
  inferInstanceAs (Decidable (_ ∧ ∀ r ∈ s.credentials.rows, r.2.credentialId ≠ row.credentialId))

/-- Stores the new key under its label, and logs the label. -/
def handleWebAuthnRegisterFinish (me : User) (t : RouteTurn) (y : KeyState) (body : String) :
    KeyState × Answer RouteBody :=
  let cer := t.ceremony.bind fun token => y.ceremonies.take Ceremony.expires t.now token
  let y := { y with ceremonies := t.ceremony.elim y.ceremonies y.ceremonies.remove }
  match cer.filter fun cer => cer.userID = me.id with
  | none => (y, writeErr 400 "no registration in progress — start again")
  | some cer =>
    match t.webAuthn with
    | .error msg => (y, writeErr 400 msg)
    | .ok lib =>
      match lib.finishRegistration (webAuthnUserFor y.store me) cer.session body with
      | .error err => (y, writeErr 400 ("registration failed: " ++ protocolErr err))
      | .ok cred =>
        let row := credentialRow me t.label cred
        if y.store.TakesCredential row then
          let s := recordAccountEvent t.now (y.store.addCredential row) .keyAdded me.email me.email
            (.keyRegistered row.name)
          -- the id of the row is not read back
          ({ y with store := s }, writeJSON 201 (.credential ⟨0, row, false⟩))
        else (y, writeErr 500 "could not save credential")

def handleListCredentials (me : User) (s : Store) : Store × Answer RouteBody :=
  let rows := s.credentials.rows.filter fun r => r.2.userId = me.id
  (s, writeJSON 200 (.credentials (rows.map fun r =>
    ⟨r.1, r.2, (s.vaultWrapper r.2.credentialId).isSome⟩)))

/-- `handleDeleteCredential`, which does not say whether there was one. -/
def handleDeleteCredential (me : User) (now : Int) (s : Store) (path : Option Int) :
    Store × Answer RouteBody :=
  withPathID s path fun id =>
    (recordAccountEvent now (s.deleteCredential id me.id) .keyRemoved me.email me.email
      (.plain (GoString.ofString "removed a security key")), writeJSON 204 .noContent)

/-! ### Wrappers -/

/-- The key of an id, if it is one's own. -/
def ownedCredential (me : User) (s : Store) (cid : String) : Option CredentialRow :=
  (s.credentialByID cid).filter fun c => c.userId = me.id

def handleVaultWrapperGet (me : User) (s : Store) (cid : String) : Store × Answer RouteBody :=
  match ownedCredential me s cid with
  | none => (s, writeErr 404 "no such security key")
  | some c =>
    match s.vaultWrapper c.credentialId with
    | none => (s, writeErr 404 "this key does not unlock the vault")
    | some w => (s, writeJSON 200 (.wrapper w.wrapped w.prfSalt))

/-- `handleVaultWrapperSet`; the body is a wrapped key and the salt of its key. -/
def handleVaultWrapperSet (me : User) (s : Store) (cid : String)
    (body : Option (Wrapped × String)) : Store × Answer RouteBody :=
  match ownedCredential me s cid with
  | none => (s, writeErr 404 "no such security key")
  | some c =>
    match body with
    | none => (s, writeErr 400 "invalid JSON body")
    | some (wrapped, prfSalt) =>
      if wrapped = Sealed.empty ∨ prfSalt = "" then
        (s, writeErr 400 "wrapped and prf_salt are required")
      else
        ((s.deleteVaultWrapper c.credentialId).insertVaultWrapper
            ⟨c.credentialId, wrapped, prfSalt⟩,
          writeJSON 200 (.status "ok"))

def handleVaultWrapperDelete (me : User) (s : Store) (cid : String) : Store × Answer RouteBody :=
  match ownedCredential me s cid with
  | none => (s, writeErr 404 "no such security key")
  | some c => (s.deleteVaultWrapper c.credentialId, writeJSON 204 .noContent)

end CertGuard
