import CertGuard.Server.Ceremonies
import CertGuard.Server.EntryRequests

/-!
# Requests to sign in

The handlers nobody has to be signed in for, with what they answer: a password, a security key
with or without one, a passkey, and the first account. Each runs by itself here, at one instant;
its statements follow one another, and none fails but for the constraints of the tables.

## Main definitions

* `RateLimiter`, `RateLimiter.allow` — how many attempts an address has
* `KeyLibrary`, `protocolErr` — the library, with the texts that go out
* `SignIn` — the store, the ceremonies and the attempts
* `SignIn.handleLogin`, `SignIn.handleWebAuthnLoginBegin`, `SignIn.handleWebAuthnLoginFinish`,
  `SignIn.handlePasskeyBegin`, `SignIn.handlePasskeyFinish`, `SignIn.handleSetupStatus`,
  `SignIn.handleSetup` — the handlers
* `SignIn.serve` — what is done with a request

## Main results

* `SignIn.toOption_discoverableUser` — a passkey leads to the same account as statement by
  statement
-/

namespace CertGuard

/-! ### The rate limiter -/

/-- `rateLimiter`: the attempts of every client it knows. -/
structure RateLimiter where
  hits : String → Option (List Int) := fun _ => none
  max : Nat
  window : Int

/-- Lets an attempt pass, and keeps it, if fewer than `max` are left in the window. -/
def RateLimiter.allow (rl : RateLimiter) (key : String) (now : Int) : RateLimiter × Bool :=
  let kept := ((rl.hits key).getD []).filter fun time => now - rl.window < time
  if rl.max ≤ kept.length then
    ({ rl with hits := Function.update rl.hits key (some kept) }, false)
  else ({ rl with hits := Function.update rl.hits key (some (kept ++ [now])) }, true)

/-- The limiter of `New`: 10 attempts in 15 minutes. -/
def loginLimiter : RateLimiter where
  max := 10
  window := 900 * Rfc3339.oneSecond

/-! ### The library -/

/-- An error of the library; one that is no `protocol.Error` has no details. -/
structure KeyError where
  text : String
  details : String := ""
  devInfo : String := ""
  deriving DecidableEq, Repr

def protocolErr (err : KeyError) : String :=
  if err.details ≠ "" then
    if err.devInfo ≠ "" then err.details ++ " (" ++ err.devInfo ++ ")" else err.details
  else err.text

/-- The library as `webAuthnFor` sets it up. What begins a ceremony gives the options for the
browser, as text, and the session to keep; its last argument is the challenge it draws. -/
structure KeyLibrary where
  /-- With the keys to exclude. -/
  beginRegistration : WebAuthnUser → List String → String →
    Except KeyError (String × SessionData)
  finishRegistration : WebAuthnUser → SessionData → String → Except KeyError WebAuthn.Credential
  /-- With the verification an option asks for. -/
  beginLogin : WebAuthnUser → Option UserVerification → String →
    Except KeyError (String × SessionData)
  finishLogin : WebAuthnUser → SessionData → String → Except KeyError WebAuthn.Credential
  beginDiscoverableLogin : Option UserVerification → String →
    Except KeyError (String × SessionData)
  /-- With a lookup by key and user handle. -/
  finishPasskeyLogin : (String → String → Except String WebAuthnUser) → SessionData → String →
    Except KeyError (WebAuthnUser × WebAuthn.Credential)

/-- A library that accepts no assertion and asks for a key by its name. -/
def demoKeys : KeyLibrary where
  beginRegistration wu exclude challenge :=
    .ok (String.join (challenge :: exclude), ⟨challenge, wu.webAuthnID, [], .preferred⟩)
  finishRegistration _ _ body := .ok { id := body }
  beginLogin wu uv challenge :=
    let ids := wu.creds.map CredentialRow.credentialId
    .ok (String.join (challenge :: ids), ⟨challenge, wu.webAuthnID, ids, uv.getD .unset⟩)
  finishLogin _ _ _ := .error ⟨"verification failed", "", ""⟩
  beginDiscoverableLogin uv challenge := .ok (challenge, ⟨challenge, "", [], uv.getD .unset⟩)
  finishPasskeyLogin lookup _ body :=
    match lookup "key" body with
    | .error text => .error ⟨text, "lookup failed", text⟩
    | .ok _ => .error ⟨"verification failed", "", ""⟩

/-! ### Requests and answers -/

structure LoginRequest where
  email : String
  password : String := ""
  code : String := ""
  deriving DecidableEq, Repr

/-- A user as an answer shows it. -/
structure UserBody where
  id : Int
  email : String
  role : Role
  totpEnabled : Bool
  deriving DecidableEq, Repr

/-- What is serialized of a user. -/
def User.body (user : User) : UserBody := ⟨user.id, user.email, user.role, user.totpEnabled⟩

/-- What is answered to a request to sign in. -/
inductive SignInBody
  | user (user : UserBody)
  /-- The methods of a second factor that is still asked for. -/
  | secondFactor (methods : List String)
  | needsSetup (needed : Bool)
  | assertion (options : String)
  deriving DecidableEq, Repr

/-- What a request comes with besides its body, and what its handler draws. -/
structure SignInTurn where
  ip : String := ""
  now : Int := 0
  /-- The ceremony in the cookie. -/
  ceremony : Option String := none
  /-- `webAuthnFor`, of the host the request was sent to. -/
  webAuthn : Except String KeyLibrary
  challenge : String := ""
  token : String := ""
  session : String := ""
  salt : Nat := 0

/-- A request to sign in, with its body; `none` is one that is no such JSON. -/
inductive SignInRequest
  | login (body : Option LoginRequest)
  | webAuthnBegin (body : Option LoginRequest)
  | webAuthnFinish (assertion : String)
  | passkeyBegin
  | passkeyFinish (assertion : String)
  | setupStatus
  | setup (body : Option LoginRequest)
  deriving DecidableEq, Repr

/-- The server. -/
structure SignIn where
  store : Store
  ceremonies : CeremonyStore := fun _ => none
  loginLimiter : RateLimiter := loginLimiter

/-- What an attempt comes with. -/
def SignInTurn.loginEnv (t : SignInTurn) : LoginEnv :=
  ⟨true, true, true, true, t.now, t.session⟩

/-- `HashPassword`, with its errors. -/
def hashPasswordErr (cfg : AuthConfig) (password : String) (salt : Nat) : Except String String :=
  if password.utf8ByteSize < 8 then .error "password must be at least 8 characters"
  else
    match cfg.generate password salt with
    | none => .error "bcrypt: password length exceeds 72 bytes"
    | some hash => .ok hash

namespace SignIn

variable (cfg : AuthConfig) (t : SignInTurn) (y : SignIn)

/-! ### A password -/

/-- What `handleLogin` answers. -/
def loginAnswer : LoginResult → Answer SignInBody
  | .invalidCredentials => writeErr 401 "invalid credentials"
  | .secondFactor totp webauthn =>
    writeJSON 401 (.secondFactor
      ((if totp then ["totp"] else []) ++ if webauthn then ["webauthn"] else []))
  | .noSession => writeErr 500 "could not start session"
  | .signedIn user => writeJSON 200 (.user user.body)

def handleLogin (body : Option LoginRequest) : SignIn × Answer SignInBody :=
  match body with
  | none => (y, writeErr 400 "invalid JSON body")
  | some req =>
    let (store, res) := CertGuard.handleLogin cfg t.loginEnv y.store req.email req.password req.code
    ({ y with store := store }, loginAnswer res)

/-- The end of the other handlers: a session for the user. -/
def signIn (user : User) : SignIn × Answer SignInBody :=
  let (store, res) := startSession cfg t.loginEnv y.store user
  ({ y with store := store }, loginAnswer res)

/-! ### Security keys -/

/-- Keeps a ceremony under a token the browser is given. -/
def setCeremony (session : SessionData) (userID : Int) : SignIn :=
  let cer : Ceremony := ⟨session, userID, t.now + ceremonyTTL⟩
  { y with ceremonies := y.ceremonies.put Ceremony.expires t.now t.token cer }

/-- A ceremony can be taken once, in time or not. -/
def takeCeremony : SignIn × Option Ceremony :=
  match t.ceremony with
  | none => (y, none)
  | some token =>
    ({ y with ceremonies := y.ceremonies.remove token },
      y.ceremonies.take Ceremony.expires t.now token)

/-- Asks for one of the keys of an account, as a second factor or alone. -/
def handleWebAuthnLoginBegin (body : Option LoginRequest) : SignIn × Answer SignInBody :=
  match body with
  | none => (y, writeErr 400 "invalid JSON body")
  | some req =>
    match y.store.getUserByEmail req.email with
    | none => (y, writeErr 401 "invalid credentials")
    | some user =>
      if req.password ≠ "" ∧ cfg.compare user.passwordHash req.password = false then
        (y, writeErr 401 "invalid credentials")
      else
        match t.webAuthn with
        | .error msg => (y, writeErr 400 msg)
        | .ok lib =>
          let wu := webAuthnUserFor y.store user
          if wu.creds = [] then (y, writeErr 400 "no security key registered for this account")
          else
            -- without a password the key is the only factor
            let uv := if req.password = "" then some UserVerification.required else none
            match lib.beginLogin wu uv t.challenge with
            | .error err => (y, writeErr 500 ("could not begin login: " ++ err.text))
            | .ok begun => (y.setCeremony t begun.2 user.id, writeJSON 200 (.assertion begun.1))

/-- What is logged when a key may have been cloned. -/
def logClone (user : User) : SignIn :=
  { y with
    store := recordAccountEvent t.now y.store .keyCloneWarning user.email user.email
      (.plain (GoString.ofString
        "sign counter went backwards for a security key — possible clone")) }

def handleWebAuthnLoginFinish (assertion : String) : SignIn × Answer SignInBody :=
  match y.takeCeremony t with
  | (y, none) => (y, writeErr 400 "no sign-in in progress — start again")
  | (y, some cer) =>
    match y.store.getUserByID cer.userID with
    | none => (y, writeErr 401 "invalid credentials")
    | some user =>
      match t.webAuthn with
      | .error msg => (y, writeErr 400 msg)
      | .ok lib =>
        match lib.finishLogin (webAuthnUserFor y.store user) cer.session assertion with
        | .error err => (y, writeErr 401 ("security key rejected: " ++ protocolErr err))
        | .ok cred =>
          if cred.cloneWarning then
            (y.logClone t user,
              writeErr 401 ("security key rejected: sign counter went backwards, " ++
                "which can mean the key was cloned"))
          else
            { y with store := y.store.touchCredential cred.id cred.signCount }.signIn cfg t user

/-! ### Passkeys -/

/-- Asks for any passkey; the account is found when it answers. -/
def handlePasskeyBegin : SignIn × Answer SignInBody :=
  match t.webAuthn with
  | .error msg => (y, writeErr 400 msg)
  | .ok lib =>
    match lib.beginDiscoverableLogin (some .required) t.challenge with
    | .error err => (y, writeErr 500 ("could not begin login: " ++ err.text))
    -- nobody is claimed yet
    | .ok begun => (y.setCeremony t begun.2 0, writeJSON 200 (.assertion begun.1))

/-- `discoverableUser`, with its errors. -/
def discoverableUser (s : Store) (rawID userHandle : String) : Except String WebAuthnUser :=
  match parseInt userHandle with
  | none => .error "unrecognised user handle"
  | some id =>
    match s.getUserByID id with
    | none => .error "unrecognised user handle"
    | some user =>
      match s.credentialByID rawID with
      | none => .error "credential does not belong to that account"
      | some cred =>
        if cred.userId = user.id then .ok (webAuthnUserFor s user)
        else .error "credential does not belong to that account"

def handlePasskeyFinish (assertion : String) : SignIn × Answer SignInBody :=
  match y.takeCeremony t with
  | (y, none) => (y, writeErr 400 "no sign-in in progress — start again")
  | (y, some cer) =>
    match t.webAuthn with
    | .error msg => (y, writeErr 400 msg)
    | .ok lib =>
      match lib.finishPasskeyLogin (discoverableUser y.store) cer.session assertion with
      | .error err => (y, writeErr 401 ("passkey rejected: " ++ protocolErr err))
      | .ok (wu, cred) =>
        if cred.cloneWarning then
          (y.logClone t wu.user,
            writeErr 401 ("passkey rejected: sign counter went backwards, " ++
              "which can mean the key was cloned"))
        else
          { y with store := y.store.touchCredential cred.id cred.signCount }.signIn cfg t wu.user

/-! ### The first account -/

def handleSetupStatus : SignIn × Answer SignInBody :=
  (y, writeJSON 200 (.needsSetup (y.store.countUsers = 0)))

/-- Creates the first account, an admin, and signs it in. -/
def handleSetup (body : Option LoginRequest) : SignIn × Answer SignInBody :=
  if 0 < y.store.countUsers then
    (y, writeErr 409 "setup already completed — ask an admin to add your account")
  else
    match body with
    | none => (y, writeErr 400 "invalid JSON body")
    | some req =>
      if req.email = "" then (y, writeErr 400 "email is required")
      else
        match hashPasswordErr cfg req.password t.salt with
        | .error msg => (y, writeErr 400 msg)
        | .ok hash =>
          let row : UserRow := { email := req.email, passwordHash := hash, role := .admin }
          if y.store.TakesUser row then
            let user := scanUser y.store.users.nextKey row
            let (store, res) := startSession cfg t.loginEnv (y.store.createUser row) user
            ({ y with store := store },
              if res = .noSession then
                writeErr 500 "account created but session failed; try signing in"
              else loginAnswer res)
          else (y, writeErr 500 "could not create account")

/-! ### Requests -/

def limitAuth (next : SignIn → SignIn × Answer SignInBody) : SignIn × Answer SignInBody :=
  match y.loginLimiter.allow t.ip t.now with
  | (rl, true) => next { y with loginLimiter := rl }
  | (rl, false) =>
    ({ y with loginLimiter := rl }, writeErr 429 "too many attempts — try again later")

/-- What the server does with a request. -/
def serve : SignInRequest → SignIn × Answer SignInBody
  | .login body => y.limitAuth t fun y => y.handleLogin cfg t body
  | .webAuthnBegin body => y.limitAuth t fun y => y.handleWebAuthnLoginBegin cfg t body
  | .webAuthnFinish assertion => y.limitAuth t fun y => y.handleWebAuthnLoginFinish cfg t assertion
  | .passkeyBegin => y.limitAuth t fun y => y.handlePasskeyBegin t
  | .passkeyFinish assertion => y.limitAuth t fun y => y.handlePasskeyFinish cfg t assertion
  | .setupStatus => y.handleSetupStatus
  | .setup body => y.limitAuth t fun y => y.handleSetup cfg t body

/-- A passkey leads to the account it leads to statement by statement. -/
theorem toOption_discoverableUser (s : Store) (rawID userHandle : String) :
    (discoverableUser s rawID userHandle).toOption =
      CertGuard.discoverableUser s rawID userHandle := by
  unfold discoverableUser CertGuard.discoverableUser
  cases parseInt userHandle with
  | none => rfl
  | some id =>
    dsimp only
    cases s.getUserByID id with
    | none => rfl
    | some user =>
      dsimp only
      cases s.credentialByID rawID with
      | none => rfl
      | some cred =>
        dsimp only
        split_ifs <;> rfl

end SignIn

end CertGuard
