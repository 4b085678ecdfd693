import CertGuard.Lib.Pending
import CertGuard.Server.Accounts

/-!
# Security keys

Registering a security key, signing in with one next to the password or instead of it, and
signing in with a passkey take two requests each. The first begins a ceremony, which is kept
in memory under a token the browser gets as a cookie; the second takes it from there. All of
them share one map and one cookie, and a ceremony does not say what it is for.

The requests are cut at their statements, at the reads and writes of the map, and at the calls
of the library.

## Main definitions

* `SessionData`, `Ceremony`, `WebAuthn` — what is kept, and the library
* `WebAuthn.Documented` — what the library promises
* `KeyPc` — where a request to one of the six endpoints stands
* `KeyEffect` — what a step does to the store and the ceremonies
* `Keys`, `Keys.step` — any number of requests over one store and one map

## Main results

* `Keys.step_cases` — an action starts a request, changes the store elsewhere or takes the next
  step of a request
-/

namespace CertGuard

open Transition

/-! ### The library -/

inductive UserVerification
  | unset
  | discouraged
  | preferred
  | required
  deriving DecidableEq, Repr

/-- What the library keeps between the two halves of a ceremony. -/
structure SessionData where
  challenge : String
  userID : String := ""
  allowedCredentialIDs : List String := []
  userVerification : UserVerification := .unset
  deriving DecidableEq, Repr

/-- A user with the keys registered, as `webAuthnUserFor` loads it. -/
structure WebAuthnUser where
  user : User
  creds : List CredentialRow
  deriving DecidableEq, Repr

/-- `WebAuthnID`, the user handle. -/
def WebAuthnUser.webAuthnID (wu : WebAuthnUser) : String := toString wu.user.id

def webAuthnUserFor (s : Store) (u : User) : WebAuthnUser where
  user := u
  creds := s.credentialsForUser u.id

/-- The name `handleWebAuthnRegisterFinish` stores a key with, of the one in the query. -/
def credentialLabel (query : String) : GoString :=
  let name := trimSpace query.toList
  GoString.cut 60 (if name = [] then "Security key".toList else name)

/-- `webauthn.Credential`, as a finished ceremony returns it. -/
structure WebAuthn.Credential where
  id : String
  publicKey : String := ""
  signCount : Nat := 0
  cloneWarning : Bool := false
  deriving DecidableEq, Repr

/-- What the program calls of the library, with what its documentation speaks of. The
challenge a ceremony draws is the last argument of the call that begins it; a body is the
answer of an authenticator. -/
structure WebAuthn where
  /-- With the keys to exclude. -/
  beginRegistration : WebAuthnUser → List String → UserVerification → String → Option SessionData
  finishRegistration : WebAuthnUser → SessionData → String → Option WebAuthn.Credential
  /-- With the verification an option asks for. -/
  beginLogin : WebAuthnUser → Option UserVerification → String → Option SessionData
  finishLogin : WebAuthnUser → SessionData → String → Option WebAuthn.Credential
  beginDiscoverableLogin : Option UserVerification → String → Option SessionData
  /-- With a lookup by key and user handle. -/
  finishPasskeyLogin : (String → String → Option WebAuthnUser) → SessionData → String →
    Option (WebAuthnUser × WebAuthn.Credential)
  /-- The body is a valid assertion for a challenge by a key. -/
  signs : CredentialRow → String → String → Bool
  /-- The body carries user verification. -/
  userVerified : String → Bool

/-- `FinishLogin` is to accept. -/
def WebAuthn.Accepts (lib : WebAuthn) (wu : WebAuthnUser) (session : SessionData)
    (body : String) : Prop :=
  session.userID = wu.webAuthnID ∧
    (∃ c ∈ wu.creds, lib.signs c session.challenge body = true ∧
      (session.allowedCredentialIDs = [] ∨ c.credentialId ∈ session.allowedCredentialIDs)) ∧
    (session.userVerification = .required → lib.userVerified body = true)

/-- What the library promises. -/
structure WebAuthn.Documented (lib : WebAuthn) : Prop where
  finishLogin : ∀ wu session body,
    (lib.finishLogin wu session body).isSome ↔ lib.Accepts wu session body
  /-- The verification asked for is kept in the session. -/
  beginLogin : ∀ wu uv challenge session,
    lib.beginLogin wu (some uv) challenge = some session → session.userVerification = uv
  /-- No user is known yet. -/
  beginDiscoverableLogin : ∀ uv challenge session,
    lib.beginDiscoverableLogin uv challenge = some session → session.userID = ""

/-! ### Ceremonies -/

/-- Five minutes. -/
def ceremonyTTL : Int := 300 * Rfc3339.oneSecond

/-- One registration or login under way. -/
structure Ceremony where
  session : SessionData
  userID : Int
  expires : Int
  deriving DecidableEq, Repr

/-- The ceremonies in memory, under the tokens of their cookies. -/
abbrev CeremonyStore := Pending String Ceremony

/-- `strconv.ParseInt` to the base 10, of 64 bits. -/
def parseInt (text : String) : Option Int :=
  let (negative, digits) := match text.toList with
    | '-' :: cs => (true, cs)
    | '+' :: cs => (false, cs)
    | cs => (false, cs)
  if digits = [] ∨ digits.all Char.isDigit = false then none
  else
    let n : Int := digits.foldl (fun n c => 10 * n + (c.toNat - '0'.toNat : Nat)) 0
    let n := if negative then -n else n
    if -2 ^ 63 ≤ n ∧ n < 2 ^ 63 then some n else none

/-- The account a passkey answers for: the user handle names it, and the key has to be its own. -/
def discoverableUser (s : Store) (rawID userHandle : String) : Option WebAuthnUser :=
  match parseInt userHandle with
  | none => none
  | some id =>
    match s.getUserByID id with
    | none => none
    | some user =>
      match s.credentialByID rawID with
      | none => none
      | some cred => if cred.userId = user.id then some (webAuthnUserFor s user) else none

/-! ### Where a request stands -/

/-- The request a ceremony was begun by, with the user and whether the password was proved. It
is kept only to say so. -/
inductive Begun
  | register (userID : Int)
  | login (userID : Int) (proved : Bool)
  | passkey
  deriving DecidableEq, Repr

/-- The request that takes a ceremony. -/
inductive Finish
  | register (me : User)
  | login
  | passkey
  deriving DecidableEq, Repr

/-- What an authenticated request asks for. -/
inductive KeyOp
  | registerBegin
  | registerFinish (token : Option String) (body : String)
  deriving DecidableEq, Repr

/-- Where a request stands. One to finish a ceremony comes with the token in its cookie and
the answer of an authenticator. -/
inductive KeyPc
  | resolve (bearer cookie : Option String) (op : KeyOp)
  | registerBegin (me : User)
  | loginFind (email password : String)
  | loginBegin (user : User) (password : String)
  | passkeyBegin
  | setCeremony (begun : Begun) (session : SessionData) (userID : Int)
  | takeCeremony (finish : Finish) (token : Option String) (body : String)
  | registerFinish (me : User) (cer : Ceremony) (body : String)
  | addCredential (row : CredentialRow)
  | loginUser (cer : Ceremony) (body : String)
  | loginFinish (user : User) (cer : Ceremony) (body : String)
  | loginTouch (user : User) (cred : WebAuthn.Credential) (body : String)
  | loginStart (user : User) (body : String)
  | passkeyFinish (cer : Ceremony) (body : String)
  | passkeyTouch (user : User) (cred : WebAuthn.Credential)
  | passkeyStart (user : User)
  | done
  deriving DecidableEq, Repr

/-! ### Steps -/

/-- What a step does. -/
inductive KeyEffect
  | account (eff : AccountEffect)
  | addCredential (row : CredentialRow)
  | touchCredential (credentialId : String) (signCount : Nat)
  | put (token : String) (cer : Ceremony) (swept : Int)
  | take (token : String)
  deriving DecidableEq, Repr

namespace KeyEffect

/-- The step reads, or fails. -/
abbrev nothing : KeyEffect := account .nothing

/-- The store after a step. -/
def store (s : Store) : KeyEffect → Store
  | account eff => eff.apply s
  | addCredential row => s.addCredential row
  | touchCredential credentialId signCount => s.touchCredential credentialId signCount
  | put _ _ _ => s
  | take _ => s

/-- The ceremonies after a step. -/
def ceremonies (m : CeremonyStore) : KeyEffect → CeremonyStore
  | put token cer swept => m.put Ceremony.expires swept token cer
  | take token => m.remove token
  | _ => m

end KeyEffect

/-- What a step meets: besides what a statement does, whether the relying party is known and
the time at which `put` sweeps the map. -/
structure KeyTurn extends Turn where
  relyingParty : Bool := true
  swept : Int := 0
  /-- The name for a key in the query. -/
  label : String := ""

namespace KeyPc

/-- What a request goes on with once its user is known. -/
def dispatch (me : User) : KeyOp → KeyPc
  | .registerBegin => registerBegin me
  | .registerFinish token body => takeCeremony (.register me) token body

/-- What a request goes on with once it has its ceremony. -/
def resume (cer : Ceremony) (body : String) : Finish → KeyPc
  | .register me => if cer.userID = me.id then registerFinish me cer body else done
  | .login => loginUser cer body
  | .passkey => passkeyFinish cer body

variable (lib : WebAuthn) (cfg : AuthConfig)

/-- The next step of a request. -/
def next (s : Store) (m : CeremonyStore) (t : KeyTurn) : KeyPc → Option (KeyEffect × KeyPc)
  | resolve bearer cookie op =>
    match if t.ok then resolveUser s t.now bearer cookie else none with
    -- a session past its end is removed on the way
    | none => some (.account (if t.ok then sweepSession s t.now bearer cookie else .nothing), done)
    | some me => some (.nothing, dispatch me op)
  | registerBegin me =>
    let wu := webAuthnUserFor s me
    -- verification is preferred, since the key may not be capable of it
    match if t.ok = true ∧ t.relyingParty = true then
      lib.beginRegistration wu (wu.creds.map CredentialRow.credentialId) .preferred t.drawn
      else none with
    | none => some (.nothing, done)
    | some session => some (.nothing, setCeremony (.register me.id) session me.id)
  | loginFind email password =>
    match if t.ok then s.getUserByEmail email else none with
    | none => some (.nothing, done)
    | some user =>
      if password ≠ "" ∧ cfg.compare user.passwordHash password = false then some (.nothing, done)
      else some (.nothing, loginBegin user password)
  | loginBegin user password =>
    let wu := webAuthnUserFor s user
    -- without a password the key is the only factor
    let uv := if password = "" then some UserVerification.required else none
    match if t.ok = true ∧ t.relyingParty = true ∧ wu.creds ≠ [] then
      lib.beginLogin wu uv t.drawn else none with
    | none => some (.nothing, done)
    | some session =>
      let proved := password ≠ "" && cfg.compare user.passwordHash password
      some (.nothing, setCeremony (.login user.id proved) session user.id)
  | passkeyBegin =>
    -- nobody is claimed yet
    match if t.relyingParty then lib.beginDiscoverableLogin (some .required) t.drawn else none with
    | none => some (.nothing, done)
    | some session => some (.nothing, setCeremony .passkey session 0)
  | setCeremony _ session userID =>
    let cer : Ceremony := ⟨session, userID, t.now + ceremonyTTL⟩
    some (if t.ok then .put t.drawn cer t.swept else .nothing, done)
  -- there is no cookie
  | takeCeremony _ none _ => some (.nothing, done)
  | takeCeremony finish (some token) body =>
    match m.take Ceremony.expires t.now token with
    -- one past its deadline is removed all the same
    | none => some (.take token, done)
    | some cer => some (.take token, resume cer body finish)
  | registerFinish me cer body =>
    match if t.ok = true ∧ t.relyingParty = true then
      lib.finishRegistration (webAuthnUserFor s me) cer.session body else none with
    | none => some (.nothing, done)
    | some cred =>
      some (.nothing, addCredential
        { userId := me.id, credentialId := cred.id, publicKey := cred.publicKey,
          signCount := cred.signCount, name := credentialLabel t.label })
  | addCredential row => some (if t.ok then .addCredential row else .nothing, done)
  | loginUser cer body =>
    match if t.ok then s.getUserByID cer.userID else none with
    | none => some (.nothing, done)
    | some user => some (.nothing, loginFinish user cer body)
  | loginFinish user cer body =>
    match if t.ok = true ∧ t.relyingParty = true then
      lib.finishLogin (webAuthnUserFor s user) cer.session body else none with
    | none => some (.nothing, done)
    | some cred =>
      -- a counter that went backwards
      some (.nothing, if cred.cloneWarning then done else loginTouch user cred body)
  | loginTouch user cred body =>
    -- an error is ignored
    some (if t.ok then .touchCredential cred.id cred.signCount else .nothing, loginStart user body)
  | loginStart user _ =>
    some (.account (if t.ok then .createSession (sessionRow cfg t.now t.drawn user.id)
      else .nothing), done)
  | passkeyFinish cer body =>
    match if t.ok = true ∧ t.relyingParty = true then
      lib.finishPasskeyLogin (discoverableUser s) cer.session body else none with
    | none => some (.nothing, done)
    | some (wu, cred) =>
      some (.nothing, if cred.cloneWarning then done else passkeyTouch wu.user cred)
  | passkeyTouch user cred =>
    some (if t.ok then .touchCredential cred.id cred.signCount else .nothing, passkeyStart user)
  | passkeyStart user =>
    some (.account (if t.ok then .createSession (sessionRow cfg t.now t.drawn user.id)
      else .nothing), done)
  | done => none

end KeyPc

/-! ### The system -/

/-- The store, the ceremonies in memory, and the requests under way. -/
structure Keys where
  store : Store
  ceremonies : CeremonyStore := fun _ => none
  requests : List KeyPc := []

/-- A request arrives or takes its next step, or some other request changes the store. -/
inductive KeyAct
  | registerBegin (bearer cookie : Option String)
  | registerFinish (bearer cookie token : Option String) (body : String)
  | loginBegin (email password : String)
  | loginFinish (token : Option String) (body : String)
  | passkeyBegin
  | passkeyFinish (token : Option String) (body : String)
  | elsewhere (s : Store)
  | step (i : Nat) (t : KeyTurn)

/-- The request that arrives with an action. -/
def KeyAct.arrival : KeyAct → Option KeyPc
  | registerBegin bearer cookie => some (.resolve bearer cookie .registerBegin)
  | registerFinish bearer cookie token body =>
    some (.resolve bearer cookie (.registerFinish token body))
  | loginBegin email password => some (.loginFind email password)
  | loginFinish token body => some (.takeCeremony .login token body)
  | passkeyBegin => some .passkeyBegin
  | passkeyFinish token body => some (.takeCeremony .passkey token body)
  | elsewhere _ => none
  | step _ _ => none

namespace Keys

variable (lib : WebAuthn) (cfg : AuthConfig)

/-- The next step of a request, by its number. -/
def move (y : Keys) (i : Nat) (t : KeyTurn) : Option (KeyEffect × KeyPc) :=
  y.requests[i]?.bind fun pc => pc.next lib cfg y.store y.ceremonies t

/-- Takes an action. -/
def step (y : Keys) (act : KeyAct) : Option Keys :=
  match act with
  | .step i t =>
    (y.move lib cfg i t).map fun m =>
      { store := m.1.store y.store
        ceremonies := m.1.ceremonies y.ceremonies
        requests := y.requests.set i m.2 }
  | .elsewhere s => some { y with store := s }
  | act => act.arrival.map fun pc => { y with requests := y.requests ++ [pc] }

/-- What an action does. -/
def effect (y : Keys) : KeyAct → KeyEffect
  | .step i t => ((y.move lib cfg i t).map Prod.fst).getD .nothing
  | _ => .nothing

end Keys

variable {lib : WebAuthn} {cfg : AuthConfig} {y y' : Keys} {act : KeyAct}

/-- An action starts a request, changes the store elsewhere, or takes the next step of a
request. -/
theorem Keys.step_cases (h : y.step lib cfg act = some y') :
    (∃ pc, act.arrival = some pc ∧ y' = { y with requests := y.requests ++ [pc] }) ∨
      (∃ s, act = .elsewhere s ∧ y' = { y with store := s }) ∨
      ∃ i t pc eff pc', act = .step i t ∧ y.requests[i]? = some pc ∧
        pc.next lib cfg y.store y.ceremonies t = some (eff, pc') ∧ y.effect lib cfg act = eff ∧
        y' = { store := eff.store y.store
               ceremonies := eff.ceremonies y.ceremonies
               requests := y.requests.set i pc' } := by
  cases act with
  | step i t =>
    obtain ⟨⟨eff, pc'⟩, hmove, rfl⟩ := Option.map_eq_some_iff.mp h
    obtain ⟨pc, hpc, hnext⟩ := Option.bind_eq_some_iff.mp hmove
    refine Or.inr (Or.inr ⟨i, t, pc, eff, pc', rfl, hpc, hnext, ?_, rfl⟩)
    simp only [Keys.effect, hmove, Option.map_some, Option.getD_some]
  | elsewhere s =>
    obtain rfl := Option.some.inj h
    exact Or.inr (Or.inl ⟨s, rfl, rfl⟩)
  | _ =>
    -- the others arrive
    obtain rfl := Option.some.inj h
    exact Or.inl ⟨_, rfl, rfl⟩

theorem Keys.effect_of_refused (h : y.step lib cfg act = none) :
    y.effect lib cfg act = .nothing := by
  cases act with
  | step i t =>
    have hmove : y.move lib cfg i t = none := Option.map_eq_none_iff.mp h
    simp only [Keys.effect, hmove, Option.map_none, Option.getD_none]
  | _ => rfl

end CertGuard
