import CertGuard.Store.Secrets

/-!
# Statements on users, sessions and tokens

## Main definitions

* `Store.getUserByID`, `Store.getUserByEmail`, `Store.countUsers`, `Store.createUser`,
  `Store.deleteUser` — the table `users`
* `Store.setPasswordHash`, `Store.deleteSessions` — the two statements of `SetUserPassword`
* `Store.setUserTOTP`, `Store.consumeTOTPStep`, `Store.countCredentials`,
  `Store.credentialsForUser`, `Store.addCredential`, `Store.touchCredential` — second factors
* `Store.createSession`, `Store.deleteSession`, `Store.userBySessionHash`,
  `Store.userByTokenHash` — who is signed in
-/

namespace CertGuard

namespace Store

/-! ### Users -/

def getUserByID (s : Store) (id : Int) : Option User := (s.users.get? id).map (scanUser id)

def getUserByEmail (s : Store) (email : String) : Option User :=
  (s.users.rows.find? fun r => r.2.email = email).map fun r => scanUser r.1 r.2

def countUsers (s : Store) : Nat := s.users.rows.length

/-- Nobody has the address yet. -/
def TakesUser (s : Store) (row : UserRow) : Prop := ∀ r ∈ s.users.rows, r.2.email ≠ row.email

instance (s : Store) (row : UserRow) : Decidable (s.TakesUser row) :=
  inferInstanceAs (Decidable (∀ r ∈ s.users.rows, r.2.email ≠ row.email))

/-- The `INSERT` of `CreateUser`, refused where somebody has the address. -/
def createUser (s : Store) (row : UserRow) : Store :=
  if s.TakesUser row then { s with users := s.users.insert row } else s

/-- `DeleteUser`, with the rows that go with a user. -/
def deleteUser (s : Store) (id : Int) : Store :=
  let lost := (s.credentials.rows.filter fun r => r.2.userId = id).map fun r => r.2.credentialId
  { s with
    users := s.users.erase id
    sessions := s.sessions.eraseAll fun r => r.userId = id
    tokens := s.tokens.eraseAll fun r => r.userId = id
    channels := s.channels.eraseAll fun r => r.userId = id
    credentials := s.credentials.eraseAll fun r => r.userId = id
    wrappers := s.wrappers.filter fun w => w.credentialId ∉ lost }

/-- The first statement of `SetUserPassword`. -/
def setPasswordHash (s : Store) (id : Int) (hash : String) : Store :=
  { s with users := s.users.modify id fun r => { r with passwordHash := hash } }

/-- The second statement of `SetUserPassword`. -/
def deleteSessions (s : Store) (userId : Int) : Store :=
  { s with sessions := s.sessions.eraseAll fun r => r.userId = userId }

/-! ### Second factors -/

/-- A new secret starts over: the step used last goes back to 0. -/
def setUserTOTP (s : Store) (userId : Int) (secret : String) (enabled : Bool) : Store :=
  { s with
    users := s.users.modify userId fun r =>
      { r with totpSecret := secret, totpEnabled := enabled, totpLastStep := 0 } }

/-- The `UPDATE` of `ConsumeTOTPStep` finds a row to change. -/
def FreshStep (s : Store) (userId step : Int) : Prop :=
  ∃ row, s.users.get? userId = some row ∧ row.totpLastStep < step

instance (s : Store) (userId step : Int) : Decidable (s.FreshStep userId step) :=
  match h : s.users.get? userId with
  | none => isFalse (by simp [FreshStep, h])
  | some row => decidable_of_iff (row.totpLastStep < step) (by simp [FreshStep, h])

/-- Records the step of a code, unless one as late was used before. -/
def consumeTOTPStep (s : Store) (userId step : Int) : Store :=
  { s with
    users := s.users.modify userId fun r =>
      if r.totpLastStep < step then { r with totpLastStep := step } else r }

def countCredentials (s : Store) (userId : Int) : Nat :=
  (s.credentials.rows.filter fun r => r.2.userId = userId).length

/-- The security keys of a user, in the order they were registered. -/
def credentialsForUser (s : Store) (userId : Int) : List CredentialRow :=
  (s.credentials.rows.map (·.2)).filter fun r => r.userId = userId

/-- `AddCredential`, refused by the constraints of the table where there is such a credential
or no such user. -/
def addCredential (s : Store) (row : CredentialRow) : Store :=
  if (s.users.get? row.userId).isSome ∧
      ∀ r ∈ s.credentials.rows, r.2.credentialId ≠ row.credentialId then
    { s with credentials := s.credentials.insert row }
  else s

/-- Stores the counter of a key, whatever counter is there. -/
def touchCredential (s : Store) (credentialId : String) (signCount : Nat) : Store :=
  { s with
    credentials := s.credentials.modifyAll fun r =>
      if r.credentialId = credentialId then { r with signCount := signCount } else r }

/-! ### Sessions -/

/-- There is the user of the session, and no session with its hash. -/
def TakesSession (s : Store) (row : SessionRow) : Prop :=
  (s.users.get? row.userId).isSome ∧ ∀ r ∈ s.sessions.rows, r.2.sessionHash ≠ row.sessionHash

instance (s : Store) (row : SessionRow) : Decidable (s.TakesSession row) :=
  inferInstanceAs (Decidable (_ ∧ ∀ r ∈ s.sessions.rows, r.2.sessionHash ≠ row.sessionHash))

/-- `CreateSession`, refused by the constraints of the table otherwise. -/
def createSession (s : Store) (row : SessionRow) : Store :=
  if s.TakesSession row then { s with sessions := s.sessions.insert row } else s

def deleteSession (s : Store) (sessionHash : String) : Store :=
  { s with sessions := s.sessions.eraseAll fun r => r.sessionHash = sessionHash }

/-- The row of `sessions` with a hash. -/
def findSession (s : Store) (sessionHash : String) : Option SessionRow :=
  (s.sessions.rows.find? fun r => r.2.sessionHash = sessionHash).map (·.2)

/-- A session can be used no more. -/
def expired (row : SessionRow) (now : Int) : Bool := parseTime row.expiresAt < now

/-- `UserBySessionHash`, apart from the removal of an expired session. -/
def userBySessionHash (s : Store) (now : Int) (sessionHash : String) : Option User :=
  match s.findSession sessionHash with
  | some row => if expired row now then none else s.getUserByID row.userId
  | none => none

/-- `UserByTokenHash`, apart from the stamp of the last use. -/
def userByTokenHash (s : Store) (tokenHash : String) : Option User :=
  (s.tokens.rows.find? fun r => r.2.tokenHash = tokenHash).bind fun r => s.getUserByID r.2.userId

end Store

variable {s : Store} {id : Int} {user : User} {email : String}

theorem getUserByID_eq_some_iff : s.getUserByID id = some user ↔
    ∃ row, s.users.get? id = some row ∧ scanUser id row = user :=
  Option.map_eq_some_iff

/-- A user found by the address is in the table. -/
theorem getUserByEmail_eq_some (h : s.getUserByEmail email = some user) :
    ∃ row, s.users.get? user.id = some row ∧ user = scanUser user.id row ∧ row.email = email := by
  obtain ⟨⟨id, row⟩, hfind, rfl⟩ := Option.map_eq_some_iff.mp h
  have hmem := List.mem_of_find?_eq_some hfind
  exact ⟨row, Table.mem_rows_iff.mp hmem, rfl, by simpa using List.find?_some hfind⟩

end CertGuard
