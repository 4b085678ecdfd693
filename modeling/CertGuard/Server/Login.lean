import CertGuard.Store.Auth
import CertGuard.Twofa.Totp

/-!
# Signing in with a password

`handleLogin` asks for a second factor if the account has TOTP enabled or holds a security
key. How many keys there are comes from the database, and an error in counting them counts as
none.

## Main definitions

* `AuthConfig`, `hashPassword` — password hashing and how long sessions live
* `handleLogin` — a request to sign in
* `FailsClosed` — no session without the second factor an account has
* `Counted` — where a request meets this

## Main results

* `fails_closed_iff` — a request needs the second factor exactly if the keys are counted where
  they decide
* `signed_in_without_key` — and a request that gets in without
-/

namespace CertGuard

/-- Password hashing, and the lifetime of a session. -/
structure AuthConfig where
  /-- `bcrypt.GenerateFromPassword` of a password, with the salt it draws. -/
  generate : String → Nat → Option String
  /-- `bcrypt.CompareHashAndPassword` of a hash and a password. -/
  compare : String → String → Bool
  sessionTTL : Int

/-- A password has to have 8 bytes. -/
def hashPassword (cfg : AuthConfig) (password : String) (salt : Nat) : Option String :=
  if password.utf8ByteSize < 8 then none else cfg.generate password salt

/-- What a request meets: which of its statements succeed, the time, and the hash of the
session it draws. -/
structure LoginEnv where
  getUser : Bool
  countKeys : Bool
  consume : Bool
  createSession : Bool
  now : Int
  session : String

/-- The row `startSession` inserts. -/
def sessionRow (cfg : AuthConfig) (now : Int) (session : String) (userId : Int) : SessionRow where
  userId := userId
  sessionHash := session
  expiresAt := Rfc3339.format (now + cfg.sessionTTL)

/-- The answer to a request. -/
inductive LoginResult
  | invalidCredentials
  | secondFactor (totp webauthn : Bool)
  | noSession
  | signedIn (user : User)
  deriving DecidableEq, Repr

/-- `startSession`, at the end of `handleLogin`. -/
def startSession (cfg : AuthConfig) (env : LoginEnv) (s : Store) (user : User) :
    Store × LoginResult :=
  let row := sessionRow cfg env.now env.session user.id
  if env.createSession = true ∧ s.TakesSession row then (s.createSession row, .signedIn user)
  else (s, .noSession)

/-- A password, and a code where the account has TOTP; where it has security keys only, a password
is not enough. -/
def handleLogin (cfg : AuthConfig) (env : LoginEnv) (s : Store) (email password code : String) :
    Store × LoginResult :=
  match if env.getUser then s.getUserByEmail email else none with
  | none => (s, .invalidCredentials)
  | some user =>
    if cfg.compare user.passwordHash password = false then (s, .invalidCredentials)
    else
      -- a failed count leaves its variable at zero
      let keys := if env.countKeys then s.countCredentials user.id else 0
      if user.totpEnabled = true ∨ 0 < keys then
        match if user.totpEnabled then validateStep user.totpSecret code env.now else none with
        | none => (s, .secondFactor user.totpEnabled (0 < keys))
        | some step =>
          if env.consume = true ∧ s.FreshStep user.id step then
            startSession cfg env (s.consumeTOTPStep user.id step) user
          else (s, .secondFactor user.totpEnabled (0 < keys))
      else startSession cfg env s user

/-- A session is started for an account. -/
def StartsSession (s s' : Store) (id : Int) : Prop :=
  ∃ row : SessionRow, row.userId = id ∧ s'.sessions = s.sessions.insert row

/-- Whoever gets a session for an account that has TOTP enabled or a security key gave the
password and a code of the account that was not used before. -/
def FailsClosed (cfg : AuthConfig) (env : LoginEnv) (s : Store) (email password code : String) :
    Prop :=
  ∀ id acct, s.users.get? id = some acct →
    StartsSession s (handleLogin cfg env s email password code).1 id →
      acct.totpEnabled = true ∨ 0 < s.countCredentials id →
        cfg.compare acct.passwordHash password = true ∧ acct.totpEnabled = true ∧
          ∃ step, validateStep acct.totpSecret code env.now = some step ∧
            env.consume = true ∧ acct.totpLastStep < step

/-- An account with security keys and without TOTP: they are counted, or the request fails
for another reason. -/
def Counted (cfg : AuthConfig) (env : LoginEnv) (s : Store) (email password : String) : Prop :=
  ∀ user, s.getUserByEmail email = some user → user.totpEnabled = false →
    0 < s.countCredentials user.id →
      env.countKeys = true ∨ env.getUser = false ∨ cfg.compare user.passwordHash password = false ∨
        env.createSession = false ∨ ¬ s.TakesSession (sessionRow cfg env.now env.session user.id)

variable {cfg : AuthConfig} {env : LoginEnv} {s s' : Store} {user : User} {id : Int}
variable {email password code : String}

/-! ### What it takes to sign in -/

theorem not_startsSession_of_eq (hsessions : s'.sessions = s.sessions) :
    ¬ StartsSession s s' id := by
  rintro ⟨row, -, hinsert⟩
  exact Table.ne_insert (hsessions.symm.trans hinsert)

theorem takesSession_consumeTOTPStep {userId step : Int} {row : SessionRow} :
    (s.consumeTOTPStep userId step).TakesSession row ↔ s.TakesSession row := by
  simp only [Store.TakesSession, Store.consumeTOTPStep, Table.get?_modify]
  split_ifs <;> simp

/-- A session is started at the end if the statement succeeds. -/
theorem startsSession_startSession (hsessions : s'.sessions = s.sessions) :
    StartsSession s (startSession cfg env s' user).1 id ↔
      id = user.id ∧ env.createSession = true ∧
        s'.TakesSession (sessionRow cfg env.now env.session user.id) := by
  unfold startSession
  by_cases htakes : env.createSession = true ∧
      s'.TakesSession (sessionRow cfg env.now env.session user.id)
  · rw [if_pos htakes, Store.createSession, if_pos htakes.2]
    constructor
    · rintro ⟨row, rfl, hinsert⟩
      rw [← hsessions] at hinsert
      exact ⟨congrArg SessionRow.userId (Table.insert_inj hinsert).symm, htakes⟩
    · rintro ⟨rfl, -⟩
      exact ⟨_, rfl, congrArg (Table.insert · _) hsessions⟩
  · rw [if_neg htakes]
    exact iff_of_false (not_startsSession_of_eq hsessions) fun hcontra => htakes hcontra.2

/-- The second factor is given, or none is asked for. -/
def SecondFactor (env : LoginEnv) (s : Store) (user : User) (code : String) : Prop :=
  (∃ step, user.totpEnabled = true ∧ validateStep user.totpSecret code env.now = some step ∧
      env.consume = true ∧ s.FreshStep user.id step) ∨
    user.totpEnabled = false ∧ (env.countKeys = true → s.countCredentials user.id = 0)

/-- What it takes to sign in. -/
theorem startsSession_iff : StartsSession s (handleLogin cfg env s email password code).1 id ↔
    ∃ user, env.getUser = true ∧ s.getUserByEmail email = some user ∧ id = user.id ∧
      cfg.compare user.passwordHash password = true ∧ SecondFactor env s user code ∧
      env.createSession = true ∧ s.TakesSession (sessionRow cfg env.now env.session user.id) := by
  have hrefused : ¬ StartsSession s s id := not_startsSession_of_eq rfl
  unfold handleLogin
  cases hget : env.getUser with
  | false => simpa using hrefused
  | true =>
    cases huser : s.getUserByEmail email with
    | none => simpa using hrefused
    | some user =>
      simp only [if_true, true_and, Option.some.injEq, exists_eq_left']
      by_cases hcompare : cfg.compare user.passwordHash password = false
      · rw [if_pos hcompare]
        exact iff_of_false hrefused (by simp [hcompare])
      rw [if_neg hcompare]
      have hmatch : cfg.compare user.passwordHash password = true := by simpa using hcompare
      simp only [hmatch, true_and]
      cases htotp : user.totpEnabled with
      | true =>
        simp only [SecondFactor, htotp, true_or, if_true, true_and, Bool.true_eq_false, false_and,
          or_false]
        cases hstep : validateStep user.totpSecret code env.now with
        | none => simpa using hrefused
        | some step =>
          simp only [Option.some.injEq, exists_eq_left']
          by_cases hconsume : env.consume = true ∧ s.FreshStep user.id step
          · have hsessions : (s.consumeTOTPStep user.id step).sessions = s.sessions := rfl
            -- consuming a step leaves the sessions as they are
            rw [if_pos hconsume, startsSession_startSession hsessions, takesSession_consumeTOTPStep]
            simp only [hconsume, true_and, and_self]
          · rw [if_neg hconsume]
            exact iff_of_false hrefused fun hcontra => hconsume hcontra.2.1
      | false =>
        simp only [SecondFactor, htotp, Bool.false_eq_true, false_or, false_and, exists_false,
          if_false, true_and]
        by_cases hkeys : 0 < if env.countKeys = true then s.countCredentials user.id else 0
        · rw [if_pos hkeys]
          refine iff_of_false hrefused fun hcontra => ?_
          split_ifs at hkeys with hcounted
          · exact absurd (hcontra.2.1 hcounted) (Nat.pos_iff_ne_zero.mp hkeys)
          · exact absurd hkeys (lt_irrefl 0)
        · -- no key was counted, or the count failed
          rw [if_neg hkeys, startsSession_startSession rfl]
          have hnone : env.countKeys = true → s.countCredentials user.id = 0 := fun hcounted => by
            simpa [hcounted] using hkeys
          simp only [eq_true hnone, true_and]

/-! ### The second factor -/

/-- For every account, every request and whatever fails in it: who gets a session for an
account with a second factor gave the password and a fresh code in this request, exactly if
an account with security keys only is refused for another reason or its keys are counted. -/
theorem fails_closed_iff (cfg : AuthConfig) (env : LoginEnv) (s : Store)
    (email password code : String) :
    FailsClosed cfg env s email password code ↔ Counted cfg env s email password := by
  constructor
  · intro hclosed user huser htotp hkeys
    by_contra hcontra
    simp only [not_or, not_not, Bool.not_eq_true, Bool.not_eq_false] at hcontra
    obtain ⟨hcounted, hget, hcompare, hcreate, htakes⟩ := hcontra
    obtain ⟨acct, hacct, hscan, -⟩ := getUserByEmail_eq_some huser
    -- the keys were not counted, and so the password alone was enough
    have hstarts : StartsSession s (handleLogin cfg env s email password code).1 user.id :=
      startsSession_iff.mpr ⟨user, hget, huser, rfl, hcompare,
        Or.inr ⟨htotp, fun hcount => absurd (hcounted.symm.trans hcount) (by decide)⟩, hcreate,
        htakes⟩
    obtain ⟨-, henabled, -⟩ := hclosed user.id acct hacct hstarts (Or.inr hkeys)
    rw [hscan] at htotp
    exact absurd (htotp.symm.trans henabled) (by decide)
  · intro hcounted id acct hacct hstarts hfactor
    obtain ⟨user, hget, huser, rfl, hcompare, hsecond, hcreate, htakes⟩ :=
      startsSession_iff.mp hstarts
    obtain ⟨acct', hacct', hscan, -⟩ := getUserByEmail_eq_some huser
    obtain rfl := Option.some.inj (hacct.symm.trans hacct')
    rcases hsecond with ⟨step, htotp, hstep, hconsume, row, hrow, hfresh⟩ | ⟨htotp, hnone⟩
    · obtain rfl := Option.some.inj (hacct.symm.trans hrow)
      rw [hscan] at hcompare htotp hstep
      exact ⟨hcompare, htotp, step, hstep, hconsume, hfresh⟩
    · -- without TOTP it is the keys, and they were not counted
      have hkeys : 0 < s.countCredentials user.id := by
        refine hfactor.resolve_left fun henabled => ?_
        rw [hscan] at htotp
        exact absurd (htotp.symm.trans henabled) (by decide)
      rcases hcounted user huser htotp hkeys with hcount | hget' | hcompare' | hcreate' | htakes'
      · exact absurd (hnone hcount) (Nat.pos_iff_ne_zero.mp hkeys)
      · exact absurd (hget.symm.trans hget') (by decide)
      · exact absurd (hcompare.symm.trans hcompare') (by decide)
      · exact absurd (hcreate.symm.trans hcreate') (by decide)
      · exact absurd htakes htakes'

/-- Passwords are kept with a mark before them. -/
def demoConfig : AuthConfig where
  generate password _ := some ("$2a$10$" ++ password)
  compare hash password := hash = "$2a$10$" ++ password
  sessionTTL := 86400 * Rfc3339.oneSecond

/-- One user with one security key. -/
def demoKeyHolder : Store where
  users := Table.empty.insert
    { email := "ann@example.org", passwordHash := "$2a$10$long enough", role := .admin }
  credentials := Table.empty.insert { userId := 1, credentialId := "cred" }

/-- The count of the keys fails, and the password alone is enough. -/
theorem signed_in_without_key :
    ¬ ∀ cfg env s email password code, FailsClosed cfg env s email password code := by
  intro hall
  have hstarts : StartsSession demoKeyHolder
      (handleLogin demoConfig ⟨true, false, true, true, 0, "session"⟩ demoKeyHolder
        "ann@example.org" "long enough" "").1 1 :=
    startsSession_iff.mpr ⟨⟨1, "ann@example.org", "$2a$10$long enough", .admin, "", false, 0⟩, rfl,
      by decide, rfl, by decide, Or.inr ⟨rfl, by simp⟩, rfl, by decide⟩
  obtain ⟨-, henabled, -⟩ := hall demoConfig ⟨true, false, true, true, 0, "session"⟩ demoKeyHolder
    "ann@example.org" "long enough" "" 1 _ rfl hstarts (Or.inr (by decide))
  exact absurd henabled (by decide)

end CertGuard
