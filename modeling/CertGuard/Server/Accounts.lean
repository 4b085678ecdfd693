import CertGuard.Lib.TransitionRun
import CertGuard.Server.Login

/-!
# Accounts, statement by statement

The requests that read or change accounts, each cut at its statements: between two of them
any other request may take a step. A request works with the user as it read it, also when
the row has changed since.

## Main definitions

* `LoginPc`, `SetupPc`, `ResetPc`, `AuthedPc` — where `handleLogin`, `handleSetup`,
  `SetUserPassword` and an authenticated request stand
* `AccountEffect` — what one statement does to the store
* `Request.next`, `Request.statement` — the next statement of a request, and what it does
* `Accounts`, `Accounts.step` — any number of requests over one store

## Main results

* `Accounts.step_cases` — an action starts a request or takes its next statement
* `Accounts.request_cases` — where a request comes from that stands in a state after a step
* `reaches_handleLogin` — a request left alone does what `handleLogin` does
-/

namespace CertGuard

open Transition

/-! ### Where a request stands -/

/-- Where a `handleLogin` stands: before one of its statements, or at its end. -/
inductive LoginPc
  | find (email password code : String)
  | count (user : User) (code : String)
  | consume (user : User) (step : Int)
  | start (user : User)
  | done
  deriving DecidableEq, Repr

/-- Where a `handleSetup` stands. -/
inductive SetupPc
  | count (email password : String)
  | insert (email hash : String)
  | read (id : Int)
  | start (user : User)
  | done
  deriving DecidableEq, Repr

/-- Where a `SetUserPassword` stands; at its end, whether it returns no error. -/
inductive ResetPc
  | update (id : Int) (hash : String)
  | signOut (id : Int)
  | done (id : Int) (ok : Bool)
  deriving DecidableEq, Repr

/-- What an authenticated request asks for. -/
inductive AuthedOp
  | createUser (email password role : String)
  | deleteUser (id : Int)
  | logout
  | setup2FA
  | enable2FA (code : String)
  | disable2FA (code : String)
  deriving DecidableEq, Repr

/-- Where an authenticated request stands. It comes with the hashes of the bearer token and
the session cookie it has. The step of a code is kept here only to say which it was. -/
inductive AuthedPc
  | resolve (bearer cookie : Option String) (op : AuthedOp)
  | insertUser (email hash : String) (role : Role)
  | readUser (id : Int)
  | deleteUser (me : User) (id : Int)
  | logout (cookie : String)
  | setup2FA (me : User)
  | findEnable (me : User) (code : String)
  | enable2FA (user : User) (step : Int)
  | findDisable (me : User) (code : String)
  | disable2FA (user : User) (step : Int)
  | done
  deriving DecidableEq, Repr

/-- A request under way. -/
inductive Request
  | login (pc : LoginPc)
  | setup (pc : SetupPc)
  | reset (pc : ResetPc)
  | authed (pc : AuthedPc)
  deriving DecidableEq, Repr

/-! ### Statements -/

/-- What a statement does to the store. -/
inductive AccountEffect
  /-- The statement reads, or fails. -/
  | nothing
  | createUser (row : UserRow)
  | deleteUser (id : Int)
  | setPasswordHash (id : Int) (hash : String)
  | setUserTOTP (id : Int) (secret : String) (enabled : Bool)
  | consumeTOTPStep (id step : Int)
  | createSession (row : SessionRow)
  | deleteSessions (id : Int)
  | deleteSession (sessionHash : String)
  deriving DecidableEq, Repr

/-- The store after a statement. -/
def AccountEffect.apply (s : Store) : AccountEffect → Store
  | nothing => s
  | createUser row => s.createUser row
  | deleteUser id => s.deleteUser id
  | setPasswordHash id hash => s.setPasswordHash id hash
  | setUserTOTP id secret enabled => s.setUserTOTP id secret enabled
  | consumeTOTPStep id step => s.consumeTOTPStep id step
  | createSession row => s.createSession row
  | deleteSessions id => s.deleteSessions id
  | deleteSession sessionHash => s.deleteSession sessionHash

/-- `resolveUser`: the user with a bearer token or, without one, of the session in the cookie. -/
def resolveUser (s : Store) (now : Int) (bearer cookie : Option String) : Option User :=
  match bearer, cookie with
  | some tokenHash, _ => s.userByTokenHash tokenHash
  | none, some sessionHash => s.userBySessionHash now sessionHash
  | none, none => none

/-- What the lookup does on the way: a session that has expired is removed. -/
def sweepSession (s : Store) (now : Int) (bearer cookie : Option String) : AccountEffect :=
  match bearer, cookie with
  | none, some sessionHash =>
    if (s.findSession sessionHash).any fun row => Store.expired row now then
      .deleteSession sessionHash
    else .nothing
  | _, _ => .nothing

/-- What a statement meets: whether it succeeds, the time, and what its handler draws, the
salt of a hash and a session or a secret. -/
structure Turn where
  ok : Bool := true
  now : Int := 0
  salt : Nat := 0
  drawn : String := ""

variable (cfg : AuthConfig)

namespace LoginPc

/-- The next statement of a `handleLogin`, and where it stands after it. -/
def next (s : Store) (t : Turn) : LoginPc → Option (AccountEffect × LoginPc)
  | find email password code =>
    match if t.ok then s.getUserByEmail email else none with
    | none => some (.nothing, done)
    | some user =>
      some (.nothing, if cfg.compare user.passwordHash password then count user code else done)
  | count user code =>
    -- a failed count leaves its variable at zero
    let keys := if t.ok then s.countCredentials user.id else 0
    if user.totpEnabled = true ∨ 0 < keys then
      -- a code is the only second factor this handler takes
      match if user.totpEnabled then validateStep user.totpSecret code t.now else none with
      | none => some (.nothing, done)
      | some step => some (.nothing, consume user step)
    else some (.nothing, start user)
  | consume user step =>
    if t.ok = true ∧ s.FreshStep user.id step then
      some (.consumeTOTPStep user.id step, start user)
    else some (.nothing, done)
  | start user =>
    some (if t.ok then .createSession (sessionRow cfg t.now t.drawn user.id) else .nothing, done)
  | done => none

end LoginPc

namespace SetupPc

/-- The next statement of a `handleSetup`. -/
def next (s : Store) (t : Turn) : SetupPc → Option (AccountEffect × SetupPc)
  | count email password =>
    -- nothing holds the instance empty until the `INSERT`
    if t.ok = false ∨ 0 < s.countUsers ∨ email = "" then some (.nothing, done)
    else
      match hashPassword cfg password t.salt with
      | none => some (.nothing, done)
      | some hash => some (.nothing, insert email hash)
  | insert email hash =>
    let row : UserRow := { email := email, passwordHash := hash, role := .admin }
    if t.ok = true ∧ s.TakesUser row then some (.createUser row, read s.users.nextKey)
    else some (.nothing, done)
  | read id =>
    match if t.ok then s.getUserByID id else none with
    | none => some (.nothing, done)
    | some user => some (.nothing, start user)
  | start user =>
    some (if t.ok then .createSession (sessionRow cfg t.now t.drawn user.id) else .nothing, done)
  | done => none

end SetupPc

namespace ResetPc

/-- The next statement of a `SetUserPassword`. -/
def next (s : Store) (t : Turn) : ResetPc → Option (AccountEffect × ResetPc)
  | update id hash =>
    -- no row changed means no such user
    if t.ok = true ∧ (s.users.get? id).isSome then some (.setPasswordHash id hash, signOut id)
    else some (.nothing, done id false)
  | signOut id => some (if t.ok then .deleteSessions id else .nothing, done id t.ok)
  | done _ _ => none

end ResetPc

namespace AuthedPc

/-- What a request goes on with once its user is known. -/
def dispatch (cfg : AuthConfig) (t : Turn) (me : User) (cookie : Option String) :
    AuthedOp → AuthedPc
  | .createUser email password role =>
    if me.isAdmin = false ∨ email = "" then done
    else
      match Role.ofText (if role = "" then "viewer" else role),
          hashPassword cfg password t.salt with
      | some role, some hash => insertUser email hash role
      | _, _ => done
  -- the last admin is safe from itself only
  | .deleteUser id => if me.isAdmin = false ∨ me.id = id then done else deleteUser me id
  | .logout => cookie.elim done logout
  | .setup2FA => if me.totpEnabled then done else setup2FA me
  | .enable2FA code => findEnable me code
  | .disable2FA code => findDisable me code

/-- The next statement of an authenticated request. The lookup of its user is one. -/
def next (s : Store) (t : Turn) : AuthedPc → Option (AccountEffect × AuthedPc)
  | resolve bearer cookie op =>
    match if t.ok then resolveUser s t.now bearer cookie else none with
    | none => some (if t.ok then sweepSession s t.now bearer cookie else .nothing, done)
    | some me => some (.nothing, dispatch cfg t me cookie op)
  | insertUser email hash role =>
    let row : UserRow := { email := email, passwordHash := hash, role := role }
    if t.ok = true ∧ s.TakesUser row then some (.createUser row, readUser s.users.nextKey)
    else some (.nothing, done)
  | readUser _ => some (.nothing, done)
  | deleteUser _ id => some (if t.ok then .deleteUser id else .nothing, done)
  | logout cookie => some (if t.ok then .deleteSession cookie else .nothing, done)
  | setup2FA me => some (if t.ok then .setUserTOTP me.id t.drawn false else .nothing, done)
  | findEnable me code =>
    match if t.ok then s.getUserByID me.id else none with
    | none => some (.nothing, done)
    | some user =>
      match if user.totpSecret = "" then none else validateStep user.totpSecret code t.now with
      | none => some (.nothing, done)
      | some step => some (.nothing, enable2FA user step)
  | enable2FA user _ =>
    -- the step is not consumed
    some (if t.ok then .setUserTOTP user.id user.totpSecret true else .nothing, done)
  | findDisable me code =>
    match if t.ok then s.getUserByID me.id else none with
    | none => some (.nothing, done)
    | some user =>
      match if user.totpEnabled then validateStep user.totpSecret code t.now else none with
      | none => some (.nothing, done)
      | some step => some (.nothing, disable2FA user step)
  | disable2FA user _ => some (if t.ok then .setUserTOTP user.id "" false else .nothing, done)
  | done => none

end AuthedPc

/-- The next statement of a request. -/
def Request.next (s : Store) (t : Turn) : Request → Option (AccountEffect × Request)
  | login pc => (pc.next cfg s t).map fun m => (m.1, login m.2)
  | setup pc => (pc.next cfg s t).map fun m => (m.1, setup m.2)
  | reset pc => (pc.next s t).map fun m => (m.1, reset m.2)
  | authed pc => (pc.next cfg s t).map fun m => (m.1, authed m.2)

/-- What the next statement of a request does if it has an effect. -/
def Request.statement (t : Turn) : Request → AccountEffect
  | login (.consume user step) => .consumeTOTPStep user.id step
  | login (.start user) => .createSession (sessionRow cfg t.now t.drawn user.id)
  | setup (.insert email hash) =>
    .createUser { email := email, passwordHash := hash, role := .admin }
  | setup (.start user) => .createSession (sessionRow cfg t.now t.drawn user.id)
  | reset (.update id hash) => .setPasswordHash id hash
  | reset (.signOut id) => .deleteSessions id
  | authed (.resolve none (some cookie) _) => .deleteSession cookie
  | authed (.insertUser email hash role) =>
    .createUser { email := email, passwordHash := hash, role := role }
  | authed (.deleteUser _ id) => .deleteUser id
  | authed (.logout cookie) => .deleteSession cookie
  | authed (.setup2FA me) => .setUserTOTP me.id t.drawn false
  | authed (.enable2FA user _) => .setUserTOTP user.id user.totpSecret true
  | authed (.disable2FA user _) => .setUserTOTP user.id "" false
  | _ => .nothing

/-! ### The system -/

/-- The store and the requests under way. -/
structure Accounts where
  store : Store
  requests : List Request

/-- A request arrives, or takes its next statement. -/
inductive AccountAct
  | login (email password code : String)
  | setup (email password : String)
  | setUserPassword (id : Int) (hash : String)
  | authed (bearer cookie : Option String) (op : AuthedOp)
  | step (i : Nat) (t : Turn)

/-- The request that arrives with an action. -/
def AccountAct.arrival : AccountAct → Option Request
  | login email password code => some (.login (.find email password code))
  | setup email password => some (.setup (.count email password))
  | setUserPassword id hash => some (.reset (.update id hash))
  | authed bearer cookie op => some (.authed (.resolve bearer cookie op))
  | step _ _ => none

namespace Accounts

/-- The next statement of a request, by its number. -/
def move (y : Accounts) (i : Nat) (t : Turn) : Option (AccountEffect × Request) :=
  y.requests[i]?.bind fun r => r.next cfg y.store t

/-- Takes an action. -/
def step (y : Accounts) (act : AccountAct) : Option Accounts :=
  match act with
  | .step i t =>
    (y.move cfg i t).map fun m =>
      { store := m.1.apply y.store, requests := y.requests.set i m.2 }
  | act => act.arrival.map fun r => { y with requests := y.requests ++ [r] }

/-- What an action does to the store. -/
def effect (y : Accounts) : AccountAct → AccountEffect
  | .step i t => ((y.move cfg i t).map Prod.fst).getD .nothing
  | _ => .nothing

end Accounts

variable {cfg : AuthConfig} {y y' : Accounts} {act : AccountAct} {s : Store}

theorem LoginPc.next_effect {t : Turn} {pc : LoginPc} {m : AccountEffect × LoginPc}
    (h : pc.next cfg s t = some m) :
    m.1 = .nothing ∨ m.1 = (Request.login pc).statement cfg t := by
  cases pc <;> grind [LoginPc.next, Request.statement]

theorem SetupPc.next_effect {t : Turn} {pc : SetupPc} {m : AccountEffect × SetupPc}
    (h : pc.next cfg s t = some m) :
    m.1 = .nothing ∨ m.1 = (Request.setup pc).statement cfg t := by
  cases pc <;> grind [SetupPc.next, Request.statement]

theorem ResetPc.next_effect {t : Turn} {pc : ResetPc} {m : AccountEffect × ResetPc}
    (h : pc.next s t = some m) :
    m.1 = .nothing ∨ m.1 = (Request.reset pc).statement cfg t := by
  cases pc <;> grind [ResetPc.next, Request.statement]

theorem AuthedPc.next_effect {t : Turn} {pc : AuthedPc} {m : AccountEffect × AuthedPc}
    (h : pc.next cfg s t = some m) :
    m.1 = .nothing ∨ m.1 = (Request.authed pc).statement cfg t := by
  cases pc with
  | resolve bearer cookie op =>
    cases bearer <;> cases cookie <;> grind [AuthedPc.next, Request.statement, sweepSession]
  | _ => grind [AuthedPc.next, Request.statement]

/-- A statement has the effect it has by the place its request stands at, or none. -/
theorem Request.next_effect {r r' : Request} {t : Turn} {eff : AccountEffect}
    (h : r.next cfg s t = some (eff, r')) : eff = .nothing ∨ eff = r.statement cfg t := by
  cases r with
  | login pc =>
    obtain ⟨m, hm, heq⟩ := Option.map_eq_some_iff.mp h
    exact (Prod.mk.inj heq).1 ▸ LoginPc.next_effect hm
  | setup pc =>
    obtain ⟨m, hm, heq⟩ := Option.map_eq_some_iff.mp h
    exact (Prod.mk.inj heq).1 ▸ SetupPc.next_effect hm
  | reset pc =>
    obtain ⟨m, hm, heq⟩ := Option.map_eq_some_iff.mp h
    exact (Prod.mk.inj heq).1 ▸ ResetPc.next_effect hm
  | authed pc =>
    obtain ⟨m, hm, heq⟩ := Option.map_eq_some_iff.mp h
    exact (Prod.mk.inj heq).1 ▸ AuthedPc.next_effect hm

/-- An action starts a request and leaves the store, or takes a statement of one. -/
theorem Accounts.step_cases (h : y.step cfg act = some y') :
    (∃ r, act.arrival = some r ∧ y.effect cfg act = .nothing ∧
        y' = { y with requests := y.requests ++ [r] }) ∨
      ∃ i t r eff r', act = .step i t ∧ y.requests[i]? = some r ∧
        r.next cfg y.store t = some (eff, r') ∧ y.effect cfg act = eff ∧
        y' = { store := eff.apply y.store, requests := y.requests.set i r' } := by
  cases act with
  | step i t =>
    obtain ⟨⟨eff, r'⟩, hmove, rfl⟩ := Option.map_eq_some_iff.mp h
    obtain ⟨r, hr, hnext⟩ := Option.bind_eq_some_iff.mp hmove
    refine Or.inr ⟨i, t, r, eff, r', rfl, hr, hnext, ?_, rfl⟩
    simp only [Accounts.effect, hmove, Option.map_some, Option.getD_some]
  | _ =>
    obtain rfl := Option.some.inj h
    exact Or.inl ⟨_, rfl, rfl, rfl⟩

/-- An effect comes from the statement of a request. -/
theorem Accounts.effect_cases (h : y.step cfg act = some y') :
    y.effect cfg act = .nothing ∨ ∃ i t r, act = .step i t ∧ y.requests[i]? = some r ∧
      y.effect cfg act = r.statement cfg t := by
  rcases Accounts.step_cases h with ⟨r, -, heff, -⟩ | ⟨i, t, r, eff, r', hact, hr, hnext, heff, -⟩
  · exact Or.inl heff
  · rcases Request.next_effect hnext with hnothing | hstatement
    · exact Or.inl (heff.trans hnothing)
    · exact Or.inr ⟨i, t, r, hact, hr, heff.trans hstatement⟩

/-- The store after an action is that after its statement. -/
theorem Accounts.store_step (h : y.step cfg act = some y') :
    y'.store = (y.effect cfg act).apply y.store := by
  rcases Accounts.step_cases h with ⟨r, -, heff, rfl⟩ | ⟨i, t, r, eff, r', -, -, -, heff, rfl⟩
  · rw [heff]
    rfl
  · rw [heff]

theorem Accounts.effect_of_refused (h : y.step cfg act = none) : y.effect cfg act = .nothing := by
  cases act with
  | step i t =>
    have hmove : y.move cfg i t = none := Option.map_eq_none_iff.mp h
    simp only [Accounts.effect, hmove, Option.map_none, Option.getD_none]
  | _ => rfl

/-- Where a request comes from that stands in a state after a step: it was there, it has
arrived, or it took a statement. -/
theorem Accounts.request_cases {j : Nat} {r' : Request} (h : y.step cfg act = some y')
    (hr' : y'.requests[j]? = some r') :
    (y.requests[j]? = some r' ∧ ∀ t, act ≠ .step j t) ∨ act.arrival = some r' ∨
      ∃ t r, act = .step j t ∧ y.requests[j]? = some r ∧
        r.next cfg y.store t = some (y.effect cfg act, r') := by
  rcases Accounts.step_cases h with
    ⟨r, harrival, -, rfl⟩ | ⟨i, t, r, eff, r'', rfl, hr, hnext, heff, rfl⟩
  · -- an arrival is the last of the requests, and leaves the others
    rw [List.getElem?_append] at hr'
    split_ifs at hr' with hj
    · refine Or.inl ⟨hr', fun t ht => ?_⟩
      rw [ht] at harrival
      exact absurd harrival (by simp [AccountAct.arrival])
    · rw [List.getElem?_singleton] at hr'
      split_ifs at hr'
      exact Or.inr (Or.inl (harrival.trans hr'))
  · -- a step replaces its own request
    rw [List.getElem?_set] at hr'
    split_ifs at hr' with hij hlt
    · obtain rfl := Option.some.inj hr'
      rw [hij] at hr ⊢
      exact Or.inr (Or.inr ⟨t, r, rfl, hr, by rw [← hij, heff, hnext]⟩)
    · refine Or.inl ⟨hr', fun t' ht' => hij ?_⟩
      injection ht'

/-- A request stands where it stood after a step that is not its own. -/
theorem Accounts.request_kept {j : Nat} {r : Request} (h : y.step cfg act = some y')
    (hact : ∀ t, act ≠ .step j t) (hr : y.requests[j]? = some r) : y'.requests[j]? = some r := by
  rcases Accounts.step_cases h with ⟨r', -, -, rfl⟩ | ⟨i, t, r', eff, r'', rfl, -, -, -, rfl⟩
  · obtain ⟨hj, -⟩ := List.getElem?_eq_some_iff.mp hr
    exact (List.getElem?_append_left hj).trans hr
  · have hij : i ≠ j := fun hij => hact t (by rw [hij])
    exact (List.getElem?_set_ne hij).trans hr

/-! ### A request left alone -/

variable {r r' : Request} {t : Turn} {eff : AccountEffect} {env : LoginEnv}

/-- The only request takes its next statement. -/
theorem reaches_next (h : r.next cfg s t = some (eff, r')) :
    Reaches (Accounts.step cfg) ⟨s, [r]⟩ ⟨eff.apply s, [r']⟩ :=
  Reaches.single (a := .step 0 t) (by simp [Accounts.step, Accounts.move, h])

/-- A statement of a request that meets `env`. -/
def LoginEnv.turn (env : LoginEnv) (ok : Bool) : Turn where
  ok := ok
  now := env.now
  drawn := env.session

theorem login_find {email password code : String} {found : Option User}
    (h : (if t.ok then s.getUserByEmail email else none) = found) :
    Request.next cfg s t (.login (.find email password code)) = some (.nothing, .login
      (found.elim .done fun user =>
        if cfg.compare user.passwordHash password then .count user code else .done)) := by
  simp only [Request.next, LoginPc.next, h]
  cases found <;> rfl

theorem login_count {user : User} {code : String} {found : Option Int}
    (hfactor : user.totpEnabled = true ∨ 0 < if t.ok then s.countCredentials user.id else 0)
    (h : (if user.totpEnabled then validateStep user.totpSecret code t.now else none) = found) :
    Request.next cfg s t (.login (.count user code)) =
      some (.nothing, .login (found.elim .done fun step => .consume user step)) := by
  simp only [Request.next, LoginPc.next, if_pos hfactor, h]
  cases found <;> rfl

theorem reaches_startSession (cfg : AuthConfig) (env : LoginEnv) (s : Store) (user : User) :
    Reaches (Accounts.step cfg) ⟨s, [.login (.start user)]⟩
      ⟨(startSession cfg env s user).1, [.login .done]⟩ := by
  have hnext : Request.next cfg s (env.turn env.createSession) (.login (.start user)) =
      some (if env.createSession then .createSession (sessionRow cfg env.now env.session user.id)
        else .nothing, .login .done) := rfl
  have hstore : (startSession cfg env s user).1 = AccountEffect.apply s
      (if env.createSession then .createSession (sessionRow cfg env.now env.session user.id)
        else .nothing) := by
    unfold startSession
    cases env.createSession with
    | false => rfl
    | true =>
      simp only [true_and, if_true, AccountEffect.apply, Store.createSession]
      split_ifs <;> rfl
  rw [hstore]
  exact reaches_next hnext

/-- A request that nothing comes in between does what `handleLogin` does. -/
theorem reaches_handleLogin (cfg : AuthConfig) (env : LoginEnv) (s : Store)
    (email password code : String) :
    Reaches (Accounts.step cfg) ⟨s, [.login (.find email password code)]⟩
      ⟨(handleLogin cfg env s email password code).1, [.login .done]⟩ := by
  unfold handleLogin
  cases huser : if env.getUser then s.getUserByEmail email else none with
  | none => exact reaches_next (login_find (t := env.turn env.getUser) huser)
  | some user =>
    refine (reaches_next (login_find (t := env.turn env.getUser) huser)).trans ?_
    cases hcompare : cfg.compare user.passwordHash password with
    | false =>
      simp only [Option.elim_some, hcompare, Bool.false_eq_true, if_false, if_true]
      exact Reaches.refl _
    | true =>
      simp only [Option.elim_some, hcompare, Bool.true_eq_false, if_false, if_true]
      -- with a second factor the code is consumed before the session is started
      by_cases hfactor : user.totpEnabled = true ∨
          0 < if env.countKeys = true then s.countCredentials user.id else 0
      · rw [if_pos hfactor]
        cases hstep : if user.totpEnabled then validateStep user.totpSecret code env.now
          else none with
        | none => exact reaches_next (login_count (t := env.turn env.countKeys) hfactor hstep)
        | some step =>
          refine (reaches_next (login_count (t := env.turn env.countKeys) hfactor hstep)).trans ?_
          by_cases hconsume : env.consume = true ∧ s.FreshStep user.id step
          · have hnext : Request.next cfg s (env.turn env.consume) (.login (.consume user step)) =
                some (.consumeTOTPStep user.id step, .login (.start user)) :=
              congrArg (Option.map _) (if_pos hconsume)
            simp only [if_pos hconsume]
            exact (reaches_next hnext).trans (reaches_startSession cfg env _ user)
          · have hnext : Request.next cfg s (env.turn env.consume) (.login (.consume user step)) =
                some (.nothing, .login .done) :=
              congrArg (Option.map _) (if_neg hconsume)
            simp only [if_neg hconsume]
            exact reaches_next hnext
      · rw [if_neg hfactor]
        have hcount : Request.next cfg s (env.turn env.countKeys) (.login (.count user code)) =
            some (.nothing, .login (.start user)) :=
          congrArg (Option.map _) (if_neg hfactor)
        exact (reaches_next hcount).trans (reaches_startSession cfg env s user)

end CertGuard
