import CertGuard.Lib.TransitionRun
import CertGuard.Server.SignInRequests

/-!
# Who is registered

Nothing about the sign-in page is to say who is registered. Two servers with other users get the
same requests, none of which proves anything, and draw the same challenges and tokens. A
security key asked for without a password is answered by the keys the address has, and what the
library says against an assertion is passed on.

## Main definitions

* `Unproved` — a request comes with no right password and with no valid assertion
* `SameAnswer` — both servers answer alike
* `Alike` — what the answer depends on is alike in both stores
* `Lockstep` — what holds between the servers as long as they answer alike

## Main results

* `Lockstep.serve` — servers in lockstep answer alike exactly if the stores are alike in what
  the answer depends on
* `same_answers_iff` — the same over whole runs
* `address_found_out` — and two stores that one request tells apart
-/

namespace CertGuard

open Transition

namespace SignIn

/-- A request with what it comes with. -/
structure Arrival where
  turn : SignInTurn
  request : SignInRequest

/-- The ceremony in the cookie of a request. -/
def taken (t : SignInTurn) (y : SignIn) : Option Ceremony :=
  t.ceremony.bind fun token => y.ceremonies.take Ceremony.expires t.now token

/-- The request proves nothing: its password is not the one of the account it names, and the
library accepts no assertion. -/
def Unproved (cfg : AuthConfig) (y : SignIn) (a : Arrival) : Prop :=
  match a.request with
  | .login (some req) | .webAuthnBegin (some req) =>
    ∀ user, y.store.getUserByEmail req.email = some user →
      cfg.compare user.passwordHash req.password = false
  | .webAuthnFinish assertion =>
    ∀ cer user lib, taken a.turn y = some cer →
      y.store.getUserByID cer.userID = some user → a.turn.webAuthn = .ok lib →
        ∃ err, lib.finishLogin (webAuthnUserFor y.store user) cer.session assertion = .error err
  | .passkeyFinish assertion =>
    ∀ cer lib, taken a.turn y = some cer → a.turn.webAuthn = .ok lib →
      ∃ err, lib.finishPasskeyLogin (discoverableUser y.store) cer.session assertion = .error err
  | _ => True

/-- Two servers get a request. -/
def serveBoth (cfg : AuthConfig) (w : SignIn × SignIn) (a : Arrival) : Option (SignIn × SignIn) :=
  some ((w.1.serve cfg a.turn a.request).1, (w.2.serve cfg a.turn a.request).1)

/-- They answer alike. -/
def SameAnswer (cfg : AuthConfig) (w : SignIn × SignIn) (a : Arrival) : Prop :=
  (w.1.serve cfg a.turn a.request).2 = (w.2.serve cfg a.turn a.request).2

instance (cfg : AuthConfig) (w : SignIn × SignIn) (a : Arrival) :
    Decidable (SameAnswer cfg w a) :=
  inferInstanceAs (Decidable (_ = _))

/-! ### What an answer depends on -/

/-- What the library asks of a user with keys who gives no password. -/
def asks (lib : KeyLibrary) (challenge : String) (wu : WebAuthnUser) : Except String String :=
  match lib.beginLogin wu (some .required) challenge with
  | .error err => .error err.text
  | .ok begun => .ok begun.1

/-- What the library says against an assertion. -/
def objection {α : Type} : Except KeyError α → Option String
  | .error err => some (protocolErr err)
  | .ok _ => none

/-- Two users are asked for the same, or have no key both. -/
def AlikeByKeys (lib : KeyLibrary) (challenge : String) (wu wu' : WebAuthnUser) : Prop :=
  (wu.creds = [] ↔ wu'.creds = []) ∧
    (wu.creds ≠ [] → asks lib challenge wu = asks lib challenge wu')

/-- Nobody has the address in either store, or somebody in both, with keys that are alike. -/
def AlikeByAddress (t : SignInTurn) (s s' : Store) (email : String) : Prop :=
  match s.getUserByEmail email, s'.getUserByEmail email with
  | none, none => True
  | some user, some user' => ∀ lib, t.webAuthn = .ok lib →
    AlikeByKeys lib t.challenge (webAuthnUserFor s user) (webAuthnUserFor s' user')
  | _, _ => False

/-- The accounts of two ceremonies are there in both stores or in neither, and the library says
the same against an assertion. -/
def AlikeByAccount (t : SignInTurn) (s s' : Store) (cer cer' : Ceremony) (assertion : String) :
    Prop :=
  match s.getUserByID cer.userID, s'.getUserByID cer'.userID with
  | none, none => True
  | some user, some user' => ∀ lib, t.webAuthn = .ok lib →
    objection (lib.finishLogin (webAuthnUserFor s user) cer.session assertion) =
      objection (lib.finishLogin (webAuthnUserFor s' user') cer'.session assertion)
  | _, _ => False

/-- What the answer depends on is alike: nothing of either store but the keys of an address that
comes without a password, and what the library says against an assertion. -/
def AlikeFor (t : SignInTurn) (x y : SignIn) : SignInRequest → Prop
  | .webAuthnBegin (some req) => req.password = "" → AlikeByAddress t x.store y.store req.email
  | .webAuthnFinish assertion =>
    ∀ cer cer', taken t x = some cer → taken t y = some cer' →
      AlikeByAccount t x.store y.store cer cer' assertion
  | .passkeyFinish assertion =>
    ∀ cer cer' lib, taken t x = some cer → taken t y = some cer' →
      t.webAuthn = .ok lib →
        objection (lib.finishPasskeyLogin (discoverableUser x.store) cer.session assertion) =
          objection (lib.finishPasskeyLogin (discoverableUser y.store) cer'.session assertion)
  | _ => True

/-- The attempts are used up, or what the answer depends on is alike. -/
def Alike (w : SignIn × SignIn) (a : Arrival) : Prop :=
  (w.1.loginLimiter.allow a.turn.ip a.turn.now).2 = false ∨ AlikeFor a.turn w.1 w.2 a.request

/-! ### Lockstep -/

/-- Both servers have a user, the same attempts, and ceremonies under the same tokens. -/
structure Lockstep (x y : SignIn) : Prop where
  left : 0 < x.store.countUsers
  right : 0 < y.store.countUsers
  loginLimiter : x.loginLimiter = y.loginLimiter
  ceremonies : Pending.SameDeadlines Ceremony.expires x.ceremonies y.ceremonies

/-- Two results have the same answer exactly if a condition holds, and then are in lockstep. -/
def SameIff (C : Prop) (r r' : SignIn × Answer SignInBody) : Prop :=
  (r.2 = r'.2 ↔ C) ∧ (r.2 = r'.2 → Lockstep r.1 r'.1)

variable {cfg : AuthConfig} {t : SignInTurn} {x y : SignIn} {w : SignIn × SignIn} {a : Arrival}
variable {C : Prop} {ans ans' : Answer SignInBody} {lib : KeyLibrary} {assertion : String}

theorem Lockstep.same (h : Lockstep x y) (ans : Answer SignInBody) :
    SameIff True (x, ans) (y, ans) :=
  ⟨iff_of_true rfl trivial, fun _ => h⟩

theorem sameIff_of_ne (hne : ans ≠ ans') : SameIff False (x, ans) (y, ans') :=
  ⟨iff_of_false hne not_false, fun hcontra => absurd hcontra hne⟩

/-- Answers that say what the condition is about. -/
theorem Lockstep.sameIff (h : Lockstep x y) (hans : ans = ans' ↔ C) :
    SameIff C (x, ans) (y, ans') :=
  ⟨hans, fun _ => h⟩

theorem SameIff.congr {D : Prop} {r r' : SignIn × Answer SignInBody} (h : SameIff C r r')
    (hCD : C ↔ D) : SameIff D r r' :=
  ⟨h.1.trans hCD, h.2⟩

theorem Lockstep.setCeremony (h : Lockstep x y) (session session' : SessionData)
    (userID userID' : Int) :
    Lockstep (x.setCeremony t session userID) (y.setCeremony t session' userID') where
  left := h.left
  right := h.right
  loginLimiter := h.loginLimiter
  ceremonies := h.ceremonies.put t.now t.token rfl

/-- What a status says about the ceremonies: with 200 one is begun. -/
def Begins (t : SignInTurn) (x x' : SignIn) (status : Nat) : Prop :=
  (status = 200 → ∃ session userID, x' = x.setCeremony t session userID) ∧
    (status ≠ 200 → x' = x)

theorem begins_setCeremony (session : SessionData) (userID : Int) :
    Begins t x (x.setCeremony t session userID) 200 :=
  ⟨fun _ => ⟨session, userID, rfl⟩, fun hcontra => absurd rfl hcontra⟩

theorem begins_none {status : Nat} (hstatus : status ≠ 200) : Begins t x x status :=
  ⟨fun hcontra => absurd hcontra hstatus, fun _ => rfl⟩

theorem Lockstep.begins {x' y' : SignIn} {status : Nat} (h : Lockstep x y)
    (hx : Begins t x x' status) (hy : Begins t y y' status) : Lockstep x' y' := by
  by_cases hstatus : status = 200
  · obtain ⟨session, userID, rfl⟩ := hx.1 hstatus
    obtain ⟨session', userID', rfl⟩ := hy.1 hstatus
    exact h.setCeremony ..
  · rw [hx.2 hstatus, hy.2 hstatus]
    exact h

theorem of_takeCeremony {x' : SignIn} {cer : Option Ceremony}
    (h : x.takeCeremony t = (x', cer)) : x'.store = x.store ∧ taken t x = cer := by
  unfold SignIn.takeCeremony at h
  unfold taken
  cases hcookie : t.ceremony with
  | none =>
    rw [hcookie] at h
    obtain ⟨rfl, rfl⟩ := Prod.mk.inj h
    exact ⟨rfl, rfl⟩
  | some token =>
    rw [hcookie] at h
    obtain ⟨rfl, rfl⟩ := Prod.mk.inj h
    exact ⟨rfl, rfl⟩

/-- Both find their ceremony, or neither does. -/
theorem Lockstep.takeCeremony (t : SignInTurn) (h : Lockstep x y) :
    ∃ x' y', Lockstep x' y' ∧
      ((x.takeCeremony t = (x', none) ∧ y.takeCeremony t = (y', none)) ∨
        ∃ cer cer', x.takeCeremony t = (x', some cer) ∧ y.takeCeremony t = (y', some cer')) := by
  unfold SignIn.takeCeremony
  cases t.ceremony with
  | none => exact ⟨x, y, h, Or.inl ⟨rfl, rfl⟩⟩
  | some token =>
    have hlock : Lockstep { x with ceremonies := x.ceremonies.remove token }
        { y with ceremonies := y.ceremonies.remove token } :=
      ⟨h.left, h.right, h.loginLimiter, h.ceremonies.remove token⟩
    refine ⟨_, _, hlock, ?_⟩
    -- both have a ceremony under the token, or neither
    have hsome := h.ceremonies.isSome_take t.now token
    dsimp only
    cases hcer : x.ceremonies.take Ceremony.expires t.now token with
    | none =>
      rw [hcer, Option.isSome_none, eq_comm, Option.isSome_eq_false_iff, Option.isNone_iff_eq_none]
        at hsome
      rw [hsome]
      exact Or.inl ⟨rfl, rfl⟩
    | some cer =>
      rw [hcer, Option.isSome_some, eq_comm, Option.isSome_iff_exists] at hsome
      obtain ⟨cer', hcer'⟩ := hsome
      rw [hcer']
      exact Or.inr ⟨cer, cer', rfl, rfl⟩

/-- The attempts are the same on both sides. -/
theorem Lockstep.limitAuth {next : SignIn → SignIn × Answer SignInBody} (h : Lockstep x y)
    (hnext : ∀ rl, SameIff C (next { x with loginLimiter := rl })
      (next { y with loginLimiter := rl })) :
    SameIff ((x.loginLimiter.allow t.ip t.now).2 = false ∨ C) (x.limitAuth t next)
      (y.limitAuth t next) := by
  unfold SignIn.limitAuth
  rw [← h.loginLimiter]
  obtain ⟨rl, ok⟩ := x.loginLimiter.allow t.ip t.now
  cases ok with
  | true => exact (hnext rl).congr (by simp)
  | false =>
    have hlock : Lockstep { x with loginLimiter := rl } { y with loginLimiter := rl } :=
      ⟨h.left, h.right, rfl, h.ceremonies⟩
    exact (hlock.same _).congr (by simp)

/-! ### Handlers -/

theorem handleLogin_of_unproved {req : LoginRequest}
    (hguess : Unproved cfg x ⟨t, .login (some req)⟩) :
    x.handleLogin cfg t (some req) = (x, writeErr 401 "invalid credentials") := by
  have hlogin : CertGuard.handleLogin cfg t.loginEnv x.store req.email req.password req.code =
      (x.store, .invalidCredentials) := by
    unfold CertGuard.handleLogin
    simp only [SignInTurn.loginEnv, if_true]
    cases huser : x.store.getUserByEmail req.email with
    | none => rfl
    | some user => exact if_pos (hguess user huser)
  simp only [SignIn.handleLogin, hlogin]
  rfl

/-- Nobody signs in without the password, and all are answered alike. -/
theorem Lockstep.handleLogin {req : LoginRequest} (h : Lockstep x y)
    (hx : Unproved cfg x ⟨t, .login (some req)⟩) (hy : Unproved cfg y ⟨t, .login (some req)⟩) :
    SameIff True (x.handleLogin cfg t (some req)) (y.handleLogin cfg t (some req)) := by
  rw [handleLogin_of_unproved hx, handleLogin_of_unproved hy]
  exact h.same _

/-- What a user is answered who begins to sign in with a key and gives no password. -/
def keyAnswer (t : SignInTurn) (wu : WebAuthnUser) : Answer SignInBody :=
  match t.webAuthn with
  | .error msg => writeErr 400 msg
  | .ok lib =>
    if wu.creds = [] then writeErr 400 "no security key registered for this account"
    else
      match asks lib t.challenge wu with
      | .error text => writeErr 500 ("could not begin login: " ++ text)
      | .ok options => writeJSON 200 (.assertion options)

/-- A ceremony is begun where the browser is asked for something. -/
theorem handleWebAuthnLoginBegin_of_known {req : LoginRequest} {user : User}
    (hempty : req.password = "") (huser : x.store.getUserByEmail req.email = some user) :
    ∃ x', x.handleWebAuthnLoginBegin cfg t (some req) =
        (x', keyAnswer t (webAuthnUserFor x.store user)) ∧
      Begins t x x' (keyAnswer t (webAuthnUserFor x.store user)).status := by
  have hfirst : ¬ (req.password ≠ "" ∧ cfg.compare user.passwordHash req.password = false) :=
    fun hcontra => hcontra.1 hempty
  simp only [handleWebAuthnLoginBegin, huser, if_neg hfirst, if_pos hempty, keyAnswer]
  cases t.webAuthn with
  | error msg => exact ⟨x, rfl, begins_none (by simp [writeErr])⟩
  | ok lib =>
    dsimp only
    by_cases hcreds : (webAuthnUserFor x.store user).creds = []
    · rw [if_pos hcreds, if_pos hcreds]
      exact ⟨x, rfl, begins_none (by simp [writeErr])⟩
    simp only [if_neg hcreds, asks]
    cases lib.beginLogin (webAuthnUserFor x.store user) (some .required) t.challenge with
    | error err => exact ⟨x, rfl, begins_none (by simp [writeErr])⟩
    | ok begun => exact ⟨_, rfl, begins_setCeremony begun.2 user.id⟩

/-- Somebody is answered otherwise than nobody. -/
theorem keyAnswer_ne (wu : WebAuthnUser) : keyAnswer t wu ≠ writeErr 401 "invalid credentials" := by
  intro heq
  have hstatus := congrArg Answer.status heq
  unfold keyAnswer at hstatus
  cases hlib : t.webAuthn with
  | error msg => simp [hlib, writeErr] at hstatus
  | ok lib =>
    simp only [hlib] at hstatus
    by_cases hcreds : wu.creds = []
    · simp [if_pos hcreds, writeErr] at hstatus
    · rw [if_neg hcreds] at hstatus
      cases hasks : asks lib t.challenge wu <;> simp [hasks, writeErr, writeJSON] at hstatus

/-- Two users are answered alike exactly if their keys are alike. -/
theorem keyAnswer_inj {wu wu' : WebAuthnUser} : keyAnswer t wu = keyAnswer t wu' ↔
    ∀ lib, t.webAuthn = .ok lib → AlikeByKeys lib t.challenge wu wu' := by
  unfold keyAnswer
  cases t.webAuthn with
  | error msg => simp
  | ok lib =>
    simp only [Except.ok.injEq, forall_eq', AlikeByKeys]
    by_cases hcreds : wu.creds = [] <;> by_cases hcreds' : wu'.creds = []
    · simp [hcreds, hcreds']
    · cases hasks : asks lib t.challenge wu' <;>
        simp [hcreds, hcreds', writeErr, writeJSON]
    · cases hasks : asks lib t.challenge wu <;>
        simp [hcreds, hcreds', writeErr, writeJSON]
    · cases asks lib t.challenge wu <;> cases asks lib t.challenge wu' <;>
        simp [hcreds, hcreds', writeErr, writeJSON, String.append_right_inj]

/-- Before the keys are looked at, the password is. -/
theorem handleWebAuthnLoginBegin_of_password {req : LoginRequest} (hempty : req.password ≠ "")
    (hguess : Unproved cfg x ⟨t, .webAuthnBegin (some req)⟩) :
    x.handleWebAuthnLoginBegin cfg t (some req) = (x, writeErr 401 "invalid credentials") := by
  cases huser : x.store.getUserByEmail req.email with
  | none => simp only [handleWebAuthnLoginBegin, huser]
  | some user =>
    simp only [handleWebAuthnLoginBegin, huser]
    exact if_pos ⟨hempty, hguess user huser⟩

theorem handleWebAuthnLoginBegin_of_unknown {req : LoginRequest}
    (huser : x.store.getUserByEmail req.email = none) :
    x.handleWebAuthnLoginBegin cfg t (some req) = (x, writeErr 401 "invalid credentials") := by
  simp only [handleWebAuthnLoginBegin, huser]

theorem Lockstep.handleWebAuthnLoginBegin {req : LoginRequest} (h : Lockstep x y)
    (hx : Unproved cfg x ⟨t, .webAuthnBegin (some req)⟩)
    (hy : Unproved cfg y ⟨t, .webAuthnBegin (some req)⟩) :
    SameIff (req.password = "" → AlikeByAddress t x.store y.store req.email)
      (x.handleWebAuthnLoginBegin cfg t (some req))
      (y.handleWebAuthnLoginBegin cfg t (some req)) := by
  by_cases hempty : req.password = ""
  · simp only [hempty, forall_const, AlikeByAddress]
    cases hu : x.store.getUserByEmail req.email with
    | none =>
      rw [handleWebAuthnLoginBegin_of_unknown hu]
      cases hu' : y.store.getUserByEmail req.email with
      | none =>
        rw [handleWebAuthnLoginBegin_of_unknown hu']
        exact h.same _
      | some user' =>
        obtain ⟨y', hy', -⟩ := handleWebAuthnLoginBegin_of_known hempty hu'
        rw [hy']
        exact sameIff_of_ne (keyAnswer_ne _).symm
    | some user =>
      obtain ⟨x', hx', hbegun⟩ := handleWebAuthnLoginBegin_of_known hempty hu
      rw [hx']
      cases hu' : y.store.getUserByEmail req.email with
      | none =>
        rw [handleWebAuthnLoginBegin_of_unknown hu']
        exact sameIff_of_ne (keyAnswer_ne _)
      | some user' =>
        obtain ⟨y', hy', hbegun'⟩ := handleWebAuthnLoginBegin_of_known hempty hu'
        rw [hy']
        refine ⟨keyAnswer_inj, fun hsame => ?_⟩
        -- either both begin a ceremony or neither does
        dsimp only at hsame
        rw [hsame] at hbegun
        exact h.begins hbegun hbegun'
  · rw [handleWebAuthnLoginBegin_of_password hempty hx,
      handleWebAuthnLoginBegin_of_password hempty hy]
    exact (h.same _).congr (by simp [hempty])

/-- What is answered to an assertion the library objects to. -/
def refusal {α : Type} (pre : String) (res : Except KeyError α) : Answer SignInBody :=
  writeErr 401 (pre ++ (objection res).getD "")

/-- Two refusals are the same if the library objects alike. -/
theorem refusal_inj {α β : Type} (pre : String) {res : Except KeyError α}
    {res' : Except KeyError β} (hres : ∃ err, res = .error err)
    (hres' : ∃ err, res' = .error err) :
    refusal pre res = refusal pre res' ↔ objection res = objection res' := by
  obtain ⟨err, rfl⟩ := hres
  obtain ⟨err', rfl⟩ := hres'
  simp [refusal, writeErr, objection, String.append_right_inj]

/-- An unknown account is not refused like an assertion. -/
theorem refusal_ne {α : Type} (res : Except KeyError α) :
    refusal "security key rejected: " res ≠ writeErr 401 "invalid credentials" := by
  intro heq
  have htext := congrArg (fun ans : Answer SignInBody => ans.body) heq
  simp only [refusal, writeErr, Except.error.injEq] at htext
  have hhead := congrArg (fun text : String => text.toList.head?) htext
  simp [String.toList_append] at hhead

/-- What is answered to an assertion for the account of a ceremony. -/
def accountRefusal (t : SignInTurn) (s : Store) (cer : Ceremony) (assertion : String) :
    Answer SignInBody :=
  match s.getUserByID cer.userID with
  | none => writeErr 401 "invalid credentials"
  | some user =>
    match t.webAuthn with
    | .error msg => writeErr 400 msg
    | .ok lib =>
      refusal "security key rejected: "
        (lib.finishLogin (webAuthnUserFor s user) cer.session assertion)

/-- Without a valid assertion the ceremony is gone, and nothing else changes. -/
theorem handleWebAuthnLoginFinish_of_unproved {x' : SignIn} {cer : Ceremony}
    (htake : x.takeCeremony t = (x', some cer))
    (hguess : Unproved cfg x ⟨t, .webAuthnFinish assertion⟩) :
    x.handleWebAuthnLoginFinish cfg t assertion =
      (x', accountRefusal t x.store cer assertion) := by
  obtain ⟨hstore, htaken⟩ := of_takeCeremony htake
  simp only [handleWebAuthnLoginFinish, htake, hstore, accountRefusal]
  cases huser : x.store.getUserByID cer.userID with
  | none => rfl
  | some user =>
    dsimp only
    cases hlib : t.webAuthn with
    | error msg => rfl
    | ok lib =>
      obtain ⟨err, herr⟩ := hguess cer user lib htaken huser hlib
      simp only [herr]
      rfl

/-- Two accounts are answered alike exactly if they are alike. -/
theorem accountRefusal_inj {cer cer' : Ceremony}
    (hcer : taken t x = some cer) (hcer' : taken t y = some cer')
    (hx : Unproved cfg x ⟨t, .webAuthnFinish assertion⟩)
    (hy : Unproved cfg y ⟨t, .webAuthnFinish assertion⟩) :
    accountRefusal t x.store cer assertion = accountRefusal t y.store cer' assertion ↔
      AlikeByAccount t x.store y.store cer cer' assertion := by
  unfold accountRefusal AlikeByAccount
  cases huser : x.store.getUserByID cer.userID with
  | none =>
    cases huser' : y.store.getUserByID cer'.userID with
    | none => simp
    | some user' =>
      -- one account was deleted since, and the other is refused for its assertion
      refine iff_of_false (fun hcontra => ?_) not_false
      cases hlib : t.webAuthn with
      | error msg => simp [hlib, writeErr] at hcontra
      | ok lib => exact refusal_ne _ (by simpa only [hlib] using hcontra.symm)
  | some user =>
    cases huser' : y.store.getUserByID cer'.userID with
    | none =>
      refine iff_of_false (fun hcontra => ?_) not_false
      cases hlib : t.webAuthn with
      | error msg => simp [hlib, writeErr] at hcontra
      | ok lib => exact refusal_ne _ (by simpa only [hlib] using hcontra)
    | some user' =>
      dsimp only
      cases hlib : t.webAuthn with
      | error msg => simp
      | ok lib =>
        simp only [Except.ok.injEq, forall_eq']
        exact refusal_inj _ (hx cer user lib hcer huser hlib)
          (hy cer' user' lib hcer' huser' hlib)

theorem Lockstep.handleWebAuthnLoginFinish (h : Lockstep x y)
    (hx : Unproved cfg x ⟨t, .webAuthnFinish assertion⟩)
    (hy : Unproved cfg y ⟨t, .webAuthnFinish assertion⟩) :
    SameIff (∀ cer cer', taken t x = some cer → taken t y = some cer' →
        AlikeByAccount t x.store y.store cer cer' assertion)
      (x.handleWebAuthnLoginFinish cfg t assertion)
      (y.handleWebAuthnLoginFinish cfg t assertion) := by
  obtain ⟨x', y', hlock, ⟨hxt, hyt⟩ | ⟨cer, cer', hxt, hyt⟩⟩ := h.takeCeremony t
  · simp only [SignIn.handleWebAuthnLoginFinish, hxt, hyt]
    exact (hlock.same _).congr (by simp [(of_takeCeremony hxt).2])
  · rw [handleWebAuthnLoginFinish_of_unproved hxt hx, handleWebAuthnLoginFinish_of_unproved hyt hy]
    have hcer := (of_takeCeremony hxt).2
    have hcer' := (of_takeCeremony hyt).2
    refine (hlock.sameIff (accountRefusal_inj hcer hcer' hx hy)).congr ?_
    simp [hcer, hcer']

/-- What is answered to an assertion by a passkey. -/
def passkeyRefusal (t : SignInTurn) (s : Store) (cer : Ceremony) (assertion : String) :
    Answer SignInBody :=
  match t.webAuthn with
  | .error msg => writeErr 400 msg
  | .ok lib =>
    refusal "passkey rejected: "
      (lib.finishPasskeyLogin (discoverableUser s) cer.session assertion)

theorem handlePasskeyFinish_of_unproved {x' : SignIn} {cer : Ceremony}
    (htake : x.takeCeremony t = (x', some cer))
    (hguess : Unproved cfg x ⟨t, .passkeyFinish assertion⟩) :
    x.handlePasskeyFinish cfg t assertion = (x', passkeyRefusal t x.store cer assertion) := by
  obtain ⟨hstore, htaken⟩ := of_takeCeremony htake
  simp only [handlePasskeyFinish, htake, hstore, passkeyRefusal]
  cases hlib : t.webAuthn with
  | error msg => rfl
  | ok lib =>
    obtain ⟨err, herr⟩ := hguess cer lib htaken hlib
    simp only [herr]
    rfl

theorem Lockstep.handlePasskeyFinish (h : Lockstep x y)
    (hx : Unproved cfg x ⟨t, .passkeyFinish assertion⟩)
    (hy : Unproved cfg y ⟨t, .passkeyFinish assertion⟩) :
    SameIff (∀ cer cer' lib, taken t x = some cer → taken t y = some cer' →
        t.webAuthn = .ok lib →
          objection (lib.finishPasskeyLogin (discoverableUser x.store) cer.session assertion) =
            objection (lib.finishPasskeyLogin (discoverableUser y.store) cer'.session assertion))
      (x.handlePasskeyFinish cfg t assertion) (y.handlePasskeyFinish cfg t assertion) := by
  obtain ⟨x', y', hlock, ⟨hxt, hyt⟩ | ⟨cer, cer', hxt, hyt⟩⟩ := h.takeCeremony t
  · simp only [SignIn.handlePasskeyFinish, hxt, hyt]
    exact (hlock.same _).congr (by simp [(of_takeCeremony hxt).2])
  · rw [handlePasskeyFinish_of_unproved hxt hx, handlePasskeyFinish_of_unproved hyt hy]
    have hcer := (of_takeCeremony hxt).2
    have hcer' := (of_takeCeremony hyt).2
    unfold passkeyRefusal
    cases hlib : t.webAuthn with
    | error msg => exact (hlock.same _).congr (by simp)
    | ok lib =>
      -- the answers differ only by what the library objects
      have hinj := refusal_inj "passkey rejected: " (hx cer lib hcer hlib)
        (hy cer' lib hcer' hlib)
      exact (hlock.sameIff hinj).congr (by simp [hcer, hcer'])

/-- A passkey is asked for without looking at the store. -/
theorem Lockstep.handlePasskeyBegin (h : Lockstep x y) :
    SameIff True (x.handlePasskeyBegin t) (y.handlePasskeyBegin t) := by
  unfold SignIn.handlePasskeyBegin
  cases t.webAuthn with
  | error msg => exact h.same _
  | ok lib =>
    dsimp only
    cases lib.beginDiscoverableLogin (some .required) t.challenge with
    | error err => exact h.same _
    | ok begun => exact (h.setCeremony ..).same _

/-! ### Requests -/

/-- Servers in lockstep answer a request that proves nothing alike exactly if the stores are
alike in what the answer depends on, and then are in lockstep after it. -/
theorem Lockstep.serve {req : SignInRequest} (h : Lockstep x y) (hx : Unproved cfg x ⟨t, req⟩)
    (hy : Unproved cfg y ⟨t, req⟩) :
    SameIff (Alike (x, y) ⟨t, req⟩) (x.serve cfg t req) (y.serve cfg t req) := by
  have hrl : ∀ rl, Lockstep { x with loginLimiter := rl } { y with loginLimiter := rl } :=
    fun rl => ⟨h.left, h.right, rfl, h.ceremonies⟩
  cases req with
  | login body =>
    cases body with
    | none => exact h.limitAuth fun rl => (hrl rl).same _
    | some req => exact h.limitAuth fun rl => (hrl rl).handleLogin hx hy
  | webAuthnBegin body =>
    cases body with
    | none => exact h.limitAuth fun rl => (hrl rl).same _
    | some req => exact h.limitAuth fun rl => (hrl rl).handleWebAuthnLoginBegin hx hy
  | webAuthnFinish assertion =>
    exact h.limitAuth fun rl => (hrl rl).handleWebAuthnLoginFinish hx hy
  | passkeyBegin => exact h.limitAuth fun rl => (hrl rl).handlePasskeyBegin
  | passkeyFinish assertion => exact h.limitAuth fun rl => (hrl rl).handlePasskeyFinish hx hy
  | setupStatus =>
    -- there is a user on both sides
    have hx0 : x.store.countUsers ≠ 0 := Nat.pos_iff_ne_zero.mp h.left
    have hy0 : y.store.countUsers ≠ 0 := Nat.pos_iff_ne_zero.mp h.right
    simp only [SignIn.serve, handleSetupStatus, hx0, hy0]
    exact (h.same _).congr (by simp [Alike, AlikeFor])
  | setup body =>
    refine h.limitAuth fun rl => ?_
    simp only [handleSetup, if_pos h.left, if_pos h.right]
    exact (hrl rl).same _

/-- A server that was just started. -/
def starting (s : Store) : SignIn := { store := s }

/-- Over any two stores with a user each and any requests to sign in, none of which comes with a
right password or a valid assertion in either: both servers answer every request alike exactly
if at every one that still has an attempt the stores are alike in what the answer depends on. -/
theorem same_answers_iff (cfg : AuthConfig) (s s' : Store) (arrivals : List Arrival)
    (hs : 0 < s.countUsers) (hs' : 0 < s'.countUsers)
    (hguess : Meets (serveBoth cfg) (fun w a => Unproved cfg w.1 a ∧ Unproved cfg w.2 a)
      (starting s, starting s') arrivals) :
    Meets (serveBoth cfg) (SameAnswer cfg) (starting s, starting s') arrivals ↔
      Meets (serveBoth cfg) Alike (starting s, starting s') arrivals := by
  refine meets_iff_meets (fun w => Lockstep w.1 w.2) ⟨hs, hs', rfl, fun _ => rfl⟩ ?_ ?_ hguess
  · rintro w a w' hlock ⟨hx, hy⟩ hsame hstep
    obtain rfl := Option.some.inj hstep
    exact (hlock.serve hx hy).2 hsame
  · rintro w a hlock ⟨hx, hy⟩
    exact (hlock.serve hx hy).1

/-- One user without a key. -/
def oneUser (email : String) : Store where
  users := Table.empty.insert
    { email := email, passwordHash := "$2a$10$long enough", role := .admin }

/-- A wrong password, and a passkey with a handle that is none. -/
def guesses : List Arrival :=
  [⟨{ webAuthn := .ok demoKeys }, .login (some ⟨"ann@example.org", "guess", ""⟩)⟩,
    ⟨{ webAuthn := .ok demoKeys, challenge := "draw", token := "handle" }, .passkeyBegin⟩,
    ⟨{ webAuthn := .ok demoKeys, ceremony := some "handle" }, .passkeyFinish "nobody"⟩]

/-- They tell nothing about who is registered. -/
theorem same_answers_demo : Meets (serveBoth demoConfig) (SameAnswer demoConfig)
    (starting (oneUser "ann@example.org"), starting (oneUser "bob@example.org")) guesses := by
  have hlookup : ∀ s : Store, discoverableUser s "key" "nobody" =
      .error "unrecognised user handle" := fun s => rfl
  refine (same_answers_iff demoConfig _ _ guesses (by decide) (by decide) ?_).mpr ?_
  · have hpasskey : ∀ x, Unproved demoConfig x
        ⟨{ webAuthn := .ok demoKeys, ceremony := some "handle" }, .passkeyFinish "nobody"⟩ := by
      intro x cer lib htaken hlib
      obtain rfl := Except.ok.inj hlib
      refine ⟨⟨"unrecognised user handle", "lookup failed", "unrecognised user handle"⟩, ?_⟩
      simp only [demoKeys, hlookup]
    refine meets_cons.mpr ⟨⟨?_, ?_⟩, fun w hw => meets_cons.mpr ⟨⟨trivial, trivial⟩, fun w' hw' =>
      meets_cons.mpr ⟨⟨hpasskey _, hpasskey _⟩, fun w'' hw'' => meets_nil⟩⟩⟩
    · intro user huser
      obtain rfl := Option.some.inj huser
      decide
    · intro user huser
      have hnone : (oneUser "bob@example.org").getUserByEmail "ann@example.org" = none := by decide
      exact absurd (hnone.symm.trans huser) (by simp)
  · refine meets_cons.mpr ⟨Or.inr trivial, fun w hw => meets_cons.mpr ⟨Or.inr trivial, fun w' hw' =>
      meets_cons.mpr ⟨Or.inr ?_, fun w'' hw'' => meets_nil⟩⟩⟩
    intro cer cer' lib hcer hcer' hlib
    obtain rfl := Except.ok.inj hlib
    simp only [demoKeys, hlookup]

/-- An address without a password. -/
def address : Arrival :=
  ⟨{ webAuthn := .ok demoKeys }, .webAuthnBegin (some ⟨"ann@example.org", "", ""⟩)⟩

/-- It is answered with 400 where somebody has it, and with 401 where nobody does. -/
theorem address_found_out : ¬ ∀ cfg s s' arrivals, 0 < s.countUsers → 0 < s'.countUsers →
    Meets (serveBoth cfg) (fun w a => Unproved cfg w.1 a ∧ Unproved cfg w.2 a)
        (starting s, starting s') arrivals →
      Meets (serveBoth cfg) (SameAnswer cfg) (starting s, starting s') arrivals := by
  intro hall
  have hsame := hall demoConfig (oneUser "ann@example.org") (oneUser "bob@example.org") [address]
    (by decide) (by decide) (meets_cons.mpr ⟨⟨?_, ?_⟩, fun w hw => meets_nil⟩)
  · exact absurd (meets_cons.mp hsame).1 (by decide)
  · intro user huser
    obtain rfl := Option.some.inj huser
    decide
  · intro user huser
    have hnone : (oneUser "bob@example.org").getUserByEmail "ann@example.org" = none := by decide
    exact absurd (hnone.symm.trans huser) (by simp)

end SignIn

end CertGuard
