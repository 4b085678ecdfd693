import CertGuard.Server.Authenticator
import CertGuard.Server.SecondFactor

/-!
# Enrolling an authenticator

An account keeps the secret of an app from the set-up on and until the user starts over, switches
the second factor off or on again, or is deleted, whatever else the server does. All that time the
codes the server takes are those the app shows, each of a step after the last one used.

## Main definitions

* `Service.Holds`, `ServiceAct.Ends`, `Undisturbed` — an account with the secret of an app, the
  requests that end that, and runs without any
* `ServiceAct.usedStep`, `usedSteps` — the steps used up by the user's codes

## Main results

* `holds_serve`, `holds_run`, `holds_run_used` — a run without such a request leaves the account its
  secret, with the latest of the steps used
* `serve_setup`, `serve_enable`, `serve_login` — the set-up, switching it on, and signing in
* `enrolment_lasts` — from the set-up to any later sign-in
-/

namespace CertGuard

variable {id : Int} {s : Store}

/-! ### The account of an app -/

/-- The account has the secret of some bytes, asks for codes or not yet, and has used none of a
later step than the last. -/
def Service.Holds (y : Service) (id : Int) (key : List UInt8) (on : Bool) (last : Int) : Prop :=
  (y.store.users.get? id).map UserRow.factor = some (generateSecret key, on, last)

/-- A request behind a sign-in is the user's own. -/
def Service.CalledBy (y : Service) (t : RouteTurn) (id : Int) : Prop :=
  ∃ me, y.caller t = some me ∧ me.id = id

/-- A request comes with a code the app shows around the time. -/
def ShowsCode (app : Authenticator) (t : RouteTurn) (body : Option String) : Prop :=
  ∃ code ∈ body, (app.stepOf (trimSpace code.toList) t.now).isSome

/-- The requests after which the account is another: one of an admin that takes it away, those of
the user that set the second factor up anew while it is off, and those that switch it on, once more
perhaps, or off, each with a code of the app. -/
def ServiceAct.Ends (y : Service) (id : Int) (app : Authenticator) (on : Bool) : ServiceAct → Prop
  | .route t (.deleteUser path) =>
    path = some id ∧ ∃ me, y.caller t = some me ∧ me.isAdmin = true ∧ me.id ≠ id
  | .route t .setup2FA => on = false ∧ y.CalledBy t id
  | .route t (.enable2FA body) => y.CalledBy t id ∧ ShowsCode app t body
  | .route t (.disable2FA body) => on = true ∧ y.CalledBy t id ∧ ShowsCode app t body
  | _ => False

/-- No request of a run is one after which the account may be another. -/
def Undisturbed (cfg : ServiceConfig) (id : Int) (app : Authenticator) (on : Bool) :
    Service → List ServiceAct → Prop
  | _, [] => True
  | y, act :: acts => ¬ act.Ends y id app on ∧ Undisturbed cfg id app on (y.serve cfg act).1 acts

/-- The step of the code with which a password of the user got past the second factor, whether a
session came of it or could not be kept. -/
def ServiceAct.usedStep (cfg : ServiceConfig) (y : Service) (id : Int) (app : Authenticator) :
    ServiceAct → Option Int
  | .signIn t peer (.login (some req)) =>
    let status := (y.serve cfg (.signIn t peer (.login (some req)))).2.status
    if (y.store.getUserByEmail req.email).map User.id = some id ∧ (status = 200 ∨ status = 500) then
      app.stepOf (trimSpace req.code.toList) t.now
    else none
  | _ => none

/-- The steps used in a run. -/
def usedSteps (cfg : ServiceConfig) (id : Int) (app : Authenticator) :
    Service → List ServiceAct → List Int
  | _, [] => []
  | y, act :: acts =>
    (act.usedStep cfg y id app).toList ++ usedSteps cfg id app (y.serve cfg act).1 acts

section Runs

open Transition

variable {cfg : ServiceConfig} {y : Service} {key : List UInt8} {on : Bool} {account : String}
variable {last : Int}

theorem Service.Holds.of_sameFactor {z : Service} (h : y.Holds id key on last)
    (hsame : SameFactor id y.store z.store) : z.Holds id key on last := Eq.trans hsame h

theorem Service.Holds.exists_row (h : y.Holds id key on last) : ∃ row,
    y.store.users.get? id = some row ∧ row.totpSecret = generateSecret key ∧
      row.totpEnabled = on ∧ row.totpLastStep = last := by
  obtain ⟨row, hrow, hfactor⟩ := Option.map_eq_some_iff.mp h
  simp only [UserRow.factor, Prod.mk.injEq] at hfactor
  exact ⟨row, hrow, hfactor⟩

/-- Somebody found by an address has the row of the account. -/
theorem Service.Holds.of_email (h : y.Holds id key on last) {email : String} {user : User}
    (huser : y.store.getUserByEmail email = some user) (hid : user.id = id) :
    user.totpSecret = generateSecret key ∧ user.totpEnabled = on ∧ user.totpLastStep = last := by
  obtain ⟨row, hrow, hsecret, hon, hlast⟩ := h.exists_row
  obtain ⟨row', hrow', hscan, -⟩ := getUserByEmail_eq_some huser
  rw [hid, hrow] at hrow'
  obtain rfl := Option.some.inj hrow'
  exact ⟨(congrArg User.totpSecret hscan).trans hsecret,
    (congrArg User.totpEnabled hscan).trans hon, (congrArg User.totpLastStep hscan).trans hlast⟩

/-- What the caller is in the table. -/
theorem Service.Holds.of_caller (h : y.Holds id key on last) {t : RouteTurn} {me : User}
    (hme : y.caller t = some me) (hid : me.id = id) :
    y.store.getUserByID me.id = some me ∧ me.totpSecret = generateSecret key ∧
      me.totpEnabled = on := by
  obtain ⟨row, hrow, hsecret, hon, -⟩ := h.exists_row
  obtain ⟨hthere, -⟩ := caller_eq_some hme
  obtain ⟨row', hrow', hscan⟩ := getUserByID_eq_some_iff.mp hthere
  rw [hid, hrow] at hrow'
  obtain rfl := Option.some.inj hrow'
  exact ⟨hthere, (congrArg User.totpSecret hscan).symm.trans hsecret,
    (congrArg User.totpEnabled hscan).symm.trans hon⟩

/-- What is shown by the app is taken by the server. -/
theorem showsCode_of_validateStep {t : RouteTurn} {code : String} {step : Int}
    (h : validateStep (generateSecret key) code t.now = some step) :
    ShowsCode (appOf account key) t (some code) := by
  rw [stepOf_eq_validateStep account] at h
  exact ⟨code, rfl, by rw [h]; rfl⟩

theorem freshStep_iff {user : User} {email : String} {step : Int}
    (huser : s.getUserByEmail email = some user) :
    s.FreshStep user.id step ↔ user.totpLastStep < step := by
  obtain ⟨row, hrow, hscan, -⟩ := getUserByEmail_eq_some huser
  have hlast : user.totpLastStep = row.totpLastStep := congrArg User.totpLastStep hscan
  rw [Store.FreshStep, hrow, hlast]
  simp

/-- A request of one's own. -/
theorem holds_of_own {t : RouteTurn} {me : User} {req : RouteRequest}
    (h : y.Holds id key on last) (hme : y.caller t = some me) (hid : me.id = id)
    (hends : ¬ (ServiceAct.route t req).Ends y id (appOf account key) on) :
    SameFactor id y.store (y.inside.dispatch cfg.toConfig t me req).1.store := by
  obtain ⟨hthere, hsecret, hon⟩ := h.of_caller hme hid
  obtain ⟨row, hrow, -⟩ := h.exists_row
  have hcalled : y.CalledBy t id := ⟨me, hme, hid⟩
  by_cases hreq : req.touches = false
  · exact sameFactor_dispatch cfg.toConfig t me y.inside hreq (Option.isSome_of_eq_some hrow)
  cases req with
  | setup2FA =>
    change SameFactor id y.store (handle2FASetup me t.secret y.store).1
    rw [handle2FASetup]
    split_ifs with henabled
    · exact SameFactor.refl id y.store
    · rw [hon] at henabled
      exact absurd ⟨by simpa using henabled, hcalled⟩ hends
  | enable2FA body =>
    change SameFactor id y.store (handle2FAEnable me t.now y.store body).1
    obtain hsame | ⟨user, code, step, rfl, hget, hstep, -⟩ :=
      handle2FAEnable_cases me t.now y.store body
    · rw [hsame]
      exact SameFactor.refl id y.store
    · obtain rfl : me = user := Option.some.inj (hthere.symm.trans hget)
      rw [hsecret] at hstep
      exact absurd ⟨hcalled, showsCode_of_validateStep hstep⟩ hends
  | disable2FA body =>
    change SameFactor id y.store (handle2FADisable me t.now y.store body).1
    obtain hsame | ⟨user, code, step, rfl, hget, henabled, hstep, -⟩ :=
      handle2FADisable_cases me t.now y.store body
    · rw [hsame]
      exact SameFactor.refl id y.store
    · obtain rfl : me = user := Option.some.inj (hthere.symm.trans hget)
      rw [hsecret] at hstep
      rw [hon] at henabled
      exact absurd ⟨henabled, hcalled, showsCode_of_validateStep hstep⟩ hends
  | deleteUser path =>
    change SameFactor id y.store (handleDeleteUser me y.store path).1
    by_cases hpath : path = some id
    · -- one's own account is not deleted
      rw [hpath, handleDeleteUser, withPathID, if_pos hid]
      exact SameFactor.refl id y.store
    · exact sameFactor_handleDeleteUser me y.store hpath
  | _ => exact absurd rfl hreq

/-- A request behind a sign-in. -/
theorem holds_route {t : RouteTurn} {req : RouteRequest} (h : y.Holds id key on last)
    (hends : ¬ (ServiceAct.route t req).Ends y id (appOf account key) on) :
    (y.serve cfg (.route t req)).1.Holds id key on last := by
  obtain ⟨row, hrow, -⟩ := h.exists_row
  have hsome : (y.store.users.get? id).isSome := Option.isSome_of_eq_some hrow
  refine h.of_sameFactor ?_
  change SameFactor id y.store (y.inside.authed cfg.toConfig t req).1.store
  rw [Server.authed]
  cases hresolve : y.caller t with
  | none =>
    have hnone : resolveUser y.inside.store t.now t.bearer t.cookie = none := hresolve
    rw [hnone]
    exact sameFactor_of_users users_sweepSession
  | some me =>
    have hsigned : resolveUser y.inside.store t.now t.bearer t.cookie = some me := hresolve
    rw [hsigned]
    dsimp only
    split_ifs with hgate
    · exact SameFactor.refl id y.store
    by_cases hme : me.id = id
    · exact holds_of_own h hresolve hme hends
    · refine sameFactor_of_other cfg.toConfig t y.inside hme ?_ hsome
      rintro rfl
      have hadmin : me.isAdmin = true := by
        simpa [RouteRequest.adminOnly] using hgate
      exact hends ⟨rfl, me, hresolve, hadmin, hme⟩

/-- The limiter stops a request, or it is handled. -/
theorem serve_login_cases {t : SignInTurn} {peer : Peer} {req : LoginRequest} :
    (y.serve cfg (.signIn t peer (.login (some req)))).2.status = 429 ∧
        (y.serve cfg (.signIn t peer (.login (some req)))).1.store = y.store ∨
      (y.serve cfg (.signIn t peer (.login (some req)))).2.status =
          (SignIn.loginAnswer (CertGuard.handleLogin cfg.auth t.loginEnv y.store req.email
            req.password req.code).2).status ∧
        (y.serve cfg (.signIn t peer (.login (some req)))).1.store =
          (CertGuard.handleLogin cfg.auth t.loginEnv y.store req.email req.password
            req.code).1 := by
  change (y.door.limitAuth (Service.turnOf cfg t peer)
      fun z => z.handleLogin cfg.auth (Service.turnOf cfg t peer) (some req)).2.status = 429 ∧
      (y.door.limitAuth (Service.turnOf cfg t peer)
        fun z => z.handleLogin cfg.auth (Service.turnOf cfg t peer) (some req)).1.store = y.store ∨
    (y.door.limitAuth (Service.turnOf cfg t peer)
      fun z => z.handleLogin cfg.auth (Service.turnOf cfg t peer) (some req)).2.status = _ ∧
      (y.door.limitAuth (Service.turnOf cfg t peer)
        fun z => z.handleLogin cfg.auth (Service.turnOf cfg t peer) (some req)).1.store = _
  rw [SignIn.limitAuth]
  rcases y.door.loginLimiter.allow (Service.turnOf cfg t peer).ip
    (Service.turnOf cfg t peer).now with ⟨rl, ok⟩
  cases ok with
  | false => exact Or.inl ⟨rfl, rfl⟩
  | true => exact Or.inr ⟨rfl, rfl⟩

/-- A password and a code. -/
theorem holds_login {t : SignInTurn} {peer : Peer} {req : LoginRequest}
    (h : y.Holds id key on last) :
    let act := ServiceAct.signIn t peer (.login (some req))
    (y.serve cfg act).1.Holds id key on last ∧
        (on = true → act.usedStep cfg y id (appOf account key) = none) ∨
      on = true ∧ ∃ step, act.usedStep cfg y id (appOf account key) = some step ∧ last < step ∧
        (y.serve cfg act).1.Holds id key on step := by
  intro act
  -- no step is used unless the answer is that of somebody who got past the second factor
  have hunused : ∀ n : Nat, (y.serve cfg act).2.status = n → n ≠ 200 → n ≠ 500 →
      act.usedStep cfg y id (appOf account key) = none := by
    rintro n rfl hok hkept
    exact if_neg fun hcontra => hcontra.2.elim hok hkept
  obtain ⟨hstatus, hstore⟩ | ⟨hstatus, hstore⟩ :=
    @serve_login_cases cfg y t peer req
  · exact Or.inl ⟨h.of_sameFactor (sameFactor_of_users (congrArg Store.users hstore)),
      fun _ => hunused 429 hstatus (by decide) (by decide)⟩
  obtain ⟨husers, hasks⟩ | ⟨user, step, huser, henabled, hstep, hfresh, husers, hpast⟩ :=
    handleLogin_cases cfg.auth t y.store req.email req.password req.code
  · refine Or.inl ⟨h.of_sameFactor (sameFactor_of_users
      ((congrArg Store.users hstore).trans husers)), fun hon => ?_⟩
    by_cases hid : (y.store.getUserByEmail req.email).map User.id = some id
    · obtain ⟨user, huser, hid⟩ := Option.map_eq_some_iff.mp hid
      have henabled := (h.of_email huser hid).2.1.trans hon
      exact hunused 401 (hstatus.trans (hasks user huser henabled)) (by decide) (by decide)
    · exact if_neg fun hcontra => hid hcontra.1
  · have hconsumed : (y.serve cfg act).1.store.users =
        (y.store.consumeTOTPStep user.id step).users := (congrArg Store.users hstore).trans husers
    by_cases hid : user.id = id
    · obtain ⟨hsecret, hon, hlast⟩ := h.of_email huser hid
      refine Or.inr ⟨hon.symm.trans henabled, step, ?_, ?_, ?_⟩
      · have hemail : (y.store.getUserByEmail req.email).map User.id = some id := by
          rw [huser, Option.map_some, hid]
        have hshown : (appOf account key).stepOf (trimSpace req.code.toList) t.now = some step := by
          rw [← stepOf_eq_validateStep account, ← hsecret, hstep]
        rw [← hstatus] at hpast
        exact (if_pos ⟨hemail, hpast⟩).trans hshown
      · exact hlast ▸ (freshStep_iff huser).mp hfresh
      · obtain ⟨row, hrow, hrsecret, hron, hrlast⟩ := h.exists_row
        obtain ⟨row', hrow', hlt⟩ := hfresh
        rw [hid, hrow] at hrow'
        obtain rfl := Option.some.inj hrow'
        rw [Service.Holds, hconsumed, Store.consumeTOTPStep, hid, Table.get?_modify_self, hrow,
          Option.map_some, Option.map_some, if_pos hlt]
        simp only [UserRow.factor, hrsecret, hron]
    · refine Or.inl ⟨h.of_sameFactor ?_, fun _ => if_neg fun hcontra => hid ?_⟩
      · exact (sameFactor_consume hid y.store step).trans (sameFactor_of_users hconsumed)
      · rw [huser] at hcontra
        exact Option.some.inj hcontra.1

/-- One request: the account is what it was, or a later step is used. -/
theorem holds_serve {act : ServiceAct} (h : y.Holds id key on last)
    (hends : ¬ act.Ends y id (appOf account key) on) :
    (y.serve cfg act).1.Holds id key on last ∧
        (on = true → act.usedStep cfg y id (appOf account key) = none) ∨
      on = true ∧ ∃ step, act.usedStep cfg y id (appOf account key) = some step ∧ last < step ∧
        (y.serve cfg act).1.Holds id key on step := by
  cases act with
  | route t req => exact Or.inl ⟨holds_route h hends, fun _ => rfl⟩
  | signIn t peer req =>
    obtain ⟨row, hrow, -⟩ := h.exists_row
    have hsome : (y.store.users.get? id).isSome := Option.isSome_of_eq_some hrow
    have hother : (∀ body, req ≠ .login body) →
        (y.serve cfg (.signIn t peer req)).1.Holds id key on last := fun hreq =>
      h.of_sameFactor (@sameFactor_serve id cfg.auth _ y.door hsome req hreq)
    cases req with
    | login body =>
      cases body with
      | some req => exact holds_login h
      | none =>
        refine Or.inl ⟨h.of_sameFactor ?_, fun _ => rfl⟩
        change SameFactor id y.store (y.door.limitAuth (Service.turnOf cfg t peer)
          fun z => z.handleLogin cfg.auth (Service.turnOf cfg t peer) none).1.store
        unfold SignIn.limitAuth
        split <;> exact SameFactor.refl id y.store
    | _ => exact Or.inl ⟨hother (by simp), fun _ => rfl⟩

/-- Any number of requests while the second factor is off. -/
theorem holds_run {acts : List ServiceAct} (h : y.Holds id key false last)
    (hleft : Undisturbed cfg id (appOf account key) false y acts) :
    (runOut (serviceStep cfg) y acts).1.Holds id key false last := by
  induction acts generalizing y with
  | nil => exact h
  | cons act acts ih =>
    obtain ⟨hserved, -⟩ | ⟨hon, -⟩ := holds_serve h hleft.1
    · exact ih hserved hleft.2
    · exact absurd hon (by decide)

/-- Any number of requests while it is on: the last step is the latest of those used. -/
theorem holds_run_used {acts : List ServiceAct} (h : y.Holds id key true last)
    (hleft : Undisturbed cfg id (appOf account key) true y acts) : ∃ last',
      (runOut (serviceStep cfg) y acts).1.Holds id key true last' ∧
      ∀ step, last' < step ↔
        last < step ∧ ∀ used ∈ usedSteps cfg id (appOf account key) y acts, used < step := by
  induction acts generalizing y last with
  | nil => exact ⟨last, h, fun step => by simp [usedSteps]⟩
  | cons act acts ih =>
    obtain ⟨hserved, hunused⟩ | ⟨-, used, hused, hlt, hserved⟩ := holds_serve h hleft.1
    · obtain ⟨last', hrun, hlast⟩ := ih hserved hleft.2
      refine ⟨last', hrun, fun step => ?_⟩
      rw [hlast, usedSteps, hunused rfl]
      rfl
    · obtain ⟨last', hrun, hlast⟩ := ih hserved hleft.2
      refine ⟨last', hrun, fun step => ?_⟩
      rw [hlast, usedSteps, hused]
      simp only [Option.toList_some, List.cons_append, List.nil_append, List.forall_mem_cons]
      exact ⟨fun hstep => ⟨hlt.trans hstep.1, hstep⟩, fun hstep => hstep.2⟩

/-! ### Switching it on -/

theorem generateSecret_ne_empty (hkey : key ≠ []) : generateSecret key ≠ "" := by
  intro hempty
  have hdecoded := base32Decode_padSecret key
  rw [hempty] at hdecoded
  exact hkey (Option.some.inj hdecoded).symm

/-- The second factor is set up, with the secret that was drawn. -/
theorem serve_setup (cfg : ServiceConfig) {t : RouteTurn} {me : User} (hme : y.caller t = some me)
    (hoff : me.totpEnabled = false) (hdrawn : t.secret = generateSecret key) :
    (y.serve cfg (.route t .setup2FA)).2 = .route (writeJSON 200 (.totp t.secret
        (provisioningURI t.secret me.email "certguard"))) ∧
      (y.serve cfg (.route t .setup2FA)).1.Holds me.id key false 0 := by
  have hresolve : resolveUser y.inside.store t.now t.bearer t.cookie = some me := hme
  have hauthed : y.inside.authed cfg.toConfig t .setup2FA =
      y.inside.onStore (handle2FASetup me t.secret) := by
    rw [Server.authed, hresolve]
    rfl
  have hsetup : handle2FASetup me t.secret y.store =
      (y.store.setUserTOTP me.id t.secret false, writeJSON 200 (.totp t.secret
        (provisioningURI t.secret me.email "certguard"))) := by
    rw [handle2FASetup, if_neg (by simp [hoff])]
  constructor
  · change ServiceAnswer.route (y.inside.authed cfg.toConfig t .setup2FA).2 = _
    rw [hauthed]
    exact congrArg (fun r => ServiceAnswer.route r.2) hsetup
  · change ((y.inside.authed cfg.toConfig t .setup2FA).1.store.users.get? me.id).map _ = _
    rw [hauthed]
    change ((handle2FASetup me t.secret y.store).1.users.get? me.id).map _ = _
    obtain ⟨row, hrow, -⟩ := getUserByID_eq_some_iff.mp (caller_eq_some hme).1
    rw [hsetup, Store.setUserTOTP, Table.get?_modify_self, hrow, hdrawn]
    rfl

/-- It is switched on by a code of the app, and by no other. -/
theorem serve_enable (cfg : ServiceConfig) {t : RouteTurn} (h : y.Holds id key false last)
    (hkey : key ≠ []) (hcalled : y.CalledBy t id) (account code : String) :
    ((y.serve cfg (.route t (.enable2FA (some code)))).2.status = 200 ↔
        ((appOf account key).stepOf (trimSpace code.toList) t.now).isSome) ∧
      ((y.serve cfg (.route t (.enable2FA (some code)))).2.status = 200 →
        (y.serve cfg (.route t (.enable2FA (some code)))).1.Holds id key true 0) := by
  obtain ⟨me, hme, hid⟩ := hcalled
  obtain ⟨hthere, hsecret, -⟩ := h.of_caller hme hid
  obtain ⟨row, hrow, -⟩ := h.exists_row
  have hresolve : resolveUser y.inside.store t.now t.bearer t.cookie = some me := hme
  have hauthed : y.inside.authed cfg.toConfig t (.enable2FA (some code)) =
      y.inside.onStore fun s => handle2FAEnable me t.now s (some code) := by
    rw [Server.authed, hresolve]
    rfl
  have hserve : (y.serve cfg (.route t (.enable2FA (some code)))).2.status =
      (handle2FAEnable me t.now y.store (some code)).2.status := by
    change (y.inside.authed cfg.toConfig t (.enable2FA (some code))).2.status = _
    rw [hauthed]
    rfl
  have hstore : (y.serve cfg (.route t (.enable2FA (some code)))).1.store =
      (handle2FAEnable me t.now y.store (some code)).1 := by
    change (y.inside.authed cfg.toConfig t (.enable2FA (some code))).1.store = _
    rw [hauthed]
    rfl
  have hfilter : (y.store.getUserByID me.id).filter (fun user => user.totpSecret ≠ "") =
      some me := by
    rw [hthere, Option.filter_some, if_pos]
    rw [hsecret]
    exact decide_eq_true (generateSecret_ne_empty hkey)
  rw [hserve, Service.Holds, hstore]
  simp only [handle2FAEnable, hfilter, hsecret, stepOf_eq_validateStep account]
  cases (appOf account key).stepOf (trimSpace code.toList) t.now with
  | none => simp [writeErr]
  | some step =>
    refine ⟨by simp [writeJSON], fun _ => ?_⟩
    rw [hid, Store.setUserTOTP, Table.get?_modify_self, hrow]
    rfl

/-! ### Signing in -/

theorem status_startSession (cfg : AuthConfig) (t : SignInTurn) (s : Store) (user : User) :
    (SignIn.loginAnswer (startSession cfg t.loginEnv s user).2).status = 200 ↔
      s.TakesSession (sessionRow cfg t.now t.session user.id) := by
  by_cases htakes : s.TakesSession (sessionRow cfg t.now t.session user.id)
  · have hstart : startSession cfg t.loginEnv s user =
        (s.createSession (sessionRow cfg t.now t.session user.id), .signedIn user) :=
      if_pos ⟨rfl, htakes⟩
    rw [hstart]
    exact iff_of_true rfl htakes
  · have hstart : startSession cfg t.loginEnv s user = (s, .noSession) :=
      if_neg fun h => htakes h.2
    rw [hstart]
    exact iff_of_false (by simp [SignIn.loginAnswer, writeErr]) htakes

/-- Signing in to an account that asks for codes. -/
theorem status_handleLogin (cfg : AuthConfig) {t : SignInTurn} {email password code : String}
    {user : User} (huser : s.getUserByEmail email = some user)
    (hsecret : user.totpSecret = generateSecret key) (hon : user.totpEnabled = true)
    (account : String) :
    (SignIn.loginAnswer (CertGuard.handleLogin cfg t.loginEnv s email password code).2).status =
        200 ↔
      cfg.compare user.passwordHash password = true ∧
        (∃ step, (appOf account key).stepOf (trimSpace code.toList) t.now = some step ∧
          user.totpLastStep < step) ∧
        s.TakesSession (sessionRow cfg t.now t.session user.id) := by
  have hnow : t.loginEnv.now = t.now := rfl
  have hget : t.loginEnv.getUser = true := rfl
  have hconsume : t.loginEnv.consume = true := rfl
  unfold CertGuard.handleLogin
  simp only [hget, if_true, huser, hon, hsecret, hnow, hconsume, true_and, true_or,
    freshStep_iff huser, stepOf_eq_validateStep account]
  by_cases hmatch : cfg.compare user.passwordHash password = true
  · have hcompare : ¬ cfg.compare user.passwordHash password = false := by simp [hmatch]
    rw [if_neg hcompare]
    cases (appOf account key).stepOf (trimSpace code.toList) t.now with
    | none => simp [SignIn.loginAnswer, writeJSON]
    | some step =>
      by_cases hfresh : user.totpLastStep < step
      · simp only [if_pos hfresh, hmatch, true_and]
        rw [status_startSession]
        -- a code that is used up leaves the sessions alone
        have htakes := @takesSession_consumeTOTPStep s user.id step
          (sessionRow cfg t.now t.session user.id)
        refine htakes.trans ?_
        simp [hfresh]
      · simp only [if_neg hfresh]
        simp [SignIn.loginAnswer, writeJSON, hfresh]
  · have hcompare : cfg.compare user.passwordHash password = false := by simpa using hmatch
    simp [hcompare, SignIn.loginAnswer, writeErr]

/-- A password signs in with a code of the app of a step after the last. -/
theorem serve_login {t : SignInTurn} {peer : Peer} {req : LoginRequest} {user : User}
    (h : y.Holds id key true last) (huser : y.store.getUserByEmail req.email = some user)
    (hid : user.id = id) (account : String) :
    (y.serve cfg (.signIn t peer (.login (some req)))).2.status = 200 ↔
      (y.loginLimiter.allow (String.ofList (clientIP cfg.trustedProxy peer)) t.now).2 = true ∧
        cfg.auth.compare user.passwordHash req.password = true ∧
        (∃ step, (appOf account key).stepOf (trimSpace req.code.toList) t.now = some step ∧
          last < step) ∧
        y.store.TakesSession (sessionRow cfg.auth t.now t.session id) := by
  obtain ⟨husecret, huon, rfl⟩ := h.of_email huser hid
  change (y.door.limitAuth (Service.turnOf cfg t peer)
    fun z => z.handleLogin cfg.auth (Service.turnOf cfg t peer) (some req)).2.status = 200 ↔ _
  rw [SignIn.limitAuth]
  have hallow : y.door.loginLimiter.allow (Service.turnOf cfg t peer).ip
      (Service.turnOf cfg t peer).now =
        y.loginLimiter.allow (String.ofList (clientIP cfg.trustedProxy peer)) t.now := rfl
  rw [hallow]
  rcases y.loginLimiter.allow (String.ofList (clientIP cfg.trustedProxy peer)) t.now with ⟨rl, ok⟩
  cases ok with
  | false => simp [writeErr]
  | true =>
    change (SignIn.loginAnswer (CertGuard.handleLogin cfg.auth
      (Service.turnOf cfg t peer).loginEnv y.store req.email req.password req.code).2).status = 200
        ↔ _
    rw [status_handleLogin cfg.auth huser husecret huon account, hid]
    exact (and_iff_right rfl).symm

/-- From the set-up to any later sign-in, over every run of the server in between, whoever else it
serves meanwhile. The app that scans the URI of the set-up has the key of the account. As long as
the user does not start over and is not deleted, the second factor is switched on by the codes the
app shows around that time, and by no others; and from then on, until a code of the app switches it
off or on once more or the user is deleted, a password signs in exactly with a code the app shows
around that time for a step after each of those used so far, where the limiter lets the request
through and the session drawn is a new one. -/
theorem enrolment_lasts (cfg : ServiceConfig) (y : Service) (t : RouteTurn) (me : User)
    (key : List UInt8) (hlength : key.length = 20) (hdrawn : t.secret = generateSecret key)
    (hme : y.caller t = some me) (hoff : me.totpEnabled = false) :
    ∃ uri, (y.serve cfg (.route t .setup2FA)).2 = .route (writeJSON 200 (.totp t.secret uri)) ∧
      Authenticator.scan uri = some (appOf me.email key) ∧
      ∀ acts, Undisturbed cfg me.id (appOf me.email key) false
        (y.serve cfg (.route t .setup2FA)).1 acts →
      ∀ z, z = (runOut (serviceStep cfg) (y.serve cfg (.route t .setup2FA)).1 acts).1 →
      ∀ t₁ code, z.CalledBy t₁ me.id →
        ((z.serve cfg (.route t₁ (.enable2FA (some code)))).2.status = 200 ↔
          ((appOf me.email key).stepOf (trimSpace code.toList) t₁.now).isSome) ∧
        ((z.serve cfg (.route t₁ (.enable2FA (some code)))).2.status = 200 →
          ∀ acts₁, Undisturbed cfg me.id (appOf me.email key) true
            (z.serve cfg (.route t₁ (.enable2FA (some code)))).1 acts₁ →
          ∀ w, w = (runOut (serviceStep cfg)
            (z.serve cfg (.route t₁ (.enable2FA (some code)))).1 acts₁).1 →
          ∀ t₂ peer req user, w.store.getUserByEmail req.email = some user → user.id = me.id →
            ((w.serve cfg (.signIn t₂ peer (.login (some req)))).2.status = 200 ↔
              (w.loginLimiter.allow (String.ofList (clientIP cfg.trustedProxy peer)) t₂.now).2 =
                  true ∧
                cfg.auth.compare user.passwordHash req.password = true ∧
                (∃ step,
                  (appOf me.email key).stepOf (trimSpace req.code.toList) t₂.now = some step ∧
                    0 < step ∧
                    ∀ used ∈ usedSteps cfg me.id (appOf me.email key)
                      (z.serve cfg (.route t₁ (.enable2FA (some code)))).1 acts₁, used < step) ∧
                w.store.TakesSession (sessionRow cfg.auth t₂.now t₂.session me.id))) := by
  have hkey : key ≠ [] := by
    rintro rfl
    exact absurd hlength (by decide)
  obtain ⟨hanswer, hholds⟩ := serve_setup cfg hme hoff hdrawn
  refine ⟨_, hanswer, ?_, fun acts hleft z hz t₁ code hcalled => ?_⟩
  · rw [hdrawn, scan_provisioningURI]
  subst hz
  have hwaiting := holds_run hholds hleft
  obtain ⟨htaken, hon⟩ := serve_enable cfg hwaiting hkey hcalled me.email code
  refine ⟨htaken, fun hstatus acts₁ hleft₁ w hw t₂ peer req user huser hid => ?_⟩
  subst hw
  obtain ⟨last, hused, hlast⟩ := holds_run_used (hon hstatus) hleft₁
  rw [serve_login hused huser hid me.email]
  simp only [hlast]

/-- An account with a password and a token. -/
def demoAccount : Service where
  host :=
    { vault := {}
      keyFile := none
      store :=
        { users := Table.empty.insert
            ⟨"ann@example.org", "$2a$10$long enough", .admin, "", false, 0⟩
          tokens := Table.empty.insert ⟨1, "token"⟩ } }

/-- A request that draws a secret, in the second step. -/
def drawingTurn : RouteTurn :=
  { (tokenAct .setup2FA).turn with
    now := 30 * Rfc3339.oneSecond
    secret := generateSecret (List.replicate 20 7) }

/-- The app that has scanned it; in the first three steps it shows 582840, 428410 and 116142. -/
def demoApp : Authenticator := appOf "ann@example.org" (List.replicate 20 7)

/-- A request to sign in, in a step, that draws a session. -/
def codeTurn (step : Int) (session : String) : SignInTurn where
  now := 30 * step * Rfc3339.oneSecond
  webAuthn := .error "unknown host"
  session := session

/-- The password with a code. -/
def codeRequest (code : String) : LoginRequest := ⟨"ann@example.org", "long enough", code⟩

/-- Somebody signs in. -/
def codeSignIn (step : Int) (session code : String) : ServiceAct :=
  .signIn (codeTurn step session) ⟨"10.0.0.1:5000".toList, []⟩ (.login (some (codeRequest code)))

/-- The second factor is switched on, after a sign-in without. -/
def demoSwitchedOn : Service :=
  let drawn := (demoAccount.serve demoServiceConfig (.route drawingTurn .setup2FA)).1
  let waiting := (runOut (serviceStep demoServiceConfig) drawn [codeSignIn 1 "first" ""]).1
  (waiting.serve demoServiceConfig (.route drawingTurn (.enable2FA (some "582840")))).1

/-- Somebody has signed in with the next code. -/
def demoEnrolled : Service :=
  (runOut (serviceStep demoServiceConfig) demoSwitchedOn [codeSignIn 2 "second" "428410"]).1

/-- The code after that signs in, and the one that was used does not once more. -/
theorem enrolment_lasts_demo : ∃ uri,
    (demoAccount.serve demoServiceConfig (.route drawingTurn .setup2FA)).2 =
        .route (writeJSON 200 (.totp drawingTurn.secret uri)) ∧
      Authenticator.scan uri = some demoApp ∧
      (demoEnrolled.serve demoServiceConfig (codeSignIn 3 "third" "116142")).2.status = 200 ∧
      (demoEnrolled.serve demoServiceConfig (codeSignIn 2 "third" "428410")).2.status ≠ 200 := by
  have hcaller : demoAccount.caller drawingTurn = some (scanUser 1
      ⟨"ann@example.org", "$2a$10$long enough", .admin, "", false, 0⟩) := by
    decide
  obtain ⟨uri, hanswer, hscan, hrest⟩ := enrolment_lasts demoServiceConfig demoAccount
    drawingTurn _ (List.replicate 20 7) List.length_replicate rfl hcaller rfl
  refine ⟨uri, hanswer, hscan, ?_⟩
  obtain ⟨htaken, hlasts⟩ := hrest [codeSignIn 1 "first" ""] ⟨id, trivial⟩ _ rfl drawingTurn
    "582840" ⟨_, rfl, rfl⟩
  have hon := htaken.mpr (by decide +kernel)
  have hsignIn := hlasts hon [codeSignIn 2 "second" "428410"] ⟨id, trivial⟩ demoEnrolled rfl
  -- the account after that, with the step that was used
  have hstate : usedSteps demoServiceConfig 1 demoApp demoSwitchedOn
        [codeSignIn 2 "second" "428410"] = [1] ∧
      (demoEnrolled.store.getUserByEmail "ann@example.org").map
        (fun user => (user.id, user.passwordHash)) = some (1, "$2a$10$long enough") ∧
      (demoEnrolled.loginLimiter.allow "10.0.0.1" (codeTurn 3 "third").now).2 = true ∧
      demoEnrolled.store.TakesSession
        (sessionRow demoConfig (codeTurn 3 "third").now "third" 1) := by
    decide +kernel
  obtain ⟨hused, haccount, hallowed, htakes⟩ := hstate
  obtain ⟨user, huser, hrow⟩ := Option.map_eq_some_iff.mp haccount
  obtain ⟨hid, hhash⟩ := Prod.mk.inj hrow
  have hmatch : demoConfig.compare user.passwordHash "long enough" = true := by
    rw [hhash]
    decide
  constructor
  · refine (hsignIn (codeTurn 3 "third") _ (codeRequest "116142") user huser hid).mpr
      ⟨hallowed, hmatch, ⟨2, by decide +kernel, by decide, ?_⟩, htakes⟩
    change ∀ used ∈ usedSteps demoServiceConfig 1 demoApp demoSwitchedOn
      [codeSignIn 2 "second" "428410"], used < 2
    rw [hused]
    decide
  · intro hstatus
    obtain ⟨-, -, ⟨step, hshown, -, hlater⟩, -⟩ :=
      (hsignIn (codeTurn 2 "third") _ (codeRequest "428410") user huser hid).mp hstatus
    have hfirst : demoApp.stepOf (trimSpace "428410".toList) (codeTurn 2 "third").now = some 1 := by
      decide +kernel
    obtain rfl := Option.some.inj (hfirst.symm.trans hshown)
    change ∀ used ∈ usedSteps demoServiceConfig 1 demoApp demoSwitchedOn
      [codeSignIn 2 "second" "428410"], used < 1 at hlater
    rw [hused] at hlater
    exact absurd (hlater 1 List.mem_cons_self) (lt_irrefl 1)

end Runs

end CertGuard
