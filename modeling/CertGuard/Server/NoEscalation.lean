import CertGuard.Server.Entrances

/-!
# Nobody becomes an admin

What only admins may do is done only for requests that come with what an admin holds: a token or
a session of an admin from before, or a sign-in of an admin. Any number of requests without it,
whatever they are and in any order, leave the entries, the keyring, the vault and the accounts as
they were.

## Main definitions

* `Service.IsAdmin`, `Service.AdminHolds` — the admins, and requests that come with what they hold
* `Fenced` — what is left as it was

## Main results

* `fenced_serve` — one request
* `no_escalation` — any run
-/

namespace CertGuard

open Transition

variable {cfg : ServiceConfig} {y z : Service}

/-- The user with an id is an admin. -/
def Service.IsAdmin (y : Service) (id : Int) : Prop :=
  ∃ row, y.store.users.get? id = some row ∧ row.role = .admin

/-- A request comes with a token or with a session of an admin. -/
def Service.AdminHolds (y : Service) (t : RouteTurn) : Prop :=
  ∃ id, y.IsAdmin id ∧
    ((∃ r ∈ y.store.tokens.rows, t.bearer = some r.2.tokenHash ∧ r.2.userId = id) ∨
      ∃ r ∈ y.store.sessions.rows, t.cookie = some r.2.sessionHash ∧ r.2.userId = id)

/-- The vault with its key file, the entries, the keyring, the tokens with their users and the
standing of every user are as they were; there are no new wrappers, and no new sessions of
admins. -/
structure Fenced (y z : Service) : Prop where
  vault : z.host.vault = y.host.vault
  keyFile : z.host.keyFile = y.host.keyFile
  certs : z.store.certs = y.store.certs
  keyring : z.store.keyring = y.store.keyring
  tokens : z.store.tokens = y.store.tokens
  standing : ∀ id, (z.store.users.get? id).map UserRow.standing
    = (y.store.users.get? id).map UserRow.standing
  wrappers : ∀ w ∈ z.store.wrappers, w ∈ y.store.wrappers
  sessions : ∀ r ∈ z.store.sessions.rows, r ∈ y.store.sessions.rows ∨ ¬ y.IsAdmin r.2.userId

theorem Fenced.refl (y : Service) : Fenced y y :=
  ⟨rfl, rfl, rfl, rfl, rfl, fun _ => rfl, fun _ h => h, fun _ h => Or.inl h⟩

/-- What a request of no admin does goes on from there. -/
theorem Fenced.keeps {h : Host} (hg : Fenced y z) (hk : Keeps z.host h) (c : CeremonyStore)
    (rl : RateLimiter) : Fenced y ⟨h, c, rl⟩ := by
  refine ⟨hk.vault.trans hg.vault, hk.keyFile.trans hg.keyFile, hk.store.certs.trans hg.certs,
    hk.store.keyring.trans hg.keyring, hk.store.tokens.trans hg.tokens,
    fun id => (hk.store.standing id).trans (hg.standing id),
    fun w hw => hg.wrappers w (hk.store.wrappers w hw),
    fun r hr => hg.sessions r (hk.store.sessions r hr)⟩

/-- The admins are the same. -/
theorem Fenced.isAdmin_iff (hg : Fenced y z) {id : Int} : z.IsAdmin id ↔ y.IsAdmin id := by
  have hrole : ∀ x : Service, x.IsAdmin id ↔
      ∃ st ∈ (x.store.users.get? id).map UserRow.standing, st.2.2 = .admin := by
    intro x
    constructor
    · rintro ⟨row, hrow, hadmin⟩
      exact ⟨row.standing, by rw [hrow]; rfl, hadmin⟩
    · rintro ⟨st, hst, hadmin⟩
      obtain ⟨row, hrow, rfl⟩ := Option.map_eq_some_iff.mp hst
      exact ⟨row, hrow, hadmin⟩
  rw [hrole z, hrole y, hg.standing id]

/-- There are users as long as there were. -/
theorem Fenced.countUsers_pos (hg : Fenced y z) (h : 0 < y.store.countUsers) :
    0 < z.store.countUsers := by
  obtain ⟨r, hr⟩ := List.exists_mem_of_length_pos h
  have hthere : y.store.users.get? r.1 = some r.2 := Table.mem_rows_iff.mp hr
  have hstanding := hg.standing r.1
  rw [hthere] at hstanding
  obtain ⟨row, hrow, -⟩ := Option.map_eq_some_iff.mp hstanding
  exact List.length_pos_of_mem (Table.mem_rows_iff.mpr hrow)

/-- Nobody is let in as an admin without what an admin holds. -/
theorem Fenced.caller_not_admin (hg : Fenced y z) {t : RouteTurn} {me : User}
    (ht : ¬ y.AdminHolds t) (hme : z.caller t = some me) : me.isAdmin = false := by
  by_contra hadmin
  obtain ⟨hfound, hways⟩ := caller_eq_some hme
  obtain ⟨row, hrow, huser⟩ := getUserByID_eq_some_iff.mp hfound
  have hrole : row.role = .admin := by
    have hsame : me.role = row.role := by rw [← huser]; rfl
    rw [← hsame]
    simpa [User.isAdmin] using hadmin
  have hisAdmin : y.IsAdmin me.id := hg.isAdmin_iff.mp ⟨row, hrow, hrole⟩
  refine ht ⟨me.id, hisAdmin, ?_⟩
  obtain ⟨r, hr, hbearer, hid⟩ | ⟨-, r, hr, hcookie, hid, -⟩ := hways
  · rw [hg.tokens] at hr
    exact Or.inl ⟨r, hr, hbearer, hid⟩
  · obtain hold | hno := hg.sessions r hr
    · exact Or.inr ⟨r, hold, hcookie, hid⟩
    · exact absurd hisAdmin (hid ▸ hno)

/-- A request behind a sign-in that comes with nothing of an admin's. -/
theorem fenced_route (hg : Fenced y z) {t : RouteTurn} (req : RouteRequest)
    (ht : ¬ y.AdminHolds t) :
    Fenced y (z.serve cfg (.route t req)).1 ∧
      (req.adminOnly = true → (z.serve cfg (.route t req)).2.status = 401 ∨
        (z.serve cfg (.route t req)).2.status = 403) := by
  obtain ⟨-, hvault, hfile, hpersonal, hstatus⟩ | ⟨me, hme, -, -, hserved⟩ |
      ⟨me, hme, hadmin, hserved⟩ :=
    authed_cases cfg.toConfig t z.inside req
  · exact ⟨hg.keeps ⟨hvault, hfile, hpersonal⟩ _ _, fun _ => Or.inl hstatus⟩
  · have hres : z.serve cfg (.route t req) = (z, .route (writeErr 403 "admin role required")) := by
      simp only [Service.serve, hserved]
      rfl
    rw [hres]
    exact ⟨hg, fun _ => Or.inr rfl⟩
  · have hno : me.isAdmin = false := hg.caller_not_admin ht hme
    have hreq : req.adminOnly = false := by
      by_contra hreq
      rw [hadmin (by simpa using hreq)] at hno
      exact absurd hno (by simp)
    have hkeeps : Keeps z.host (z.inside.authed cfg.toConfig t req).1.host := by
      rw [hserved]
      exact keeps_dispatch cfg.toConfig t me z.inside hreq
    exact ⟨hg.keeps hkeeps _ _, fun h => absurd (h.symm.trans hreq) (by simp)⟩

/-- A request to sign in, once there is a user. -/
theorem fenced_signIn (hg : Fenced y z) (husers : 0 < y.store.countUsers) (t : SignInTurn)
    (peer : Peer) (req : SignInRequest)
    (hsign : ∀ user turn, Exchange.SignsIn
      (.signIn t peer req, (z.serve cfg (.signIn t peer req)).2) user turn → ¬ y.IsAdmin user.id) :
    Fenced y (z.serve cfg (.signIn t peer req)).1 := by
  obtain ⟨s, -, hpersonal, hopens⟩ :=
    @opens_serve cfg.auth (Service.turnOf cfg t peer) z.door req
  have hkept := hpersonal (hg.countUsers_pos husers)
  have hkeeps : Keeps z.host { z.host with store := s } := ⟨rfl, rfl, hkept⟩
  have hs := hg.keeps hkeeps z.ceremonies z.loginLimiter
  obtain ⟨hsame, -⟩ | ⟨user, htakes, hcreated, hans⟩ := hopens
  · have hstore : (z.serve cfg (.signIn t peer req)).1.store = s := hsame
    exact ⟨hs.vault, hs.keyFile, hstore ▸ hs.certs, hstore ▸ hs.keyring, hstore ▸ hs.tokens,
      hstore ▸ hs.standing, hstore ▸ hs.wrappers, hstore ▸ hs.sessions⟩
  · have hstore : (z.serve cfg (.signIn t peer req)).1.store = { s with
        sessions := s.sessions.insert (sessionRow cfg.auth t.now t.session user.id) } :=
      hcreated.trans (if_pos htakes)
    have hanswer : (z.serve cfg (.signIn t peer req)).2 =
        .signIn (writeJSON 200 (.user user.body)) :=
      congrArg ServiceAnswer.signIn hans
    have hno : ¬ y.IsAdmin user.id := hsign user.body t ⟨peer, req, by rw [hanswer]⟩
    refine ⟨hs.vault, hs.keyFile, ?_, ?_, ?_, ?_, ?_, ?_⟩
    · rw [hstore]
      exact hs.certs
    · rw [hstore]
      exact hs.keyring
    · rw [hstore]
      exact hs.tokens
    · rw [hstore]
      exact hs.standing
    · rw [hstore]
      exact hs.wrappers
    · intro r hr
      rw [hstore] at hr
      rcases List.mem_append.mp hr with hold | hnew
      · exact hs.sessions r hold
      · -- the one new session is not an admin's
        obtain rfl := List.mem_singleton.mp hnew
        exact Or.inr hno

/-- The run lemma, from any state that was reached so. -/
theorem no_escalation_from (husers : 0 < y.store.countUsers) (acts : List ServiceAct)
    (hg : Fenced y z)
    (hcreds : ∀ t req, ServiceAct.route t req ∈ acts → ¬ y.AdminHolds t)
    (hsign : ∀ e ∈ (runOut (serviceStep cfg) z acts).2, ∀ user turn, e.SignsIn user turn →
      ¬ y.IsAdmin user.id) :
    Fenced y (runOut (serviceStep cfg) z acts).1 ∧
      ∀ e ∈ (runOut (serviceStep cfg) z acts).2, ∀ t req, e.1 = .route t req →
        req.adminOnly = true → e.2.status = 401 ∨ e.2.status = 403 := by
  induction acts generalizing z with
  | nil => exact ⟨hg, fun e he => absurd he List.not_mem_nil⟩
  | cons act acts ih =>
    have hhead : (act, (z.serve cfg act).2) ∈ (runOut (serviceStep cfg) z (act :: acts)).2 :=
      List.mem_append_left _ (List.mem_singleton_self _)
    have htail : ∀ e ∈ (runOut (serviceStep cfg) (z.serve cfg act).1 acts).2,
        e ∈ (runOut (serviceStep cfg) z (act :: acts)).2 := fun e he =>
      List.mem_append_right _ he
    -- what the first request does, and that it was turned away where it asked for more
    have hstep : Fenced y (z.serve cfg act).1 ∧ ∀ t req, act = .route t req →
        req.adminOnly = true →
          (z.serve cfg act).2.status = 401 ∨ (z.serve cfg act).2.status = 403 := by
      cases act with
      | route t req =>
        have hroute := @fenced_route cfg y z hg t req (hcreds t req List.mem_cons_self)
        refine ⟨hroute.1, fun t' req' heq => ?_⟩
        obtain ⟨rfl, rfl⟩ := ServiceAct.route.inj heq
        exact hroute.2
      | signIn t peer req =>
        refine ⟨fenced_signIn hg husers t peer req (hsign _ hhead), fun t' req' heq => ?_⟩
        exact absurd heq (by simp)
    obtain ⟨hguarded, hdenied⟩ := ih hstep.1
      (fun t req h => hcreds t req (List.mem_cons_of_mem _ h))
      (fun e he => hsign e (htail e he))
    refine ⟨hguarded, fun e he t req heq hreq => ?_⟩
    rcases List.mem_append.mp he with hfirst | hrest
    · obtain rfl := List.mem_singleton.mp hfirst
      exact hstep.2 t req heq hreq
    · exact hdenied e hrest t req heq hreq

/-- Once there is a user, which is when setting up is over: in any run of requests none of which
comes with a token or a session of an admin, and none of which signs an admin in, the vault and its
key file, the entries, the keyring, which tokens there are and whose, and the standing of every user
stay as they were, no wrapper and no session of an admin is added, and every request for admins only
is turned away. -/
theorem no_escalation (cfg : ServiceConfig) (y : Service) (acts : List ServiceAct)
    (husers : 0 < y.store.countUsers)
    (hcreds : ∀ t req, ServiceAct.route t req ∈ acts → ¬ y.AdminHolds t)
    (hsign : ∀ e ∈ (runOut (serviceStep cfg) y acts).2, ∀ user turn, e.SignsIn user turn →
      ¬ y.IsAdmin user.id) :
    Fenced y (runOut (serviceStep cfg) y acts).1 ∧
      ∀ e ∈ (runOut (serviceStep cfg) y acts).2, ∀ t req, e.1 = .route t req →
        req.adminOnly = true → e.2.status = 401 ∨ e.2.status = 403 :=
  no_escalation_from husers acts (Fenced.refl y) hcreds hsign

/-- The second user tries to delete the first, to read the key, and signs out. -/
def demoIntruder : List ServiceAct :=
  [.route cookieTurn (.deleteUser (some 1)), .route cookieTurn .backupKey,
    .route cookieTurn .setup2FA, .route cookieTurn .logout]

theorem no_escalation_demo :
    (runOut (serviceStep demoServiceConfig) demoSession demoIntruder).1.store.certs
        = demoSession.store.certs ∧
      ((runOut (serviceStep demoServiceConfig) demoSession demoIntruder).2.map fun e => e.2.status)
        = [403, 403, 200, 200] := by
  have hcreds : ∀ t req, ServiceAct.route t req ∈ demoIntruder → ¬ demoSession.AdminHolds t := by
    intro t req h
    have ht : t = cookieTurn := by
      simp only [demoIntruder, List.mem_cons, ServiceAct.route.injEq, List.not_mem_nil,
        or_false] at h
      tauto
    subst ht
    rintro ⟨id, ⟨row, hrow, hadmin⟩, ⟨r, -, hbearer, -⟩ | ⟨r, hr, -, rfl⟩⟩
    · exact absurd hbearer (by simp [cookieTurn])
    · obtain rfl := List.mem_singleton.mp hr
      -- the session is the second user's, who is no admin
      have hrow' : demoSession.store.users.get? 2 = some row := hrow
      have hviewer : demoSession.store.users.get? 2
          = some ⟨"bob@example.org", "", .viewer, "", false, 0⟩ := by decide
      obtain rfl := Option.some.inj (hviewer.symm.trans hrow')
      exact absurd hadmin (by decide)
  have hsign : ∀ e ∈ (runOut (serviceStep demoServiceConfig) demoSession demoIntruder).2,
      ∀ user turn, e.SignsIn user turn → ¬ demoSession.IsAdmin user.id := by
    rintro e he user turn ⟨peer, req, rfl⟩
    have hacts : ∀ e ∈ (runOut (serviceStep demoServiceConfig) demoSession demoIntruder).2,
        ∃ t req, e.1 = .route t req := by
      simp [demoIntruder, serviceStep]
    obtain ⟨t, req', h⟩ := hacts _ he
    exact absurd h (by simp)
  have h := no_escalation demoServiceConfig demoSession demoIntruder (by decide) hcreds hsign
  exact ⟨h.1.certs, by decide⟩

end CertGuard
