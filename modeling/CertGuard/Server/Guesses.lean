import CertGuard.Server.Entrances
import CertGuard.Server.RateLimiting

/-!
# How many guesses a client has

The five ways to sign in and the setup share one limiter, asked by the address a request comes
from. In a run of the whole server, a client gets an answer from their handlers at most ten times
in any fifteen minutes, whatever it sends along and whatever others do meanwhile.

## Main definitions

* `SignInRequest.limited` — the requests that go through `limitAuth`
* `attempt`, `handledFrom` — what the limiter sees of an exchange, and the instants at which a
  handler has answered a client

## Main results

* `run_limiter` — a run of the server is one of the limiter
* `guesses_bounded` — how many answers a client gets, and when it is turned away
-/

namespace CertGuard

open SlidingWindow Transition

/-- The requests that go through `limitAuth`. -/
def SignInRequest.limited : SignInRequest → Bool
  | .setupStatus => false
  | _ => true

/-- When a request to sign in is made. -/
def ServiceAct.signInTime : ServiceAct → Option Int
  | .route _ _ => none
  | .signIn t _ _ => some t.now

/-- The call of the limiter a request leads to. -/
def ServiceAct.call (cfg : ServiceConfig) : ServiceAct → Option (Call String Int)
  | .route _ _ => none
  | .signIn t peer req =>
    if req.limited then some ⟨String.ofList (clientIP cfg.trustedProxy peer), t.now⟩ else none

/-- The same with its answer: the limiter alone answers 429. -/
def attempt (cfg : ServiceConfig) (e : Exchange) : Option (Entry String Int) :=
  (e.1.call cfg).map fun c => ⟨c, e.2.status ≠ 429⟩

/-- When a handler behind the limiter has answered a client. -/
def handledFrom (host : List Char) (log : List Exchange) : List Int :=
  log.filterMap fun e =>
    match e.1 with
    | .route _ _ => none
    | .signIn t peer req =>
      if req.limited = true ∧ clientIP false peer = host ∧ e.2.status ≠ 429 then some t.now
      else none

/-! ### What handlers leave to the limiter -/

section Handlers

variable {cfg : AuthConfig} {t : SignInTurn} {y : SignIn}

/-- A handler does not touch the limiter, and does not answer as it does. -/
structure Handled (y : SignIn) (r : SignIn × Answer SignInBody) : Prop where
  limiter : r.1.loginLimiter = y.loginLimiter
  status : r.2.status ≠ 429

theorem handled_writeErr {y' : SignIn} {status : Nat} {msg : String}
    (hlimiter : y'.loginLimiter = y.loginLimiter) (hstatus : status ≠ 429) :
    Handled y (y', writeErr status msg) := ⟨hlimiter, hstatus⟩

theorem status_loginAnswer (res : LoginResult) : (SignIn.loginAnswer res).status ≠ 429 := by
  cases res <;> simp [SignIn.loginAnswer, writeErr, writeJSON]

theorem handled_handleLogin (body : Option LoginRequest) :
    Handled y (y.handleLogin cfg t body) := by
  cases body with
  | none => exact handled_writeErr rfl (by decide)
  | some req => exact ⟨rfl, status_loginAnswer _⟩

theorem handled_webAuthnBegin (body : Option LoginRequest) :
    Handled y (y.handleWebAuthnLoginBegin cfg t body) := by
  unfold SignIn.handleWebAuthnLoginBegin
  dsimp only
  repeat' split
  all_goals first
    | exact handled_writeErr rfl (by decide)
    | exact ⟨rfl, by simp [writeJSON]⟩

theorem limiter_takeCeremony : (y.takeCeremony t).1.loginLimiter = y.loginLimiter := by
  rw [SignIn.takeCeremony]
  cases t.ceremony <;> rfl

theorem handled_webAuthnFinish (assertion : String) :
    Handled y (y.handleWebAuthnLoginFinish cfg t assertion) := by
  have htaken : (y.takeCeremony t).1.loginLimiter = y.loginLimiter := limiter_takeCeremony
  unfold SignIn.handleWebAuthnLoginFinish
  generalize y.takeCeremony t = taken at htaken
  obtain ⟨y', cer⟩ := taken
  cases cer with
  | none => exact handled_writeErr htaken (by decide)
  | some cer =>
    dsimp only
    repeat' split
    all_goals first
      | exact handled_writeErr htaken (by decide)
      | exact ⟨htaken, status_loginAnswer _⟩

theorem handled_passkeyBegin : Handled y (y.handlePasskeyBegin t) := by
  unfold SignIn.handlePasskeyBegin
  repeat' split
  all_goals first
    | exact handled_writeErr rfl (by decide)
    | exact ⟨rfl, by simp [writeJSON]⟩

theorem handled_passkeyFinish (assertion : String) :
    Handled y (y.handlePasskeyFinish cfg t assertion) := by
  have htaken : (y.takeCeremony t).1.loginLimiter = y.loginLimiter := limiter_takeCeremony
  unfold SignIn.handlePasskeyFinish
  generalize y.takeCeremony t = taken at htaken
  obtain ⟨y', cer⟩ := taken
  cases cer with
  | none => exact handled_writeErr htaken (by decide)
  | some cer =>
    dsimp only
    repeat' split
    all_goals first
      | exact handled_writeErr htaken (by decide)
      | exact ⟨htaken, status_loginAnswer _⟩

theorem handled_handleSetup (body : Option LoginRequest) :
    Handled y (y.handleSetup cfg t body) := by
  unfold SignIn.handleSetup
  dsimp only
  repeat' split
  all_goals first
    | exact handled_writeErr rfl (by decide)
    | exact ⟨rfl, status_loginAnswer _⟩

theorem serve_limitAuth {next : SignIn → SignIn × Answer SignInBody}
    (hnext : ∀ y, Handled y (next y)) :
    (y.limitAuth t next).1.loginLimiter = (y.loginLimiter.allow t.ip t.now).1 ∧
      ((y.limitAuth t next).2.status ≠ 429 ↔ (y.loginLimiter.allow t.ip t.now).2 = true) := by
  unfold SignIn.limitAuth
  generalize y.loginLimiter.allow t.ip t.now = r
  obtain ⟨rl, ok⟩ := r
  cases ok with
  | true =>
    have h := hnext { y with loginLimiter := rl }
    exact ⟨h.limiter, iff_of_true h.status rfl⟩
  | false => exact ⟨rfl, iff_of_false (by simp [writeErr]) (by simp)⟩

/-- A request behind the limiter is answered by its handler just when the limiter lets it
through. -/
theorem serve_limited {req : SignInRequest} (hreq : req.limited = true) :
    (y.serve cfg t req).1.loginLimiter = (y.loginLimiter.allow t.ip t.now).1 ∧
      ((y.serve cfg t req).2.status ≠ 429 ↔ (y.loginLimiter.allow t.ip t.now).2 = true) := by
  cases req with
  | setupStatus => exact absurd hreq (by simp [SignInRequest.limited])
  | login body => exact serve_limitAuth fun _ => handled_handleLogin body
  | webAuthnBegin body => exact serve_limitAuth fun _ => handled_webAuthnBegin body
  | webAuthnFinish assertion => exact serve_limitAuth fun _ => handled_webAuthnFinish assertion
  | passkeyBegin => exact serve_limitAuth fun _ => handled_passkeyBegin
  | passkeyFinish assertion => exact serve_limitAuth fun _ => handled_passkeyFinish assertion
  | setup body => exact serve_limitAuth fun _ => handled_handleSetup body

end Handlers

/-! ### A run of the server as a run of the limiter -/

section Runs

variable {cfg : ServiceConfig} {y : Service}

/-- One request: the limiter is asked where the request has a call for it, and left alone
otherwise. -/
theorem limiter_serve (cfg : ServiceConfig) (y : Service) (act : ServiceAct) :
    (act.call cfg = none → (y.serve cfg act).1.loginLimiter = y.loginLimiter) ∧
    ∀ c, act.call cfg = some c →
      (y.serve cfg act).1.loginLimiter = (y.loginLimiter.allow c.key c.time).1 ∧
      ((y.serve cfg act).2.status ≠ 429 ↔ (y.loginLimiter.allow c.key c.time).2 = true) := by
  cases act with
  | route t req => exact ⟨fun _ => rfl, fun c hc => absurd hc (by simp [ServiceAct.call])⟩
  | signIn t peer req =>
    simp only [ServiceAct.call]
    by_cases hreq : req.limited = true
    · rw [if_pos hreq]
      refine ⟨fun h => absurd h (by simp), fun c hc => ?_⟩
      obtain rfl := Option.some.inj hc
      exact @serve_limited cfg.auth (Service.turnOf cfg t peer) y.door req hreq
    · rw [if_neg hreq]
      refine ⟨fun _ => ?_, fun c hc => absurd hc (by simp)⟩
      cases req with
      | setupStatus => rfl
      | _ => exact absurd rfl hreq

/-- What the limiter does in a run of the server is what it does with the calls the requests
lead to. -/
theorem run_limiter (cfg : ServiceConfig) (y : Service) (acts : List ServiceAct) :
    (runOut (serviceStep cfg) y acts).1.loginLimiter =
        (runOut RateLimiter.answer y.loginLimiter (acts.filterMap (ServiceAct.call cfg))).1 ∧
      (runOut (serviceStep cfg) y acts).2.filterMap (attempt cfg) =
        (runOut RateLimiter.answer y.loginLimiter (acts.filterMap (ServiceAct.call cfg))).2 := by
  induction acts generalizing y with
  | nil => exact ⟨rfl, rfl⟩
  | cons act acts ih =>
    obtain ⟨hfree, hcall⟩ := limiter_serve cfg y act
    obtain ⟨hend, hlog⟩ := ih (y.serve cfg act).1
    rw [runOut_cons_fst, runOut_cons_snd]
    simp only [serviceStep, List.singleton_append, List.filterMap_cons, attempt]
    cases hc : act.call cfg with
    | none =>
      rw [hfree hc] at hend hlog
      exact ⟨hend, hlog⟩
    | some c =>
      obtain ⟨hlimiter, hstatus⟩ := hcall c hc
      -- the status tells what the limiter has said
      have hsaid : decide ((y.serve cfg act).2.status ≠ 429)
          = (y.loginLimiter.allow c.key c.time).2 := by
        rw [Bool.eq_iff_iff, decide_eq_true_iff]
        exact hstatus
      have hanswer : RateLimiter.answer y.loginLimiter c =
          ((y.serve cfg act).1.loginLimiter, [⟨c, decide ((y.serve cfg act).2.status ≠ 429)⟩]) := by
        rw [RateLimiter.answer, RateLimiter.allowInPlace_eq, hlimiter, hsaid]
      rw [runOut_cons_fst, runOut_cons_snd, hanswer]
      exact ⟨hend, congrArg (_ :: ·) hlog⟩

/-- What the limiter has admitted of a client is when a handler has answered it. -/
theorem admittedTimes_attempt (hproxy : cfg.trustedProxy = false) (host : List Char)
    (log : List Exchange) :
    admittedTimes (log.filterMap (attempt cfg)) (String.ofList host) = handledFrom host log := by
  induction log with
  | nil => rfl
  | cons e log ih =>
    rw [handledFrom, List.filterMap_cons, List.filterMap_cons]
    obtain ⟨act, ans⟩ := e
    cases act with
    | route t req => exact ih
    | signIn t peer req =>
      by_cases hreq : req.limited = true
      · have hattempt : attempt cfg (.signIn t peer req, ans) =
            some ⟨⟨String.ofList (clientIP false peer), t.now⟩, ans.status ≠ 429⟩ := by
          simp only [attempt, ServiceAct.call, hreq, hproxy, if_true, Option.map_some]
        have hkey : String.ofList (clientIP false peer) = String.ofList host ↔
            clientIP false peer = host := String.ofList_inj
        rw [hattempt]
        simp only [admittedTimes, List.filter_cons, decide_eq_true_eq, hkey, hreq, true_and] at ih ⊢
        by_cases hin : clientIP false peer = host ∧ ans.status ≠ 429
        · rw [if_pos hin.symm, if_pos hin, List.map_cons, ih]
          rfl
        · rw [if_neg (fun h => hin h.symm), if_neg hin, ih]
          rfl
      · have hattempt : attempt cfg (.signIn t peer req, ans) = none := by
          simp only [attempt, ServiceAct.call, hreq]
          rfl
        rw [hattempt]
        simp only [hreq]
        exact ih

/-- The calls of the limiter are made when the requests are. -/
theorem map_time_call (cfg : ServiceConfig) (acts : List ServiceAct) :
    ((acts.filterMap (ServiceAct.call cfg)).map Call.time).Sublist
      (acts.filterMap ServiceAct.signInTime) := by
  induction acts with
  | nil => exact List.Sublist.slnil
  | cons act acts ih =>
    cases act with
    | route t req => exact ih
    | signIn t peer req =>
      simp only [List.filterMap_cons, ServiceAct.call, ServiceAct.signInTime]
      by_cases hreq : req.limited = true
      · rw [if_pos hreq]
        exact List.Sublist.cons_cons _ ih
      · rw [if_neg hreq]
        exact List.Sublist.cons _ ih

/-- The instants of a run, cut at a request. -/
theorem ordered_of_signIn {pre post : List ServiceAct} {t : SignInTurn} {peer : Peer}
    {req : SignInRequest}
    (hord : ((pre ++ .signIn t peer req :: post).filterMap ServiceAct.signInTime).Pairwise
      (· ≤ ·)) :
    ((pre.filterMap (ServiceAct.call cfg)).map Call.time).Pairwise (· ≤ ·) ∧
      ∀ c ∈ pre.filterMap (ServiceAct.call cfg), c.time ≤ t.now := by
  rw [List.filterMap_append, List.pairwise_append] at hord
  obtain ⟨hpre, -, hcross⟩ := hord
  have hsub := map_time_call cfg pre
  refine ⟨hpre.sublist hsub, fun c hc => ?_⟩
  exact hcross _ (hsub.subset (List.mem_map_of_mem hc)) _ List.mem_cons_self

/-- In a run of a server that is not behind a proxy, with its requests to sign in made in order of
time: no client gets more than ten answers from the handlers behind the limiter in any fifteen
minutes, over all of them together; and a request is answered 429 exactly when ten were answered
to its client in the fifteen minutes before it. A client is the host of the connection. -/
theorem guesses_bounded (cfg : ServiceConfig) (y : Service) (acts : List ServiceAct)
    (hproxy : cfg.trustedProxy = false) (hfresh : y.loginLimiter = loginLimiter)
    (hord : (acts.filterMap ServiceAct.signInTime).Pairwise (· ≤ ·)) :
    (∀ host t, ((handledFrom host (runOut (serviceStep cfg) y acts).2).filter
        fun a => t - 900 * Rfc3339.oneSecond < a ∧ a ≤ t).length ≤ 10) ∧
    ∀ pre t peer req post, acts = pre ++ .signIn t peer req :: post → req.limited = true →
      (((runOut (serviceStep cfg) y pre).1.serve cfg (.signIn t peer req)).2.status = 429 ↔
        10 ≤ ((handledFrom (clientIP false peer) (runOut (serviceStep cfg) y pre).2).filter
          fun a => t.now - 900 * Rfc3339.oneSecond < a).length) := by
  have hnew : y.loginLimiter = RateLimiter.newRateLimiter 10 (900 * Rfc3339.oneSecond) := hfresh
  constructor
  · intro host t
    have hcalls := hord.sublist (map_time_call cfg acts)
    have hlog := (run_limiter cfg y acts).2
    rw [hnew] at hlog
    rw [← admittedTimes_attempt hproxy, hlog]
    change ((admittedTimes (RateLimiter.log _ _ _) _).filter _).length ≤ 10
    rw [RateLimiter.log_eq_entries hcalls]
    exact length_admitted_Ioc_le (String.ofList host) t
  · intro pre t peer req post heq hreq
    obtain ⟨hpre, hlast⟩ := @ordered_of_signIn cfg pre post t peer req (heq ▸ hord)
    obtain ⟨hend, hlog⟩ := run_limiter cfg y pre
    rw [hnew] at hend hlog
    have hcall : (ServiceAct.signIn t peer req).call cfg =
        some ⟨String.ofList (clientIP false peer), t.now⟩ := by
      simp only [ServiceAct.call, hreq, hproxy, if_true]
    obtain ⟨-, hstatus⟩ := (limiter_serve cfg (runOut (serviceStep cfg) y pre).1
      (.signIn t peer req)).2 _ hcall
    -- the limiter has seen what the log of the run shows
    have htracks : (runOut (serviceStep cfg) y pre).1.loginLimiter.Tracks
        ((runOut (serviceStep cfg) y pre).2.filterMap (attempt cfg)) t.now := by
      rw [hend, hlog]
      exact RateLimiter.tracks_after hpre hlast
    have hmax : (runOut (serviceStep cfg) y pre).1.loginLimiter.max = 10 := by
      rw [hend, RateLimiter.runOut_answer_max]
      rfl
    have hwindow : (runOut (serviceStep cfg) y pre).1.loginLimiter.window
        = 900 * Rfc3339.oneSecond := by
      rw [hend, RateLimiter.runOut_answer_window]
      rfl
    rw [htracks.allow_snd le_rfl, decide_eq_true_iff, admits, hmax, hwindow,
      admittedTimes_attempt hproxy] at hstatus
    rw [← not_iff_not, ← ne_eq, hstatus, Nat.not_le]

/-- A guess of one client, over a connection and with a header of its own each time. -/
def demoGuess (port : List Char) : ServiceAct :=
  .signIn { webAuthn := .error "unknown host" }
    { remoteAddr := "10.0.0.1:".toList ++ port, forwardedFor := port }
    (.login (some { email := "bob@example.org", password := "guess" }))

/-- Eleven of them. -/
def demoGuesses : List ServiceAct :=
  ["1", "2", "3", "4", "5", "6", "7", "8", "9", "10", "11"].map fun port => demoGuess port.toList

theorem guesses_bounded_demo :
    (handledFrom "10.0.0.1".toList
        (runOut (serviceStep demoServiceConfig) demoService demoGuesses).2).length = 10 ∧
      ((handledFrom "10.0.0.1".toList
        (runOut (serviceStep demoServiceConfig) demoService demoGuesses).2).filter
          fun a => 0 - 900 * Rfc3339.oneSecond < a ∧ a ≤ 0).length ≤ 10 := by
  have h := guesses_bounded demoServiceConfig demoService demoGuesses rfl rfl (by decide)
  exact ⟨by decide, h.1 "10.0.0.1".toList 0⟩

end Runs

end CertGuard
