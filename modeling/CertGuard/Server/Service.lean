import CertGuard.Lib.HostPort
import CertGuard.Lib.TransitionRun
import CertGuard.Server.Routes

/-!
# The whole server

Requests behind a sign-in and requests to sign in, taken one after the other by one server: the
vault with its tables, the ceremonies and the attempts in memory.

## Main definitions

* `Peer`, `clientIP` — where a request comes from, as the limiter sees it
* `Service`, `ServiceAct`, `Service.serve` — the server, and what it does with a request
* `Exchange`, `serviceStep` — requests with their answers
* `Exchange.SignsIn` — the answers that come with a session
-/

namespace CertGuard

/-! ### Clients -/

/-- Where a request comes from: the address of the connection, and the header `X-Forwarded-For`,
empty where there is none. -/
structure Peer where
  remoteAddr : List Char
  forwardedFor : List Char := []
  deriving DecidableEq, Repr

/-- The `trimSpace` of the middleware: blanks and tabs only. -/
def trimBlanks (s : List Char) : List Char :=
  (s.dropWhile fun c => c = ' ' ∨ c = '\t').rdropWhile fun c => c = ' ' ∨ c = '\t'

/-- The address a client is known under: behind a trusted proxy, what the proxy forwards. -/
def clientIP (trustProxy : Bool) (p : Peer) : List Char :=
  if trustProxy = true ∧ p.forwardedFor ≠ [] then
    -- the first address of the list
    trimBlanks (p.forwardedFor.takeWhile (· ≠ ','))
  else
    match HostPort.split p.remoteAddr with
    | some (host, _) => host
    | none => p.remoteAddr

/-! ### The server -/

/-- The configuration, with what the limiter reads of it. -/
structure ServiceConfig extends Config where
  trustedProxy : Bool := false

/-- The server with all it keeps. -/
structure Service where
  host : Host
  ceremonies : CeremonyStore := fun _ => none
  loginLimiter : RateLimiter := loginLimiter

/-- The tables. -/
abbrev Service.store (y : Service) : Store := y.host.store

/-- A request. -/
inductive ServiceAct
  | route (t : RouteTurn) (req : RouteRequest)
  | signIn (t : SignInTurn) (peer : Peer) (req : SignInRequest)

/-- An answer. -/
inductive ServiceAnswer
  | route (ans : Answer RouteBody)
  | signIn (ans : Answer SignInBody)

/-- The status of an answer. -/
def ServiceAnswer.status : ServiceAnswer → Nat
  | .route ans => ans.status
  | .signIn ans => ans.status

namespace Service

variable (cfg : ServiceConfig) (y : Service)

/-- What the handlers of a request to sign in are given. -/
def turnOf (t : SignInTurn) (peer : Peer) : SignInTurn :=
  { t with ip := String.ofList (clientIP cfg.trustedProxy peer) }

/-- The part of the server behind a sign-in. -/
def inside : Server := ⟨y.host, y.ceremonies⟩

/-- The part that signs in. -/
def door : SignIn := ⟨y.store, y.ceremonies, y.loginLimiter⟩

/-- What the server does with a request. -/
def serve : ServiceAct → Service × ServiceAnswer
  | .route t req =>
    let res := y.inside.authed cfg.toConfig t req
    ({ y with host := res.1.host, ceremonies := res.1.ceremonies }, .route res.2)
  | .signIn t peer req =>
    let res := y.door.serve cfg.auth (turnOf cfg t peer) req
    (⟨{ y.host with store := res.1.store }, res.1.ceremonies, res.1.loginLimiter⟩, .signIn res.2)

/-- Who makes a request behind a sign-in. -/
def caller (t : RouteTurn) : Option User := resolveUser y.store t.now t.bearer t.cookie

end Service

/-- A request with its answer. -/
abbrev Exchange := ServiceAct × ServiceAnswer

/-- Takes a request, and shows it with its answer. -/
def serviceStep (cfg : ServiceConfig) (y : Service) (act : ServiceAct) :
    Service × List Exchange :=
  ((y.serve cfg act).1, [(act, (y.serve cfg act).2)])

/-- The exchange signed a user in, with the session it drew. -/
def Exchange.SignsIn (e : Exchange) (user : UserBody) (t : SignInTurn) : Prop :=
  ∃ peer req, e = (.signIn t peer req, .signIn (writeJSON 200 (.user user)))

end CertGuard
