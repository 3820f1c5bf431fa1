import EasyModelGate.Core.AdminSession
import EasyModelGate.Proxy.Headers
import EasyModelGate.Python.Clock
import EasyModelGate.Routers.AdminCommon

/-! # What a handler under `/admin` works with

The request, the response and `app.state`. A handler is a coroutine: it suspends at the statements
of the database, at the body of the request and at the probe of the upstream, and uses the session
store and the login limiter in between. -/

namespace EasyModelGate

structure AdminRequest where
  method : Str
  path : Str
  underAdmin : str "/admin" <+: path
  /-- The items of `query_params`. -/
  query : List (Str × Str) := []
  headers : Headers := []
  /-- The items of `cookies`. -/
  cookies : List (Str × Str) := []
  /-- What `await request.json()` returns, unless it raises. -/
  body : Except Unit Json := .error ()
  clientHost : Option Str := none
  urlScheme : Str := str "http"
  urlNetloc : Str := []

structure SetCookie where
  value : Str
  maxAge : Int
  secure : Bool
  deriving DecidableEq

inductive AdminBody
  | json (content : Json)
  /-- A template, with what its context says of the credential. -/
  | page (template : String) (initialized : Option Bool)
  | redirect (url : Str)
  /-- What Starlette answers on its own: a static file, a redirection to the path with or without a
  final slash, a 404 or a 405. -/
  | unrouted

structure AdminResponse where
  statusCode : Nat := 200
  body : AdminBody
  setCookie : Option SetCookie := none

inductive HandlerOp
  | stmt (s : Stmt)
  /-- `await request.json()` -/
  | body
  /-- The `GET /v1/models` of `backend_status`. -/
  | probe
  | lookup (sid : Str)
  | createSession
  | deleteSession (sid : Str)
  | blocked (originKey : Str)
  | recordFailure (originKey : Str)
  | reset (originKey : Str)

abbrev HandlerOp.Res : HandlerOp → Type
  | .stmt s => s.Res
  | .body => Except Unit Json
  | .probe => Option Nat
  | .lookup _ => LookupState × Option SessionStore.Session
  | .createSession => SessionStore.Session
  | .blocked _ => Bool
  | .deleteSession _ | .recordFailure _ | .reset _ => Unit

/-- It does not suspend. -/
def HandlerOp.instant : HandlerOp → Bool
  | .stmt _ | .body | .probe => false
  | _ => true

/-- A coroutine of a handler. -/
abbrev Handling (α : Type) := Coro HandlerOp HandlerOp.Res Exn α

/-- The ids that `new_session_id` draws, one after the other. -/
structure SessionIds where
  id : Nat → Str
  injective : Function.Injective id
  nonempty : ∀ n, id n ≠ []

/-- What the handlers share. -/
structure AdminState where
  conn : Conn := {}
  sessions : SessionStore := {}
  limiter : LoginRateLimiter := {}
  /-- How many session ids have been drawn. -/
  drawn : Nat := 0

/-- What a stretch of a handler finds around it: its request, what the clock shows, and the status
of the upstream or `none` when it cannot be asked. -/
structure AdminEnv where
  ids : SessionIds
  req : AdminRequest
  now : ℚ
  upstream : Option Nat := none

def AdminEnv.handler (env : AdminEnv) : Coro.Handler HandlerOp HandlerOp.Res Exn AdminState
  | .stmt s, st => ((Conn.handler s st.conn).1, { st with conn := (Conn.handler s st.conn).2 })
  | .body, st => (.ok env.req.body, st)
  | .probe, st => (.ok env.upstream, st)
  | .lookup sid, st =>
    (.ok (st.sessions.lookup sid env.now).1,
      { st with sessions := (st.sessions.lookup sid env.now).2 })
  | .createSession, st =>
    let created := st.sessions.create (env.ids.id st.drawn) env.now
    (.ok created.1, { st with sessions := created.2, drawn := st.drawn + 1 })
  | .deleteSession sid, st => (.ok (), { st with sessions := st.sessions.delete sid })
  | .blocked originKey, st =>
    (.ok (st.limiter.blocked originKey env.now).1,
      { st with limiter := (st.limiter.blocked originKey env.now).2 })
  | .recordFailure originKey, st =>
    (.ok (), { st with limiter := st.limiter.recordFailure originKey env.now })
  | .reset originKey, st => (.ok (), { st with limiter := st.limiter.reset originKey })

/-- From a suspension that has been resumed to the next one. -/
def AdminEnv.settle (env : AdminEnv) (c : Handling α) (st : AdminState) : Handling α × AdminState :=
  Coro.settle env.handler HandlerOp.instant c st

namespace Handling

def lift : Except Exn α → Handling α
  | .ok a => .ret a
  | .error e => .raise e

/-- A coroutine over the database. -/
def ofDb (c : Db α) : Handling α := c.embed HandlerOp.stmt fun _ r => r

def body : Handling (Except Unit Json) := Coro.perform HandlerOp.body
def probe : Handling (Option Nat) := Coro.perform HandlerOp.probe
def lookup (sid : Str) : Handling (LookupState × Option SessionStore.Session) :=
  Coro.perform (HandlerOp.lookup sid)
def createSession : Handling SessionStore.Session := Coro.perform HandlerOp.createSession
def deleteSession (sid : Str) : Handling Unit := Coro.perform (HandlerOp.deleteSession sid)
def blocked (originKey : Str) : Handling Bool := Coro.perform (HandlerOp.blocked originKey)
def recordFailure (originKey : Str) : Handling Unit :=
  Coro.perform (HandlerOp.recordFailure originKey)
def reset (originKey : Str) : Handling Unit := Coro.perform (HandlerOp.reset originKey)

end Handling

/-- `query_params.get(key)` -/
def AdminRequest.param (req : AdminRequest) (key : String) : Option Str :=
  (req.query.find? (·.1 = str key)).map Prod.snd

def sessionCookieName : Str := str "emg_admin_session"

/-- `request.cookies.get("emg_admin_session")`; an empty one is taken for none. -/
def AdminRequest.sessionCookie (req : AdminRequest) : Option Str :=
  ((req.cookies.find? (·.1 = sessionCookieName)).map Prod.snd).filter (· ≠ [])

end EasyModelGate
