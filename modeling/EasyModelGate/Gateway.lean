import EasyModelGate.Lib.Run
import EasyModelGate.Proxy.Relay
import EasyModelGate.Services.RequestLogging

/-! # The gateway serving chat requests

Any number of `POST /v1/chat/completions` requests, with the detached tasks that they spawn, on one
event loop and one database connection. A label names the party that moves: what it does up to its
next suspension is one step. -/

namespace EasyModelGate

structure GatewayConfig where
  relay : RelayEnv
  /-- `cfg.security.key_prefix` -/
  keyPrefix : Str
  /-- SHA-256, as a hexadecimal string. -/
  hashKey : Str → Str

/-- What a detached task was spawned for. -/
inductive Purpose
  | touch (keyId : Nat) (nowMs : Int)
  | log (record : RequestLog Json) (keyId : Option Nat)

/-- The coroutine given to `app.state.spawn`. -/
def Purpose.coro : Purpose → Db Unit
  | .touch keyId nowMs => Dao.touchLastUsed keyId nowMs
  | .log record keyId => persistRequestLog record (keyId.map fun (id : Nat) => (id : Int))

structure Task where
  purpose : Purpose
  coro : Db Unit
  /-- How many of its statements have run. -/
  steps : Nat := 0

def spawn (p : Purpose) : Task := { purpose := p, coro := p.coro }

inductive Phase
  /-- `Depends(require_auth)` -/
  | authenticating (c : Db AuthContext) (nowMs : Int)
  /-- `await request.json()` -/
  | reading (auth : AuthContext)
  | serving (pc : Pc)

structure Request where
  req : ChatRequest
  phase : Phase
  /-- `request.state.auth` -/
  auth : Option AuthContext := none
  /-- How often it has acquired and released a slot. -/
  acquired : Nat := 0
  released : Nat := 0

structure Gateway where
  conn : Conn := {}
  limiter : FixedWindowRpmLimiter := {}
  /-- The value of the semaphore. -/
  free : Nat
  /-- By the order of their arrival. -/
  requests : List Request := []
  tasks : List Task := []
  /-- How many request ids had been drawn before the first request. -/
  drawn : Nat := 0

inductive Label
  | arrive (req : ChatRequest) (nowMs : Int)
  /-- The next statement of `require_auth`. -/
  | auth (i : Nat)
  | cancelAuth (i : Nat)
  /-- The body has been read, or reading it has failed. -/
  | body (i : Nat) (clk : Clock)
  | event (i : Nat) (clk : Clock) (ev : Event)
  /-- The next statement of a detached task. -/
  | task (j : Nat)

/-- Where a request is after a stretch of `require_auth`. -/
def settleAuth (r : Request) (nowMs : Int) : Db AuthContext → Request
  | .ret auth => { r with phase := .reading auth, auth := some auth }
  | .raise e => { r with phase := .serving (.done (.raised e)) }
  | c => { r with phase := .authenticating c nowMs }

/-- The task that `require_auth` spawns when it returns. -/
def authSpawned (nowMs : Int) : Db AuthContext → List Task
  | .ret auth => [spawn (.touch auth.apiKeyId nowMs)]
  | _ => []

def Effect.isRelease : Effect → Bool
  | .release => true
  | .persist .. => false

/-- How many slots a list of effects gives back. -/
def releases (effects : List Effect) : Nat := effects.countP Effect.isRelease

/-- The tasks that a list of effects spawns. -/
def spawned (effects : List Effect) : List Task :=
  effects.filterMap fun
    | .release => none
    | .persist record keyId => some (spawn (.log record keyId))

/-- How many slots an event takes. -/
def Event.takes : Event → Nat
  | .acquired => 1
  | _ => 0

namespace Request

def serve (r : Request) (pc : Pc) (effects : List Effect) (took : Nat) : Request :=
  { r with
    phase := .serving pc
    acquired := r.acquired + took
    released := r.released + releases effects }

def header (req : ChatRequest) : Str := (req.headers.get (str "authorization")).getD []

end Request

namespace Gateway

def init (conn : Conn) (slots : Nat) (drawn : Nat := 0) : Gateway := { conn, free := slots, drawn }

/-- The gateway after request `i` has moved to `pc`. -/
def serve (g : Gateway) (i : Nat) (r : Request) (pc : Pc) (effects : List Effect)
    (took : Nat) : Gateway :=
  { g with
    free := g.free - took + releases effects
    requests := g.requests.set i (r.serve pc effects took)
    tasks := g.tasks ++ spawned effects }

section
variable (cfg : GatewayConfig)

def stepArrive (g : Gateway) (req : ChatRequest) (nowMs : Int) : Gateway :=
  let c := requireAuth cfg.hashKey cfg.keyPrefix (Request.header req) nowMs
  { g with
    requests := g.requests ++ [settleAuth { req, phase := .authenticating c nowMs } nowMs c]
    tasks := g.tasks ++ authSpawned nowMs c }

def stepAuth (g : Gateway) (i : Nat) (r : Request) (c : Db AuthContext) (nowMs : Int) :
    Option Gateway := do
  let (c, conn) ← c.advance Conn.handler g.conn
  return { g with
    conn
    requests := g.requests.set i (settleAuth r nowMs c)
    tasks := g.tasks ++ authSpawned nowMs c }

def stepBody (g : Gateway) (i : Nat) (r : Request) (auth : AuthContext) (clk : Clock) : Gateway :=
  let ((pc, effects), limiter) :=
    forwardChat cfg.relay r.req { requestId := g.drawn + i, auth, clk } g.limiter
  { g.serve i r pc effects 0 with limiter }

def stepEvent (g : Gateway) (i : Nat) (r : Request) (pc : Pc) (clk : Clock) (ev : Event) :
    Option Gateway := do
  let (pc, effects) ← resume cfg.relay clk pc ev
  if ev.takes ≤ g.free then some (g.serve i r pc effects ev.takes) else none

def stepTask (g : Gateway) (j : Nat) (t : Task) : Option Gateway := do
  let (coro, conn) ← t.coro.advance Conn.handler g.conn
  return { g with conn, tasks := g.tasks.set j { t with coro, steps := t.steps + 1 } }

def step (g : Gateway) : Label → Option Gateway
  | .arrive req nowMs => some (g.stepArrive cfg req nowMs)
  | .auth i =>
    match g.requests[i]? with
    | some r =>
      match r.phase with
      | .authenticating c nowMs => g.stepAuth i r c nowMs
      | _ => none
    | none => none
  | .cancelAuth i =>
    match g.requests[i]? with
    | some r =>
      match r.phase with
      | .authenticating .. => some (g.serve i r (.done (.raised (.py .cancelledError))) [] 0)
      | _ => none
    | none => none
  | .body i clk =>
    match g.requests[i]? with
    | some r =>
      match r.phase with
      | .reading auth => some (g.stepBody cfg i r auth clk)
      | _ => none
    | none => none
  | .event i clk ev =>
    match g.requests[i]? with
    | some r =>
      match r.phase with
      | .serving pc => g.stepEvent cfg i r pc clk ev
      | _ => none
    | none => none
  | .task j =>
    match g.tasks[j]? with
    | some t => g.stepTask j t
    | none => none

end
end Gateway
end EasyModelGate
