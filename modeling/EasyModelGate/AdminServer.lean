import EasyModelGate.Lib.Run
import EasyModelGate.Routers.AdminKeys
import EasyModelGate.Routers.AdminOverview
import EasyModelGate.Routers.AdminRequests
import EasyModelGate.Routers.AdminUsers
import EasyModelGate.Routers.AdminWeb

/-! # The admin surface

Every route under `/admin` in the order in which `create_app` registers it, and any number of
requests on one event loop. A label names the party that moves: what it does up to its next
suspension is one step. -/

namespace EasyModelGate

structure AdminConfig where
  lib : AdminAuthLib
  ids : SessionIds
  /-- `model_validate` of the three request models. -/
  userCreate : Json → Except (Option Str) AdminUserCreateRequest
  keyCreate : Json → Except (Option Str) AdminKeyCreateRequest
  keyLimits : Json → Except (Option Str) AdminKeyLimitsRequest
  hashKey : Str → Str
  zone : Zone
  calendar : Calendar
  timezone : Str
  keyPrefix : Str
  info : AppInfo
  /-- The hexadecimal form of a request id. -/
  hex : Uuid → Str

/-! ## Routes -/

/-- What a route of `make_protected_router` calls. -/
inductive Protected
  | me
  | listUsers | createUser | setUserEnabled (enabled : Bool) (userId : Str)
  | listKeys | getKey (keyId : Str) | createKey | setKeyEnabled (enabled : Bool)
    (keyId : Str) | patchLimits (keyId : Str)
  | usageSummary | usageTimeseries | overview | system | recentRequests

inductive Endpoint
  | login | logout
  | guarded (e : Protected)
  | loginPage | overviewPage | usersPage | keysPage | usagePage | systemPage | logoutPage

/-- A part of a route's path between two slashes: a text, or a parameter. -/
inductive PathPart
  | lit (s : String)
  | param

/-- The parameters in the parts of a path. The `$` at the end of Starlette's pattern also matches
before a final newline; a parameter takes what is not a slash. -/
def matchPath : List PathPart → List Str → Option (List Str)
  | [], [] => some []
  | [.lit s], [x] => if x = str s ∨ x = str s ++ [0x0A] then some [] else none
  | .lit s :: parts, x :: xs => if x = str s then matchPath parts xs else none
  | .param :: parts, x :: xs => if x = [] then none else (matchPath parts xs).map (x :: ·)
  | _, _ => none

inductive Target
  | plain (e : Endpoint)
  | guarded (e : Protected)
  | withId (e : Str → Protected)

/-- The endpoint for the parameters of the path. -/
def Target.endpoint : Target → List Str → Option Endpoint
  | .plain e, [] => some e
  | .guarded e, [] => some (.guarded e)
  | .withId e, [id] => some (.guarded (e id))
  | _, _ => none

structure Route where
  method : String
  path : List PathPart
  target : Target

/-- `/admin/…` -/
def admin (parts : List PathPart) : List PathPart := .lit "" :: .lit "admin" :: parts

/-- `/admin/api/…` -/
def adminApi (parts : List PathPart) : List PathPart := admin (.lit "api" :: parts)

def routes : List Route := [
  ⟨"POST", adminApi [.lit "auth", .lit "login"], .plain .login⟩,
  ⟨"POST", adminApi [.lit "auth", .lit "logout"], .plain .logout⟩,
  ⟨"GET", adminApi [.lit "auth", .lit "me"], .guarded .me⟩,
  ⟨"GET", adminApi [.lit "users"], .guarded .listUsers⟩,
  ⟨"POST", adminApi [.lit "users"], .guarded .createUser⟩,
  ⟨"POST", adminApi [.lit "users", .param, .lit "enable"], .withId (.setUserEnabled true)⟩,
  ⟨"POST", adminApi [.lit "users", .param, .lit "disable"], .withId (.setUserEnabled false)⟩,
  ⟨"GET", adminApi [.lit "keys"], .guarded .listKeys⟩,
  ⟨"GET", adminApi [.lit "keys", .param], .withId .getKey⟩,
  ⟨"POST", adminApi [.lit "keys"], .guarded .createKey⟩,
  ⟨"POST", adminApi [.lit "keys", .param, .lit "enable"], .withId (.setKeyEnabled true)⟩,
  ⟨"POST", adminApi [.lit "keys", .param, .lit "disable"], .withId (.setKeyEnabled false)⟩,
  ⟨"PATCH", adminApi [.lit "keys", .param, .lit "limits"], .withId .patchLimits⟩,
  ⟨"GET", adminApi [.lit "usage", .lit "summary"], .guarded .usageSummary⟩,
  ⟨"GET", adminApi [.lit "usage", .lit "timeseries"], .guarded .usageTimeseries⟩,
  ⟨"GET", adminApi [.lit "overview"], .guarded .overview⟩,
  ⟨"GET", adminApi [.lit "system"], .guarded .system⟩,
  ⟨"GET", adminApi [.lit "requests"], .guarded .recentRequests⟩,
  ⟨"GET", admin [.lit "login"], .plain .loginPage⟩,
  ⟨"GET", admin [], .plain .overviewPage⟩,
  ⟨"GET", admin [.lit "users"], .plain .usersPage⟩,
  ⟨"GET", admin [.lit "keys"], .plain .keysPage⟩,
  ⟨"GET", admin [.lit "usage"], .plain .usagePage⟩,
  ⟨"GET", admin [.lit "system"], .plain .systemPage⟩,
  ⟨"POST", admin [.lit "logout"], .plain .logoutPage⟩]

def Route.find (r : Route) (req : AdminRequest) : Option Endpoint :=
  if req.method = str r.method then (matchPath r.path (req.path.splitOn 0x2F)).bind
    r.target.endpoint else none

/-- The first route that takes the path and the method. -/
def endpoint (req : AdminRequest) : Option Endpoint := routes.findSome? (·.find req)

/-! ## Handlers -/

/-- What a handler reads of its surroundings when it wants a time or a random string. -/
structure Ambient where
  clk : Clock
  random : Str

def created (content : Json) : AdminResponse := { statusCode := 201, body := .json content }
def okJson (content : Json) : AdminResponse := { body := .json content }

/-- The models of a list. -/
def items [Dump α] (xs : List α) : Json := .obj [(str "items", .arr (xs.map dump))]

/-- `parse_body(Model, await parse_json_body(request))` -/
def parsedBody (modelValidate : Json → Except (Option Str) α) : Handling α := do
  let payload ← Handling.lift (Admin.parseJsonBody (← Handling.body))
  Handling.lift (Admin.parseBody modelValidate payload)

/-- A database coroutine that is answered with status 200. -/
def answer (toJson : α → Json) (c : Db α) : Handling AdminResponse := do
  return okJson (toJson (← Handling.ofDb c))

section
variable (cfg : AdminConfig) (amb : Ambient) (req : AdminRequest)

/-- Without the dependencies of the router. -/
def Protected.handler : Protected → Handling AdminResponse
  | .me => return { body := Admin.authenticated true }
  | .listUsers => answer items AdminUsers.listUsers
  | .createUser => do
    let body ← parsedBody cfg.userCreate
    return created (dump (← Handling.ofDb (AdminUsers.createUser body amb.clk.nowMs)))
  | .setUserEnabled enabled userId => answer dump (AdminUsers.setEnabled userId enabled)
  | .listKeys => answer items AdminKeys.listKeys
  | .getKey keyId => answer dump (AdminKeys.getKey keyId)
  | .createKey => do
    let body ← parsedBody cfg.keyCreate
    return created (dump (← Handling.ofDb
      (AdminKeys.createKey cfg.hashKey cfg.zone cfg.keyPrefix amb.clk amb.random body)))
  | .setKeyEnabled enabled keyId => answer dump (AdminKeys.setEnabled keyId enabled)
  | .patchLimits keyId => do
    let body ← parsedBody cfg.keyLimits
    answer dump (AdminKeys.patchLimits keyId body)
  | .usageSummary => answer id (AdminUsage.usageSummary cfg.calendar cfg.timezone amb.clk req)
  | .usageTimeseries => answer id (AdminUsage.usageTimeseries cfg.calendar amb.clk req)
  | .overview => do return okJson (← AdminOverview.overview cfg.calendar amb.clk)
  | .system => do return okJson (← AdminOverview.system cfg.info amb.clk)
  | .recentRequests => answer id (AdminRequests.recentRequests cfg.hex req)

def Endpoint.handler : Endpoint → Handling AdminResponse
  | .login => Admin.adminLogin cfg.lib req
  | .logout => Admin.adminLogout req
  | .guarded e => Admin.guarded req (e.handler cfg amb req)
  | .loginPage => AdminWeb.loginPage req
  | .overviewPage => AdminWeb.overviewPage req
  | .usersPage => AdminWeb.usersPage req
  | .keysPage => AdminWeb.keysPage req
  | .usagePage => AdminWeb.usagePage req
  | .systemPage => AdminWeb.systemPage req
  | .logoutPage => AdminWeb.logoutPage req

/-- The whole handling of a request. -/
def serve : Handling AdminResponse :=
  match endpoint req with
  | some e => e.handler cfg amb req
  | none => .ret { statusCode := 404, body := .unrouted }

end

/-! ## Requests on one event loop -/

structure AdminTask where
  req : AdminRequest
  coro : Handling AdminResponse

/-- A request that has ended, with the time of its last stretch and the tables that were seen
then. -/
structure Answered where
  req : AdminRequest
  time : ℚ
  tables : Tables
  reply : Except Exn AdminResponse

structure AdminServer where
  state : AdminState := {}
  /-- The last reading of the monotonic clock. -/
  now : ℚ := 0
  /-- By the order of their arrival. -/
  tasks : List AdminTask := []
  /-- The requests that have been answered, in that order. -/
  history : List Answered := []

namespace AdminServer

inductive Label
  | arrive (req : AdminRequest) (amb : Ambient) (now : ℚ)
  /-- What request `i` awaits is there. -/
  | move (i : Nat) (now : ℚ) (upstream : Option Nat)
  | cancel (i : Nat)
  /-- Whatever the rest of the gateway and the other processes do to the connection. -/
  | others (conn : Conn)

/-- The answer that a stretch ends with. -/
def answered (req : AdminRequest) (now : ℚ) (conn : Conn) : Handling AdminResponse → List Answered
  | .ret r => [⟨req, now, conn.view, .ok r⟩]
  | .raise e => [⟨req, now, conn.view, .error e⟩]
  | .await .. => []

section
variable (cfg : AdminConfig)

def stepArrive (g : AdminServer) (req : AdminRequest) (amb : Ambient) (now : ℚ) : AdminServer :=
  let (c, state) := AdminEnv.settle { ids := cfg.ids, req, now } (serve cfg amb req) g.state
  { state, now, tasks := g.tasks ++ [⟨req, c⟩],
    history := g.history ++ answered req now state.conn c }

def stepMove (g : AdminServer) (i : Nat) (t : AdminTask) (now : ℚ) (upstream : Option Nat) :
    Option AdminServer := do
  let env : AdminEnv := { ids := cfg.ids, req := t.req, now, upstream }
  let (c, state) ← t.coro.advance env.handler g.state
  let (c, state) := env.settle c state
  return {
    state, now
    tasks := g.tasks.set i ⟨t.req, c⟩
    history := g.history ++ answered t.req now state.conn c }

def step (g : AdminServer) : Label → Option AdminServer
  | .arrive req amb now => if g.now ≤ now then some (g.stepArrive cfg req amb now) else none
  | .move i now upstream =>
    match g.tasks[i]? with
    | some t => if g.now ≤ now then g.stepMove cfg i t now upstream else none
    | none => none
  | .cancel i =>
    match g.tasks[i]? with
    | some t =>
      if t.coro.ended then none
      else some { g with tasks := g.tasks.set i { t with coro := .raise (.py .cancelledError) } }
    | none => none
  | .others conn => some { g with state := { g.state with conn } }

end
end AdminServer
end EasyModelGate
