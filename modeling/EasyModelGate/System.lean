import EasyModelGate.AdminServer
import EasyModelGate.Cli
import EasyModelGate.Gateway
import EasyModelGate.Routers.Public

/-! # The whole gateway

Chat requests, `GET /v1/models` and the requests under `/admin` on one event loop and one database
connection, and the commands, each of which runs in a process of its own and from beginning to end
in one step. -/

namespace EasyModelGate

structure SystemConfig where
  relay : RelayEnv
  admin : AdminConfig

namespace SystemConfig

def gateway (cfg : SystemConfig) : GatewayConfig where
  relay := cfg.relay
  keyPrefix := cfg.admin.keyPrefix
  hashKey := cfg.admin.hashKey

def cli (cfg : SystemConfig) : CliConfig where
  hashKey := cfg.admin.hashKey
  zone := cfg.admin.zone
  keyPrefix := cfg.admin.keyPrefix
  calendar := cfg.admin.calendar
  timezone := cfg.admin.timezone
  lib := cfg.admin.lib
  floatRepr := cfg.relay.floatRepr

end SystemConfig

structure System where
  gateway : Gateway
  /-- Its connection is the gateway's. -/
  admin : AdminServer := {}
  models : List ModelsCall := []
  /-- What the commands have printed, in their order. -/
  printed : List (Except Exn CliOutput) := []

namespace System

inductive ModelsLabel
  | arrive (headers : Headers) (nowMs : Int)
  /-- The next statement of `require_auth`. -/
  | auth (i : Nat)
  | cancelAuth (i : Nat)
  | event (i : Nat) (ev : ModelsEvent)

inductive Label
  | chat (l : EasyModelGate.Label)
  | models (l : ModelsLabel)
  | admin (l : AdminServer.Label)
  /-- The whole command, between two steps of the gateway: none of them finds its lock on the
  file. -/
  | cli (command : Cli.Command)

section
variable (cfg : SystemConfig)

/-- The models call `i` goes on to `phase`. -/
def setModels (s : System) (i : Nat) (call : ModelsCall) (phase : ModelsPhase) : System :=
  { s with models := s.models.set i { call with phase } }

/-- A stretch of `require_auth`, on a new state of the connection. -/
def settleModelsCall (s : System) (i : Nat) (call : ModelsCall) (nowMs : Int) (c : Db AuthContext)
    (conn : Conn) : System :=
  { s.setModels i call (Public.settleModels cfg.relay call.headers nowMs c) with
    gateway := { s.gateway with conn, tasks := s.gateway.tasks ++ authSpawned nowMs c } }

def stepModels (s : System) : ModelsLabel → Option System
  | .arrive headers nowMs =>
    let header := (headers.get (str "authorization")).getD []
    let c := requireAuth cfg.admin.hashKey cfg.admin.keyPrefix header nowMs
    some { s with
      gateway := { s.gateway with tasks := s.gateway.tasks ++ authSpawned nowMs c }
      models := s.models ++ [⟨headers, Public.settleModels cfg.relay headers nowMs c⟩] }
  | .auth i =>
    match s.models[i]? with
    | some call =>
      match call.phase with
      | .authenticating c nowMs =>
        (c.advance Conn.handler s.gateway.conn).map fun r =>
            s.settleModelsCall cfg i call nowMs r.1 r.2
      | _ => none
    | none => none
  | .cancelAuth i =>
    match s.models[i]? with
    | some call =>
      match call.phase with
      | .authenticating .. => some (s.setModels i call (.done (.error (.py .cancelledError))))
      | _ => none
    | none => none
  | .event i ev =>
    match s.models[i]? with
    | some call =>
      match call.phase with
      | .asking _ => some (s.setModels i call (.done (Public.answerModels ev)))
      | _ => none
    | none => none

/-- The server of the requests under `/admin`, on the gateway's connection. -/
def adminServer (s : System) : AdminServer :=
  { s.admin with state := { s.admin.state with conn := s.gateway.conn } }

def stepAdmin (s : System) : AdminServer.Label → Option System
  | .others _ => none
  | l => (AdminServer.step cfg.admin s.adminServer l).map fun admin =>
    { s with gateway := { s.gateway with conn := admin.state.conn }, admin }

def step (s : System) : Label → Option System
  | .chat l => (Gateway.step cfg.gateway s.gateway l).map fun gateway => { s with gateway }
  | .models l => s.stepModels cfg l
  | .admin l => s.stepAdmin cfg l
  | .cli command =>
    let (r, conn) := s.gateway.conn.outside (command.coro cfg.cli)
    some { s with gateway := { s.gateway with conn }, printed := s.printed ++ [r] }

end
end System
end EasyModelGate
