import EasyModelGate.Cli
import EasyModelGate.Core.Auth
import EasyModelGate.Routers.AdminKeys
import EasyModelGate.Routers.AdminUsers

/-! # The life of users and keys

The operations that create, switch and limit them, from the Admin API on the gateway's connection
and from the CLI in a process of its own, among authentication attempts. Each runs to its end; the
detached `touch_last_used` of an accepted attempt runs at any later time. -/

namespace EasyModelGate

structure KeyConfig where
  /-- `cfg.security.key_prefix` -/
  keyPrefix : Str
  /-- `cfg.usage.timezone` -/
  zone : Zone
  /-- SHA-256, as a hexadecimal string. -/
  hashKey : Str → Str

/-- What `create_key` was called with, and what it returned. -/
structure IssuedKey where
  id : Nat
  full : Str
  owner : Nat
  expiresAt : Option Int
  rpm : Option Int
  tokenLimit : Option Int
  deriving DecidableEq

/-- An operation that has succeeded. -/
inductive LifeEvent
  | userCreated (id : Nat) (username : Str)
  | userSet (id : Nat) (enabled : Bool)
  | namedUserSet (username : Str) (enabled : Bool)
  | keyCreated (key : IssuedKey)
  | keySet (id : Nat) (enabled : Bool)
  | limitsSet (id : Nat) (rpm tokenLimit : LimitUpdate)

/-- `expires_at`, where `create_key` computes one. -/
def KeyConfig.expiry (cfg : KeyConfig) (clk : Clock) (expiresInDays : Option Int) : Option Int :=
  expiresInDays.bind fun days => (cfg.zone.inDays clk days).toOption

inductive AdminOp
  | createUser (body : AdminUserCreateRequest) (nowMs : Int)
  | setUserEnabled (userId : Str) (enabled : Bool)
  | createKey (clk : Clock) (random : Str) (body : AdminKeyCreateRequest)
  | setKeyEnabled (keyId : Str) (enabled : Bool)
  | patchLimits (keyId : Str) (body : AdminKeyLimitsRequest)

def AdminOp.coro (cfg : KeyConfig) : AdminOp → Db LifeEvent
  | .createUser body nowMs => do
    let user ← AdminUsers.createUser body nowMs
    return .userCreated user.id user.username
  | .setUserEnabled userId enabled => do
    let user ← AdminUsers.setEnabled userId enabled
    return .userSet user.id enabled
  | .createKey clk random body => do
    let created ← AdminKeys.createKey cfg.hashKey cfg.zone cfg.keyPrefix clk random body
    return .keyCreated {
      id := created.key.id
      full := created.apiKey
      owner := body.userId.toNat
      expiresAt := cfg.expiry clk body.expiresInDays
      rpm := body.rpm
      tokenLimit := body.tokenLimit }
  | .setKeyEnabled keyId enabled => do
    let key ← AdminKeys.setEnabled keyId enabled
    return .keySet key.id enabled
  | .patchLimits keyId body => do
    let key ← AdminKeys.patchLimits keyId body
    return .limitsSet key.id (AdminKeys.limitUpdate body.rpm)
        (AdminKeys.limitUpdate body.tokenLimit)

inductive CliOp
  | userCreate (username : Str) (displayName note : Option Str) (nowMs : Int)
  | userSetEnabled (username : Str) (enabled : Bool)
  | keyCreate (clk : Clock) (random user : Str) (name : Option Str)
      (rpm tokenLimit expiresInDays : Option Int)
  | keySetEnabled (pfx : Str) (enabled : Bool)
  | keySetLimits (pfx : Str) (rpm tokenLimit : LimitUpdate)

def CliOp.coro (cfg : KeyConfig) : CliOp → Db LifeEvent
  | .userCreate username displayName note nowMs => do
    let id ← UserService.createUser username displayName note nowMs
    return .userCreated id username
  | .userSetEnabled username enabled => do
    UserService.setUserEnabled username enabled
    return .namedUserSet username enabled
  | .keyCreate clk random user name rpm tokenLimit expiresInDays => do
    let (owner, created) ← Cli.createKey cfg.hashKey cfg.zone cfg.keyPrefix clk random user name rpm
      tokenLimit expiresInDays
    return .keyCreated {
      id := created.keyId
      full := created.full
      owner := owner.id
      expiresAt := cfg.expiry clk expiresInDays
      rpm
      tokenLimit }
  | .keySetEnabled pfx enabled => do
    let target ← Cli.setKeyEnabled pfx enabled
    return .keySet target.id enabled
  | .keySetLimits pfx rpm tokenLimit => do
    let (target, _) ← Cli.setKeyLimits pfx rpm tokenLimit
    return .limitsSet target.id rpm tokenLimit

structure Lifecycle where
  /-- The gateway's connection. -/
  conn : Conn := {}
  /-- The `touch_last_used` tasks that have not run yet. -/
  touches : List (Nat × Int) := []
  history : List LifeEvent := []

namespace Lifecycle

inductive Label
  | admin (op : AdminOp)
  | cli (op : CliOp)
  | attempt (header : Str) (nowMs : Int)
  | touch (j : Nat)

def record (l : Lifecycle) (r : Except Exn LifeEvent × Conn) : Lifecycle :=
  { l with conn := r.2, history := l.history ++ r.1.toOption.toList }

/-- What an attempt is answered, and the connection after it. -/
def attempt (cfg : KeyConfig) (l : Lifecycle) (header : Str) (nowMs : Int) :
    Except Exn AuthContext × Conn :=
  (requireAuth cfg.hashKey cfg.keyPrefix header nowMs).run Conn.handler l.conn

def step (cfg : KeyConfig) (l : Lifecycle) : Label → Option Lifecycle
  | .admin op => some (l.record ((op.coro cfg).run Conn.handler l.conn))
  | .cli op => some (l.record (l.conn.outside (op.coro cfg)))
  | .attempt header nowMs =>
    let (r, conn) := l.attempt cfg header nowMs
    some { l with
        conn, touches := l.touches ++ (r.toOption.map fun auth => (auth.apiKeyId, nowMs)).toList }
  | .touch j => do
    let (keyId, nowMs) ← l.touches[j]?
    let (_, conn) := (Dao.touchLastUsed keyId nowMs).run Conn.handler l.conn
    return { l with conn, touches := l.touches.eraseIdx j }

end Lifecycle
end EasyModelGate
