import EasyModelGate.Routers.AdminCommon
import EasyModelGate.Services.KeyService
import EasyModelGate.Services.UserService

/-! # `routers/admin_keys.py`

The response model has no field for the hash. -/

namespace EasyModelGate

structure AdminKeyCreateRequest where
  userId : Int
  name : Option Str := none
  rpm : Option Int := none
  tokenLimit : Option Int := none
  expiresInDays : Option Int := none

/-- A field that the body leaves out is not the same as one that is `null`. -/
structure AdminKeyLimitsRequest where
  rpm : Option (Option Int) := none
  tokenLimit : Option (Option Int) := none

structure AdminKeyResponse where
  id : Nat
  userId : Nat
  username : Option Str
  name : Option Str
  keyPrefix : Str
  maskedKey : Str
  enabled : Bool
  rpm : Option Int
  tokenUsed : Int
  tokenLimit : Option Int
  expiresAt : Option Int
  lastUsedAt : Option Int

instance : Dump AdminKeyResponse where
  dump k := .obj [(str "id", .int k.id), (str "user_id", .int k.userId),
    (str "username", Json.ofOption k.username), (str "name", Json.ofOption k.name),
    (str "key_prefix", .str k.keyPrefix), (str "masked_key", .str k.maskedKey),
    (str "enabled", .bool k.enabled), (str "rpm", Json.ofInt? k.rpm),
    (str "token_used", .int k.tokenUsed), (str "token_limit", Json.ofInt? k.tokenLimit),
    (str "expires_at", Json.ofInt? k.expiresAt), (str "last_used_at", Json.ofInt? k.lastUsedAt)]

/-- The only response that holds a full key. -/
structure AdminKeyCreateResponse where
  key : AdminKeyResponse
  apiKey : Str

instance : Dump AdminKeyCreateResponse where
  dump r := .obj [(str "key", dump r.key), (str "api_key", .str r.apiKey)]

namespace AdminKeys

def keyPayload (k : KeyWithOwner) : Except Exn AdminKeyResponse :=
  match k.row.val.tokenUsed.toInt with
  | .error e => .error (.py e)
  | .ok tokenUsed => .ok {
      id := k.row.id
      userId := k.row.val.userId
      username := k.username
      name := k.row.val.name
      keyPrefix := k.row.val.keyPrefix
      maskedKey := maskKey k.row.val.keyPrefix
      enabled := k.row.val.enabled
      rpm := k.row.val.rpmLimit
      tokenUsed
      tokenLimit := k.row.val.tokenLimit
      expiresAt := k.row.val.expiresAt
      lastUsedAt := k.row.val.lastUsedAt }

/-- `except key_service.KeyNotFound` -/
def orNotFound (kid : Int) (c : Db α) : Db α :=
  c.handle fun
    | .keyNotFound _ => .raise (Admin.keyNotFound kid)
    | e => .raise e

def listKeys : Db (List AdminKeyResponse) := do
  let rows ← KeyService.listKeysWithOwner
  Db.lift (rows.mapM keyPayload)

def getKey (keyId : Str) : Db AdminKeyResponse := do
  let kid ← Db.lift (Admin.parsePathId keyId)
  let row ← orNotFound kid (KeyService.getKeyWithOwner kid)
  Db.lift (keyPayload row)

section
variable (hashKey : Str → Str) (zone : Zone) (keyPrefix : Str)

def createKey (clk : Clock) (random : Str) (body : AdminKeyCreateRequest) :
    Db AdminKeyCreateResponse := do
  let _ ← (UserService.getUserById body.userId).handle fun
    | .userNotFoundById _ => .raise (Admin.userNotFound body.userId)
    | e => .raise e
  let created ← KeyService.createKey hashKey zone clk random body.userId body.name body.rpm
    body.tokenLimit body.expiresInDays keyPrefix
  let row ← KeyService.getKeyWithOwner created.keyId
  let key ← Db.lift (keyPayload row)
  return { key, apiKey := created.full }

end

def setEnabled (keyIdRaw : Str) (enabled : Bool) : Db AdminKeyResponse := do
  let kid ← Db.lift (Admin.parsePathId keyIdRaw)
  let row ← orNotFound kid do
    KeyService.setKeyEnabled kid enabled
    KeyService.getKeyWithOwner kid
  Db.lift (keyPayload row)

/-- Absent is KEEP, `null` is CLEAR. -/
def limitUpdate : Option (Option Int) → LimitUpdate
  | none => .keep
  | some none => .clear
  | some (some n) => .set n

def patchLimits (keyId : Str) (body : AdminKeyLimitsRequest) : Db AdminKeyResponse := do
  let kid ← Db.lift (Admin.parsePathId keyId)
  let row ← orNotFound kid do
    let _ ← KeyService.setKeyLimits kid (limitUpdate body.rpm) (limitUpdate body.tokenLimit)
    KeyService.getKeyWithOwner kid
  Db.lift (keyPayload row)

end AdminKeys
end EasyModelGate
