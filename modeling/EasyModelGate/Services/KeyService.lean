import EasyModelGate.Core.Security
import EasyModelGate.Db.Dao
import EasyModelGate.Python.Clock

/-! # `services/key_service.py` -/

namespace EasyModelGate

/-- A new value for a limit: keep it, clear it, or set it. -/
inductive LimitUpdate
  | keep
  | clear
  | set (n : Int)
  deriving DecidableEq

def LimitUpdate.apply (u : LimitUpdate) (current : Option Int) : Option Int :=
  match u with
  | .clear => none
  | .keep => current
  | .set n => some n

/-- A key row with the name of its owner. -/
structure KeyWithOwner where
  row : Row ApiKey
  username : Option Str

/-- The result of `create_key`: the only time that the full key is shown. -/
structure CreatedKey where
  keyId : Nat
  full : Str
  masked : Str

namespace KeyService

section
variable (hashKey : Str → Str) (zone : Zone)

/-- `random` is what `secrets.token_urlsafe` returns. -/
def createKey (clk : Clock) (random : Str) (userId : Int) (name : Option Str)
    (rpm tokenLimit expiresInDays : Option Int) (keyPrefix : Str) : Db CreatedKey :=
  match expiresInDays.mapM (zone.inDays clk) with
  | .error e => .raise (.py e)
  | .ok expiresMs => do
    let (full, pfx) := generateKey keyPrefix random
    let kid ← Dao.createApiKey userId name pfx (hashKey full) expiresMs rpm tokenLimit clk.nowMs
    return { keyId := kid, full, masked := maskKey pfx }

end

def getKey (keyId : Int) : Db (Row ApiKey) := do
  match ← Dao.getKeyById keyId with
  | none => .raise (.keyNotFound keyId)
  | some row => return row

def listKeys (userId : Option Int) : Db (List (Row ApiKey)) := Dao.listKeys userId

/-- The name of the user with this id, among `users`. -/
def ownerName (users : List (Row User)) (userId : Nat) : Option Str :=
  (users.find? (·.id = userId)).map (·.val.username)

def listKeysWithOwner : Db (List KeyWithOwner) := do
  let rows ← Dao.listKeys none
  let users ← Dao.listUsers
  return rows.map fun row => { row, username := ownerName users row.val.userId }

def getKeyWithOwner (keyId : Int) : Db KeyWithOwner := do
  let row ← getKey keyId
  let user ← Dao.getUserById row.val.userId
  return { row, username := user.map (·.val.username) }

def resolveKeyPrefix (keyPrefix : Str) : Db (Row ApiKey) := do
  match ← Dao.findKeysByPrefix keyPrefix with
  | [row] => return row
  | rows => .raise (.ambiguousKeyPrefix keyPrefix rows.length)

def setKeyEnabled (keyId : Int) (enabled : Bool) : Db Unit := do
  if ← Dao.setKeyEnabledById keyId enabled then return ()
  else .raise (.keyNotFound keyId)

/-- The new limits; whether the row was still there when they were written is not asked. -/
def setKeyLimits (keyId : Int) (rpm tokenLimit : LimitUpdate) : Db (Option Int × Option Int) := do
  let target ← getKey keyId
  let newRpm := rpm.apply target.val.rpmLimit
  let newTok := tokenLimit.apply target.val.tokenLimit
  let _ ← Dao.setKeyLimitsById keyId newRpm newTok
  return (newRpm, newTok)

end KeyService
end EasyModelGate
