import EasyModelGate.Core.Security
import EasyModelGate.Db.Dao

/-! # `core/auth.py`: Bearer authentication -/

namespace EasyModelGate

structure AuthContext where
  userId : Nat
  apiKeyId : Nat
  username : Str
  maskedKey : Str
  rpmLimit : Option Int
  tokenLimit : Option Int
  tokenUsed : SqlNumber
  deriving DecidableEq

namespace Auth

private def refuse (statusCode : Nat) (message code : String) : Exn :=
  .api { statusCode, message := str message, code := some (str code) }

def missingKey : Exn := refuse 401 "Missing API key" "invalid_api_key"
def invalidKey : Exn := refuse 401 "Invalid API key" "invalid_api_key"
def keyDisabled : Exn := refuse 401 "API key has been disabled" "key_disabled"
def keyExpired : Exn := refuse 401 "API key has expired" "key_expired"
def userDisabled : Exn := refuse 403 "User account is disabled" "user_disabled"

/-- The scheme and the token of the `Authorization` header. -/
def scheme (header : Str) : Str := header.partitionSpace.1.lower
def token (header : Str) : Str := header.partitionSpace.2.strip

/-- What the two rows grant. -/
def context (row : Row ApiKey) (user : Row User) : AuthContext where
  userId := row.val.userId
  apiKeyId := row.id
  username := user.val.username
  maskedKey := maskKey row.val.keyPrefix
  rpmLimit := row.val.rpmLimit
  tokenLimit := row.val.tokenLimit
  tokenUsed := row.val.tokenUsed

/-- The checks of a row that was found, and the look at its owner. -/
def checkRow (row : Row ApiKey) (nowMs : Int) : Db AuthContext := do
  if !row.val.enabled then .raise keyDisabled
  else if row.val.expiresAt.any (· ≤ nowMs) then .raise keyExpired
  else match ← Dao.getUserById row.val.userId with
    | none => .raise userDisabled
    | some user => if !user.val.enabled then .raise userDisabled else return context row user

end Auth

open Auth in
/-- `require_auth`. A missing header is the empty one; the clock is read after the first query.
The caller spawns the `touch_last_used` task of the key that it returns. -/
def requireAuth (hashKey : Str → Str) (keyPrefix : Str) (header : Str) (nowMs : Int) :
    Db AuthContext := do
  if scheme header ≠ str "bearer" ∨ token header = [] then .raise missingKey
  else if ¬ keyPrefix <+: token header then .raise invalidKey
  else match ← Dao.getKeyByHash (hashKey (token header)) with
    | none => .raise invalidKey
    | some row => checkRow row nowMs

end EasyModelGate
