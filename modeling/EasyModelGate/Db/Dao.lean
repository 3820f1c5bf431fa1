import EasyModelGate.Db.Database

/-! # `db/dao.py`: the data access functions

Each is a coroutine over the statements of one connection: every awaited statement is one step,
with the fetch that follows a query. `now_ms()` is an argument where the source calls it. -/

namespace EasyModelGate

/-- A coroutine over the database connection. -/
abbrev Db (α : Type) := Coro Stmt Stmt.Res Exn α

namespace Db

def query (q : Query) : Db q.Res := Coro.perform (Stmt.query q)
def execute (d : Dml) : Db Cursor := Coro.perform (Stmt.dml d)
def commit : Db Unit := Coro.perform Stmt.commit

/-- A computation that awaits nothing. -/
def lift : Except Exn α → Db α
  | .ok a => .ret a
  | .error e => .raise e

/-- A writing statement and its `commit`, as nearly all of `dao.py` has it. -/
def executeCommit (d : Dml) : Db Cursor := do
  let cur ← execute d
  commit
  return cur

end Db

namespace Dao

/-! ## users -/

def createUser (username : Str) (displayName note : Option Str) (nowMs : Int) : Db Nat := do
  let cur ← Db.executeCommit (.insertUser username displayName note true nowMs)
  return cur.lastrowid

def getUserByUsername (username : Str) : Db (Option (Row User)) :=
  Db.query (.userByUsername username)

def getUserById (userId : Int) : Db (Option (Row User)) := Db.query (.userById userId)

def listUsers : Db (List (Row User)) := Db.query .users

def setUserEnabled (username : Str) (enabled : Bool) : Db Bool := do
  let cur ← Db.executeCommit (.setUserEnabled username enabled)
  return 0 < cur.rowcount

def setUserEnabledById (userId : Int) (enabled : Bool) : Db Bool := do
  let cur ← Db.executeCommit (.setUserEnabledById userId enabled)
  return 0 < cur.rowcount

/-! ## api_keys -/

def createApiKey (userId : Int) (name : Option Str) (keyPrefix keyHash : Str)
    (expiresAt rpmLimit tokenLimit : Option Int) (nowMs : Int) : Db Nat := do
  let cur ← Db.executeCommit
    (.insertApiKey userId name keyPrefix keyHash expiresAt rpmLimit tokenLimit nowMs)
  return cur.lastrowid

def getKeyByHash (keyHash : Str) : Db (Option (Row ApiKey)) := Db.query (.keyByHash keyHash)

def findKeysByPrefix (keyPrefix : Str) : Db (List (Row ApiKey)) :=
  Db.query (.keysByPrefix keyPrefix)

def listKeys (userId : Option Int) : Db (List (Row ApiKey)) := Db.query (.keys userId)

def setKeyEnabledById (keyId : Int) (enabled : Bool) : Db Bool := do
  let cur ← Db.executeCommit (.setKeyEnabledById keyId enabled)
  return 0 < cur.rowcount

def getKeyById (keyId : Int) : Db (Option (Row ApiKey)) := Db.query (.keyById keyId)

def setKeyLimitsById (keyId : Int) (rpmLimit tokenLimit : Option Int) : Db Bool := do
  let cur ← Db.executeCommit (.setKeyLimitsById keyId rpmLimit tokenLimit)
  return 0 < cur.rowcount

/-- `touch_last_used`, which only `require_auth` calls, without `ts_ms`. -/
def touchLastUsed (keyId : Int) (nowMs : Int) : Db Unit := do
  let _ ← Db.executeCommit (.touchLastUsed keyId nowMs)

/-! ## settings -/

def getSetting (key : Str) : Db (Option Str) := Db.query (.setting key)

def setSetting (key value : Str) : Db Unit := do
  let _ ← Db.executeCommit (.upsertSetting key value)

/-! ## request_logs -/

def listRequestLogs (filter : LogFilter) (limit : Int) : Db (List RequestLogItem) :=
  Db.query (.requestLogs filter limit)

def countEnabledKeys : Db Nat := Db.query .enabledKeys

end Dao
end EasyModelGate
