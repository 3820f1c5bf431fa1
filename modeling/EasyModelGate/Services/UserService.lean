import EasyModelGate.Db.Dao

/-! # `services/user_service.py` -/

namespace EasyModelGate.UserService

def requireUser (username : Str) : Db (Row User) := do
  match ← Dao.getUserByUsername username with
  | none => .raise (.userNotFound username)
  | some user => return user

def getUserById (userId : Int) : Db (Row User) := do
  match ← Dao.getUserById userId with
  | none => .raise (.userNotFoundById userId)
  | some user => return user

/-- The insertion may still meet a user that another request has inserted meanwhile. -/
def createUser (username : Str) (displayName note : Option Str) (nowMs : Int) : Db Nat := do
  if (← Dao.getUserByUsername username).isSome then .raise (.userAlreadyExists username)
  else (Dao.createUser username displayName note nowMs).handle fun
    | .py .integrityError => .raise (.userAlreadyExists username)
    | e => .raise e

def listUsers : Db (List (Row User)) := Dao.listUsers

def setUserEnabled (username : Str) (enabled : Bool) : Db Unit := do
  if ← Dao.setUserEnabled username enabled then return ()
  else .raise (.userNotFound username)

/-- The row is read back, as `None` if it should be gone. -/
def setUserEnabledById (userId : Int) (enabled : Bool) : Db (Option (Row User)) := do
  if ← Dao.setUserEnabledById userId enabled then Dao.getUserById userId
  else .raise (.userNotFoundById userId)

end EasyModelGate.UserService
