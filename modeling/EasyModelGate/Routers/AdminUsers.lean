import EasyModelGate.Routers.AdminCommon
import EasyModelGate.Services.UserService

/-! # `routers/admin_users.py` -/

namespace EasyModelGate

structure AdminUserCreateRequest where
  username : Str
  displayName : Option Str := none
  note : Option Str := none

structure AdminUserResponse where
  id : Nat
  username : Str
  displayName : Option Str
  note : Option Str
  enabled : Bool
  createdAt : Int

instance : Dump AdminUserResponse where
  dump u := .obj [(str "id", .int u.id), (str "username", .str u.username),
    (str "display_name", Json.ofOption u.displayName), (str "note", Json.ofOption u.note),
    (str "enabled", .bool u.enabled), (str "created_at", .int u.createdAt)]

namespace AdminUsers

def userPayload (row : Row User) : AdminUserResponse where
  id := row.id
  username := row.val.username
  displayName := row.val.displayName
  note := row.val.note
  enabled := row.val.enabled
  createdAt := row.val.createdAt

def listUsers : Db (List AdminUserResponse) := do
  let rows ← UserService.listUsers
  return rows.map userPayload

def createUser (body : AdminUserCreateRequest) (nowMs : Int) : Db AdminUserResponse := do
  let uid ← (UserService.createUser body.username body.displayName body.note nowMs).handle fun
    | .userAlreadyExists _ =>
      .raise (Admin.refuse 409 (str "User '" ++ body.username ++ str "' already exists")
          "user_already_exists")
    | e => .raise e
  let row ← UserService.getUserById uid
  return userPayload row

/-- A row that is gone would be `None`, which has no items. -/
def setEnabled (userIdRaw : Str) (enabled : Bool) : Db AdminUserResponse := do
  let userId ← Db.lift (Admin.parsePathId userIdRaw)
  let row? ← (UserService.setUserEnabledById userId enabled).handle fun
    | .userNotFoundById _ => .raise (Admin.userNotFound userId)
    | e => .raise e
  match row? with
  | some row => return userPayload row
  | none => .raise (.py .typeError)

end AdminUsers
end EasyModelGate
