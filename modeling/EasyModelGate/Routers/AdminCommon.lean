import EasyModelGate.Db.Dao

/-! # `routers/admin_common.py`: parsing, and the errors of the Admin API

What Pydantic makes of a body is a parameter: the model, or the `loc` of its first error. -/

namespace EasyModelGate

/-- A response model that the Admin API sends as JSON. -/
class Dump (α : Type) where
  dump : α → Json

export Dump (dump)

namespace Json

def ofInt? (n : Option Int) : Json := (n.map Json.int).getD .null

end Json

namespace Admin

/-- An `ApiError` with the default type. -/
def refuse (statusCode : Nat) (message : Str) (code : String) (param : Option Str := none) : Exn :=
  .api { statusCode, message, code := some (str code), param }

def parseJsonBody (body : Except Unit Json) : Except Exn Json :=
  body.mapError fun _ => refuse 400 (str "Request body must be JSON") "bad_request"

def parseBody (modelValidate : Json → Except (Option Str) α) (payload : Json) : Except Exn α :=
  (modelValidate payload).mapError fun loc =>
    refuse 422 (str "Request validation failed") "validation_error" loc

def parsePathId (raw : Str) : Except Exn Int :=
  match raw.toInt? with
  | none => .error (refuse 400 (str "Path id must be an integer") "invalid_request")
  | some value =>
    if value < 1 then
      .error (refuse 404 (str "id " ++ Str.ofInt value ++ str " not found") "not_found")
    else .ok value

def parseQueryInt (raw : Str) (name : String) : Except Exn Int :=
  match raw.toInt? with
  | none => .error (refuse 400 (str s!"Query param '{name}' must be an integer") "invalid_request")
  | some value => .ok value

def userNotFound (userId : Int) : Exn :=
  refuse 404 (str "User " ++ Str.ofInt userId ++ str " not found") "user_not_found"

def keyNotFound (keyId : Int) : Exn :=
  refuse 404 (str "Key " ++ Str.ofInt keyId ++ str " not found") "key_not_found"

end Admin
end EasyModelGate
