import EasyModelGate.Python.Json

/-! # `core/errors.py`: the error envelope

Everything that the code can raise is one type `Exn`, and the exception handlers map it to the
response that the client gets. -/

namespace EasyModelGate

structure ApiError where
  statusCode : Nat
  message : Str
  errType : Str := str "invalid_request_error"
  code : Option Str := none
  param : Option Str := none
  headers : List (Str × Str) := []
  deriving DecidableEq

/-- An exception: an `ApiError`, a built-in one, or one of the services' own. -/
inductive Exn
  | api (e : ApiError)
  | py (e : PyExn)
  /-- `SlotQueueTimeout`, with the time waited in milliseconds. -/
  | slotQueueTimeout (waitedMs : ℚ)
  | userAlreadyExists (username : Str)
  | userNotFound (username : Str)
  | userNotFoundById (userId : Int)
  | keyNotFound (keyId : Int)
  | ambiguousKeyPrefix (pfx : Str) (count : Nat)
  | emptyPassword
  | adminAlreadyInitialized
  | adminNotInitialized
  deriving DecidableEq

/-- `isinstance(exc, Exception)` -/
def Exn.isException : Exn → Bool
  | .py e => e.isException
  | _ => true

/-- What a response carries: raw bytes with their media type, or a JSON document. -/
inductive Body
  | raw (content : Bytes) (mediaType : Str)
  | json (content : Json)

structure Response where
  statusCode : Nat
  body : Body
  headers : List (Str × Str) := []

def Json.ofOption (s : Option Str) : Json := (s.map Json.str).getD .null

def errorEnvelope (message : Str) (errType : Str := str "invalid_request_error")
    (code : Option Str := none) (param : Option Str := none) : Json :=
  .obj [(str "error", .obj [(str "message", .str message), (str "type", .str errType),
    (str "param", Json.ofOption param), (str "code", Json.ofOption code)])]

def ApiError.toResponse (e : ApiError) : Response where
  statusCode := e.statusCode
  body := .json (errorEnvelope e.message e.errType e.code e.param)
  headers := e.headers

/-- `_handle_unhandled` -/
def handleUnhandled : Response where
  statusCode := 500
  body := .json (errorEnvelope (str "Internal server error") (str "api_error")
    (some (str "internal_error")))

/-- The response to an exception that leaves a handler, if it gets any. -/
def Exn.response? : Exn → Option Response
  | .api e => some e.toResponse
  | e => if e.isException then some handleUnhandled else none

end EasyModelGate
