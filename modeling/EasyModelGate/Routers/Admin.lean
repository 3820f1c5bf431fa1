import EasyModelGate.Routers.AdminContext
import EasyModelGate.Services.AdminAuthService

/-! # `routers/admin.py`: authentication of the Admin API

The two dependencies of the protected routes, and login and logout, which stand outside them. -/

namespace EasyModelGate.Admin

/-- `_client_key` -/
def clientKey (req : AdminRequest) : Str := req.clientHost.getD (str "unknown")

/-- `_request_origin` -/
def requestOrigin (req : AdminRequest) : Str :=
  let forwarded := ((req.headers.get (str "x-forwarded-proto")).getD []).takeWhile (· ≠ 0x2C)
  let scheme := if Str.strip forwarded = [] then req.urlScheme else Str.strip forwarded
  let host := ((req.headers.get (str "host")).filter (· ≠ [])).getD req.urlNetloc
  scheme ++ str "://" ++ host

/-- `s.rstrip("/")` -/
def rstripSlash (s : Str) : Str := s.rdropWhile (· = 0x2F)

def safeMethods : List Str := [str "GET", str "HEAD", str "OPTIONS"]

def csrfOriginInvalid (message : String) : Exn := refuse 403 (str message) "csrf_origin_invalid"

def requireSameOrigin (req : AdminRequest) : Except Exn Unit :=
  if req.method ∈ safeMethods then .ok ()
  else
    match (req.headers.get (str "origin")).filter (· ≠ []) with
    | none =>
      .error (csrfOriginInvalid "State-changing admin request requires a matching Origin header")
    | some origin =>
      if rstripSlash origin ≠ rstripSlash (requestOrigin req)
      then .error (csrfOriginInvalid "Origin does not match the admin endpoint")
      else .ok ()

/-- An `ApiError` with a type of its own. -/
def refuseAs (errType : String) (statusCode : Nat) (message code : String) : Exn :=
  .api { statusCode, message := str message, errType := str errType, code := some (str code) }

def authRequired : Exn :=
  refuseAs "authentication_error" 401 "Admin authentication required" "admin_auth_required"
def sessionExpired : Exn :=
  refuseAs "authentication_error" 401 "Admin session has expired" "admin_session_expired"

def requireAdminSession (req : AdminRequest) : Handling SessionStore.Session := do
  match req.sessionCookie with
  | none => .raise authRequired
  | some sid =>
    match ← Handling.lookup sid with
    | (.expired, _) => .raise sessionExpired
    | (_, none) => .raise authRequired
    | (_, some session) => return session

/-- A route of `make_protected_router`. -/
def guarded (req : AdminRequest) (handler : Handling AdminResponse) : Handling AdminResponse := do
  let _ ← requireAdminSession req
  Handling.lift (requireSameOrigin req)
  handler

def isHttps (req : AdminRequest) : Bool := str "https://" <+: requestOrigin req

/-- `_cookie_kwargs`: the path is `/admin`, the cookie is HTTP-only and `SameSite=Lax`. -/
def cookie (req : AdminRequest) (value : Str) (maxAge : Int) : SetCookie :=
  { value, maxAge, secure := isHttps req }

def passwordRequired : Exn :=
  refuse 422 (str "Field 'password' (string) is required") "validation_error"
    (some (str "password"))

/-- The field of the body. -/
def passwordOf : Json → Option Str
  | .obj items => (Json.lookup (str "password") items).bind Json.asStr?
  | _ => none

/-- `_parse_password` -/
def parsePassword : Handling Str := do
  let payload ← Handling.lift (parseJsonBody (← Handling.body))
  Handling.lift (((passwordOf payload).map .ok).getD (.error passwordRequired))

def loginRateLimited : Exn :=
  refuseAs "rate_limit_error" 429 "Too many failed login attempts" "admin_login_rate_limited"
def adminNotInitialized : Exn :=
  refuseAs "api_error" 503 "Admin is not initialized; run 'easymodelgate admin init' first"
    "admin_not_initialized"
def invalidCredentials : Exn :=
  refuseAs "authentication_error" 401 "Invalid credentials" "invalid_admin_credentials"

def authenticated (b : Bool) : AdminBody := .json (.obj [(str "authenticated", .bool b)])

/-- What follows the verification. -/
def loginVerified (req : AdminRequest) (ok : Bool) : Handling AdminResponse := do
  if !ok then
    Handling.recordFailure (clientKey req)
    .raise invalidCredentials
  else
    Handling.reset (clientKey req)
    let session ← Handling.createSession
    return { body := authenticated true, setCookie := some (cookie req session.sessionId 43200) }

/-- What follows the look at the credential. -/
def loginInitialized (lib : AdminAuthLib) (req : AdminRequest) (password : Str)
    (initialized : Bool) :
    Handling AdminResponse := do
  if !initialized then .raise adminNotInitialized
  else loginVerified req (← Handling.ofDb (AdminAuthService.verifyAdminPassword lib password))

def adminLogin (lib : AdminAuthLib) (req : AdminRequest) : Handling AdminResponse := do
  Handling.lift (requireSameOrigin req)
  if ← Handling.blocked (clientKey req) then .raise loginRateLimited
  else
    let password ← parsePassword
    loginInitialized lib req password (← Handling.ofDb (AdminAuthService.isAdminInitialized lib))

/-- `delete` of the session of the cookie, if there is a cookie. -/
def dropSession (req : AdminRequest) : Handling Unit :=
  match req.sessionCookie with
  | none => return ()
  | some sid => Handling.deleteSession sid

def adminLogout (req : AdminRequest) : Handling AdminResponse := do
  Handling.lift (requireSameOrigin req)
  dropSession req
  return { body := authenticated false, setCookie := some (cookie req [] 0) }

end EasyModelGate.Admin
