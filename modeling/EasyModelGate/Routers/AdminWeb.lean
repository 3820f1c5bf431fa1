import EasyModelGate.Routers.Admin

/-! # `routers/admin_web.py`: the pages -/

namespace EasyModelGate.AdminWeb

def loginPath : Str := str "/admin/login"

def checkAdminSession (req : AdminRequest) : Handling Bool := do
  match req.sessionCookie with
  | none => return false
  | some sid =>
    let (status, _) ← Handling.lookup sid
    return status = .valid

def redirect (url : Str) : AdminResponse := { statusCode := 303, body := .redirect url }

def redirectToLogin (req : AdminRequest) : AdminResponse :=
  redirect (str "/admin/login?redirect=" ++ req.path)

def loginPage (req : AdminRequest) : Handling AdminResponse := do
  if ← checkAdminSession req then return redirect (str "/admin")
  else
    let row ← Handling.ofDb (Dao.getSetting (str "admin.auth"))
    return { body := .page "login.html" (some row.isSome) }

/-- A page for an administrator. -/
def page (template : String) (req : AdminRequest) : Handling AdminResponse := do
  if ← checkAdminSession req then return { body := .page template none }
      else return redirectToLogin req

def overviewPage : AdminRequest → Handling AdminResponse := page "overview.html"
def usersPage : AdminRequest → Handling AdminResponse := page "users.html"
def keysPage : AdminRequest → Handling AdminResponse := page "keys.html"
def usagePage : AdminRequest → Handling AdminResponse := page "usage.html"
def systemPage : AdminRequest → Handling AdminResponse := page "system.html"

/-- Without a look at the `Origin`. -/
def logoutPage (req : AdminRequest) : Handling AdminResponse := do
  Admin.dropSession req
  return { redirect loginPath with setCookie := some { value := [], maxAge := 0, secure := false } }

end EasyModelGate.AdminWeb
