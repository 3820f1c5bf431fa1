import EasyModelGate.Routers.AdminUsage

/-! # `routers/admin_overview.py`, and the probes of `routers/admin_common.py` -/

namespace EasyModelGate

/-- What the process has noted of its start. -/
structure AppInfo where
  version : Str
  startedMonotonic : ℚ
  startedAtMs : Int

namespace AdminOverview

def statusObj (healthy : Bool) : Json :=
  .obj [(str "status", .str (if healthy then str "healthy" else str "unhealthy"))]

/-- `backend_status` -/
def backendStatus : Handling Bool := do return (← Handling.probe).any (· < 500)

/-- `database_status` -/
def databaseStatus : Db Bool :=
  Coro.handle (do
    let _ ← Db.query .one
    return true) fun e => if e.isException then return false else .raise e

/-- `_today_metrics` -/
def todayMetrics (cal : Calendar) (clk : Clock) : Db (List (Str × Json)) := do
  let (startMs, endMs, _) ←
    Db.lift ((UsageService.resolveTimeRange cal clk (some (str "today")) none none).mapError Exn.py)
  let rows ← UsageService.summarize cal { startMs, endMs }
  let total ← Db.lift (AdminUsage.totalRow rows)
  return Admin.metricsBody total true true

def overview (cal : Calendar) (clk : Clock) : Handling Json := do
  let today ← Handling.ofDb (todayMetrics cal clk)
  let backend ← backendStatus
  let activeKeys ← Handling.ofDb Dao.countEnabledKeys
  return .obj [(str "gateway", statusObj true), (str "backend", statusObj backend),
    (str "today", .obj today), (str "active_keys", .int activeKeys)]

/-- The clock is read before the probes. -/
def system (info : AppInfo) (clk : Clock) : Handling Json := do
  let backend ← backendStatus
  let database ← Handling.ofDb databaseStatus
  return .obj [(str "version", .str info.version), (str "gateway", statusObj true),
    (str "backend", statusObj backend), (str "database", statusObj database),
    (str "uptime_seconds", .float (PyFloat.round (clk.mono - info.startedMonotonic)).roundTenth),
    (str "started_at", .int info.startedAtMs)]

end AdminOverview
end EasyModelGate
