import EasyModelGate.Routers.AdminContext
import EasyModelGate.Services.KeyService
import EasyModelGate.Services.UsageService
import EasyModelGate.Services.UserService

/-! # `routers/admin_usage.py`, and the metrics of `routers/admin_common.py` -/

namespace EasyModelGate

/-- A stored value in a response. -/
def SqlValue.toJson : SqlValue → Json
  | .null => .null
  | .int n => .int n
  | .real x => .float x
  | .text s => .str s

/-- `round(x, 4)` -/
def PyFloat.roundTenThousandth : PyFloat → PyFloat
  | .fin q => PyFloat.round (PyFloat.roundHalfEven (q * 10000) / 10000)
  | x => x

namespace Admin

def successRate (success requests : Nat) : PyFloat :=
  if requests = 0 then .fin 0 else (PyFloat.round ((success : ℚ) / requests)).roundTenThousandth

/-- A number of `sqlite3` in a response. -/
def ofNumber? (x : Option SqlNumber) : Json := (x.map fun x => x.toValue.toJson).getD .null

def ofFloat? (x : Option PyFloat) : Json := (x.map Json.float).getD .null

/-- `metrics_body` -/
def metricsBody (total : Analytics.Metrics) (withMaxQueue withSuccessRate : Bool) :
    List (Str × Json) :=
  [(str "requests", .int total.requests), (str "success", .int total.successCount),
    (str "failed", .int total.errorCount), (str "prompt_tokens", .int total.promptTokens),
    (str "completion_tokens", .int total.completionTokens),
    (str "total_tokens", .int total.totalTokens), (str "cached_tokens", .int total.cachedTokens),
    (str "avg_duration_ms", ofFloat? total.avgDurationMs),
    (str "avg_queue_wait_ms", ofFloat? total.avgQueueWaitMs),
    (str "avg_upstream_ms", ofFloat? total.avgUpstreamDurationMs),
    (str "avg_ttft_ms", ofFloat? total.avgTtftMs)] ++
  (if withSuccessRate then
    [(str "success_rate", .float (successRate total.successCount total.requests))] else []) ++
  (if withMaxQueue then [(str "max_queue_wait_ms", ofNumber? total.maxQueueWaitMs)] else [])

/-- The user of a query parameter, who must exist. -/
def existingUser (raw : Option Str) : Db (Option Int) := do
  match raw with
  | none => return none
  | some raw =>
    let uid ← Db.lift (parseQueryInt raw "user_id")
    let _ ← (UserService.getUserById uid).handle fun
      | .userNotFoundById _ => .raise (userNotFound uid)
      | e => .raise e
    return some uid

/-- The key of a query parameter, which must exist. -/
def existingKey (raw : Option Str) : Db (Option Int) := do
  match raw with
  | none => return none
  | some raw =>
    let kid ← Db.lift (parseQueryInt raw "key_id")
    let _ ← (KeyService.getKey kid).handle fun
      | .keyNotFound _ => .raise (keyNotFound kid)
      | e => .raise e
    return some kid

end Admin

namespace AdminUsage

/-- What `_parse_usage_params` returns. -/
structure UsageParams where
  startMs : Option Int
  endMs : Option Int
  defaultGroup : Option Granularity
  userId : Option Int
  keyId : Option Int
  model : Option Str

def invalidTimeRange (message : String) : Exn := Admin.refuse 400 (str message) "invalid_time_range"

/-- The checks of the period and of the two times. -/
def parseTimes (cal : Calendar) (clk : Clock) (req : AdminRequest) :
    Except Exn UsageService.TimeRange :=
  let period := req.param "period"
  let from? := req.param "from"
  let to? := req.param "to"
  if period.any fun p => (periodDefaultGroup.find? (·.1 = p)).isNone then
    .error (Admin.refuse 400 (str "Unknown period '" ++ period.getD [] ++ str "'") "invalid_period")
  else
    match UsageService.resolveTimeRange cal clk period from? to? with
    | .error .valueError => .error (invalidTimeRange "Invalid from/to time range")
    | .error e => .error (.py e)
    | .ok (start, end?, group) =>
      if (from?.any (· ≠ []) ∨ to?.any (· ≠ [])) ∧ (start.any fun s => end?.any fun e => e ≤ s) then
        .error (invalidTimeRange "Field 'from' must be earlier than 'to'")
      else .ok (start, end?, group)

/-- `_parse_usage_params` -/
def parseUsageParams (cal : Calendar) (clk : Clock) (req : AdminRequest) : Db UsageParams := do
  let (startMs, endMs, defaultGroup) ← Db.lift (parseTimes cal clk req)
  let userId ← Admin.existingUser (req.param "user_id")
  let keyId ← Admin.existingKey (req.param "key_id")
  return { startMs, endMs, defaultGroup, userId, keyId, model := req.param "model" }

/-- `GROUP_BY_CHOICES` -/
def groupByChoices : List (Str × Option Granularity) :=
  [(str "hour", some .hour), (str "day", some .day), (str "week", some .week),
    (str "month", some .month), (str "none", none)]

/-- `_group_by` -/
def groupBy (req : AdminRequest) (default : Option Granularity) : Except Exn (Option Granularity) :=
  match req.param "group_by" with
  | none => .ok default
  | some gb =>
    match (groupByChoices.find? (·.1 = gb)).map Prod.snd with
    | none =>
      .error (Admin.refuse 400 (str "Unknown group_by '" ++ gb ++ str "'") "invalid_group_by")
    | some group => .ok group

def usageRows (cal : Calendar) (p : UsageParams) (granularity : Option Granularity) :
    Db (List (Str × Analytics.Metrics)) :=
  UsageService.summarize cal
    { startMs := p.startMs, endMs := p.endMs, userId := p.userId, apiKeyId := p.keyId,
      model := p.model, granularity }

/-- `rows[-1]`: the TOTAL row is always there. -/
def totalRow (rows : List (Str × Analytics.Metrics)) : Except Exn Analytics.Metrics :=
  ((rows.getLast?.map Prod.snd).map .ok).getD (.error (.py .indexError))

def usageSummary (cal : Calendar) (timezone : Str) (clk : Clock)
    (req : AdminRequest) : Db Json := do
  let p ← parseUsageParams cal clk req
  let total ← Db.lift (totalRow (← usageRows cal p none))
  return .obj [
    (str "range", .obj [(str "from_ms", Json.ofInt? p.startMs), (str "to_ms", Json.ofInt? p.endMs),
      (str "timezone", .str timezone)]),
    (str "filters", .obj [(str "user_id", Json.ofInt? p.userId),
      (str "key_id", Json.ofInt? p.keyId), (str "model", Json.ofOption p.model)]),
    (str "summary", .obj (Admin.metricsBody total true true))]

def timeseriesItem (row : Str × Analytics.Metrics) : Json :=
  .obj ((str "bucket", .str row.1) :: Admin.metricsBody row.2 false false)

def usageTimeseries (cal : Calendar) (clk : Clock) (req : AdminRequest) : Db Json := do
  let p ← parseUsageParams cal clk req
  let group ← Db.lift (groupBy req p.defaultGroup)
  let rows ← usageRows cal p group
  let items := if group.isNone then rows else rows.dropLast
  return .obj [(str "group_by", .str ((group.map Granularity.name).getD (str "none"))),
    (str "items", .arr (items.map timeseriesItem))]

end AdminUsage
end EasyModelGate
