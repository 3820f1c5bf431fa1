import EasyModelGate.Python.Clock
import EasyModelGate.Services.Analytics
import EasyModelGate.Services.KeyService
import EasyModelGate.Services.UserService

/-! # `services/usage_service.py`: periods

What the services ask of the configured time zone is a parameter of theirs. -/

namespace EasyModelGate

def Granularity.name : Granularity → Str
  | .hour => str "hour"
  | .day => str "day"
  | .week => str "week"
  | .month => str "month"

inductive Period
  | today | yesterday | last24h | last7d | week | month | all
  deriving DecidableEq

/-- `PERIOD_DEFAULT_GROUP`, with the names of the periods. -/
def periodDefaultGroup : List (Str × Period × Granularity) :=
  [(str "today", .today, .hour), (str "yesterday", .yesterday, .hour), (str "24h", .last24h, .hour),
    (str "7d", .last7d, .day), (str "week", .week, .day), (str "month", .month, .day),
    (str "all", .all, .day)]

/-- The configured time zone, as the standard library uses it. -/
structure Calendar where
  /-- `parse_local_ms` of a text that is not empty: `datetime.fromisoformat` raises a
  `ValueError`. -/
  parseLocalMs : Str → Except PyExn Int
  /-- The beginning of a period, in milliseconds; `all` has none. -/
  startOf : Period → Clock → Except PyExn (Option Int)
  /-- The key of the time bucket of a time. -/
  bucketKey : Granularity → Int → Except PyExn Str

/-- The branches of `resolve_time_range`: the beginning of a period in which `now` lies. -/
def ZoneInfo.periodStart (z : ZoneInfo) (now : Datetime) : Period → Except PyExn (Option Int)
  | .today => .ok (some (z.timestampMs now.midnight))
  | .yesterday => do return some (z.timestampMs (← now.midnight.sub 86400000000))
  | .last24h => do return some (z.timestampMs (← now.sub 86400000000))
  | .last7d => do return some (z.timestampMs (← now.sub 604800000000))
  | .week => do return some (z.timestampMs (← now.midnight.sub (now.weekday * 86400000000)))
  | .month => .ok (some (z.timestampMs now.firstOfMonth))
  | .all => .ok none

/-- The calendar of a zone; what `datetime.fromisoformat` reads is a parameter. -/
def ZoneInfo.calendar (z : ZoneInfo) (parseLocalMs : Str → Except PyExn Int) : Calendar where
  parseLocalMs
  startOf period clk := do z.periodStart (← z.now clk) period
  bucketKey := z.bucketKey

namespace UsageService

section
variable (cal : Calendar)

def parseLocalMs (s : Option Str) : Except PyExn (Option Int) :=
  (s.filter (· ≠ [])).mapM cal.parseLocalMs

/-- The start, the end and the default `group_by`, where `none` stands for `"none"`. -/
abbrev TimeRange := Option Int × Option Int × Option Granularity

/-- The branch of a period. -/
def periodRange (clk : Clock) (name : Str) : Except PyExn TimeRange :=
  match (periodDefaultGroup.find? (·.1 = name)).map Prod.snd with
  | none => .error .valueError
  | some (.yesterday, group) => do
    let start ← cal.startOf .yesterday clk
    return (start, start.map (· + 86400000), some group)
  | some (period, group) => do
    let start ← cal.startOf period clk
    return (start, none, some group)

def resolveTimeRange (clk : Clock) (period from? to? : Option Str) : Except PyExn TimeRange :=
  if from?.any (· ≠ []) ∨ to?.any (· ≠ []) then do
    return (← parseLocalMs cal from?, ← parseLocalMs cal to?, some .day)
  else
    match period.filter (· ≠ []) with
    | some name => periodRange cal clk name
    | none => .ok (none, none, none)

def summarize (f : SummaryFilter) : Db (List (Str × Analytics.Metrics)) :=
  Analytics.summary cal.bucketKey f

end

/-- The id of a user name; an empty one is taken for none. -/
def resolveUser (username : Option Str) : Db (Option Int) := do
  match username.filter (· ≠ []) with
  | none => return none
  | some username =>
    let user ← UserService.requireUser username
    return some user.id

/-- The id of a key prefix, likewise. -/
def resolveKey (keyPrefix : Option Str) : Db (Option Int) := do
  match keyPrefix.filter (· ≠ []) with
  | none => return none
  | some keyPrefix =>
    let key ← KeyService.resolveKeyPrefix keyPrefix
    return some key.id

def resolveFilters (username keyPrefix : Option Str) : Db (Option Int × Option Int) := do
  let userId ← resolveUser username
  let apiKeyId ← resolveKey keyPrefix
  return (userId, apiKeyId)

end UsageService
end EasyModelGate
