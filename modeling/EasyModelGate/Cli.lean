import EasyModelGate.Services.AdminAuthService
import EasyModelGate.Services.KeyService
import EasyModelGate.Services.UsageService
import EasyModelGate.Services.UserService

/-! # `cli.py`: the commands

Each command runs on a connection of its own. An exception that no clause catches ends the process
with a traceback. -/

namespace EasyModelGate

/-- What a command prints, and its exit code. -/
structure CliOutput where
  lines : List Str
  code : Nat := 0

/-- `str(x)` of an optional integer. -/
def Str.ofInt? (n : Option Int) : Str := (n.map Str.ofInt).getD (str "None")

/-- `str(b)` -/
def Str.ofBool (b : Bool) : Str := if b then str "True" else str "False"

/-- `x or '-'` of a text, or of an integer. -/
def orDash (s : Option Str) : Str := (s.filter (· ≠ [])).getD (str "-")
def intOrDash (n : Option Int) : Str := ((n.filter (· ≠ 0)).map Str.ofInt).getD (str "-")

/-- `str(x if x is not None else '-')` -/
def limitOrDash (n : Option Int) : Str := (n.map Str.ofInt).getD (str "-")

namespace Cli

private def spaced : List Str → Str := List.intercalate (str "  ")

/-! ## `user` -/

def userCreate (username : Str) (displayName note : Option Str) (nowMs : Int) : Db CliOutput :=
  Coro.handle (do
    let uid ← UserService.createUser username displayName note nowMs
    return { lines := [str "用户已创建：id=" ++ Str.ofInt uid ++ str "  username=" ++ username] }) fun
  | .userAlreadyExists username =>
    return { lines := [str "错误：用户 " ++ username ++ str " 已存在"], code := 1 }
  | e => .raise e

def userRow (row : Row User) : Str :=
  spaced [Str.padLeft 4 (Str.ofInt row.id), Str.padRight 7 (Str.ofBool row.val.enabled),
    Str.padRight 20 row.val.username, Str.padRight 16 (orDash row.val.displayName),
    Str.ofInt row.val.createdAt]

def userList : Db CliOutput := do
  let rows ← UserService.listUsers
  return { lines := spaced [Str.padLeft 4 (str "id"), Str.padRight 7 (str "enabled"),
    Str.padRight 20 (str "username"), Str.padRight 16 (str "display_name"), str "created_at(ms)"] ::
    rows.map userRow }

def switched (enabled : Bool) : Str := if enabled then str "启用" else str "停用"

def userSetEnabled (username : Str) (enabled : Bool) : Db CliOutput :=
  Coro.handle (do
    UserService.setUserEnabled username enabled
    return { lines := [str "已完成：" ++ username ++ str " -> " ++ switched enabled] }) fun
  | .userNotFound username =>
    return { lines := [str "错误：用户 " ++ username ++ str " 不存在"], code := 1 }
  | e => .raise e

/-! ## `key` -/

section
variable (hashKey : Str → Str) (zone : Zone) (keyPrefix : Str)

/-- `key create`: the owner is looked up first. -/
def createKey (clk : Clock) (random user : Str) (name : Option Str)
    (rpm tokenLimit expiresInDays : Option Int) : Db (Row User × CreatedKey) := do
  let owner ← UserService.requireUser user
  let created ← KeyService.createKey hashKey zone clk random owner.id name rpm
      tokenLimit expiresInDays keyPrefix
  return (owner, created)

/-- The only place where the CLI prints a full key. -/
def keyCreate (clk : Clock) (random user : Str) (name : Option Str)
    (rpm tokenLimit expiresInDays : Option Int) : Db CliOutput :=
  Coro.handle (do
    let (_, created) ← createKey hashKey zone keyPrefix clk random user name rpm
      tokenLimit expiresInDays
    return { lines := [str "请立即保存，该 Key 后续无法再次查看。", [], created.full, [],
      str "标识：" ++ created.masked ++ str "   key_id=" ++ Str.ofInt created.keyId ++
      str "   user=" ++
        user] }) fun
  | .userNotFound _ =>
    return { lines := [str "错误：用户 " ++ user ++ str " 不存在，请先 user create"], code := 1 }
  | e => .raise e

end

def keyRow (floatRepr : PyFloat → String) (users : List (Row User)) (row : Row ApiKey) : Str :=
  spaced [Str.padLeft 4 (Str.ofInt row.id),
    Str.padRight 14 ((KeyService.ownerName users row.val.userId).getD (str "-")),
    Str.padRight 12 (orDash row.val.name), Str.padRight 14 (maskKey row.val.keyPrefix),
    Str.padRight 7 (Str.ofBool row.val.enabled), Str.padLeft 5 (limitOrDash row.val.rpmLimit),
    Str.padLeft 9 (row.val.tokenUsed.toStr floatRepr),
    Str.padLeft 10 (limitOrDash row.val.tokenLimit), intOrDash row.val.expiresAt,
    intOrDash row.val.lastUsedAt]

def keyHeader : Str :=
  spaced [Str.padLeft 4 (str "id"), Str.padRight 14 (str "user"), Str.padRight 12 (str "name"),
    Str.padRight 14 (str "key_prefix"), Str.padRight 7 (str "enabled"), Str.padLeft 5 (str "rpm"),
    Str.padLeft 9 (str "tok_used"), Str.padLeft 10 (str "tok_limit"), str "expires_at",
    str "last_used_at"]

def keyList (floatRepr : PyFloat → String) (user : Option Str) : Db CliOutput := do
  match user.filter (· ≠ []) with
  | none => listing none
  | some user =>
    Coro.handle (do
      let owner ← UserService.requireUser user
      listing (some owner.id)) fun
    | .userNotFound _ => return { lines := [str "错误：用户 " ++ user ++ str " 不存在"], code := 1 }
    | e => .raise e
where
  listing (userId : Option Int) : Db CliOutput := do
    let rows ← KeyService.listKeys userId
    let users ← UserService.listUsers
    return { lines := keyHeader :: rows.map (keyRow floatRepr users) }

/-- `except key_service.AmbiguousKeyPrefix` -/
def orAmbiguous (c : Db CliOutput) : Db CliOutput :=
  c.handle fun
    | .ambiguousKeyPrefix pfx count =>
      return { lines := [str "错误：前缀 " ++ pfx ++ str " 匹配到 " ++ Str.ofInt count ++
        str " 个 Key（需恰好 1 个）"], code := 1 }
    | e => .raise e

/-- `key enable` and `key disable`: the prefix must match exactly one key. -/
def setKeyEnabled (pfx : Str) (enabled : Bool) : Db (Row ApiKey) := do
  let target ← KeyService.resolveKeyPrefix pfx
  KeyService.setKeyEnabled target.id enabled
  return target

def keyTitle (target : Row ApiKey) : Str :=
  str "已完成：key_id=" ++ Str.ofInt target.id ++ str " (" ++ maskKey target.val.keyPrefix ++ str ")"

def keySetEnabled (pfx : Str) (enabled : Bool) : Db CliOutput :=
  orAmbiguous do
    let target ← setKeyEnabled pfx enabled
    return { lines := [keyTitle target ++ str " -> " ++ switched enabled] }

/-- `--rpm` and `--clear-rpm`, or the same of the token limit. -/
def limitUpdate (clear : Bool) (value : Option Int) : LimitUpdate :=
  if clear then .clear else
    match value with
    | none => .keep
    | some n => .set n

def setKeyLimits (pfx : Str) (rpm tokenLimit : LimitUpdate) :
    Db (Row ApiKey × Option Int × Option Int) := do
  let target ← KeyService.resolveKeyPrefix pfx
  let (newRpm, newTok) ← KeyService.setKeyLimits target.id rpm tokenLimit
  return (target, newRpm, newTok)

def keySetLimits (pfx : Str) (rpm tokenLimit : LimitUpdate) : Db CliOutput :=
  orAmbiguous do
    let (target, newRpm, newTok) ← setKeyLimits pfx rpm tokenLimit
    return { lines := [keyTitle target ++ str " rpm_limit=" ++ Str.ofInt? newRpm ++
      str " token_limit=" ++
      Str.ofInt? newTok] }

/-! ## `usage` -/

/-- `_fmt_avg` of a float: `f"{v:.1f}"` -/
def fmtFloat : PyFloat → Str
  | .nan => str "nan"
  | .inf negative => str (if negative then "-inf" else "inf")
  | .fin q =>
    let tenths := (PyFloat.roundHalfEven (|q| * 10)).toNat
    (if q < 0 then str "-" else []) ++ Str.ofInt (tenths / 10 : Nat) ++ str "." ++
        Str.ofInt (tenths % 10 : Nat)

/-- `_fmt_avg` -/
def fmtAvg (v : Option PyFloat) : Str := (v.map fmtFloat).getD (str "-")

def tableHeaders : List Str :=
  [str "时间段", str "请求数", str "成功", str "失败", str "prompt", str "completion",
    str "total", str "cached", str "平均耗时ms", str "平均排队ms", str "最大排队ms", str "平均upstream ms",
    str "平均TTFT ms"]

def usageRow (row : Str × Analytics.Metrics) : Str :=
  let m := row.2
  spaced [row.1, Str.ofInt m.requests, Str.ofInt m.successCount, Str.ofInt m.errorCount,
    Str.ofInt m.promptTokens, Str.ofInt m.completionTokens, Str.ofInt m.totalTokens,
    Str.ofInt m.cachedTokens, fmtAvg m.avgDurationMs, fmtAvg m.avgQueueWaitMs,
    fmtAvg (m.maxQueueWaitMs.map SqlNumber.toFloat), fmtAvg m.avgUpstreamDurationMs,
    fmtAvg m.avgTtftMs]

/-- The options of `usage summary`: `groupBy` is `some none` for `--group-by none`. -/
structure UsageArgs where
  period : Option Str := none
  from? : Option Str := none
  to? : Option Str := none
  groupBy : Option (Option Granularity) := none
  user : Option Str := none
  key : Option Str := none
  model : Option Str := none

def usageSummary (cal : Calendar) (timezone : Str) (clk : Clock)
    (args : UsageArgs) : Db CliOutput := do
  let (startMs, endMs, defaultGroup) ←
    Db.lift ((UsageService.resolveTimeRange cal clk args.period args.from? args.to?).mapError
      Exn.py)
  Coro.handle (do
    let (userId, apiKeyId) ← UsageService.resolveFilters args.user args.key
    let rows ← UsageService.summarize cal
      { startMs, endMs, userId, apiKeyId, model := args.model,
        granularity := args.groupBy.getD defaultGroup }
    return { lines := (str "EasyModelGate 用量汇总（时间均为本地时区 " ++ timezone ++ str "）") ::
        spaced tableHeaders ::
      rows.map usageRow }) fun
  | .userNotFound username =>
    return { lines := [str "错误：用户 " ++ username ++ str " 不存在"], code := 1 }
  | .ambiguousKeyPrefix pfx count =>
    return { lines := [str "错误：--key " ++ pfx ++ str " 匹配到 " ++ Str.ofInt count ++
        str " 个 Key（需恰好 1 个）"]
             code := 1 }
  | e => .raise e

/-! ## `admin` -/

/-- How `admin init` gets the password: from a line of the standard input, or typed twice. -/
inductive PasswordEntry
  | stdin (line : Str)
  | typed (first second : Str)
  | eof

/-- The password, or what is printed instead. -/
def PasswordEntry.password : PasswordEntry → Except Str Str
  | .stdin line => .ok (line.rdropWhile fun c => c = 0x0D || c = 0x0A)
  | .typed first second => if first ≠ second then .error (str "错误：两次输入的密码不一致") else .ok first
  | .eof => .error (str "错误：交互读取不可用，请使用 --password-stdin")

def adminInit (lib : AdminAuthLib) (entry : PasswordEntry) (salt : Bytes)
    (nowMs : Int) : Db CliOutput := do
  if ← AdminAuthService.isAdminInitialized lib then
      return { lines := [str "Admin already initialized."], code := 1 }
  else
    match entry.password with
    | .error message => return { lines := [message], code := 1 }
    | .ok password =>
      Coro.handle (do
        AdminAuthService.initializeAdmin lib password salt nowMs
        return { lines := [str "Admin initialized."] }) fun
      | .emptyPassword => return { lines := [str "错误：密码不能为空"], code := 1 }
      | e => .raise e

/-! ## The command line -/

inductive Command
  | userCreate (username : Str) (displayName note : Option Str) (nowMs : Int)
  | userList
  | userSetEnabled (username : Str) (enabled : Bool)
  | keyCreate (clk : Clock) (random user : Str) (name : Option Str)
    (rpm tokenLimit expiresInDays : Option Int)
  | keyList (user : Option Str)
  | keySetEnabled (pfx : Str) (enabled : Bool)
  | keySetLimits (pfx : Str) (rpm tokenLimit : Option Int) (clearRpm clearTokenLimit : Bool)
  | usageSummary (clk : Clock) (args : UsageArgs)
  | adminInit (entry : PasswordEntry) (salt : Bytes) (nowMs : Int)

end Cli

/-- What the commands use of the configuration, and of the standard library. -/
structure CliConfig where
  hashKey : Str → Str
  zone : Zone
  keyPrefix : Str
  calendar : Calendar
  timezone : Str
  lib : AdminAuthLib
  floatRepr : PyFloat → String

def Cli.Command.coro (cfg : CliConfig) : Cli.Command → Db CliOutput
  | .userCreate username displayName note nowMs => Cli.userCreate username displayName note nowMs
  | .userList => Cli.userList
  | .userSetEnabled username enabled => Cli.userSetEnabled username enabled
  | .keyCreate clk random user name rpm tokenLimit expiresInDays =>
    Cli.keyCreate cfg.hashKey cfg.zone cfg.keyPrefix clk random user name rpm
        tokenLimit expiresInDays
  | .keyList user => Cli.keyList cfg.floatRepr user
  | .keySetEnabled pfx enabled => Cli.keySetEnabled pfx enabled
  | .keySetLimits pfx rpm tokenLimit clearRpm clearTokenLimit =>
    Cli.keySetLimits pfx (Cli.limitUpdate clearRpm rpm) (Cli.limitUpdate clearTokenLimit tokenLimit)
  | .usageSummary clk args => Cli.usageSummary cfg.calendar cfg.timezone clk args
  | .adminInit entry salt nowMs => Cli.adminInit cfg.lib entry salt nowMs

end EasyModelGate
