import EasyModelGate.Lib.Table
import EasyModelGate.Core.Errors
import EasyModelGate.Db.Sql

/-! # `db/schema.sql`: the tables, and the statements that the gateway runs on them

A statement binds its parameters and then runs; both may raise, and a statement that raises
leaves the tables as they were. Rows are never deleted. -/

namespace EasyModelGate

structure User where
  username : Str
  displayName : Option Str
  enabled : Bool
  createdAt : Int
  note : Option Str
  deriving DecidableEq

structure ApiKey where
  userId : Nat
  name : Option Str
  keyPrefix : Str
  keyHash : Str
  enabled : Bool
  expiresAt : Option Int
  rpmLimit : Option Int
  tokenLimit : Option Int
  tokenUsed : SqlNumber
  createdAt : Int
  lastUsedAt : Option Int
  deriving DecidableEq

/-- `uuid4().hex`, by the number of the draw: no two draws agree. -/
abbrev Uuid := Nat

/-- A record for `request_logs`. The token counts are what the upstream reported: any JSON value,
and an SQL value once it is bound. -/
structure RequestLog (τ : Type) where
  requestId : Uuid
  userId : Nat
  apiKeyId : Nat
  backendId : Option Nat
  model : Option Str
  endpoint : Str
  startedAt : Int
  finishedAt : Int
  durationMs : Int
  queueWaitMs : Option Int
  upstreamDurationMs : Option Int
  ttftMs : Option Int
  promptTokens : τ
  completionTokens : τ
  totalTokens : τ
  cachedTokens : τ
  stream : Bool
  finishReason : Option Str
  statusCode : Nat
  upstreamStatusCode : Option Nat
  clientIp : Option Str
  inputBytes : Nat
  outputBytes : Nat
  errorType : Option Str
  errorMessage : Option Str

/-- A row of `request_logs`: of what the gateway writes only the request id and `started_at` are NOT
NULL. The columns that the program tests for a number hold any value that SQLite stores. -/
structure LogRow where
  requestId : Uuid
  userId : Option Int
  apiKeyId : Option Int
  backendId : Option Int
  model : Option Str
  endpoint : Option Str
  startedAt : Int
  finishedAt : Option Int
  durationMs : SqlValue
  queueWaitMs : SqlValue
  upstreamDurationMs : SqlValue
  ttftMs : SqlValue
  promptTokens : SqlValue
  completionTokens : SqlValue
  totalTokens : SqlValue
  cachedTokens : SqlValue
  stream : Option Int
  finishReason : Option Str
  statusCode : Option Int
  upstreamStatusCode : Option Int
  clientIp : Option Str
  inputBytes : Option Int
  outputBytes : Option Int
  errorType : Option Str
  errorMessage : Option Str
  storable : ∀ v ∈ [durationMs, queueWaitMs, upstreamDurationMs, ttftMs], v.storable = true

structure Tables where
  users : Table User := .empty
  apiKeys : Table ApiKey := .empty
  requestLogs : Table LogRow := .empty
  settings : List (Str × Str) := []

/-! ## Reading -/

/-- The `WHERE` clause that `list_request_logs` and `summary` build. -/
structure LogFilter where
  errorsOnly : Bool := false
  startMs : Option Int := none
  endMs : Option Int := none
  userId : Option Int := none
  apiKeyId : Option Int := none
  model : Option Str := none
  statusCode : Option Int := none
  errorType : Option Str := none

/-- A row of `list_request_logs`, with what the two joins add. -/
structure RequestLogItem where
  row : Row LogRow
  username : Option Str
  keyName : Option Str
  keyPrefix : Option Str

inductive Query
  | userByUsername (username : Str)
  | userById (userId : Int)
  | users
  | keyByHash (keyHash : Str)
  | keysByPrefix (keyPrefix : Str)
  | keys (userId : Option Int)
  | keyById (keyId : Int)
  | setting (key : Str)
  | requestLogs (filter : LogFilter) (limit : Int)
  | enabledKeys
  | summary (filter : LogFilter)
  /-- `SELECT 1` -/
  | one

/-- What the cursor of a query returns. -/
abbrev Query.Res : Query → Type
  | .userByUsername _ | .userById _ => Option (Row User)
  | .users => List (Row User)
  | .keyByHash _ | .keyById _ => Option (Row ApiKey)
  | .keysByPrefix _ | .keys _ => List (Row ApiKey)
  | .setting _ => Option Str
  | .requestLogs .. => List RequestLogItem
  | .enabledKeys => Nat
  | .summary _ => List (Row LogRow)
  | .one => Unit

/-- Binding a row number: a number that some row has is far inside 64 bits. -/
def bindId (exists? : Bool) (id : Int) : Except PyExn Unit :=
  if exists? then .ok () else bindInt id

namespace LogFilter

/-- `col=?` for a parameter that is not `None`; NULL equals nothing. -/
private def eq? [DecidableEq α] (param column : Option α) : Bool := param.all (column = some ·)

def bind (f : LogFilter) : Except PyExn Unit := do
  bindOption bindInt f.startMs
  bindOption bindInt f.endMs
  bindOption bindInt f.userId
  bindOption bindInt f.apiKeyId
  bindOption bindText f.model
  bindOption bindInt f.statusCode
  bindOption bindText f.errorType

def accepts (f : LogFilter) (rl : LogRow) : Bool :=
  (!f.errorsOnly || rl.errorType.isSome) &&
    (f.startMs.all (· ≤ rl.startedAt)) && (f.endMs.all (rl.startedAt < ·)) &&
    eq? f.userId rl.userId && eq? f.apiKeyId rl.apiKeyId && eq? f.model rl.model &&
    eq? f.statusCode rl.statusCode && eq? f.errorType rl.errorType

end LogFilter

namespace Tables

def keyByHash (t : Tables) (keyHash : Str) : Option (Row ApiKey) :=
  t.apiKeys.find? (·.keyHash = keyHash)

def userByUsername (t : Tables) (username : Str) : Option (Row User) :=
  t.users.find? (·.username = username)

/-- A negative number is never a row's. -/
def rowId (id : Int) : Option Nat := if 0 ≤ id then some id.toNat else none

def userById (t : Tables) (userId : Int) : Option (Row User) := (rowId userId).bind t.users.get?
def keyById (t : Tables) (keyId : Int) : Option (Row ApiKey) := (rowId keyId).bind t.apiKeys.get?

/-- `LEFT JOIN users`, `LEFT JOIN api_keys` -/
def joined (t : Tables) (row : Row LogRow) : RequestLogItem where
  row := row
  username := (row.val.userId.bind t.userById).map (·.val.username)
  keyName := (row.val.apiKeyId.bind t.keyById).bind (·.val.name)
  keyPrefix := (row.val.apiKeyId.bind t.keyById).map (·.val.keyPrefix)

end Tables

def Query.exec (t : Tables) : (q : Query) → Except PyExn q.Res
  | .userByUsername username => do
    bindText username
    return t.userByUsername username
  | .userById userId => do
    bindId (t.userById userId).isSome userId
    return t.userById userId
  | .users => .ok t.users.rows
  | .keyByHash keyHash => .ok (t.keyByHash keyHash)
  | .keysByPrefix keyPrefix => do
    bindText keyPrefix
    return t.apiKeys.select (·.keyPrefix = keyPrefix)
  | .keys userId => .ok (t.apiKeys.select fun k => userId.all (· = (k.userId : Int)))
  | .keyById keyId => do
    bindId (t.keyById keyId).isSome keyId
    return t.keyById keyId
  | .setting key => .ok ((t.settings.find? (·.1 = key)).map Prod.snd)
  | .requestLogs filter limit => do
    filter.bind
    let rows := (t.requestLogs.select filter.accepts).reverse
    return (rows.take (max 1 (min limit 200)).toNat).map t.joined
  | .enabledKeys => .ok (t.apiKeys.select (·.enabled)).length
  | .summary filter => do
    filter.bind
    return t.requestLogs.select filter.accepts
  | .one => .ok ()

/-! ## Writing -/

inductive Dml
  | insertUser (username : Str) (displayName note : Option Str) (enabled : Bool) (createdAt : Int)
  | setUserEnabled (username : Str) (enabled : Bool)
  | setUserEnabledById (userId : Int) (enabled : Bool)
  | insertApiKey (userId : Int) (name : Option Str) (keyPrefix keyHash : Str)
      (expiresAt rpmLimit tokenLimit : Option Int) (createdAt : Int)
  | setKeyEnabledById (keyId : Int) (enabled : Bool)
  | setKeyLimitsById (keyId : Int) (rpmLimit tokenLimit : Option Int)
  | touchLastUsed (keyId : Int) (tsMs : Int)
  | upsertSetting (key value : Str)
  | insertRequestLog (record : RequestLog Json)
  | addTokenUsed (totalTokens : Int) (keyId : Int)

/-- What a write leaves on its cursor. -/
structure Cursor where
  lastrowid : Nat := 0
  rowcount : Nat := 0

/-- Binding a record. The integers that the gateway computes itself (ids, times, sizes, statuses)
are far inside 64 bits; what the upstream and the client reported may be anything. -/
def RequestLog.bind (record : RequestLog Json) : Except PyExn (RequestLog SqlValue) := do
  bindOption bindText record.model
  let promptTokens ← bindJson record.promptTokens
  let completionTokens ← bindJson record.completionTokens
  let totalTokens ← bindJson record.totalTokens
  let cachedTokens ← bindJson record.cachedTokens
  bindOption bindText record.finishReason
  bindOption bindText record.clientIp
  bindOption bindText record.errorType
  bindOption bindText record.errorMessage
  return { record with promptTokens, completionTokens, totalTokens, cachedTokens }

/-- The row that a bound record becomes. -/
def RequestLog.stored (values : RequestLog SqlValue) : LogRow where
  requestId := values.requestId
  userId := some values.userId
  apiKeyId := some values.apiKeyId
  backendId := values.backendId.map fun id => id
  model := values.model
  endpoint := some values.endpoint
  startedAt := values.startedAt
  finishedAt := some values.finishedAt
  durationMs := .int values.durationMs
  queueWaitMs := .ofInt? values.queueWaitMs
  upstreamDurationMs := .ofInt? values.upstreamDurationMs
  ttftMs := .ofInt? values.ttftMs
  promptTokens := integerAffinity values.promptTokens
  completionTokens := integerAffinity values.completionTokens
  totalTokens := integerAffinity values.totalTokens
  cachedTokens := integerAffinity values.cachedTokens
  stream := some (if values.stream then 1 else 0)
  finishReason := values.finishReason
  statusCode := some values.statusCode
  upstreamStatusCode := values.upstreamStatusCode.map fun status => status
  clientIp := values.clientIp
  inputBytes := some values.inputBytes
  outputBytes := some values.outputBytes
  errorType := values.errorType
  errorMessage := values.errorMessage
  storable := by simp

namespace Dml

/-- Whether the bound parameters are accepted. -/
def bind (t : Tables) : Dml → Except PyExn Unit
  | .insertUser username displayName note _ createdAt => do
    bindText username
    bindOption bindText displayName
    bindInt createdAt
    bindOption bindText note
  | .setUserEnabled username _ => bindText username
  | .setUserEnabledById userId _ => bindId (t.userById userId).isSome userId
  | .insertApiKey userId name keyPrefix _ expiresAt rpmLimit tokenLimit createdAt => do
    bindId (t.userById userId).isSome userId
    bindOption bindText name
    bindText keyPrefix
    bindOption bindInt expiresAt
    bindOption bindInt rpmLimit
    bindOption bindInt tokenLimit
    bindInt createdAt
  | .setKeyEnabledById keyId _ => bindId (t.keyById keyId).isSome keyId
  | .setKeyLimitsById keyId rpmLimit tokenLimit => do
    bindOption bindInt rpmLimit
    bindOption bindInt tokenLimit
    bindId (t.keyById keyId).isSome keyId
  | .touchLastUsed keyId tsMs => do
    bindInt tsMs
    bindId (t.keyById keyId).isSome keyId
  | .upsertSetting _ value => bindText value
  | .insertRequestLog record => record.bind.map fun _ => ()
  | .addTokenUsed totalTokens keyId => do
    bindInt totalTokens
    bindId (t.keyById keyId).isSome keyId

/-- `UPDATE users SET … WHERE …` -/
def updateUsers (t : Tables) (p : Row User → Bool) (f : User → User) : Cursor × Tables :=
  ({ rowcount := t.users.count p }, { t with users := t.users.update p f })

/-- `UPDATE api_keys SET … WHERE id=?` -/
def updateKey (t : Tables) (keyId : Int) (f : ApiKey → ApiKey) : Cursor × Tables :=
  let p := fun r : Row ApiKey => decide ((r.id : Int) = keyId)
  ({ rowcount := t.apiKeys.count p }, { t with apiKeys := t.apiKeys.update p f })

/-- The statement with its parameters bound. -/
def run (t : Tables) : Dml → Except PyExn (Cursor × Tables)
  | .insertUser username displayName note enabled createdAt =>
    if (t.userByUsername username).isSome then .error .integrityError
    else
      let users := t.users.insert { username, displayName, enabled, createdAt, note }
      .ok ({ lastrowid := users.seq, rowcount := 1 }, { t with users })
  | .setUserEnabled username enabled =>
    .ok (updateUsers t (fun r => r.val.username = username) fun u => { u with enabled })
  | .setUserEnabledById userId enabled =>
    .ok (updateUsers t (fun r => (r.id : Int) = userId) fun u => { u with enabled })
  | .insertApiKey userId name keyPrefix keyHash expiresAt rpmLimit tokenLimit createdAt =>
    if (t.keyByHash keyHash).isSome ∨ (t.userById userId).isNone then .error .integrityError
    else
      let apiKeys := t.apiKeys.insert
        { userId := userId.toNat, name, keyPrefix, keyHash, enabled := true, expiresAt, rpmLimit,
          tokenLimit, tokenUsed := .int 0, createdAt, lastUsedAt := none }
      .ok ({ lastrowid := apiKeys.seq, rowcount := 1 }, { t with apiKeys })
  | .setKeyEnabledById keyId enabled => .ok (updateKey t keyId fun k => { k with enabled })
  | .setKeyLimitsById keyId rpmLimit tokenLimit =>
    .ok (updateKey t keyId fun k => { k with rpmLimit, tokenLimit })
  | .touchLastUsed keyId tsMs =>
    .ok (updateKey t keyId fun k => { k with lastUsedAt := some tsMs })
  | .upsertSetting key value =>
    .ok ({ rowcount := 1 }, { t with settings := (key, value) :: t.settings.filter (·.1 ≠ key) })
  | .insertRequestLog record =>
    match record.bind with
    | .error e => .error e
    | .ok values =>
      let requestLogs := t.requestLogs.insert values.stored
      .ok ({ lastrowid := requestLogs.seq, rowcount := 1 }, { t with requestLogs })
  | .addTokenUsed totalTokens keyId =>
    .ok (updateKey t keyId fun k => { k with tokenUsed := k.tokenUsed.addInt totalTokens })

end Dml
end EasyModelGate
