import EasyModelGate.Python.Json

/-! # `Database.connect`

Here the database is a file that may hold any part of the schema, with any rows. The statements of
`schema.sql` run one by one, each in a transaction of its own. -/

namespace EasyModelGate

/-- A stored value, a text by its octets. -/
inductive Cell
  | null
  | int (n : Int)
  | real (x : PyFloat)
  | text (utf8 : Bytes)
  | blob (b : Bytes)
  deriving DecidableEq

inductive TableName
  | users | apiKeys | backends | requestLogs | settings
  deriving DecidableEq

inductive IndexName
  | rlStarted | rlUserStarted | rlKeyStarted | rlModelStarted
  deriving DecidableEq

structure SettingsRow where
  key : Cell
  valueJson : Cell
  deriving DecidableEq

/-- Only of the settings does `connect` look at the columns. -/
abbrev TableName.Row : TableName → Type
  | .settings => SettingsRow
  | _ => List Cell

structure DbFile where
  /-- `journal_mode=WAL`, which the file remembers. -/
  wal : Bool := false
  tables : (t : TableName) → Option (List t.Row)
  indexes : IndexName → Bool
  /-- All indexes are on `request_logs`. -/
  indexed : ∀ i, indexes i = true → (tables .requestLogs).isSome = true

/-- `CREATE … IF NOT EXISTS` -/
inductive Ddl
  | createTable (t : TableName)
  | createIndex (i : IndexName)

/-- `schema.sql` -/
def schemaSql : List Ddl :=
  [.createTable .users, .createTable .apiKeys, .createTable .backends, .createTable .requestLogs,
    .createTable .settings, .createIndex .rlStarted, .createIndex .rlUserStarted,
    .createIndex .rlKeyStarted, .createIndex .rlModelStarted]

def schemaVersion : Int := 1

namespace DbFile

def addTable (f : DbFile) (t : TableName) : DbFile where
  wal := f.wal
  tables := Function.update f.tables t (some [])
  indexes := f.indexes
  indexed i hi := by
    by_cases ht : TableName.requestLogs = t
    · subst ht
      rw [Function.update_self]
      rfl
    · rw [Function.update_of_ne ht]
      exact f.indexed i hi

def addIndex (f : DbFile) (i : IndexName) (h : (f.tables .requestLogs).isSome = true) : DbFile :=
  { f with
    indexes := Function.update f.indexes i true
    indexed := fun _ _ => h }

def ddl (f : DbFile) : Ddl → Except PyExn DbFile
  | .createTable t => .ok (if (f.tables t).isSome then f else f.addTable t)
  | .createIndex i =>
    if f.indexes i then .ok f
    else if h : (f.tables .requestLogs).isSome = true then .ok (f.addIndex i h)
    else .error .operationalError

/-- `executescript`: what has run stays. -/
def executescript : DbFile → List Ddl → Except PyExn Unit × DbFile
  | f, [] => (.ok (), f)
  | f, s :: script =>
    match f.ddl s with
    | .error e => (.error e, f)
    | .ok f => f.executescript script

/-- The entry under which the version is kept. -/
def versionKey : Cell := .text (bytes "schema_version")

/-- `SELECT value_json FROM settings WHERE key='schema_version'` -/
def selectVersion (f : DbFile) : Except PyExn (Option Cell) :=
  match f.tables .settings with
  | none => .error .operationalError
  | some rows => .ok ((rows.find? fun r => r.key = versionKey).map SettingsRow.valueJson)

def addSetting (f : DbFile) (rows : List SettingsRow) (row : SettingsRow) : DbFile where
  wal := f.wal
  tables := Function.update f.tables .settings (some (rows ++ [row]))
  indexes := f.indexes
  indexed i hi := by
    have hlogs : TableName.requestLogs ≠ .settings := TableName.noConfusion
    rw [Function.update_of_ne hlogs]
    exact f.indexed i hi

/-- `INSERT INTO settings (key, value_json) VALUES ('schema_version', ?)`, committed. -/
def insertVersion (f : DbFile) (value : Bytes) : Except PyExn DbFile :=
  match f.tables .settings with
  | none => .error .operationalError
  | some rows =>
    if rows.any fun r => r.key = versionKey then .error .integrityError
    else .ok (f.addSetting rows { key := versionKey, valueJson := .text value })

end DbFile

/-- `json.loads(row["value_json"])`. A text that is no UTF-8 already fails to be fetched. -/
def Cell.loads (limit : Nat) : Cell → Except PyExn Json
  | .null | .int _ | .real _ => .error .typeError
  | .text utf8 =>
    match (Json.decodeUtf8 utf8).filter Str.valid with
    | none => .error .operationalError
    | some s => Json.loadsStr limit s
  | .blob b => Json.loads limit b

/-- A `Database`: its file, and whether it has a connection. -/
structure Database where
  file : DbFile
  connected : Bool := false

inductive ConnectError
  | py (e : PyExn)
  | runtimeError (message : Str)

/-- The refusal of another version. -/
def versionMismatch (pyStr : Json → Str) (existing : Json) : ConnectError :=
  .runtimeError (str "数据库 schema 版本不匹配：期望 " ++ Str.ofInt schemaVersion ++ str "，实际 " ++
    pyStr existing ++
    str "。请走规格变更流程，不要手动修改。")

namespace Database

/-- The connection stays open after every exception but the last one. -/
def connect (limit : Nat) (pyStr : Json → Str) (db : Database) :
    Except ConnectError Unit × Database :=
  match { db.file with wal := true }.executescript schemaSql with
  | (.error e, file) => (.error (.py e), { file, connected := true })
  | (.ok (), file) =>
    match file.selectVersion with
    | .error e => (.error (.py e), { file, connected := true })
    | .ok none =>
      match file.insertVersion (bytes (toString schemaVersion)) with
      | .error e => (.error (.py e), { file, connected := true })
      | .ok file => (.ok (), { file, connected := true })
    | .ok (some cell) =>
      match cell.loads limit with
      | .error e => (.error (.py e), { file, connected := true })
      | .ok existing =>
        if existing.eqInt schemaVersion then (.ok (), { file, connected := true })
        else (.error (versionMismatch pyStr existing), { file })

end Database
end EasyModelGate
