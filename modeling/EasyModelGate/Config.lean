import EasyModelGate.Db.Sql

/-! # `config.py`

The sections are dataclasses, which check the names of their arguments and nothing else: a field may
hold any value that the document or the environment puts there. -/

namespace EasyModelGate

/-! ## Values -/

/-- A value of a TOML document. -/
inductive Toml
  | str (s : Str)
  | int (n : Int)
  | float (x : PyFloat)
  | bool (b : Bool)
  /-- A date or a time. -/
  | date (text : Str)
  | arr (xs : List Toml)
  | table (items : List (Str × Toml))

/-- The value of a field: TOML has no `None`. -/
abbrev PyValue := Option Toml

def Toml.truthy : Toml → Bool
  | .str s => s ≠ []
  | .int n => n ≠ 0
  | .float x => x ≠ .fin 0
  | .bool b => b
  | .date _ => true
  | .arr xs => !xs.isEmpty
  | .table items => !items.isEmpty

/-- `v == 0` -/
def Toml.eqZero : Toml → Bool
  | .int n => n = 0
  | .float x => x = .fin 0
  | .bool b => !b
  | _ => false

namespace Str

/-- `s.upper()` of an ASCII name. -/
def upper (s : Str) : Str :=
  s.map fun c => if 0x61 ≤ c.val ∧ c.val ≤ 0x7A then Fin.ofNat 0x110000 (c.val - 0x20) else c

private def isAsciiDigit (c : CodePoint) : Bool := 0x30 ≤ c.val ∧ c.val ≤ 0x39

/-- Single underscores between digits. -/
private def underscored (prev : CodePoint) : Str → Bool
  | [] => prev ≠ 0x5F
  | c :: s =>
    (if c = 0x5F then isAsciiDigit prev else prev ≠ 0x5F || isAsciiDigit c) && underscored c s

/-- `float(s)`, where it raises no `ValueError`. -/
def toFloat? (s : Str) : Option PyFloat :=
  let s := ((s.dropWhile isIntSpace).rdropWhile isIntSpace).map fun c =>
    ((digit? c).map fun d => Fin.ofNat 0x110000 (0x30 + d)).getD c
  if !underscored 0x20 s then none
  else
    let s := s.filter (· ≠ 0x5F)
    let (negative, unsigned) : Bool × Str := match s with
      | 0x2D :: s => (true, s)
      | 0x2B :: s => (false, s)
      | s => (false, s)
    if lower unsigned = str "inf" ∨ lower unsigned = str "infinity" then some (.inf negative)
    else if lower unsigned = str "nan" then some .nan
    else (numericLiteral s).map fun v => PyFloat.round v.1

example : ["1_0.5", " -1e3 ", "+Infinity", "1_", ".", "0x1", "٣"].map (fun s => toFloat? (str s)) =
    [some (.fin (21 / 2)), some (.fin (-1000)), some (.inf false), none, none, none,
      some (.fin 3)] := by decide +kernel

end Str

/-! ## The dataclasses -/

inductive FieldType
  | str | int | float | floatOrNone | intOrNone | bool
  deriving DecidableEq

inductive Section
  | server | database | upstream | timeouts | security | usage | limits
  deriving DecidableEq

/-- A field of one of the dataclasses; no two of them have a field of the same name. -/
inductive Field
  | host | port
  | path
  | baseUrl | apiKeyFile | slots
  | connect | write | read | pool | totalRequest | queueTimeout
  | keyPrefix
  | timezone
  | maxClientConcurrency
  deriving DecidableEq

/-- `_SECTIONS` -/
def sections : List Section :=
  [.server, .database, .upstream, .timeouts, .security, .usage, .limits]

def Section.name : Section → Str
  | .server => EasyModelGate.str "server"
  | .database => EasyModelGate.str "database"
  | .upstream => EasyModelGate.str "upstream"
  | .timeouts => EasyModelGate.str "timeouts"
  | .security => EasyModelGate.str "security"
  | .usage => EasyModelGate.str "usage"
  | .limits => EasyModelGate.str "limits"

/-- `cls.__dataclass_fields__` -/
def Section.fields : Section → List Field
  | .server => [.host, .port]
  | .database => [.path]
  | .upstream => [.baseUrl, .apiKeyFile, .slots]
  | .timeouts => [.connect, .write, .read, .pool, .totalRequest, .queueTimeout]
  | .security => [.keyPrefix]
  | .usage => [.timezone]
  | .limits => [.maxClientConcurrency]

namespace Field

def sect : Field → Section
  | .host | .port => .server
  | .path => .database
  | .baseUrl | .apiKeyFile | .slots => .upstream
  | .connect | .write | .read | .pool | .totalRequest | .queueTimeout => .timeouts
  | .keyPrefix => .security
  | .timezone => .usage
  | .maxClientConcurrency => .limits

def name : Field → Str
  | .host => EasyModelGate.str "host"
  | .port => EasyModelGate.str "port"
  | .path => EasyModelGate.str "path"
  | .baseUrl => EasyModelGate.str "base_url"
  | .apiKeyFile => EasyModelGate.str "api_key_file"
  | .slots => EasyModelGate.str "slots"
  | .connect => EasyModelGate.str "connect"
  | .write => EasyModelGate.str "write"
  | .read => EasyModelGate.str "read"
  | .pool => EasyModelGate.str "pool"
  | .totalRequest => EasyModelGate.str "total_request"
  | .queueTimeout => EasyModelGate.str "queue_timeout"
  | .keyPrefix => EasyModelGate.str "key_prefix"
  | .timezone => EasyModelGate.str "timezone"
  | .maxClientConcurrency => EasyModelGate.str "max_client_concurrency"

def type : Field → FieldType
  | .host | .path | .baseUrl | .apiKeyFile | .keyPrefix | .timezone => .str
  | .port | .slots | .maxClientConcurrency => .int
  | .connect | .write | .pool | .totalRequest | .queueTimeout => .float
  | .read => .floatOrNone

def default : Field → PyValue
  | .host => some (.str (EasyModelGate.str "127.0.0.1"))
  | .port => some (.int 3000)
  | .path => some (.str (EasyModelGate.str "data/easymodelgate.db"))
  | .baseUrl => some (.str (EasyModelGate.str "http://127.0.0.1:8080"))
  | .apiKeyFile => some (.str (EasyModelGate.str "configs/upstream_key"))
  | .slots => some (.int 1)
  | .connect => some (.float (.fin 5))
  | .write => some (.float (.fin 60))
  | .read => none
  | .pool => some (.float (.fin 10))
  | .totalRequest => some (.float (.fin 1800))
  | .queueTimeout => some (.float (.fin 120))
  | .keyPrefix => some (.str (EasyModelGate.str "emg_"))
  | .timezone => some (.str (EasyModelGate.str "Asia/Shanghai"))
  | .maxClientConcurrency => some (.int 64)

/-- `f"EMG_{section.upper()}_{fname.upper()}"` -/
def envKey (f : Field) : Str :=
  EasyModelGate.str "EMG_" ++ Str.upper f.sect.name ++ EasyModelGate.str "_" ++ Str.upper f.name

end Field

/-! ## `load_config` -/

/-- What stands for `None` in the environment. -/
def blank (raw : Str) : Bool := raw.strip = [] ∨ raw.strip.lower = str "none"

/-- `_coerce` -/
def coerce : FieldType → Str → Except PyExn PyValue
  | .int, raw =>
    match raw.toInt? with
    | some n => .ok (some (.int n))
    | none => .error .valueError
  | .float, raw | .floatOrNone, raw | .intOrNone, raw =>
    if blank raw then .ok none
    else match raw.toFloat? with
      | some x => .ok (some (.float x))
      | none => .error .valueError
  | .bool, raw => .ok (some (.bool (raw.strip.lower ∈ ["1", "true", "yes", "on"].map str)))
  | .str, raw => .ok (some (.str raw))

/-- The `dict` `raw`. Keys that are no strings matter only for the call, which refuses them. -/
structure Raw where
  items : List (Str × PyValue) := []
  keywords : Bool := true

namespace Raw

def get? (raw : Raw) (key : Str) : Option PyValue := raw.items.lookup key

def set (raw : Raw) (key : Str) (v : PyValue) : Raw :=
  { raw with items := (key, v) :: raw.items.filter fun i => i.1 ≠ key }

/-- An element that `dict` takes for a key and its value. -/
def pair : Toml → Except PyExn (Toml × Toml)
  | .arr [k, v] => .ok (k, v)
  | .str [a, b] => .ok (.str [a], .str [b])
  | .table [(a, _), (b, _)] => .ok (.str a, .str b)
  | .arr _ | .str _ | .table _ => .error .valueError
  | _ => .error .typeError

/-- `dict(v)` -/
def ofToml : Toml → Except PyExn Raw
  | .table items => .ok { items := items.map fun i => (i.1, some i.2) }
  | .arr xs => xs.foldlM (fun raw x => do
      match ← pair x with
      | (.str key, v) => return raw.set key (some v)
      | (.arr _, _) | (.table _, _) => throw .typeError
      | _ => return { raw with keywords := false }) {}
  | .str _ => .error .valueError
  | _ => .error .typeError

/-- `dict(data.get(section) or {})` -/
def ofSection (data : List (Str × Toml)) (s : Section) : Except PyExn Raw :=
  match data.lookup s.name with
  | none => .ok {}
  | some v => if v.truthy then ofToml v else .ok {}

/-- The variables that are set replace the values of their fields. -/
def overlay (env : Str → Option Str) (fields : List Field) (raw : Raw) : Except PyExn Raw :=
  fields.foldlM (fun raw f => match env f.envKey with
    | none => .ok raw
    | some s => (coerce f.type s).map (raw.set f.name)) raw

/-- TOML has no `None`, so a zero stands for it. -/
def readZero (s : Section) (raw : Raw) : Raw :=
  if s = .timeouts ∧ ((raw.get? Field.read.name).getD none).any Toml.eqZero then
    raw.set Field.read.name none else raw

/-- `cls(**raw)` -/
def construct (s : Section) (raw : Raw) : Except PyExn (Field → PyValue) :=
  if raw.keywords ∧ raw.items.all fun i => s.fields.any fun f => f.name = i.1
  then .ok fun f => (raw.get? f.name).getD f.default
  else .error .typeError

end Raw

/-- The instance of a section, by its fields. -/
def loadSection (data : List (Str × Toml)) (env : Str → Option Str) (s : Section) :
    Except PyExn (Field → PyValue) := do
  let raw ← Raw.ofSection data s
  let raw ← raw.overlay env s.fields
  (raw.readZero s).construct s

/-- The values of all fields. -/
abbrev AppConfig := Field → PyValue

inductive ConfigError
  | fileNotFound (message : Str)
  | py (e : PyExn)

/-- The files, by their paths: what `tomllib.loads(c.read_text(encoding="utf-8"))` does for those
that there are, and how a path is written out. -/
structure Files where
  parsed : Str → Option (Except PyExn (List (Str × Toml)))
  pathStr : Str → Str

/-- The only candidate. -/
def configPath (env : Str → Option Str) (path : Option Str) : Str :=
  match path.filter (· ≠ []), (env (str "EMG_CONFIG")).filter (· ≠ []) with
  | some path, _ => path
  | none, some path => path
  | none, none => str "configs/config.toml"

/-- `kwargs`, section by section. -/
def loadSections (data : List (Str × Toml)) (env : Str → Option Str) (ss : List Section)
    (kwargs : Section → Field → PyValue) : Except PyExn (Section → Field → PyValue) :=
  ss.foldlM (fun kwargs s => (loadSection data env s).map (Function.update kwargs s)) kwargs

/-- `AppConfig(**kwargs)` -/
def fromData (data : List (Str × Toml)) (env : Str → Option Str) : Except PyExn AppConfig :=
  (loadSections data env sections fun _ f => f.default).map fun kwargs f => kwargs f.sect f

def loadConfig (files : Files) (env : Str → Option Str) (path : Option Str) :
    Except ConfigError AppConfig :=
  match files.parsed (configPath env path) with
  | none => .error (.fileNotFound (str "配置文件未找到（已尝试：" ++ files.pathStr (configPath env path) ++
      str "）。请先复制 configs/config.example.toml 为 configs/config.toml，" ++
      str "或通过 --config / EMG_CONFIG 指定有效路径。"))
  | some (.error e) => .error (.py e)
  | some (.ok data) => (fromData data env).mapError .py

end EasyModelGate
