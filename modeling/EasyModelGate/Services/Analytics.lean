import Mathlib.Data.List.Sort
import EasyModelGate.Db.Dao
import EasyModelGate.Python.Datetime

/-! # `services/analytics.py`: usage over a period

The rows are selected by SQL and summed in Python. The key of a time bucket, which the time zone
decides, is a parameter of the sums. -/

namespace EasyModelGate

inductive Granularity
  | hour | day | week | month
  deriving DecidableEq

/-- The time zone is the configured one. -/
structure SummaryFilter where
  startMs : Option Int := none
  endMs : Option Int := none
  userId : Option Int := none
  apiKeyId : Option Int := none
  model : Option Str := none
  granularity : Option Granularity := none

/-- The `WHERE` clause. -/
def SummaryFilter.conditions (f : SummaryFilter) : LogFilter where
  startMs := f.startMs
  endMs := f.endMs
  userId := f.userId
  apiKeyId := f.apiKeyId
  model := f.model

/-! ## Numbers -/

namespace PyFloat

/-- `round(x, 1)` -/
def roundTenth : PyFloat → PyFloat
  | .fin q => round (roundHalfEven (q * 10) / 10)
  | x => x

/-- `x / n` -/
def divNat (x : PyFloat) (n : Nat) : PyFloat :=
  match x with
  | .fin q => round (q / n)
  | x => x

def neg : PyFloat → PyFloat
  | .fin q => .fin (-q)
  | .inf negative => .inf !negative
  | .nan => .nan

def sub (x y : PyFloat) : PyFloat := x.add y.neg

/-- `fabs(x) >= fabs(y)` -/
def absGe : PyFloat → PyFloat → Bool
  | .fin a, .fin b => |b| ≤ |a|
  | .inf _, .fin _ | .inf _, .inf _ => true
  | _, _ => false

end PyFloat

namespace SqlNumber

def toFloat : SqlNumber → PyFloat
  | .int n => PyFloat.round n
  | .real x => x

/-- `round(x, 1)` -/
def roundTenth : SqlNumber → SqlNumber
  | .int n => .int n
  | .real x => .real x.roundTenth

/-- `x + y` -/
def add : SqlNumber → SqlNumber → SqlNumber
  | .int m, .int n => .int (m + n)
  | x, y => .real (x.toFloat.add y.toFloat)

/-- `max(xs)`: the first that no other exceeds. -/
def max? : List SqlNumber → Option SqlNumber
  | [] => none
  | x :: xs => some (xs.foldl (fun m y => if m.value < y.value then y else m) x)

/-- How far `sum` has come. -/
inductive Sum
  /-- an `int` of 64 bits -/
  | exact (n : Int)
  /-- a `float`, and what rounding has lost of it -/
  | compensated (total lost : PyFloat)
  /-- any number, to which the others are added by `+` -/
  | plain (total : SqlNumber)

def Sum.add : Sum → SqlNumber → Sum
  | .exact n, .int m => if fits64 (n + m) then .exact (n + m) else .plain (.int (n + m))
  | .exact n, .real x => .compensated ((PyFloat.round n).add x) (.fin 0)
  | .compensated total lost, .int m => .compensated (total.add (PyFloat.round m)) lost
  | .compensated total lost, .real x =>
    let next := total.add x
    let rest := if total.absGe x then (total.sub next).add x else (x.sub next).add total
    .compensated next (lost.add rest)
  | .plain total, x => .plain (total.add x)

def Sum.total : Sum → SqlNumber
  | .exact n => .int n
  | .compensated total (.fin lost) => .real (if lost = 0 then total else total.add (.fin lost))
  | .compensated total _ => .real total
  | .plain total => total

/-- `sum(xs)` -/
def sum (xs : List SqlNumber) : SqlNumber := (xs.foldl Sum.add (.exact 0)).total

/-- `x / n` -/
def divNat (x : SqlNumber) (n : Nat) : PyFloat :=
  match x with
  | .int m => PyFloat.round ((m : ℚ) / n)
  | .real x => x.divNat n

end SqlNumber

/-! ## Bucket keys -/

def digit (n : Nat) : CodePoint := Fin.ofNat 0x110000 (48 + n % 10)

/-- `f"{n:02d}"` -/
def pad2 (n : Nat) : Str := [digit (n / 10), digit n]

def pad4 (n : Nat) : Str := pad2 (n / 100) ++ pad2 n

namespace Datetime

/-- `d.strftime("%Y-%m")` -/
def monthKey (d : Datetime) : Str :=
  let (year, month, _) := Gregorian.ord2ymd d.ordinal
  pad4 year ++ str "-" ++ pad2 month

/-- `d.strftime("%Y-%m-%d")` -/
def dayKey (d : Datetime) : Str :=
  let (_, _, day) := Gregorian.ord2ymd d.ordinal
  d.monthKey ++ str "-" ++ pad2 day

/-- `d.strftime("%Y-%m-%dT%H:00")` -/
def hourKey (d : Datetime) : Str := d.dayKey ++ str "T" ++ pad2 d.hour ++ str ":00"

def weekKey (d : Datetime) : Str :=
  let (year, week) := Gregorian.isocalendar d.ordinal
  Str.ofInt year ++ str "-W" ++ pad2 week

def bucketKey (d : Datetime) : Granularity → Str
  | .hour => d.hourKey
  | .day => d.dayKey
  | .month => d.monthKey
  | .week => d.weekKey

end Datetime

/-- `_bucket_key` -/
def ZoneInfo.bucketKey (z : ZoneInfo) (g : Granularity) (tsMs : Int) : Except PyExn Str := do
  return (← z.fromtimestamp tsMs).bucketKey g

/-! ## Sums -/

/-- `s <= t`, by code points. -/
def Str.le : Str → Str → Bool
  | [], _ => true
  | _ :: _, [] => false
  | a :: s, b :: t => if a = b then Str.le s t else a < b

namespace Analytics

structure Bucket where
  requests : Nat := 0
  successCount : Nat := 0
  errorCount : Nat := 0
  promptTokens : Int := 0
  completionTokens : Int := 0
  totalTokens : Int := 0
  cachedTokens : Int := 0
  dur : List SqlNumber := []
  queue : List SqlNumber := []
  upstream : List SqlNumber := []
  ttft : List SqlNumber := []

/-- `b[k] += v` if `v` is an `int`. -/
def addTokens (n : Int) : SqlValue → Int
  | .int v => n + v
  | _ => n

def succeeded (row : LogRow) : Bool :=
  row.errorType.isNone && row.statusCode.any fun status => 200 ≤ status && status < 400

/-- `_accumulate` -/
def accumulate (b : Bucket) (row : LogRow) : Bucket where
  requests := b.requests + 1
  successCount := if succeeded row then b.successCount + 1 else b.successCount
  errorCount := if succeeded row then b.errorCount else b.errorCount + 1
  promptTokens := addTokens b.promptTokens row.promptTokens
  completionTokens := addTokens b.completionTokens row.completionTokens
  totalTokens := addTokens b.totalTokens row.totalTokens
  cachedTokens := addTokens b.cachedTokens row.cachedTokens
  dur := b.dur ++ row.durationMs.number?.toList
  queue := b.queue ++ row.queueWaitMs.number?.toList
  upstream := b.upstream ++ row.upstreamDurationMs.number?.toList
  ttft := b.ttft ++ row.ttftMs.number?.toList

structure Metrics where
  requests : Nat
  successCount : Nat
  errorCount : Nat
  promptTokens : Int
  completionTokens : Int
  totalTokens : Int
  cachedTokens : Int
  avgDurationMs : Option PyFloat
  avgQueueWaitMs : Option PyFloat
  maxQueueWaitMs : Option SqlNumber
  avgUpstreamDurationMs : Option PyFloat
  avgTtftMs : Option PyFloat
  deriving DecidableEq

/-- `round(sum(xs) / len(xs), 1)` -/
def avg (xs : List SqlNumber) : Option PyFloat :=
  if xs = [] then none else some ((SqlNumber.sum xs).divNat xs.length).roundTenth

/-- `_finalize` -/
def finalize (b : Bucket) : Metrics where
  requests := b.requests
  successCount := b.successCount
  errorCount := b.errorCount
  promptTokens := b.promptTokens
  completionTokens := b.completionTokens
  totalTokens := b.totalTokens
  cachedTokens := b.cachedTokens
  avgDurationMs := avg b.dur
  avgQueueWaitMs := avg b.queue
  maxQueueWaitMs := (SqlNumber.max? b.queue).map SqlNumber.roundTenth
  avgUpstreamDurationMs := avg b.upstream
  avgTtftMs := avg b.ttft

/-- `_accumulate(buckets.setdefault(key, _new_bucket()), row)` -/
def accumulateAt (key : Str) (row : LogRow) : List (Str × Bucket) → List (Str × Bucket)
  | [] => [(key, accumulate {} row)]
  | (k, b) :: buckets =>
    if k = key then (k, accumulate b row) :: buckets else (k, b) :: accumulateAt key row buckets

section
variable (bucketKey : Granularity → Int → Except PyExn Str)

/-- One row in the loop of `summary`. -/
def addRow (f : SummaryFilter) (acc : List (Str × Bucket) × Bucket) (row : Row LogRow) :
    Except PyExn (List (Str × Bucket) × Bucket) :=
  let total := accumulate acc.2 row.val
  match f.granularity with
  | none => .ok (acc.1, total)
  | some g => do
    let key ← bucketKey g row.val.startedAt
    return (accumulateAt key row.val acc.1, total)

/-- The rows of the buckets in the order of their keys, and the TOTAL row. -/
def table (buckets : List (Str × Bucket)) (total : Bucket) : List (Str × Metrics) :=
  (buckets.insertionSort fun a b => Str.le a.1 b.1 = true).map
    (fun bucket => (bucket.1, finalize bucket.2)) ++
    [(str "TOTAL", finalize total)]

def summary (f : SummaryFilter) : Db (List (Str × Metrics)) := do
  let rows ← Db.query (.summary f.conditions)
  let (buckets, total) ← Db.lift ((rows.foldlM (addRow bucketKey f) ([], {})).mapError Exn.py)
  return table buckets total

end
end Analytics
end EasyModelGate
