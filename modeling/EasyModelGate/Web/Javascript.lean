import EasyModelGate.Python.Json

/-! # JavaScript values, as the pages of the Admin UI use them

A number is a double; the ones that occur are `NaN`, the infinities and integers. -/

namespace EasyModelGate

namespace Js

/-- White space and line terminators. -/
def isSpace (c : CodePoint) : Bool :=
  (0x09 ≤ c.val ∧ c.val ≤ 0x0D) ∨ (0x2000 ≤ c.val ∧ c.val ≤ 0x200A) ∨
    c.val ∈ [0x20, 0xA0, 0x1680, 0x2028, 0x2029, 0x202F, 0x205F, 0x3000, 0xFEFF]

/-- The value of a digit up to `z`; 36 for anything else. -/
def digitValue (c : CodePoint) : Nat :=
  if 0x30 ≤ c.val ∧ c.val ≤ 0x39 then c.val - 0x30
  else if 0x61 ≤ c.val ∧ c.val ≤ 0x7A then c.val - 0x57
  else if 0x41 ≤ c.val ∧ c.val ≤ 0x5A then c.val - 0x37
  else 36

/-- Whether there is a minus sign, and what comes after the sign. -/
def splitSign : Str → Bool × Str
  | 0x2D :: s => (true, s)
  | 0x2B :: s => (false, s)
  | s => (false, s)

/-- The radix, and what comes after its prefix. -/
def splitRadix : Str → Nat × Str
  | 0x30 :: 0x78 :: s | 0x30 :: 0x58 :: s => (16, s)
  | s => (10, s)

/-- `parseInt(s)` -/
def parseInt (s : Str) : PyFloat :=
  let (negative, s) := splitSign (s.dropWhile isSpace)
  let (radix, s) := splitRadix s
  let digits := s.takeWhile fun c => digitValue c < radix
  let n : Nat := digits.foldl (fun n c => radix * n + digitValue c) 0
  if digits = [] then .nan else PyFloat.round (if negative then -n else n)

/-- Of the multiples of `scale` next to `n` the one that is read as `n`, the nearer one if both
are. -/
def nearest (n scale : Nat) : Option Nat :=
  let lower := n / scale * scale
  let upper := lower + scale
  let reads (m : Nat) : Bool := PyFloat.round m = .fin n
  if reads upper ∧ (¬ reads lower ∨ upper - n < n - lower ∨ upper - n = n - lower ∧
    n / scale % 2 = 1) then some upper
  else if reads lower then some lower else none

/-- The integer with the fewest significant digits that is read as the double `n`. -/
def shortest (n : Nat) : Nat :=
  ((List.range (Nat.toDigits 10 n).length).reverse.findSome? fun e => nearest n (10 ^ e)).getD n

/-- `String(x)` of an integer. -/
def toString : PyFloat → Str
  | .nan => str "NaN"
  | .inf negative => if negative then str "-Infinity" else str "Infinity"
  | .fin q =>
    let digits := Str.ofInt (shortest q.num.natAbs)
    let significant := digits.rdropWhile (· = 0x30)
    (if q < 0 then str "-" else []) ++
      if digits.length ≤ 21 then digits
      else significant.take 1 ++ (if significant.length = 1 then []
        else str "." ++ significant.drop 1) ++ str "e+" ++
        Str.ofInt (digits.length - 1)

example : ["60", " 1e3", "-0x10", "12px", ".5", "9223372036854775807", "1000000000000000000001"].map
    (fun s => toString (parseInt (str s))) =
    ["60", "1", "-16", "12", "NaN", "9223372036854776000", "1e+21"].map str := by decide +kernel

end Js

inductive JsValue
  | null
  | num (x : PyFloat)
  | str (s : Str)
  deriving DecidableEq

namespace JsValue

def truthy : JsValue → Bool
  | .null => false
  | .num x => x ≠ .nan ∧ x ≠ .fin 0
  | .str s => s ≠ []

/-- `parseInt(v)` -/
def parseInt : JsValue → PyFloat
  | .null => .nan
  | .num x => Js.parseInt (Js.toString x)
  | .str s => Js.parseInt s

/-- What `JSON.stringify` writes for a value, as `request.json()` reads it: an integer from 1e21 on
has an exponent. -/
def received : JsValue → Json
  | .null => .null
  | .str s => .str s
  | .num (.fin q) =>
    if q.den = 1 ∧ q.num.natAbs < 10 ^ 21 then .int (q.num.sign * Js.shortest q.num.natAbs)
        else .float (.fin q)
  | .num _ => .null

end JsValue

/-- An object with its properties in the order in which they were added. -/
abbrev JsObject := List (Str × JsValue)

namespace JsObject

def get? (data : JsObject) (key : Str) : Option JsValue := (data.find? (·.1 = key)).map Prod.snd

/-- `data[key] = v` -/
def set (data : JsObject) (key : Str) (v : JsValue) : JsObject :=
  if data.any (·.1 = key) then data.map fun p => if p.1 = key then (key, v) else p
    else data ++ [(key, v)]

/-- `if (data[key]) data[key] = parseInt(data[key])` -/
def convert (data : JsObject) (key : String) : JsObject :=
  match data.get? (str key) with
  | some v => if v.truthy then data.set (str key) (.num v.parseInt) else data
  | none => data

/-- `JSON.stringify(data)`, as `request.json()` reads it. -/
def received (data : JsObject) : Json := .obj (data.map fun p => (p.1, p.2.received))

end JsObject

end EasyModelGate
