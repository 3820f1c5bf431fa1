import EasyModelGate.Python.Json

/-! # SQLite values

How Python values are bound, what the affinity of an INTEGER column makes of them, and the `+` of
`token_used + ?`. -/

namespace EasyModelGate

/-- A stored value. -/
inductive SqlValue
  | null
  | int (n : Int)
  | real (x : PyFloat)
  | text (s : Str)
  deriving DecidableEq

/-- The value of `token_used`, which is never NULL or text. -/
inductive SqlNumber
  | int (n : Int)
  | real (x : PyFloat)
  deriving DecidableEq

/-- A signed 64-bit integer. -/
def fits64 (n : Int) : Bool := -2 ^ 63 ≤ n ∧ n < 2 ^ 63

namespace PyFloat

def add : PyFloat → PyFloat → PyFloat
  | .fin a, .fin b => round (a + b)
  | .nan, _ | _, .nan => .nan
  | .inf s, .inf t => if s = t then .inf s else .nan
  | .inf s, _ | _, .inf s => .inf s

/-- What a REAL can be: a double, and no NaN, which is stored as NULL. -/
def storable : PyFloat → Bool
  | .fin q => round q = .fin q
  | .inf _ => true
  | .nan => false

/-- Where a float lies. NaN, which is not stored, is put below all numbers. -/
def value : PyFloat → WithBot (WithTop ℚ)
  | .fin q => ((q : WithTop ℚ) : WithBot (WithTop ℚ))
  | .inf negative => if negative then ⊥ else ((⊤ : WithTop ℚ) : WithBot (WithTop ℚ))
  | .nan => ⊥

/-- `x ≥ n` -/
def geInt (x : PyFloat) (n : Int) : Bool :=
  match x with
  | .fin q => n ≤ q
  | .inf negative => !negative
  | .nan => false

end PyFloat

namespace SqlNumber

def storable : SqlNumber → Bool
  | .int _ => true
  | .real x => x.storable

def value : SqlNumber → WithBot (WithTop ℚ)
  | .int n => (((n : ℚ) : WithTop ℚ) : WithBot (WithTop ℚ))
  | .real x => x.value

/-- `x ≥ n` in Python, where the comparison of a `float` and an `int` is exact. -/
def geInt : SqlNumber → Int → Bool
  | .int m, n => n ≤ m
  | .real x, n => x.geInt n

/-- `int(x)` -/
def toInt : SqlNumber → Except PyExn Int
  | .int n => .ok n
  | .real (.fin q) => .ok (if 0 ≤ q then ⌊q⌋ else ⌈q⌉)
  | .real (.inf _) => .error .overflowError
  | .real .nan => .error .valueError

/-- INTEGER affinity: a real that is an integer inside the 64-bit range becomes one. -/
def integerAffinity : SqlNumber → SqlNumber
  | .real (.fin q) => if q.den = 1 ∧ -2 ^ 63 < q.num ∧ q.num < 2 ^ 63 - 1 then .int q.num
      else .real (.fin q)
  | v => v

/-- `token_used + ?` for an integer argument, as the column stores it: an integer sum that
overflows is computed in floating point. -/
def addInt (x : SqlNumber) (n : Int) : SqlNumber :=
  match x with
  | .int m => if fits64 (m + n) then .int (m + n)
      else integerAffinity (.real (PyFloat.add (PyFloat.round m) (PyFloat.round n)))
  | .real x => integerAffinity (.real (PyFloat.add x (PyFloat.round n)))

/-- `str(x)` -/
def toStr (floatRepr : PyFloat → String) : SqlNumber → Str
  | .int n => Str.ofInt n
  | .real x => str (floatRepr x)

def toValue : SqlNumber → SqlValue
  | .int n => .int n
  | .real x => .real x

end SqlNumber

namespace SqlValue

def storable : SqlValue → Bool
  | .real x => x.storable
  | .null | .int _ | .text _ => true

/-- The value, if `isinstance(v, (int, float))`. -/
def number? : SqlValue → Option SqlNumber
  | .int n => some (.int n)
  | .real x => some (.real x)
  | .null | .text _ => none

/-- `None` is stored as NULL. -/
def ofInt? : Option Int → SqlValue
  | none => .null
  | some n => .int n

@[simp] theorem storable_int (n : Int) : (int n).storable = true := rfl

@[simp] theorem storable_ofInt? (n : Option Int) : (ofInt? n).storable = true := by
  cases n <;> rfl

theorem storable_of_number? {v : SqlValue} {x : SqlNumber} (h : v.storable = true)
    (hx : v.number? = some x) :
    x.storable = true := by
  cases v with
  | int n =>
    cases hx
    rfl
  | real y =>
    cases hx
    exact h
  | null | text => cases hx

end SqlValue

/-! ## Binding -/

def bindText (s : Str) : Except PyExn Unit :=
  if s.valid then .ok () else .error .unicodeEncodeError

def bindInt (n : Int) : Except PyExn Unit :=
  if fits64 n then .ok () else .error .overflowError

/-- `None` binds to NULL. -/
def bindOption (bind : α → Except PyExn Unit) : Option α → Except PyExn Unit
  | none => .ok ()
  | some a => bind a

/-- Binding any Python value: a `bool` is an `int`, NaN is NULL, a container is refused. -/
def bindJson : Json → Except PyExn SqlValue
  | .null => .ok .null
  | .bool b => .ok (.int (if b then 1 else 0))
  | .int n => do bindInt n; return .int n
  | .float .nan => .ok .null
  | .float x => .ok (.real x)
  | .str s => do bindText s; return .text s
  | .arr _ | .obj _ => .error .programmingError

/-! ## The affinity of an INTEGER column -/

private def isDigit (c : CodePoint) : Bool := 0x30 ≤ c.val ∧ c.val ≤ 0x39

private def digits (s : Str) : Nat := s.foldl (fun n c => n * 10 + (c.val - 0x30)) 0

/-- The six characters that SQLite takes for white space. -/
private def isSpace (c : CodePoint) : Bool := c.val = 0x20 ∨ (9 ≤ c.val ∧ c.val ≤ 13)

/-- An optional sign. -/
private def sign (s : Str) : Int × Str :=
  match s with
  | 0x2D :: s => (-1, s)
  | 0x2B :: s => (1, s)
  | s => (1, s)

/-- A numeric literal between optional spaces: its value, and whether it is written as an
integer. -/
def numericLiteral (s : Str) : Option (ℚ × Bool) :=
  let s := (s.dropWhile isSpace).rdropWhile isSpace
  let (neg, s) := sign s
  let whole := s.takeWhile isDigit
  let rest := s.dropWhile isDigit
  let (frac, rest, dotted) := match rest with
    | 0x2E :: rest => (rest.takeWhile isDigit, rest.dropWhile isDigit, true)
    | rest => ([], rest, false)
  let mantissa : ℚ := neg * (digits (whole ++ frac) : ℚ) / 10 ^ frac.length
  if whole = [] ∧ frac = [] then none
  else match rest with
    | [] => some (mantissa, !dotted)
    | e :: rest =>
      let (neg, rest) := sign rest
      if (e = 0x65 ∨ e = 0x45) ∧ rest ≠ [] ∧ rest.all isDigit
      then some (mantissa * (10 : ℚ) ^ (neg * digits rest), false)
      else none

/-- What an INTEGER column stores. -/
def integerAffinity : SqlValue → SqlValue
  | .real x => (SqlNumber.integerAffinity (.real x)).toValue
  | .text s =>
    match numericLiteral s with
    | none => .text s
    | some (q, integer) =>
      if integer ∧ q.den = 1 ∧ fits64 q.num then .int q.num
      else (SqlNumber.integerAffinity (.real (PyFloat.round q))).toValue
  | v => v

example : (["12", " -3.0e1 ", "1.5", "x"].map fun s => integerAffinity (.text (str s))) =
    [.int 12, .int (-30), .real (.fin (3 / 2)), .text (str "x")] := by decide +kernel

end EasyModelGate
