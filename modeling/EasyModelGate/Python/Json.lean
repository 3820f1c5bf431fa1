import Mathlib.Data.Rat.Floor
import EasyModelGate.Python.Text

/-! # JSON values as Python sees them

The values `json.loads` returns, with the operations the gateway applies to them, and the module
`json` itself. What the gateway does holds for any `JsonCodec`; `Json.codec` is the standard
library's, up to the shortest decimal that `float.__repr__` prints. The C accelerated scanner
recurses once per nesting level and raises `RecursionError`, which is no `ValueError`, when the
interpreter's limit is passed. -/

namespace EasyModelGate

/-- A Python float by its exact value; the sign of a zero is dropped. -/
inductive PyFloat
  | nan
  | inf (negative : Bool)
  | fin (q : ℚ)
  deriving DecidableEq, Repr

namespace PyFloat

/-- `q` to the nearest integer, ties to even. -/
def roundHalfEven (q : ℚ) : Int :=
  let f := ⌊q⌋
  if q - f < 1 / 2 then f
  else if 1 / 2 < q - f then f + 1
  else if f % 2 = 0 then f else f + 1

/-- The exponent of the unit in the last place of a double near `q ≠ 0`. -/
def ulpExponent (q : ℚ) : Int :=
  let a := |q|
  let k : Int := Nat.log2 a.num.natAbs - Nat.log2 a.den
  max ((if (2 : ℚ) ^ k ≤ a then k else k - 1) - 52) (-1074)

/-- `q` to the nearest double. -/
def round (q : ℚ) : PyFloat :=
  if q = 0 then .fin 0
  else
    let ulp := (2 : ℚ) ^ ulpExponent q
    let r := roundHalfEven (q / ulp) * ulp
    if (2 : ℚ) ^ 1024 ≤ |r| then .inf (r < 0) else .fin r

end PyFloat

/-- A decoded JSON value. A `dict` is the list of its items in insertion order. -/
inductive Json
  | null
  | bool (b : Bool)
  | int (n : Int)
  | float (x : PyFloat)
  | str (s : Str)
  | arr (xs : List Json)
  | obj (items : List (Str × Json))

namespace Json

/-- `bool(v)` -/
def truthy : Json → Bool
  | .null => false
  | .bool b => b
  | .int n => n ≠ 0
  | .float x => x ≠ .fin 0
  | .str s => s ≠ []
  | .arr xs => !xs.isEmpty
  | .obj items => !items.isEmpty

def isDict : Json → Bool
  | .obj _ => true
  | _ => false

/-- `isinstance(v, str)`, with the string. -/
def asStr? : Json → Option Str
  | .str s => some s
  | _ => none

/-- `isinstance(v, int)`, with the integer: `bool` is a subclass of `int`. -/
def asInt? : Json → Option Int
  | .bool b => some (if b then 1 else 0)
  | .int n => some n
  | _ => none

/-- `items.get(key)` -/
def lookup (key : Str) : List (Str × Json) → Option Json
  | [] => none
  | (k, v) :: items => if k = key then some v else lookup key items

/-- `d[key] = v`: an existing key keeps its place. -/
def setItem (key : Str) (v : Json) : List (Str × Json) → List (Str × Json)
  | [] => [(key, v)]
  | (k, w) :: items => if k = key then (k, v) :: items else (k, w) :: setItem key v items

/-- `v.get(key)` with `None` for a missing key; only a `dict` has the method. -/
def get (v : Json) (key : Str) : Except PyExn Json :=
  match v with
  | .obj items => .ok ((lookup key items).getD .null)
  | _ => .error .attributeError

/-- `v[0]` -/
def item0 : Json → Except PyExn Json
  | .arr (x :: _) => .ok x
  | .arr [] => .error .indexError
  | .str (c :: _) => .ok (.str [c])
  | .str [] => .error .indexError
  | .obj _ => .error .keyError
  | _ => .error .typeError

end Json

/-- The module `json`: `loads` of `bytes`, and `dumps(v, ensure_ascii=False)`. -/
structure JsonCodec where
  loads : Bytes → Except PyExn Json
  dumps : Json → Except PyExn Str

namespace Json

/-! ## Decoding bytes -/

private def tail? (b : UInt8) : Option Nat :=
  if 0x80 ≤ b.toNat ∧ b.toNat ≤ 0xBF then some (b.toNat - 0x80) else none

private def codePoint? (n : Nat) : Option CodePoint :=
  if h : n < 0x110000 then some ⟨n, h⟩ else none

/-- `s.decode("utf-8", "surrogatepass")` -/
def decodeUtf8 : Bytes → Option Str
  | [] => some []
  | a :: s =>
    if a.toNat < 0x80 then do
      let c ← codePoint? a.toNat
      return c :: (← decodeUtf8 s)
    else if 0xC2 ≤ a.toNat ∧ a.toNat ≤ 0xDF then
      match s with
      | b :: s => do
        let c ← codePoint? ((a.toNat - 0xC0) * 0x40 + (← tail? b))
        return c :: (← decodeUtf8 s)
      | _ => none
    else if 0xE0 ≤ a.toNat ∧ a.toNat ≤ 0xEF then
      match s with
      | b :: c :: s => do
        let n := (a.toNat - 0xE0) * 0x1000 + (← tail? b) * 0x40 + (← tail? c)
        guard (0x800 ≤ n)
        return (← codePoint? n) :: (← decodeUtf8 s)
      | _ => none
    else if 0xF0 ≤ a.toNat ∧ a.toNat ≤ 0xF4 then
      match s with
      | b :: c :: d :: s => do
        let n := (a.toNat - 0xF0) * 0x40000 + (← tail? b) * 0x1000 +
            (← tail? c) * 0x40 + (← tail? d)
        guard (0x10000 ≤ n)
        return (← codePoint? n) :: (← decodeUtf8 s)
      | _ => none
    else none

/-- The 16-bit units, joined where a high surrogate is followed by a low one. -/
private def joinUnits : List Nat → Option Str
  | [] => some []
  | u :: us =>
    match us with
    | v :: vs =>
      if 0xD800 ≤ u ∧ u < 0xDC00 ∧ 0xDC00 ≤ v ∧ v < 0xE000 then do
        return (← codePoint? (0x10000 + (u - 0xD800) * 0x400 + (v - 0xDC00))) :: (← joinUnits vs)
      else do return (← codePoint? u) :: (← joinUnits (v :: vs))
    | [] => do return [← codePoint? u]

private def units16 (bigEndian : Bool) : Bytes → Option (List Nat)
  | [] => some []
  | a :: b :: s => do
    return (if bigEndian then a.toNat * 0x100 + b.toNat else b.toNat * 0x100 + a.toNat)
      :: (← units16 bigEndian s)
  | [_] => none

private def units32 (bigEndian : Bool) : Bytes → Option Str
  | [] => some []
  | a :: b :: c :: d :: s => do
    let n := if bigEndian
      then ((a.toNat * 0x100 + b.toNat) * 0x100 + c.toNat) * 0x100 + d.toNat
      else ((d.toNat * 0x100 + c.toNat) * 0x100 + b.toNat) * 0x100 + a.toNat
    return (← codePoint? n) :: (← units32 bigEndian s)
  | _ => none

private def utf16 (bigEndian : Bool) (s : Bytes) :
    Option Str := do joinUnits (← units16 bigEndian s)

/-- `s.decode(json.detect_encoding(s), "surrogatepass")` -/
def decode (s : Bytes) : Option Str :=
  match s with
  | 0 :: 0 :: 0xFE :: 0xFF :: s => units32 true s
  | 0xFF :: 0xFE :: 0 :: 0 :: s => units32 false s
  | 0xFE :: 0xFF :: s => utf16 true s
  | 0xFF :: 0xFE :: s => utf16 false s
  | 0xEF :: 0xBB :: 0xBF :: s => decodeUtf8 s
  | a :: b :: c :: d :: _ =>
    if a = 0 then if b = 0 then units32 true s else utf16 true s
    else if b = 0 then if c = 0 ∧ d = 0 then units32 false s else utf16 false s
    else decodeUtf8 s
  | [a, b] => if a = 0 then utf16 true s else if b = 0 then utf16 false s else decodeUtf8 s
  | _ => decodeUtf8 s

/-! ## Parsing text

The scanner takes one code point at a time. The containers that are still open are on a stack, so
the nesting depth is its length. -/

/-- An open container: the elements so far, latest first, or the items and the pending key. -/
inductive Frame
  | arr (elems : List Json)
  | obj (items : List (Str × Json)) (key : Str)

/-- Which part of a number was read last. -/
inductive NumPart
  | minus | zero | int | dot | frac | exp | expSign | expDigits
  deriving DecidableEq

structure Num where
  part : NumPart
  negative : Bool := false
  /-- All digits before the exponent, and how many of them there are. -/
  mantissa : Nat := 0
  digits : Nat := 0
  fracDigits : Nat := 0
  expNegative : Bool := false
  exp : Nat := 0

/-- Where a string stands: between characters, after a backslash, or inside `\uXXXX` with the
digits still owed and the value so far. -/
inductive StrPart
  | plain
  | escape
  | hex (owed : Nat) (n : Nat)

structure StrState where
  isKey : Bool
  part : StrPart := .plain
  /-- Latest first. -/
  chars : Str := []
  /-- An escaped high surrogate that an escaped low one would join. -/
  high : Option CodePoint := none

inductive Mode
  | value
  /-- After `[`: a value or the end. -/
  | firstValue
  /-- After `{`: a key or the end. -/
  | firstKey
  | key
  | colon
  /-- After an element or an item. -/
  | comma
  | done (v : Json)
  | literal (rest : Str) (v : Json)
  | number (n : Num)
  | string (s : StrState)

structure Parser where
  stack : List Frame := []
  mode : Mode := .value

namespace Parser

private def bad : Except PyExn α := .error .valueError

/-- A value has been read. -/
def complete (v : Json) : List Frame → Parser
  | [] => { stack := [], mode := .done v }
  | .arr elems :: stack => { stack := .arr (v :: elems) :: stack, mode := .comma }
  | .obj items key :: stack => { stack := .obj (setItem key v items) [] :: stack, mode := .comma }

def isDigit (c : CodePoint) : Bool := 0x30 ≤ c.val ∧ c.val ≤ 0x39

/-- The value of a finished number. `int()` refuses more than 4300 digits. -/
def numValue (n : Num) : Except PyExn Json :=
  let sign : Int := if n.negative then -1 else 1
  match n.part with
  | .zero | .int => if 4300 < n.digits then bad else .ok (.int (sign * n.mantissa))
  | .frac | .expDigits =>
    let e : Int := (if n.expNegative then -(n.exp : Int) else n.exp) - n.fracDigits
    if n.mantissa = 0 ∨ n.digits + e < -400 then .ok (.float (.fin 0))
    else if 309 < e then .ok (.float (.inf n.negative))
    else .ok (.float (PyFloat.round (sign * n.mantissa * (10 : ℚ) ^ e)))
  | _ => bad

private def Num.digit (n : Num) (part : NumPart) (c : CodePoint) : Num :=
  { n with part, mantissa := n.mantissa * 10 + (c.val - 0x30), digits := n.digits + 1 }

/-- The number with one more character, if it goes on. -/
def numNext (n : Num) (c : CodePoint) : Option Num :=
  match n.part with
  | .minus =>
    if c = 0x30 then some (Num.digit n .zero c)
    else if isDigit c then some (Num.digit n .int c) else none
  | .zero | .int =>
    if n.part = .int ∧ isDigit c then some (Num.digit n .int c)
    else if c = 0x2E then some { n with part := .dot }
    else if c = 0x65 ∨ c = 0x45 then some { n with part := .exp } else none
  | .dot | .frac =>
    if isDigit c then some { Num.digit n .frac c with fracDigits := n.fracDigits + 1 }
    else if n.part = .frac ∧ (c = 0x65 ∨ c = 0x45) then some { n with part := .exp } else none
  | .exp =>
    if c = 0x2B then some { n with part := .expSign }
    else if c = 0x2D then some { n with part := .expSign, expNegative := true }
    else if isDigit c then some { n with part := .expDigits, exp := c.val - 0x30 } else none
  | .expSign | .expDigits =>
    if isDigit c then some { n with part := .expDigits, exp := n.exp * 10 + (c.val - 0x30) }
    else none

private def pushHigh (s : StrState) : StrState :=
  { s with chars := s.high.toList ++ s.chars, high := none }

private def push (s : StrState) (c : CodePoint) : StrState :=
  { pushHigh s with part := .plain, chars := c :: (pushHigh s).chars }

/-- A finished `\uXXXX` escape: a low surrogate joins the high one escaped just before it. -/
def pushUnit (s : StrState) (u : CodePoint) : StrState :=
  match s.high with
  | some h =>
    if 0xDC00 ≤ u.val ∧ u.val < 0xE000 then
      { s with part := .plain, high := none,
               chars := Fin.ofNat _ (0x10000 + (h.val - 0xD800) * 0x400 + (u.val - 0xDC00)) ::
               s.chars }
    else if 0xD800 ≤ u.val ∧ u.val < 0xDC00 then { pushHigh s with part := .plain, high := some u }
    else push s u
  | none =>
    if 0xD800 ≤ u.val ∧ u.val < 0xDC00 then { s with part := .plain, high := some u } else push s u

def hexDigit? (c : CodePoint) : Option Nat :=
  if isDigit c then some (c.val - 0x30)
  else if 0x61 ≤ c.val ∧ c.val ≤ 0x66 then some (c.val - 0x57)
  else if 0x41 ≤ c.val ∧ c.val ≤ 0x46 then some (c.val - 0x37) else none

private def escape? (c : CodePoint) : Option CodePoint :=
  if c = 0x22 ∨ c = 0x5C ∨ c = 0x2F then some c
  else if c = 0x62 then some 8 else if c = 0x66 then some 12 else if c = 0x6E then some 10
  else if c = 0x72 then some 13 else if c = 0x74 then some 9 else none

/-- The string with one more character; the closing quote is not for this function. -/
def strNext (s : StrState) (c : CodePoint) : Except PyExn StrState :=
  match s.part with
  | .plain =>
    if c = 0x5C then .ok { s with part := .escape } else if c.val < 0x20 then bad
      else .ok (push s c)
  | .escape =>
    if c = 0x75 then .ok { s with part := .hex 4 0 }
    else match escape? c with
      | some c => .ok (push s c)
      | none => bad
  | .hex owed n =>
    match hexDigit? c with
    | none => bad
    | some d =>
      if owed ≤ 1 then .ok (pushUnit s (Fin.ofNat _ (n * 16 + d)))
      else .ok { s with part := .hex (owed - 1) (n * 16 + d) }

def isWhitespace (c : CodePoint) : Bool := c = 0x20 ∨ c = 0x09 ∨ c = 0x0A ∨ c = 0x0D

/-- The first character of a value. -/
def startValue (limit : Nat) (stack : List Frame) (c : CodePoint) : Except PyExn Parser :=
  if c = 0x22 then .ok ⟨stack, .string { isKey := false }⟩
  else if c = 0x5B ∨ c = 0x7B then
    if limit ≤ stack.length then .error .recursionError
    else if c = 0x5B then .ok ⟨.arr [] :: stack, .firstValue⟩
    else .ok ⟨.obj [] [] :: stack, .firstKey⟩
  else if c = 0x74 then .ok ⟨stack, .literal (EasyModelGate.str "rue") (.bool true)⟩
  else if c = 0x66 then .ok ⟨stack, .literal (EasyModelGate.str "alse") (.bool false)⟩
  else if c = 0x6E then .ok ⟨stack, .literal (EasyModelGate.str "ull") .null⟩
  else if c = 0x4E then .ok ⟨stack, .literal (EasyModelGate.str "aN") (.float .nan)⟩
  else if c = 0x49 then .ok ⟨stack, .literal (EasyModelGate.str "nfinity") (.float (.inf false))⟩
  else if c = 0x2D then .ok ⟨stack, .number { part := .minus, negative := true }⟩
  else if c = 0x30 then .ok ⟨stack, .number (Num.digit { part := .zero } .zero c)⟩
  else if isDigit c then .ok ⟨stack, .number (Num.digit { part := .int } .int c)⟩
  else bad

/-- The end of the innermost container. -/
def closeContainer (stack : List Frame) (c : CodePoint) : Except PyExn Parser :=
  match stack with
  | .arr elems :: stack => if c = 0x5D then .ok (complete (.arr elems.reverse) stack) else bad
  | .obj items _ :: stack => if c = 0x7D then .ok (complete (.obj items) stack) else bad
  | [] => bad

/-- One character outside numbers and strings. -/
def stepPlain (limit : Nat) (p : Parser) (c : CodePoint) : Except PyExn Parser :=
  if isWhitespace c then .ok p else
  match p.mode with
  | .value => startValue limit p.stack c
  | .firstValue => if c = 0x5D then closeContainer p.stack c else startValue limit p.stack c
  | .firstKey =>
    if c = 0x7D then closeContainer p.stack c
    else if c = 0x22 then .ok { p with mode := .string { isKey := true } } else bad
  | .key => if c = 0x22 then .ok { p with mode := .string { isKey := true } } else bad
  | .colon => if c = 0x3A then .ok { p with mode := .value } else bad
  | .comma =>
    if c = 0x2C then
      match p.stack with
      | .arr _ :: _ => .ok { p with mode := .value }
      | _ => .ok { p with mode := .key }
    else closeContainer p.stack c
  | _ => bad

/-- The closing quote: a key waits for its colon, a value is complete. -/
def endString (stack : List Frame) (s : StrState) : Except PyExn Parser :=
  let text := (pushHigh s).chars.reverse
  if s.isKey then
    match stack with
    | .obj items _ :: stack => .ok ⟨.obj items text :: stack, .colon⟩
    | _ => bad
  else .ok (complete (.str text) stack)

/-- One character. -/
def step (limit : Nat) (p : Parser) (c : CodePoint) : Except PyExn Parser :=
  match p.mode with
  | .literal rest v =>
    match rest with
    | [] => bad
    | r :: rest =>
      if c ≠ r then bad
      else if rest = [] then .ok (complete v p.stack) else .ok { p with mode := .literal rest v }
  | .number n =>
    match numNext n c with
    | some n => .ok { p with mode := .number n }
    | none =>
      -- `-Infinity` is no number for the scanner but a constant
      if n.part = .minus ∧ c = 0x49 then
        .ok { p with mode := .literal (EasyModelGate.str "nfinity") (.float (.inf true)) }
      else do stepPlain limit (complete (← numValue n) p.stack) c
  | .string s =>
    match s.part with
    | .plain =>
      if c = 0x22 then endString p.stack s else do
        return { p with mode := .string (← strNext s c) }
    | _ => do return { p with mode := .string (← strNext s c) }
  | _ => stepPlain limit p c

/-- The end of the text. -/
def finish (p : Parser) : Except PyExn Json :=
  match p.mode, p.stack with
  | .done v, _ => .ok v
  | .number n, [] => numValue n
  | _, _ => bad

end Parser

/-- `json.loads(s)` of `bytes`, where containers nest at most `limit` deep. -/
def loads (limit : Nat) (s : Bytes) : Except PyExn Json :=
  match decode s with
  | none => .error .valueError
  | some text => do Parser.finish (← text.foldlM (Parser.step limit) {})

/-- `json.loads(s)` of `str`. -/
def loadsStr (limit : Nat) (s : Str) : Except PyExn Json := do
  Parser.finish (← s.foldlM (Parser.step limit) {})

/-- `v == n` -/
def eqInt : Json → Int → Bool
  | .bool b, n => (if b then 1 else 0) = n
  | .int m, n => m = n
  | .float (.fin q), n => q = n
  | _, _ => false

/-! ## Writing text -/

def hexDigit (n : Nat) : CodePoint := Fin.ofNat _ (if n < 10 then 0x30 + n else 0x57 + n)

/-- One character of a string, escaped as `ensure_ascii=False` has it. -/
def escapeChar (c : CodePoint) : Str :=
  if c = 0x22 then EasyModelGate.str "\\\"" else if c = 0x5C then EasyModelGate.str "\\\\"
  else if c = 0x0A then EasyModelGate.str "\\n" else if c = 0x0D then EasyModelGate.str "\\r"
  else if c = 0x09 then EasyModelGate.str "\\t" else if c = 0x0C then EasyModelGate.str "\\f"
  else if c = 0x08 then EasyModelGate.str "\\b"
  else if c.val < 0x20 then EasyModelGate.str "\\u00" ++
    [hexDigit (c.val / 16), hexDigit (c.val % 16)]
  else [c]

def dumpsStr (s : Str) : Str := [0x22] ++ s.flatMap escapeChar ++ [0x22]

def dumpsFloat (floatRepr : ℚ → Str) : PyFloat → Str
  | .nan => EasyModelGate.str "NaN"
  | .inf negative => EasyModelGate.str (if negative then "-Infinity" else "Infinity")
  | .fin q => floatRepr q

mutual
/-- A value inside `depth` containers. -/
def dumpsAt (floatRepr : ℚ → Str) (limit depth : Nat) : Json → Except PyExn Str
  | .null => .ok (EasyModelGate.str "null")
  | .bool b => .ok (EasyModelGate.str (if b then "true" else "false"))
  | .int n => .ok (Str.ofInt n)
  | .float x => .ok (dumpsFloat floatRepr x)
  | .str s => .ok (dumpsStr s)
  | .arr xs => do
    if limit ≤ depth then throw .recursionError
    return EasyModelGate.str "[" ++ (← dumpsElems floatRepr limit (depth + 1) xs) ++
      EasyModelGate.str "]"
  | .obj items => do
    if limit ≤ depth then throw .recursionError
    return EasyModelGate.str "\x7b" ++ (← dumpsItems floatRepr limit (depth + 1) items) ++
      EasyModelGate.str "\x7d"

def dumpsElems (floatRepr : ℚ → Str) (limit depth : Nat) : List Json → Except PyExn Str
  | [] => .ok []
  | x :: xs => do
    let first ← dumpsAt floatRepr limit depth x
    let rest ← dumpsElems floatRepr limit depth xs
    return first ++ (if xs.isEmpty then [] else EasyModelGate.str ", ") ++ rest

def dumpsItems (floatRepr : ℚ → Str) (limit depth : Nat) : List (Str × Json) → Except PyExn Str
  | [] => .ok []
  | (k, v) :: items => do
    let first ← dumpsAt floatRepr limit depth v
    let rest ← dumpsItems floatRepr limit depth items
    return dumpsStr k ++ EasyModelGate.str ": " ++ first ++
      (if items.isEmpty then [] else EasyModelGate.str ", ") ++ rest
end

/-- The standard library's `json`, with the recursion limit left to the interpreter. -/
def codec (limit : Nat) (floatRepr : ℚ → Str) : JsonCodec where
  loads := loads limit
  dumps := dumpsAt floatRepr limit 0

example : (loads 10 (bytes "\x7b\"a\": [1, -2.5e1, \"\\ud83d\\ude00\"]\x7d")).toOption.map
    (fun v => match v with
      | .obj [(_, .arr [.int 1, .float x, .str s])] => decide (x = .fin (-25) ∧ s = [0x1F600])
      | _ => false) = some true := by decide +kernel

end Json
end EasyModelGate
