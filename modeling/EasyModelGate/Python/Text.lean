import Mathlib.Data.List.DropRight
import EasyModelGate.Lib.Framing

/-! # Python `bytes` and `str`

`bytes` is a list of octets and `str` a list of code points: a Python string may hold lone
surrogates, which no Lean `Char` is. Only the operations the gateway calls are here, each under
its Python name. -/

namespace EasyModelGate

abbrev Bytes := List UInt8

/-- A code point, surrogates included. -/
abbrev CodePoint := Fin 0x110000

instance CodePoint.neZero : @NeZero Nat Zero.ofOfNat0 0x110000 := ⟨by decide⟩

abbrev Str := List CodePoint

instance Str.lawfulBEq : LawfulBEq Str := inferInstance

/-- A `bytes` literal of ASCII text. -/
def bytes (s : String) : Bytes := s.toList.map fun c => UInt8.ofNat c.toNat

/-- A `str` literal. -/
def str (s : String) : Str := s.toList.map fun c => Fin.ofNat 0x110000 c.toNat

/-- The exceptions that the modelled code can meet, by their Python class. -/
inductive PyExn
  | valueError
  | attributeError
  | keyError
  | indexError
  | typeError
  | recursionError
  | unicodeEncodeError
  | overflowError
  | cancelledError
  | generatorExit
  | timeoutError
  /-- `httpx.TimeoutException`, a subclass of `httpx.HTTPError`. -/
  | httpxTimeout
  /-- Any other `httpx.HTTPError`. -/
  | httpxError
  /-- The subclasses of `sqlite3.Error`. -/
  | integrityError
  | operationalError
  | programmingError
  deriving DecidableEq, Repr

/-- `isinstance(exc, Exception)`: cancellation and generator exit derive from `BaseException`. -/
def PyExn.isException : PyExn → Bool
  | .cancelledError | .generatorExit => false
  | _ => true

namespace Bytes

/-- The octets `bytes.strip()` removes. -/
def isSpace (b : UInt8) : Bool := b ∈ ([9, 10, 11, 12, 13, 32] : Bytes)

/-- `s.strip()` -/
def strip (s : Bytes) : Bytes := (s.dropWhile isSpace).rdropWhile isSpace

/-- `s.rstrip(bytes([b]))` -/
def rstrip (b : UInt8) (s : Bytes) : Bytes := s.rdropWhile (· = b)

/-- `sub in s` -/
def contains (sub s : Bytes) : Bool := (Framing.find sub s).isSome

/-- `s.split(bytes([b]))` -/
def split (b : UInt8) (s : Bytes) : List Bytes := s.splitOn b

theorem rstrip_concat (b : UInt8) (s : Bytes) : rstrip b (s ++ [b]) = rstrip b s := by
  simp [rstrip]

@[simp] theorem rstrip_nil (b : UInt8) : rstrip b [] = [] := rfl

theorem split_append_cons (b : UInt8) (s t : Bytes) :
    split b (s ++ b :: t) = split b s ++ split b t := List.splitOn_append_cons_self s t

/-- An octet other than the separator only lengthens the last field. -/
theorem split_concat {b c : UInt8} (h : c ≠ b) (s : Bytes) :
    ∃ init last, split b s = init ++ [last] ∧ split b (s ++ [c]) = init ++ [last ++ [c]] := by
  induction s with
  | nil => exact ⟨[], [], rfl, by simp [split, List.splitOn_cons_eq_if_modifyHead, h]⟩
  | cons a s ih =>
    obtain ⟨init, last, h1, h2⟩ := ih
    simp only [split, List.cons_append, List.splitOn_cons_eq_if_modifyHead] at h1 h2 ⊢
    rw [h1, h2]
    split
    · exact ⟨[] :: init, last, rfl, rfl⟩
    · cases init with
      | nil => exact ⟨[], a :: last, rfl, rfl⟩
      | cons x init => exact ⟨(a :: x) :: init, last, rfl, rfl⟩

end Bytes

namespace Str

/-- The code points `str.strip()` removes. -/
def isSpace (c : CodePoint) : Bool :=
  (9 ≤ c.val ∧ c.val ≤ 13) ∨ (0x1C ≤ c.val ∧ c.val ≤ 0x20) ∨ (0x2000 ≤ c.val ∧ c.val ≤ 0x200A) ∨
    c.val ∈ [0x85, 0xA0, 0x1680, 0x2028, 0x2029, 0x202F, 0x205F, 0x3000]

/-- `s.strip()` -/
def strip (s : Str) : Str := (s.dropWhile isSpace).rdropWhile isSpace

/-- `s.lower()` on ASCII letters; other code points are kept, none of them lowers to a letter
of `bearer`. -/
def lower (s : Str) : Str :=
  s.map fun c => if 0x41 ≤ c.val ∧ c.val ≤ 0x5A then Fin.ofNat 0x110000 (c.val + 0x20) else c

/-- `s.partition(" ")`, without the separator. -/
def partitionSpace (s : Str) : Str × Str :=
  (s.takeWhile (· ≠ 0x20), (s.dropWhile (· ≠ 0x20)).drop 1)

def isSurrogate (c : CodePoint) : Bool := 0xD800 ≤ c.val ∧ c.val ≤ 0xDFFF

/-- Valid Unicode text: no lone surrogate. -/
def valid (s : Str) : Bool := s.all fun c => !isSurrogate c

def encodeChar (c : CodePoint) : Bytes :=
  let n := c.val
  if n < 0x80 then [.ofNat n]
  else if n < 0x800 then [.ofNat (0xC0 + n / 0x40), .ofNat (0x80 + n % 0x40)]
  else if n < 0x10000 then
    [.ofNat (0xE0 + n / 0x1000), .ofNat (0x80 + n / 0x40 % 0x40), .ofNat (0x80 + n % 0x40)]
  else
    [.ofNat (0xF0 + n / 0x40000), .ofNat (0x80 + n / 0x1000 % 0x40),
      .ofNat (0x80 + n / 0x40 % 0x40), .ofNat (0x80 + n % 0x40)]

/-- `s.encode("utf-8")` -/
def encodeUtf8 (s : Str) : Except PyExn Bytes :=
  if valid s then .ok (s.flatMap encodeChar) else .error .unicodeEncodeError

/-- `s.encode("latin-1")` succeeds. -/
def isLatin1 (s : Str) : Bool := s.all (·.val < 0x100)

/-- `s.encode("ascii")` succeeds. -/
def isAscii (s : Str) : Bool := s.all (·.val < 0x80)

/-- The digit zero of every script. -/
def digitZeros : List Nat :=
  [0x30, 0x660, 0x6F0, 0x7C0, 0x966, 0x9E6, 0xA66, 0xAE6, 0xB66, 0xBE6, 0xC66, 0xCE6, 0xD66, 0xDE6,
    0xE50, 0xED0, 0xF20, 0x1040, 0x1090, 0x17E0, 0x1810, 0x1946, 0x19D0, 0x1A80, 0x1A90, 0x1B50,
    0x1BB0, 0x1C40, 0x1C50, 0xA620, 0xA8D0, 0xA900, 0xA9D0, 0xA9F0, 0xAA50, 0xABF0, 0xFF10, 0x104A0,
    0x10D30, 0x11066, 0x110F0, 0x11136, 0x111D0, 0x112F0, 0x11450, 0x114D0, 0x11650,
    0x116C0, 0x11730, 0x118E0, 0x11950, 0x11C50, 0x11D50, 0x11DA0, 0x11F50, 0x16A60, 0x16AC0,
    0x16B50, 0x1D7CE, 0x1D7D8, 0x1D7E2, 0x1D7EC, 0x1D7F6, 0x1E140, 0x1E2F0, 0x1E4F0,
    0x1E950, 0x1FBF0]

/-- The value of a decimal digit. -/
def digit? (c : CodePoint) : Option Nat :=
  (digitZeros.find? fun d => d ≤ c.val ∧ c.val < d + 10).map (c.val - ·)

/-- The spaces that `int` skips: of the ASCII ones not the separators 1C to 1F. -/
def isIntSpace (c : CodePoint) : Bool := isSpace c && !(0x1C ≤ c.val ∧ c.val ≤ 0x1F)

/-- The value of digits that single underscores may group; at most 4300 of them are read. -/
def digits? (s : Str) : Option Nat :=
  let groups := s.splitOn 0x5F
  if groups.all (· ≠ []) ∧ groups.flatten.length ≤ 4300
  then (groups.flatten.mapM digit?).map (·.foldl (fun n d => n * 10 + d) 0)
  else none

/-- `int(s)`, where it raises no `ValueError`. -/
def toInt? (s : Str) : Option Int :=
  match (s.dropWhile isIntSpace).rdropWhile isIntSpace with
  | 0x2D :: s => (digits? s).map fun n => -(n : Int)
  | 0x2B :: s => (digits? s).map fun n => (n : Int)
  | s => (digits? s).map fun n => (n : Int)

/-- `f"{s:>width}"` -/
def padLeft (width : Nat) (s : Str) : Str := List.replicate (width - s.length) 0x20 ++ s

/-- `f"{s:<width}"` -/
def padRight (width : Nat) (s : Str) : Str := s ++ List.replicate (width - s.length) 0x20

/-- `str(n)` of an integer. -/
def ofInt (n : Int) : Str := str (toString n)

@[simp] theorem valid_nil : valid [] = true := rfl

@[simp] theorem valid_append (s t : Str) : valid (s ++ t) = (valid s && valid t) := by
  simp [valid]

/-- A literal holds no surrogate, because no `Char` is one. -/
@[simp] theorem valid_str (s : String) : valid (str s) = true := by
  simp only [valid, str, List.all_map, List.all_eq_true]
  intro c _
  have hc : c.toNat < 0xD800 ∨ 0xDFFF < c.toNat ∧ c.toNat < 0x110000 := c.valid
  have hmod : c.toNat % 0x110000 = c.toNat := Nat.mod_eq_of_lt (by omega)
  simp only [Function.comp, isSurrogate, Fin.val_ofNat, hmod]
  simp only [Bool.decide_and, Bool.not_and, Bool.or_eq_true, Bool.not_eq_true',
    decide_eq_false_iff_not]
  omega

@[simp] theorem valid_ofInt (n : Int) : valid (ofInt n) = true := valid_str _

theorem valid_take {s : Str} (h : valid s = true) (n : Nat) : valid (s.take n) = true := by
  simp only [valid, List.all_eq_true] at h ⊢
  exact fun c hc => h c (List.mem_of_mem_take hc)

example : [" +1_0 ", "-7", "1__0", "٣", ""].map (fun s => toInt? (str s)) =
    [some 10, some (-7), none, some 3, none] := by decide +kernel

end Str
end EasyModelGate
