import EasyModelGate.Db.Dao

/-! # `services/admin_auth_service.py`: the administrator's credential

The credential is one row of `settings`: the metadata of a derived key as JSON text. -/

namespace EasyModelGate

/-! ## `bytes.hex`, `bytes.fromhex` and `int` of a decoded value -/

/-- `s.hex()` -/
def Bytes.hex (s : Bytes) : Str :=
  s.flatMap fun b => [Json.hexDigit (b.toNat / 16), Json.hexDigit (b.toNat % 16)]

/-- `bytes.fromhex(s)`: spaces may stand between the octets. -/
def Bytes.fromHex : Str → Except PyExn Bytes
  | [] => .ok []
  | [c] => if c.val = 0x20 ∨ (9 ≤ c.val ∧ c.val ≤ 13) then .ok [] else .error .valueError
  | c :: d :: s =>
    if c.val = 0x20 ∨ (9 ≤ c.val ∧ c.val ≤ 13) then fromHex (d :: s)
    else
      match Json.Parser.hexDigit? c, Json.Parser.hexDigit? d with
      | some m, some n => do return .ofNat (m * 16 + n) :: (← fromHex s)
      | _, _ => .error .valueError

/-- `int(x)` -/
def PyFloat.toInt : PyFloat → Except PyExn Int
  | .fin q => .ok (if 0 ≤ q then ⌊q⌋ else ⌈q⌉)
  | .inf _ => .error .overflowError
  | .nan => .error .valueError

/-- `int(v)` -/
def Json.toInt : Json → Except PyExn Int
  | .bool b => .ok (if b then 1 else 0)
  | .int n => .ok n
  | .float x => x.toInt
  | .str s => (s.toInt?.map .ok).getD (.error .valueError)
  | _ => .error .typeError

/-- What `json.loads` raises on a `str`: a `JSONDecodeError`, or another exception (a
`RecursionError`, or the plain `ValueError` of a number with too many digits). -/
inductive JsonFault
  | decodeError
  | other (e : PyExn)

/-- What the service uses of the standard library: `hashlib.scrypt`, and `json` on text. -/
structure AdminAuthLib where
  scrypt : (password salt : Bytes) → (n r p : Int) → (dklen : Nat) → Except PyExn Bytes
  loads : Str → Except JsonFault Json
  dumps : Json → Except PyExn Str

/-- The credential's items. -/
abbrev Metadata := List (Str × Json)

namespace AdminAuthService

def settingsKey : Str := str "admin.auth"
def algorithm : Str := str "scrypt"
def metadataVersion : Int := 1
def scryptN : Int := 2 ^ 15
def scryptR : Int := 8
def scryptP : Int := 1
def dklen : Nat := 32

section
variable (lib : AdminAuthLib)

/-- `salt` is what `secrets.token_bytes` returns. -/
def hashPassword (password : Str) (salt : Bytes) (nowMs : Int) : Except PyExn Metadata := do
  let dk ← lib.scrypt (← password.encodeUtf8) salt scryptN scryptR scryptP dklen
  return [(str "version", .int metadataVersion), (str "algorithm", .str algorithm),
    (str "salt", .str (Bytes.hex salt)), (str "derived_key", .str (Bytes.hex dk)),
    (str "n", .int scryptN), (str "r", .int scryptR), (str "p", .int scryptP),
    (str "dklen", .int dklen), (str "updated_at", .int nowMs)]

/-- `metadata[key]` -/
def item (metadata : Metadata) (key : Str) : Except PyExn Json :=
  ((Json.lookup key metadata).map .ok).getD (.error .keyError)

/-- `bytes.fromhex(v)` -/
def fromHex : Json → Except PyExn Bytes
  | .str s => Bytes.fromHex s
  | _ => .error .typeError

/-- The key derived from a password as the metadata says, and the expected one. -/
def derive (password : Str) (metadata : Metadata) : Except PyExn (Bytes × Bytes) := do
  let salt ← fromHex (← item metadata (str "salt"))
  let expected ← fromHex (← item metadata (str "derived_key"))
  let password ← password.encodeUtf8
  let n ← (← item metadata (str "n")).toInt
  let r ← (← item metadata (str "r")).toInt
  let p ← (← item metadata (str "p")).toInt
  return (← lib.scrypt password salt n r p expected.length, expected)

def verifyPasswordAgainst (password : Str) (metadata : Metadata) : Except PyExn Bool :=
  if (Json.lookup (str "algorithm") metadata).bind Json.asStr? ≠ some algorithm then .ok false
  else
    match derive lib password metadata with
    | .ok (dk, expected) => .ok (dk = expected)
    -- a `UnicodeEncodeError` is a `ValueError`
    | .error .keyError | .error .typeError | .error .valueError | .error .unicodeEncodeError =>
      .ok false
    | .error e => .error e

/-- The metadata in the text of the row. -/
def decodeAuth : Option Str → Except PyExn (Option Metadata)
  | none => .ok none
  | some raw =>
    match lib.loads raw with
    | .error .decodeError => .ok none
    | .error (.other e) => .error e
    | .ok (.obj items) => .ok (some items)
    | .ok _ => .ok none

def getAdminAuth : Db (Option Metadata) := do
  let raw ← Dao.getSetting settingsKey
  Db.lift ((decodeAuth lib raw).mapError Exn.py)

def isAdminInitialized : Db Bool := do return (← getAdminAuth lib).isSome

/-- The hashing and the write of `initialize_admin`. -/
def storeCredential (password : Str) (salt : Bytes) (nowMs : Int) : Db Unit := do
  let metadata ← Db.lift ((hashPassword lib password salt nowMs).mapError Exn.py)
  Dao.setSetting settingsKey (← Db.lift ((lib.dumps (.obj metadata)).mapError Exn.py))

def initializeAdmin (password : Str) (salt : Bytes) (nowMs : Int) : Db Unit := do
  if password = [] then .raise .emptyPassword
  else if ← isAdminInitialized lib then .raise .adminAlreadyInitialized
  else storeCredential lib password salt nowMs

def verifyAdminPassword (password : Str) : Db Bool := do
  match ← getAdminAuth lib with
  | none => .raise .adminNotInitialized
  | some metadata => Db.lift ((verifyPasswordAgainst lib password metadata).mapError Exn.py)

end

end AdminAuthService
end EasyModelGate
