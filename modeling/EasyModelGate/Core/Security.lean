import EasyModelGate.Python.Text

/-! # `core/security.py`: keys, prefixes and masks

SHA-256 is a parameter wherever `hash_key` is used, and `secrets.token_urlsafe` is an argument. -/

namespace EasyModelGate

def prefixDisplayLen : Nat := 12
def maskHeadLen : Nat := 8
def maskTailLen : Nat := 4

/-- `generate_key`: the full key and its displayed prefix. -/
def generateKey (pfx random : Str) : Str × Str :=
  let full := pfx ++ random
  (full, full.take prefixDisplayLen)

def maskKey (s : Str) : Str :=
  if s.length < maskHeadLen + 2 then List.replicate s.length 0x2A
  else s.take maskHeadLen ++ str "****" ++ s.drop (s.length - maskTailLen)

end EasyModelGate
