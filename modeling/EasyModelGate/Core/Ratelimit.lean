import Mathlib.Data.Rat.Floor

/-! # `core/ratelimit.py`: the fixed window -/

namespace EasyModelGate

structure FixedWindowRpmLimiter where
  /-- Key id, window start and count; the latest entry of a key counts. -/
  counters : List (Nat × Int × Int) := []

namespace FixedWindowRpmLimiter

def windowSeconds : Int := 60

def lookup (l : FixedWindowRpmLimiter) (keyId : Nat) : Option (Int × Int) :=
  (l.counters.find? (·.1 = keyId)).map Prod.snd

def store (l : FixedWindowRpmLimiter) (keyId : Nat) (entry : Int × Int) : FixedWindowRpmLimiter :=
  ⟨(keyId, entry) :: l.counters.filter (·.1 ≠ keyId)⟩

/-- `check` at time `t`: whether the request is allowed, and the `Retry-After` seconds. -/
def check (l : FixedWindowRpmLimiter) (keyId : Nat) (limit : Option Int) (t : ℚ) :
    (Bool × Int) × FixedWindowRpmLimiter :=
  match limit with
  | none => ((true, 0), l)
  | some limit =>
    let windowStart := ⌊t / windowSeconds⌋ * windowSeconds
    let windowEnd := windowStart + windowSeconds
    let (curStart, count) := (l.lookup keyId).getD (windowStart, 0)
    let (curStart, count) := if curStart ≠ windowStart then (windowStart, 0) else (curStart, count)
    let count := count + 1
    let l := l.store keyId (curStart, count)
    if limit < count then ((false, max 1 (⌊(windowEnd : ℚ) - t⌋ + 1)), l) else ((true, 0), l)

end FixedWindowRpmLimiter
end EasyModelGate
