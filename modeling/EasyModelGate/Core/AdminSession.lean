import Mathlib.Algebra.Order.Ring.Rat
import Mathlib.Logic.Function.Basic
import EasyModelGate.Python.Text

/-! # `core/admin_session.py`: the sessions and the login limiter

Both live in the process; a clock reading is an argument. -/

namespace EasyModelGate

def sessionTtlSeconds : ℚ := 12 * 3600
def loginMaxFailures : Nat := 5
def loginWindowSeconds : ℚ := 300

structure SessionStore.Session where
  sessionId : Str
  createdAt : ℚ
  expiresAt : ℚ
  lastSeen : ℚ := 0
  deriving DecidableEq

def SessionStore.Session.expired (s : SessionStore.Session) (now : ℚ) : Bool := s.expiresAt ≤ now

structure SessionStore where
  ttl : ℚ := sessionTtlSeconds
  /-- The `dict`, by the session id. -/
  sessions : Str → Option SessionStore.Session := fun _ => none

inductive LookupState
  | valid | expired | missing
  deriving DecidableEq

namespace SessionStore

/-- `create`, with the id that `new_session_id` has drawn. -/
def create (store : SessionStore) (sid : Str) (now : ℚ) : Session × SessionStore :=
  let s : Session := { sessionId := sid, createdAt := now, expiresAt := now + store.ttl }
  (s, { store with sessions := Function.update store.sessions sid (some s) })

def delete (store : SessionStore) (sid : Str) : SessionStore :=
  { store with sessions := Function.update store.sessions sid none }

/-- A session that has expired is deleted when somebody asks for it. -/
def lookup (store : SessionStore) (sid : Str) (now : ℚ) :
    (LookupState × Option Session) × SessionStore :=
  match store.sessions sid with
  | none => ((.missing, none), store)
  | some s =>
    if s.expired now then ((.expired, none), store.delete sid)
    else
      let s := { s with lastSeen := now }
      ((.valid, some s), { store with sessions := Function.update store.sessions sid (some s) })

variable {store : SessionStore} {sid : Str} {s : Session} {now : ℚ}

theorem delete_self (store : SessionStore) (sid : Str) : (store.delete sid).sessions sid = none :=
  Function.update_self ..

theorem delete_of_ne {sid' : Str} (h : sid' ≠ sid) (store : SessionStore) :
    (store.delete sid).sessions sid' = store.sessions sid' := Function.update_of_ne h ..

theorem lookup_missing (h : store.sessions sid = none) (now : ℚ) :
    store.lookup sid now = ((.missing, none), store) := by
  unfold lookup
  rw [h]

theorem lookup_expired (h : store.sessions sid = some s) (he : s.expired now = true) :
    store.lookup sid now = ((.expired, none), store.delete sid) := by
  unfold lookup
  rw [h]
  exact if_pos he

theorem lookup_valid (h : store.sessions sid = some s) (he : s.expired now = false) :
    store.lookup sid now = ((.valid, some { s with lastSeen := now }),
      { store with
        sessions := Function.update store.sessions sid (some { s with lastSeen := now }) }) := by
  unfold lookup
  rw [h]
  exact if_neg (Bool.eq_false_iff.mp he)

end SessionStore

structure LoginRateLimiter where
  maxFailures : Nat := loginMaxFailures
  window : ℚ := loginWindowSeconds
  /-- The times of the failures, by the key of the origin; a key without failures has no entry. -/
  failures : Str → List ℚ := fun _ => []

namespace LoginRateLimiter

/-- The failures of the last window. -/
def recent (l : LoginRateLimiter) (originKey : Str) (now : ℚ) : List ℚ :=
  (l.failures originKey).filter fun t => now - l.window < t

def blocked (l : LoginRateLimiter) (originKey : Str) (now : ℚ) : Bool × LoginRateLimiter :=
  (l.maxFailures ≤ (l.recent originKey now).length,
    { l with failures := Function.update l.failures originKey (l.recent originKey now) })

def recordFailure (l : LoginRateLimiter) (originKey : Str) (now : ℚ) : LoginRateLimiter :=
  { l with failures := Function.update l.failures originKey (l.recent originKey now ++ [now]) }

/-- `record_failure` with the two readings of the clock: one for the cutoff, one for the entry. -/
def recordFailureAt (l : LoginRateLimiter) (originKey : Str) (now now' : ℚ) : LoginRateLimiter :=
  { l with failures := Function.update l.failures originKey (l.recent originKey now ++ [now']) }

theorem recordFailure_eq (l : LoginRateLimiter) (originKey : Str) (now : ℚ) :
    l.recordFailure originKey now = l.recordFailureAt originKey now now := rfl

def reset (l : LoginRateLimiter) (originKey : Str) : LoginRateLimiter :=
  { l with failures := Function.update l.failures originKey [] }

variable {l : LoginRateLimiter} {originKey originKey' : Str} {now now' t : ℚ}

/-- The failures of a later window. -/
theorem recent_later (h : now ≤ now') :
    ((l.recent originKey now).filter fun t => now' - l.window < t) =
    l.recent originKey now' := by
  unfold recent
  rw [List.filter_filter]
  apply List.filter_congr
  intro t _
  rw [← Bool.decide_and]
  exact decide_eq_decide.mpr ⟨And.left, fun ht => ⟨ht, (sub_le_sub_right h _).trans_lt ht⟩⟩

/-- The check forgets only what has left the window. -/
theorem recent_blocked (h : now ≤ now') :
    (l.blocked originKey now).2.recent originKey' now' = l.recent originKey' now' := by
  by_cases hkey : originKey' = originKey
  · subst hkey
    have hkept : (l.blocked originKey' now).2.failures originKey' = l.recent originKey' now :=
      Function.update_self ..
    exact (congrArg (List.filter _) hkept).trans (recent_later (l := l) h)
  · exact congrArg (List.filter _) (Function.update_of_ne hkey ..)

theorem recent_recordFailureAt (h : now ≤ t) :
    (l.recordFailureAt originKey now now').recent originKey t =
    l.recent originKey t ++ [now'].filter fun u => t - l.window < u := by
  have hkept : (l.recordFailureAt originKey now now').failures originKey =
      l.recent originKey now ++ [now'] :=
    Function.update_self ..
  rw [← recent_later (l := l) h, ← List.filter_append]
  exact congrArg (List.filter _) hkept

theorem recent_recordFailure (h : now ≤ now') :
    (l.recordFailure originKey now).recent originKey now' =
    l.recent originKey now' ++ [now].filter fun t => now' - l.window < t := by
  rw [recordFailure_eq, recent_recordFailureAt h]

theorem recent_recordFailure_of_ne (h : originKey' ≠ originKey) :
    (l.recordFailure originKey now).recent originKey' now' = l.recent originKey' now' :=
  congrArg (List.filter _) (Function.update_of_ne h ..)

theorem recent_reset_of_ne (h : originKey' ≠ originKey) :
    (l.reset originKey).recent originKey' now' = l.recent originKey' now' :=
  congrArg (List.filter _) (Function.update_of_ne h ..)

end LoginRateLimiter
end EasyModelGate
