import Mathlib.Data.List.DropRight
import EasyModelGate.Core.AdminSession

/-! # The login limiter as a sliding window

Every call, the check included, rewrites the list that it looks at. What the list has lost is out of
every later window, so the list and the full history count alike. -/

namespace EasyModelGate
namespace LoginRateLimiter

/-- A call, with what it reads of the clock. -/
inductive Call
  | blocked (originKey : Str) (now : ℚ)
  | recordFailure (originKey : Str) (now now' : ℚ)
  | reset (originKey : Str)
  deriving DecidableEq

namespace Call

def originKey : Call → Str
  | .blocked originKey _ | .recordFailure originKey _ _ | .reset originKey => originKey

/-- The readings of the clock, in their order. -/
def readings : Call → List ℚ
  | .blocked _ now => [now]
  | .recordFailure _ now now' => [now, now']
  | .reset _ => []

def isReset : Call → Bool
  | .reset _ => true
  | _ => false

/-- The time under which a failure is recorded. -/
def recorded : Call → Option ℚ
  | .recordFailure _ _ now' => some now'
  | _ => none

end Call

def call (l : LoginRateLimiter) : Call → LoginRateLimiter
  | .blocked originKey now => (l.blocked originKey now).2
  | .recordFailure originKey now now' => l.recordFailureAt originKey now now'
  | .reset originKey => l.reset originKey

/-- The limiter after the calls. -/
def after (l : LoginRateLimiter) (cs : List Call) : LoginRateLimiter := cs.foldl call l

/-! ## The history -/

def readings (cs : List Call) : List ℚ := cs.flatMap Call.readings

/-- The calls for `originKey`. -/
def callsFor (originKey : Str) (cs : List Call) : List Call :=
  cs.filter fun c => c.originKey = originKey

/-- When failures were recorded for `originKey` after its last reset. -/
def failuresSince (originKey : Str) (cs : List Call) : List ℚ :=
  ((callsFor originKey cs).rtakeWhile fun c => !c.isReset).filterMap Call.recorded

variable {l l' : LoginRateLimiter} {originKey : Str} {c : Call} {cs : List Call} {t : ℚ}

theorem callsFor_concat_of_ne (h : c.originKey ≠ originKey) :
    callsFor originKey (cs ++ [c]) = callsFor originKey cs := by
  simp [callsFor, h]

theorem callsFor_concat (cs : List Call) (c : Call) :
    callsFor c.originKey (cs ++ [c]) = callsFor c.originKey cs ++ [c] := by
  simp [callsFor]

theorem failuresSince_concat_of_ne (h : c.originKey ≠ originKey) :
    failuresSince originKey (cs ++ [c]) = failuresSince originKey cs := by
  rw [failuresSince, callsFor_concat_of_ne h, failuresSince]

theorem failuresSince_reset (h : c.isReset = true) :
    failuresSince c.originKey (cs ++ [c]) = [] := by
  rw [failuresSince, callsFor_concat, List.rtakeWhile_concat_neg _ _ _ (by simp [h])]
  rfl

theorem failuresSince_concat (h : c.isReset = false) :
    failuresSince c.originKey (cs ++ [c]) = failuresSince c.originKey cs ++ c.recorded.toList := by
  rw [failuresSince, callsFor_concat, List.rtakeWhile_concat_pos _ _ _ (by simp [h]),
    List.filterMap_append, failuresSince]
  cases c <;> rfl

/-! ## One call -/

/-- A call leaves what the limiter was made with. -/
theorem call_window (l : LoginRateLimiter) (c : Call) : (l.call c).window = l.window := by
  cases c <;> rfl

theorem call_maxFailures (l : LoginRateLimiter) (c : Call) :
    (l.call c).maxFailures = l.maxFailures := by
  cases c <;> rfl

/-- A call for another origin. -/
theorem call_failures_of_ne (h : c.originKey ≠ originKey) :
    (l.call c).failures originKey = l.failures originKey := by
  cases c with
  | blocked | recordFailure | reset => exact Function.update_of_ne (Ne.symm h) ..

/-- Of the limiter a call looks at the failures of its own origin only. -/
theorem call_failures_congr (hw : l.window = l'.window)
    (h : l.failures c.originKey = l'.failures c.originKey) :
    (l.call c).failures c.originKey = (l'.call c).failures c.originKey := by
  have hrecent (now : ℚ) : l.recent c.originKey now = l'.recent c.originKey now := by
    rw [recent, recent, hw, h]
  cases c with
  | blocked o now =>
    have hkept (l : LoginRateLimiter) : (l.call (.blocked o now)).failures o = l.recent o now :=
      Function.update_self ..
    exact (hkept l).trans ((hrecent now).trans (hkept l').symm)
  | recordFailure o now now' =>
    have hkept (l : LoginRateLimiter) :
        (l.call (.recordFailure o now now')).failures o = l.recent o now ++ [now'] :=
        Function.update_self ..
    exact (hkept l).trans ((congrArg (· ++ [now']) (hrecent now)).trans (hkept l').symm)
  | reset o =>
    have hnone (l : LoginRateLimiter) : (l.call (.reset o)).failures o = [] :=
      Function.update_self ..
    exact (hnone l).trans (hnone l').symm

/-- The limiter counts, at every time from the last reading on, what the history counts. -/
def Counts (l : LoginRateLimiter) (cs : List Call) : Prop :=
  ∀ originKey t, (∀ r ∈ readings cs, r ≤ t) →
    l.recent originKey t = (failuresSince originKey cs).filter fun u => t - l.window < u

/-- What a call prunes is out of every later window. -/
theorem Counts.call (h : l.Counts cs) (c : Call) : (l.call c).Counts (cs ++ [c]) := by
  intro o t ht
  have hread : readings (cs ++ [c]) = readings cs ++ c.readings := by simp [readings]
  rw [hread, List.forall_mem_append] at ht
  rw [call_window]
  by_cases ho : c.originKey = o
  · subst ho
    have hbefore := h c.originKey t ht.1
    cases c with
    | blocked o now =>
      have hsince : failuresSince o (cs ++ [.blocked o now]) = failuresSince o cs ++ [] :=
        failuresSince_concat (c := .blocked o now) rfl
      rw [Call.originKey, hsince, List.append_nil]
      exact (recent_blocked (ht.2 now (.head _))).trans hbefore
    | recordFailure o now now' =>
      rw [failuresSince_concat rfl, List.filter_append, ← hbefore]
      exact recent_recordFailureAt (ht.2 now (.head _))
    | reset o =>
      have hnone : (l.call (.reset o)).failures o = [] := Function.update_self ..
      rw [failuresSince_reset rfl, recent]
      exact congrArg (List.filter _) hnone
  · rw [failuresSince_concat_of_ne ho, ← h o t ht.1, recent, call_failures_of_ne ho,
      call_window, recent]

/-! ## All calls -/

theorem after_concat (l : LoginRateLimiter) (cs : List Call) (c : Call) :
    l.after (cs ++ [c]) = (l.after cs).call c :=
  List.foldl_concat ..

theorem after_window (l : LoginRateLimiter) (cs : List Call) : (l.after cs).window = l.window := by
  induction cs using List.reverseRecOn with
  | nil => rfl
  | append_singleton cs c ih => rw [after_concat, call_window, ih]

theorem after_maxFailures (l : LoginRateLimiter) (cs : List Call) :
    (l.after cs).maxFailures = l.maxFailures := by
  induction cs using List.reverseRecOn with
  | nil => rfl
  | append_singleton cs c ih => rw [after_concat, call_maxFailures, ih]

theorem counts_after (maxFailures : Nat) (window : ℚ) (cs : List Call) :
    (after { maxFailures, window } cs).Counts cs := by
  induction cs using List.reverseRecOn with
  | nil => exact fun _ _ _ => rfl
  | append_singleton cs c ih =>
    rw [after_concat]
    exact ih.call c

/-- The calls for the other origins might as well not have been made. -/
theorem after_callsFor (l : LoginRateLimiter) (originKey : Str) (cs : List Call) :
    (l.after cs).failures originKey = (l.after (callsFor originKey cs)).failures originKey := by
  induction cs using List.reverseRecOn with
  | nil => rfl
  | append_singleton cs c ih =>
    by_cases ho : c.originKey = originKey
    · subst ho
      rw [callsFor_concat, after_concat, after_concat]
      exact call_failures_congr (by rw [after_window, after_window]) ih
    · rw [callsFor_concat_of_ne ho, after_concat, call_failures_of_ne ho, ih]

/-- **The limiter is an exact sliding window.** -/
theorem sliding_window (maxFailures : Nat) (window : ℚ) (cs : List Call) (originKey : Str) (t : ℚ)
    (h : (readings (cs ++ [.blocked originKey t])).Pairwise (· ≤ ·)) :
    let l := after { maxFailures, window } cs
    ((l.blocked originKey t).1 = true ↔
      maxFailures ≤ (failuresSince originKey cs).countP fun u => t - window < u) ∧
    -- what a later call counts has not been forgotten
    (∀ o t', t ≤ t' → l.recent o t' = (failuresSince o cs).filter fun u => t' - window < u) ∧
    -- the other origins
    ∀ o, l.failures o = (after { maxFailures, window } (callsFor o cs)).failures o := by
  intro l
  have hread : readings (cs ++ [.blocked originKey t]) = readings cs ++ [t] := by
    simp [readings, Call.readings]
  rw [hread, List.pairwise_append] at h
  have hlast : ∀ r ∈ readings cs, r ≤ t := fun r hr => h.2.2 r hr t (List.mem_singleton_self t)
  have hkept (o : Str) (t' : ℚ) (ht : t ≤ t') :
      l.recent o t' = (failuresSince o cs).filter fun u => t' - window < u := by
    have hcounts := counts_after maxFailures window cs o t' fun r hr => (hlast r hr).trans ht
    rwa [after_window] at hcounts
  refine ⟨?_, hkept, fun o => after_callsFor _ o cs⟩
  rw [blocked, decide_eq_true_iff, after_maxFailures, hkept originKey t le_rfl,
    List.countP_eq_length_filter]

/-- Three failures of one origin, with a reset of another in between; the window has passed the
first. -/
def threeFailures : List Call :=
  [.recordFailure [1] 0 0, .recordFailure [1] 10 11, .reset [2], .recordFailure [1] 20 20]

theorem sliding_window_three :
    ((after { maxFailures := 2, window := 300 } threeFailures).blocked [1] 300).1 = true ∧
    ((after { maxFailures := 3, window := 300 } threeFailures).blocked [1] 300).1 ≠ true :=
  ⟨(sliding_window 2 300 threeFailures [1] 300 (by decide +kernel)).1.mpr (by decide +kernel),
    (not_congr (sliding_window 3 300 threeFailures [1] 300 (by decide +kernel)).1).mpr
    (by decide +kernel)⟩

end LoginRateLimiter
end EasyModelGate
