import Mathlib.Data.List.Induction
import Mathlib.Tactic.Linarith
import EasyModelGate.Core.Ratelimit

/-! # What the RPM limiter counts

The one pair that it keeps of a key stands for the whole history of the key: as long as time does
not run backwards, it is the count of the calls in the current window
(`FixedWindowRpmLimiter.Tracks`). -/

namespace EasyModelGate

structure RpmCall where
  keyId : Nat
  limit : Option Int
  t : ℚ

namespace RpmCall

/-- The number of the aligned window of 60 seconds. -/
def window (c : RpmCall) : Int := ⌊c.t / FixedWindowRpmLimiter.windowSeconds⌋

/-- A call of the key that counts in the window. -/
def countsIn (k : Nat) (w : Int) (c : RpmCall) : Bool :=
  c.keyId = k && c.limit.isSome && c.window = w

theorem window_mono {c d : RpmCall} (h : c.t ≤ d.t) : c.window ≤ d.window :=
  Int.floor_mono (div_le_div_of_nonneg_right h (by norm_num [FixedWindowRpmLimiter.windowSeconds]))

end RpmCall

/-- How many calls of the key count in the window. -/
def counted (calls : List RpmCall) (k : Nat) (w : Int) : Nat := calls.countP (RpmCall.countsIn k w)

namespace FixedWindowRpmLimiter

/-- What the calls are answered, one after the other. -/
def answers (l : FixedWindowRpmLimiter) : List RpmCall → List (Bool × Int)
  | [] => []
  | c :: calls => (l.check c.keyId c.limit c.t).1 :: answers (l.check c.keyId c.limit c.t).2 calls

def after (l : FixedWindowRpmLimiter) (calls : List RpmCall) : FixedWindowRpmLimiter :=
  calls.foldl (fun l c => (l.check c.keyId c.limit c.t).2) l

/-- The calls of a key that are allowed in a window. -/
def allowed (calls : List RpmCall) (k : Nat) (w : Int) : Nat :=
  (calls.zip (answers {} calls)).countP fun p => RpmCall.countsIn k w p.1 && p.2.1

/-- What the answers to a sequence of calls should be. -/
structure Counts (calls : List RpmCall) : Prop where
  unlimited : ∀ before c later, calls = before ++ c :: later → c.limit = none → ∃ rest,
    answers {} calls = answers {} before ++ (true, 0) :: rest ∧
    answers {} (before ++ later) = answers {} before ++ rest
  limited : ∀ before c later L, calls = before ++ c :: later → c.limit = some L → ∃ answer,
    (answers {} calls)[before.length]? = some answer ∧
    (answer.1 = true ↔ (counted (before ++ [c]) c.keyId c.window : Int) ≤ L)
  independent : ∀ k, ((calls.zip (answers {} calls)).filter fun p => p.1.keyId = k).map Prod.snd =
    answers {} (calls.filter fun c => c.keyId = k)
  constant : ∀ k w (L : Nat), (∀ c ∈ calls, c.keyId = k → c.window = w → c.limit = some (L : Int)) →
    allowed calls k w = min (counted calls k w) L

/-! ## One call -/

/-- The count of the key in the window. -/
def count (l : FixedWindowRpmLimiter) (k : Nat) (w : Int) : Int :=
  match l.lookup k with
  | some (start, n) => if start = w * windowSeconds then n else 0
  | none => 0

variable {l : FixedWindowRpmLimiter}

theorem lookup_store (k k' : Nat) (entry : Int × Int) :
    (l.store k entry).lookup k' = if k' = k then some entry else l.lookup k' := by
  unfold lookup store
  rw [List.find?_cons]
  by_cases h : k' = k
  · rw [if_pos h, decide_eq_true h.symm]
    rfl
  · rw [if_neg h, decide_eq_false (Ne.symm h), List.find?_filter]
    apply congrArg (Option.map Prod.snd)
    apply congrArg (List.find? · l.counters)
    funext p
    by_cases hp : p.1 = k'
    · simp [hp, h]
    · simp [hp]

/-- The spec of `check` with a limit. -/
theorem check_some (c : RpmCall) {L : Int} (hlimit : c.limit = some L) :
    l.check c.keyId c.limit c.t =
      (if L < l.count c.keyId c.window + 1
        then (false, max 1 (⌊((c.window * windowSeconds + windowSeconds : Int) : ℚ) - c.t⌋ + 1))
          else (true, 0),
      l.store c.keyId (c.window * windowSeconds, l.count c.keyId c.window + 1)) := by
  rw [hlimit]
  unfold check count
  simp only [RpmCall.window]
  rcases l.lookup c.keyId with _ | ⟨start, n⟩
  · simp only [Option.getD_none, ne_eq, not_true_eq_false, if_false]
    split <;> rfl
  · by_cases h : start = ⌊c.t / windowSeconds⌋ * windowSeconds
    · simp only [Option.getD_some, ne_eq, h, not_true_eq_false, if_false, if_true]
      split <;> rfl
    · simp only [Option.getD_some, ne_eq, h, not_false_eq_true, if_true, if_false]
      split <;> rfl

theorem allowed_iff (c : RpmCall) {L : Int} (hlimit : c.limit = some L) :
    (l.check c.keyId c.limit c.t).1.1 = true ↔ l.count c.keyId c.window + 1 ≤ L := by
  rw [check_some c hlimit]
  split
  · rename_i h
    exact iff_of_false Bool.false_ne_true (not_le.mpr h)
  · rename_i h
    exact iff_of_true rfl (not_lt.mp h)

theorem check_none (c : RpmCall) (hlimit : c.limit = none) :
    l.check c.keyId c.limit c.t = ((true, 0), l) := by
  rw [hlimit]
  rfl

theorem count_store (k k' : Nat) (w w' n : Int) :
    (l.store k (w * windowSeconds, n)).count k' w' =
      if k' = k then (if w = w' then n else 0) else l.count k' w' := by
  unfold count
  rw [lookup_store]
  by_cases h : k' = k
  · have hw : w * windowSeconds = w' * windowSeconds ↔ w = w' := by
      unfold windowSeconds
      omega
    simp only [if_pos h, hw]
  · simp only [if_neg h]

/-! ## A history -/

/-- In a window that no earlier call lies after, the count is that of the history. -/
def Tracks (l : FixedWindowRpmLimiter) (calls : List RpmCall) : Prop :=
  ∀ k w, (∀ c ∈ calls, c.window ≤ w) → l.count k w = counted calls k w

theorem counted_concat (calls : List RpmCall) (c : RpmCall) (k : Nat) (w : Int) :
    counted (calls ++ [c]) k w = counted calls k w + if c.countsIn k w then 1 else 0 := by
  rw [counted, counted, List.countP_append, List.countP_singleton]

/-- A later window has no calls yet. -/
theorem counted_later {calls : List RpmCall} {w : Int} (k : Nat) (h : ∀ c ∈ calls, c.window < w) :
    counted calls k w = 0 := by
  apply List.countP_eq_zero.mpr
  intro c hc hcount
  simp only [RpmCall.countsIn, Bool.and_eq_true, decide_eq_true_eq] at hcount
  exact absurd hcount.2 (h c hc).ne

theorem Tracks.step {calls : List RpmCall} {c : RpmCall} (h : l.Tracks calls)
    (hlater : ∀ d ∈ calls, d.t ≤ c.t) :
    (l.check c.keyId c.limit c.t).2.Tracks (calls ++ [c]) := by
  intro k w hw
  have hc : c.window ≤ w := hw c (List.mem_append_right _ (List.mem_singleton_self c))
  have hcalls (d) (hd : d ∈ calls) : d.window ≤ c.window := RpmCall.window_mono (hlater d hd)
  have hold : l.count k w = counted calls k w := h k w fun d hd => (hcalls d hd).trans hc
  rw [counted_concat]
  cases hlimit : c.limit with
  | none =>
    rw [← hlimit, check_none c hlimit, hold, if_neg (by simp [RpmCall.countsIn, hlimit]), add_zero]
  | some L =>
    rw [← hlimit, check_some c hlimit, count_store]
    by_cases hk : k = c.keyId
    · rw [if_pos hk]
      by_cases hcw : c.window = w
      · rw [if_pos hcw, if_pos (by simp [RpmCall.countsIn, hlimit, hk, hcw]), hcw, ← hk, hold]
        rfl
      · have hlt : c.window < w := lt_of_le_of_ne hc hcw
        rw [if_neg hcw, if_neg (by simp [RpmCall.countsIn, hcw]), add_zero,
          counted_later k fun d hd => (hcalls d hd).trans_lt hlt]
        rfl
    · rw [if_neg hk, if_neg (by simp [RpmCall.countsIn, Ne.symm hk]), add_zero, hold]

theorem tracks_after (calls : List RpmCall) (hsorted : calls.Pairwise fun c d => c.t ≤ d.t) :
    (after {} calls).Tracks calls := by
  induction calls using List.reverseRecOn with
  | nil => intro k w _; rfl
  | append_singleton calls c ih =>
    obtain ⟨hcalls, -, hlater⟩ := List.pairwise_append.mp hsorted
    rw [after, List.foldl_append]
    exact (ih hcalls).step fun d hd => hlater d hd c (List.mem_singleton_self c)

theorem answers_append (l : FixedWindowRpmLimiter) (calls later : List RpmCall) :
    l.answers (calls ++ later) = l.answers calls ++ (l.after calls).answers later := by
  induction calls generalizing l with
  | nil => rfl
  | cons c calls ih => exact congrArg _ (ih _)

@[simp] theorem length_answers (l : FixedWindowRpmLimiter) (calls : List RpmCall) :
    (l.answers calls).length = calls.length := by
  induction calls generalizing l with
  | nil => rfl
  | cons c calls ih => exact congrArg _ (ih _)

/-- The answer to a call with a limit. -/
theorem limited_iff {calls : List RpmCall} {c : RpmCall} {L : Int}
    (hsorted : (calls ++ [c]).Pairwise fun c d => c.t ≤ d.t) (hlimit : c.limit = some L) :
    ((after {} calls).check c.keyId c.limit c.t).1.1 = true ↔
      (counted (calls ++ [c]) c.keyId c.window : Int) ≤ L := by
  obtain ⟨hcalls, -, hlater⟩ := List.pairwise_append.mp hsorted
  have hcount := tracks_after calls hcalls c.keyId c.window fun d hd =>
    RpmCall.window_mono (hlater d hd c (List.mem_singleton_self c))
  rw [allowed_iff c hlimit, hcount, counted_concat, if_pos (by simp [RpmCall.countsIn, hlimit])]
  rfl

/-! ## Keys are independent -/

/-- Only the entry of the key matters for an answer. -/
theorem check_congr {l l' : FixedWindowRpmLimiter} (c : RpmCall)
    (h : l.lookup c.keyId = l'.lookup c.keyId) :
    (l.check c.keyId c.limit c.t).1 = (l'.check c.keyId c.limit c.t).1 ∧
      (l.check c.keyId c.limit c.t).2.lookup c.keyId =
        (l'.check c.keyId c.limit c.t).2.lookup c.keyId := by
  cases hlimit : c.limit with
  | none =>
    rw [← hlimit, check_none c hlimit, check_none c hlimit]
    exact ⟨rfl, h⟩
  | some L =>
    have hcount : l.count c.keyId c.window = l'.count c.keyId c.window := by rw [count, count, h]
    rw [← hlimit, check_some c hlimit, check_some c hlimit, hcount]
    exact ⟨rfl, by rw [lookup_store, lookup_store, if_pos rfl, if_pos rfl]⟩

theorem check_other (c : RpmCall) {k : Nat} (h : c.keyId ≠ k) :
    (l.check c.keyId c.limit c.t).2.lookup k = l.lookup k := by
  cases hlimit : c.limit with
  | none => rw [← hlimit, check_none c hlimit]
  | some L => rw [← hlimit, check_some c hlimit, lookup_store, if_neg (Ne.symm h)]

theorem answers_filter (k : Nat) (calls : List RpmCall) (l l' : FixedWindowRpmLimiter)
    (h : l.lookup k = l'.lookup k) :
    ((calls.zip (l.answers calls)).filter fun p => p.1.keyId = k).map Prod.snd =
      l'.answers (calls.filter fun c => c.keyId = k) := by
  induction calls generalizing l l' with
  | nil => rfl
  | cons c calls ih =>
    by_cases hk : c.keyId = k
    · subst hk
      obtain ⟨hanswer, hnext⟩ := check_congr c h
      rw [answers, List.zip_cons_cons, List.filter_cons, List.filter_cons,
        if_pos (decide_eq_true rfl), if_pos (decide_eq_true rfl), List.map_cons, answers,
        ih _ _ hnext, hanswer]
    · rw [answers, List.zip_cons_cons, List.filter_cons, List.filter_cons,
        if_neg (by simpa using hk), if_neg (by simpa using hk), ih _ l']
      rw [check_other c hk, h]

/-! ## A constant limit -/

theorem allowed_concat (calls : List RpmCall) (c : RpmCall) (k : Nat) (w : Int) :
    allowed (calls ++ [c]) k w = allowed calls k w +
      if c.countsIn k w && ((after {} calls).check c.keyId c.limit c.t).1.1 then 1 else 0 := by
  rw [allowed, answers_append, List.zip_append (length_answers _ _).symm,
    List.countP_append, answers, List.zip_cons_cons, List.countP_cons, List.zip_nil_left,
    List.countP_nil, Nat.zero_add]
  rfl

theorem allowed_eq (calls : List RpmCall) (hsorted : calls.Pairwise fun c d => c.t ≤ d.t)
    (k : Nat) (w : Int) (L : Nat) (hconst : ∀ c ∈ calls, c.keyId = k → c.window = w →
      c.limit = some (L : Int)) :
    allowed calls k w = min (counted calls k w) L := by
  induction calls using List.reverseRecOn with
  | nil => exact (Nat.zero_min L).symm
  | append_singleton calls c ih =>
    have hprev := ih (List.pairwise_append.mp hsorted).1 fun d hd =>
      hconst d (List.mem_append_left _ hd)
    rw [allowed_concat, hprev, counted_concat]
    cases hcount : c.countsIn k w with
    | false => simp
    | true =>
      have hc := hcount
      simp only [RpmCall.countsIn, Bool.and_eq_true, decide_eq_true_eq] at hc
      obtain ⟨⟨rfl, -⟩, rfl⟩ := hc
      have hlimit := hconst c (List.mem_append_right _ (List.mem_singleton_self c)) rfl rfl
      have hiff := limited_iff hsorted hlimit
      rw [counted_concat, hcount, if_pos rfl] at hiff
      by_cases hle : counted calls c.keyId c.window + 1 ≤ L
      · rw [hiff.mpr (by exact_mod_cast hle)]
        simp only [Bool.and_self, if_true]
        omega
      · rw [Bool.eq_false_iff.mpr (mt hiff.mp (by exact_mod_cast hle))]
        simp only [Bool.and_false, Bool.false_eq_true, if_false, if_true]
        omega

/-- **The limiter against its history**, for calls at non-decreasing times. -/
theorem counts (calls : List RpmCall) (hsorted : calls.Pairwise fun c d => c.t ≤ d.t) :
    Counts calls where
  unlimited := by
    rintro before c later rfl hlimit
    refine ⟨(after {} before).answers later, ?_, answers_append _ _ _⟩
    rw [answers_append, answers, check_none c hlimit]
  limited := by
    rintro before c later L rfl hlimit
    refine ⟨((after {} before).check c.keyId c.limit c.t).1, ?_, ?_⟩
    · rw [answers_append, answers, List.getElem?_append_right (length_answers _ _).le,
        length_answers, Nat.sub_self, List.getElem?_cons_zero]
    · refine limited_iff (hsorted.sublist ?_) hlimit
      exact List.Sublist.append_left (List.singleton_sublist.mpr List.mem_cons_self) before
  independent k := answers_filter k calls {} {} rfl
  constant k w L hconst := allowed_eq calls hsorted k w L hconst

/-- Two calls below a limit of 1 in one window, and a third in the next. -/
theorem counts_three : Counts [⟨1, some 1, 0⟩, ⟨1, some 1, 59⟩, ⟨1, some 1, 60⟩] :=
  counts _ (by norm_num [List.pairwise_cons])

/-! ## Retry-After -/

/-- What the `Retry-After` of a refused call says: a whole number of seconds of at most one window,
after which the key is let in again if it has not called in between. -/
structure SoundRetry (calls : List RpmCall) (c : RpmCall) (r : Int) : Prop where
  positive : 1 ≤ r
  within : r ≤ windowSeconds
  allowed : ∀ later, (∀ d ∈ later, d.keyId ≠ c.keyId) → ∀ L, 1 ≤ L →
    ((((after {} calls).check c.keyId c.limit c.t).2.after later).check c.keyId (some L)
      (c.t + r)).1.1 = true

theorem lookup_after_other (l : FixedWindowRpmLimiter) {k : Nat} {later : List RpmCall}
    (h : ∀ d ∈ later, d.keyId ≠ k) : (l.after later).lookup k = l.lookup k := by
  induction later generalizing l with
  | nil => rfl
  | cons d later ih =>
    change (after _ later).lookup k = _
    rw [ih _ fun d' hd' => h d' (List.mem_cons_of_mem d hd'),
      check_other d (h d List.mem_cons_self)]

/-- How long the window of a call still lasts. -/
def rest (c : RpmCall) : ℚ := (c.window * windowSeconds + windowSeconds : Int) - c.t

theorem rest_pos (c : RpmCall) : 0 < rest c := by
  have h := Int.lt_floor_add_one (c.t / windowSeconds)
  rw [div_lt_iff₀ (by norm_num [windowSeconds])] at h
  unfold rest RpmCall.window
  push_cast
  linarith

theorem rest_le (c : RpmCall) : rest c ≤ windowSeconds := by
  have h := Int.floor_le (c.t / windowSeconds)
  rw [le_div_iff₀ (by norm_num [windowSeconds])] at h
  unfold rest RpmCall.window
  push_cast
  linarith

/-- A window is whole only at its first instant. -/
theorem rest_eq_iff (c : RpmCall) : rest c = windowSeconds ↔
    c.t = (c.window * windowSeconds : Int) := by
  unfold rest
  push_cast
  constructor <;> intro h <;> linarith

/-- The seconds of a refused call. -/
theorem refused_eq {c : RpmCall} {r : Int} (h : (l.check c.keyId c.limit c.t).1 = (false, r)) :
    r = ⌊rest c⌋ + 1 ∧ ∃ n, (l.check c.keyId c.limit c.t).2.lookup c.keyId =
      some (c.window * windowSeconds, n) := by
  cases hlimit : c.limit with
  | none =>
    rw [check_none c hlimit] at h
    cases h
  | some L =>
    have hfloor : 0 ≤ ⌊rest c⌋ := Int.floor_nonneg.mpr (rest_pos c).le
    rw [← hlimit]
    rw [check_some c hlimit] at h ⊢
    constructor
    · split at h
      · have hr := congrArg Prod.snd h
        change max 1 (⌊rest c⌋ + 1) = r at hr
        omega
      · cases h
    · exact ⟨_, by rw [lookup_store, if_pos rfl]⟩

/-- After the seconds the window is over. -/
theorem window_retry (c : RpmCall) (limit : Option Int) :
    c.window < RpmCall.window ⟨c.keyId, limit, c.t + (⌊rest c⌋ + 1 : Int)⟩ := by
  have hrest := Int.lt_floor_add_one (rest c)
  have hend : ((c.window + 1 : Int) : ℚ) ≤ (c.t + (⌊rest c⌋ + 1 : Int)) / windowSeconds := by
    rw [le_div_iff₀ (by norm_num [windowSeconds])]
    have heq : rest c = c.window * windowSeconds + windowSeconds - c.t := by
      unfold rest
      push_cast
      rfl
    push_cast
    linarith
  exact Int.lt_of_lt_of_le (Int.lt_succ c.window) (Int.le_floor.mpr hend)

/-- A key whose entry is of another window has a fresh count. -/
theorem count_of_lookup {k : Nat} {w w' n : Int} (h : l.lookup k = some (w * windowSeconds, n))
    (hw : w ≠ w') :
    l.count k w' = 0 := by
  unfold count
  rw [h]
  refine if_neg fun heq => hw ?_
  unfold windowSeconds at heq
  omega

/-- **Retry-After is sound except at the first instant of a window.** There it is one second more
than the window. -/
theorem retryAfter_sound_iff (calls : List RpmCall) (c : RpmCall) (r : Int)
    (hrefused : ((after {} calls).check c.keyId c.limit c.t).1 = (false, r)) :
    SoundRetry calls c r ↔ c.t ≠ (c.window * windowSeconds : Int) := by
  obtain ⟨rfl, n, hlookup⟩ := refused_eq hrefused
  constructor
  · intro hsound hstart
    have hwithin := hsound.within
    rw [(rest_eq_iff c).mpr hstart, Int.floor_intCast] at hwithin
    omega
  · intro hstart
    have hlt : rest c < windowSeconds := lt_of_le_of_ne (rest_le c) (mt (rest_eq_iff c).mp hstart)
    refine ⟨?_, ?_, ?_⟩
    · have := Int.floor_nonneg.mpr (rest_pos c).le
      omega
    · have := Int.floor_lt.mpr hlt
      omega
    · intro later hother L hL
      have hkept :=
        (lookup_after_other ((after {} calls).check c.keyId c.limit c.t).2 hother).trans hlookup
      have hcount := count_of_lookup hkept (window_retry c (some L)).ne
      refine (allowed_iff ⟨c.keyId, some L, c.t + (⌊rest c⌋ + 1 : Int)⟩ rfl).mpr ?_
      rw [hcount]
      exact hL

/-- The second call of a key with a limit of 1, ten seconds into a window. -/
theorem retryAfter_sound_iff_second : SoundRetry [⟨1, some 1, 65⟩] ⟨1, some 1, 70⟩ 51 ↔
    (70 : ℚ) ≠ (RpmCall.window ⟨1, some 1, 70⟩ * windowSeconds : Int) :=
  retryAfter_sound_iff _ ⟨1, some 1, 70⟩ 51 (by decide +kernel)

/-- Two calls at the first instant of a window, with a limit of 1: the second is told to wait for 61
seconds. -/
theorem retryAfter_too_long : ¬ ∀ (calls : List RpmCall) (c : RpmCall) (r : Int),
    ((after {} calls).check c.keyId c.limit c.t).1 = (false, r) → SoundRetry calls c r := by
  intro h
  have hwithin := (h [⟨1, some 1, 60⟩] ⟨1, some 1, 60⟩ 61 (by decide +kernel)).within
  exact absurd hwithin (by decide)

end FixedWindowRpmLimiter
end EasyModelGate
