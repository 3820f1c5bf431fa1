import Mathlib.Order.Hom.Basic
import EasyModelGate.Verify.Stream

/-! # Every reading of the monotonic clock

The relay lets a synchronous stretch of code read its clock once. Here each call of
`time.monotonic()` and of `loop.time()` is a reading of its own, and the metrics of a row are kept
as they are before `int()` truncates them. -/

namespace EasyModelGate

/-- The metrics of a row, in milliseconds. -/
structure Timing where
  durationMs : ℚ
  queueWaitMs : Option ℚ := none
  upstreamMs : Option ℚ := none
  ttftMs : Option ℚ := none

/-- Code that reads the clock, and how many readings the request has made. -/
def Ticks (α : Type) := Nat → α × Nat

namespace Ticks

instance : Monad Ticks where
  pure a := fun n => (a, n)
  bind x f := fun n => f (x n).1 (x n).2

end Ticks

namespace Timed

/-! ## The readings -/

section
variable (env : RelayEnv) (clock : ℕ →o ℚ)

/-- `time.monotonic()` and `loop.time()`: the next reading of the request. -/
def monotonic : Ticks ℚ := fun n => (clock n, n + 1)

/-- `finish` without a `duration_ms`, which reads the clock itself. -/
def finish (t0 : ℚ) (queueWaitMs upstreamMs : Option ℚ) : Ticks Timing := do
  return { durationMs := ((← monotonic clock) - t0) * 1000, queueWaitMs, upstreamMs }

/-- `forward_chat` up to `await slots.acquire`. -/
def forwardChat (req : ChatRequest) (a : Arrival) (limiter : FixedWindowRpmLimiter) :
    Ticks (Pc × Option Timing) :=
  match readBody req with
  | .error e => return (.done (.raised e), none)
  | .ok body => do
    let t0 ← monotonic clock
    match encodeBody env.json body with
    | .error e => return (.done (.raised (.py e)), none)
    | .ok _ => do
      match (checkLimits env a.auth a.clk limiter).1 with
      | some refusal =>
        return (.done (.raised refusal.error), some (← finish clock t0 (some 0) none))
      | none =>
        let deadline := (← monotonic clock) + env.totalRequest
        match encodeBody env.json (maybeInjectUsage body) with
        | .error e => return (.done (.raised (.py e)), none)
        | .ok payload => do
          let f : Admitted := {
            auth := a.auth
            stream := isStream body
            t0
            deadline
            payload
            headers := buildUpstreamHeaders req.headers env.upstreamApiKey ++
              [(str "Content-Type", str "application/json")]
            record := baseRecord env req a body payload.length }
          let remaining := deadline - (← monotonic clock)
          let qEffective := min env.queueTimeout (max remaining 0)
          let since ← monotonic clock
          -- `wait_for` reads the clock for its own timer
          return (.queueing f since (waitFor { a.clk with mono := ← monotonic clock } qEffective),
            none)

/-- What `send` has brought. -/
def afterSend (h : Holding) (resp : UpstreamResponse) : Ticks (Pc × Option Timing) :=
  if !h.stream then do
    let upstreamMs := ((← monotonic clock) - h.tUp) * 1000
    match parsedContent env resp with
    | .error e => return (.done (.raised (.py e)), none)
    | .ok _ =>
      let row ← finish clock h.t0 (some h.queueWaitMs) (some upstreamMs)
      return (.done (respondedWith resp.status resp.content resp.mediaType), some row)
  else if resp.status ≠ 200 then return (.reading h resp, none)
  else return (.created { h with }, none)

/-- An exception of `send`. -/
def sendFailed (h : Holding) (e : PyExn) : Ticks (Pc × Option Timing) :=
  match sendFailure env e with
  | some (_, err) => return (.done (.raised err), some (← finish clock h.t0 none none))
  | none => return (.done (.raised (.py e)), none)

/-- The body of the `async for`, up to the `yield`. -/
def onChunk (g : Gen) (chunk : Bytes) : Ticks (Pc × Option Timing) :=
  match g.scanner.feed env.json chunk with
  | .error (e, scanner) =>
    return (.finalizing { g with
      scanner } (exceptClauses e).1 (exceptClauses e).2 (← monotonic clock), none)
  | .ok (_, scanner) =>
    if g.ttftMs.isNone ∧ 0 < scanner.dataEvents then
      return (.yielded { g with
        scanner, ttftMs := some (((← monotonic clock) - g.t0) * 1000),
        sent := g.sent + chunk.length } chunk, none)
    else return (.yielded { g with scanner, sent := g.sent + chunk.length } chunk, none)

/-- The loop of `relay_gen` ends with an exception. -/
def fail (g : Gen) (e : PyExn) : Ticks (Pc × Option Timing) := do
  return (.finalizing g (exceptClauses e).1 (exceptClauses e).2 (← monotonic clock), none)

/-- The `finally` after its `aclose`. -/
def finalize (g : Gen) (pending : Option Exn) (tUpEnd : ℚ) : Ticks (Pc × Option Timing) := do
  return (.done (.streamed pending), some {
    durationMs := ((← monotonic clock) - g.t0) * 1000
    queueWaitMs := some g.queueWaitMs
    upstreamMs := if tUpEnd = 0 then none else some ((tUpEnd - g.tUp) * 1000)
    ttftMs := g.ttftMs })

/-- From a suspension to the next one, and the row that is logged on the way. -/
def resume : Pc → Event → Option (Ticks (Pc × Option Timing))
  | .queueing f since _, ev =>
    match ev with
    | .acquired => some do
      let queueWaitMs := ((← monotonic clock) - since) * 1000
      match env.buildRequest f.headers f.payload with
      | .error e => return (.done (.raised (.py e)), none)
      | .ok () =>
        let tUp ← monotonic clock
        let remaining := f.deadline - (← monotonic clock)
        return (.sending { f with
            queueWaitMs, tUp } (waitFor { mono := ← monotonic clock, wall := 0 } remaining), none)
    | .timerFires => some do
      let waitedMs := ((← monotonic clock) - since) * 1000
      return (.done (.raised serverBusy), some (← finish clock f.t0 (some waitedMs) none))
    | .cancelled => some (return (.done (.raised (.py .cancelledError)), none))
    | _ => none
  | .sending h _, ev =>
    match ev with
    | .response resp => some (afterSend env clock h resp)
    | .timerFires => some (sendFailed env clock h .timeoutError)
    | .httpTimeout => some (sendFailed env clock h .httpxTimeout)
    | .httpError => some (sendFailed env clock h .httpxError)
    | .cancelled => some (sendFailed env clock h .cancelledError)
    | _ => none
  | .reading h resp, ev =>
    match ev with
    | .bodyRead content => some (return (.closing h resp content, none))
    | .httpTimeout => some (return (.done (.raised (.py .httpxTimeout)), none))
    | .httpError => some (return (.done (.raised (.py .httpxError)), none))
    | .cancelled => some (return (.done (.raised (.py .cancelledError)), none))
    | _ => none
  | .closing h resp errBody, ev =>
    match ev with
    | .closed => some do
      let upstreamMs := ((← monotonic clock) - h.tUp) * 1000
      let row ← finish clock h.t0 (some h.queueWaitMs) (some upstreamMs)
      return (.done (respondedWith resp.status errBody resp.mediaType), some row)
    | .httpTimeout => some (return (.done (.raised (.py .httpxTimeout)), none))
    | .httpError => some (return (.done (.raised (.py .httpxError)), none))
    | .cancelled => some (return (.done (.raised (.py .cancelledError)), none))
    | _ => none
  | .created g, ev =>
    match ev with
    | .started => some (return (.pulling g, none))
    | .dropped statusSent => some (return (.done (.dropped statusSent), none))
    | _ => none
  | .pulling g, ev =>
    match ev with
    | .chunk chunk => some (onChunk env clock g chunk)
    | .eof => some do return (.finalizing g none none (← monotonic clock), none)
    | .timerFires => some (fail clock g .timeoutError)
    | .httpTimeout => some (fail clock g .httpxTimeout)
    | .httpError => some (fail clock g .httpxError)
    | .cancelled => some (fail clock g .cancelledError)
    | _ => none
  | .yielded g _, ev =>
    match ev with
    | .resumed => some (return (.pulling g, none))
    | .generatorExit | .timerFires => some (fail clock g .generatorExit)
    | .cancelled => some (fail clock g .cancelledError)
    | _ => none
  | .finalizing g _ pending tUpEnd, ev =>
    match ev with
    | .closed | .httpTimeout | .httpError => some (finalize clock g pending tUpEnd)
    | .cancelled => some (return (.done (.streamed (some (.py .cancelledError))), none))
    | _ => none
  | .done _, _ => none

end

/-! ## The metrics fit together -/

end Timed

/-- No metric is negative, and the parts of a request fit into it. -/
structure Timing.Consistent (t : Timing) : Prop where
  durationMs : 0 ≤ t.durationMs
  queueWaitMs : ∀ q ∈ t.queueWaitMs, 0 ≤ q
  upstreamMs : ∀ u ∈ t.upstreamMs, 0 ≤ u
  ttftMs : ∀ x ∈ t.ttftMs, 0 ≤ x
  parts : ∀ q ∈ t.queueWaitMs, ∀ u ∈ t.upstreamMs, q + u ≤ t.durationMs
  queued : ∀ q ∈ t.queueWaitMs, ∀ x ∈ t.ttftMs, q ≤ x
  within : ∀ x ∈ t.ttftMs, x ≤ t.durationMs

/-- Before the last of these chunks was taken, or by it, an event with data other than `[DONE]` was
completed. -/
def CompletedData (chunks : List Bytes) : Prop :=
  ∃ before, before <+: chunks ∧ 0 < SseScanner.completedData before.flatten

/-- A row of a request whose upstream has delivered these chunks. -/
structure Timing.Sound (chunks : List Bytes) (t : Timing) : Prop extends t.Consistent where
  first : t.ttftMs ≠ none → CompletedData chunks

theorem CompletedData.append (h : CompletedData chunks) (later : List Bytes) :
    CompletedData (chunks ++ later) := by
  obtain ⟨before, hbefore, hdata⟩ := h
  exact ⟨before, hbefore.trans (List.prefix_append ..), hdata⟩

namespace Timed

/-- The times that a request with a slot has kept, when it has made `n` readings. -/
structure Held (clock : ℕ →o ℚ) (n : Nat) (h : Holding) : Prop where
  waited : 0 ≤ h.queueWaitMs
  sent : h.t0 * 1000 + h.queueWaitMs ≤ h.tUp * 1000
  past : h.tUp ≤ clock n

/-- The times of a stream that has been delivered these chunks. -/
structure Streamed (clock : ℕ →o ℚ) (n : Nat) (chunks : List Bytes) (g : Gen) : Prop
    extends Held clock n g.toHolding where
  queued : ∀ x ∈ g.ttftMs, g.queueWaitMs ≤ x
  within : ∀ x ∈ g.ttftMs, x ≤ (clock n - g.t0) * 1000
  first : g.ttftMs ≠ none → CompletedData chunks

/-- The scanner has taken the chunks. -/
def Fed (env : RelayEnv) (chunks : List Bytes) (g : Gen) : Prop :=
  ∃ events, SseScanner.feedAll env.json {} chunks = .ok (events, g.scanner)

/-- Where a request is after `n` readings, and after these chunks. -/
inductive TimedAt (env : RelayEnv) (clock : ℕ →o ℚ) (n : Nat) (chunks : List Bytes) : Pc → Prop
  | queueing (hc : chunks = []) (hstart : f.t0 ≤ since) (hpast : since ≤ clock n) :
    TimedAt env clock n chunks (.queueing f since timer)
  | sending (hc : chunks = []) (hh : Held clock n h) : TimedAt env clock n chunks (.sending h timer)
  | reading (hh : Held clock n h) : TimedAt env clock n chunks (.reading h resp)
  | closing (hh : Held clock n h) : TimedAt env clock n chunks (.closing h resp errBody)
  | created (hf : Fed env chunks g) (hs : Streamed clock n chunks g) :
    TimedAt env clock n chunks (.created g)
  | pulling (hf : Fed env chunks g) (hs : Streamed clock n chunks g) :
    TimedAt env clock n chunks (.pulling g)
  | yielded (hf : Fed env chunks g) (hs : Streamed clock n chunks g) :
    TimedAt env clock n chunks (.yielded g chunk)
  | finalizing (hs : Streamed clock n chunks g) (hend : g.tUp ≤ tUpEnd) (hpast : tUpEnd ≤ clock n) :
    TimedAt env clock n chunks (.finalizing g errorType pending tUpEnd)
  | done : TimedAt env clock n chunks (.done o)

/-- A stretch of code keeps the order of the readings, and logs a row that is sound. -/
def Timely (env : RelayEnv) (clock : ℕ →o ℚ) (chunks : List Bytes) (n : Nat)
    (t : Ticks (Pc × Option Timing)) : Prop :=
  TimedAt env clock (t n).2 chunks (t n).1.1 ∧ ∀ row ∈ (t n).1.2, row.Sound chunks

variable {env : RelayEnv} {clock : ℕ →o ℚ} {n : Nat} {chunks : List Bytes} {h : Holding} {g : Gen}

theorem reading_le (clock : ℕ →o ℚ) {n m : Nat} (hnm : n ≤ m) : clock n ≤ clock m :=
  clock.monotone hnm

theorem Held.later {m : Nat} (hh : Held clock n h) (hnm : n ≤ m) : Held clock m h where
  waited := hh.waited
  sent := hh.sent
  past := hh.past.trans (reading_le clock hnm)

theorem Streamed.later {m : Nat} (hs : Streamed clock n chunks g) (hnm : n ≤ m)
    (later : List Bytes) :
    Streamed clock m (chunks ++ later) g where
  toHeld := hs.toHeld.later hnm
  queued := hs.queued
  within x hx := (hs.within x hx).trans (by linarith only [reading_le clock hnm])
  first hx := (hs.first hx).append later

/-! ### The rows -/

/-- A row without the parts of the upstream. -/
theorem sound_finish (t0 : ℚ) (q : Option ℚ) (ht0 : t0 ≤ clock n) (hq : ∀ w ∈ q, 0 ≤ w) :
    ((finish clock t0 q none) n).1.Sound chunks where
  durationMs := by
    change 0 ≤ (clock n - t0) * 1000
    linarith only [ht0]
  queueWaitMs := hq
  upstreamMs := nofun
  ttftMs := nofun
  parts _ _ := nofun
  queued _ _ := nofun
  within := nofun
  first hx := absurd rfl hx

/-- A row of a request that the upstream has answered. -/
theorem Held.sound_finish (hh : Held clock n h) {k : Nat} (hk : n ≤ k) :
    ((finish clock h.t0 (some h.queueWaitMs) (some ((clock n - h.tUp) * 1000))) k).1.Sound
      chunks where
  durationMs := by
    change 0 ≤ (clock k - h.t0) * 1000
    linarith only [hh.waited, hh.sent, hh.past, reading_le clock hk]
  queueWaitMs _ hq := Option.mem_some.mp hq ▸ hh.waited
  upstreamMs _ hu := Option.mem_some.mp hu ▸ by linarith only [hh.past]
  ttftMs := nofun
  parts _ hq _ hu := by
    cases hq
    cases hu
    change h.queueWaitMs + (clock n - h.tUp) * 1000 ≤ (clock k - h.t0) * 1000
    linarith only [hh.sent, reading_le clock hk]
  queued _ _ := nofun
  within := nofun
  first hx := absurd rfl hx

/-- The row of a stream. -/
theorem Streamed.sound_finalize (hs : Streamed clock n chunks g) {pending : Option Exn} {tUpEnd : ℚ}
    (hend : g.tUp ≤ tUpEnd) (hpast : tUpEnd ≤ clock n) :
    Timely env clock chunks n (finalize clock g pending tUpEnd) := by
  refine ⟨.done, ?_⟩
  intro row hrow
  obtain rfl := Option.mem_some.mp hrow
  have hup : ∀ u ∈ (if tUpEnd = 0 then none else some ((tUpEnd - g.tUp) * 1000) : Option ℚ), u =
      (tUpEnd - g.tUp) * 1000 := by
    intro u hu
    split at hu <;> cases hu
    rfl
  constructor
  case first => exact hs.first
  constructor
  case durationMs =>
    change 0 ≤ (clock n - g.t0) * 1000
    linarith only [hs.waited, hs.sent, hend, hpast]
  case queueWaitMs => exact fun q hq => Option.mem_some.mp hq ▸ hs.waited
  case upstreamMs =>
    intro u hu
    rw [hup u hu]
    linarith only [hend]
  case ttftMs => exact fun x hx => hs.waited.trans (hs.queued x hx)
  case parts =>
    intro q hq u hu
    obtain rfl := Option.mem_some.mp hq
    rw [hup u hu]
    change g.queueWaitMs + (tUpEnd - g.tUp) * 1000 ≤ (clock n - g.t0) * 1000
    linarith only [hs.sent, hpast]
  case queued => exact fun q hq x hx => Option.mem_some.mp hq ▸ hs.queued x hx
  case within => exact fun x hx => hs.within x hx

/-! ### One step -/

/-- A stretch that neither reads the clock nor logs. -/
theorem timely_return {pc : Pc} (hat : TimedAt env clock n chunks pc) :
    Timely env clock chunks n (return (pc, none)) := ⟨hat, nofun⟩

theorem timely_fail (hs : Streamed clock n chunks g) (e : PyExn) :
    Timely env clock chunks n (fail clock g e) := by
  have hlater : Streamed clock (n + 1) chunks g := by simpa using hs.later (Nat.le_succ n) []
  exact ⟨.finalizing hlater hs.past (reading_le clock (Nat.le_succ n)), nofun⟩

theorem timely_sendFailed (hh : Held clock n h) (e : PyExn) :
    Timely env clock chunks n (sendFailed env clock h e) := by
  have ht0 : h.t0 ≤ clock n := by linarith only [hh.waited, hh.sent, hh.past]
  unfold sendFailed
  cases sendFailure env e with
  | none => exact timely_return .done
  | some failure =>
    exact ⟨.done, fun row hrow => Option.mem_some.mp hrow ▸ sound_finish h.t0 none ht0 nofun⟩

theorem timely_afterSend (hh : Held clock n h) (resp : UpstreamResponse) :
    Timely env clock [] n (afterSend env clock h resp) := by
  unfold afterSend
  split
  · cases hp : parsedContent env resp with
    | error e => exact ⟨.done, nofun⟩
    | ok parsed =>
      exact ⟨.done, fun row hrow => Option.mem_some.mp hrow ▸ hh.sound_finish (Nat.le_succ n)⟩
  split
  · exact timely_return (.reading hh)
  · exact timely_return (.created ⟨[], rfl⟩
      { hh with queued := nofun, within := nofun, first := fun hx => absurd rfl hx })

/-- A chunk: the first one that completes data sets the time to the first token. -/
theorem timely_onChunk (hf : Fed env chunks g) (hs : Streamed clock n chunks g) (chunk : Bytes) :
    Timely env clock (chunks ++ [chunk]) n (onChunk env clock g chunk) := by
  have hsame : Streamed clock n (chunks ++ [chunk]) g := hs.later le_rfl _
  have hlater : Streamed clock (n + 1) (chunks ++ [chunk]) g := hs.later (Nat.le_succ n) _
  unfold onChunk
  cases hfeed : g.scanner.feed env.json chunk with
  | error es =>
    exact ⟨.finalizing { hlater with } hs.past (reading_le clock (Nat.le_succ n)), nofun⟩
  | ok r =>
    obtain ⟨events, scanner⟩ := r
    obtain ⟨before, hbefore⟩ := hf
    have hall : SseScanner.feedAll env.json {}
        (chunks ++ [chunk]) = .ok (before ++ events, scanner) := by
      rw [SseScanner.feedAll_concat, hbefore]
      simp only [bind, Except.bind, hfeed, pure, Except.pure]
    dsimp only
    split
    · rename_i hfirst
      have hdata : CompletedData (chunks ++ [chunk]) :=
        ⟨_, List.prefix_rfl, (SseScanner.feedAll_counts _ hall).2 ▸ hfirst.2⟩
      refine ⟨.yielded ⟨_, hall⟩
        { hlater.toHeld with queued := ?_, within := ?_, first := fun _ => hdata }, nofun⟩
      · intro x hx
        obtain rfl := Option.mem_some.mp hx
        change g.queueWaitMs ≤ (clock n - g.t0) * 1000
        linarith only [hs.sent, hs.past]
      · intro x hx
        obtain rfl := Option.mem_some.mp hx
        change (clock n - g.t0) * 1000 ≤ (clock (n + 1) - g.t0) * 1000
        linarith only [reading_le clock (Nat.le_succ n)]
    · exact timely_return (.yielded ⟨_, hall⟩ { hsame with })

/-- The slot: `acquire` and `send` follow each other. -/
theorem timely_acquired {f : Admitted} {since : ℚ} (timer : Timer) (hstart : f.t0 ≤ since)
    (hpast : since ≤ clock n) (hr : resume env clock (.queueing f since timer) .acquired = some t) :
    Timely env clock [] n t := by
  obtain rfl := Option.some.inj hr
  cases env.buildRequest f.headers f.payload with
  | error e => exact ⟨.done, nofun⟩
  | ok =>
    have hup : clock n ≤ clock (n + 1) := reading_le clock (Nat.le_succ n)
    have hpast' : clock (n + 1) ≤ clock (n + 4) := reading_le clock (by omega)
    refine ⟨.sending rfl ⟨?_, ?_, hpast'⟩, nofun⟩
    · change 0 ≤ (clock n - since) * 1000
      linarith only [hpast]
    · change f.t0 * 1000 + (clock n - since) * 1000 ≤ clock (n + 1) * 1000
      linarith only [hstart, hup]

theorem timely_busy {f : Admitted} {since : ℚ} (timer : Timer) (hstart : f.t0 ≤ since)
    (hpast : since ≤ clock n)
    (hr : resume env clock (.queueing f since timer) .timerFires = some t) :
    Timely env clock chunks n t := by
  obtain rfl := Option.some.inj hr
  refine ⟨.done, ?_⟩
  intro row hrow
  obtain rfl := Option.mem_some.mp hrow
  have ht0 : f.t0 ≤ clock (n + 1) := hstart.trans (hpast.trans (reading_le clock (Nat.le_succ n)))
  refine sound_finish f.t0 _ ht0 ?_
  intro w hw
  obtain rfl := Option.mem_some.mp hw
  change 0 ≤ (clock n - since) * 1000
  linarith only [hpast]

/-- **One stretch.** -/
theorem TimedAt.step (hat : TimedAt env clock n chunks pc) (hr : resume env clock pc ev = some t) :
    Timely env clock (chunks ++ ev.chunk?.toList) n t := by
  have hquiet (hev : ev.chunk? = none) : chunks ++ ev.chunk?.toList = chunks := by
    rw [hev]; exact List.append_nil _
  cases hat with
  | queueing hc hstart hpast =>
    subst hc
    cases ev <;> simp only [resume, reduceCtorEq, Option.some.injEq] at hr
    case acquired => exact timely_acquired .none hstart hpast (congrArg some hr)
    case timerFires => exact timely_busy .none hstart hpast (congrArg some hr)
    case cancelled => subst hr; exact timely_return .done
  | sending hc hh =>
    subst hc
    cases ev <;> simp only [resume, reduceCtorEq, Option.some.injEq] at hr
    case response resp => subst hr; exact timely_afterSend hh resp
    all_goals subst hr; exact timely_sendFailed hh _
  | reading hh =>
    cases ev <;> simp only [resume, reduceCtorEq, Option.some.injEq] at hr
    case bodyRead => subst hr; exact timely_return (.closing hh)
    all_goals subst hr; exact timely_return .done
  | closing hh =>
    cases ev <;> simp only [resume, reduceCtorEq, Option.some.injEq] at hr
    case closed =>
      subst hr
      exact ⟨.done, fun row hrow => Option.mem_some.mp hrow ▸ hh.sound_finish (Nat.le_succ n)⟩
    all_goals subst hr; exact timely_return .done
  | created hf hs =>
    cases ev <;> simp only [resume, reduceCtorEq, Option.some.injEq] at hr
    case started =>
      subst hr; exact timely_return (.pulling (by rwa [hquiet rfl]) (hs.later le_rfl _))
    case dropped => subst hr; exact timely_return .done
  | pulling hf hs =>
    cases ev <;> simp only [resume, reduceCtorEq, Option.some.injEq] at hr
    case chunk chunk => subst hr; exact timely_onChunk hf hs chunk
    case eof =>
      subst hr
      exact ⟨.finalizing (hs.later (Nat.le_succ n) _) hs.past (reading_le clock (Nat.le_succ n)),
        nofun⟩
    all_goals subst hr; exact timely_fail (hs.later le_rfl _) _
  | yielded hf hs =>
    cases ev <;> simp only [resume, reduceCtorEq, Option.some.injEq] at hr
    case resumed =>
      subst hr; exact timely_return (.pulling (by rwa [hquiet rfl]) (hs.later le_rfl _))
    all_goals subst hr; exact timely_fail (hs.later le_rfl _) _
  | finalizing hs hend hpast =>
    cases ev <;> simp only [resume, reduceCtorEq, Option.some.injEq] at hr
    case cancelled => subst hr; exact timely_return .done
    all_goals subst hr; exact (hs.later le_rfl _).sound_finalize hend hpast
  | done => cases hr

/-! ### A whole request -/

/-- A request on its way: where it is, how many readings it has made, and the rows it has logged. -/
abbrev Progress := Pc × Nat × List Timing

/-- What a stretch that starts after `n` readings makes of a request that has logged `rows`. -/
def Progress.after (t : Ticks (Pc × Option Timing)) (n : Nat) (rows : List Timing) : Progress :=
  ((t n).1.1, (t n).2, rows ++ (t n).1.2.toList)

def step (env : RelayEnv) (clock : ℕ →o ℚ) (s : Progress) (ev : Event) : Option Progress :=
  (resume env clock s.1 ev).map fun t => .after t s.2.1 s.2.2

/-- `forward_chat`, called. -/
def start (env : RelayEnv) (clock : ℕ →o ℚ) (req : ChatRequest) (a : Arrival)
    (limiter : FixedWindowRpmLimiter) : Progress :=
  .after (forwardChat env clock req a limiter) 0 []

/-- What holds of a request after these events. -/
structure OnTime (env : RelayEnv) (clock : ℕ →o ℚ) (evs : List Event) (s : Progress) : Prop where
  position : TimedAt env clock s.2.1 (evs.filterMap Event.chunk?) s.1
  rows : ∀ row ∈ s.2.2, row.Sound (evs.filterMap Event.chunk?)

theorem Timing.Sound.append {row : Timing} (hrow : row.Sound chunks) (later : List Bytes) :
    row.Sound (chunks ++ later) :=
  { hrow with first := fun hx => (hrow.first hx).append later }

theorem OnTime.after {t : Ticks (Pc × Option Timing)} {rows : List Timing}
    (ht : Timely env clock chunks n t) (hrows : ∀ row ∈ rows, row.Sound chunks) :
    ∀ row ∈ (Progress.after t n rows).2.2, row.Sound chunks := by
  intro row hrow
  rcases List.mem_append.mp hrow with hrow | hrow
  · exact hrows row hrow
  · exact ht.2 row (Option.mem_toList.mp hrow)

theorem OnTime.step {evs : List Event} {s s' : Progress} {ev : Event} (hs : OnTime env clock evs s)
    (hstep : step env clock s ev = some s') : OnTime env clock (evs ++ [ev]) s' := by
  obtain ⟨t, hr, rfl⟩ := Option.map_eq_some_iff.mp hstep
  have ht := hs.position.step hr
  have hchunks : (evs ++ [ev]).filterMap Event.chunk? = evs.filterMap Event.chunk? ++
      ev.chunk?.toList := by
    rw [List.filterMap_append]
    cases ev <;> rfl
  constructor
  · rw [hchunks]
    exact ht.1
  · rw [hchunks]
    exact OnTime.after ht fun row hrow => Timing.Sound.append (hs.rows row hrow) _

/-- The admission: four readings before the wait, and one in the row of a refusal. -/
theorem timely_forwardChat (req : ChatRequest) (a : Arrival) (limiter : FixedWindowRpmLimiter) :
    Timely env clock [] n (forwardChat env clock req a limiter) := by
  unfold forwardChat
  cases readBody req with
  | error e => exact timely_return .done
  | ok body =>
    dsimp only
    cases encodeBody env.json body with
    | error e => exact ⟨.done, nofun⟩
    | ok rawInput =>
      dsimp only
      cases (checkLimits env a.auth a.clk limiter).1 with
      | some refusal =>
        refine ⟨.done, fun row hrow => Option.mem_some.mp hrow ▸ ?_⟩
        exact sound_finish (clock n) (some 0) (reading_le clock (Nat.le_succ n)) fun w hw =>
          (Option.mem_some.mp hw).le
      | none =>
        dsimp only
        cases encodeBody env.json (maybeInjectUsage body) with
        | error e => exact ⟨.done, nofun⟩
        | ok payload =>
          have hstart : clock n ≤ clock (n + 3) := reading_le clock (by omega)
          have hpast : clock (n + 3) ≤ clock (n + 5) := reading_le clock (by omega)
          exact ⟨.queueing rfl hstart hpast, nofun⟩

theorem onTime_start (req : ChatRequest) (a : Arrival) (limiter : FixedWindowRpmLimiter) :
    OnTime env clock [] (start env clock req a limiter) where
  position := (timely_forwardChat req a limiter).1
  rows := OnTime.after (timely_forwardChat req a limiter) nofun

/-! ### One reading for each stretch -/

/-- The metrics of a row as they are logged. -/
def columns (row : Timing) : Int × Option Int × Option Int × Option Int :=
  (truncate row.durationMs, row.queueWaitMs.map truncate, row.upstreamMs.map truncate,
    row.ttftMs.map truncate)

/-- The metrics of the row that an effect logs. -/
def loggedColumns : Effect → Option (Int × Option Int × Option Int × Option Int)
  | .persist record _ =>
    some (record.durationMs, record.queueWaitMs, record.upstreamDurationMs, record.ttftMs)
  | .release => none

/-- The stretch ends where the relay does when all its readings are the one of `clk`, and logs the
metrics that the relay logs, truncated. -/
def Refines (t : Ticks (Pc × Option Timing)) (pc : Pc) (effects : List Effect) : Prop :=
  ∀ n, (t n).1.1 = pc ∧ effects.filterMap loggedColumns = ((t n).1.2.map columns).toList

/-- A request has no wait on record before it has waited. -/
def Unwaited (pc : Pc) : Prop := ∀ f ∈ pc.frame?, f.record.queueWaitMs = none

theorem refines_return (pc : Pc) : Refines (return (pc, none)) pc [] := fun _ => ⟨rfl, rfl⟩

/-- **The relay is the case of one reading for each stretch.** -/
theorem refines_resume {clk : Clock} {pc pc' : Pc} {ev : Event} {effects : List Effect}
    (hq : Unwaited pc) (h : EasyModelGate.resume env clk pc ev = some (pc', effects)) :
    ∃ t, resume env (OrderHom.const ℕ clk.mono) pc ev = some t ∧ Refines t pc' effects := by
  cases Resumed.of_resume h with
  | refused hb => exact ⟨_, rfl, fun n => by simp only [bind, hb]; exact ⟨rfl, rfl⟩⟩
  | sent hb => exact ⟨_, rfl, fun n => by simp only [bind, hb]; exact ⟨rfl, rfl⟩⟩
  | busy => exact ⟨_, rfl, fun n => ⟨rfl, rfl⟩⟩
  | queueCancelled => exact ⟨_, rfl, refines_return _⟩
  | whole hs hp =>
    refine ⟨_, rfl, fun n => ?_⟩
    rw [afterSend, if_pos (by rw [hs]; rfl), hp]
    exact ⟨rfl, rfl⟩
  | unreadable hs hp =>
    refine ⟨_, rfl, fun n => ?_⟩
    rw [afterSend, if_pos (by rw [hs]; rfl), hp]
    exact ⟨rfl, rfl⟩
  | errorStatus hs h200 =>
    refine ⟨_, rfl, fun n => ?_⟩
    simp only [afterSend, hs, Bool.not_true, Bool.false_eq_true, if_false, if_pos h200]
    exact ⟨rfl, rfl⟩
  | created hs h200 =>
    refine ⟨_, rfl, fun n => ?_⟩
    simp only [afterSend, hs, Bool.not_true, Bool.false_eq_true, if_false, h200, ne_eq, not_true]
    exact ⟨rfl, rfl⟩
  | sendFailed hev he ha =>
    have hwait := hq _ rfl
    cases ev <;> cases he <;> cases ha <;> refine ⟨_, rfl, fun n => ⟨rfl, ?_⟩⟩ <;>
      simp only [loggedColumns, finishRecord, hwait, sendFailed, List.filterMap_cons] <;> rfl
  | sendCancelled => exact ⟨_, rfl, refines_return _⟩
  | bodyRead => exact ⟨_, rfl, refines_return _⟩
  | readFailed hev he =>
    cases ev <;> cases he <;> first | exact ⟨_, rfl, fun n => ⟨rfl, rfl⟩⟩ | cases hev
  | errorBody => exact ⟨_, rfl, fun n => ⟨rfl, rfl⟩⟩
  | closeFailed hev he =>
    cases ev <;> cases he <;> first | exact ⟨_, rfl, fun n => ⟨rfl, rfl⟩⟩ | cases hev
  | started => exact ⟨_, rfl, refines_return _⟩
  | dropped => exact ⟨_, rfl, refines_return _⟩
  | relayed hf =>
    refine ⟨_, rfl, fun n => ?_⟩
    simp only [onChunk, hf]
    split
    · exact ⟨rfl, rfl⟩
    · exact ⟨rfl, rfl⟩
  | scannerRaised hf =>
    refine ⟨_, rfl, fun n => ?_⟩
    simp only [onChunk, hf]
    exact ⟨rfl, rfl⟩
  | eof => exact ⟨_, rfl, fun n => ⟨rfl, rfl⟩⟩
  | pullFailed hev he =>
    cases ev <;> cases he <;> first | exact ⟨_, rfl, fun n => ⟨rfl, rfl⟩⟩ | exact absurd rfl hev
  | resumed => exact ⟨_, rfl, refines_return _⟩
  | closedAtYield hev => rcases hev with rfl | rfl <;> exact ⟨_, rfl, fun n => ⟨rfl, rfl⟩⟩
  | cancelledAtYield => exact ⟨_, rfl, fun n => ⟨rfl, rfl⟩⟩
  | finalized hev =>
    rcases hev with rfl | rfl | rfl <;> exact ⟨_, rfl, fun n => ⟨rfl, rfl⟩⟩
  | finalizingCancelled => exact ⟨_, rfl, refines_return _⟩

theorem unwaited_done (o : Outcome) : Unwaited (.done o) :=
  fun _ hf => absurd hf (Option.not_mem_none _)

theorem Unwaited.resume {clk : Clock} {pc pc' : Pc} {ev : Event} {effects : List Effect}
    (hq : Unwaited pc) (h : EasyModelGate.resume env clk pc ev = some (pc', effects)) :
    Unwaited pc' := by
  rcases (Resumed.of_resume h).frame with hframe | ⟨o, rfl⟩
  · rwa [Unwaited, hframe]
  · exact unwaited_done o

/-- The admission in the relay, which reads the clock once. -/
theorem refines_forwardChat (req : ChatRequest) (a : Arrival)
    (limiter : FixedWindowRpmLimiter) {pc : Pc} {effects : List Effect}
    (h : (EasyModelGate.forwardChat env req a limiter).1 = (pc, effects)) :
    Refines (forwardChat env (OrderHom.const ℕ a.clk.mono) req a limiter) pc effects ∧
    Unwaited pc := by
  unfold EasyModelGate.forwardChat at h
  unfold forwardChat
  cases hbody : readBody req with
  | error e =>
    rw [hbody] at h
    cases h
    exact ⟨refines_return _, unwaited_done _⟩
  | ok body =>
    cases hraw : encodeBody env.json body with
    | error e =>
      simp only [hbody, hraw, bind, Except.bind, Except.mapError] at h
      cases h
      refine ⟨fun n => ?_, unwaited_done _⟩
      simp only [bind, hraw]
      exact ⟨rfl, rfl⟩
    | ok rawInput =>
      simp only [hbody, hraw, bind, Except.bind, Except.mapError, pure, Except.pure] at h
      rcases hlimits : checkLimits env a.auth a.clk limiter with ⟨_ | refusal, limiter'⟩
      · cases hpayload : encodeBody env.json (maybeInjectUsage body) with
        | error e =>
          simp only [hlimits, hpayload] at h
          cases h
          refine ⟨fun n => ?_, unwaited_done _⟩
          simp only [bind, hraw, hpayload]
          exact ⟨rfl, rfl⟩
        | ok payload =>
          simp only [hlimits, hpayload] at h
          cases h
          refine ⟨fun n => ?_, ?_⟩
          · simp only [bind, hraw, hpayload]
            exact ⟨rfl, rfl⟩
          · intro f hf
            cases hf
            rfl
      · simp only [hlimits] at h
        cases h
        have hduration : truncate ((a.clk.mono - a.clk.mono) * 1000) = 0 := by
          rw [sub_self, zero_mul]
          rfl
        refine ⟨fun n => ?_, unwaited_done _⟩
        simp only [bind, hraw]
        refine ⟨rfl, ?_⟩
        show [((0 : Int), some (0 : Int), none, none)] =
          [(truncate ((a.clk.mono - a.clk.mono) * 1000), some (truncate 0), none, none)]
        rw [hduration]
        rfl

end Timed

/-- **The metrics are consistent.** For every request, every way in which its suspensions end, and
every clock that does not run backwards, no metric of a row that is logged is negative, the waits
and the upstream call fit into the whole, and a time to the first token means that an event with
data was completed. -/
theorem timing_sound (env : RelayEnv) (clock : ℕ →o ℚ) (req : ChatRequest) (a : Arrival)
    (limiter : FixedWindowRpmLimiter) (evs : List Event) (s : Timed.Progress)
    (hrun : Run (Timed.step env clock) (Timed.start env clock req a limiter) evs s) :
    ∀ row ∈ s.2.2, row.Sound (evs.filterMap Event.chunk?) :=
  (hrun.history (fun _ _ _ _ hs hstep => Timed.OnTime.step hs hstep)
    (Timed.onTime_start req a limiter)).rows

namespace Sample

/-- A clock that shows as many seconds as it has been read. -/
def ticking : ℕ →o ℚ where
  toFun n := n
  monotone' _ _ h := Nat.cast_le.mpr h

def timedArrival : Arrival := ⟨0, Auth.context ⟨1, key none⟩ ⟨1, user⟩, clockAt 1⟩

/-- A stream with one event of data, to its end. -/
def timedStream : List Event :=
  [.acquired, .response { status := 200, contentType := none }, .started,
    .chunk (bytes "data: \x7b\x7d\n\n"), .resumed, .eof, .closed]

end Sample

theorem timing_sound_stream : ∃ s row,
    Run (Timed.step Sample.relay Sample.ticking)
      (Timed.start Sample.relay Sample.ticking (Sample.chat true) Sample.timedArrival {})
      Sample.timedStream s ∧ row ∈ s.2.2 ∧ row.ttftMs.isSome ∧
      row.Sound [bytes "data: \x7b\x7d\n\n"] := by
  obtain ⟨s, hrun, hrow⟩ := Run.exists_of_any (p := fun s => s.2.2.any fun row => row.ttftMs.isSome)
    (show ((Sample.timedStream.foldlM (Timed.step Sample.relay Sample.ticking)
      (Timed.start Sample.relay Sample.ticking (Sample.chat true) Sample.timedArrival {})).any
      _) = true by decide +kernel)
  obtain ⟨row, hmem, hsome⟩ := List.any_eq_true.mp hrow
  exact ⟨s, row, hrun, hmem, hsome, timing_sound _ _ _ _ _ _ _ hrun row hmem⟩

/-! ## Giving up on the queue -/

/-- The wait ends with an answer, and a row of that status. -/
def GivesUp (step : Option (Pc × List Effect)) (err : Exn) (status : Nat)
    (errorType : Str) : Prop :=
  ∃ record keyId, step = some (.done (.raised err), [.persist record keyId]) ∧
    record.statusCode = status ∧
    record.errorType = some errorType

/-- The answer to a request that gives up names the limit that was the smaller one. -/
structure NamesLimit (queueTimeout remaining : ℚ) (step : Option (Pc × List Effect)) : Prop where
  busy : GivesUp step serverBusy 503 (str "server_busy") ↔ queueTimeout ≤ remaining
  timedOut : GivesUp step timedOut 504 (str "timeout") ↔ remaining < queueTimeout

theorem givesUp_busy (env : RelayEnv) (f : Admitted) (since : ℚ) (timer : Timer) (clk : Clock) :
    GivesUp (resume env clk (.queueing f since timer) .timerFires) serverBusy 503
      (str "server_busy") :=
  ⟨busyRecord f since clk, some f.auth.apiKeyId, rfl, rfl, rfl⟩

theorem not_givesUp_timedOut (env : RelayEnv) (f : Admitted) (since : ℚ) (timer : Timer)
    (clk : Clock) :
    ¬ GivesUp (resume env clk (.queueing f since timer) .timerFires) timedOut 504
      (str "timeout") := by
  rintro ⟨record, keyId, hstep, -, -⟩
  have hraised : Outcome.raised serverBusy = .raised timedOut :=
    Pc.done.inj (congrArg Prod.fst (Option.some.inj hstep))
  exact absurd (Outcome.raised.inj hraised) (by decide)

theorem namesLimit_iff (env : RelayEnv) (f : Admitted) (since : ℚ) (timer : Timer) (clk : Clock)
    (queueTimeout remaining : ℚ) :
    NamesLimit queueTimeout remaining (resume env clk (.queueing f since timer) .timerFires) ↔
    queueTimeout ≤ remaining := by
  constructor
  · intro h
    exact h.busy.mp (givesUp_busy env f since timer clk)
  · intro h
    exact ⟨iff_of_true (givesUp_busy ..) h,
      iff_of_false (not_givesUp_timedOut env f since timer clk) (not_lt.mpr h)⟩

/-- The wait of a request that `forward_chat` has admitted. -/
theorem Timed.forwardChat_queueing {env : RelayEnv} {clock : ℕ →o ℚ}
    {req : ChatRequest} {a : Arrival} {limiter : FixedWindowRpmLimiter} {f : Admitted} {since : ℚ}
    {timer : Timer} {row : Option Timing} {n m : Nat}
    (h : Timed.forwardChat env clock req a limiter n = ((.queueing f since timer, row), m)) :
    f.deadline = clock (n + 1) + env.totalRequest ∧ since = clock (n + 3) ∧
      timer = waitFor { a.clk with mono := clock (n + 4) }
        (min env.queueTimeout (max (f.deadline - clock (n + 2)) 0)) := by
  unfold Timed.forwardChat at h
  cases hbody : readBody req with
  | error e =>
    rw [hbody] at h
    cases h
  | ok body =>
    rw [hbody] at h
    cases hraw : encodeBody env.json body with
    | error e =>
      simp only [bind, hraw] at h
      cases h
    | ok rawInput =>
      cases hlimits : (checkLimits env a.auth a.clk limiter).1 with
      | some refusal =>
        simp only [bind, hraw, hlimits] at h
        cases h
      | none =>
        cases hpayload : encodeBody env.json (maybeInjectUsage body) with
        | error e =>
          simp only [bind, hraw, hlimits, hpayload] at h
          cases h
        | ok payload =>
          simp only [bind, hraw, hlimits, hpayload] at h
          cases h
          exact ⟨rfl, rfl, rfl⟩

/-- **The reason for giving up.** A request that gives up waiting for a slot is answered and logged
by the limit that was the smaller one exactly when that was `queue_timeout`; no request is answered
with a timeout. -/
theorem queue_giveUp_iff (env : RelayEnv) (clock : ℕ →o ℚ) (req : ChatRequest) (a : Arrival)
    (limiter : FixedWindowRpmLimiter) (f : Admitted) (since : ℚ) (timer : Timer)
    (row : Option Timing) (n : Nat) (clk : Clock)
    (hwait : Timed.forwardChat env clock req a limiter 0 = ((.queueing f since timer, row), n)) :
    (NamesLimit env.queueTimeout (f.deadline - clock 2)
      (resume env clk (.queueing f since timer) .timerFires) ↔
        env.queueTimeout ≤ env.totalRequest - (clock 2 - clock 1)) ∧
      ¬ GivesUp (resume env clk (.queueing f since timer) .timerFires) timedOut 504
          (str "timeout") := by
  obtain ⟨hdeadline, -, -⟩ := Timed.forwardChat_queueing hwait
  have hremaining : f.deadline - clock 2 = env.totalRequest - (clock 2 - clock 1) := by
    rw [hdeadline]
    ring
  rw [hremaining]
  exact ⟨namesLimit_iff .., not_givesUp_timedOut env f since timer clk⟩

namespace Sample

/-- A relay with this deadline for a whole request, whose queue may take 120 seconds. -/
def deadlineOf (totalRequest : ℚ) : RelayEnv := { relay with totalRequest }

def queues (env : RelayEnv) : Bool :=
  match (Timed.forwardChat env ticking (chat true) timedArrival {} 0).1.1 with
  | .queueing .. => true
  | _ => false

theorem exists_queueing {env : RelayEnv} (h : queues env = true) : ∃ f since timer row n,
    Timed.forwardChat env ticking (chat true) timedArrival {} 0 =
      ((.queueing f since timer, row), n) := by
  unfold queues at h
  rcases hstart : Timed.forwardChat env ticking (chat true) timedArrival {} 0 with ⟨⟨pc, row⟩, n⟩
  rw [hstart] at h
  cases pc with
  | queueing f since timer => exact ⟨f, since, timer, row, n, rfl⟩
  | _ => cases h

end Sample

theorem queue_giveUp_iff_busy : ∃ f since timer row n,
    Timed.forwardChat Sample.relay Sample.ticking (Sample.chat true) Sample.timedArrival {} 0 =
      ((.queueing f since timer, row), n) ∧
      NamesLimit 120 (f.deadline - Sample.ticking 2)
        (resume Sample.relay (Sample.clockAt 125) (.queueing f since timer) .timerFires) := by
  obtain ⟨f, since, timer, row, n, hwait⟩ :=
    Sample.exists_queueing (show Sample.queues Sample.relay = true by decide +kernel)
  have hlimit : (120 : ℚ) ≤ 1800 - (Sample.ticking 2 - Sample.ticking 1) := by decide +kernel
  exact ⟨f, since, timer, row, n, hwait,
    (queue_giveUp_iff _ _ _ _ _ _ _ _ _ _ _ hwait).1.mpr hlimit⟩

/-- A request may take 10 seconds and wait 120: it is told that the server is busy when its 10
seconds are over. -/
theorem queue_giveUp_misnamed :
    ¬ ∀ (env : RelayEnv) (clock : ℕ →o ℚ) (req : ChatRequest) (a : Arrival)
    (limiter : FixedWindowRpmLimiter) (f : Admitted) (since : ℚ) (timer : Timer)
    (row : Option Timing) (n : Nat) (clk : Clock),
    Timed.forwardChat env clock req a limiter 0 = ((.queueing f since timer, row), n) →
      NamesLimit env.queueTimeout (f.deadline - clock 2)
        (resume env clk (.queueing f since timer) .timerFires) := by
  intro hall
  obtain ⟨f, since, timer, row, n, hwait⟩ :=
    Sample.exists_queueing (show Sample.queues (Sample.deadlineOf 10) = true by decide +kernel)
  have hlimit := (namesLimit_iff ..).mp (hall _ _ _ _ _ _ _ _ _ _ (Sample.clockAt 14) hwait)
  rw [(Timed.forwardChat_queueing hwait).1] at hlimit
  exact absurd hlimit (by decide +kernel)

end EasyModelGate
