import EasyModelGate.Verify.Transparency

/-! # How a stream ended

`relay_gen` tells the causes of its end apart by the exception that reaches it. A deadline that
expires while the client has not taken a chunk reaches it as the `GeneratorExit` of a client that
has gone. -/

namespace EasyModelGate

/-! ## The property -/

/-- What ends a stream. -/
inductive Cause
  | deadline
  | client
  /-- The upstream has failed. -/
  | upstream
  | eof
  deriving DecidableEq

def Event.cause? : Event → Option Cause
  | .timerFires => some .deadline
  | .cancelled | .generatorExit => some .client
  | .httpTimeout | .httpError => some .upstream
  | .eof => some .eof
  | _ => none

def Event.chunk? : Event → Option Bytes
  | .chunk c => some c
  | _ => none

/-- The first cause among the events of a stream. -/
def firstCause (ls : List (Clock × Event)) : Option Cause := ls.findSome? (·.2.cause?)

/-- The chunks that the upstream delivers, each of which is yielded. -/
def chunksOf (ls : List (Clock × Event)) : List Bytes := ls.filterMap (·.2.chunk?)

/-- The deadline expires at the `yield` of a chunk. -/
def ExpiredAtYield (ls : List (Clock × Event)) : Prop :=
  ∃ clk clk' chunk, [(clk, Event.chunk chunk), (clk', .timerFires)] <:+: ls

def Cause.errorType : Cause → Option Str
  | .deadline => some (str "timeout")
  | .client => some (str "client_disconnected")
  | .upstream => some (str "upstream_interrupted")
  | .eof => none

/-- A row of a stream names the first cause of its end, and counts the bytes of the chunks. -/
structure StreamLogged (ls : List (Clock × Event)) (record : RequestLog Json) : Prop where
  timeout : record.errorType = some (str "timeout") ↔ firstCause ls = some .deadline
  disconnected : record.errorType = some (str "client_disconnected") ↔ firstCause ls = some .client
  interrupted : record.errorType = some (str "upstream_interrupted") ↔
    firstCause ls = some .upstream ∨
    firstCause ls = some .eof ∧ SseScanner.completedDone (chunksOf ls).flatten = false
  none : record.errorType = none ↔
    firstCause ls = some .eof ∧ SseScanner.completedDone (chunksOf ls).flatten = true
  outputBytes : record.outputBytes = ((chunksOf ls).map List.length).sum

/-- One event of a stream, and what has been done to the rest of the gateway so far. -/
def streamStep (env : RelayEnv) (s : Pc × List Effect) (l : Clock × Event) :
    Option (Pc × List Effect) :=
  (resume env l.1 s.1 l.2).map fun r => (r.1, s.2 ++ r.2)

/-! ## Events so far -/

theorem firstCause_concat (ls : List (Clock × Event)) (l : Clock × Event) :
    firstCause (ls ++ [l]) = (firstCause ls).or l.2.cause? := by
  rw [firstCause, List.findSome?_append, List.findSome?_singleton]
  rfl

theorem chunksOf_concat (ls : List (Clock × Event)) (l : Clock × Event) :
    chunksOf (ls ++ [l]) = chunksOf ls ++ l.2.chunk?.toList := by
  unfold chunksOf
  rw [List.filterMap_append]
  obtain ⟨clk, ev⟩ := l
  cases ev <;> rfl

/-- The last event was a chunk. -/
def AtYield (ls : List (Clock × Event)) : Prop :=
  ∃ clk chunk, ls.getLast? = some (clk, .chunk chunk)

theorem atYield_concat (ls : List (Clock × Event)) (clk : Clock) (ev : Event) :
    AtYield (ls ++ [(clk, ev)]) ↔ ∃ chunk, ev = .chunk chunk := by
  unfold AtYield
  rw [List.getLast?_concat]
  constructor
  · rintro ⟨clk', chunk, h⟩
    cases h
    exact ⟨chunk, rfl⟩
  · rintro ⟨chunk, rfl⟩
    exact ⟨clk, chunk, rfl⟩

theorem pair_infix_concat {a b c : α} {xs : List α} :
    [a, b] <:+: xs ++ [c] ↔ [a, b] <:+: xs ∨ xs.getLast? = some a ∧ b = c := by
  rw [List.infix_concat_iff, List.suffix_concat_iff, or_comm]
  apply or_congr_right
  rw [List.getLast?_eq_some_iff]
  constructor
  · rintro (h | ⟨t, h, before, ht⟩)
    · cases h
    · obtain ⟨rfl, rfl⟩ := List.append_singleton_inj.mp (show [a] ++ [b] = t ++ [c] from h)
      exact ⟨⟨before, ht.symm⟩, rfl⟩
  · rintro ⟨⟨before, rfl⟩, rfl⟩
    exact .inr ⟨[a], rfl, before, rfl⟩

theorem expiredAtYield_concat (ls : List (Clock × Event)) (clk : Clock) (ev : Event) :
    ExpiredAtYield (ls ++ [(clk, ev)]) ↔ ExpiredAtYield ls ∨ AtYield ls ∧ ev = .timerFires := by
  unfold ExpiredAtYield AtYield
  simp only [pair_infix_concat]
  constructor
  · rintro ⟨clk₁, clk₂, chunk, h | ⟨hlast, hev⟩⟩
    · exact .inl ⟨clk₁, clk₂, chunk, h⟩
    · cases hev
      exact .inr ⟨⟨clk₁, chunk, hlast⟩, rfl⟩
  · rintro (⟨clk₁, clk₂, chunk, h⟩ | ⟨⟨clk₁, chunk, hlast⟩, rfl⟩)
    · exact ⟨clk₁, clk₂, chunk, .inl h⟩
    · exact ⟨clk₁, clk, chunk, .inr ⟨hlast, rfl⟩⟩

/-! ## One event -/

/-- The loop of `relay_gen` has taken the chunks. -/
structure Fed (env : RelayEnv) (ls : List (Clock × Event)) (g : Gen) : Prop where
  scanner : ∃ events, SseScanner.feedAll env.json {} (chunksOf ls) = .ok (events, g.scanner)
  sent : g.sent = ((chunksOf ls).map List.length).sum

/-- The loop has not ended. -/
structure Open (env : RelayEnv) (ls : List (Clock × Event)) (g : Gen) : Prop where
  fed : Fed env ls g
  going : firstCause ls = none
  unexpired : ¬ ExpiredAtYield ls

/-- The loop has ended with an `error_type`. -/
structure Closed (env : RelayEnv) (ls : List (Clock × Event)) (g : Gen)
    (errorType : Option Str) : Prop where
  fed : Fed env ls g
  ended : ∃ cause, firstCause ls = some cause ∧
    (ExpiredAtYield ls ∧ cause = .deadline ∧ errorType = some (str "client_disconnected") ∨
      ¬ ExpiredAtYield ls ∧ errorType = cause.errorType)

/-- Where a stream is after these events. -/
inductive StreamAt (env : RelayEnv) (h : Holding) (ls : List (Clock × Event)) :
    Pc → List Effect → Prop
  | created (hls : ls = []) : StreamAt env h ls (.created { h with }) []
  | pulling {g} (ho : Open env ls g) (hy : ¬ AtYield ls) : StreamAt env h ls (.pulling g) []
  | yielded {g chunk} (ho : Open env ls g) (hy : AtYield ls) :
    StreamAt env h ls (.yielded g chunk) []
  | finalizing {g errorType pending tUpEnd} (hc : Closed env ls g errorType) :
    StreamAt env h ls (.finalizing g errorType pending tUpEnd) []
  | done {o effects} (hlogged : ∀ record keyId, Effect.persist record keyId ∈ effects →
      ∃ g errorType clk tUpEnd, Closed env ls g errorType ∧
      record = Gen.streamRecord g clk errorType tUpEnd) :
    StreamAt env h ls (.done o) effects

variable {env : RelayEnv} {ls : List (Clock × Event)} {g : Gen} {clk : Clock} {ev : Event}

/-- An event that delivers no chunk. -/
theorem Fed.quiet (h : Fed env ls g) (hev : ev.chunk? = none) : Fed env (ls ++ [(clk, ev)]) g := by
  have hchunks : chunksOf (ls ++ [(clk, ev)]) = chunksOf ls := by
    rw [chunksOf_concat, hev]; exact List.append_nil _
  exact ⟨by rw [hchunks]; exact h.scanner, by rw [hchunks]; exact h.sent⟩

theorem Open.quiet (h : Open env ls g) (hev : ev.chunk? = none) (hcause : ev.cause? = none) :
    Open env (ls ++ [(clk, ev)]) g where
  fed := h.fed.quiet hev
  going := by rw [firstCause_concat, h.going, hcause]; rfl
  unexpired := by
    rw [expiredAtYield_concat]
    rintro (hexpired | ⟨-, rfl⟩)
    · exact h.unexpired hexpired
    · cases hcause

/-- The event that ends the loop while it awaits the upstream, or at the `yield` without a timer. -/
theorem Open.close (h : Open env ls g) {cause : Cause} (hev : ev.chunk? = none)
    (hcause : ev.cause? = some cause) (hy : AtYield ls → ev ≠ .timerFires) {errorType : Option Str}
    (he : errorType = cause.errorType) :
    Closed env (ls ++ [(clk, ev)]) g errorType where
  fed := h.fed.quiet hev
  ended := by
    refine ⟨cause, by rw [firstCause_concat, h.going, hcause]; rfl, .inr ⟨?_, he⟩⟩
    rw [expiredAtYield_concat]
    rintro (hexpired | ⟨hyield, hev⟩)
    · exact h.unexpired hexpired
    · exact hy hyield hev

/-- The deadline at the `yield`. -/
theorem Open.expire (h : Open env ls g) (hy : AtYield ls) :
    Closed env (ls ++ [(clk, .timerFires)]) g (some (str "client_disconnected")) where
  fed := h.fed.quiet rfl
  ended := by
    refine ⟨.deadline, by rw [firstCause_concat, h.going]; rfl, .inl ⟨?_, rfl, rfl⟩⟩
    exact (expiredAtYield_concat ..).mpr (.inr ⟨hy, rfl⟩)

/-- What comes after the end changes nothing. -/
theorem Closed.later (h : Closed env ls g errorType) (hev : ev.chunk? = none)
    (htimer : ev ≠ .timerFires) :
    Closed env (ls ++ [(clk, ev)]) g errorType where
  fed := h.fed.quiet hev
  ended := by
    obtain ⟨cause, hcause, hcases⟩ := h.ended
    have hexpired : ExpiredAtYield (ls ++ [(clk, ev)]) ↔ ExpiredAtYield ls := by
      rw [expiredAtYield_concat]
      exact or_iff_left fun h => htimer h.2
    exact ⟨cause, by rw [firstCause_concat, hcause]; rfl, by rw [hexpired]; exact hcases⟩

/-- A chunk that the scanner takes. -/
theorem Open.chunk (h : Open env ls g) {chunk : Bytes} {events : List Bytes} {scanner : SseScanner}
    (hf : g.scanner.feed env.json chunk = .ok (events, scanner)) (ttftMs : Option ℚ) :
    Open env (ls ++ [(clk, .chunk chunk)])
      { g with scanner, ttftMs, sent := g.sent + chunk.length } where
  fed := by
    have hchunks : chunksOf (ls ++ [(clk, .chunk chunk)]) = chunksOf ls ++ [chunk] :=
      chunksOf_concat ..
    obtain ⟨before, hbefore⟩ := h.fed.scanner
    refine ⟨⟨before ++ events, ?_⟩, ?_⟩
    · rw [hchunks, SseScanner.feedAll_concat, hbefore]
      simp only [bind, Except.bind, hf, pure, Except.pure]
    · rw [hchunks, List.map_append, List.sum_append, ← h.fed.sent, List.map_singleton,
        List.sum_singleton]
  going := by rw [firstCause_concat, h.going]; rfl
  unexpired := by
    rw [expiredAtYield_concat]
    rintro (hexpired | ⟨-, hev⟩)
    · exact h.unexpired hexpired
    · cases hev

/-- The events that can end the loop while it awaits the upstream. -/
theorem Open.fail (h : Open env ls g) (hy : ¬ AtYield ls) {e : PyExn} (hev : ev ≠ .generatorExit)
    (he : ev.exn? = some e) : Closed env (ls ++ [(clk, ev)]) g (exceptClauses e).1 := by
  cases ev <;> cases he
  case generatorExit => exact absurd rfl hev
  all_goals exact h.close rfl rfl (fun hyield => absurd hyield hy) rfl

/-- The client has gone, wherever the loop stands. -/
theorem Open.leave (h : Open env ls g) (hev : ev = .generatorExit ∨ ev = .cancelled) :
    Closed env (ls ++ [(clk, ev)]) g (some (str "client_disconnected")) := by
  have hcause : ev.cause? = some .client := by rcases hev with rfl | rfl <;> rfl
  have htimer : ev ≠ .timerFires := by rcases hev with rfl | rfl <;> nofun
  have hchunk : ev.chunk? = none := by rcases hev with rfl | rfl <;> rfl
  exact h.close hchunk hcause (fun _ => htimer) rfl

/-- A chunk was taken, so the scanner took it. -/
theorem Open.feeds (h : Open env ls g) {chunk : Bytes}
    (hfeed : ∃ r, SseScanner.feedAll env.json {} (chunksOf (ls ++ [(clk, .chunk chunk)])) = .ok r) :
    ∃ r, g.scanner.feed env.json chunk = .ok r := by
  obtain ⟨r, hr⟩ := hfeed
  obtain ⟨events, hevents⟩ := h.fed.scanner
  have hchunks : chunksOf (ls ++ [(clk, .chunk chunk)]) = chunksOf ls ++ [chunk] :=
    chunksOf_concat ..
  rw [hchunks, SseScanner.feedAll_concat, hevents] at hr
  cases hf : g.scanner.feed env.json chunk with
  | error e =>
    simp only [bind, Except.bind, hf] at hr
    cases hr
  | ok r => exact ⟨r, rfl⟩

theorem atYield_of_ne (hev : ∀ chunk, ev ≠ .chunk chunk) : ¬ AtYield (ls ++ [(clk, ev)]) := by
  rw [atYield_concat]
  intro ⟨chunk, h⟩
  exact hev chunk h

/-- **One event of a stream.** -/
theorem StreamAt.step {h : Holding} (hat : StreamAt env h ls pc effects)
    (hfeed : ∃ r, SseScanner.feedAll env.json {} (chunksOf (ls ++ [(clk, ev)])) = .ok r)
    (hr : Resumed env clk pc ev pc' effects') :
    StreamAt env h (ls ++ [(clk, ev)]) pc' (effects ++ effects') := by
  cases hat with
  | created hls =>
    subst hls
    cases hr with
    | started =>
      have hopen : Open env [] { h with } :=
        ⟨⟨⟨[], rfl⟩, rfl⟩, rfl, fun ⟨_, _, _, hmem⟩ => by cases List.infix_nil.mp hmem⟩
      exact .pulling (hopen.quiet rfl rfl) (atYield_of_ne nofun)
    | dropped => exact .done fun _ _ hmem => absurd hmem List.not_mem_nil
  | pulling ho hy =>
    cases hr with
    | relayed hf => exact .yielded (ho.chunk hf _) ((atYield_concat ..).mpr ⟨_, rfl⟩)
    | scannerRaised hf =>
      obtain ⟨r, hok⟩ := ho.feeds hfeed
      rw [hf] at hok
      cases hok
    | eof => exact .finalizing (ho.close rfl rfl (fun hyield => absurd hyield hy) rfl)
    | pullFailed hev he => exact .finalizing (ho.fail hy hev he)
  | yielded ho hy =>
    cases hr with
    | resumed => exact .pulling (ho.quiet rfl rfl) (atYield_of_ne nofun)
    | closedAtYield hev =>
      rcases hev with rfl | rfl
      · exact .finalizing (ho.leave (.inl rfl))
      · exact .finalizing (ho.expire hy)
    | cancelledAtYield => exact .finalizing (ho.leave (.inr rfl))
  | finalizing hc =>
    cases hr with
    | finalized hev =>
      have hlater : ev.chunk? = none ∧ ev ≠ .timerFires := by
        rcases hev with rfl | rfl | rfl <;> exact ⟨rfl, nofun⟩
      refine .done fun record keyId hmem => ?_
      simp only [List.nil_append, List.mem_cons, List.not_mem_nil, or_false, reduceCtorEq] at hmem
      obtain ⟨rfl, -⟩ := Effect.persist.inj hmem
      exact ⟨_, _, _, _, hc.later hlater.1 hlater.2, rfl⟩
    | finalizingCancelled => exact .done fun _ _ hmem => absurd hmem List.not_mem_nil
  | done => cases hr

/-- The scanner has taken what it was fed before. -/
theorem feedAll_ok_of_concat (hfeed : ∃ r, SseScanner.feedAll env.json {}
      (chunksOf (ls ++ [(clk, ev)])) = .ok r) :
    ∃ r, SseScanner.feedAll env.json {} (chunksOf ls) = .ok r := by
  obtain ⟨r, hr⟩ := hfeed
  rw [chunksOf_concat] at hr
  cases hc : ev.chunk? with
  | none =>
    rw [hc] at hr
    exact ⟨r, by rw [← hr]; exact congrArg _ (List.append_nil _).symm⟩
  | some chunk =>
    rw [hc, Option.toList, SseScanner.feedAll_concat] at hr
    cases hf : SseScanner.feedAll env.json {} (chunksOf ls) with
    | error e =>
      rw [hf] at hr
      cases hr
    | ok r => exact ⟨r, rfl⟩

/-- **A whole stream.** -/
theorem StreamAt.run {h : Holding}
    (hrun : Run (streamStep env) (.created { h with }, []) ls (pc, effects))
    (hfeed : ∃ r, SseScanner.feedAll env.json {} (chunksOf ls) = .ok r) :
    StreamAt env h ls pc effects := by
  refine Run.history (I := fun ls s => (∃ r, SseScanner.feedAll env.json {} (chunksOf ls) = .ok r) →
    StreamAt env h ls s.1 s.2) ?_ hrun (fun _ => .created rfl) hfeed
  intro ls ⟨pc, effects⟩ ⟨clk, ev⟩ ⟨pc', effects'⟩ ih hstep hfeed
  obtain ⟨⟨pc₁, effects₁⟩, hresume, heq⟩ := Option.map_eq_some_iff.mp hstep
  cases heq
  exact (ih (feedAll_ok_of_concat hfeed)).step hfeed (.of_resume hresume)

/-! ## The row -/

/-- The `error_type` that the first cause asks for. -/
def loggedError (stream : Bytes) (cause : Cause) : Option Str :=
  if cause = .eof ∧ SseScanner.completedDone stream = false then some (str "upstream_interrupted")
    else cause.errorType

theorem errorTypes_ne : str "timeout" ≠ str "client_disconnected" ∧
    str "timeout" ≠ str "upstream_interrupted" ∧
    str "client_disconnected" ≠ str "upstream_interrupted" := by decide

theorem StreamLogged.of_errorType {record : RequestLog Json} {cause : Cause}
    (hcause : firstCause ls = some cause)
    (herror : record.errorType = loggedError (chunksOf ls).flatten cause)
    (hbytes : record.outputBytes = ((chunksOf ls).map List.length).sum) :
    StreamLogged ls record := by
  obtain ⟨htd, htu, hdu⟩ := errorTypes_ne
  cases cause with
  | eof =>
    cases hsaw : SseScanner.completedDone (chunksOf ls).flatten <;>
      constructor <;> simp [herror, hbytes, loggedError, Cause.errorType, hcause, hsaw,
        htu.symm, hdu.symm]
  | deadline =>
    constructor <;> simp [herror, hbytes, loggedError, Cause.errorType, hcause, htd, htu]
  | client =>
    constructor <;> simp [herror, hbytes, loggedError, Cause.errorType, hcause, htd.symm, hdu]
  | upstream =>
    constructor <;> simp [herror, hbytes, loggedError, Cause.errorType, hcause, htu.symm, hdu.symm]

/-- The row names the first cause unless the deadline came at the `yield`. -/
theorem Closed.logged_iff {errorType : Option Str} (hc : Closed env ls g errorType) (clk : Clock)
    (tUpEnd : ℚ) :
    StreamLogged ls (g.streamRecord clk errorType tUpEnd) ↔ ¬ ExpiredAtYield ls := by
  obtain ⟨cause, hcause, hcases⟩ := hc.ended
  obtain ⟨events, hevents⟩ := hc.fed.scanner
  have hdone : g.scanner.sawDone = SseScanner.completedDone (chunksOf ls).flatten :=
    (SseScanner.feedAll_counts _ hevents).1
  have herror : (g.streamRecord clk errorType tUpEnd).errorType = g.errorType errorType := rfl
  rcases hcases with ⟨hexpired, rfl, rfl⟩ | ⟨hexpired, rfl⟩
  · refine iff_of_false (fun hlogged => ?_) (not_not.mpr hexpired)
    have htimeout := hlogged.timeout.mpr hcause
    exact errorTypes_ne.1 (Option.some.inj htimeout).symm
  · refine iff_of_true (.of_errorType hcause ?_ hc.fed.sent) hexpired
    rw [herror, Gen.errorType, hdone, loggedError]
    cases cause <;> simp [Cause.errorType]

theorem StreamAt.logged_iff {h : Holding} (hat : StreamAt env h ls pc effects)
    {record : RequestLog Json} {keyId : Option Nat}
    (hlogged : Effect.persist record keyId ∈ effects) :
    StreamLogged ls record ↔ ¬ ExpiredAtYield ls := by
  cases hat with
  | done hrow =>
    obtain ⟨g, errorType, clk, tUpEnd, hc, rfl⟩ := hrow record keyId hlogged
    exact hc.logged_iff clk tUpEnd
  | created | pulling | yielded | finalizing => cases hlogged

/-- **Classification.** For every sequence of events of a stream with a scanner that does not raise,
the row names the first cause of the end exactly when no deadline expires at the `yield`. -/
theorem stream_classified_iff (env : RelayEnv) (h : Holding) (ls : List (Clock × Event)) (pc : Pc)
    (effects : List Effect) (record : RequestLog Json) (keyId : Option Nat)
    (hfeed : ∃ r, SseScanner.feedAll env.json {} (chunksOf ls) = .ok r)
    (hrun : Run (streamStep env) (.created { h with }, []) ls (pc, effects))
    (hlogged : Effect.persist record keyId ∈ effects) : StreamLogged ls record ↔
    ¬ ExpiredAtYield ls :=
  (StreamAt.run hrun hfeed).logged_iff hlogged

namespace Sample

/-- A stream that ends. -/
def endedStream : List (Clock × Event) :=
  [(clockAt 3, .started), (clockAt 4, .chunk (bytes "data: [DONE]\n\n")), (clockAt 5, .resumed),
    (clockAt 6, .eof), (clockAt 7, .closed)]

/-- A stream whose deadline expires while the client has not taken the chunk. -/
def expiredStream : List (Clock × Event) :=
  [(clockAt 3, .started), (clockAt 4, .chunk (bytes "data: [DONE]\n\n")),
    (clockAt 1801, .timerFires), (clockAt 1802, .closed)]

def isPersist : Effect → Bool
  | .persist .. => true
  | .release => false

/-- The events are those of a run that logs a row. -/
def logs (ls : List (Clock × Event)) : Bool :=
  (ls.foldlM (streamStep relay) (.created { holding with }, [])).any fun s => s.2.any isPersist

theorem exists_row {ls : List (Clock × Event)} (h : logs ls = true) : ∃ pc effects record keyId,
    Run (streamStep relay) (.created { holding with }, []) ls (pc, effects) ∧
    Effect.persist record keyId ∈ effects := by
  obtain ⟨⟨pc, effects⟩, hrun, heffects⟩ := Run.exists_of_any h
  obtain ⟨effect, hmem, hpersist⟩ := List.any_eq_true.mp heffects
  cases effect with
  | persist record keyId => exact ⟨pc, effects, record, keyId, hrun, hmem⟩
  | release => cases hpersist

theorem feeds_done : ∃ r, SseScanner.feedAll relay.json {} [bytes "data: [DONE]\n\n"] = .ok r := by
  have hok :
      (SseScanner.feedAll relay.json {} [bytes "data: [DONE]\n\n"]).toOption.isSome = true := by
      decide +kernel
  cases hf : SseScanner.feedAll relay.json {} [bytes "data: [DONE]\n\n"] with
  | ok r => exact ⟨r, rfl⟩
  | error e =>
    rw [hf] at hok
    cases hok

end Sample

theorem stream_classified_iff_ended : ∃ pc effects record keyId,
    Run (streamStep Sample.relay) (.created { Sample.holding with }, []) Sample.endedStream
      (pc, effects) ∧
      Effect.persist record keyId ∈ effects ∧ StreamLogged Sample.endedStream record := by
  obtain ⟨pc, effects, record, keyId, hrun, hlogged⟩ := Sample.exists_row
    (show Sample.logs Sample.endedStream = true by decide +kernel)
  refine ⟨pc, effects, record, keyId, hrun, hlogged, ?_⟩
  apply (stream_classified_iff _ _ _ _ _ _ _ Sample.feeds_done hrun hlogged).mpr
  rintro ⟨clk, clk', chunk, before, after, heq⟩
  have hmem : (clk', Event.timerFires) ∈ Sample.endedStream := by rw [← heq]; simp
  simp [Sample.endedStream] at hmem

/-- A deadline that expires while the client does not take a chunk is logged as the client's
leaving. -/
theorem stream_misclassified :
    ¬ ∀ (env : RelayEnv) (h : Holding) (ls : List (Clock × Event)) (pc : Pc)
    (effects : List Effect) (record : RequestLog Json) (keyId : Option Nat),
    (∃ r, SseScanner.feedAll env.json {} (chunksOf ls) = .ok r) →
    Run (streamStep env) (.created { h with }, []) ls (pc, effects) →
    Effect.persist record keyId ∈ effects → StreamLogged ls record := by
  intro hall
  obtain ⟨pc, effects, record, keyId, hrun, hlogged⟩ := Sample.exists_row
    (show Sample.logs Sample.expiredStream = true by decide +kernel)
  have hclassified := hall _ _ _ _ _ _ _ Sample.feeds_done hrun hlogged
  exact ((StreamAt.run hrun Sample.feeds_done).logged_iff hlogged).mp hclassified
    ⟨_, _, _, [(Sample.clockAt 3, .started)], [(Sample.clockAt 1802, .closed)], rfl⟩

end EasyModelGate
