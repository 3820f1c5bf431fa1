import EasyModelGate.Proxy.Relay

/-! # What each stretch of the relay does

One lemma for each synchronous stretch of `forward_chat` and `relay_gen`: where it goes on, and
its effects. The invariants of the requests are derived from these. -/

namespace EasyModelGate

section
variable (env : RelayEnv)

theorem afterAcquire_resume (f : Admitted) (since : ℚ) (clk : Clock) :
    (afterAcquire env f since clk).resume =
      match env.buildRequest f.headers f.payload with
      | .error e => (.done (.raised (.py e)), [.release])
      | .ok () => (.sending { f with queueWaitMs := (clk.mono - since) * 1000, tUp := clk.mono }
          (waitFor clk (f.deadline - clk.mono)), []) := by
  unfold afterAcquire Seg.resume Seg.safetyNet
  simp only [bind, Seg.ofExcept]
  cases env.buildRequest f.headers f.payload <;> rfl

/-- The record of a request that gave up waiting for a slot. -/
def busyRecord (f : Admitted) (since : ℚ) (clk : Clock) : RequestLog Json :=
  finishRecord f clk {
    status := 503, errorType := some (str "server_busy")
    errorMessage := some (str "Upstream busy: slot queue waited " ++
      fmt0 ((clk.mono - since) * 1000) ++ str "ms")
    queueWaitMs := some ((clk.mono - since) * 1000) }

/-- How a failed `send` is answered and logged, when it is: `finish`'s arguments and the error. -/
def sendFailure (e : PyExn) : Option (FinishArgs × Exn) :=
  match e with
  | .timeoutError => some ({
      status := 504, errorType := some (str "timeout")
      errorMessage := some (str "total request timeout (" ++ fmt0 env.totalRequest ++ str "s)") },
      timedOut)
  | .httpxTimeout => some ({
      status := 504, errorType := some (str "timeout")
      errorMessage := some (str "upstream timeout") }, timedOut)
  | .httpxError => some ({
      status := 502, errorType := some (str "connection_error")
      errorMessage := some (str "cannot connect to upstream") }, cannotConnect)
  | _ => none

/-- The record of a complete answer. -/
def wholeRecord (h : Holding) (clk : Clock) (resp : UpstreamResponse)
    (parsed : Option Json × Option Str) : RequestLog Json :=
  finishRecord h.toAdmitted clk {
    status := resp.status, upStatus := some resp.status, outBytes := resp.content.length
    errorType := if isSuccess resp.status then none else some (str "upstream_error")
    errorMessage := if isSuccess resp.status then none else some (upstreamStatus resp.status)
    usage := parsed.1, finishReason := parsed.2
    upstreamMs := some ((clk.mono - h.tUp) * 1000), queueWaitMs := some h.queueWaitMs }

/-- What the branch that does not stream reads from the body. -/
def parsedContent (resp : UpstreamResponse) : Except PyExn (Option Json × Option Str) :=
  if isSuccess resp.status then parseContent env resp.content else .ok (none, none)

/-- The response that goes to the client, unless the media type cannot be encoded. -/
def respondedWith (status : Nat) (content : Bytes) (mediaType : Str) : Outcome :=
  if mediaType.isLatin1 then
    .responded { statusCode := status, body := .raw content mediaType }
  else .raised (.py .unicodeEncodeError)

theorem afterSend_whole {h : Holding} (hs : h.stream = false) (clk : Clock)
    (resp : UpstreamResponse) :
    (afterSend env h clk (.ok resp)).resume =
      match parsedContent env resp with
      | .error e => (.done (.raised (.py e)), [.release])
      | .ok parsed => (.done (respondedWith resp.status resp.content resp.mediaType),
          [.persist (wholeRecord h clk resp parsed) (some h.auth.apiKeyId), .release]) := by
  unfold afterSend Seg.resume Seg.safetyNet parsedContent respondedWith wholeRecord
  simp only [hs, Bool.not_false, if_true, respondWhole, bind, rawResponse]
  cases isSuccess resp.status <;> cases parseContent env resp.content <;>
    cases resp.mediaType.isLatin1 <;> rfl

theorem afterSend_stream {h : Holding} (hs : h.stream = true) (clk : Clock)
    (resp : UpstreamResponse) :
    (afterSend env h clk (.ok resp)).resume =
      if resp.status ≠ 200 then (.reading h resp, []) else (.created { h with }, []) := by
  unfold afterSend Seg.resume Seg.safetyNet
  simp only [hs, Bool.not_true, Bool.false_eq_true, if_false]
  by_cases h200 : resp.status = 200 <;>
    simp only [h200, ne_eq, not_true, not_false_eq_true, if_true,
    if_false] <;> rfl

end

/-- The record of an error status that was to be streamed. -/
def errorBodyRecord (h : Holding) (clk : Clock) (resp : UpstreamResponse) (errBody : Bytes) :
    RequestLog Json :=
  finishRecord h.toAdmitted clk {
    status := resp.status, upStatus := some resp.status, outBytes := errBody.length
    errorType := some (str "upstream_error"), errorMessage := some (upstreamStatus resp.status)
    upstreamMs := some ((clk.mono - h.tUp) * 1000), queueWaitMs := some h.queueWaitMs }

theorem afterErrorBody_resume (h : Holding) (clk : Clock) (resp : UpstreamResponse)
    (errBody : Bytes) :
    (afterErrorBody h clk resp errBody).resume =
      (.done (respondedWith resp.status errBody resp.mediaType),
        [.persist (errorBodyRecord h clk resp errBody) (some h.auth.apiKeyId), .release]) := by
  unfold afterErrorBody Seg.resume Seg.safetyNet respondedWith rawResponse
  cases resp.mediaType.isLatin1 <;> rfl

/-- The record of a stream. -/
def Gen.streamRecord (g : Gen) (clk : Clock) (errorType : Option Str) (tUpEnd : ℚ) :
    RequestLog Json :=
  finishRecord g.toAdmitted clk {
    status := 200, upStatus := some 200, outBytes := g.sent
    errorType := g.errorType errorType
    usage := g.scanner.usage, finishReason := g.scanner.finishReason
    durationMs := some (truncate ((clk.mono - g.t0) * 1000)), ttftMs := g.ttftMs
    upstreamMs := if tUpEnd = 0 then none else some ((tUpEnd - g.tUp) * 1000)
    queueWaitMs := some g.queueWaitMs }

/-! ## Everything a resumption can do -/

/-- The exception that an event throws into the suspended code. -/
def Event.exn? : Event → Option PyExn
  | .timerFires => some .timeoutError
  | .httpTimeout => some .httpxTimeout
  | .httpError => some .httpxError
  | .cancelled => some .cancelledError
  | .generatorExit => some .generatorExit
  | _ => none

/-- The exceptions of `client.send` that have an `except` clause of their own. -/
def Event.isSendFailure : Event → Bool
  | .timerFires | .httpTimeout | .httpError => true
  | _ => false

/-- The events that a body that is being read or closed can fail with. -/
def Event.isReadFailure : Event → Bool
  | .httpTimeout | .httpError | .cancelled => true
  | _ => false

inductive Resumed (env : RelayEnv) (clk : Clock) : Pc → Event → Pc → List Effect → Prop
  | refused (hb : env.buildRequest f.headers f.payload = .error e) :
    Resumed env clk (.queueing f since timer) .acquired (.done (.raised (.py e))) [.release]
  | sent (hb : env.buildRequest f.headers f.payload = .ok ()) :
    Resumed env clk (.queueing f since timer) .acquired
      (.sending { f with queueWaitMs := (clk.mono - since) * 1000, tUp := clk.mono }
        (waitFor clk (f.deadline - clk.mono))) []
  | busy : Resumed env clk (.queueing f since timer) .timerFires (.done (.raised serverBusy))
      [.persist (busyRecord f since clk) (some f.auth.apiKeyId)]
  | queueCancelled : Resumed env clk (.queueing f since timer) .cancelled
      (.done (.raised (.py .cancelledError))) []
  | whole {h : Holding} (hs : h.stream = false) (hp : parsedContent env resp = .ok parsed) :
    Resumed env clk (.sending h timer) (.response resp)
      (.done (respondedWith resp.status resp.content resp.mediaType))
      [.persist (wholeRecord h clk resp parsed) (some h.auth.apiKeyId), .release]
  | unreadable {h : Holding} (hs : h.stream = false) (hp : parsedContent env resp = .error e) :
    Resumed env clk (.sending h timer) (.response resp) (.done (.raised (.py e))) [.release]
  | errorStatus {h : Holding} (hs : h.stream = true) (h200 : resp.status ≠ 200) :
    Resumed env clk (.sending h timer) (.response resp) (.reading h resp) []
  | created {h : Holding} (hs : h.stream = true) (h200 : resp.status = 200) :
    Resumed env clk (.sending h timer) (.response resp) (.created { h with }) []
  | sendFailed (hev : ev.isSendFailure) (he : ev.exn? = some e)
    (ha : sendFailure env e = some (a, err)) :
    Resumed env clk (.sending h timer) ev (.done (.raised err))
      [.persist (finishRecord h.toAdmitted clk a) (some h.auth.apiKeyId), .release]
  | sendCancelled : Resumed env clk (.sending h timer) .cancelled
      (.done (.raised (.py .cancelledError))) [.release]
  | bodyRead : Resumed env clk (.reading h resp) (.bodyRead content) (.closing h resp content) []
  | readFailed (hev : ev.isReadFailure) (he : ev.exn? = some e) :
    Resumed env clk (.reading h resp) ev (.done (.raised (.py e))) [.release]
  | errorBody : Resumed env clk (.closing h resp errBody) .closed
      (.done (respondedWith resp.status errBody resp.mediaType))
      [.persist (errorBodyRecord h clk resp errBody) (some h.auth.apiKeyId), .release]
  | closeFailed (hev : ev.isReadFailure) (he : ev.exn? = some e) :
    Resumed env clk (.closing h resp errBody) ev (.done (.raised (.py e))) [.release]
  | started : Resumed env clk (.created g) .started (.pulling g) []
  | dropped : Resumed env clk (.created g) (.dropped statusSent) (.done (.dropped statusSent)) []
  | relayed (hf : g.scanner.feed env.json chunk = .ok (events, scanner)) :
    Resumed env clk (.pulling g) (.chunk chunk)
      (.yielded { g with
        scanner
        ttftMs := if g.ttftMs.isNone ∧ 0 < scanner.dataEvents then some ((clk.mono - g.t0) * 1000)
          else g.ttftMs
        sent := g.sent + chunk.length } chunk) []
  | scannerRaised (hf : g.scanner.feed env.json chunk = .error (e, scanner)) :
    Resumed env clk (.pulling g) (.chunk chunk) (Gen.fail { g with scanner } clk e) []
  | eof : Resumed env clk (.pulling g) .eof (.finalizing g none none clk.mono) []
  | pullFailed (hev : ev ≠ .generatorExit) (he : ev.exn? = some e) :
    Resumed env clk (.pulling g) ev (g.fail clk e) []
  | resumed : Resumed env clk (.yielded g chunk) .resumed (.pulling g) []
  | closedAtYield (hev : ev = .generatorExit ∨ ev = .timerFires) :
    Resumed env clk (.yielded g chunk) ev (g.fail clk .generatorExit) []
  | cancelledAtYield : Resumed env clk (.yielded g chunk) .cancelled (g.fail clk .cancelledError) []
  | finalized (hev : ev = .closed ∨ ev = .httpTimeout ∨ ev = .httpError) :
    Resumed env clk (.finalizing g errorType pending tUpEnd) ev (.done (.streamed pending))
      [.persist (g.streamRecord clk errorType tUpEnd) (some g.auth.apiKeyId), .release]
  | finalizingCancelled : Resumed env clk (.finalizing g errorType pending tUpEnd) .cancelled
      (.done (.streamed (some (.py .cancelledError)))) []

/-- **The inversion of `resume`.** -/
theorem Resumed.of_resume (h : resume env clk pc ev = some (pc', effects)) :
    Resumed env clk pc ev pc' effects := by
  cases pc with
  | queueing f since timer =>
    cases ev <;> simp only [resume, reduceCtorEq, Option.some.injEq] at h
    case acquired =>
      rw [afterAcquire_resume] at h
      cases hb : env.buildRequest f.headers f.payload <;> rw [hb] at h <;> cases h
      · exact .refused hb
      · exact .sent hb
    case timerFires => cases h; exact .busy
    case cancelled => cases h; exact .queueCancelled
  | sending w timer =>
    cases ev <;> simp only [resume, reduceCtorEq, Option.some.injEq] at h
    case response resp =>
      cases hs : w.stream with
      | false =>
        rw [afterSend_whole env hs] at h
        cases hp : parsedContent env resp <;> rw [hp] at h <;> cases h
        · exact .unreadable hs hp
        · exact .whole hs hp
      | true =>
        rw [afterSend_stream env hs] at h
        split at h <;> cases h
        · exact .errorStatus hs ‹_›
        · exact .created hs (not_not.mp ‹_›)
    case cancelled => cases h; exact .sendCancelled
    all_goals cases h; exact .sendFailed rfl rfl rfl
  | reading w resp =>
    cases ev <;> simp only [resume, reduceCtorEq, Option.some.injEq] at h
    case bodyRead => cases h; exact .bodyRead
    all_goals cases h; exact .readFailed rfl rfl
  | closing w resp errBody =>
    cases ev <;> simp only [resume, reduceCtorEq, Option.some.injEq] at h
    case closed =>
      rw [afterErrorBody_resume] at h
      cases h; exact .errorBody
    all_goals cases h; exact .closeFailed rfl rfl
  | created g =>
    cases ev <;> simp only [resume, reduceCtorEq, Option.some.injEq] at h <;> cases h
    · exact .started
    · exact .dropped
  | pulling g =>
    cases ev <;> simp only [resume, reduceCtorEq, Option.some.injEq] at h
    case chunk chunk =>
      simp only [Gen.onChunk] at h
      split at h <;> cases h
      · exact .scannerRaised ‹_›
      · exact .relayed ‹_›
    case eof => cases h; exact .eof
    all_goals cases h; exact .pullFailed nofun rfl
  | yielded g chunk =>
    cases ev <;> simp only [resume, reduceCtorEq, Option.some.injEq] at h
    case resumed => cases h; exact .resumed
    case cancelled => cases h; exact .cancelledAtYield
    case generatorExit => cases h; exact .closedAtYield (.inl rfl)
    case timerFires => cases h; exact .closedAtYield (.inr rfl)
  | finalizing g errorType pending tUpEnd =>
    cases ev <;> simp only [resume, reduceCtorEq, Option.some.injEq] at h
    case cancelled => cases h; exact .finalizingCancelled
    case closed => cases h; exact .finalized (.inl rfl)
    case httpTimeout => cases h; exact .finalized (.inr (.inl rfl))
    case httpError => cases h; exact .finalized (.inr (.inr rfl))
  | done o => simp only [resume, reduceCtorEq] at h

/-- The frame of a suspended request. -/
def Pc.frame? : Pc → Option Admitted
  | .queueing f _ _ => some f
  | .sending h _ | .reading h _ | .closing h _ _ => some h.toAdmitted
  | .created g | .pulling g | .yielded g _ | .finalizing g _ _ _ => some g.toAdmitted
  | .done _ => none

/-- The frame stays as long as the request lives. -/
theorem Resumed.frame (h : Resumed env clk pc ev pc' effects) :
    pc'.frame? = pc.frame? ∨ ∃ o, pc' = .done o := by
  cases h <;> first | exact .inl rfl | exact .inr ⟨_, rfl⟩

end EasyModelGate
