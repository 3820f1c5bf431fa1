import EasyModelGate.Core.Auth
import EasyModelGate.Core.Ratelimit
import EasyModelGate.Proxy.Headers
import EasyModelGate.Proxy.Sse
import EasyModelGate.Python.Clock

/-! # `proxy/relay.py`: `forward_chat` and `relay_gen`

A request is a state machine. A state is an `await` (or the `yield`) at which the code is
suspended, with the local variables that are still used; an `Event` is how the environment
resolves it; `resume` runs the code from there to the next suspension. What the code does to the
world meanwhile is a list of `Effect`s. -/

namespace EasyModelGate

/-- The configuration, and the code outside the repository that the relay calls. -/
structure RelayEnv where
  json : JsonCodec
  totalRequest : ℚ
  queueTimeout : ℚ
  upstreamApiKey : Option Str := none
  backendId : Option Nat := none
  /-- `upstream.client.build_request`, which may refuse the headers. -/
  buildRequest : Headers → Bytes → Except PyExn Unit
  floatRepr : PyFloat → String

structure ChatRequest where
  headers : Headers
  /-- The result of `await request.json()`. -/
  body : Except PyExn Json
  /-- `request.client.host`, an address and so valid text. -/
  clientHost : Option { host : Str // host.valid = true }

structure UpstreamResponse where
  status : Nat
  contentType : Option Str
  /-- The whole body when the request does not stream. -/
  content : Bytes := []

/-! ## Before the slot -/

private def badRequest (message code : String) : Exn :=
  .api { statusCode := 400, message := str message, code := some (str code) }

def invalidJson : Exn := badRequest "Invalid JSON body" "invalid_json"

/-- `_validate_body`; a body that passes is a `dict`. -/
def validateBody : Json → Except Exn (List (Str × Json))
  | .obj items => do
    match Json.lookup (str "messages") items with
    | some (.arr (m :: ms)) =>
      if !(m :: ms).all Json.isDict then
        throw (badRequest "'messages' must be a non-empty array of objects" "invalid_messages")
    | _ => throw (badRequest "'messages' must be a non-empty array of objects" "invalid_messages")
    match Json.lookup (str "model") items with
    | none | some (.str _) => return items
    | some _ => throw (badRequest "'model' must be a string" "invalid_model")
  | _ => throw (badRequest "Request body must be a JSON object" "invalid_request_body")

/-- `body.get("stream") is True` -/
def isStream (body : List (Str × Json)) : Bool :=
  match Json.lookup (str "stream") body with
  | some (.bool true) => true
  | _ => false

def maybeInjectUsage (body : List (Str × Json)) : List (Str × Json) :=
  if isStream body ∧ (Json.lookup (str "stream_options") body).isNone then
    body ++ [(str "stream_options", .obj [(str "include_usage", .bool true)])]
  else body

/-- `body.get("model")`, which is a string if it is there. -/
def modelOf (body : List (Str × Json)) : Option Str :=
  (Json.lookup (str "model") body).bind Json.asStr?

/-- `json.dumps(body, ensure_ascii=False).encode("utf-8")` -/
def encodeBody (json : JsonCodec) (body : List (Str × Json)) : Except PyExn Bytes := do
  (← json.dumps (.obj body)).encodeUtf8

/-- `request.json()`, its exceptions mapped, and `_validate_body`. -/
def readBody (req : ChatRequest) : Except Exn (List (Str × Json)) :=
  match req.body with
  | .error e => .error (if e.isException then invalidJson else .py e)
  | .ok body => validateBody body

/-- What `forward_chat` is called with, apart from the request. -/
structure Arrival where
  requestId : Uuid
  auth : AuthContext
  clk : Clock

/-- The columns that both log records fill in the same way; the others are `None`. -/
def baseRecord (env : RelayEnv) (req : ChatRequest) (a : Arrival) (body : List (Str × Json))
    (inputBytes : Nat) : RequestLog Json where
  requestId := a.requestId
  userId := a.auth.userId
  apiKeyId := a.auth.apiKeyId
  backendId := env.backendId
  model := modelOf body
  endpoint := str "/v1/chat/completions"
  startedAt := a.clk.nowMs
  finishedAt := a.clk.nowMs
  durationMs := 0
  queueWaitMs := none
  upstreamDurationMs := none
  ttftMs := none
  promptTokens := .null
  completionTokens := .null
  totalTokens := .null
  cachedTokens := .null
  stream := isStream body
  finishReason := none
  statusCode := 0
  upstreamStatusCode := none
  clientIp := req.clientHost.map Subtype.val
  inputBytes
  outputBytes := 0
  errorType := none
  errorMessage := none

/-- What `_enforce_limits` refuses a request for. -/
structure Refusal where
  errorType : Str
  envType : Str
  code : Str
  message : Str
  retryAfter : Option Int

/-- The two checks of `_enforce_limits`. -/
def checkLimits (env : RelayEnv) (auth : AuthContext) (clk : Clock)
    (limiter : FixedWindowRpmLimiter) : Option Refusal × FixedWindowRpmLimiter :=
  let ((allowed, retryAfter), limiter) := limiter.check auth.apiKeyId auth.rpmLimit clk.wall
  if !allowed then
    (some {
      errorType := str "rate_limited", envType := str "rate_limit_error"
      code := str "rate_limit_exceeded"
      message := str "Rate limit exceeded for this key (" ++
        (auth.rpmLimit.map Str.ofInt).getD (str "None") ++ str " requests per minute)."
      retryAfter := some retryAfter }, limiter)
  else if auth.tokenLimit.any auth.tokenUsed.geInt then
    (some {
      errorType := str "quota_exceeded", envType := str "insufficient_quota"
      code := str "insufficient_quota"
      message := str "Token quota exceeded: used " ++ auth.tokenUsed.toStr env.floatRepr ++
        str " >= limit " ++ (auth.tokenLimit.map Str.ofInt).getD (str "None") ++
        str ". This request was rejected."
      retryAfter := none }, limiter)
  else (none, limiter)

/-- The record and the error of a refused request. -/
def Refusal.record (r : Refusal) (base : RequestLog Json) : RequestLog Json :=
  { base with
    queueWaitMs := some 0
    statusCode := 429
    errorType := some r.errorType
    errorMessage := some r.message }

def Refusal.error (r : Refusal) : Exn :=
  .api {
    statusCode := 429, message := r.message, errType := r.envType, code := some r.code
    headers := match r.retryAfter with
      | some n => if n = 0 then [] else [(str "Retry-After", Str.ofInt n)]
      | none => [] }

/-! ## The frames of the suspended code -/

/-- The local variables of a request that passed `_enforce_limits`. -/
structure Admitted where
  auth : AuthContext
  stream : Bool
  t0 : ℚ
  /-- `deadline_loop` -/
  deadline : ℚ
  payload : Bytes
  headers : Headers
  record : RequestLog Json

/-- A request that has acquired its slot, and called the upstream. -/
structure Holding extends Admitted where
  queueWaitMs : ℚ
  tUp : ℚ

/-- `relay_gen`, which closes over a response with status 200. -/
structure Gen extends Holding where
  scanner : SseScanner := {}
  ttftMs : Option ℚ := none
  sent : Nat := 0

/-- A timer of an await or of the scope around it. -/
inductive Timer
  | none
  /-- It fires at this loop time. -/
  | at (t : ℚ)
  /-- It fires without waiting. -/
  | immediate
  deriving DecidableEq

/-- `asyncio.wait_for(…, timeout)` -/
def waitFor (clk : Clock) (timeout : ℚ) : Timer :=
  if timeout ≤ 0 then .immediate else .at (clk.mono + timeout)

/-- How a request ends. -/
inductive Outcome
  /-- `forward_chat` returned a complete response. -/
  | responded (r : Response)
  /-- `forward_chat` raised. -/
  | raised (e : Exn)
  /-- The server dropped the streaming response unread, before or after it sent the status. -/
  | dropped (statusSent : Bool)
  /-- `relay_gen` ended: normally, or with an exception. -/
  | streamed (e : Option Exn)

/-- Where a request is suspended. -/
inductive Pc
  /-- `await slots.acquire(timeout=q_effective)`, since a loop time -/
  | queueing (f : Admitted) (since : ℚ) (timer : Timer)
  /-- `await asyncio.wait_for(upstream.client.send(…), remaining())` -/
  | sending (h : Holding) (timer : Timer)
  /-- `err_body = await resp.aread()` -/
  | reading (h : Holding) (resp : UpstreamResponse)
  /-- `await resp.aclose()` after an error body -/
  | closing (h : Holding) (resp : UpstreamResponse) (errBody : Bytes)
  /-- The `StreamingResponse` is returned, the generator not started. -/
  | created (g : Gen)
  /-- `async for chunk in resp.aiter_bytes()` -/
  | pulling (g : Gen)
  /-- `yield chunk` -/
  | yielded (g : Gen) (chunk : Bytes)
  /-- `await resp.aclose()` in the `finally`, with the exception that passes through it -/
  | finalizing (g : Gen) (errorType : Option Str) (pending : Option Exn) (tUpEnd : ℚ)
  | done (o : Outcome)

/-- How the environment resolves a suspension. -/
inductive Event
  | acquired
  | timerFires
  | cancelled
  | response (resp : UpstreamResponse)
  | httpTimeout
  | httpError
  | bodyRead (content : Bytes)
  | closed
  | started
  | dropped (statusSent : Bool)
  | chunk (chunk : Bytes)
  | eof
  | resumed
  | generatorExit

/-- What the code does to the rest of the gateway. -/
inductive Effect
  /-- `slots.release()` -/
  | release
  /-- `app.state.spawn(persist_request_log(…))` -/
  | persist (record : RequestLog Json) (keyId : Option Nat)

/-! ## Synchronous code -/

/-- The local flag `_released`, and the effects so far. -/
structure Local where
  released : Bool := false
  effects : List Effect := []

/-- A synchronous stretch of `forward_chat`: it returns or raises. -/
def Seg (α : Type) := Local → Except Exn α × Local

namespace Seg

instance : Monad Seg where
  pure a := fun l => (.ok a, l)
  bind x f := fun l =>
    match x l with
    | (.ok a, l) => f a l
    | (.error e, l) => (.error e, l)

def raise (e : Exn) : Seg α := fun l => (.error e, l)

def ofExcept (x : Except PyExn α) : Seg α := fun l => (x.mapError Exn.py, l)

def spawn (record : RequestLog Json) (keyId : Option Nat) : Seg Unit := fun l =>
  (.ok (), { l with effects := l.effects ++ [.persist record keyId] })

/-- `release_slot()`, which is idempotent. -/
def releaseSlot : Seg Unit := fun l =>
  (.ok (), if l.released then l else { released := true, effects := l.effects ++ [.release] })

/-- `except BaseException: release_slot(); raise` -/
def safetyNet (x : Seg α) : Seg α := fun l =>
  match x l with
  | (.ok a, l) => (.ok a, l)
  | (.error e, l) => (.error e, (releaseSlot l).2)

end Seg

/-- The arguments of `finish` with their defaults. -/
structure FinishArgs where
  status : Nat
  upStatus : Option Nat := none
  outBytes : Nat := 0
  errorType : Option Str := none
  errorMessage : Option Str := none
  usage : Option Json := none
  finishReason : Option Str := none
  durationMs : Option Int := none
  ttftMs : Option ℚ := none
  upstreamMs : Option ℚ := none
  queueWaitMs : Option ℚ := none

/-- `u.get(key)` with `u = usage if isinstance(usage, dict) else {}` -/
def usageField (usage : Option Json) (key : Str) : Json :=
  match usage with
  | some (.obj items) => (Json.lookup key items).getD .null
  | _ => .null

def cachedTokens (usage : Option Json) : Json :=
  match usageField usage (str "prompt_tokens_details") with
  | .obj items => (Json.lookup (str "cached_tokens") items).getD .null
  | _ => .null

/-- The record that `finish` hands to `persist_request_log`. -/
def finishRecord (f : Admitted) (clk : Clock) (a : FinishArgs) : RequestLog Json :=
  { f.record with
    finishedAt := clk.nowMs
    durationMs := a.durationMs.getD (truncate ((clk.mono - f.t0) * 1000))
    queueWaitMs := (a.queueWaitMs.map truncate).or f.record.queueWaitMs
    upstreamDurationMs := a.upstreamMs.map truncate
    ttftMs := a.ttftMs.map truncate
    promptTokens := usageField a.usage (str "prompt_tokens")
    completionTokens := usageField a.usage (str "completion_tokens")
    totalTokens := usageField a.usage (str "total_tokens")
    cachedTokens := cachedTokens a.usage
    finishReason := a.finishReason
    statusCode := a.status
    upstreamStatusCode := a.upStatus
    outputBytes := a.outBytes
    errorType := a.errorType
    errorMessage := a.errorMessage }

def finish (f : Admitted) (clk : Clock) (a : FinishArgs) : Seg Unit :=
  Seg.spawn (finishRecord f clk a) (some f.auth.apiKeyId)

/-- An `ApiError` of type `api_error`. -/
def gatewayError (statusCode : Nat) (message code : String) : Exn :=
  .api { statusCode, message := str message, errType := str "api_error", code := some (str code) }

def serverBusy : Exn :=
  gatewayError 503 "Server busy: all upstream slots are occupied" "server_busy"
def timedOut : Exn := gatewayError 504 "Upstream request timed out" "timeout"
def cannotConnect : Exn := gatewayError 502 "Failed to connect to upstream" "connection_error"

/-- `f"{x:.0f}"` -/
def fmt0 (x : ℚ) : Str := Str.ofInt (PyFloat.roundHalfEven x)

/-- `Response(content=…, status_code=…, media_type=content_type)`: the header is encoded as
Latin-1. -/
def rawResponse (status : Nat) (content : Bytes) (contentType : Str) : Seg Response :=
  if contentType.isLatin1 then
    pure { statusCode := status, body := .raw content contentType }
  else .raise (.py .unicodeEncodeError)

/-- What the code goes on to after a stretch that did not raise. -/
inductive Next
  | suspend (pc : Pc)
  | respond (r : Response)

def Next.pc : Next → Pc
  | .suspend pc => pc
  | .respond r => .done (.responded r)

/-- A stretch of `forward_chat` that holds a slot which it has not released. -/
def Seg.resume (x : Seg Next) : Pc × List Effect :=
  match x {} with
  | (.ok next, l) => (next.pc, l.effects)
  | (.error e, l) => (.done (.raised e), l.effects)

section
variable (env : RelayEnv)

/-! ### Admission -/

/-- `forward_chat` up to `await slots.acquire`. -/
def forwardChat (req : ChatRequest) (a : Arrival) (limiter : FixedWindowRpmLimiter) :
    (Pc × List Effect) × FixedWindowRpmLimiter :=
  let read : Except Exn (List (Str × Json) × Bytes) := do
    let body ← readBody req
    let raw ← (encodeBody env.json body).mapError Exn.py
    return (body, raw)
  match read with
  | .error e => ((.done (.raised e), []), limiter)
  | .ok (body, rawInput) =>
    match checkLimits env a.auth a.clk limiter with
    | (some refusal, limiter) =>
      let record := refusal.record (baseRecord env req a body rawInput.length)
      ((.done (.raised refusal.error), [.persist record none]), limiter)
    | (none, limiter) =>
      match encodeBody env.json (maybeInjectUsage body) with
      | .error e => ((.done (.raised (.py e)), []), limiter)
      | .ok payload =>
        let f : Admitted := {
          auth := a.auth
          stream := isStream body
          t0 := a.clk.mono
          deadline := a.clk.mono + env.totalRequest
          payload
          headers := buildUpstreamHeaders req.headers env.upstreamApiKey ++
            [(str "Content-Type", str "application/json")]
          record := baseRecord env req a body payload.length }
        let remaining := f.deadline - a.clk.mono
        let qEffective := min env.queueTimeout (max remaining 0)
        ((.queueing f a.clk.mono (waitFor a.clk qEffective), []), limiter)

/-! ### The slot -/

/-- `slots.acquire` gave up: it turns the `TimeoutError` of its `wait_for` into its own. -/
def slotsAcquireTimeout (since : ℚ) (clk : Clock) : Exn :=
  .slotQueueTimeout ((clk.mono - since) * 1000)

/-- The `except` clauses around `slots.acquire`. -/
def queueFailed (f : Admitted) (clk : Clock) (e : Exn) : Seg Next :=
  match e with
  | .slotQueueTimeout waitedMs => do
    finish f clk {
      status := 503, errorType := some (str "server_busy")
      errorMessage := some (str "Upstream busy: slot queue waited " ++ fmt0 waitedMs ++ str "ms")
      queueWaitMs := some waitedMs }
    .raise serverBusy
  | .py .timeoutError => do
    finish f clk {
      status := 504, errorType := some (str "timeout")
      errorMessage := some (str "total request timeout while queued") }
    .raise timedOut
  | e => .raise e

/-- From the acquired slot to `await … send(…)`. -/
def afterAcquire (f : Admitted) (since : ℚ) (clk : Clock) : Seg Next := .safetyNet do
  .ofExcept (env.buildRequest f.headers f.payload)
  return .suspend (.sending
    { f with queueWaitMs := (clk.mono - since) * 1000, tUp := clk.mono }
    (waitFor clk (f.deadline - clk.mono)))

/-! ### The upstream's answer -/

/-- The `except` clauses around `send`. -/
def sendFailed (h : Holding) (clk : Clock) (e : PyExn) : Seg Next :=
  match e with
  | .timeoutError => do
    finish h.toAdmitted clk {
      status := 504, errorType := some (str "timeout")
      errorMessage := some (str "total request timeout (" ++ fmt0 env.totalRequest ++ str "s)") }
    .releaseSlot
    .raise timedOut
  | .httpxTimeout => do
    finish h.toAdmitted clk {
      status := 504, errorType := some (str "timeout")
      errorMessage := some (str "upstream timeout") }
    .releaseSlot
    .raise timedOut
  | .httpxError => do
    finish h.toAdmitted clk {
      status := 502, errorType := some (str "connection_error")
      errorMessage := some (str "cannot connect to upstream") }
    .releaseSlot
    .raise cannotConnect
  | e => .raise (.py e)

/-- The `try` around `json.loads(content)`: the usage and the finish reason. Only a `ValueError`
is caught. -/
def parseContent (content : Bytes) : Except PyExn (Option Json × Option Str) :=
  match env.json.loads content with
  | .error .valueError => .ok (none, none)
  | .error e => .error e
  | .ok obj => do
    let usage ← obj.get (str "usage")
    let fr ← firstFinishReason obj
    return (if usage.isDict then some usage else none, fr.asStr?)

/-- `200 <= status < 400` -/
def isSuccess (status : Nat) : Bool := 200 ≤ status ∧ status < 400

def upstreamStatus (status : Nat) : Str := str "upstream status " ++ Str.ofInt status

/-- The branch that does not stream. -/
def respondWhole (h : Holding) (clk : Clock) (resp : UpstreamResponse) (contentType : Str) :
    Seg Next := do
  let upstreamMs := (clk.mono - h.tUp) * 1000
  let ok := isSuccess resp.status
  let (usage, finishReason) ←
    if ok then Seg.ofExcept (parseContent env resp.content) else pure (none, none)
  finish h.toAdmitted clk {
    status := resp.status, upStatus := some resp.status, outBytes := resp.content.length
    errorType := if ok then none else some (str "upstream_error")
    errorMessage := if ok then none else some (upstreamStatus resp.status)
    usage, finishReason, upstreamMs := some upstreamMs, queueWaitMs := some h.queueWaitMs }
  .releaseSlot
  return .respond (← rawResponse resp.status resp.content contentType)

/-- `resp.headers.get("content-type", "application/json")` -/
def UpstreamResponse.mediaType (resp : UpstreamResponse) : Str :=
  resp.contentType.getD (str "application/json")

/-- From `send` to the next suspension. -/
def afterSend (h : Holding) (clk : Clock) (r : Except PyExn UpstreamResponse) : Seg Next :=
  .safetyNet <| match r with
  | .error e => sendFailed env h clk e
  | .ok resp =>
    if !h.stream then respondWhole env h clk resp resp.mediaType
    else if resp.status ≠ 200 then pure (.suspend (.reading h resp))
    else pure (.suspend (.created { h with }))

/-- The rest of the branch of a stream with an error status. -/
def afterErrorBody (h : Holding) (clk : Clock) (resp : UpstreamResponse) (errBody : Bytes) :
    Seg Next := .safetyNet do
  finish h.toAdmitted clk {
    status := resp.status, upStatus := some resp.status, outBytes := errBody.length
    errorType := some (str "upstream_error"), errorMessage := some (upstreamStatus resp.status)
    upstreamMs := some ((clk.mono - h.tUp) * 1000), queueWaitMs := some h.queueWaitMs }
  .releaseSlot
  return .respond (← rawResponse resp.status errBody resp.mediaType)

/-- An exception at `aread` or `aclose`, outside any inner `try`. -/
def unguarded (e : PyExn) : Seg Next := .safetyNet (.raise (.py e))

/-! ### `relay_gen` -/

/-- The `except` clauses of `relay_gen`: `error_type`, and the exception that goes on. -/
def exceptClauses : PyExn → Option Str × Option Exn
  | .timeoutError => (some (str "timeout"), none)
  | .cancelledError => (some (str "client_disconnected"), some (.py .cancelledError))
  | .generatorExit => (some (str "client_disconnected"), some (.py .generatorExit))
  | .httpxTimeout => (some (str "upstream_interrupted"), some (.py .httpxTimeout))
  | .httpxError => (some (str "upstream_interrupted"), some (.py .httpxError))
  | e => (none, some (.py e))

/-- Into the `finally`, after an exception in the loop. -/
def Gen.fail (g : Gen) (clk : Clock) (e : PyExn) : Pc :=
  .finalizing g (exceptClauses e).1 (exceptClauses e).2 clk.mono

/-- The body of the `async for`, up to the `yield`. -/
def Gen.onChunk (g : Gen) (clk : Clock) (chunk : Bytes) : Pc :=
  match g.scanner.feed env.json chunk with
  | .error (e, scanner) => { g with scanner }.fail clk e
  | .ok (_, scanner) =>
    .yielded { g with
      scanner
      ttftMs := if g.ttftMs.isNone ∧ 0 < scanner.dataEvents then some ((clk.mono - g.t0) * 1000)
        else g.ttftMs
      sent := g.sent + chunk.length } chunk

/-- The `error_type` that the `finally` logs. -/
def Gen.errorType (g : Gen) (errorType : Option Str) : Option Str :=
  if errorType.isNone ∧ !g.scanner.sawDone then some (str "upstream_interrupted") else errorType

/-- The `finally` after its `aclose`. -/
def Gen.finalize (g : Gen) (clk : Clock) (errorType : Option Str) (tUpEnd : ℚ) : Seg Unit := do
  finish g.toAdmitted clk {
    status := 200, upStatus := some 200, outBytes := g.sent
    errorType := g.errorType errorType
    usage := g.scanner.usage, finishReason := g.scanner.finishReason
    durationMs := some (truncate ((clk.mono - g.t0) * 1000)), ttftMs := g.ttftMs
    -- `if t_up_end`: a clock that shows 0 is taken for no reading
    upstreamMs := if tUpEnd = 0 then none else some ((tUpEnd - g.tUp) * 1000)
    queueWaitMs := some g.queueWaitMs }
  .releaseSlot

/-! ### One step -/

/-- From a suspension to the next one; `none` when the event cannot resolve it. -/
def resume (clk : Clock) : Pc → Event → Option (Pc × List Effect)
  | .queueing f since _, ev =>
    match ev with
    | .acquired => some (afterAcquire env f since clk).resume
    | .timerFires => some (queueFailed f clk (slotsAcquireTimeout since clk)).resume
    | .cancelled => some (queueFailed f clk (.py .cancelledError)).resume
    | _ => none
  | .sending h _, ev =>
    match ev with
    | .response resp => some (afterSend env h clk (.ok resp)).resume
    | .timerFires => some (afterSend env h clk (.error .timeoutError)).resume
    | .httpTimeout => some (afterSend env h clk (.error .httpxTimeout)).resume
    | .httpError => some (afterSend env h clk (.error .httpxError)).resume
    | .cancelled => some (afterSend env h clk (.error .cancelledError)).resume
    | _ => none
  | .reading h resp, ev =>
    match ev with
    | .bodyRead content => some (.closing h resp content, [])
    | .httpTimeout => some (unguarded .httpxTimeout).resume
    | .httpError => some (unguarded .httpxError).resume
    | .cancelled => some (unguarded .cancelledError).resume
    | _ => none
  | .closing h resp errBody, ev =>
    match ev with
    | .closed => some (afterErrorBody h clk resp errBody).resume
    | .httpTimeout => some (unguarded .httpxTimeout).resume
    | .httpError => some (unguarded .httpxError).resume
    | .cancelled => some (unguarded .cancelledError).resume
    | _ => none
  | .created g, ev =>
    match ev with
    | .started => some (.pulling g, [])
    -- a generator that never started runs nothing, not even its `finally`
    | .dropped statusSent => some (.done (.dropped statusSent), [])
    | _ => none
  | .pulling g, ev =>
    match ev with
    | .chunk chunk => some (g.onChunk env clk chunk, [])
    | .eof => some (.finalizing g none none clk.mono, [])
    | .timerFires => some (g.fail clk .timeoutError, [])
    | .httpTimeout => some (g.fail clk .httpxTimeout, [])
    | .httpError => some (g.fail clk .httpxError, [])
    | .cancelled => some (g.fail clk .cancelledError, [])
    | _ => none
  | .yielded g _, ev =>
    match ev with
    | .resumed => some (.pulling g, [])
    | .generatorExit => some (g.fail clk .generatorExit, [])
    -- the timer cancels the task that drives the generator, which is then closed
    | .timerFires => some (g.fail clk .generatorExit, [])
    | .cancelled => some (g.fail clk .cancelledError, [])
    | _ => none
  | .finalizing g errorType pending tUpEnd, ev =>
    match ev with
    -- `except Exception` around `aclose`
    | .closed | .httpTimeout | .httpError =>
      some (.done (.streamed pending), (g.finalize clk errorType tUpEnd {}).2.effects)
    -- a cancellation is no `Exception`: it leaves the `finally` before `finish`
    | .cancelled => some (.done (.streamed (some (.py .cancelledError))), [])
    | _ => none
  | .done _, _ => none

end

/-! ## What a state means -/

/-- The timer over a suspension: of its own `wait_for`, or of the `timeout_at` around it. -/
def Pc.timer : Pc → Timer
  | .queueing _ _ timer | .sending _ timer => timer
  | .pulling g | .yielded g _ => .at g.deadline
  | _ => .none

/-- Between the acquisition and the release of a slot, as the code means it. -/
def Pc.holds : Pc → Bool
  | .queueing .. | .done _ => false
  | _ => true

/-- An upstream call has been made and has not ended. -/
def Pc.inFlight : Pc → Bool
  | .sending .. | .reading .. | .closing .. | .created _ | .pulling _ | .yielded .. |
    .finalizing .. => true
  | _ => false

def Pc.isDone : Pc → Bool
  | .done _ => true
  | _ => false

/-- The status that was sent to the client, if any was. -/
def Outcome.sentStatus : Outcome → Option Nat
  | .responded r => some r.statusCode
  | .raised e => e.response?.map (·.statusCode)
  | .dropped statusSent => if statusSent then some 200 else none
  | .streamed _ => some 200

end EasyModelGate
