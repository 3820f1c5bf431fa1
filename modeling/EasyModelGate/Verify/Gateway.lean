import EasyModelGate.Gateway
import EasyModelGate.Verify.Relay

/-! # What a step of the gateway does

The inversion of `Gateway.step`, and the effects of admission. -/

namespace EasyModelGate

/-- The body can be encoded: to be measured, and again to be sent unless the request is refused. -/
def encodable (env : RelayEnv) (a : Arrival) (limiter : FixedWindowRpmLimiter)
    (body : List (Str × Json)) : Bool :=
  (encodeBody env.json body).isOk &&
    ((checkLimits env a.auth a.clk limiter).1.isSome ||
      (encodeBody env.json (maybeInjectUsage body)).isOk)

/-- What `forward_chat` does up to its first suspension. -/
inductive Admission (env : RelayEnv) (req : ChatRequest) (a : Arrival) :
    FixedWindowRpmLimiter → Pc → List Effect → FixedWindowRpmLimiter → Prop
  | failed {e} (hf : ∀ body, readBody req = .ok body → encodable env a limiter body = false) :
    Admission env req a limiter (.done (.raised e)) [] limiter'
  | refused {body raw refusal} (hb : readBody req = .ok body)
    (hraw : encodeBody env.json body = .ok raw)
    (hl : checkLimits env a.auth a.clk limiter = (some refusal, limiter')) :
    Admission env req a limiter (.done (.raised refusal.error))
      [.persist (refusal.record (baseRecord env req a body raw.length)) none] limiter'
  | admitted {body raw payload} {f : Admitted} (hb : readBody req = .ok body)
    (hraw : encodeBody env.json body = .ok raw)
    (hl : checkLimits env a.auth a.clk limiter = (none, limiter'))
    (hpay : encodeBody env.json (maybeInjectUsage body) = .ok payload)
    (hauth : f.auth = a.auth) (hstream : f.stream = isStream body)
    (ht0 : f.t0 = a.clk.mono) (hdl : f.deadline = a.clk.mono + env.totalRequest)
    (hpayload : f.payload = payload)
    (hheaders : f.headers = buildUpstreamHeaders req.headers env.upstreamApiKey ++
      [(str "Content-Type", str "application/json")])
    (hrec : f.record = baseRecord env req a body payload.length) :
    Admission env req a limiter
      (.queueing f a.clk.mono
        (waitFor a.clk (min env.queueTimeout (max (f.deadline - a.clk.mono) 0)))) [] limiter'

theorem Admission.of_forwardChat
    (h : forwardChat env req a limiter = ((pc, effects), limiter')) :
    Admission env req a limiter pc effects limiter' := by
  unfold forwardChat at h
  cases hb : readBody req with
  | error e =>
    rw [hb] at h
    cases h
    exact .failed fun body hb' => nomatch hb.symm.trans hb'
  | ok body =>
    cases hraw : encodeBody env.json body with
    | error e =>
      simp only [hb, hraw, bind, Except.bind, Except.mapError] at h
      cases h
      refine .failed fun body' hb' => ?_
      cases hb.symm.trans hb'
      simp [encodable, hraw, Except.isOk, Except.toBool]
    | ok raw =>
      simp only [hb, hraw, bind, Except.bind, Except.mapError, pure, Except.pure] at h
      rcases hl : checkLimits env a.auth a.clk limiter with ⟨_ | refusal, limiter₁⟩
      · simp only [hl] at h
        cases hpay : encodeBody env.json (maybeInjectUsage body) with
        | error e =>
          rw [hpay] at h
          cases h
          refine .failed fun body' hb' => ?_
          cases hb.symm.trans hb'
          simp [encodable, hl, hpay, Except.isOk, Except.toBool]
        | ok payload =>
          rw [hpay] at h
          cases h
          exact .admitted hb hraw hl hpay rfl rfl rfl rfl rfl rfl rfl
      · simp only [hl] at h
        cases h
        exact .refused hb hraw hl

/-! ## Steps -/

namespace Gateway
variable {cfg : GatewayConfig} {g g' : Gateway} {i j : Nat}

theorem step_auth_iff : step cfg g (.auth i) = some g' ↔
    ∃ r c nowMs c' conn, g.requests[i]? = some r ∧
    r.phase = .authenticating c nowMs ∧ c.advance Conn.handler g.conn = some (c', conn) ∧
    g' = { g with
      conn
      requests := g.requests.set i (settleAuth r nowMs c')
      tasks := g.tasks ++ authSpawned nowMs c' } := by
  constructor
  · intro h
    simp only [step] at h
    split at h <;> [skip; cases h]
    split at h <;> [skip; cases h]
    rename_i r hr _ c nowMs hp
    obtain ⟨⟨c', conn⟩, hc, h⟩ := Option.bind_eq_some_iff.mp h
    cases h
    exact ⟨r, c, nowMs, c', conn, hr, hp, hc, rfl⟩
  · rintro ⟨r, c, nowMs, c', conn, hr, hp, hc, rfl⟩
    simp only [step, hr, hp, stepAuth, hc]
    rfl

theorem step_cancelAuth_iff : step cfg g (.cancelAuth i) = some g' ↔
    ∃ r c nowMs, g.requests[i]? = some r ∧
    r.phase = .authenticating c nowMs ∧ g' = g.serve i r (.done (.raised (.py .cancelledError)))
    [] 0 := by
  constructor
  · intro h
    simp only [step] at h
    split at h <;> [skip; cases h]
    split at h <;> cases h
    exact ⟨_, _, _, ‹_›, ‹_›, rfl⟩
  · rintro ⟨r, c, nowMs, hr, hp, rfl⟩
    simp only [step, hr, hp]

theorem step_body_iff : step cfg g (.body i clk) = some g' ↔ ∃ r auth, g.requests[i]? = some r ∧
    r.phase = .reading auth ∧ g' = g.stepBody cfg i r auth clk := by
  constructor
  · intro h
    simp only [step] at h
    split at h <;> [skip; cases h]
    split at h <;> cases h
    exact ⟨_, _, ‹_›, ‹_›, rfl⟩
  · rintro ⟨r, auth, hr, hp, rfl⟩
    simp only [step, hr, hp]

theorem step_event_iff : step cfg g (.event i clk ev) = some g' ↔
    ∃ r pc pc' effects, g.requests[i]? = some r ∧
    r.phase = .serving pc ∧ resume cfg.relay clk pc ev = some (pc', effects) ∧ ev.takes ≤ g.free ∧
    g' = g.serve i r pc' effects ev.takes := by
  constructor
  · intro h
    simp only [step] at h
    split at h <;> [skip; cases h]
    split at h <;> [skip; cases h]
    rename_i r hr _ pc hp
    obtain ⟨⟨pc', effects⟩, hres, h⟩ := Option.bind_eq_some_iff.mp h
    dsimp only at h
    split at h <;> cases h
    exact ⟨r, pc, pc', effects, hr, hp, hres, ‹_›, rfl⟩
  · rintro ⟨r, pc, pc', effects, hr, hp, hres, ht, rfl⟩
    simp only [step, hr, hp, stepEvent, hres]
    exact if_pos ht

theorem step_task_iff : step cfg g (.task j) = some g' ↔ ∃ t coro conn, g.tasks[j]? = some t ∧
    t.coro.advance Conn.handler g.conn = some (coro, conn) ∧
    g' = { g with conn, tasks := g.tasks.set j { t with coro, steps := t.steps + 1 } } := by
  constructor
  · intro h
    simp only [step] at h
    split at h <;> [skip; cases h]
    obtain ⟨⟨coro, conn⟩, hc, h⟩ := Option.bind_eq_some_iff.mp h
    cases h
    exact ⟨_, coro, conn, ‹_›, hc, rfl⟩
  · rintro ⟨t, coro, conn, ht, hc, rfl⟩
    simp only [step, ht, stepTask, hc]
    rfl

end Gateway

inductive Stepped (cfg : GatewayConfig) (g : Gateway) : Label → Gateway → Prop
  | arrive : Stepped cfg g (.arrive req nowMs) (g.stepArrive cfg req nowMs)
  | auth {i r c nowMs c' conn} (hr : g.requests[i]? = some r)
    (hp : r.phase = .authenticating c nowMs)
    (hc : c.advance Conn.handler g.conn = some (c', conn)) :
    Stepped cfg g (.auth i) { g with
      conn
      requests := g.requests.set i (settleAuth r nowMs c')
      tasks := g.tasks ++ authSpawned nowMs c' }
  | cancelAuth {i r c nowMs} (hr : g.requests[i]? = some r)
    (hp : r.phase = .authenticating c nowMs) :
    Stepped cfg g (.cancelAuth i) (g.serve i r (.done (.raised (.py .cancelledError))) [] 0)
  | body {i r auth clk pc effects limiter} (hr : g.requests[i]? = some r)
    (hp : r.phase = .reading auth)
    (ha : Admission cfg.relay r.req { requestId := g.drawn + i, auth, clk } g.limiter
      pc effects limiter) :
    Stepped cfg g (.body i clk) { g.serve i r pc effects 0 with limiter }
  | event {i r pc clk ev pc' effects} (hr : g.requests[i]? = some r) (hp : r.phase = .serving pc)
    (hres : Resumed cfg.relay clk pc ev pc' effects) (ht : ev.takes ≤ g.free) :
    Stepped cfg g (.event i clk ev) (g.serve i r pc' effects ev.takes)
  | task {j t coro conn} (ht : g.tasks[j]? = some t)
    (hc : t.coro.advance Conn.handler g.conn = some (coro, conn)) :
    Stepped cfg g (.task j)
      { g with conn, tasks := g.tasks.set j { t with coro, steps := t.steps + 1 } }

/-- **The inversion of `Gateway.step`.** -/
theorem Stepped.of_step (h : Gateway.step cfg g l = some g') : Stepped cfg g l g' := by
  cases l with
  | arrive req nowMs =>
    cases h
    exact .arrive
  | auth i =>
    obtain ⟨r, c, nowMs, c', conn, hr, hp, hc, rfl⟩ := Gateway.step_auth_iff.mp h
    exact .auth hr hp hc
  | cancelAuth i =>
    obtain ⟨r, c, nowMs, hr, hp, rfl⟩ := Gateway.step_cancelAuth_iff.mp h
    exact .cancelAuth hr hp
  | body i clk =>
    obtain ⟨r, auth, hr, hp, rfl⟩ := Gateway.step_body_iff.mp h
    exact .body hr hp (.of_forwardChat rfl)
  | event i clk ev =>
    obtain ⟨r, pc, pc', effects, hr, hp, hres, ht, rfl⟩ := Gateway.step_event_iff.mp h
    exact .event hr hp (.of_resume hres) ht
  | task j =>
    obtain ⟨t, coro, conn, ht, hc, rfl⟩ := Gateway.step_task_iff.mp h
    exact .task ht hc

def Request.ended (r : Request) : Bool :=
  match r.phase with
  | .serving pc => pc.isDone
  | _ => false

/-! ## A small installation

One user with one key, for the runs that show how a property fails. -/

namespace Sample

/-- The full key. -/
def fullKey : Str := str "emg_AAAAAAAABBBBBBBBBBBBBBBBBBBBBBBBBBBBBBBBBBB"

/-- SHA-256 as far as the runs use it. -/
def hashKey (token : Str) : Str :=
  if token = fullKey
  then str "e2cb6283392e2c3a06d5c8df89376e2e69488773102620e4e6ebe20eee2a9b90"
  else token

/-- httpx encodes the values of the headers as ASCII. -/
def buildRequest (headers : Headers) (_ : Bytes) : Except PyExn Unit :=
  if headers.all (·.2.isAscii) then .ok () else .error .unicodeEncodeError

/-- The shipped timeouts. -/
def relay : RelayEnv where
  json := Json.codec 100 fun _ => str "0.0"
  totalRequest := 1800
  queueTimeout := 120
  buildRequest := buildRequest
  floatRepr := fun _ => "0.0"

def cfg : GatewayConfig where
  relay := relay
  keyPrefix := str "emg_"
  hashKey := hashKey

def user : User where
  username := str "alice"
  displayName := none
  enabled := true
  createdAt := 0
  note := none

def key (tokenLimit : Option Int) : ApiKey where
  userId := 1
  name := none
  keyPrefix := fullKey.take prefixDisplayLen
  keyHash := hashKey fullKey
  enabled := true
  expiresAt := none
  rpmLimit := none
  tokenLimit
  tokenUsed := .int 0
  createdAt := 0
  lastUsedAt := none

def tables (tokenLimit : Option Int) : Tables where
  users := Table.empty.insert user
  apiKeys := Table.empty.insert (key tokenLimit)

def conn (tokenLimit : Option Int := none) : Conn where
  durable := tables tokenLimit

def body (stream : Bool) : Json :=
  .obj [(str "messages", .arr [.obj [(str "role", .str (str "user"))]]),
    (str "stream", .bool stream)]

def chat (stream : Bool) : ChatRequest where
  headers := [(str "authorization", str "Bearer " ++ fullKey)]
  body := .ok (body stream)
  clientHost := none

/-- The clocks `t` seconds after the start. -/
def clockAt (t : ℚ) : Clock := ⟨t, 1000 + t⟩

/-- A request authenticates as number `i`, reads its body and gets a slot. -/
def acquire (i : Nat) (req : ChatRequest) : List Label :=
  [.arrive req 0, .auth i, .auth i, .body i (clockAt 1), .event i (clockAt 2) .acquired]

/-- The first request gets a stream. -/
def stream : List Label :=
  acquire 0 (chat true) ++
    [.event 0 (clockAt 3) (.response { status := 200, contentType := none })]

/-- A stream of one chunk, relayed to its end. -/
def relayed : List Label :=
  stream ++ [.event 0 (clockAt 4) .started, .event 0 (clockAt 5) (.chunk (bytes "x")),
    .event 0 (clockAt 6) .resumed, .event 0 (clockAt 7) .eof, .event 0 (clockAt 8) .closed]

/-- The detached tasks of the first request: `touch_last_used`, and `persist_request_log` for an
answer without usage. -/
def tasks : List Label := [.task 0, .task 0, .task 1, .task 1]

end Sample
end EasyModelGate
