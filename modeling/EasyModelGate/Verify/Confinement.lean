import EasyModelGate.Verify.AdminServer
import EasyModelGate.Verify.Blindness
import EasyModelGate.Verify.Gateway

/-! # The confinement of a key

Two runs of the whole gateway in which one key differs behind the part of it that is displayed. The
tables of the second run are those of the first with two hashes exchanged, and everything that
awaits a statement is renamed with them; what leaves the gateway is the same, apart from the
response to the creation of the key. -/

namespace EasyModelGate

/-! ## The two keys -/

/-- Two keys that are displayed alike, among the tokens in use. -/
structure Secrets (hashKey : Str → Str) (keyPrefix : Str) where
  key : Str
  key' : Str
  begins : keyPrefix <+: key
  begins' : keyPrefix <+: key'
  shown : key'.take prefixDisplayLen = key.take prefixDisplayLen
  tokens : Set Str
  mem : key ∈ tokens
  mem' : key' ∈ tokens
  injective : Set.InjOn hashKey tokens

namespace Secrets
variable {hashKey : Str → Str} {keyPrefix : Str} (S : Secrets hashKey keyPrefix) {t : Str}

/-- What a token of the first run is in the second. -/
def token : Equiv.Perm Str := Equiv.swap S.key S.key'

/-- What a hash of the first run is in the second. -/
def hash : Equiv.Perm Str := Equiv.swap (hashKey S.key) (hashKey S.key')

theorem token_cases (t : Str) :
    t = S.key ∧ S.token t = S.key' ∨ t = S.key' ∧ S.token t = S.key ∨ t ≠ S.key ∧ t ≠ S.key' ∧
    S.token t = t := by
  by_cases h : t = S.key
  · exact .inl ⟨h, by rw [h, token, Equiv.swap_apply_left]⟩
  · by_cases h' : t = S.key'
    · exact .inr (.inl ⟨h', by rw [h', token, Equiv.swap_apply_right]⟩)
    · exact .inr (.inr ⟨h, h', Equiv.swap_apply_of_ne_of_ne h h'⟩)

theorem hash_token (ht : t ∈ S.tokens) : hashKey (S.token t) = S.hash (hashKey t) := by
  rcases S.token_cases t with ⟨rfl, htoken⟩ | ⟨rfl, htoken⟩ | ⟨hne, hne', htoken⟩
  · rw [htoken, hash, Equiv.swap_apply_left]
  · rw [htoken, hash, Equiv.swap_apply_right]
  · rw [htoken, hash, Equiv.swap_apply_of_ne_of_ne (S.injective.ne ht S.mem hne)
      (S.injective.ne ht S.mem' hne')]

theorem shown_token (t : Str) : (S.token t).take prefixDisplayLen = t.take prefixDisplayLen := by
  rcases S.token_cases t with ⟨rfl, htoken⟩ | ⟨rfl, htoken⟩ | ⟨-, -, htoken⟩
  · rw [htoken, S.shown]
  · rw [htoken, S.shown]
  · rw [htoken]

theorem begins_token (t : Str) : keyPrefix <+: S.token t ↔ keyPrefix <+: t := by
  rcases S.token_cases t with ⟨rfl, htoken⟩ | ⟨rfl, htoken⟩ | ⟨-, -, htoken⟩
  · rw [htoken]
    exact iff_of_true S.begins' S.begins
  · rw [htoken]
    exact iff_of_true S.begins S.begins'
  · rw [htoken]

theorem token_eq_nil (t : Str) : S.token t = [] ↔ t = [] := by
  have hshown := S.shown_token t
  have hnil (s : Str) : s.take prefixDisplayLen = [] ↔ s = [] := by
    rw [List.take_eq_nil_iff]
    exact ⟨fun h => h.resolve_left (by decide), .inr⟩
  rw [← hnil, hshown, hnil]

/-! ## Requests -/

/-- Headers that present one token each. -/
structure Presents (header header' : Str) : Prop where
  scheme : Auth.scheme header' = Auth.scheme header
  token : Auth.token header' = S.token (Auth.token header)
  mem : keyPrefix <+: Auth.token header → Auth.token header ∈ S.tokens

/-- Requests whose headers are the same, the token apart. -/
structure HeadersAlike (headers headers' : Headers) : Prop where
  others : List.Forall₂ (fun h h' => h'.1 = h.1 ∧ (h.1 ≠ str "authorization" → h'.2 = h.2))
    headers headers'
  authorization :
    S.Presents ((headers.get (str "authorization")).getD [])
    ((headers'.get (str "authorization")).getD [])

structure ChatAlike (req req' : ChatRequest) : Prop where
  headers : S.HeadersAlike req.headers req'.headers
  body : req'.body = req.body
  clientHost : req'.clientHost = req.clientHost

variable {S}

theorem get_alike {headers headers' : Headers}
    (h : List.Forall₂ (fun h h' => h'.1 = h.1 ∧ (h.1 ≠ str "authorization" → h'.2 = h.2)) headers
      headers') {name : Str}
    (hname : name ≠ str "authorization") : headers'.get name = headers.get name := by
  induction h with
  | nil => rfl
  | @cons a b headers headers' hab _ ih =>
    unfold Headers.get at ih ⊢
    rw [List.find?_cons, List.find?_cons, hab.1]
    by_cases hfound : a.1 = name
    · rw [decide_eq_true hfound]
      exact congrArg some (hab.2 (hfound ▸ hname))
    · rw [decide_eq_false hfound]
      exact ih

/-- The token does not go upstream. -/
theorem HeadersAlike.upstream {headers headers' : Headers} (h : S.HeadersAlike headers headers')
    (key : Option Str) :
    buildUpstreamHeaders headers' key = buildUpstreamHeaders headers key := by
  unfold buildUpstreamHeaders
  refine congrArg (· ++ _ ++ _) (List.filterMap_congr fun name hname => ?_)
  have hne : name ≠ str "authorization" := by
    rintro rfl
    exact absurd hname (by decide)
  rw [get_alike h.others hne]

theorem ChatAlike.forwardChat {req req' : ChatRequest} (h : S.ChatAlike req req')
    (env : RelayEnv) (a : Arrival) (limiter : FixedWindowRpmLimiter) :
    forwardChat env req' a limiter = forwardChat env req a limiter := by
  have hheaders := h.headers.upstream env.upstreamApiKey
  obtain ⟨headers, body, host⟩ := req
  obtain ⟨headers', body', host'⟩ := req'
  obtain rfl : body' = body := h.body
  obtain rfl : host' = host := h.clientHost
  unfold EasyModelGate.forwardChat
  rw [hheaders]
  rfl

theorem checkRow_blind {π : Equiv.Perm Str} (row : Row ApiKey) (nowMs : Int) :
    Db.Blind π (Auth.checkRow row nowMs) := by
  unfold Auth.checkRow
  split
  · exact .raise _
  split
  · exact .raise _
  · apply Db.Blind.bind (.query rfl)
    rintro (_ | user)
    · exact .raise _
    · dsimp only
      split
      · exact .raise _
      · exact .ret _

/-- **`require_auth`** of the one token and of the other. -/
theorem Presents.requireAuth {header header' : Str} (h : S.Presents header header') (nowMs : Int) :
    (requireAuth hashKey keyPrefix header nowMs).Renamed (Stmt.renaming S.hash) Eq
      (requireAuth hashKey keyPrefix header' nowMs) := by
  unfold EasyModelGate.requireAuth
  simp only [h.scheme, h.token, S.token_eq_nil, S.begins_token]
  split
  · exact .raise
  split
  · exact .raise
  · rename_i hbegins
    rw [S.hash_token (h.mem (not_not.mp hbegins))]
    apply Coro.Renamed.bind (Dao.getKeyByHash_renamed (hashKey (Auth.token header)))
    rintro (_ | row) _ rfl
    · exact .raise
    · exact checkRow_blind row nowMs

/-! ## Chat requests -/

variable (S) in
inductive PhaseAlike : Phase → Phase → Prop
  | authenticating {c c'} (h : c.Renamed (Stmt.renaming S.hash) Eq c') (nowMs : Int) :
    PhaseAlike (.authenticating c nowMs) (.authenticating c' nowMs)
  | reading (auth : AuthContext) : PhaseAlike (.reading auth) (.reading auth)
  | serving (pc : Pc) : PhaseAlike (.serving pc) (.serving pc)

variable (S) in
structure RequestAlike (r r' : Request) : Prop where
  req : S.ChatAlike r.req r'.req
  phase : S.PhaseAlike r.phase r'.phase
  auth : r'.auth = r.auth
  acquired : r'.acquired = r.acquired
  released : r'.released = r.released

variable (S) in
structure TaskAlike (t t' : Task) : Prop where
  purpose : t'.purpose = t.purpose
  coro : t.coro.Renamed (Stmt.renaming S.hash) Eq t'.coro
  steps : t'.steps = t.steps

variable (S) in
structure GatewayAlike (g g' : Gateway) : Prop where
  conn : g'.conn = g.conn.renamed S.hash
  limiter : g'.limiter = g.limiter
  free : g'.free = g.free
  drawn : g'.drawn = g.drawn
  requests : List.Forall₂ S.RequestAlike g.requests g'.requests
  tasks : List.Forall₂ S.TaskAlike g.tasks g'.tasks

theorem spawn_alike (p : Purpose) : S.TaskAlike (spawn p) (spawn p) where
  purpose := rfl
  coro := by
    cases p with
    | touch keyId nowMs => exact Dao.touchLastUsed_blind ..
    | log record keyId => exact persistRequestLog_blind ..
  steps := rfl

theorem spawned_alike (effects : List Effect) : List.Forall₂ S.TaskAlike (spawned effects)
      (spawned effects) := by
  rw [List.forall₂_same]
  intro t ht
  obtain ⟨effect, -, heffect⟩ := List.mem_filterMap.mp ht
  cases effect with
  | release => cases heffect
  | persist record keyId =>
    cases heffect
    exact spawn_alike _

variable {r r' : Request} {g g' : Gateway} {c c' : Db AuthContext}

theorem authSpawned_alike (hc : c.Renamed (Stmt.renaming S.hash) Eq c') (nowMs : Int) :
    List.Forall₂ S.TaskAlike (authSpawned nowMs c) (authSpawned nowMs c') := by
  cases hc with
  | ret h =>
    subst h
    exact .cons (spawn_alike _) .nil
  | raise | await => exact .nil

theorem PhaseAlike.authenticating_inv {phase : Phase}
    (h : S.PhaseAlike (.authenticating c nowMs) phase) :
    ∃ c', phase = .authenticating c' nowMs ∧ c.Renamed (Stmt.renaming S.hash) Eq c' := by
  cases h with
  | authenticating hc => exact ⟨_, rfl, hc⟩

theorem PhaseAlike.reading_inv {ctx : AuthContext} {phase : Phase}
    (h : S.PhaseAlike (.reading ctx) phase) :
    phase = .reading ctx := by
  cases h
  rfl

theorem PhaseAlike.serving_inv {phase : Phase} (h : S.PhaseAlike (.serving pc) phase) :
    phase = .serving pc := by
  cases h
  rfl

theorem RequestAlike.settleAuth (h : S.RequestAlike r r')
    (hc : c.Renamed (Stmt.renaming S.hash) Eq c') (nowMs : Int) :
    S.RequestAlike (settleAuth r nowMs c) (settleAuth r' nowMs c') := by
  cases hc with
  | ret hauth =>
    subst hauth
    exact { h with phase := .reading _, auth := rfl }
  | raise => exact { h with phase := .serving _ }
  | await hk => exact { h with phase := .authenticating (.await hk) nowMs }

theorem RequestAlike.serve (h : S.RequestAlike r r') (pc : Pc) (effects : List Effect)
    (took : Nat) :
    S.RequestAlike (r.serve pc effects took) (r'.serve pc effects took) where
  req := h.req
  phase := .serving pc
  auth := h.auth
  acquired := congrArg (· + took) h.acquired
  released := congrArg (· + releases effects) h.released

theorem GatewayAlike.serve (h : S.GatewayAlike g g') (hr : S.RequestAlike r r') (i : Nat) (pc : Pc)
    (effects : List Effect) (took : Nat) : S.GatewayAlike (g.serve i r pc effects took)
      (g'.serve i r' pc effects took) where
  conn := h.conn
  limiter := h.limiter
  free := congrArg (· - took + releases effects) h.free
  drawn := h.drawn
  requests := forall₂_set h.requests i (hr.serve pc effects took)
  tasks := forall₂_append h.tasks (spawned_alike effects)

variable (S) in
/-- What happens is the same, but for the token that a new request presents. -/
inductive ChatLabel : EasyModelGate.Label → EasyModelGate.Label → Prop
  | arrive {req req'} (h : S.ChatAlike req req') (nowMs : Int) :
    ChatLabel (.arrive req nowMs) (.arrive req' nowMs)
  | other (l : EasyModelGate.Label) (h : ∀ req nowMs, l ≠ .arrive req nowMs) : ChatLabel l l

theorem GatewayAlike.arrive (h : S.GatewayAlike g g') {req req' : ChatRequest}
    (hreq : S.ChatAlike req req') (nowMs : Int) {cfg : GatewayConfig}
    (hhash : cfg.hashKey = hashKey) (hpfx : cfg.keyPrefix = keyPrefix) :
    S.GatewayAlike (g.stepArrive cfg req nowMs) (g'.stepArrive cfg req' nowMs) := by
  subst hhash hpfx
  have hauth := hreq.headers.authorization.requireAuth nowMs
  have harrived : S.RequestAlike
      { req
        phase := .authenticating
          (requireAuth cfg.hashKey cfg.keyPrefix (Request.header req) nowMs) nowMs }
      { req := req'
        phase := .authenticating
          (requireAuth cfg.hashKey cfg.keyPrefix (Request.header req') nowMs) nowMs } :=
    ⟨hreq, .authenticating hauth nowMs, rfl, rfl, rfl⟩
  exact { h with
    requests := forall₂_append h.requests (.cons (harrived.settleAuth hauth nowMs) .nil)
    tasks := forall₂_append h.tasks (authSpawned_alike hauth nowMs) }

/-- **One step of the chat requests.** -/
theorem GatewayAlike.step (h : S.GatewayAlike g g') (cfg : GatewayConfig)
    (hhash : cfg.hashKey = hashKey) (hpfx : cfg.keyPrefix = keyPrefix) {l l' : EasyModelGate.Label}
    (hl : S.ChatLabel l l') {t : Gateway} (hstep : Gateway.step cfg g l = some t) :
    ∃ t', Gateway.step cfg g' l' = some t' ∧ S.GatewayAlike t t' := by
  cases hl with
  | arrive hreq nowMs =>
    cases hstep
    exact ⟨_, rfl, h.arrive hreq nowMs hhash hpfx⟩
  | other l hother =>
    cases l with
    | arrive req nowMs => exact absurd rfl (hother req nowMs)
    | auth i =>
      obtain ⟨r, c, nowMs, d, conn, hr, hp, hadv, rfl⟩ := Gateway.step_auth_iff.mp hstep
      obtain ⟨r', hr', hrr⟩ := forall₂_getElem? h.requests hr
      obtain ⟨c', hp', hc⟩ := (hp ▸ hrr.phase).authenticating_inv
      obtain ⟨d', hadv', hd⟩ := hc.advance (Conn.handler_renamed S.hash) hadv
      rw [← h.conn] at hadv'
      exact ⟨_, Gateway.step_auth_iff.mpr ⟨r', c', nowMs, d', conn.renamed S.hash, hr', hp', hadv',
        rfl⟩, { h with
        conn := rfl
        requests := forall₂_set h.requests i (hrr.settleAuth hd nowMs)
        tasks := forall₂_append h.tasks (authSpawned_alike hd nowMs) }⟩
    | cancelAuth i =>
      obtain ⟨r, c, nowMs, hr, hp, rfl⟩ := Gateway.step_cancelAuth_iff.mp hstep
      obtain ⟨r', hr', hrr⟩ := forall₂_getElem? h.requests hr
      obtain ⟨c', hp', -⟩ := (hp ▸ hrr.phase).authenticating_inv
      exact ⟨_, Gateway.step_cancelAuth_iff.mpr ⟨r', c', nowMs, hr', hp', rfl⟩,
        h.serve hrr i (.done (.raised (.py .cancelledError))) [] 0⟩
    | body i clk =>
      obtain ⟨r, auth, hr, hp, rfl⟩ := Gateway.step_body_iff.mp hstep
      obtain ⟨r', hr', hrr⟩ := forall₂_getElem? h.requests hr
      refine ⟨_, Gateway.step_body_iff.mpr ⟨r', auth, hr', (hp ▸ hrr.phase).reading_inv, rfl⟩, ?_⟩
      unfold Gateway.stepBody
      rw [hrr.req.forwardChat, h.limiter, h.drawn]
      exact { h.serve hrr i _ _ 0 with limiter := rfl }
    | event i clk ev =>
      obtain ⟨r, pc, pc', effects, hr, hp, hres, htakes, rfl⟩ := Gateway.step_event_iff.mp hstep
      obtain ⟨r', hr', hrr⟩ := forall₂_getElem? h.requests hr
      have htakes' : ev.takes ≤ g'.free := h.free ▸ htakes
      exact ⟨_, Gateway.step_event_iff.mpr ⟨r', pc, pc', effects, hr', (hp ▸ hrr.phase).serving_inv,
        hres, htakes', rfl⟩,
        h.serve hrr i pc' effects ev.takes⟩
    | task j =>
      obtain ⟨task, coro, conn, ht, hadv, rfl⟩ := Gateway.step_task_iff.mp hstep
      obtain ⟨task', ht', htt⟩ := forall₂_getElem? h.tasks ht
      obtain ⟨coro', hadv', hcoro⟩ := htt.coro.advance (Conn.handler_renamed S.hash) hadv
      rw [← h.conn] at hadv'
      exact ⟨_, Gateway.step_task_iff.mpr ⟨task', coro', conn.renamed S.hash, ht', hadv', rfl⟩,
        { h with
        conn := rfl
        tasks := forall₂_set h.tasks j ⟨htt.purpose, hcoro, congrArg (· + 1) htt.steps⟩ }⟩

/-! ## Requests under `/admin` -/

/-- Both end with results that `R` relates, or with one exception. -/
inductive Both (R : α → β → Prop) : Except Exn α → Except Exn β → Prop
  | ok {a b} (h : R a b) : Both R (.ok a) (.ok b)
  | error (e : Exn) : Both R (.error e) (.error e)

variable (S) in
/-- The responses of both runs: the same, or the creation of one key and of the other. -/
def Reply (req : AdminRequest) (r r' : AdminResponse) : Prop :=
  r' = r ∨ endpoint req = some (.guarded .createKey) ∧
    (KeyReply S.key S.key' r r' ∨ KeyReply S.key' S.key r r')

variable (S) in
/-- What `secrets.token_urlsafe` returns when a key is created. -/
structure NewAlike (random random' : Str) : Prop where
  full : (generateKey keyPrefix random').1 = S.token (generateKey keyPrefix random).1
  mem : (generateKey keyPrefix random).1 ∈ S.tokens

theorem NewAlike.shown {random random' : Str} (h : S.NewAlike random random') :
    (generateKey keyPrefix random').2 = (generateKey keyPrefix random).2 := by
  change (generateKey keyPrefix random').1.take prefixDisplayLen =
    (generateKey keyPrefix random).1.take prefixDisplayLen
  rw [h.full, S.shown_token]

theorem NewAlike.hash {random random' : Str} (h : S.NewAlike random random') :
    hashKey (generateKey keyPrefix random').1 =
      S.hash (hashKey (generateKey keyPrefix random).1) := by
  rw [h.full, S.hash_token h.mem]

variable (S) in
structure AnsweredAlike (a a' : Answered) : Prop where
  req : a'.req = a.req
  time : a'.time = a.time
  tables : a'.tables = a.tables.renamed S.hash
  reply : Both (S.Reply a.req) a.reply a'.reply

variable (S) in
structure AdminTaskAlike (t t' : AdminTask) : Prop where
  req : t'.req = t.req
  coro : t.coro.Renamed (HandlerOp.renaming S.hash) (S.Reply t.req) t'.coro

variable (S) in
structure AdminAlike (g g' : AdminServer) : Prop where
  sessions : g'.state.sessions = g.state.sessions
  limiter : g'.state.limiter = g.state.limiter
  drawn : g'.state.drawn = g.state.drawn
  now : g'.now = g.now
  tasks : List.Forall₂ S.AdminTaskAlike g.tasks g'.tasks
  history : List.Forall₂ S.AnsweredAlike g.history g'.history

variable {a a' : AdminServer}

theorem AdminAlike.state (h : S.AdminAlike a a')
    (hconn : a'.state.conn = a.state.conn.renamed S.hash) :
    a'.state = a.state.renamed S.hash := by
  have hsessions := h.sessions
  have hlimiter := h.limiter
  have hdrawn := h.drawn
  unfold AdminState.renamed
  generalize a'.state = st' at *
  obtain ⟨conn', sessions', limiter', drawn'⟩ := st'
  dsimp only at hconn hsessions hlimiter hdrawn
  rw [hconn, hsessions, hlimiter, hdrawn]

theorem answered_alike {c c' : Handling AdminResponse} {req : AdminRequest}
    (hc : c.Renamed (HandlerOp.renaming S.hash) (S.Reply req) c') (now : ℚ) (conn : Conn) :
    List.Forall₂ S.AnsweredAlike (AdminServer.answered req now conn c)
      (AdminServer.answered req now (conn.renamed S.hash) c') := by
  cases hc with
  | ret h => exact .cons ⟨rfl, rfl, conn.view_renamed _, .ok h⟩ .nil
  | raise => exact .cons ⟨rfl, rfl, conn.view_renamed _, .error _⟩ .nil
  | await => exact .nil

variable (S) in
/-- What happens is the same, but for the key that a request creates. -/
inductive AdminLabel : AdminServer.Label → AdminServer.Label → Prop
  | arrive (req : AdminRequest) {amb amb' : Ambient} (now : ℚ) (hclk : amb'.clk = amb.clk)
    (hnew : endpoint req = some (.guarded .createKey) → S.NewAlike amb.random amb'.random)
    (hother : endpoint req ≠ some (.guarded .createKey) → amb' = amb) :
    AdminLabel (.arrive req amb now) (.arrive req amb' now)
  | other (l : AdminServer.Label) (h : ∀ req amb now, l ≠ .arrive req amb now) : AdminLabel l l

theorem Reply.of_keyReply {full : Str} {req : AdminRequest} {r r' : AdminResponse}
    (hnew : endpoint req = some (.guarded .createKey)) (h : KeyReply full (S.token full) r r') :
    S.Reply req r r' := by
  rcases S.token_cases full with ⟨rfl, htoken⟩ | ⟨rfl, htoken⟩ | ⟨-, -, htoken⟩
  · rw [htoken] at h
    exact .inr ⟨hnew, .inl h⟩
  · rw [htoken] at h
    exact .inr ⟨hnew, .inr h⟩
  · rw [htoken] at h
    rcases h with h | ⟨key, rfl, rfl, rfl⟩
    · exact .inl h
    · exact .inl rfl

theorem serve_alike {cfg : AdminConfig} (hhash : cfg.hashKey = hashKey)
    (hpfx : cfg.keyPrefix = keyPrefix) (req : AdminRequest) {amb amb' : Ambient}
    (hclk : amb'.clk = amb.clk) (hnew : endpoint req = some (.guarded .createKey) →
      S.NewAlike amb.random amb'.random)
    (hother : endpoint req ≠ some (.guarded .createKey) → amb' = amb) :
    (serve cfg amb req).Renamed (HandlerOp.renaming S.hash) (S.Reply req) (serve cfg amb' req) := by
  by_cases he : endpoint req = some (.guarded .createKey)
  · have hrandom := hnew he
    obtain ⟨clk, random⟩ := amb
    obtain ⟨clk', random'⟩ := amb'
    obtain rfl : clk' = clk := hclk
    subst hhash hpfx
    refine (serve_renamed cfg clk' req he hrandom.shown hrandom.hash).mono fun r r' h => ?_
    rw [hrandom.full] at h
    exact .of_keyReply he h
  · rw [hother he]
    exact (serve_blind cfg amb req he).mono fun _ _ h => .inl h.symm

theorem adminTask_alike {c c' : Handling AdminResponse} {req : AdminRequest}
    (hc : c.Renamed (HandlerOp.renaming S.hash) (S.Reply req) c') :
    S.AdminTaskAlike ⟨req, c⟩ ⟨req, c'⟩ := ⟨rfl, hc⟩

/-- A stretch of a handler, in both runs. -/
theorem stretch_alike {c c' : Handling AdminResponse} {R : AdminResponse → AdminResponse → Prop}
    (hc : c.Renamed (HandlerOp.renaming S.hash) R c') (env : AdminEnv) (st : AdminState) :
    (env.settle c st).1.Renamed (HandlerOp.renaming S.hash) R
      (env.settle c' (st.renamed S.hash)).1 ∧
      (env.settle c' (st.renamed S.hash)).2 = (env.settle c st).2.renamed S.hash :=
  hc.settle env.handler_renamed HandlerOp.instant_renamed st

/-- The servers after a stretch of both handlers. -/
theorem AdminAlike.settled (h : S.AdminAlike a a') {c c' : Handling AdminResponse}
    {req : AdminRequest} (hc : c.Renamed (HandlerOp.renaming S.hash) (S.Reply req) c') (now : ℚ)
    (st : AdminState) {tasks tasks' : List AdminTask}
    (htasks : List.Forall₂ S.AdminTaskAlike tasks tasks') :
    S.AdminAlike ⟨st, now, tasks, a.history ++ AdminServer.answered req now st.conn c⟩
      ⟨st.renamed S.hash, now, tasks', a'.history ++
        AdminServer.answered req now (st.renamed S.hash).conn c'⟩ where
  sessions := rfl
  limiter := rfl
  drawn := rfl
  now := rfl
  tasks := htasks
  history := forall₂_append h.history (answered_alike hc now st.conn)

/-- **One step of the requests under `/admin`.** -/
theorem AdminAlike.step (h : S.AdminAlike a a')
    (hconn : a'.state.conn = a.state.conn.renamed S.hash) (cfg : AdminConfig)
    (hhash : cfg.hashKey = hashKey) (hpfx : cfg.keyPrefix = keyPrefix) {l l' : AdminServer.Label}
    (hl : S.AdminLabel l l') (hothers : ∀ conn, l ≠ .others conn) {t : AdminServer}
    (hstep : AdminServer.step cfg a l = some t) :
    ∃ t', AdminServer.step cfg a' l' = some t' ∧ S.AdminAlike t t' ∧
    t'.state.conn = t.state.conn.renamed S.hash := by
  have hstate := h.state hconn
  cases hl with
  | @arrive req amb amb' now hclk hnew hother =>
    have hserve := serve_alike hhash hpfx req hclk hnew hother
    obtain ⟨hc, hst⟩ := stretch_alike hserve { ids := cfg.ids, req, now } a.state
    simp only [AdminServer.step] at hstep ⊢
    split at hstep <;> cases hstep
    rename_i hnow
    refine ⟨a'.stepArrive cfg req amb' now, if_pos (h.now ▸ hnow), ?_⟩
    have hsettled :=
      h.settled hc now (AdminEnv.settle { ids := cfg.ids, req, now } (serve cfg amb req) a.state).2
      (forall₂_append h.tasks (.cons (adminTask_alike hc) .nil))
    rw [← hst, ← hstate] at hsettled
    rw [← hstate] at hst
    exact ⟨hsettled, congrArg AdminState.conn hst⟩
  | other l hother =>
    cases l with
    | arrive req amb now => exact absurd rfl (hother req amb now)
    | others conn => exact absurd rfl (hothers conn)
    | move i now upstream =>
      obtain ⟨task, c, st, ht, hnow, hadv, rfl⟩ := AdminServer.step_move_iff.mp hstep
      obtain ⟨⟨req, coro'⟩, ht', hreq, hcoro⟩ := forall₂_getElem? h.tasks ht
      obtain rfl : req = task.req := hreq
      have henv := AdminEnv.handler_renamed (π := S.hash)
        { ids := cfg.ids, req := task.req, now, upstream }
      obtain ⟨c', hadv', hc⟩ := hcoro.advance henv hadv
      obtain ⟨hd, hst⟩ := stretch_alike hc { ids := cfg.ids, req := task.req, now, upstream } st
      rw [← hstate] at hadv'
      refine ⟨_, AdminServer.step_move_iff.mpr ⟨_, c', _, ht', h.now ▸ hnow, hadv', rfl⟩, ?_,
        congrArg AdminState.conn hst⟩
      rw [hst]
      exact h.settled hd now _ (forall₂_set h.tasks i (adminTask_alike hd))
    | cancel i =>
      obtain ⟨task, ht, hended, rfl⟩ := AdminServer.step_cancel_iff.mp hstep
      obtain ⟨task', ht', htt⟩ := forall₂_getElem? h.tasks ht
      exact ⟨_, AdminServer.step_cancel_iff.mpr ⟨task', ht', htt.coro.ended.trans hended, rfl⟩,
        { h with tasks := forall₂_set h.tasks i ⟨htt.req, .raise⟩ }, hconn⟩

/-! ## The list of models -/

variable (S) in
inductive ModelsPhaseAlike : ModelsPhase → ModelsPhase → Prop
  | authenticating {d d'} (h : d.Renamed (Stmt.renaming S.hash) Eq d') (nowMs : Int) :
    ModelsPhaseAlike (.authenticating d nowMs) (.authenticating d' nowMs)
  | asking (headers : Headers) : ModelsPhaseAlike (.asking headers) (.asking headers)
  | done (r : Except Exn Response) : ModelsPhaseAlike (.done r) (.done r)

variable (S) in
structure ModelsAlike (m m' : ModelsCall) : Prop where
  headers : S.HeadersAlike m.headers m'.headers
  phase : S.ModelsPhaseAlike m.phase m'.phase

variable {m m' : ModelsCall}

theorem ModelsPhaseAlike.authenticating_inv {phase : ModelsPhase}
    (h : S.ModelsPhaseAlike (.authenticating c nowMs) phase) :
    ∃ c', phase = .authenticating c' nowMs ∧ c.Renamed (Stmt.renaming S.hash) Eq c' := by
  cases h with
  | authenticating hc => exact ⟨_, rfl, hc⟩

theorem ModelsPhaseAlike.asking_inv {headers : Headers} {phase : ModelsPhase}
    (h : S.ModelsPhaseAlike (.asking headers) phase) : phase = .asking headers := by
  cases h
  rfl

theorem settleModels_alike {headers headers' : Headers} (h : S.HeadersAlike headers headers')
    (hc : c.Renamed (Stmt.renaming S.hash) Eq c') (env : RelayEnv) (nowMs : Int) :
    S.ModelsPhaseAlike (Public.settleModels env headers nowMs c)
      (Public.settleModels env headers' nowMs c') := by
  cases hc with
  | ret =>
    unfold Public.settleModels Public.askModels
    rw [h.upstream]
    dsimp only
    split
    · exact .asking _
    · exact .done _
  | raise => exact .done _
  | await hk => exact .authenticating (.await hk) nowMs

variable (S) in
/-- What happens is the same, but for the token that a new request presents. -/
inductive ModelsLabel : System.ModelsLabel → System.ModelsLabel → Prop
  | arrive {headers headers'} (h : S.HeadersAlike headers headers') (nowMs : Int) :
    ModelsLabel (.arrive headers nowMs) (.arrive headers' nowMs)
  | other (l : System.ModelsLabel) (h : ∀ headers nowMs, l ≠ .arrive headers nowMs) :
    ModelsLabel l l

/-! ## The whole gateway -/

variable (S) in
/-- The outputs of both runs: the same, or the creation of one key and of the other. -/
def Line (out out' : CliOutput) : Prop := Cli.KeyLine S.key S.key' out out' ∨
    Cli.KeyLine S.key' S.key out out'

theorem Line.of_keyLine {full : Str} {out out' : CliOutput}
    (h : Cli.KeyLine full (S.token full) out out') :
    S.Line out out' := by
  rcases S.token_cases full with ⟨rfl, htoken⟩ | ⟨rfl, htoken⟩ | ⟨-, -, htoken⟩
  · rw [htoken] at h
    exact .inl h
  · rw [htoken] at h
    exact .inr h
  · rw [htoken] at h
    rcases h with h | ⟨ident, rfl, rfl⟩
    · exact .inl (.inl h)
    · exact .inl (.inl rfl)

variable (S) in
/-- The commands are the same, but for the key that one creates. -/
inductive CommandAlike : Cli.Command → Cli.Command → Prop
  | keyCreate {random random'} (h : S.NewAlike random random') (clk : Clock) (user : Str)
    (name : Option Str) (rpm tokenLimit expiresInDays : Option Int) :
    CommandAlike (.keyCreate clk random user name rpm tokenLimit expiresInDays)
      (.keyCreate clk random' user name rpm tokenLimit expiresInDays)
  | other (cmd : Cli.Command) (h : ∀ clk random user name rpm tokenLimit expiresInDays,
      cmd ≠ .keyCreate clk random user name rpm tokenLimit expiresInDays) : CommandAlike cmd cmd

theorem CommandAlike.coro {cmd cmd' : Cli.Command} (h : S.CommandAlike cmd cmd') (cfg : CliConfig)
    (hhash : cfg.hashKey = hashKey) (hpfx : cfg.keyPrefix = keyPrefix) :
    (cmd.coro cfg).Renamed (Stmt.renaming S.hash) S.Line (cmd'.coro cfg) := by
  cases h with
  | keyCreate hrandom =>
    subst hhash hpfx
    refine (Cli.keyCreate_renamed hrandom.shown hrandom.hash ..).mono fun out out' h => ?_
    rw [hrandom.full] at h
    exact .of_keyLine h
  | other _ hnew => exact (cmd.coro_blind cfg hnew).mono fun _ _ h => .inl (.inl h.symm)

/-- A command in a process of its own. -/
theorem outside_alike {p p' : Db CliOutput} (hp : p.Renamed (Stmt.renaming S.hash) S.Line p')
    (conn : Conn) :
    Both S.Line (conn.outside p).1 ((conn.renamed S.hash).outside p').1 := by
  rcases (Conn.outside_renamed S.hash conn hp).2 with ⟨a, b, ha, hb, h⟩ | ⟨e, ha, hb⟩
  · rw [ha, hb]
    exact .ok h
  · rw [ha, hb]
    exact .error e

variable (S) in
structure SystemAlike (s s' : System) : Prop where
  gateway : S.GatewayAlike s.gateway s'.gateway
  admin : S.AdminAlike s.admin s'.admin
  models : List.Forall₂ S.ModelsAlike s.models s'.models
  printed : List.Forall₂ (Both S.Line) s.printed s'.printed

variable (S) in
/-- What happens is the same, but for the tokens that are presented and the key that is created. -/
inductive LabelAlike : System.Label → System.Label → Prop
  | chat {l l'} (h : S.ChatLabel l l') : LabelAlike (.chat l) (.chat l')
  | models {l l'} (h : S.ModelsLabel l l') : LabelAlike (.models l) (.models l')
  | admin {l l'} (h : S.AdminLabel l l') : LabelAlike (.admin l) (.admin l')
  | cli {cmd cmd'} (h : S.CommandAlike cmd cmd') : LabelAlike (.cli cmd) (.cli cmd')

variable {s s' t : System} {cfg : SystemConfig}

/-- A stretch of `require_auth` of a models call. -/
theorem SystemAlike.settleModelsCall (h : S.SystemAlike s s') (hm : S.ModelsAlike m m')
    (hc : c.Renamed (Stmt.renaming S.hash) Eq c') (i : Nat) (nowMs : Int) (conn : Conn) :
    S.SystemAlike (s.settleModelsCall cfg i m nowMs c conn)
      (s'.settleModelsCall cfg i m' nowMs c' (conn.renamed S.hash)) where
  gateway := { h.gateway with
    conn := rfl
    tasks := forall₂_append h.gateway.tasks (authSpawned_alike hc nowMs) }
  admin := h.admin
  models := forall₂_set h.models i ⟨hm.headers, settleModels_alike hm.headers hc cfg.relay nowMs⟩
  printed := h.printed

theorem SystemAlike.setModels (h : S.SystemAlike s s') (hm : S.ModelsAlike m m') (i : Nat)
    (r : Except Exn Response) :
    S.SystemAlike (s.setModels i m (.done r)) (s'.setModels i m' (.done r)) :=
  { h with models := forall₂_set h.models i ⟨hm.headers, .done r⟩ }

theorem SystemAlike.models_step (h : S.SystemAlike s s') (hhash : cfg.admin.hashKey = hashKey)
    (hpfx : cfg.admin.keyPrefix = keyPrefix) {l l' : System.ModelsLabel} (hl : S.ModelsLabel l l')
    (hstep : s.stepModels cfg l = some t) : ∃ t', s'.stepModels cfg l' = some t' ∧
    S.SystemAlike t t' := by
  cases hl with
  | arrive hheaders nowMs =>
    cases hstep
    subst hhash hpfx
    have hauth := hheaders.authorization.requireAuth nowMs
    exact ⟨_, rfl, { h with
      gateway := { h.gateway with
        tasks := forall₂_append h.gateway.tasks (authSpawned_alike hauth nowMs) }
      models :=
        forall₂_append h.models
          (.cons ⟨hheaders, settleModels_alike hheaders hauth cfg.relay nowMs⟩ .nil) }⟩
  | other l hother =>
    cases l with
    | arrive headers nowMs => exact absurd rfl (hother headers nowMs)
    | auth i =>
      simp only [System.stepModels] at hstep ⊢
      split at hstep <;> [skip; cases hstep]
      split at hstep <;> [skip; cases hstep]
      rename_i m hm _ c nowMs hp
      obtain ⟨m', hm', hmm⟩ := forall₂_getElem? h.models hm
      obtain ⟨c', hp', hc⟩ := (hp ▸ hmm.phase).authenticating_inv
      obtain ⟨⟨d, conn⟩, hadv, rfl⟩ := Option.map_eq_some_iff.mp hstep
      obtain ⟨d', hadv', hd⟩ := hc.advance (Conn.handler_renamed S.hash) hadv
      rw [← h.gateway.conn] at hadv'
      refine ⟨_, ?_, h.settleModelsCall hmm hd i nowMs conn⟩
      rw [hm']
      simp only [hp', hadv', Option.map_some]
    | cancelAuth i =>
      simp only [System.stepModels] at hstep ⊢
      split at hstep <;> [skip; cases hstep]
      split at hstep <;> cases hstep
      rename_i m hm _ c nowMs hp
      obtain ⟨m', hm', hmm⟩ := forall₂_getElem? h.models hm
      obtain ⟨c', hp', -⟩ := (hp ▸ hmm.phase).authenticating_inv
      refine ⟨_, ?_, h.setModels hmm i (.error (.py .cancelledError))⟩
      rw [hm']
      simp only [hp']
    | event i ev =>
      simp only [System.stepModels] at hstep ⊢
      split at hstep <;> [skip; cases hstep]
      split at hstep <;> cases hstep
      rename_i m hm _ headers hp
      obtain ⟨m', hm', hmm⟩ := forall₂_getElem? h.models hm
      refine ⟨_, ?_, h.setModels hmm i (Public.answerModels ev)⟩
      rw [hm']
      simp only [(hp ▸ hmm.phase).asking_inv]

theorem stepAdmin_eq {l : AdminServer.Label} (hl : ∀ conn, l ≠ .others conn) :
    s.stepAdmin cfg l = (AdminServer.step cfg.admin s.adminServer l).map fun admin =>
      { s with gateway := { s.gateway with conn := admin.state.conn }, admin } := by
  cases l with
  | others conn => exact absurd rfl (hl conn)
  | arrive | move | cancel => rfl

theorem SystemAlike.admin_step (h : S.SystemAlike s s') (hhash : cfg.admin.hashKey = hashKey)
    (hpfx : cfg.admin.keyPrefix = keyPrefix) {l l' : AdminServer.Label} (hl : S.AdminLabel l l')
    (hstep : s.stepAdmin cfg l = some t) : ∃ t', s'.stepAdmin cfg l' = some t' ∧
    S.SystemAlike t t' := by
  have hothers (conn : Conn) : l ≠ .others conn := by
    rintro rfl
    cases hstep
  have hothers' (conn : Conn) : l' ≠ .others conn := by
    cases hl with
    | arrive => exact nofun
    | other => exact hothers conn
  rw [stepAdmin_eq hothers] at hstep
  obtain ⟨admin, hadmin, rfl⟩ := Option.map_eq_some_iff.mp hstep
  have hserver : S.AdminAlike s.adminServer s'.adminServer := { h.admin with }
  obtain ⟨admin', hadmin', halike, hconn⟩ :=
    hserver.step h.gateway.conn cfg.admin hhash hpfx hl hothers hadmin
  rw [stepAdmin_eq hothers']
  exact ⟨_, Option.map_eq_some_iff.mpr ⟨admin', hadmin', rfl⟩,
    { h with gateway := { h.gateway with conn := hconn }, admin := halike }⟩

/-- **One step of the whole gateway.** -/
theorem SystemAlike.step (h : S.SystemAlike s s') (hhash : cfg.admin.hashKey = hashKey)
    (hpfx : cfg.admin.keyPrefix = keyPrefix) {l l' : System.Label} (hl : S.LabelAlike l l')
    (hstep : System.step cfg s l = some t) : ∃ t', System.step cfg s' l' = some t' ∧
    S.SystemAlike t t' := by
  cases hl with
  | chat hl =>
    obtain ⟨gateway, hgateway, rfl⟩ := Option.map_eq_some_iff.mp hstep
    obtain ⟨gateway', hgateway', halike⟩ := h.gateway.step cfg.gateway hhash hpfx hl hgateway
    exact ⟨_, Option.map_eq_some_iff.mpr ⟨gateway', hgateway', rfl⟩, { h with gateway := halike }⟩
  | models hl => exact h.models_step hhash hpfx hl hstep
  | admin hl => exact h.admin_step hhash hpfx hl hstep
  | @cli cmd cmd' hcmd =>
    cases hstep
    have hcoro := hcmd.coro cfg.cli hhash hpfx
    have hconn := (Conn.outside_renamed S.hash s.gateway.conn hcoro).1
    have hout := outside_alike hcoro s.gateway.conn
    rw [← h.gateway.conn] at hconn hout
    exact ⟨_, rfl, { h with
      gateway := { h.gateway with conn := hconn }
      printed := forall₂_append h.printed (.cons hout .nil) }⟩

/-! ## What leaves the gateway -/

end Secrets

/-- What a chat request has done in the sight of others: the request that goes upstream, and the
response. -/
def Request.seen : Request → Option Pc
  | { phase := .serving pc, .. } => some pc
  | _ => none

/-- The same of a models call. -/
def ModelsCall.seen : ModelsCall → Option ModelsPhase
  | { phase := .authenticating .., .. } => none
  | { phase, .. } => some phase

namespace Secrets
variable {hashKey : Str → Str} {keyPrefix : Str} (S : Secrets hashKey keyPrefix)

/-- Nothing that leaves the gateway tells the runs apart, the creation of the key excepted. -/
structure Indistinguishable (s s' : System) : Prop where
  chat : s'.gateway.requests.map Request.seen = s.gateway.requests.map Request.seen
  models : s'.models.map ModelsCall.seen = s.models.map ModelsCall.seen
  requestLogs : s'.gateway.conn.durable.requestLogs = s.gateway.conn.durable.requestLogs
  admin : List.Forall₂ (fun a a' => a'.req = a.req ∧ a'.time = a.time ∧
    Both (S.Reply a.req) a.reply a'.reply)
    s.admin.history s'.admin.history
  printed : List.Forall₂ (Both S.Line) s.printed s'.printed

variable {S}

theorem map_eq_of_forall₂ {R : α → α → Prop} {f : α → β} {xs ys : List α} (h : List.Forall₂ R xs ys)
    (hf : ∀ x y, R x y → f y = f x) : ys.map f = xs.map f := by
  induction h with
  | nil => rfl
  | cons hR _ ih => rw [List.map_cons, List.map_cons, hf _ _ hR, ih]

theorem RequestAlike.seen {r r' : Request} (h : S.RequestAlike r r') : r'.seen = r.seen := by
  obtain ⟨req, phase, auth, acquired, released⟩ := r
  obtain ⟨req', phase', auth', acquired', released'⟩ := r'
  cases h.phase <;> rfl

theorem ModelsAlike.seen {m m' : ModelsCall} (h : S.ModelsAlike m m') : m'.seen = m.seen := by
  obtain ⟨headers, phase⟩ := m
  obtain ⟨headers', phase'⟩ := m'
  cases h.phase <;> rfl

theorem SystemAlike.indistinguishable {s s' : System} (h : S.SystemAlike s s') :
    S.Indistinguishable s s' where
  chat := map_eq_of_forall₂ h.gateway.requests fun _ _ h => h.seen
  models := map_eq_of_forall₂ h.models fun _ _ h => h.seen
  requestLogs := by
    rw [h.gateway.conn]
    rfl
  admin := h.admin.history.imp fun _ _ h => ⟨h.req, h.time, h.reply⟩
  printed := h.printed

end Secrets

/-- A process that has just started, on the tables of `conn`. -/
def System.init (conn : Conn) (slots drawn : Nat) : System :=
  { gateway := Gateway.init conn slots drawn }

/-- **A key stays where it is created**: replace it by another one that is displayed alike, in the
tables, in the requests of its holder and in its creation. The gateway can take the same steps, and
nothing that leaves it changes, the creation of the key excepted. -/
theorem System.confines_key (cfg : SystemConfig)
    (S : Secrets cfg.admin.hashKey cfg.admin.keyPrefix) (conn : Conn) (slots drawn : Nat)
    {ls ls' : List Label} (hls : List.Forall₂ S.LabelAlike ls ls') {s : System}
    (h : Run (System.step cfg) (System.init conn slots drawn) ls s) :
    ∃ s', Run (System.step cfg) (System.init (conn.renamed S.hash) slots drawn) ls' s' ∧
    S.Indistinguishable s s' := by
  have hinit : S.SystemAlike (System.init conn slots drawn)
      (System.init (conn.renamed S.hash) slots drawn) :=
    ⟨⟨rfl, rfl, rfl, rfl, .nil, .nil⟩, ⟨rfl, rfl, rfl, rfl, .nil, .nil⟩, .nil, .nil⟩
  obtain ⟨s', hrun, hs⟩ :=
    h.simulates (fun _ _ _ _ _ hs hl hstep => hs.step rfl rfl hl hstep) hls hinit
  exact ⟨s', hrun, hs.indistinguishable⟩

namespace Sample

/-- A key that is displayed like `fullKey`. -/
def otherKey : Str := str "emg_AAAAAAAACCCCCCCCCCCCCCCCCCCCCCCCCCCCCCCCCCC"

def hashEither (token : Str) : Str :=
  if token = otherKey
  then str "9a812d05b3d6f4da816f560ec525a29b2510779422262a9a5724f3bd3155bcd3"
  else hashKey token

def system : SystemConfig where
  relay := relay
  admin := { adminConfig with hashKey := hashEither }

def secrets : Secrets system.admin.hashKey system.admin.keyPrefix where
  key := fullKey
  key' := otherKey
  begins := by decide
  begins' := by decide
  shown := by decide
  tokens := {fullKey, otherKey}
  mem := .inl rfl
  mem' := .inr rfl
  injective := by
    rintro _ (rfl | rfl) _ (rfl | rfl) h
    · rfl
    · exact absurd h (by decide)
    · exact absurd h (by decide)
    · rfl

def bearer (token : Str) : Headers := [(str "authorization", str "Bearer " ++ token)]

/-- The holder of a key presents it in two requests; a command lists the keys. -/
def presented (token : Str) : List System.Label :=
  [.chat (.arrive { chat false with headers := bearer token } 0), .chat (.auth 0), .chat (.auth 0),
    .models (.arrive (bearer token) 0), .models (.auth 0), .chat (.body 0 (clockAt 1)),
    .cli (.keyList none)]

theorem headersAlike : secrets.HeadersAlike (bearer fullKey) (bearer otherKey) where
  others := .cons ⟨rfl, fun h => absurd rfl h⟩ .nil
  authorization := ⟨by decide +kernel, by decide +kernel, fun _ => .inl (by decide +kernel)⟩

theorem presented_alike {token token' : Str}
    (h : secrets.HeadersAlike (bearer token) (bearer token')) :
    List.Forall₂ secrets.LabelAlike (presented token) (presented token') := by
  unfold presented
  refine .cons ?_ (.cons ?_ (.cons ?_ (.cons ?_ (.cons ?_ (.cons ?_ (.cons ?_ .nil))))))
  · apply Secrets.LabelAlike.chat
    apply Secrets.ChatLabel.arrive
    exact ⟨h, rfl, rfl⟩
  · exact .chat (.other _ nofun)
  · exact .chat (.other _ nofun)
  · exact .models (.arrive h 0)
  · exact .models (.other _ nofun)
  · exact .chat (.other _ nofun)
  · exact .cli (.other _ nofun)

end Sample

/-- The holder of either key is let in, and waits for a slot. -/
theorem System.confines_presented_key : ∃ s s',
    Run (System.step Sample.system) (System.init Sample.conn 1 0)
      (Sample.presented Sample.fullKey) s ∧
      (s.gateway.requests.map fun r => r.auth.isSome) = [true] ∧
      Run (System.step Sample.system) (System.init (Sample.conn.renamed Sample.secrets.hash) 1 0)
        (Sample.presented Sample.otherKey) s' ∧ Sample.secrets.Indistinguishable s s' := by
  have hrun :
      (((Sample.presented Sample.fullKey).foldlM (System.step Sample.system)
        (System.init Sample.conn 1 0)).any
      fun s => decide ((s.gateway.requests.map fun r => r.auth.isSome) = [true])) = true := by
    decide +kernel
  obtain ⟨s, h, hauth⟩ := Run.exists_of_any hrun
  obtain ⟨s', h', hs⟩ := System.confines_key Sample.system Sample.secrets Sample.conn 1 0
    (Sample.presented_alike Sample.headersAlike) h
  exact ⟨s, s', h, of_decide_eq_true hauth, h', hs⟩

end EasyModelGate
