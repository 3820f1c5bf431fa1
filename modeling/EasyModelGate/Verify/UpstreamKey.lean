import EasyModelGate.Verify.Durability

/-! # The key of the upstream stays between the gateway and the upstream

Two runs of the whole gateway that differ in `upstream_api_key`. The requests that go upstream carry
the one key or the other in one header; everything else that the gateway does, stores and answers is
the same. -/

namespace EasyModelGate

/-- The configuration with another key for the upstream. -/
def RelayEnv.withKey (env : RelayEnv) (k : Option Str) : RelayEnv :=
  { env with upstreamApiKey := k }

def GatewayConfig.withKey (cfg : GatewayConfig) (k : Option Str) : GatewayConfig :=
  { cfg with relay := cfg.relay.withKey k }

def SystemConfig.withKey (cfg : SystemConfig) (k : Option Str) : SystemConfig :=
  { cfg with relay := cfg.relay.withKey k }

/-- `build_request` takes the one key as it takes the other. -/
def RelayEnv.BuildsAlike (env : RelayEnv) (k : Option Str) : Prop := ∀ headers rest payload,
  env.buildRequest (buildUpstreamHeaders headers k ++ rest) payload =
    env.buildRequest (buildUpstreamHeaders headers env.upstreamApiKey ++ rest) payload

/-! ## One request -/

/-- The request for the upstream with other headers. -/
def Pc.withHeaders (headers : Headers) : Pc → Pc
  | .queueing f since timer => .queueing { f with headers } since timer
  | .sending h timer => .sending { h with headers } timer
  | .reading h resp => .reading { h with headers } resp
  | .closing h resp errBody => .closing { h with headers } resp errBody
  | .created g => .created { g with headers }
  | .pulling g => .pulling { g with headers }
  | .yielded g chunk => .yielded { g with headers } chunk
  | .finalizing g errorType pending tUpEnd =>
    .finalizing { g with headers } errorType pending tUpEnd
  | .done o => .done o

section
variable {env : RelayEnv} {clk : Clock} {k : Option Str} {pc : Pc} {headers : Headers}

theorem Pc.frame?_withHeaders (pc : Pc) (headers : Headers) :
    (pc.withHeaders headers).frame? = pc.frame?.map fun f => { f with headers } := by
  cases pc <;> rfl

/-- Only `build_request` looks at the headers. -/
theorem resume_withHeaders
    (hb : ∀ f, pc.frame? = some f → env.buildRequest headers f.payload =
      env.buildRequest f.headers f.payload) (ev : Event) :
    resume (env.withKey k) clk (pc.withHeaders headers) ev =
      (resume env clk pc ev).map fun r => (r.1.withHeaders headers, r.2) := by
  cases pc with
  | queueing f since timer =>
    cases ev
    case acquired =>
      simp only [Pc.withHeaders, resume, afterAcquire_resume, Option.map_some]
      have hbuild : (env.withKey k).buildRequest headers f.payload =
          env.buildRequest f.headers f.payload := hb f rfl
      rw [hbuild]
      cases env.buildRequest f.headers f.payload <;> rfl
    all_goals rfl
  | sending h timer =>
    cases ev
    case response resp =>
      simp only [Pc.withHeaders, resume, Option.map_some]
      rcases Bool.eq_false_or_eq_true h.stream with hs | hs
      · rw [afterSend_stream _ hs, afterSend_stream (env.withKey k) (h := { h with headers }) hs]
        split <;> rfl
      · rw [afterSend_whole _ hs, afterSend_whole (env.withKey k) (h := { h with headers }) hs]
        have hparsed : parsedContent (env.withKey k) resp = parsedContent env resp := rfl
        rw [hparsed]
        cases parsedContent env resp <;> rfl
    all_goals rfl
  | closing h resp errBody =>
    cases ev
    case closed =>
      simp only [Pc.withHeaders, resume, Option.map_some, afterErrorBody_resume]
      rfl
    all_goals rfl
  | pulling g =>
    cases ev
    case chunk chunk =>
      simp only [Pc.withHeaders, resume, Option.map_some, Gen.onChunk]
      have hfeed : g.scanner.feed (env.withKey k).json chunk = g.scanner.feed env.json chunk := rfl
      rw [hfeed]
      cases g.scanner.feed env.json chunk <;> rfl
    all_goals rfl
  | reading | created | yielded | finalizing => cases ev <;> rfl
  | done o => rfl

/-- The headers of a chat request for the upstream. -/
def chatHeaders (req : ChatRequest) (k : Option Str) : Headers :=
  buildUpstreamHeaders req.headers k ++ [(str "Content-Type", str "application/json")]

theorem forwardChat_withKey (env : RelayEnv) (k : Option Str) (req : ChatRequest) (a : Arrival)
    (limiter : FixedWindowRpmLimiter) :
    forwardChat (env.withKey k) req a limiter =
      (((forwardChat env req a limiter).1.1.withHeaders (chatHeaders req k),
        (forwardChat env req a limiter).1.2),
        (forwardChat env req a limiter).2) := by
  have hlimits : checkLimits (env.withKey k) a.auth a.clk limiter =
      checkLimits env a.auth a.clk limiter := rfl
  have hencode (body) : encodeBody (env.withKey k).json body = encodeBody env.json body := rfl
  unfold forwardChat
  simp only [hlimits, hencode]
  generalize (do
    let body ← readBody req
    let raw ← (encodeBody env.json body).mapError Exn.py
    return (body, raw) : Except Exn (List (Str × Json) × Bytes)) = read
  rcases read with e | ⟨body, raw⟩
  · rfl
  dsimp only
  rcases checkLimits env a.auth a.clk limiter with ⟨_ | refusal, limiter⟩
  · dsimp only
    cases encodeBody env.json (maybeInjectUsage body) <;> rfl
  · rfl

end

/-! ## The chat requests -/

def Request.withKey (k : Option Str) (r : Request) : Request :=
  match r.phase with
  | .serving pc => { r with phase := .serving (pc.withHeaders (chatHeaders r.req k)) }
  | _ => r

def Gateway.withKey (g : Gateway) (k : Option Str) : Gateway :=
  { g with requests := g.requests.map (Request.withKey k) }

/-- Its headers are those that the gateway has built with its key. -/
def Request.Sends (k : Option Str) (r : Request) : Prop :=
  ∀ pc f, r.phase = .serving pc → pc.frame? = some f → f.headers = chatHeaders r.req k

section
variable {cfg : GatewayConfig} {g g' : Gateway} {k : Option Str} {r : Request}

theorem settleAuth_withKey (r : Request) (nowMs : Int) (c : Db AuthContext) :
    settleAuth (r.withKey k) nowMs c = (settleAuth r nowMs c).withKey k := by
  have hphase : ∃ phase, r.withKey k = { r with phase } := by
    unfold Request.withKey
    split
    · exact ⟨_, rfl⟩
    · exact ⟨r.phase, rfl⟩
  obtain ⟨phase, hr⟩ := hphase
  rw [hr]
  cases c <;> rfl

theorem settleAuth_sends (r : Request) (nowMs : Int) (c : Db AuthContext) :
    (settleAuth r nowMs c).Sends k := by
  intro pc f hp hf
  cases c with
  | ret | await => cases hp
  | raise =>
    cases hp
    cases hf

theorem Request.withKey_serving {pc : Pc} (hp : r.phase = .serving pc) :
    (r.withKey k).phase = .serving (pc.withHeaders (chatHeaders r.req k)) := by
  rw [withKey, hp]

theorem Request.withKey_phase (h : ∀ pc, r.phase ≠ .serving pc) : r.withKey k = r := by
  unfold withKey
  split
  · exact absurd ‹_› (h _)
  · rfl

theorem Request.withKey_serve (r : Request) (pc : Pc) (effects : List Effect) (took : Nat) :
    (r.withKey k).serve (pc.withHeaders (chatHeaders r.req k)) effects took =
      (r.serve pc effects took).withKey k := by
  unfold withKey serve
  split <;> rfl

theorem Gateway.withKey_serve (g : Gateway) (i : Nat) (r : Request) (pc : Pc)
    (effects : List Effect) (took : Nat) :
    (g.withKey k).serve i (r.withKey k) (pc.withHeaders (chatHeaders r.req k)) effects took =
      (g.serve i r pc effects took).withKey k := by
  unfold Gateway.serve Gateway.withKey
  rw [r.withKey_serve, List.map_set]

theorem Gateway.getElem?_withKey {i : Nat} (h : g.requests[i]? = some r) :
    (g.withKey k).requests[i]? = some (r.withKey k) := by
  unfold withKey
  rw [List.getElem?_map, h]
  rfl

theorem Gateway.stepBody_eq (g : Gateway) (cfg : GatewayConfig) (i : Nat) (r : Request)
    (auth : AuthContext) (clk : Clock) :
    g.stepBody cfg i r auth clk =
      let made := forwardChat cfg.relay r.req { requestId := g.drawn + i, auth, clk } g.limiter
      { g.serve i r made.1.1 made.1.2 0 with limiter := made.2 } := rfl

theorem Gateway.stepBody_withKey (hr : r.withKey k = r) (i : Nat) (auth : AuthContext)
    (clk : Clock) :
    (g.withKey k).stepBody (cfg.withKey k) i r auth clk =
      (g.stepBody cfg i r auth clk).withKey k := by
  have hforward :=
    forwardChat_withKey cfg.relay k r.req { requestId := g.drawn + i, auth, clk } g.limiter
  have hserve := fun pc effects => g.withKey_serve (k := k) i r pc effects 0
  rw [hr] at hserve
  rw [stepBody_eq, stepBody_eq]
  change (let made := forwardChat (cfg.relay.withKey k) r.req
            { requestId := g.drawn + i, auth, clk } g.limiter
    ({ (g.withKey k).serve i r made.1.1 made.1.2 0 with limiter := made.2 } : Gateway)) = _
  rw [hforward]
  dsimp only
  rw [hserve]
  rfl

/-- What is queued has the headers that were built. -/
theorem Admission.sends {env : RelayEnv} {req : ChatRequest} {a : Arrival} {f : Admitted}
    (h : Admission env req a limiter pc effects limiter') (hf : pc.frame? = some f) :
    f.headers = chatHeaders req env.upstreamApiKey := by
  cases h with
  | failed | refused => cases hf
  | admitted _ _ _ _ _ _ _ _ _ hheaders =>
    cases hf
    exact hheaders

/-- **One step of the chat requests** with the other key. -/
theorem Gateway.step_withKey (hbuild : cfg.relay.BuildsAlike k)
    (h : ∀ r ∈ g.requests, r.Sends cfg.relay.upstreamApiKey)
    (hstep : Gateway.step cfg g l = some g') :
    Gateway.step (cfg.withKey k) (g.withKey k) l = some (g'.withKey k) ∧
      ∀ r ∈ g'.requests, r.Sends cfg.relay.upstreamApiKey := by
  have hbefore {i : Nat} {r : Request} (hp : ∀ pc, r.phase ≠ .serving pc)
      (hr : g.requests[i]? = some r) :
      r.withKey k = r ∧ (g.withKey k).requests[i]? = some r := by
    have hsame := Request.withKey_phase (k := k) hp
    exact ⟨hsame, hsame ▸ getElem?_withKey hr⟩
  cases l with
  | arrive req nowMs =>
    cases hstep
    refine ⟨?_, fun r hr => ?_⟩
    · unfold Gateway.step stepArrive withKey
      rw [List.map_append, List.map_singleton, ← settleAuth_withKey]
      rfl
    · rcases List.mem_append.mp hr with hr | hr
      · exact h r hr
      · rw [List.mem_singleton.mp hr]
        exact settleAuth_sends _ _ _
  | auth i =>
    obtain ⟨r, c, nowMs, c', conn, hr, hp, hc, rfl⟩ := step_auth_iff.mp hstep
    obtain ⟨hsame, hr'⟩ := hbefore (fun pc hpc => nomatch hp.symm.trans hpc) hr
    refine ⟨step_auth_iff.mpr ⟨r, c, nowMs, c', conn, hr', hp, hc, ?_⟩,
      forall_mem_set h i (settleAuth_sends _ _ _)⟩
    unfold withKey
    rw [List.map_set, ← settleAuth_withKey, hsame]
  | cancelAuth i =>
    obtain ⟨r, c, nowMs, hr, hp, rfl⟩ := step_cancelAuth_iff.mp hstep
    obtain ⟨hsame, hr'⟩ := hbefore (fun pc hpc => nomatch hp.symm.trans hpc) hr
    refine ⟨step_cancelAuth_iff.mpr ⟨r, c, nowMs, hr', hp, ?_⟩, forall_mem_set h i ?_⟩
    · rw [← withKey_serve, hsame]
      rfl
    · rintro pc f ⟨⟩ ⟨⟩
  | body i clk =>
    obtain ⟨r, auth, hr, hp, rfl⟩ := step_body_iff.mp hstep
    obtain ⟨hsame, hr'⟩ := hbefore (fun pc hpc => nomatch hp.symm.trans hpc) hr
    refine ⟨step_body_iff.mpr ⟨r, auth, hr', hp, (stepBody_withKey hsame i auth clk).symm⟩,
      forall_mem_set h i ?_⟩
    rintro pc f ⟨⟩ hf
    exact (Admission.of_forwardChat rfl).sends hf
  | event i clk ev =>
    obtain ⟨r, pc, pc', effects, hr, hp, hres, ht, rfl⟩ := step_event_iff.mp hstep
    have hsends := h r (List.mem_of_getElem? hr)
    refine ⟨step_event_iff.mpr ⟨r.withKey k, _, pc'.withHeaders (chatHeaders r.req k), effects,
      getElem?_withKey hr, Request.withKey_serving hp, ?_, ht,
      (g.withKey_serve i r pc' effects ev.takes).symm⟩, forall_mem_set h i ?_⟩
    · have hb (f) (hf : pc.frame? = some f) :
          cfg.relay.buildRequest (chatHeaders r.req k) f.payload =
          cfg.relay.buildRequest f.headers f.payload := by
        rw [hsends pc f hp hf]
        exact hbuild _ _ _
      exact (resume_withHeaders hb ev).trans (congrArg _ hres)
    · rintro pc'' f ⟨⟩ hf
      rcases (Resumed.of_resume hres).frame with hframe | ⟨o, rfl⟩
      · exact hsends pc f hp (hframe ▸ hf)
      · cases hf
  | task j =>
    obtain ⟨task, coro, conn, ht, hc, rfl⟩ := step_task_iff.mp hstep
    exact ⟨step_task_iff.mpr ⟨task, coro, conn, ht, hc, rfl⟩, h⟩

end

/-! ## The system -/

def ModelsCall.withKey (k : Option Str) (call : ModelsCall) : ModelsCall :=
  match call.phase with
  | .asking _ => { call with phase := .asking (buildUpstreamHeaders call.headers k) }
  | _ => call

/-- Its headers are those that the gateway has built with its key. -/
def ModelsCall.Sends (k : Option Str) (call : ModelsCall) : Prop :=
  ∀ headers, call.phase = .asking headers → headers = buildUpstreamHeaders call.headers k

namespace System

/-- Every request that goes upstream has the headers that the gateway has built with its key. -/
structure Sends (k : Option Str) (s : System) : Prop where
  chat : ∀ r ∈ s.gateway.requests, r.Sends k
  models : ∀ call ∈ s.models, call.Sends k

def withKey (s : System) (k : Option Str) : System :=
  { s with gateway := s.gateway.withKey k, models := s.models.map (ModelsCall.withKey k) }

variable {cfg : SystemConfig} {s s' : System} {k : Option Str} {call : ModelsCall}

theorem settleModels_withKey {env : RelayEnv} (hbuild : env.BuildsAlike k)
    (headers : Headers) (nowMs : Int) (c : Db AuthContext) :
    ModelsCall.withKey k ⟨headers, Public.settleModels env headers nowMs c⟩ =
      ⟨headers, Public.settleModels (env.withKey k) headers nowMs c⟩ := by
  cases c with
  | ret auth =>
    have hheaders := hbuild headers [] []
    rw [List.append_nil, List.append_nil] at hheaders
    simp only [Public.settleModels, Public.askModels]
    rw [show (env.withKey k).buildRequest
      (buildUpstreamHeaders headers (env.withKey k).upstreamApiKey) [] = _ from hheaders]
    cases env.buildRequest (buildUpstreamHeaders headers env.upstreamApiKey) [] <;> rfl
  | raise | await => rfl

theorem settleModels_sends (env : RelayEnv) (headers : Headers) (nowMs : Int) (c : Db AuthContext) :
    ModelsCall.Sends env.upstreamApiKey ⟨headers, Public.settleModels env headers nowMs c⟩ := by
  intro headers' hp
  cases c with
  | ret =>
    simp only [Public.settleModels, Public.askModels] at hp
    split at hp <;> cases hp
    rfl
  | raise | await => cases hp

theorem sends_done {headers : Headers} {r : Except Exn Response} :
    ModelsCall.Sends k ⟨headers, .done r⟩ :=
  fun _ hp => nomatch hp

theorem getElem?_withKey {i : Nat} (h : s.models[i]? = some call) :
    (s.withKey k).models[i]? = some (call.withKey k) := by
  unfold withKey
  rw [List.getElem?_map, h]
  rfl

theorem getElem?_before {i : Nat} (h : s.models[i]? = some call)
    (hp : ∀ headers, call.phase ≠ .asking headers) :
    (s.withKey k).models[i]? = some call := by
  rw [getElem?_withKey h]
  unfold ModelsCall.withKey
  split
  · exact absurd ‹_› (hp _)
  · rfl

theorem setModels_withKey (s : System) (i : Nat) (call : ModelsCall) (r : Except Exn Response) :
    (s.withKey k).setModels i (call.withKey k)
      (.done r) = (s.setModels i call (.done r)).withKey k := by
  have hdone : ({ call.withKey k with phase := .done r } : ModelsCall) =
    ModelsCall.withKey k { call with phase := .done r } := by
    unfold ModelsCall.withKey
    cases call.phase <;> rfl
  unfold setModels
  rw [hdone]
  unfold withKey
  rw [List.map_set]

/-- **One step of the whole gateway** with the other key. -/
theorem step_withKey (hbuild : cfg.relay.BuildsAlike k) (h : s.Sends cfg.relay.upstreamApiKey)
    (hstep : System.step cfg s l = some s') :
    System.step (cfg.withKey k) (s.withKey k) l = some (s'.withKey k) ∧
    s'.Sends cfg.relay.upstreamApiKey := by
  cases Stepped.of_step hstep with
  | chat hg =>
    obtain ⟨hg', hsends⟩ := Gateway.step_withKey hbuild h.chat hg
    exact ⟨Option.map_eq_some_iff.mpr ⟨_, hg', rfl⟩, hsends, h.models⟩
  | @modelsArrive headers nowMs c hc =>
    subst hc
    refine ⟨congrArg some ?_, h.chat, fun call hcall => ?_⟩
    · unfold withKey
      rw [List.map_append, List.map_singleton, settleModels_withKey hbuild]
      rfl
    · rcases List.mem_append.mp hcall with hcall | hcall
      · exact h.models call hcall
      · rw [List.mem_singleton.mp hcall]
        exact settleModels_sends _ _ _ _
  | @modelsAuth i call c nowMs c' conn hm hp hc =>
    refine ⟨?_, h.chat, forall_mem_set h.models i (settleModels_sends _ _ _ _)⟩
    have hm' := getElem?_before (k := k) hm fun _ hask => nomatch hp.symm.trans hask
    have hadv : c.advance Conn.handler (s.withKey k).gateway.conn = some (c', conn) := hc
    simp only [System.step, stepModels, hm', hp, hadv, Option.map_some, Option.some.injEq]
    unfold settleModelsCall setModels withKey
    rw [List.map_set, settleModels_withKey hbuild]
    rfl
  | @modelsCancelled i call c nowMs hm hp =>
    refine ⟨?_, h.chat, forall_mem_set h.models i sends_done⟩
    have hm' := getElem?_before (k := k) hm fun _ hask => nomatch hp.symm.trans hask
    have hcall : call.withKey k = call := Option.some.inj ((getElem?_withKey hm).symm.trans hm')
    simp only [System.step, stepModels, hm', hp]
    rw [← setModels_withKey, hcall]
  | @modelsAnswered i call headers ev hm hp =>
    refine ⟨?_, h.chat, forall_mem_set h.models i sends_done⟩
    have hp' : (call.withKey k).phase = .asking (buildUpstreamHeaders call.headers k) := by
      rw [ModelsCall.withKey, hp]
    simp only [System.step, stepModels, getElem?_withKey hm, hp']
    rw [setModels_withKey]
  | @admin l admin hl hadmin =>
    refine ⟨?_, h.chat, h.models⟩
    change (s.withKey k).stepAdmin (cfg.withKey k) l = _
    rw [Secrets.stepAdmin_eq hl]
    exact Option.map_eq_some_iff.mpr ⟨admin, hadmin, rfl⟩
  | cli => exact ⟨rfl, h.chat, h.models⟩

theorem run_withKey (hbuild : cfg.relay.BuildsAlike k) (h : Run (System.step cfg) s ls s')
    (hs : s.Sends cfg.relay.upstreamApiKey) :
    Run (System.step (cfg.withKey k)) (s.withKey k) ls (s'.withKey k) ∧
    s'.Sends cfg.relay.upstreamApiKey := by
  induction h with
  | nil => exact ⟨.nil, hs⟩
  | snoc _ hstep ih =>
    obtain ⟨hrun, hsends⟩ := ih
    obtain ⟨hstep', hsends'⟩ := step_withKey hbuild hsends hstep
    exact ⟨.snoc hrun hstep', hsends'⟩

end System

/-! ## What others see -/

/-- The headers that do not name the key. -/
def Headers.withoutKey (headers : Headers) : Headers :=
  headers.filter fun h => h.1 ≠ str "Authorization"

theorem buildUpstreamHeaders_withoutKey (headers : Headers) (k k' : Option Str) :
    (buildUpstreamHeaders headers k).withoutKey = (buildUpstreamHeaders headers k').withoutKey := by
  have hkey (k : Option Str) : (((k.filter (· ≠ [])).map fun key =>
      (str "Authorization", str "Bearer " ++ key)).toList).filter
        (fun h => h.1 ≠ str "Authorization") = [] := by
    cases k.filter (· ≠ []) <;> rfl
  unfold Headers.withoutKey buildUpstreamHeaders
  simp only [List.filter_append, hkey]

theorem chatHeaders_withoutKey (req : ChatRequest) (k k' : Option Str) :
    (chatHeaders req k).withoutKey = (chatHeaders req k').withoutKey := by
  have hbuilt := buildUpstreamHeaders_withoutKey req.headers k k'
  unfold chatHeaders
  unfold Headers.withoutKey at hbuilt ⊢
  rw [List.filter_append, List.filter_append, hbuilt]

/-- The request, with what its headers for the upstream say besides the key. -/
def Request.withoutKey (r : Request) : Request :=
  match r.phase with
  | .serving pc =>
    { r with
      phase := .serving (pc.withHeaders ((pc.frame?.map Admitted.headers).getD []).withoutKey) }
  | _ => r

def ModelsCall.withoutKey (call : ModelsCall) : ModelsCall :=
  match call.phase with
  | .asking headers => { call with phase := .asking headers.withoutKey }
  | _ => call

theorem Pc.withHeaders_withHeaders (pc : Pc) (headers headers' : Headers) :
    (pc.withHeaders headers).withHeaders headers' = pc.withHeaders headers' := by
  cases pc <;> rfl

theorem Request.Sends.withoutKey {r : Request} (h : r.Sends k) (k' : Option Str) :
    (r.withKey k').withoutKey = r.withoutKey := by
  unfold Request.withKey
  split
  case h_2 => rfl
  rename_i pc hp
  unfold Request.withoutKey
  rw [hp]
  dsimp only
  rw [pc.withHeaders_withHeaders, pc.frame?_withHeaders]
  cases hf : pc.frame? with
  | none => rfl
  | some f =>
    rw [Option.map_some, Option.map_some, Option.map_some, Option.getD_some,
      Option.getD_some, h pc f hp hf, chatHeaders_withoutKey r.req k' k]

theorem ModelsCall.Sends.withoutKey {call : ModelsCall} (h : call.Sends k) (k' : Option Str) :
    (call.withKey k').withoutKey = call.withoutKey := by
  unfold ModelsCall.withKey
  split
  case h_2 => rfl
  rename_i headers hp
  unfold ModelsCall.withoutKey
  rw [hp]
  dsimp only
  rw [h headers hp, buildUpstreamHeaders_withoutKey call.headers k' k]

namespace System

/-- The same but for the key in the headers for the upstream. -/
structure SameButKey (s s' : System) : Prop where
  gateway : { s'.gateway with requests := [] } = { s.gateway with requests := [] }
  chat : s'.gateway.requests.map Request.withoutKey = s.gateway.requests.map Request.withoutKey
  models : s'.models.map ModelsCall.withoutKey = s.models.map ModelsCall.withoutKey
  admin : s'.admin = s.admin
  printed : s'.printed = s.printed

/-- **The key of the upstream stays there**: with another key the gateway can take the same steps,
and nothing that it stores, answers, prints or sends tells the keys apart, but for one header of
what it sends upstream. -/
theorem hides_upstream_key (cfg : SystemConfig) (k : Option Str)
    (hbuild : cfg.relay.BuildsAlike k) (conn : Conn) (slots drawn : Nat) (ls : List Label)
    (s : System) (h : Run (System.step cfg) (System.init conn slots drawn) ls s) :
    ∃ s', Run (System.step (cfg.withKey k)) (System.init conn slots drawn) ls s' ∧
    s.SameButKey s' := by
  have hinit : (System.init conn slots drawn).Sends cfg.relay.upstreamApiKey :=
    ⟨fun _ hr => absurd hr List.not_mem_nil, fun _ hm => absurd hm List.not_mem_nil⟩
  obtain ⟨hrun, hsends⟩ := run_withKey hbuild h hinit
  refine ⟨s.withKey k, hrun, rfl, ?_, ?_, rfl, rfl⟩
  · exact List.map_map.trans (List.map_congr_left fun r hr => (hsends.chat r hr).withoutKey k)
  · exact List.map_map.trans (List.map_congr_left fun call hcall =>
      (hsends.models call hcall).withoutKey k)

end System

/-- httpx takes a key of ASCII characters as it takes none. -/
theorem Sample.buildsAlike : relay.BuildsAlike (some (str "sk-upstream")) := by
  intro headers rest payload
  have hkey : [(str "Authorization", str "Bearer " ++ str "sk-upstream")].all
      (fun h => h.2.isAscii) = true := by decide
  have hascii : (buildUpstreamHeaders headers (some (str "sk-upstream"))).all
      (fun h => h.2.isAscii) =
      (buildUpstreamHeaders headers none).all fun h => h.2.isAscii := by
    unfold buildUpstreamHeaders
    simp only [List.all_append]
    exact congrArg _ hkey
  change buildRequest _ payload = buildRequest (buildUpstreamHeaders headers none ++ rest) payload
  unfold buildRequest
  rw [List.all_append, List.all_append, hascii]

theorem System.hides_upstream_key_served : ∃ s s',
    Run (System.step Sample.system) (System.init {} 1 0) (Sample.issued ++ Sample.served) s ∧
    s.gateway.conn.durable.requestLogs.rows.length = 1 ∧
    Run (System.step (Sample.system.withKey (some (str "sk-upstream")))) (System.init {} 1 0)
      (Sample.issued ++ Sample.served) s' ∧ s.SameButKey s' := by
  obtain ⟨s₀, s, h, h', hlogged, -⟩ := Sample.exists_served
  have hrun := h.append h'
  obtain ⟨s', hrun', hsame⟩ := hides_upstream_key Sample.system _ Sample.buildsAlike _ 1 0 _ s hrun
  exact ⟨s, s', hrun, hlogged, hrun', hsame⟩

end EasyModelGate
