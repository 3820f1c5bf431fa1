import EasyModelGate.Verify.UpstreamKey

/-! # Nothing goes upstream without a key

The gateway calls the upstream only for a request that has presented a key: the row of the key and
the row of its owner have been looked up since the request arrived, and both were in order. What
goes upstream is made of that request. -/

namespace EasyModelGate

open Auth

/-! ## What `require_auth` has seen -/

/-- The header names a key. -/
structure Auth.Presents (keyPrefix header : Str) : Prop where
  scheme : scheme header = str "bearer"
  begins : keyPrefix <+: token header

/-- The row of the key has passed its checks. -/
structure Auth.Valid (row : Row ApiKey) (nowMs : Int) : Prop where
  enabled : row.val.enabled = true
  unexpired : ∀ t, row.val.expiresAt = some t → nowMs < t

/-- `require_auth` has returned `auth`: `saw` tells what has been in the tables when it looked. -/
structure Auth.Granted (hashKey : Str → Str) (keyPrefix : Str) (saw : (Tables → Prop) → Prop)
    (header : Str) (nowMs : Int) (auth : AuthContext) : Prop where
  presents : Presents keyPrefix header
  rows : ∃ row user, saw (fun t => t.keyByHash (hashKey (token header)) = some row) ∧
    Valid row nowMs ∧
    saw (fun t => t.userById row.val.userId = some user) ∧ user.val.enabled = true ∧
    auth = context row user

section
variable {hashKey : Str → Str} {keyPrefix header : Str} {nowMs : Int} {conn conn' : Conn}
  {c : Db AuthContext}

theorem Auth.Granted.mono {saw saw' : (Tables → Prop) → Prop} (hsaw : ∀ P, saw P → saw' P)
    (h : Granted hashKey keyPrefix saw header nowMs auth) :
    Granted hashKey keyPrefix saw' header nowMs auth := by
  obtain ⟨hpresents, row, user, hrow, hvalid, huser, henabled, hauth⟩ := h
  exact ⟨hpresents, row, user, hsaw _ hrow, hvalid, hsaw _ huser, henabled, hauth⟩

/-- The look at the key. -/
theorem requireAuth_advance (h : (requireAuth hashKey keyPrefix header nowMs).advance Conn.handler
      conn = some (c, conn')) :
    (∃ e, c = .raise e) ∨ ∃ row, c = checkRow row nowMs ∧ Presents keyPrefix header ∧
      conn.view.keyByHash (hashKey (token header)) = some row := by
  unfold requireAuth at h
  split at h
  · cases h
  rename_i hpresented
  split at h
  · cases h
  rename_i hbegins
  obtain ⟨hscheme, -⟩ := not_or.mp hpresented
  cases h
  cases hq : (Conn.handler (.query (.keyByHash (hashKey (token header)))) conn).1 with
  | error e => exact .inl ⟨e, rfl⟩
  | ok found =>
    cases found with
    | none => exact .inl ⟨_, rfl⟩
    | some row =>
      refine .inr ⟨row, rfl, ⟨not_not.mp hscheme, not_not.mp hbegins⟩, ?_⟩
      exact Except.ok.inj (Conn.query_handler_ok hq)

/-- The look at its owner. -/
theorem checkRow_granted {row : Row ApiKey}
    (h : (checkRow row nowMs).advance Conn.handler conn = some (c, conn')) :
    (∃ e, c = .raise e) ∨ ∃ user, c = .ret (context row user) ∧ Valid row nowMs ∧
      conn.view.userById row.val.userId = some user ∧ user.val.enabled = true := by
  unfold checkRow at h
  split at h
  · cases h
  rename_i henabled
  split at h
  · cases h
  rename_i hunexpired
  have hvalid : Valid row nowMs := by
    refine ⟨by simpa using henabled, fun t ht => ?_⟩
    rw [ht] at hunexpired
    simpa using hunexpired
  cases h
  cases hq : (Conn.handler (.query (.userById row.val.userId)) conn).1 with
  | error e => exact .inl ⟨e, rfl⟩
  | ok found =>
    cases found with
    | none => exact .inl ⟨_, rfl⟩
    | some user =>
      cases hu : user.val.enabled with
      | false => exact .inl ⟨userDisabled, by simp [Coro.bind, hu]⟩
      | true =>
        obtain ⟨-, -, hfound⟩ := Except.bind_eq_ok (Conn.query_handler_ok hq)
        exact .inr ⟨user, by simp [Coro.bind, hu], hvalid, Except.ok.inj hfound, hu⟩

end

/-! ## What a run has seen -/

/-- After the steps `since`, the run has come by tables such that `P` holds. -/
def System.Saw (cfg : SystemConfig) (s₀ : System) (ls since : List System.Label)
    (P : Tables → Prop) : Prop :=
  ∃ ls₁ s₁, since <+: ls₁ ∧ ls₁ <+: ls ∧ Run (System.step cfg) s₀ ls₁ s₁ ∧ P s₁.gateway.conn.view

/-- `require_auth` of what had arrived after the steps `since` has returned `auth`. -/
abbrev System.Grants (cfg : SystemConfig) (s₀ : System) (ls since : List System.Label) :
    Str → Int → AuthContext → Prop :=
  Auth.Granted cfg.admin.hashKey cfg.admin.keyPrefix (System.Saw cfg s₀ ls since)

/-- The last of the steps `since` is `l`, with which number `i` of what `parties` lists has
arrived. -/
def System.Arrived (cfg : SystemConfig) (s₀ : System) (since : List System.Label)
    (parties : System → List α) (i : Nat) (l : System.Label) : Prop :=
  ∃ ls s, since = ls ++ [l] ∧ Run (System.step cfg) s₀ ls s ∧ (parties s).length = i

/-- What `forward_chat` makes of a request. -/
structure Admitted.MadeOf (env : RelayEnv) (req : ChatRequest) (f : Admitted) : Prop where
  payload : ∃ body, readBody req = .ok body ∧
    encodeBody env.json (maybeInjectUsage body) = .ok f.payload ∧
    f.stream = isStream body
  headers : f.headers = chatHeaders req env.upstreamApiKey

section
variable {cfg : SystemConfig} {s₀ s : System} {ls since : List System.Label} {P : Tables → Prop}

theorem System.Saw.mono (h : System.Saw cfg s₀ ls since P) (l : System.Label) :
    System.Saw cfg s₀ (ls ++ [l]) since P := by
  obtain ⟨ls₁, s₁, hsince, hprefix, hrun, hP⟩ := h
  exact ⟨ls₁, s₁, hsince, hprefix.trans (List.prefix_append _ _), hrun, hP⟩

theorem System.Saw.now (h : Run (System.step cfg) s₀ ls s) (hsince : since <+: ls)
    (hP : P s.gateway.conn.view) :
    System.Saw cfg s₀ ls since P := ⟨ls, s, hsince, List.prefix_refl ls, h, hP⟩

variable (cfg s₀ ls since)

/-- Where `require_auth` of what arrived with the last of the steps `since` is. -/
inductive System.AuthSince (header : Str) (nowMs : Int) : Db AuthContext → Prop
  | start : AuthSince header nowMs (requireAuth cfg.admin.hashKey cfg.admin.keyPrefix header nowMs)
  | found {row} (hpresents : Presents cfg.admin.keyPrefix header)
    (hrow : System.Saw cfg s₀ ls since fun t =>
      t.keyByHash (cfg.admin.hashKey (token header)) = some row) :
    AuthSince header nowMs (checkRow row nowMs)

variable {cfg s₀ ls since}

theorem System.AuthSince.mono {header : Str} {c : Db AuthContext}
    (h : System.AuthSince cfg s₀ ls since header nowMs c) (l : System.Label) :
    System.AuthSince cfg s₀ (ls ++ [l]) since header nowMs c := by
  cases h with
  | start => exact .start
  | found hpresents hrow => exact .found hpresents (hrow.mono l)

/-- One statement of `require_auth`. -/
theorem System.AuthSince.advance {header : Str} {c c' : Db AuthContext} {conn : Conn}
    (h : System.AuthSince cfg s₀ ls since header nowMs c) (hrun : Run (System.step cfg) s₀ ls s)
    (hsince : since <+: ls) (hadv : c.advance Conn.handler s.gateway.conn = some (c', conn)) :
    (∃ e, c' = .raise e) ∨ System.AuthSince cfg s₀ ls since header nowMs c' ∧
    (∀ auth, c' ≠ .ret auth) ∨
      ∃ auth, c' = .ret auth ∧ System.Grants cfg s₀ ls since header nowMs auth := by
  cases h with
  | start =>
    rcases requireAuth_advance hadv with he | ⟨row, rfl, hpresents, hrow⟩
    · exact .inl he
    · refine .inr (.inl ⟨.found hpresents (.now hrun hsince hrow), fun auth hret => ?_⟩)
      rcases checkRow_cases row nowMs with ⟨e, hc⟩ | ⟨k, hc, -⟩ <;> cases hc.symm.trans hret
  | @found row hpresents hrow =>
    rcases checkRow_granted hadv with he | ⟨user, rfl, hvalid, huser, henabled⟩
    · exact .inl he
    · exact .inr (.inr ⟨_, rfl, hpresents, row, user, hrow, hvalid, .now hrun hsince huser,
        henabled, rfl⟩)

end

/-! ## The requests -/

/-- The `Authorization` header. -/
def Headers.authorization (headers : Headers) : Str := (headers.get (str "authorization")).getD []

section
variable (cfg : SystemConfig) (s₀ : System) (ls since : List System.Label) (i : Nat)

/-- With the last of the steps `since`, chat request `i` has arrived. -/
abbrev ChatRequest.Arrived (req : ChatRequest) (nowMs : Int) : Prop :=
  System.Arrived cfg s₀ since (·.gateway.requests) i (.chat (.arrive req nowMs))

/-- With the last of the steps `since`, models call `i` has arrived. -/
abbrev ModelsCall.Arrived (headers : Headers) (nowMs : Int) : Prop :=
  System.Arrived cfg s₀ since (·.models) i (.models (.arrive headers nowMs))

/-- Chat request `i` goes upstream, or waits to. -/
structure Admitted.Vouched (req : ChatRequest) (f : Admitted) : Prop where
  granted : ∃ since nowMs, req.Arrived cfg s₀ since i nowMs ∧
    System.Grants cfg s₀ ls since req.headers.authorization nowMs f.auth
  made : f.MadeOf cfg.relay req

inductive Request.Vouched (r : Request) : Prop
  | authenticating {c since nowMs} (hp : r.phase = .authenticating c nowMs)
    (ha : r.req.Arrived cfg s₀ since i nowMs) (hsince : since <+: ls)
    (hc : System.AuthSince cfg s₀ ls since r.req.headers.authorization nowMs c)
  | reading {auth since nowMs} (hp : r.phase = .reading auth)
    (ha : r.req.Arrived cfg s₀ since i nowMs)
    (hg : System.Grants cfg s₀ ls since r.req.headers.authorization nowMs auth)
  | serving {pc} (hp : r.phase = .serving pc)
    (hf : ∀ f, pc.frame? = some f → f.Vouched cfg s₀ ls i r.req)

inductive ModelsCall.Vouched (call : ModelsCall) : Prop
  | authenticating {c since nowMs} (hp : call.phase = .authenticating c nowMs)
    (ha : ModelsCall.Arrived cfg s₀ since i call.headers nowMs) (hsince : since <+: ls)
    (hc : System.AuthSince cfg s₀ ls since call.headers.authorization nowMs c)
  | asking {headers since nowMs auth} (hp : call.phase = .asking headers)
    (hheaders : headers = buildUpstreamHeaders call.headers cfg.relay.upstreamApiKey)
    (ha : ModelsCall.Arrived cfg s₀ since i call.headers nowMs)
    (hg : System.Grants cfg s₀ ls since call.headers.authorization nowMs auth)
  | done {r} (hp : call.phase = .done r)

end

section
variable {cfg : SystemConfig} {s₀ s s' : System} {ls since : List System.Label} {i : Nat}
  {r : Request} {call : ModelsCall} {c : Db AuthContext}

theorem Auth.Granted.later {header : Str} {nowMs : Int} {auth : AuthContext}
    (h : System.Grants cfg s₀ ls since header nowMs auth) (l : System.Label) :
    System.Grants cfg s₀ (ls ++ [l]) since header nowMs auth := h.mono fun _ hP => hP.mono l

theorem Request.Vouched.mono (h : r.Vouched cfg s₀ ls i) (l : System.Label) :
    r.Vouched cfg s₀ (ls ++ [l]) i := by
  cases h with
  | authenticating hp ha hsince hc =>
    exact .authenticating hp ha (hsince.trans (List.prefix_append _ _)) (hc.mono l)
  | reading hp ha hg => exact .reading hp ha (hg.later l)
  | serving hp hf =>
    refine .serving hp fun f hframe => ?_
    obtain ⟨⟨since, nowMs, ha, hg⟩, hmade⟩ := hf f hframe
    exact ⟨⟨since, nowMs, ha, hg.later l⟩, hmade⟩

theorem ModelsCall.Vouched.mono (h : call.Vouched cfg s₀ ls i) (l : System.Label) :
    call.Vouched cfg s₀ (ls ++ [l]) i := by
  cases h with
  | authenticating hp ha hsince hc =>
    exact .authenticating hp ha (hsince.trans (List.prefix_append _ _)) (hc.mono l)
  | asking hp hheaders ha hg => exact .asking hp hheaders ha (hg.later l)
  | done hp => exact .done hp

/-- A request has ended with an exception. -/
theorem Request.Vouched.raised {e : Exn} (hp : r.phase = .serving (.done (.raised e))) :
    r.Vouched cfg s₀ ls i :=
  .serving hp fun _ hf => nomatch hf

/-- After a stretch of `require_auth` that has not returned. -/
theorem settleAuth_vouched (ha : r.req.Arrived cfg s₀ since i nowMs) (hsince : since <+: ls)
    (hret : ∀ auth, c ≠ .ret auth)
    (hc : System.AuthSince cfg s₀ ls since r.req.headers.authorization nowMs c) :
    (settleAuth r nowMs c).Vouched cfg s₀ ls i := by
  cases c with
  | ret auth => exact absurd rfl (hret auth)
  | raise => exact .raised rfl
  | await => exact .authenticating rfl ha hsince hc

theorem settleModels_vouched {headers : Headers}
    (ha : ModelsCall.Arrived cfg s₀ since i headers nowMs) (hsince : since <+: ls)
    (hret : ∀ auth, c ≠ .ret auth)
    (hc : System.AuthSince cfg s₀ ls since headers.authorization nowMs c) :
    ModelsCall.Vouched cfg s₀ ls i ⟨headers, Public.settleModels cfg.relay headers nowMs c⟩ := by
  cases c with
  | ret auth => exact absurd rfl (hret auth)
  | raise => exact .done rfl
  | await => exact .authenticating rfl ha hsince hc

theorem askModels_vouched {headers : Headers} (ha : ModelsCall.Arrived cfg s₀ since i headers nowMs)
    (hg : System.Grants cfg s₀ ls since headers.authorization nowMs auth) :
    ModelsCall.Vouched cfg s₀ ls i ⟨headers, Public.askModels cfg.relay headers⟩ := by
  unfold Public.askModels
  dsimp only
  split
  · exact .asking rfl rfl ha hg
  · exact .done rfl

theorem requireAuth_ne_ret (hashKey : Str → Str) (keyPrefix header : Str) (nowMs : Int)
    (auth : AuthContext) :
    requireAuth hashKey keyPrefix header nowMs ≠ .ret auth := by
  intro hret
  rcases requireAuth_cases hashKey keyPrefix header nowMs with ⟨e, hc⟩ | ⟨k, hc, -⟩ <;>
    cases hc.symm.trans hret

/-- What is admitted has been made of its request. -/
theorem Admission.madeOf {env : RelayEnv} {req : ChatRequest} {a : Arrival} {f : Admitted}
    (h : Admission env req a limiter pc effects limiter') (hf : pc.frame? = some f) :
    f.auth = a.auth ∧ f.MadeOf env req := by
  cases h with
  | failed | refused => cases hf
  | admitted hb _ _ hpay hauth hstream _ _ hpayload hheaders =>
    cases hf
    exact ⟨hauth, ⟨_, hb, hpayload ▸ hpay, hstream⟩, hheaders⟩

/-- What holds of the party that has moved and of all others. -/
theorem forall_getElem?_set {P : Nat → α → Prop} {xs : List α} (h : ∀ j x, xs[j]? = some x → P j x)
    (i : Nat) {y : α} (hy : P i y) : ∀ j x, (xs.set i y)[j]? = some x → P j x := by
  intro j x hx
  rcases getElem?_set_cases hx with ⟨rfl, rfl⟩ | ⟨-, hx⟩
  · exact hy
  · exact h j x hx

namespace System

/-- Every request at its stage. -/
structure Vouched (cfg : SystemConfig) (s₀ : System) (ls : List Label) (s : System) : Prop where
  chat : ∀ (i : Nat) (r : Request), s.gateway.requests[i]? = some r → r.Vouched cfg s₀ ls i
  models : ∀ (i : Nat) (call : ModelsCall), s.models[i]? = some call → call.Vouched cfg s₀ ls i

/-- **One step of the chat requests.** -/
theorem Vouched.chat_step {g : Gateway} (h : Vouched cfg s₀ ls s)
    (hrun : Run (System.step cfg) s₀ ls s) (hstep : Gateway.step cfg.gateway s.gateway l = some g) :
    ∀ (i : Nat) (r : Request), g.requests[i]? = some r → r.Vouched cfg s₀ (ls ++ [.chat l]) i := by
  have hlater (i : Nat) (r : Request) (hr : s.gateway.requests[i]? = some r) :
      r.Vouched cfg s₀ (ls ++ [.chat l]) i := (h.chat i r hr).mono _
  cases EasyModelGate.Stepped.of_step hstep with
  | @arrive req nowMs =>
    intro i r hr
    rcases getElem?_concat_cases hr with hr | ⟨rfl, rfl⟩
    · exact hlater i r hr
    · have ha : req.Arrived cfg s₀ (ls ++ [.chat (.arrive req nowMs)])
          s.gateway.requests.length nowMs :=
        ⟨ls, s, rfl, hrun, rfl⟩
      exact settleAuth_vouched ha List.prefix_rfl (requireAuth_ne_ret _ _ _ _) .start
  | @auth i r c nowMs c' conn hr hp hc =>
    apply forall_getElem?_set hlater
    cases h.chat i r hr with
    | reading hp' | serving hp' => cases hp.symm.trans hp'
    | authenticating hp' ha hsince hauth =>
      cases hp.symm.trans hp'
      rcases hauth.advance hrun hsince hc with ⟨e, rfl⟩ | ⟨hnext, hret⟩ | ⟨auth, rfl, hg⟩
      · exact .raised rfl
      · exact settleAuth_vouched ha (hsince.trans (List.prefix_append _ _)) hret (hnext.mono _)
      · exact .reading rfl ha (hg.later _)
  | cancelAuth hr hp => exact forall_getElem?_set hlater _ (.raised rfl)
  | @body i r auth clk pc effects limiter hr hp hadm =>
    apply forall_getElem?_set hlater
    cases h.chat i r hr with
    | authenticating hp' | serving hp' => cases hp.symm.trans hp'
    | @reading _ since nowMs hp' ha hg =>
      cases hp.symm.trans hp'
      refine .serving rfl fun f hf => ?_
      obtain ⟨hauth, hmade⟩ := hadm.madeOf hf
      refine ⟨⟨since, nowMs, ha, ?_⟩, hmade⟩
      rw [hauth]
      exact hg.later _
  | @event i r pc clk ev pc' effects hr hp hres ht =>
    apply forall_getElem?_set hlater
    cases hlater i r hr with
    | authenticating hp' | reading hp' => cases hp.symm.trans hp'
    | serving hp' hframe =>
      cases hp.symm.trans hp'
      refine .serving rfl fun f hf => ?_
      rcases hres.frame with hsame | ⟨o, rfl⟩
      · exact hframe f (hsame ▸ hf)
      · cases hf
  | task ht hc => exact hlater

/-- **One step of the whole gateway.** -/
theorem Vouched.step (h : Vouched cfg s₀ ls s) (hrun : Run (System.step cfg) s₀ ls s)
    (hstep : System.step cfg s l = some s') :
    Vouched cfg s₀ (ls ++ [l]) s' := by
  have hchat (i : Nat) (r : Request) (hr : s.gateway.requests[i]? = some r) :
      r.Vouched cfg s₀ (ls ++ [l]) i := (h.chat i r hr).mono l
  have hmodels (i : Nat) (call : ModelsCall) (hcall : s.models[i]? = some call) :
      call.Vouched cfg s₀ (ls ++ [l]) i := (h.models i call hcall).mono l
  cases Stepped.of_step hstep with
  | chat hg => exact ⟨h.chat_step hrun hg, hmodels⟩
  | @modelsArrive headers nowMs c hc =>
    subst hc
    refine ⟨hchat, fun i call hcall => ?_⟩
    rcases getElem?_concat_cases hcall with hcall | ⟨rfl, rfl⟩
    · exact hmodels i call hcall
    · have ha : ModelsCall.Arrived cfg s₀ (ls ++ [.models (.arrive headers nowMs)]) s.models.length
          headers nowMs :=
        ⟨ls, s, rfl, hrun, rfl⟩
      exact settleModels_vouched ha List.prefix_rfl (requireAuth_ne_ret _ _ _ _) .start
  | @modelsAuth i call c nowMs c' conn hm hp hc =>
    refine ⟨hchat, forall_getElem?_set hmodels i ?_⟩
    cases h.models i call hm with
    | asking hp' | done hp' => cases hp.symm.trans hp'
    | authenticating hp' ha hsince hauth =>
      cases hp.symm.trans hp'
      rcases hauth.advance hrun hsince hc with ⟨e, rfl⟩ | ⟨hnext, hret⟩ | ⟨auth, rfl, hg⟩
      · exact .done rfl
      · exact settleModels_vouched ha (hsince.trans (List.prefix_append _ _)) hret (hnext.mono _)
      · exact askModels_vouched ha (hg.later _)
  | @modelsCancelled i call c nowMs hm hp =>
    exact ⟨hchat, forall_getElem?_set hmodels i (.done (r := .error _) rfl)⟩
  | @modelsAnswered i call headers ev hm hp =>
    exact ⟨hchat, forall_getElem?_set hmodels i (.done (r := Public.answerModels ev) rfl)⟩
  | admin | cli => exact ⟨hchat, hmodels⟩

end System
end

end EasyModelGate
