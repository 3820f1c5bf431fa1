import EasyModelGate.Verify.Durability
import EasyModelGate.Verify.Logging
import EasyModelGate.Verify.Transparency

/-! # What the log tells

A row of the log is written by a detached task, when its request has ended, on a connection that
others use as well, and beside other processes. Still every row tells of one request of the gateway:
under which key it was made, what it asked for, what was sent, and how many bytes of the upstream's
answer were received or yielded. -/

namespace EasyModelGate

/-! ## What comes of an answer -/

/-- What an event brings of the upstream's answer: a body, or a chunk that is yielded to the
client. -/
def Pc.brings (ev : Event) (pc pc' : Pc) : List Bytes :=
  match pc, ev with
  | .sending h _, .response resp => if h.stream then [] else [resp.content]
  | .reading .., .bodyRead content => [content]
  | _, _ => pc'.yields

/-- How much of it the frame of a request accounts for. -/
def Pc.sent : Pc → Nat
  | .closing _ _ errBody => errBody.length
  | .created g | .pulling g | .yielded g _ | .finalizing g _ _ _ => g.sent
  | _ => 0

def size (pieces : List Bytes) : Nat := (pieces.map List.length).sum

/-- The bytes that came for request `i`. -/
def bytesFor (i : Nat) (pieces : List (Nat × Bytes)) : Nat :=
  size ((pieces.filter (·.1 = i)).map Prod.snd)

theorem bytesFor_append (i : Nat) (pieces pieces' : List (Nat × Bytes)) :
    bytesFor i (pieces ++ pieces') = bytesFor i pieces + bytesFor i pieces' := by
  unfold bytesFor size
  rw [List.filter_append, List.map_append, List.map_append, List.sum_append]

theorem bytesFor_self (i : Nat) (pieces : List Bytes) :
    bytesFor i (pieces.map fun piece => (i, piece)) = size pieces := by
  unfold bytesFor
  rw [List.filter_eq_self.mpr (by simp), List.map_map]
  exact congrArg size (List.map_id _)

theorem bytesFor_other {i j : Nat} (h : j ≠ i) (pieces : List Bytes) :
    bytesFor i (pieces.map fun piece => (j, piece)) = 0 := by
  unfold bytesFor
  rw [List.filter_eq_nil_iff.mpr (by simp [h])]
  rfl

/-! ## What a record tells -/

/-- `_enforce_limits` has refused the request; nothing was sent upstream. -/
def RequestLog.refused (record : RequestLog τ) : Bool :=
  record.statusCode = 429 ∧ record.upstreamStatusCode = none

/-- The record tells of the request `req` with the number `id`, which was made under `auth`, for
which `out` bytes came, and which ended with `o`. -/
structure RequestLog.TellsOf (env : RelayEnv) (req : ChatRequest) (id : Uuid) (auth : AuthContext)
    (out : Nat) (o : Outcome) (record : RequestLog τ) : Prop where
  requestId : record.requestId = id
  key : record.apiKeyId = auth.apiKeyId ∧ record.userId = auth.userId
  /-- What is measured is what goes upstream, or, of a refused request, what came. -/
  body : ∃ body measured, readBody req = .ok body ∧ record.model = modelOf body ∧
    record.stream = isStream body ∧
    encodeBody env.json (if record.refused then body else maybeInjectUsage body) = .ok measured ∧
    record.inputBytes = measured.length
  clientIp : record.clientIp = req.clientHost.map Subtype.val
  outputBytes : record.outputBytes = out
  /-- The status that was sent, but for an answer whose media type is no header. -/
  status : o.sentStatus = some record.statusCode ∨ o = .raised (.py .unicodeEncodeError)

/-- The frame is that of the request `req` with the number `id` under `auth`. -/
structure Admitted.Of (env : RelayEnv) (req : ChatRequest) (id : Uuid) (auth : AuthContext)
    (f : Admitted) : Prop where
  under : f.auth = auth
  record : ∃ body a, readBody req = .ok body ∧
    encodeBody env.json (maybeInjectUsage body) = .ok f.payload ∧
    a.auth = auth ∧ a.requestId = id ∧ f.record = baseRecord env req a body f.payload.length

section
variable {env : RelayEnv} {req : ChatRequest} {id : Uuid} {auth : AuthContext} {o : Outcome}

/-- The record that `finish` makes. -/
theorem Admitted.Of.tells {f : Admitted} (h : f.Of env req id auth) (clk : Clock) (a : FinishArgs)
    (hout : a.outBytes = out) (hsent : ¬ (a.status = 429 ∧ a.upStatus = none))
    (hstatus : o.sentStatus = some a.status ∨ o = .raised (.py .unicodeEncodeError)) :
    (finishRecord f clk a).TellsOf env req id auth out o := by
  obtain ⟨body, arrival, hbody, hpayload, rfl, rfl, hrecord⟩ := h.record
  have hrefused : (finishRecord f clk a).refused = false := decide_eq_false hsent
  refine ⟨?_, ⟨?_, ?_⟩, ⟨body, f.payload, hbody, ?_, ?_, ?_, ?_⟩, ?_, hout, hstatus⟩
  case refine_6 => rwa [hrefused]
  all_goals simp only [finishRecord, hrecord]; rfl

theorem respondedWith_cases (status : Nat) (content : Bytes) (mediaType : Str) :
    (respondedWith status content mediaType).sentStatus = some status ∨
      respondedWith status content mediaType = .raised (.py .unicodeEncodeError) := by
  unfold respondedWith
  split
  · exact .inl rfl
  · exact .inr rfl

/-- The record of a refused request. -/
theorem Refusal.tells {body : List (Str × Json)} {raw : Bytes} (hbody : readBody req = .ok body)
    (hraw : encodeBody env.json body = .ok raw) (a : Arrival) (refusal : Refusal) :
    (refusal.record (baseRecord env req a body raw.length)).TellsOf env req a.requestId a.auth 0
      (.raised refusal.error) :=
  ⟨rfl, ⟨rfl, rfl⟩, ⟨body, raw, hbody, rfl, rfl, hraw, rfl⟩, rfl, rfl, .inl rfl⟩

/-- A failed `send` is logged with the status that is answered, and without one of the upstream. -/
theorem sendFailure_status {e : PyExn} {a : FinishArgs} {err : Exn}
    (h : sendFailure env e = some (a, err)) :
    a.outBytes = 0 ∧ a.status ≠ 429 ∧ Outcome.sentStatus (.raised err) = some a.status := by
  cases e <;> cases h <;> exact ⟨rfl, by simp, rfl⟩

/-- What ends a request with the call of `finish` tells of it. -/
theorem Admitted.Of.handsOver {f : Admitted} (h : f.Of env req id auth) (clk : Clock)
    (a : FinishArgs) (hout : a.outBytes = out) (hsent : ¬ (a.status = 429 ∧ a.upStatus = none))
    (hstatus : o.sentStatus = some a.status ∨ o = .raised (.py .unicodeEncodeError))
    {keyId : Option Nat} {rest : List Effect}
    (hrest : ∀ record keyId, .persist record keyId ∉ rest) :
    ∀ record keyId', .persist record keyId' ∈ .persist (finishRecord f clk a) keyId :: rest →
      ∃ o', Pc.done o = .done o' ∧ record.TellsOf env req id auth out o' := by
  intro record keyId' hmem
  rcases List.mem_cons.mp hmem with hmem | hmem
  · cases hmem
    exact ⟨o, rfl, h.tells clk a hout hsent hstatus⟩
  · exact absurd hmem (hrest record keyId')

/-- **One step of a request**: what is handed over at its end tells of it; until then the frame
accounts for what came. -/
theorem Resumed.tells (h : Resumed env clk pc ev pc' effects)
    (hf : ∀ f, pc.frame? = some f → f.Of env req id auth) :
    (∀ record keyId, .persist record keyId ∈ effects → ∃ o, pc' = .done o ∧
      record.TellsOf env req id auth (pc.sent + size (pc.brings ev pc')) o) ∧
    (pc'.isDone = false → pc'.sent = pc.sent + size (pc.brings ev pc')) := by
  have hnone (record : RequestLog Json) (keyId : Option Nat) :
      Effect.persist record keyId ∉ ([] : List Effect) :=
    List.not_mem_nil
  have hrelease (record : RequestLog Json) (keyId : Option Nat) :
      Effect.persist record keyId ∉ [Effect.release] := by
    intro hmem
    cases List.mem_singleton.mp hmem
  have hended {P : Prop} (o : Outcome) (hdone : (Pc.done o).isDone = false) : P := by cases hdone
  cases h with
  | busy => exact ⟨(hf _ rfl).handsOver clk _ rfl (by simp) (.inl rfl) hnone, hended _⟩
  | whole hs hp =>
    refine ⟨(hf _ rfl).handsOver clk _ ?_ (by simp) (respondedWith_cases ..) hrelease, hended _⟩
    simp [Pc.brings, Pc.sent, hs, size]
  | sendFailed hev he ha =>
    obtain ⟨hout, hsent, hstatus⟩ := sendFailure_status ha
    refine ⟨(hf _ rfl).handsOver clk _ ?_ (fun h => hsent h.1) (.inl hstatus) hrelease, hended _⟩
    rw [hout]
    cases ev <;> first | rfl | cases hev
  | errorBody =>
    refine ⟨(hf _ rfl).handsOver clk _ ?_ (by simp) (respondedWith_cases ..) hrelease, hended _⟩
    simp [Pc.brings, Pc.sent, Pc.yields, size]
  | finalized hev =>
    refine ⟨(hf _ rfl).handsOver clk _ ?_ (by simp) (.inl rfl) hrelease, hended _⟩
    rcases hev with rfl | rfl | rfl <;> rfl
  | refused | unreadable | sendCancelled | readFailed | closeFailed =>
    exact ⟨fun record keyId hmem => absurd hmem (hrelease record keyId), hended _⟩
  | queueCancelled | dropped | finalizingCancelled =>
    exact ⟨fun record keyId hmem => absurd hmem (hnone record keyId), hended _⟩
  | created hs | errorStatus hs =>
    refine ⟨fun record keyId hmem => absurd hmem (hnone record keyId), fun _ => ?_⟩
    simp [Pc.brings, Pc.sent, hs, size]
  | _ =>
    refine ⟨fun record keyId hmem => absurd hmem (hnone record keyId), fun _ => ?_⟩
    simp [Pc.brings, Pc.sent, Pc.yields, Gen.fail, size]

/-- What admission leaves. -/
theorem Admission.tells {a : Arrival} (h : Admission env req a limiter pc effects limiter') :
    (∀ record keyId, .persist record keyId ∈ effects → ∃ o, pc = .done o ∧
      record.TellsOf env req a.requestId a.auth 0 o) ∧
    (∀ f, pc.frame? = some f → f.Of env req a.requestId a.auth ∧ pc.sent = 0) := by
  cases h with
  | failed => exact ⟨fun _ _ hmem => absurd hmem List.not_mem_nil, fun _ hf => (nomatch hf)⟩
  | refused hbody hraw hl =>
    refine ⟨fun record keyId hmem => ⟨_, rfl, ?_⟩, fun _ hf => (nomatch hf)⟩
    cases List.mem_singleton.mp hmem
    exact Refusal.tells hbody hraw a _
  | admitted hbody hraw hl hpay hauth hstream ht0 hdl hpayload hheaders hrecord =>
    refine ⟨fun _ _ hmem => absurd hmem List.not_mem_nil, ?_⟩
    intro f' hf
    cases hf
    subst hpayload
    exact ⟨⟨hauth, _, a, hbody, hpay, rfl, rfl, hrecord⟩, rfl⟩

/-- Binding looks at the columns that tell of the request, and leaves them. -/
theorem RequestLog.TellsOf.bound {record : RequestLog Json}
    (h : record.TellsOf env req id auth out o) {values : RequestLog SqlValue}
    (hbind : record.bind = .ok values) : values.TellsOf env req id auth out o := by
  unfold RequestLog.bind at hbind
  iterate 9 obtain ⟨_, -, hbind⟩ := Except.bind_eq_ok hbind
  cases hbind
  exact ⟨h.requestId, h.key, h.body, h.clientIp, h.outputBytes, h.status⟩

end

/-! ## The gateway -/

/-- What an event brings to a request. -/
def Request.brings (env : RelayEnv) (r : Request) (clk : Clock) (ev : Event) : List Bytes :=
  match r.phase with
  | .serving pc => ((resume env clk pc ev).map fun next => pc.brings ev next.1).getD []
  | _ => []

/-- What a step brings of the upstream's answers, and for which request. -/
def Gateway.brings (cfg : GatewayConfig) (g : Gateway) : Label → List (Nat × Bytes)
  | .event i clk ev =>
    ((g.requests[i]?.map fun r => r.brings cfg.relay clk ev).getD []).map fun piece => (i, piece)
  | _ => []

/-- The record tells of a request that has ended, of whose answer those pieces came. -/
def Gateway.Told (cfg : GatewayConfig) (pieces : List (Nat × Bytes)) (g : Gateway)
    (record : RequestLog τ) : Prop :=
  ∃ i r o auth, g.requests[i]? = some r ∧ r.phase = .serving (.done o) ∧ r.auth = some auth ∧
    record.TellsOf cfg.relay r.req (g.drawn + i) auth (bytesFor i pieces) o

/-- The row is that of bound values that tell of such a request. -/
def Gateway.ToldBy (cfg : GatewayConfig) (pieces : List (Nat × Bytes)) (g : Gateway)
    (row : LogRow) : Prop :=
  ∃ values : RequestLog SqlValue, row = values.stored ∧ g.Told cfg pieces values

/-- What is known of a request for which `out` bytes have come. -/
inductive Request.Accounted (env : RelayEnv) (id : Uuid) (out : Nat) (r : Request) : Prop
  | authenticating {c nowMs} (hp : r.phase = .authenticating c nowMs)
    (hc : Db.Writes (fun _ => False) c) (hout : out = 0)
  | reading {auth} (hp : r.phase = .reading auth) (ha : r.auth = some auth) (hout : out = 0)
  | live {pc f auth} (hp : r.phase = .serving pc) (hf : pc.frame? = some f)
    (ha : r.auth = some auth) (hof : f.Of env r.req id auth) (hout : pc.sent = out)
  | done {o} (hp : r.phase = .serving (.done o))

section
variable {cfg : GatewayConfig} {g g' : Gateway} {pieces : List (Nat × Bytes)}
  {i : Nat} {r : Request}

theorem Gateway.brings_event {pc pc' : Pc} {effects : List Effect} (hr : g.requests[i]? = some r)
    (hp : r.phase = .serving pc) (hres : resume cfg.relay clk pc ev = some (pc', effects)) :
    g.brings cfg (.event i clk ev) = (pc.brings ev pc').map fun piece => (i, piece) := by
  simp only [brings, hr, Option.map_some, Option.getD_some, Request.brings, hp, hres]

/-- A step brings nothing for a request that does not take it. -/
theorem Gateway.brings_other {l : Label} (hl : ∀ clk ev, l ≠ .event i clk ev) :
    bytesFor i (g.brings cfg l) = 0 := by
  cases l with
  | event j clk ev =>
    have hji : j ≠ i := by
      intro hji
      exact hl clk ev (hji ▸ rfl)
    exact bytesFor_other hji _
  | _ => rfl

/-- A request that has ended stays as it is. -/
theorem Gateway.done_kept {l : Label} (hstep : Gateway.step cfg g l = some g')
    (hr : g.requests[i]? = some r) (hp : r.phase = .serving (.done o)) :
    g'.requests[i]? = some r ∧ bytesFor i (g.brings cfg l) = 0 := by
  have hother {j : Nat} {r₁ : Request} (hr₁ : g.requests[j]? = some r₁)
      (hne : r₁.phase ≠ .serving (.done o)) : j ≠ i := by
    rintro rfl
    cases hr.symm.trans hr₁
    exact hne hp
  have hset {j : Nat} (hji : j ≠ i) (r₂ : Request) : (g.requests.set j r₂)[i]? = some r := by
    rw [List.getElem?_set_ne hji, hr]
  cases Stepped.of_step hstep with
  | arrive =>
    refine ⟨?_, rfl⟩
    exact (List.getElem?_append_left (List.getElem?_eq_some_iff.mp hr).1).trans hr
  | auth hr₁ hp₁ => exact ⟨hset (hother hr₁ (by rw [hp₁]; nofun)) _, rfl⟩
  | cancelAuth hr₁ hp₁ => exact ⟨hset (hother hr₁ (by rw [hp₁]; nofun)) _, rfl⟩
  | body hr₁ hp₁ => exact ⟨hset (hother hr₁ (by rw [hp₁]; nofun)) _, rfl⟩
  | @event j r₁ pc clk ev pc' effects hr₁ hp₁ hres =>
    have hji := hother hr₁ fun hdone => by
      cases hp₁.symm.trans hdone
      cases hres
    exact ⟨hset hji _, brings_other fun clk ev hl => hji (by cases hl; rfl)⟩
  | task => exact ⟨hr, rfl⟩

theorem Gateway.step_drawn {l : Label} (hstep : Gateway.step cfg g l = some g') :
    g'.drawn = g.drawn := by
  cases Stepped.of_step hstep <;> rfl

/-- What is told stays true. -/
theorem Gateway.told_step {l : Label} (hstep : Gateway.step cfg g l = some g')
    {record : RequestLog τ} (h : g.Told cfg pieces record) :
    g'.Told cfg (pieces ++ g.brings cfg l) record := by
  obtain ⟨i, r, o, auth, hr, hp, ha, htells⟩ := h
  obtain ⟨hr', hnone⟩ := done_kept hstep hr hp
  refine ⟨i, r, o, auth, hr', hp, ha, ?_⟩
  rwa [step_drawn hstep, bytesFor_append, hnone]

theorem Gateway.toldBy_step {l : Label} (hstep : Gateway.step cfg g l = some g') {row : LogRow}
    (h : g.ToldBy cfg pieces row) : g'.ToldBy cfg (pieces ++ g.brings cfg l) row := by
  obtain ⟨values, hrow, htold⟩ := h
  exact ⟨values, hrow, told_step hstep htold⟩

end

/-! ## The discipline of the log -/

/-- The rows of the log satisfy `P`, and nothing else is inserted. -/
def logging (P : Row LogRow → Prop) : Discipline where
  Good t := ∀ row ∈ t.requestLogs.rows, P row
  Extends _ _ := True
  Allowed _ d := ∀ record values, d = .insertRequestLog record → record.bind = .ok values →
    ∀ id, P ⟨id, values.stored⟩
  refl _ := trivial
  trans _ _ _ _ _ := trivial
  run t d cursor t' hgood hd _ hrun := by
    refine ⟨?_, trivial⟩
    cases hlog : d.isLog with
    | false =>
      rw [Dml.run_requestLogs hlog hrun]
      exact hgood
    | true =>
      cases d with
      | insertRequestLog record =>
        simp only [Dml.run] at hrun
        split at hrun <;> cases hrun
        exact Table.forall_insert hgood (hd record _ rfl ‹_› _)
      | _ => cases hlog

section
variable {P Q : Row LogRow → Prop}

theorem logging_quiet {d : Dml} (h : d.isLog = false) (t : Tables) : (logging P).Allowed t d := by
  intro record values hd
  subst hd
  cases h

theorem Conn.Keeps.logging_mono {c : Conn} (hPQ : ∀ row, P row → Q row) (h : c.Keeps (logging P)) :
    c.Keeps (logging Q) where
  durable row hrow := hPQ row (h.durable row hrow)
  view row hrow := hPQ row (h.view row hrow)
  ahead := h.ahead
  behind := h.behind
  fresh := h.fresh

end

/-! ## The chat requests -/

/-- The write inserts no record but those that satisfy `P`. -/
def Dml.LogsOnly (P : RequestLog Json → Prop) (d : Dml) : Prop :=
  ∀ record, d = .insertRequestLog record → P record

/-- What the log tells is true, and will be. -/
structure Gateway.Audited (cfg : GatewayConfig) (t₀ : Tables) (pieces : List (Nat × Bytes))
    (g : Gateway) : Prop where
  conn : g.conn.Keeps (logging fun row => row ∈ t₀.requestLogs.rows ∨ g.ToldBy cfg pieces row.val)
  requests : ∀ (i : Nat) (r : Request), g.requests[i]? = some r →
    r.Accounted cfg.relay (g.drawn + i) (bytesFor i pieces)
  unborn : ∀ i, g.requests.length ≤ i → bytesFor i pieces = 0
  tasks : ∀ task ∈ g.tasks, Db.Writes (Dml.LogsOnly (g.Told cfg pieces)) task.coro

section
variable {cfg : GatewayConfig} {g g' : Gateway} {pieces : List (Nat × Bytes)} {i : Nat}
  {r : Request} {t₀ : Tables}

theorem settleAuth_accounted {env : RelayEnv} {id : Uuid} (r : Request) (nowMs : Int)
    {c : Db AuthContext} (hc : Db.Writes (fun _ => False) c) :
    (settleAuth r nowMs c).Accounted env id 0 := by
  cases c with
  | ret auth => exact .reading rfl rfl rfl
  | raise e => exact .done rfl
  | await => exact .authenticating rfl hc rfl

theorem Pc.done_of_frame {pc : Pc} (h : pc.frame? = none) : ∃ o, pc = .done o := by
  cases pc with
  | done o => exact ⟨o, rfl⟩
  | _ => cases h

/-- A request that is served, from what its frame accounts for. -/
theorem Request.Accounted.of_frame {env : RelayEnv} {id : Uuid} {auth : AuthContext}
    {pc : Pc} {out : Nat} (hp : r.phase = .serving pc) (ha : r.auth = some auth)
    (hof : ∀ f, pc.frame? = some f → f.Of env r.req id auth)
    (hout : ∀ f, pc.frame? = some f → pc.sent = out) : r.Accounted env id out := by
  cases hf : pc.frame? with
  | some f => exact .live hp hf ha (hof f hf) (hout f hf)
  | none =>
    obtain ⟨o, rfl⟩ := Pc.done_of_frame hf
    exact .done hp

theorem logsOnly_touch {P : RequestLog Json → Prop} (nowMs : Int) (c : Db AuthContext) :
    ∀ task ∈ authSpawned nowMs c, Db.Writes (Dml.LogsOnly P) task.coro := by
  cases c with
  | ret auth =>
    intro task htask
    rw [List.mem_singleton.mp htask]
    apply (Purpose.touch auth.apiKeyId nowMs).coro_writes.mono
    intro d hd record hrecord
    cases hd.symm.trans hrecord
  | raise | await => exact fun _ htask => absurd htask List.not_mem_nil

/-- A log task inserts its record, with a clipped message. -/
theorem logsOnly_spawned {P : RequestLog Json → Prop} {effects : List Effect}
    (h : ∀ record keyId, .persist record keyId ∈ effects → P record.clipped) :
    ∀ task ∈ spawned effects, Db.Writes (Dml.LogsOnly P) task.coro := by
  intro task htask
  obtain ⟨record, keyId, hmem, rfl⟩ := mem_spawned htask
  apply (Purpose.log record keyId).coro_writes.mono
  rintro d (rfl | ⟨id, n, -, -, rfl⟩) record' hrecord
  · cases hrecord
    exact h record keyId hmem
  · cases hrecord

theorem RequestLog.TellsOf.clipped {env : RelayEnv} {req : ChatRequest} {id : Uuid}
    {auth : AuthContext} {out : Nat} {o : Outcome} {record : RequestLog Json}
    (h : record.TellsOf env req id auth out o) : record.clipped.TellsOf env req id auth out o :=
  ⟨h.requestId, h.key, h.body, h.clientIp, h.outputBytes, h.status⟩

/-- What a task may insert is what the log may hold. -/
theorem logging_allowed {d : Dml} (h : d.LogsOnly (g.Told cfg pieces)) (t : Tables) :
    (logging fun row => row ∈ t₀.requestLogs.rows ∨ g.ToldBy cfg pieces row.val).Allowed t d := by
  intro record values hd hbind id
  obtain ⟨i, r, o, auth, hr, hp, ha, htells⟩ := h record hd
  exact .inr ⟨values, rfl, i, r, o, auth, hr, hp, ha, htells.bound hbind⟩

/-- The requests after request `i` has moved on to `r'`. -/
theorem Gateway.Audited.set (h : g.Audited cfg t₀ pieces) {pieces' : List (Nat × Bytes)}
    {r' : Request} (hother : ∀ j, j ≠ i → bytesFor j pieces' = bytesFor j pieces)
    (hr' : r'.Accounted cfg.relay (g.drawn + i) (bytesFor i pieces')) :
    ∀ (j : Nat) (r : Request), (g.requests.set i r')[j]? = some r →
    r.Accounted cfg.relay (g.drawn + j) (bytesFor j pieces') := by
  intro j r hr
  rcases getElem?_set_cases hr with ⟨rfl, rfl⟩ | ⟨hji, hr⟩
  · exact hr'
  · rw [hother j hji]
    exact h.requests j r hr

/-- The records that a request hands over when it ends. -/
theorem Gateway.logsOnly_ended {effects : List Effect} {pc : Pc} {auth : AuthContext}
    (hr : g.requests[i]? = some r) (hp : r.phase = .serving pc) (ha : r.auth = some auth)
    (h : ∀ record keyId, .persist record keyId ∈ effects → ∃ o, pc = .done o ∧
      record.TellsOf cfg.relay r.req (g.drawn + i) auth (bytesFor i pieces) o) :
    ∀ task ∈ spawned effects, Db.Writes (Dml.LogsOnly (g.Told cfg pieces)) task.coro := by
  refine logsOnly_spawned fun record keyId hmem => ?_
  obtain ⟨o, rfl, htells⟩ := h record keyId hmem
  exact ⟨i, r, o, auth, hr, hp, ha, htells.clipped⟩

theorem forall_mem_append_tasks {P : Task → Prop} {tasks new : List Task}
    (h : ∀ task ∈ tasks, P task) (hnew : ∀ task ∈ new, P task) : ∀ task ∈ tasks ++ new, P task :=
  fun task htask => (List.mem_append.mp htask).elim (h task) (hnew task)

theorem getElem?_serve (hr : g.requests[i]? = some r) (pc : Pc) (effects : List Effect)
    (took : Nat) :
    (g.serve i r pc effects took).requests[i]? = some (r.serve pc effects took) :=
  List.getElem?_set_self (List.getElem?_eq_some_iff.mp hr).1

/-- What an event of a request brings is accounted for, and what it hands over tells of the
request. -/
theorem Gateway.Audited.event (h : g.Audited cfg t₀ pieces) {pc pc' : Pc} {effects : List Effect}
    {clk : Clock} {ev : Event} (hr : g.requests[i]? = some r) (hp : r.phase = .serving pc)
    (hresume : resume cfg.relay clk pc ev = some (pc', effects)) :
    ∃ auth, r.auth = some auth ∧
      (∀ record keyId, .persist record keyId ∈ effects → ∃ o, pc' = .done o ∧
        record.TellsOf cfg.relay r.req (g.drawn + i) auth
          (bytesFor i (pieces ++ g.brings cfg (.event i clk ev))) o) ∧
      ∀ f, pc'.frame? = some f → f.Of cfg.relay r.req (g.drawn + i) auth ∧
        pc'.sent = bytesFor i (pieces ++ g.brings cfg (.event i clk ev)) := by
  have hres := Resumed.of_resume hresume
  cases h.requests i r hr with
  | authenticating hp' | reading hp' => cases hp.symm.trans hp'
  | done hp' =>
    cases hp.symm.trans hp'
    cases hres
  | @live _ f auth hp' hf ha hof hout =>
    cases hp.symm.trans hp'
    have hframe (f' : Admitted) (hf' : pc.frame? = some f') :
        f'.Of cfg.relay r.req (g.drawn + i) auth := by
      cases hf.symm.trans hf'
      exact hof
    obtain ⟨hpersist, hsent⟩ := hres.tells hframe
    have hself : pc.sent + size (pc.brings ev pc') =
        bytesFor i (pieces ++ g.brings cfg (.event i clk ev)) := by
      rw [bytesFor_append, brings_event hr hp hresume, bytesFor_self, hout]
    rw [hself] at hpersist hsent
    refine ⟨auth, ha, hpersist, fun f' hf' => ⟨?_, hsent (Pc.isDone_of_frame hf')⟩⟩
    rcases hres.frame with hsame | ⟨o, rfl⟩
    · exact hframe f' (hsame ▸ hf')
    · cases hf'

/-- **One step of the chat requests.** -/
theorem Gateway.Audited.step {l : Label} (h : g.Audited cfg t₀ pieces)
    (hstep : Gateway.step cfg g l = some g') :
    g'.Audited cfg t₀ (pieces ++ g.brings cfg l) := by
  have hconn : g.conn.Keeps (logging fun row => row ∈ t₀.requestLogs.rows ∨
        g'.ToldBy cfg (pieces ++ g.brings cfg l) row.val) :=
    h.conn.logging_mono fun row => Or.imp_right (toldBy_step hstep)
  have htasks : ∀ task ∈ g.tasks, Db.Writes
      (Dml.LogsOnly (g'.Told cfg (pieces ++ g.brings cfg l))) task.coro :=
    fun task htask => (h.tasks task htask).mono fun d hd record hrecord =>
      told_step hstep (hd record hrecord)
  have hquiet (hnone : g.brings cfg l = []) (j : Nat) :
      bytesFor j (pieces ++ g.brings cfg l) = bytesFor j pieces := by
    rw [hnone, List.append_nil]
  have hunborn {i j : Nat} {r' : Request} (hj : (g.requests.set i r').length ≤ j) :
      bytesFor j pieces = 0 :=
    h.unborn j (List.length_set ▸ hj)
  cases l with
  | arrive req nowMs =>
    cases hstep
    refine ⟨hconn, fun j r hr => ?_, fun j hj => ?_,
      forall_mem_append_tasks htasks (logsOnly_touch _ _)⟩
    · rw [hquiet rfl]
      rcases getElem?_concat_cases hr with hr | ⟨rfl, rfl⟩
      · exact h.requests j r hr
      · rw [h.unborn _ le_rfl]
        exact settleAuth_accounted _ _ (requireAuth_writes _ _ _ _)
    · rw [hquiet rfl]
      simp only [stepArrive, List.length_append] at hj
      exact h.unborn j (by omega)
  | auth i =>
    obtain ⟨r, c, nowMs, c', conn, hr, hp, hc, rfl⟩ := step_auth_iff.mp hstep
    cases h.requests i r hr with
    | reading hp' | live hp' | done hp' => cases hp.symm.trans hp'
    | authenticating hp' hwrites hout =>
      cases hp.symm.trans hp'
      obtain ⟨s, -, hs, rfl, hall⟩ := Coro.All.advance hwrites hc
      have hmoves := hconn.handler (hs.mono fun _ hd => hd.elim)
      refine ⟨hmoves.keeps, h.set (fun j _ => hquiet rfl j) ?_, fun j hj => ?_,
        forall_mem_append_tasks htasks (logsOnly_touch _ _)⟩
      · rw [hquiet rfl, hout]
        exact settleAuth_accounted _ _ hall
      · rw [hquiet rfl]
        exact hunborn hj
  | cancelAuth i =>
    obtain ⟨r, c, nowMs, hr, hp, rfl⟩ := step_cancelAuth_iff.mp hstep
    refine ⟨hconn, h.set (fun j _ => hquiet rfl j) (.done rfl), fun j hj => ?_, ?_⟩
    · rw [hquiet rfl]
      exact hunborn hj
    · exact forall_mem_append_tasks htasks fun _ ht => absurd ht List.not_mem_nil
  | body i clk =>
    obtain ⟨r, auth, hr, hp, rfl⟩ := step_body_iff.mp hstep
    have hadmission :=
      @Admission.of_forwardChat cfg.relay r.req { requestId := g.drawn + i, auth, clk }
        g.limiter _ _ _ rfl
    obtain ⟨hpersist, hframe⟩ := hadmission.tells
    cases h.requests i r hr with
    | authenticating hp' | live hp' | done hp' => cases hp.symm.trans hp'
    | reading hp' ha hout =>
      cases hp.symm.trans hp'
      rw [← hout, ← hquiet rfl] at hpersist hframe
      refine ⟨hconn, h.set (fun j _ => hquiet rfl j) ?_, fun j hj => ?_, ?_⟩
      · exact .of_frame rfl ha (fun f hf => (hframe f hf).1) fun f hf => (hframe f hf).2
      · rw [hquiet rfl]
        exact hunborn hj
      · exact forall_mem_append_tasks htasks
          (logsOnly_ended (getElem?_serve hr _ _ _) rfl ha hpersist)
  | event i clk ev =>
    obtain ⟨r, pc, pc', effects, hr, hp, hresume, ht, rfl⟩ := step_event_iff.mp hstep
    obtain ⟨auth, ha, hpersist, hframe⟩ := h.event hr hp hresume
    have hother {j : Nat} (hij : i ≠ j) :
        bytesFor j (pieces ++ g.brings cfg (.event i clk ev)) = bytesFor j pieces := by
      rw [bytesFor_append, brings_event hr hp hresume, bytesFor_other hij, Nat.add_zero]
    refine ⟨hconn, h.set (fun j hji => hother (Ne.symm hji)) ?_, fun j hj => ?_, ?_⟩
    · exact .of_frame rfl ha (fun f hf => (hframe f hf).1) fun f hf => (hframe f hf).2
    · have hi := (List.getElem?_eq_some_iff.mp hr).1
      have hlen : (g.requests.set i (r.serve pc' effects ev.takes)).length = g.requests.length :=
        List.length_set
      have hij : i ≠ j := by
        rintro rfl
        exact absurd (hlen ▸ hj) (Nat.not_le.mpr hi)
      rw [hother hij, hunborn hj]
    · exact forall_mem_append_tasks htasks
        (logsOnly_ended (getElem?_serve hr _ _ _) rfl ha hpersist)
  | task j =>
    obtain ⟨task, coro, conn, ht, hc, rfl⟩ := step_task_iff.mp hstep
    obtain ⟨s, -, hs, rfl, hall⟩ := Coro.All.advance (htasks task (List.mem_of_getElem? ht)) hc
    refine ⟨?_, fun i r hr => ?_, fun i hi => ?_, forall_mem_set htasks j hall⟩
    · exact (hconn.handler (hs.mono fun d hd => logging_allowed hd _)).keeps
    · rw [hquiet rfl]
      exact h.requests i r hr
    · rw [hquiet rfl]
      exact h.unborn i hi

end

/-! ## The system -/

namespace System

variable {cfg : SystemConfig} {s s' : System} {t₀ : Tables} {pieces : List (Nat × Bytes)}

def brings (cfg : SystemConfig) (s : System) : Label → List (Nat × Bytes)
  | .chat l => s.gateway.brings cfg.gateway l
  | _ => []

/-- What has come of the upstream's answers in a run, piece by piece. -/
def answered (cfg : SystemConfig) (s : System) (ls : List Label) : List (Nat × Bytes) :=
  gather (System.step cfg) (System.brings cfg) s ls

structure Audited (cfg : SystemConfig) (t₀ : Tables) (pieces : List (Nat × Bytes))
    (s : System) : Prop where
  gateway : s.gateway.Audited cfg.gateway t₀ pieces
  beside : s.Beside Dml.Plain

/-- **One step of the whole gateway.** -/
theorem Audited.step (h : s.Audited cfg t₀ pieces) (hstep : System.step cfg s l = some s') :
    s'.Audited cfg t₀ (pieces ++ s.brings cfg l) := by
  have hbeside (hl : ∀ l', l ≠ .chat l') (hnone : s.brings cfg l = []) :
      s'.Audited cfg t₀ (pieces ++ s.brings cfg l) := by
    obtain ⟨hmoves, hbeside, nowMs, c, hgateway⟩ :=
      h.beside.step (Discipline.stable (fun _ hd => logging_quiet hd.1) _) (serve_plain _)
        (Cli.Command.coro_plain _) (.refl h.gateway.conn) hl hstep
    have htold {τ : Type} (record : RequestLog τ)
        (htold : s.gateway.Told cfg.gateway pieces record) :
        s'.gateway.Told cfg.gateway pieces record := by
      rw [hgateway]
      exact htold
    have hrows (row : Row LogRow) : s.gateway.ToldBy cfg.gateway pieces row.val →
        s'.gateway.ToldBy cfg.gateway pieces row.val := by
      rintro ⟨values, hrow, hvalues⟩
      exact ⟨values, hrow, htold values hvalues⟩
    rw [hnone, List.append_nil]
    refine ⟨⟨hmoves.keeps.logging_mono fun row => Or.imp_right (hrows row), ?_, ?_, ?_⟩, hbeside⟩
    · rw [hgateway]
      exact h.gateway.requests
    · rw [hgateway]
      exact h.gateway.unborn
    · rw [show s'.gateway.tasks = s.gateway.tasks ++ authSpawned nowMs c from
        congrArg Gateway.tasks hgateway]
      refine forall_mem_append_tasks (fun task htask => ?_) (logsOnly_touch nowMs c)
      exact (h.gateway.tasks task htask).mono fun d hd record hrecord =>
        htold record (hd record hrecord)
  cases l with
  | chat l =>
    obtain ⟨g, hg, rfl⟩ := Option.map_eq_some_iff.mp hstep
    exact ⟨h.gateway.step hg, h.beside.models, h.beside.admin⟩
  | models | admin | cli => exact hbeside (fun _ => by nofun) rfl

theorem Audited.run (cfg : SystemConfig) (t₀ : Tables) (slots drawn : Nat)
    (h : Run (System.step cfg) (System.init { durable := t₀ } slots drawn) ls s) :
    s.Audited cfg t₀ (System.answered cfg (System.init { durable := t₀ } slots drawn) ls) := by
  induction h with
  | nil =>
    refine ⟨⟨.settled (fun row hrow => .inl hrow) false, fun i r hr => ?_, fun _ _ => rfl,
      fun _ ht => ?_⟩, .init _ _ _ _⟩
    · cases hr
    · exact absurd ht List.not_mem_nil
  | snoc hrun hstep ih =>
    rw [System.answered, hrun.gather_concat]
    exact ih.step hstep

end System
end EasyModelGate
