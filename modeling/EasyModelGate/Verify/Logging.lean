import EasyModelGate.Verify.Auth
import EasyModelGate.Verify.Gateway
import EasyModelGate.Verify.Persist

/-! # One log row for each request

`finish` is called on the exits that somebody thought of. On each of them the request hands one
record to a detached task (`Resumed.logs`), the record can be bound, and the task makes one row of
it durable (`Ledger`). The other exits hand over nothing, or a record that SQLite refuses. -/

namespace EasyModelGate

/-! ## The property -/

/-- It writes the log row of a request. -/
def Purpose.isLogOf (id : Uuid) : Purpose → Bool
  | .touch .. => false
  | .log record _ => record.requestId = id

/-- The status that was sent to the client, if any was. -/
def Request.sentStatus (r : Request) : Option Nat :=
  match r.phase with
  | .serving (.done o) => o.sentStatus
  | _ => none

/-- Its body passes `_validate_body`. -/
def Request.readable (r : Request) : Bool := (readBody r.req).isOk

/-- The durable log rows of request `i`. -/
def Gateway.rowsOf (g : Gateway) (i : Nat) : List (Row LogRow) :=
  g.conn.durable.requestLogs.rows.filter fun row => row.val.requestId = g.drawn + i

/-- Every authenticated request with a valid body that has ended, its log task included, has
exactly one row, with the status that was sent. -/
def Gateway.LoggedOnce (g : Gateway) : Prop :=
  ∀ i r, g.requests[i]? = some r → r.auth.isSome → r.readable → r.ended →
    (∀ t ∈ g.tasks, t.purpose.isLogOf (g.drawn + i) → t.coro.ended) →
    ∃ row, g.rowsOf i = [row] ∧ ∀ status : Nat, r.sentStatus = some status →
    row.val.statusCode = some (status : Int)

/-- SQLite accepts what the upstream reported. -/
def loggable (usage : Option Json) (finishReason : Option Str) : Bool :=
  (bindJson (usageField usage (str "prompt_tokens"))).isOk &&
    (bindJson (usageField usage (str "completion_tokens"))).isOk &&
    (bindJson (usageField usage (str "total_tokens"))).isOk &&
    (bindJson (cachedTokens usage)).isOk && finishReason.all Str.valid

/-- The response can be sent with the upstream's status: an exception would turn it into a 500. -/
def UpstreamResponse.sendable (resp : UpstreamResponse) : Bool :=
  resp.mediaType.isLatin1 || resp.status = 500

/-- The steps that log a request when they end it. -/
def Pc.logs (env : RelayEnv) : Pc → Event → Bool
  | .queueing f _ _, ev =>
    match ev with
    | .acquired => (env.buildRequest f.headers f.payload).isOk
    | .cancelled => false
    | _ => true
  | .sending h _, ev =>
    match ev with
    | .cancelled => false
    | .response resp => h.stream ||
      match parsedContent env resp with
      | .ok (usage, finishReason) => loggable usage finishReason && resp.sendable
      | .error _ => false
    | _ => true
  | .reading .., ev =>
    match ev with
    | .bodyRead _ => true
    | _ => false
  | .closing _ resp _, ev =>
    match ev with
    | .closed => resp.sendable
    | _ => false
  | .created _, ev =>
    match ev with
    | .dropped _ => false
    | _ => true
  | .finalizing g .., ev =>
    match ev with
    | .cancelled => false
    | _ => loggable g.scanner.usage g.scanner.finishReason
  | _, _ => true

/-- The step does not end an authenticated request with a valid body unlogged. -/
def Gateway.logs (cfg : GatewayConfig) (g : Gateway) : Label → Bool
  | .body i clk =>
    match g.requests[i]? with
    | some r =>
      match r.phase, readBody r.req with
      | .reading auth, .ok body =>
        encodable cfg.relay { requestId := g.drawn + i, auth, clk } g.limiter body &&
          (modelOf body).all Str.valid
      | _, _ => true
    | none => true
  | .event i _ ev =>
    match g.requests[i]? with
    | some r =>
      match r.phase with
      | .serving pc => pc.logs cfg.relay ev
      | _ => true
    | none => true
  | _ => true

/-! ## What a request hands over -/

/-- The texts that the request itself puts into its record. -/
structure RequestLog.Texts (record : RequestLog τ) : Prop where
  model : record.model.all Str.valid = true
  clientIp : record.clientIp.all Str.valid = true

theorem finishRecord_bindable {f : Admitted} {a : FinishArgs} (hf : f.record.Texts) (clk : Clock)
    (hu : loggable a.usage a.finishReason = true) (het : a.errorType.all Str.valid = true)
    (hem : a.errorMessage.all Str.valid = true) : (finishRecord f clk a).bindable = true := by
  simp only [loggable, Bool.and_eq_true] at hu
  obtain ⟨⟨⟨⟨hp, hc⟩, ht⟩, hca⟩, hfr⟩ := hu
  refine RequestLog.Valid.bindable ⟨hf.model, ?_, hfr, hf.clientIp, het, hem⟩
  simp [RequestLog.tokens, finishRecord, hp, hc, ht, hca]

theorem valid_upstreamStatus (status : Nat) : (upstreamStatus status).valid = true := by
  simp [upstreamStatus]

/-- The response, or the 500 that takes its place. -/
theorem respondedWith_sentStatus {resp : UpstreamResponse} (h : resp.sendable = true)
    (content : Bytes) :
    (respondedWith resp.status content resp.mediaType).sentStatus = some resp.status := by
  unfold respondedWith
  unfold UpstreamResponse.sendable at h
  split
  · rfl
  · simp_all [Outcome.sentStatus, Exn.response?, Exn.isException, PyExn.isException,
      handleUnhandled]

theorem sendFailure_logs (env : RelayEnv) (h : sendFailure env e = some (a, err)) :
    a.usage = none ∧ a.finishReason = none ∧ a.errorType.all Str.valid = true ∧
      a.errorMessage.all Str.valid = true ∧
      ∀ s, (Outcome.raised err).sentStatus = some s → a.status = s := by
  cases e <;> cases h <;>
    refine ⟨rfl, rfl, by simp, by simp [fmt0], fun s hs => ?_⟩ <;> cases hs <;> rfl

/-- Request `id` ends and hands over one record. -/
inductive EndsLogged (id : Uuid) (keyId : Option Nat) (effects : List Effect) : Pc → Prop
  | intro {o record} (heff : spawned effects = [spawn (.log record keyId)])
    (hid : record.requestId = id) (hb : record.bindable = true)
    (hs : ∀ s, Outcome.sentStatus o = some s → record.statusCode = s) :
    EndsLogged id keyId effects (.done o)

theorem EndsLogged.finish {f : Admitted} {a : FinishArgs} (hf : f.record.Texts) (clk : Clock)
    (hu : loggable a.usage a.finishReason = true) (het : a.errorType.all Str.valid = true)
    (hem : a.errorMessage.all Str.valid = true)
    (hs : ∀ s, Outcome.sentStatus o = some s → a.status = s)
    (heff : spawned effects = [spawn (.log (finishRecord f clk a) (some f.auth.apiKeyId))]) :
    EndsLogged f.record.requestId (some f.auth.apiKeyId) effects (.done o) :=
  .intro heff rfl (finishRecord_bindable hf clk hu het hem) hs

/-- The error type that the `finally` of `relay_gen` has in hand. -/
def Pc.errorType : Pc → Option Str
  | .finalizing _ errorType _ _ => errorType
  | _ => none

theorem valid_exceptClauses (e : PyExn) : (exceptClauses e).1.all Str.valid = true := by
  cases e <;> simp [exceptClauses]

/-- **One resumption and the log**: the request goes on with its frame and spawns nothing, or it
ends and spawns its log task. -/
theorem Resumed.logs (h : Resumed env clk pc ev pc' effects) (hl : pc.logs env ev = true)
    (hf : pc.frame? = some f) (ht : f.record.Texts) (het : pc.errorType.all Str.valid = true) :
    pc'.frame? = some f ∧ pc'.errorType.all Str.valid = true ∧ spawned effects = [] ∨
      EndsLogged f.record.requestId (some f.auth.apiKeyId) effects pc' := by
  cases h with
  | refused hb => simp [Pc.logs, hb, Except.isOk, Except.toBool] at hl
  | queueCancelled | sendCancelled | dropped | finalizingCancelled => cases hl
  | unreadable hs hp => simp [Pc.logs, hs, hp] at hl
  | readFailed hev | closeFailed hev =>
    cases ev <;>
      first | exact absurd hev Bool.false_ne_true | exact absurd hl Bool.false_ne_true
  | busy =>
    cases hf
    exact .inr (.finish ht clk rfl (by simp) (by simp [fmt0]) (by rintro s ⟨⟩; rfl) rfl)
  | whole hs hp =>
    cases hf
    simp only [Pc.logs, hs, hp, Bool.false_or, Bool.and_eq_true] at hl
    refine .inr (.finish ht clk hl.1 ?_ ?_ (fun s hsent => ?_) rfl)
    · split <;> simp
    · split <;> simp [valid_upstreamStatus]
    · rw [respondedWith_sentStatus hl.2] at hsent
      exact Option.some.inj hsent
  | sendFailed hev he ha =>
    cases hf
    obtain ⟨hu, hfr, het, hem, hs⟩ := sendFailure_logs env ha
    exact .inr (.finish ht clk (by rw [hu, hfr]; rfl) het hem hs rfl)
  | errorBody =>
    cases hf
    refine .inr (.finish ht clk rfl (by simp) (by simp [valid_upstreamStatus])
      (fun s hsent => ?_) rfl)
    rw [respondedWith_sentStatus hl] at hsent
    exact Option.some.inj hsent
  | @finalized ev g errorType pending tUpEnd hev =>
    cases hf
    have hl : loggable g.scanner.usage g.scanner.finishReason = true := by
      rcases hev with rfl | rfl | rfl <;> exact hl
    refine .inr (.finish ht clk hl ?_ rfl (by rintro s ⟨⟩; rfl) rfl)
    unfold Gen.errorType
    split
    · simp
    · exact het
  | scannerRaised | pullFailed | closedAtYield | cancelledAtYield =>
    exact .inl ⟨hf, valid_exceptClauses _, rfl⟩
  | _ => exact .inl ⟨hf, rfl, rfl⟩

theorem valid_toStr (floatRepr : PyFloat → String) (n : SqlNumber) :
    (n.toStr floatRepr).valid = true := by
  cases n <;> simp [SqlNumber.toStr]

theorem checkLimits_texts (h : checkLimits env auth clk limiter = (some refusal, limiter')) :
    refusal.errorType.valid = true ∧ refusal.message.valid = true := by
  have hlimit (n : Option Int) : ((n.map Str.ofInt).getD (str "None")).valid = true := by
    cases n <;> simp
  unfold checkLimits at h
  simp only at h
  split at h
  · cases h
    simp [hlimit]
  split at h <;> cases h
  simp [hlimit, valid_toStr]

/-- What admission does to the log: an unreadable body leaves no trace, a refusal is logged, and a
request that is admitted is not logged yet. -/
inductive Admission.Logs (req : ChatRequest) (a : Arrival) (effects : List Effect) : Pc → Prop
  | unreadable {o} (hr : (readBody req).isOk = false) (heff : spawned effects = []) :
    Logs req a effects (.done o)
  | refused {pc} (hr : (readBody req).isOk = true) (hend : EndsLogged a.requestId none effects pc) :
    Logs req a effects pc
  | admitted {pc f} (hr : (readBody req).isOk = true) (heff : spawned effects = [])
    (hf : pc.frame? = some f) (hauth : f.auth = a.auth) (ht : f.record.Texts)
    (hid : f.record.requestId = a.requestId) (het : pc.errorType.all Str.valid = true) :
    Logs req a effects pc

theorem baseRecord_texts {body : List (Str × Json)} (hm : (modelOf body).all Str.valid = true)
    (env : RelayEnv) (req : ChatRequest) (a : Arrival) (n : Nat) :
    (baseRecord env req a body n).Texts := by
  refine ⟨hm, ?_⟩
  unfold baseRecord
  cases req.clientHost with
  | none => rfl
  | some host => exact host.property

theorem Admission.logs (h : Admission env req a limiter pc effects limiter')
    (hl : ∀ body, readBody req = .ok body →
      encodable env a limiter body = true ∧ (modelOf body).all Str.valid = true) :
    Admission.Logs req a effects pc := by
  cases h with
  | failed hf =>
    refine .unreadable ?_ rfl
    cases hb : readBody req with
    | error e => rfl
    | ok body => exact absurd (hl body hb).1 (by simp [hf body hb])
  | refused hb hraw hlim =>
    have ht := baseRecord_texts (hl _ hb).2 env req a 0
    obtain ⟨htype, hmsg⟩ := checkLimits_texts hlim
    refine .refused (by rw [hb]; rfl) (.intro rfl rfl ?_ (by rintro s ⟨⟩; rfl))
    refine RequestLog.Valid.bindable ⟨ht.model, ?_, rfl, ht.clientIp, htype, hmsg⟩
    simp [RequestLog.tokens, Refusal.record, baseRecord, bindJson, Except.isOk, Except.toBool]
  | admitted hb hraw hlim hpay hauth _ _ _ _ _ hrec =>
    refine .admitted (by rw [hb]; rfl) rfl rfl hauth ?_ (by rw [hrec]; rfl) rfl
    rw [hrec]
    exact baseRecord_texts (hl _ hb).2 env req a _

/-! ## What a log task makes durable -/

namespace Purpose

/-- It logs a request id and a status that satisfy `p`. -/
def logs (p : Uuid → Option Int → Bool) : Purpose → Bool
  | .touch .. => false
  | .log record _ => p record.requestId (some record.statusCode)

/-- A record that can be bound, and a key that exists. -/
def Sound (t : Tables) : Purpose → Prop
  | .touch .. => True
  | .log record keyId => record.bindable = true ∧ ∀ k ∈ keyId, (t.apiKeys.get? k).isSome

/-- A log task follows its script, the others write nothing to the log. -/
def At (steps : Nat) (c : Db Unit) : Purpose → Prop
  | .touch .. => c.All Stmt.Quiet
  | .log record keyId => c.Follows ((Purpose.log record keyId).stmts.drop steps)

theorem Sound.mono (h : Tables.Grown t t') {p : Purpose} (hp : p.Sound t) : p.Sound t' := by
  cases p with
  | touch => trivial
  | log record keyId => exact ⟨hp.1, fun k hk => h.keys k (hp.2 k hk)⟩

theorem at_zero (p : Purpose) : p.At 0 p.coro := by
  cases p with
  | touch keyId nowMs =>
    exact (executeCommit_all (fun d hd => by cases hd; rfl) (fun d hd => nomatch hd)).bind fun _ =>
      .ret
  | log record keyId => exact persistRequestLog_follows _ _

end Purpose

structure Task.Sound (t : Tables) (task : Task) : Prop where
  purpose : task.purpose.Sound t
  script : task.purpose.At task.steps task.coro

theorem Task.sound_spawn {p : Purpose} (h : p.Sound t) : (spawn p).Sound t := ⟨h, p.at_zero⟩

/-- Its row has been inserted. -/
def Task.started (p : Uuid → Option Int → Bool) (t : Task) : Bool := t.purpose.logs p && 0 < t.steps

/-- It has ended. -/
def Task.finished (p : Uuid → Option Int → Bool) (t : Task) : Bool :=
  t.purpose.logs p && t.coro.ended

theorem Task.Sound.started {task : Task} (h : task.Sound t) (hf : task.finished p = true) :
    task.started p = true := by
  unfold Task.finished at hf
  unfold Task.started
  rw [Bool.and_eq_true] at hf ⊢
  refine ⟨hf.1, ?_⟩
  have hs := h.script
  cases hp : task.purpose with
  | touch =>
    rw [hp] at hf
    cases hf.1
  | log record keyId =>
    rw [hp] at hs
    have hdrop := (Coro.Follows.ended_iff hs).mp hf.2
    by_contra h0
    rw [show task.steps = 0 by simpa using h0] at hdrop
    cases hdrop

/-- The log, as it follows from what the tasks have done: a row is there as soon as its task has
started, and durable when its task has ended. -/
structure Ledger (t₀ : Tables) (conn : Conn) (tasks : List Task) : Prop where
  alone : conn.Alone
  sound : ∀ t ∈ tasks, t.Sound conn.view
  rows : ∀ p, conn.view.logged p = t₀.logged p + tasks.countP (·.started p)
  durable : ∀ p, t₀.logged p + tasks.countP (·.finished p) ≤ conn.durable.logged p
  pfx : conn.durable.requestLogs.rows <+: conn.view.requestLogs.rows

namespace Ledger

variable {t₀ : Tables} {conn : Conn} {tasks : List Task}

theorem init (t₀ : Tables) : Ledger t₀ { durable := t₀ } [] where
  alone := .of_tx_none rfl rfl
  sound := fun _ h => nomatch h
  rows := fun _ => rfl
  durable := fun _ => le_rfl
  pfx := List.prefix_rfl

theorem add (h : Ledger t₀ conn tasks) {p : Purpose} (hp : p.Sound conn.view) :
    Ledger t₀ conn (tasks ++ [spawn p]) where
  alone := h.alone
  sound := by
    intro t ht
    rcases List.mem_append.mp ht with ht | ht
    · exact h.sound t ht
    · rw [List.mem_singleton.mp ht]
      exact Task.sound_spawn hp
  rows q := by
    rw [h.rows q]
    simp [Task.started, spawn]
  durable q := by
    have := h.durable q
    have hended : p.coro.ended = false := by cases p <;> rfl
    simpa [Task.finished, spawn, hended] using this
  pfx := h.pfx

theorem addAll (h : Ledger t₀ conn tasks) {new : List Purpose}
    (hnew : ∀ p ∈ new, p.Sound conn.view) : Ledger t₀ conn (tasks ++ new.map spawn) := by
  induction new generalizing tasks with
  | nil => simpa using h
  | cons p new ih =>
    rw [List.map_cons, List.append_cons]
    rw [List.forall_mem_cons] at hnew
    exact ih (h.add hnew.1) hnew.2

/-- A commit makes durable what the tasks have started. -/
theorem durable_step (h : Ledger t₀ conn tasks) {s : Stmt} {tasks' : List Task}
    (hsound : ∀ t ∈ tasks', t.Sound (conn.step none s).2.view)
    (hrows : ∀ p, (conn.step none s).2.view.logged p = t₀.logged p + tasks'.countP (·.started p))
    (hfinished : s.isCommit = false → ∀ p, tasks'.countP (·.finished p) =
      tasks.countP (·.finished p)) :
    Ledger t₀ (conn.step none s).2 tasks' := by
  obtain ⟨-, hview, hdurable, halone⟩ := h.alone.step s
  have hgrown := s.effect_grown conn.view
  rw [← hview] at hgrown
  refine ⟨halone, hsound, hrows, fun p => ?_, ?_⟩
  · rw [hdurable]
    split
    · have hsame : (conn.step none s).2.view = conn.view := by
        cases s with
        | commit => exact hview
        | query | dml => exact absurd ‹_› Bool.false_ne_true
      rw [← hsame, hrows]
      exact Nat.add_le_add_left (List.countP_mono_left fun t ht => (hsound t ht).started) _
    · rw [hfinished (Bool.not_eq_true _ ▸ ‹_›)]
      exact h.durable p
  · rw [hdurable]
    split
    · exact hgrown.logs
    · exact h.pfx.trans hgrown.logs

theorem sound_step (h : Ledger t₀ conn tasks) (s : Stmt) :
    ∀ t ∈ tasks, t.Sound (conn.step none s).2.view := by
  intro t ht
  have hgrown := s.effect_grown conn.view
  rw [← (h.alone.step s).2.1] at hgrown
  exact ⟨(h.sound t ht).purpose.mono hgrown, (h.sound t ht).script⟩

theorem logged_step (h : Ledger t₀ conn tasks) {s : Stmt} (hs : s.Quiet)
    (p : Uuid → Option Int → Bool) :
    (conn.step none s).2.view.logged p = conn.view.logged p := by
  rw [(h.alone.step s).2.1, s.effect_logged hs]

/-- A statement that has nothing to do with the log. -/
theorem quiet (h : Ledger t₀ conn tasks) {s : Stmt} (hs : s.Quiet) :
    Ledger t₀ (conn.step none s).2 tasks :=
  h.durable_step (h.sound_step s) (fun p => by rw [h.logged_step hs, h.rows]) fun _ _ => rfl

/-- One statement of a task. -/
theorem move (h : Ledger t₀ conn tasks) {s : Stmt} {task task' : Task} (hj : tasks[j]? = some task)
    (hpurpose : task'.purpose = task.purpose) (hat : task'.purpose.At task'.steps task'.coro)
    (hrows : ∀ p, (conn.step none s).2.view.logged p + (task.started p).toNat =
      conn.view.logged p + (task'.started p).toNat)
    (hfinished : s.isCommit = false → ∀ p, task'.finished p = task.finished p) :
    Ledger t₀ (conn.step none s).2 (tasks.set j task') := by
  refine h.durable_step (forall_mem_set (h.sound_step s) j ⟨?_, hat⟩) (fun p => ?_) fun hs p => ?_
  · rw [hpurpose]
    exact (h.sound_step s task (List.mem_of_getElem? hj)).purpose
  · have hcount := countP_set_add (·.started p) hj task'
    have := hrows p
    rw [h.rows] at this
    omega
  · have hcount := countP_set_add (·.finished p) hj task'
    rw [hfinished hs p] at hcount
    omega

/-- The statement that a log task is at succeeds. -/
theorem log_ok (h : Ledger t₀ conn tasks) {record : RequestLog Json} {keyId : Option Nat}
    (hp : (Purpose.log record keyId).Sound conn.view)
    (hdrop : (Purpose.log record keyId).stmts.drop n = s :: rest) :
    ∃ r, (conn.step none s).1 = .ok r := by
  rw [(h.alone.step s).1]
  rcases persistStmts_drop hdrop with ⟨-, rfl, -⟩ | ⟨-, ⟨k, m, hc, rfl⟩, -⟩ | ⟨-, rfl, -⟩
  · obtain ⟨_, cursor, -, he⟩ := insertRequestLog_bindable hp.1 conn.view
    exact ⟨cursor, by rw [Stmt.effect, he]⟩
  · have hfits := fits64_of_charge hp.1 hc
    obtain ⟨k', hk', hm⟩ := Option.bind_eq_some_iff.mp hc
    obtain ⟨id, rfl, rfl⟩ := Option.map_eq_some_iff.mp hk'
    obtain ⟨_, _, ⟨⟩⟩ := Option.map_eq_some_iff.mp hm
    obtain ⟨cursor, t', he, -⟩ := addTokenUsed_effect (hp.2 id rfl) hfits
    exact ⟨cursor, by rw [Stmt.effect, he]⟩
  · exact ⟨(), rfl⟩

/-- One statement of a detached task. -/
theorem task (h : Ledger t₀ conn tasks) {task : Task} (hj : tasks[j]? = some task)
    (hc : task.coro.advance Conn.handler conn = some (coro, conn')) :
    Ledger t₀ conn' (tasks.set j { task with coro, steps := task.steps + 1 }) := by
  obtain ⟨purpose, coro₀, steps⟩ := task
  have hsound := h.sound _ (List.mem_of_getElem? hj)
  obtain ⟨hpurpose, hscript⟩ := hsound
  cases purpose with
  | touch keyId nowMs =>
    obtain ⟨s, -, hs, rfl, hall⟩ := Coro.All.advance hscript hc
    exact h.move hj rfl hall (fun p => by rw [h.logged_step hs]; rfl) fun _ _ => rfl
  | log record keyId =>
    obtain ⟨s, rest, hdrop, rfl, hnext⟩ := Coro.Follows.advance hscript hc
    have hfollows : coro.Follows rest := by
      rcases hnext with ⟨-, hnext⟩ | ⟨⟨e, he⟩, -⟩
      · exact hnext
      · obtain ⟨r, hr⟩ := h.log_ok hpurpose hdrop
        simp [Conn.handler, hr, Except.mapError] at he
    have hat : (Purpose.log record keyId).At (steps + 1) coro := by
      change coro.Follows ((Purpose.log record keyId).stmts.drop (steps + 1))
      rw [← List.tail_drop, show (Purpose.log record keyId).stmts.drop steps = s :: rest from hdrop]
      exact hfollows
    have hended : coro₀.ended = false := by
      cases coro₀ <;> first | rfl | cases hc
    have hopen : rest ≠ [] → coro.ended = false := fun hrest =>
      Bool.eq_false_iff.mpr fun he => hrest (hfollows.ended_iff.mp he)
    obtain ⟨rfl, rfl, hrest⟩ | ⟨rfl, ⟨k, m, hcharge, rfl⟩, hrest⟩ | ⟨hpos, rfl, hrest⟩ :=
      persistStmts_drop hdrop
    · refine h.move hj rfl hat (fun p => ?_) fun _ p => by simp [Task.finished, hended, hopen hrest]
      rw [(h.alone.step _).2.1, Stmt.effect, insertRequestLog_logged hpurpose.1]
      simp [Task.started, Purpose.logs]
    · refine h.move hj rfl hat (fun p => ?_) fun _ p => by simp [Task.finished, hended, hopen hrest]
      rw [h.logged_step fun d hd => by cases hd; rfl]
      simp [Task.started]
    · refine h.move hj rfl hat (fun p => ?_) fun hs => absurd hs (by decide)
      rw [h.logged_step (s := .commit) fun d hd => by cases hd]
      simp [Task.started, hpos]

end Ledger

/-! ## The requests -/

/-- A key row that exists. -/
def Tables.hasKey (t : Tables) (keyId : Nat) : Prop := (t.apiKeys.get? keyId).isSome = true

namespace Request

/-- It is to be logged. -/
def due (r : Request) : Bool := r.ended && r.auth.isSome && r.readable

/-- What is known of a request in each phase. -/
inductive LogInv (cfg : GatewayConfig) (id : Uuid) (t : Tables) (r : Request) : Prop
  | authenticating {c nowMs} (hp : r.phase = .authenticating c nowMs) (ha : r.auth = none)
    (hc : AuthAt cfg.hashKey cfg.keyPrefix (header r.req) nowMs (fun row => t.hasKey row.id) c)
  | reading {auth} (hp : r.phase = .reading auth) (ha : r.auth.isSome = true)
    (hk : t.hasKey auth.apiKeyId)
  | live {pc f} (hp : r.phase = .serving pc) (hf : pc.frame? = some f) (ha : r.auth.isSome = true)
    (hr : r.readable = true) (hk : t.hasKey f.auth.apiKeyId) (ht : f.record.Texts)
    (hid : f.record.requestId = id) (het : pc.errorType.all Str.valid = true)
  | done {o} (hp : r.phase = .serving (.done o))

/-- Of the tasks spawned so far, one logs the request if it is to be logged. -/
structure Logged (ps : List Purpose) (id : Uuid) (r : Request) : Prop where
  count : ps.countP (·.isLogOf id) = r.due.toNat
  status : ∀ record keyId, .log record keyId ∈ ps → record.requestId = id →
    ∀ s, r.sentStatus = some s → record.statusCode = s

variable {ps new : List Purpose} {id : Uuid} {r : Request}

theorem LogInv.mono (hg : Tables.Grown t t') (h : r.LogInv cfg id t) : r.LogInv cfg id t' := by
  cases h with
  | authenticating hp ha hc => exact .authenticating hp ha (hc.mono fun row => hg.keys row.id)
  | reading hp ha hk => exact .reading hp ha (hg.keys _ hk)
  | live hp hf ha hr hk ht hid het => exact .live hp hf ha hr (hg.keys _ hk) ht hid het
  | done hp => exact .done hp

theorem not_logged_of_count (h : ps.countP (·.isLogOf id) = 0) (hmem : .log record keyId ∈ ps) :
    record.requestId ≠ id := fun hid =>
  List.countP_eq_zero.mp h _ hmem (by simp [Purpose.isLogOf, hid])

theorem Logged.none (h : ps.countP (·.isLogOf id) = 0) (hd : r.due = false) : r.Logged ps id :=
  ⟨by rw [h, hd]; rfl, fun _ _ hmem hid => absurd hid (not_logged_of_count h hmem)⟩

theorem Logged.one (h : ps.countP (·.isLogOf id) = 0) (hd : r.due = true) {record : RequestLog Json}
    (hid : record.requestId = id) (hs : ∀ s, r.sentStatus = some s → record.statusCode = s) :
    r.Logged (ps ++ [.log record keyId]) id := by
  refine ⟨?_, fun record' keyId' hmem hid' => ?_⟩
  · rw [List.countP_append, h, hd]
    simp [Purpose.isLogOf, hid]
  · rcases List.mem_append.mp hmem with hmem | hmem
    · exact absurd hid' (not_logged_of_count h hmem)
    · cases List.mem_singleton.mp hmem
      exact hs

theorem countP_append_quiet (hnew : ∀ p ∈ new, p.isLogOf id = false) :
    (ps ++ new).countP (·.isLogOf id) = ps.countP (·.isLogOf id) := by
  have hzero : new.countP (·.isLogOf id) = 0 := List.countP_eq_zero.mpr fun p hp => by
    simp [hnew p hp]
  rw [List.countP_append, hzero, Nat.add_zero]

theorem Logged.frame (h : r.Logged ps id) (hnew : ∀ p ∈ new, p.isLogOf id = false) :
    r.Logged (ps ++ new) id := by
  refine ⟨by rw [countP_append_quiet hnew, h.count], fun record keyId hmem hid => ?_⟩
  rcases List.mem_append.mp hmem with hmem | hmem
  · exact h.status record keyId hmem hid
  · exact absurd (hnew _ hmem) (by simp [Purpose.isLogOf, hid])

end Request

theorem Pc.isDone_of_frame {pc : Pc} (h : pc.frame? = some f) : pc.isDone = false := by
  cases pc <;> first | rfl | cases h

namespace Gateway

def purposes (g : Gateway) : List Purpose := g.tasks.map Task.purpose

structure LogInv (cfg : GatewayConfig) (t₀ : Tables) (n₀ : Nat) (g : Gateway) : Prop where
  drawn : g.drawn = n₀
  ledger : Ledger t₀ g.conn g.tasks
  requests : ∀ i (r : Request), g.requests[i]? = some r → r.LogInv cfg (g.drawn + i) g.conn.view
  logged : ∀ i (r : Request), g.requests[i]? = some r → r.Logged g.purposes (g.drawn + i)
  unborn : ∀ i, g.requests.length ≤ i → g.purposes.countP (·.isLogOf (g.drawn + i)) = 0

/-- A request that is not over has not been logged. -/
theorem LogInv.unlogged {g : Gateway} (h : g.LogInv cfg t₀ n₀) (hr : g.requests[i]? = some r)
    (he : r.ended = false) : g.purposes.countP (·.isLogOf (g.drawn + i)) = 0 := by
  rw [(h.logged i r hr).count]
  simp [Request.due, he]

/-- Request `i` moves, and spawns tasks that log no other request. -/
theorem LogInv.move {g g' : Gateway} (h : g.LogInv cfg t₀ n₀) (new : List Purpose) {r r' : Request}
    (hr : g.requests[i]? = some r) (hdrawn : g'.drawn = g.drawn)
    (hrequests : g'.requests = g.requests.set i r') (hpurposes : g'.purposes = g.purposes ++ new)
    (hledger : Ledger t₀ g'.conn g'.tasks) (hgrown : g.conn.view.Grown g'.conn.view)
    (hnew : ∀ p ∈ new, ∀ j ≠ i, p.isLogOf (g.drawn + j) = false)
    (hinv : r'.LogInv cfg (g.drawn + i) g'.conn.view)
    (hlogged : r'.Logged (g.purposes ++ new) (g.drawn + i)) : g'.LogInv cfg t₀ n₀ where
  drawn := hdrawn.trans h.drawn
  ledger := hledger
  requests j x hx := by
    rw [hrequests] at hx
    rw [hdrawn]
    rcases getElem?_set_cases hx with ⟨rfl, rfl⟩ | ⟨-, hx⟩
    · exact hinv
    · exact (h.requests j x hx).mono hgrown
  logged j x hx := by
    rw [hrequests] at hx
    rw [hdrawn, hpurposes]
    rcases getElem?_set_cases hx with ⟨rfl, rfl⟩ | ⟨hj, hx⟩
    · exact hlogged
    · exact (h.logged j x hx).frame fun p hp => hnew p hp j hj
  unborn j hj := by
    rw [hrequests, List.length_set] at hj
    have hi := (List.getElem?_eq_some_iff.mp hr).1
    rw [hdrawn, hpurposes, Request.countP_append_quiet fun p hp => hnew p hp j (by omega)]
    exact h.unborn j hj

/-- A request that is not over moves without being logged. -/
theorem LogInv.moveQuiet {g g' : Gateway} (h : g.LogInv cfg t₀ n₀) (new : List Purpose)
    {r r' : Request} (hr : g.requests[i]? = some r) (he : r.ended = false)
    (hdrawn : g'.drawn = g.drawn) (hrequests : g'.requests = g.requests.set i r')
    (hpurposes : g'.purposes = g.purposes ++ new) (hledger : Ledger t₀ g'.conn g'.tasks)
    (hgrown : g.conn.view.Grown g'.conn.view) (hnew : ∀ p ∈ new, ∀ id, p.isLogOf id = false)
    (hinv : r'.LogInv cfg (g.drawn + i) g'.conn.view) (hdue : r'.due = false) :
    g'.LogInv cfg t₀ n₀ := by
  refine h.move new hr hdrawn hrequests hpurposes hledger hgrown
    (fun p hp j _ => hnew p hp _) hinv ?_
  exact .none (by rw [Request.countP_append_quiet fun p hp => hnew p hp _, h.unlogged hr he]) hdue

/-- A request that is not over ends with its log task. -/
theorem LogInv.moveLogged {g : Gateway} (h : g.LogInv cfg t₀ n₀) {r : Request}
    (hr : g.requests[i]? = some r) (he : r.ended = false) (ha : r.auth.isSome = true)
    (hread : r.readable = true) {keyId : Option Nat} (hk : ∀ k ∈ keyId, g.conn.view.hasKey k)
    (hend : EndsLogged (g.drawn + i) keyId effects pc) (took : Nat)
    (limiter : FixedWindowRpmLimiter) :
    ({ g.serve i r pc effects took with limiter } : Gateway).LogInv cfg t₀ n₀ := by
  obtain @⟨o, record, heff, hid, hb, hs⟩ := hend
  refine h.move [.log record keyId] hr rfl rfl ?_ ?_ (.refl _) ?_ (.done rfl) ?_
  · simp [purposes, serve, heff, spawn]
  · simp only [serve, heff]
    exact h.ledger.add ⟨hb, hk⟩
  · intro p hp j hj
    cases List.mem_singleton.mp hp
    simp only [Purpose.isLogOf, hid, decide_eq_false_iff_not]
    exact fun h => hj (Nat.add_left_cancel h).symm
  · refine .one (h.unlogged hr he) ?_ hid hs
    have hread' : (r.serve (.done o) effects took).readable = true := hread
    simp only [Request.due, hread', Bool.and_true]
    exact ha

theorem settleAuth_req (r : Request) (nowMs : Int) (c : Db AuthContext) :
    (settleAuth r nowMs c).req = r.req := by
  cases c <;> rfl

/-- Where a request is after a statement of `require_auth`. -/
theorem settleAuth_logInv (cfg : GatewayConfig) (id : Uuid) (t : Tables) {r : Request}
    (ha : r.auth = none)
    (hc : c = requireAuth cfg.hashKey cfg.keyPrefix (Request.header r.req) nowMs ∨
      AuthStep nowMs (fun row => t.hasKey row.id) c) :
    (settleAuth r nowMs c).LogInv cfg id t ∧ (settleAuth r nowMs c).due = false ∧
      ∃ new, (authSpawned nowMs c).map Task.purpose = new ∧
      (∀ p ∈ new, ∀ id, p.isLogOf id = false) ∧
        authSpawned nowMs c = new.map spawn ∧ ∀ p ∈ new, p.Sound t := by
  have hraised (e) : (settleAuth r nowMs (.raise e)).due = false := by
    simp [settleAuth, Request.due, ha]
  have hnone : ∃ new, ([] : List Task).map Task.purpose = new ∧
      (∀ p ∈ new, ∀ id, p.isLogOf id = false) ∧
      [] = new.map spawn ∧ ∀ p ∈ new, p.Sound t := ⟨[], by simp⟩
  rcases hc with rfl | hc
  · rcases requireAuth_cases cfg.hashKey cfg.keyPrefix (Request.header r.req) nowMs with
      ⟨e, hc⟩ | ⟨k, hc, -⟩
    · rw [hc]
      exact ⟨.done rfl, hraised e, hnone⟩
    · rw [hc]
      refine ⟨.authenticating rfl ha ?_, rfl, hnone⟩
      rw [← hc, settleAuth_req]
      exact .start
  · cases hc with
    | @raised e => exact ⟨.done rfl, hraised e, hnone⟩
    | @found row hrow =>
      rcases checkRow_cases row nowMs with ⟨e, hc⟩ | ⟨k, hc, -⟩
      · rw [hc]
        exact ⟨.done rfl, hraised e, hnone⟩
      · rw [hc]
        refine ⟨.authenticating rfl ha ?_, rfl, hnone⟩
        rw [← hc, settleAuth_req]
        exact .found hrow
    | granted hrow =>
      exact ⟨.reading rfl rfl hrow, rfl, [.touch _ nowMs], rfl, by simp [Purpose.isLogOf], rfl,
        by simp [Purpose.Sound]⟩

/-- A new request starts with `require_auth`. -/
theorem LogInv.arrive {g : Gateway} (h : g.LogInv cfg t₀ n₀) (req : ChatRequest) (nowMs : Int) :
    (g.stepArrive cfg req nowMs).LogInv cfg t₀ n₀ := by
  obtain ⟨hinv, hdue, new, hnew, hquiet, hspawned, hsound⟩ :=
    settleAuth_logInv cfg (g.drawn + g.requests.length) g.conn.view
      (r := { req, phase := .authenticating _ nowMs }) rfl (.inl rfl)
  have hpurposes : (g.stepArrive cfg req nowMs).purposes = g.purposes ++ new := by
    simp only [purposes, stepArrive, List.map_append]
    exact congrArg _ hnew
  have hquiet' (j : Nat) : ∀ p ∈ new, p.isLogOf (g.drawn + j) = false := fun p hp => hquiet p hp _
  refine ⟨h.drawn, ?_, fun j x hx => ?_, fun j x hx => ?_, fun j hj => ?_⟩
  · rw [stepArrive, hspawned]
    exact h.ledger.addAll hsound
  · rcases getElem?_concat_cases hx with hx | ⟨hj, ⟨⟩⟩
    · exact h.requests j x hx
    · exact hj ▸ hinv
  · rw [hpurposes]
    rcases getElem?_concat_cases hx with hx | ⟨rfl, ⟨⟩⟩
    · exact (h.logged j x hx).frame (hquiet' j)
    · refine .none ?_ hdue
      exact (Request.countP_append_quiet (hquiet' _)).trans (h.unborn _ le_rfl)
  · rw [hpurposes]
    simp only [stepArrive, List.length_append, List.length_singleton] at hj
    exact (Request.countP_append_quiet (hquiet' j)).trans (h.unborn j (by omega))

theorem LogInv.step {g g' : Gateway} (h : g.LogInv cfg t₀ n₀)
    (hstep : Gateway.step cfg g l = some g') (hl : g.logs cfg l = true) : g'.LogInv cfg t₀ n₀ := by
  cases Stepped.of_step hstep with
  | arrive => exact h.arrive _ _
  | @auth i r c nowMs c' conn hr hp hc =>
    cases h.requests i r hr with
    | @authenticating c₀ nowMs₀ hp' ha hat =>
      cases hp.symm.trans hp'
      have hP (row : Row ApiKey) (hrow : g.conn.view.keyByHash (cfg.hashKey
          (Auth.token (Request.header r.req))) = some row) : g.conn.view.hasKey row.id :=
        Option.isSome_iff_exists.mpr
          ⟨row, Table.get?_eq_some.mpr ⟨List.mem_of_find?_eq_some hrow, rfl⟩⟩
      obtain ⟨⟨q, rfl⟩, hat'⟩ := hat.advance h.ledger.alone hP hc
      have hquery : (Stmt.query q).Quiet := fun d hd => nomatch hd
      have hgrown := (Stmt.query q).effect_grown g.conn.view
      rw [← (h.ledger.alone.step _).2.1] at hgrown
      obtain ⟨hinv, hdue, new, hnew, hquiet, hspawned, hsound⟩ :=
        settleAuth_logInv cfg (g.drawn + i) g.conn.view ha (.inr hat')
      refine h.moveQuiet new hr ?_ rfl rfl ?_ ?_ hgrown hquiet (hinv.mono hgrown) hdue
      · rw [Request.ended, hp]
      · simp only [purposes, List.map_append, hnew]
      · simp only [hspawned]
        exact (h.ledger.quiet hquery).addAll fun p hp => (hsound p hp).mono hgrown
    | reading hp' | live hp' | done hp' => cases hp.symm.trans hp'
  | @cancelAuth i r c nowMs hr hp =>
    cases h.requests i r hr with
    | authenticating hp' ha =>
      refine h.moveQuiet [] hr (by rw [Request.ended, hp]) rfl rfl ?_ ?_ (.refl _) (by simp)
        (.done rfl) ?_
      · simp [purposes, serve, spawned]
      · simpa [serve, spawned] using h.ledger
      · simp [Request.due, Request.serve, ha]
    | reading hp' | live hp' | done hp' => cases hp.symm.trans hp'
  | @body i r auth clk pc effects limiter hr hp hadm =>
    have he : r.ended = false := by rw [Request.ended, hp]
    cases h.requests i r hr with
    | reading hp' ha hk =>
      cases hp.symm.trans hp'
      have hl (body) (hb : readBody r.req = .ok body) :
          encodable cfg.relay { requestId := g.drawn + i, auth, clk } g.limiter body = true ∧
            (modelOf body).all Str.valid = true := by
        simpa [Gateway.logs, hr, hp, hb] using hl
      cases hadm.logs hl with
      | @unreadable o hread heff =>
        refine h.moveQuiet [] hr he rfl rfl ?_ ?_ (.refl _) (by simp) (.done rfl) ?_
        · simp [purposes, serve, heff]
        · simpa [serve, heff] using h.ledger
        · have hread' : (r.serve (.done o) effects 0).readable = false := hread
          simp only [Request.due, hread', Bool.and_false]
      | refused hread hend => exact h.moveLogged hr he ha hread (by simp) hend 0 limiter
      | admitted hread heff hf hauth ht hid het =>
        refine h.moveQuiet [] hr he rfl rfl ?_ ?_ (.refl _) (by simp)
          (.live rfl hf ha hread (hauth ▸ hk) ht hid het) ?_
        · simp [purposes, serve, heff]
        · simpa [serve, heff] using h.ledger
        · simp [Request.due, Request.ended, Request.serve, Pc.isDone_of_frame hf]
    | authenticating hp' | live hp' | done hp' => cases hp.symm.trans hp'
  | @event i r pc clk ev pc' effects hr hp hres ht =>
    cases h.requests i r hr with
    | live hp' hf ha hread hk htexts hid het =>
      cases hp.symm.trans hp'
      have hl : pc.logs cfg.relay ev = true := by simpa [Gateway.logs, hr, hp] using hl
      have he : r.ended = false := by rw [Request.ended, hp]; exact Pc.isDone_of_frame hf
      rcases hres.logs hl hf htexts het with ⟨hf', het', heff⟩ | hend
      · refine h.moveQuiet [] hr he rfl rfl ?_ ?_ (.refl _) (by simp)
          (.live rfl hf' ha hread hk htexts hid het') ?_
        · simp [purposes, serve, heff]
        · simpa [serve, heff] using h.ledger
        · simp [Request.due, Request.ended, Request.serve, Pc.isDone_of_frame hf']
      · rw [hid] at hend
        exact h.moveLogged hr he ha hread (by simpa using hk) hend _ g.limiter
    | done hp' =>
      cases hp.symm.trans hp'
      cases hres
    | authenticating hp' | reading hp' => cases hp.symm.trans hp'
  | @task j t coro conn hj hc =>
    obtain ⟨s, rfl⟩ := Coro.exists_op_of_advance hc
    have hgrown := s.effect_grown g.conn.view
    rw [← (h.ledger.alone.step s).2.1] at hgrown
    have hpurposes : (g.tasks.set j { t with coro, steps := t.steps + 1 }).map Task.purpose =
      g.purposes := by
      rw [List.map_set]
      refine List.ext_getElem? fun k => ?_
      rw [List.getElem?_set']
      split
      · subst k
        simp [purposes, hj]
      · rfl
    refine ⟨h.drawn, h.ledger.task hj hc, fun i r hr => (h.requests i r hr).mono hgrown,
      fun i r hr => ?_, fun i hi => ?_⟩
    · rw [purposes, hpurposes]
      exact h.logged i r hr
    · rw [purposes, hpurposes]
      exact h.unborn i hi

/-- The rows of a request that is to be logged, once its log task has ended. -/
theorem LogInv.rows {g : Gateway} (h : g.LogInv cfg t₀ n₀)
    (ht₀ : ∀ row ∈ t₀.requestLogs.rows, row.val.requestId < n₀) {r : Request}
    (hr : g.requests[i]? = some r) (hd : r.due = true)
    (hended : ∀ t ∈ g.tasks, t.purpose.isLogOf (g.drawn + i) = true → t.coro.ended = true) :
    ∃ row, g.rowsOf i = [row] ∧ ∀ s, r.sentStatus = some s →
    row.val.statusCode = some (s : Int) := by
  have hnone (p : Uuid → Option Int → Bool) (hp : ∀ id s, p id s = true → id = g.drawn + i) :
      t₀.logged p = 0 :=
    List.countP_eq_zero.mpr fun row hrow hps => by
      have hlt := ht₀ row hrow
      rw [hp _ _ hps, ← h.drawn] at hlt
      exact absurd hlt (Nat.not_lt.mpr (Nat.le_add_right ..))
  have hlogs : (fun t : Task => t.purpose.logs fun q _ => q = g.drawn + i) =
      (fun t => t.purpose.isLogOf (g.drawn + i)) := by
    funext t
    cases t.purpose <;> rfl
  have hone : g.tasks.countP (·.purpose.isLogOf (g.drawn + i)) = 1 := by
    have := (h.logged i r hr).count
    rwa [purposes, List.countP_map, hd] at this
  -- one task has started and finished: one row has been inserted and is durable
  have hview : g.conn.view.logged (fun q _ => q = g.drawn + i) ≤ 1 := by
    rw [h.ledger.rows, hnone _ fun id s => of_decide_eq_true, Nat.zero_add, ← hone, ← hlogs]
    exact List.countP_mono_left fun t _ hs => (Bool.and_eq_true_iff.mp hs).1
  have hdurable : 1 ≤ g.conn.durable.logged (fun q _ => q = g.drawn + i) := by
    refine le_trans ?_ (h.ledger.durable _)
    rw [hnone _ fun id s => of_decide_eq_true, Nat.zero_add, ← hone]
    refine List.countP_mono_left fun t ht hs => ?_
    rw [Task.finished, Bool.and_eq_true]
    exact ⟨(congrFun hlogs t).trans hs, hended t ht hs⟩
  have hle :=
    h.ledger.pfx.sublist.countP_le (p := fun row => decide (row.val.requestId = g.drawn + i))
  obtain ⟨row, hrow⟩ := List.length_eq_one_iff.mp (le_antisymm
    ((List.countP_eq_length_filter ▸ hle).trans hview) (List.countP_eq_length_filter ▸ hdurable))
  refine ⟨row, hrow, fun s hs => ?_⟩
  have hmem := List.mem_filter.mp (hrow ▸ List.mem_singleton_self row)
  have hid : row.val.requestId = g.drawn + i := of_decide_eq_true hmem.2
  by_contra hne
  have hpos : 0 < g.conn.view.logged (fun q st => q = g.drawn + i ∧ st ≠ some (s : Int)) :=
    List.countP_pos_iff.mpr ⟨row, h.ledger.pfx.subset hmem.1, by simp [hid, hne]⟩
  rw [h.ledger.rows, hnone _ fun id s hp => (of_decide_eq_true hp).1, Nat.zero_add] at hpos
  obtain ⟨t, ht, hstarted⟩ := List.countP_pos_iff.mp hpos
  have hp := (Bool.and_eq_true_iff.mp hstarted).1
  cases hpurpose : t.purpose with
  | touch =>
    rw [hpurpose] at hp
    cases hp
  | log record keyId =>
    rw [hpurpose] at hp
    obtain ⟨hid, hne⟩ := of_decide_eq_true hp
    have hstatus :=
      (h.logged i r hr).status record keyId (hpurpose ▸ List.mem_map_of_mem ht) hid s hs
    exact hne (congrArg (fun s : Nat => some (s : Int)) hstatus)

/-- **One log row.** -/
theorem logged_once (cfg : GatewayConfig) (t₀ : Tables) (slots drawn : Nat) (ls : List Label)
    (g : Gateway) (ht₀ : ∀ row ∈ t₀.requestLogs.rows, row.val.requestId < drawn)
    (h : Run (restrict (Gateway.step cfg) fun g l => g.logs cfg l = true)
      (Gateway.init { durable := t₀ } slots drawn) ls g) : g.LoggedOnce := by
  have hinit : (Gateway.init { durable := t₀ } slots drawn).LogInv cfg t₀ drawn := by
    refine ⟨rfl, .init t₀, ?_, ?_, ?_⟩ <;> simp [Gateway.init, purposes]
  have hinv := h.invariant (I := Gateway.LogInv cfg t₀ drawn) (fun g l g' hi hs => by
    obtain ⟨hl, hs⟩ := restrict_eq_some.mp hs
    exact hi.step hs hl) hinit
  intro i r hr ha hread he hended
  exact hinv.rows ht₀ hr (by simp [Request.due, he, ha, hread]) hended

/-- A stream that is relayed to its end, with its detached tasks. -/
theorem logged_once_relayed :
    ∃ g, Run (restrict (Gateway.step Sample.cfg) fun g l => g.logs Sample.cfg l = true)
      (Gateway.init Sample.conn 1) (Sample.relayed ++ Sample.tasks) g ∧
      (g.requests.all Request.due ∧ g.tasks.all (·.coro.ended)) ∧ g.LoggedOnce := by
  have hrun :
      ((Sample.relayed ++ Sample.tasks).foldlM (restrict (Gateway.step Sample.cfg) fun g l =>
    g.logs Sample.cfg l = true) (Gateway.init Sample.conn 1)).any
      (fun g => g.requests.all Request.due ∧ g.tasks.all (·.coro.ended)) := by decide +kernel
  obtain ⟨g, h, hp⟩ := Run.exists_of_any hrun
  exact ⟨g, h, of_decide_eq_true hp,
    logged_once _ _ _ _ _ _ (fun _ hrow => absurd hrow List.not_mem_nil) h⟩

/-- The upstream answers a request that does not stream with `[]`: the answer cannot be parsed, and
nothing is logged. -/
theorem request_unlogged :
    ¬ ∀ (cfg : GatewayConfig) (t₀ : Tables) (slots drawn : Nat) (ls : List Label)
    (g : Gateway), (∀ row ∈ t₀.requestLogs.rows, row.val.requestId < drawn) →
    Run (Gateway.step cfg) (Gateway.init { durable := t₀ } slots drawn) ls g → g.LoggedOnce := by
  intro hall
  have hrun : ((Sample.acquire 0 (Sample.chat false) ++ [Label.event 0 (Sample.clockAt 3) (.response
    { status := 200, contentType := none, content := bytes "[]" })]).foldlM
    (Gateway.step Sample.cfg) (Gateway.init Sample.conn 1)).any (fun g =>
      g.requests.head?.any Request.due ∧ (g.rowsOf 0).length = 0 ∧
        g.tasks.all fun t => !t.purpose.isLogOf (g.drawn + 0)) := by decide +kernel
  obtain ⟨g, h, hp⟩ := Run.exists_of_any hrun
  obtain ⟨hdue, hrows, htasks⟩ := of_decide_eq_true hp
  obtain ⟨r, hr, hdue⟩ := (Option.any_eq_true ..).mp hdue
  simp only [Request.due, Bool.and_eq_true] at hdue
  rw [List.head?_eq_getElem?] at hr
  obtain ⟨row, hrow, -⟩ :=
    hall _ _ _ _ _ _ (fun _ hrow => absurd hrow List.not_mem_nil) h 0 r hr hdue.1.2 hdue.2 hdue.1.1
    fun t ht hlog => absurd hlog (by simpa using List.all_eq_true.mp htasks t ht)
  rw [hrow] at hrows
  cases hrows

end Gateway
end EasyModelGate
