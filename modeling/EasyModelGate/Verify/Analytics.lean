import EasyModelGate.Services.Analytics
import EasyModelGate.Verify.Quota
import EasyModelGate.Verify.Services

/-! # Quota and analytics

`token_used` adds up the positive integers that the upstream has reported, and the TOTAL row of
`analytics.summary` what the INTEGER column has made of all reports. The two differ by the reports
that only the column takes for integers, and by the negative ones. -/

namespace EasyModelGate

/-! ## The property -/

/-- The value of an integer, and 0 for anything else. -/
def SqlValue.asInt : SqlValue → Int
  | .int n => n
  | _ => 0

/-- The integer that the column stores for `total_tokens`. -/
def RequestLog.storedTokens (record : RequestLog Json) : Int :=
  match bindJson record.totalTokens with
  | .ok x => (integerAffinity x).asInt
  | .error _ => 0

/-- What is stored and not charged: whatever the column takes for an integer, unless it was a
positive `int` already. -/
def RequestLog.uncounted (record : RequestLog Json) : Int :=
  if (tokenIncrement record).isSome then 0 else record.storedTokens

/-- What is stored and not charged of a request of key `k` that a task logs. -/
def Purpose.uncounted (k : Nat) : Purpose → Int
  | .touch .. => 0
  | .log record _ => if record.apiKeyId = k then record.uncounted else 0

/-- A `persist_request_log` that has committed. -/
def Task.persisted (t : Task) : Bool :=
  match t.purpose, t.coro with
  | .touch .., _ => true
  | .log .., .ret _ => true
  | _, _ => false

/-- What is stored and not charged of the requests of key `k`. -/
def Gateway.uncounted (g : Gateway) (k : Nat) : Int := (g.tasks.map (·.purpose.uncounted k)).sum

/-- `total_tokens` of the TOTAL row over all time, filtered by the key. -/
def totalOf (bucketKey : Granularity → Int → Except PyExn Str) (conn : Conn)
    (keyId : Int) : Option Int :=
  match ((Analytics.summary bucketKey { apiKeyId := some keyId }).run Conn.handler conn).1 with
  | .ok rows => rows.getLast?.map fun row => row.2.totalTokens
  | .error _ => none

/-! ## What `summary` returns -/

/-- The integers in `total_tokens` of the rows of a key. -/
def Tables.totalTokens (t : Tables) (k : Nat) : Int :=
  ((t.requestLogs.rows.filter fun row => row.val.apiKeyId = some (k : Int)).map fun row =>
    row.val.totalTokens.asInt).sum

namespace Analytics

theorem addTokens_eq (n : Int) (v : SqlValue) : addTokens n v = n + v.asInt := by
  cases v with
  | int => rfl
  | null | real | text => exact (add_zero n).symm

theorem foldl_totalTokens (rows : List (Row LogRow)) (b : Bucket) :
    (rows.foldl (fun b row => accumulate b row.val) b).totalTokens =
      b.totalTokens + (rows.map fun row => row.val.totalTokens.asInt).sum := by
  induction rows generalizing b with
  | nil => exact (add_zero _).symm
  | cons row rows ih =>
    rw [List.foldl_cons, ih, List.map_cons, List.sum_cons, ← add_assoc]
    exact congrArg (· + _) (addTokens_eq _ _)

/-- Without a granularity there is only the total. -/
theorem foldlM_addRow (bucketKey : Granularity → Int → Except PyExn Str) {f : SummaryFilter}
    (hf : f.granularity = none) (rows : List (Row LogRow)) (acc : List (Str × Bucket) × Bucket) :
    rows.foldlM (addRow bucketKey f) acc =
      .ok (acc.1, rows.foldl (fun b row => accumulate b row.val) acc.2) := by
  induction rows generalizing acc with
  | nil => rfl
  | cons row rows ih =>
    rw [List.foldlM_cons, List.foldl_cons]
    have hrow : addRow bucketKey f acc row = .ok (acc.1, accumulate acc.2 row.val) := by
      simp only [addRow, hf]
    rw [hrow]
    exact ih _

end Analytics

/-! The number of the key is an integer `n` here: the bounds of 64 bits are not to be evaluated. -/

theorem accepts_apiKeyId (n : Int) (rl : LogRow) :
    LogFilter.accepts { apiKeyId := some n } rl = decide (rl.apiKeyId = some n) := by
  simp only [LogFilter.accepts, Bool.not_false, Bool.true_or, Option.all_none, Bool.true_and]
  change (true && decide (rl.apiKeyId = some n) && true && true && true) = _
  simp only [Bool.true_and, Bool.and_true]

theorem bind_apiKeyId {n : Int} (hn : fits64 n = true) :
    LogFilter.bind { apiKeyId := some n } = .ok () := by
  have hbind : bindInt n = .ok () := if_pos hn
  unfold LogFilter.bind bindOption
  dsimp only
  rw [hbind]
  rfl

/-- The query of `summary`, for one key over all time. -/
theorem exec_summary {t : Tables} {n : Int} (hn : fits64 n = true) :
    (Query.summary { apiKeyId := some n }).exec t =
      .ok (t.requestLogs.rows.filter fun row => row.val.apiKeyId = some n) := by
  simp only [Query.exec, bind_apiKeyId hn, Table.select, accepts_apiKeyId]
  rfl

/-- `summary` without a granularity, from the rows that its query finds. -/
theorem run_summary (bucketKey : Granularity → Int → Except PyExn Str) {f : SummaryFilter}
    (hf : f.granularity = none) {conn conn' : Conn} {rows : List (Row LogRow)}
    (hquery : Conn.handler (.query (.summary f.conditions)) conn = (.ok rows, conn')) :
    ((Analytics.summary bucketKey f).run Conn.handler conn).1 =
      .ok (Analytics.table [] (rows.foldl (fun b row => Analytics.accumulate b row.val) {})) := by
  unfold Analytics.summary Db.query
  rw [Coro.run_bind, Coro.run_perform, hquery]
  dsimp only
  rw [Analytics.foldlM_addRow bucketKey hf]
  rfl

theorem run_summary_key (bucketKey : Granularity → Int → Except PyExn Str) (conn : Conn) {n : Int}
    (hn : fits64 n = true) :
    ((Analytics.summary bucketKey { apiKeyId := some n }).run Conn.handler conn).1 =
      .ok (Analytics.table []
        ((conn.view.requestLogs.rows.filter fun row => row.val.apiKeyId = some n).foldl
        (fun b row => Analytics.accumulate b row.val) {})) := by
  have hquery : Conn.handler (.query (.summary { apiKeyId := some n })) conn =
      (.ok (conn.view.requestLogs.rows.filter fun row => row.val.apiKeyId = some n), conn.pin) := by
    rw [Conn.handler, Conn.step_query_ok (exec_summary hn)]
    rfl
  exact run_summary bucketKey rfl hquery

theorem totalOf_eq (bucketKey : Granularity → Int → Except PyExn Str) (conn : Conn) {n : Int}
    (hn : fits64 n = true) {k : Nat} (hk : n = k) :
    totalOf bucketKey conn n = some (conn.view.totalTokens k) := by
  have htotal := Analytics.foldl_totalTokens
    (conn.view.requestLogs.rows.filter fun row => row.val.apiKeyId = some n) {}
  unfold totalOf
  rw [run_summary_key bucketKey conn hn]
  change some (Analytics.Bucket.totalTokens _) = _
  rw [htotal, Tables.totalTokens]
  simp only [hk, zero_add]

/-! ## What a statement adds to the total -/

theorem Stmt.Quiet.totalTokens {s : Stmt} (hs : s.Quiet) (t : Tables) (k : Nat) :
    (s.effect t).2.totalTokens k = t.totalTokens k := by
  cases s with
  | query | commit => rfl
  | dml d =>
    unfold Tables.totalTokens
    rw [Stmt.effect, Dml.effect_requestLogs (hs d rfl) t]

/-- The row of a record adds what is stored of it. -/
theorem insertRequestLog_totalTokens {record : RequestLog Json} (hb : record.bindable = true)
    (t : Tables) (k : Nat) :
    ((Dml.insertRequestLog record.clipped).effect t).2.totalTokens k =
      t.totalTokens k + if record.apiKeyId = k then record.storedTokens else 0 := by
  obtain ⟨values, cursor, hbind, he⟩ := insertRequestLog_bindable hb t
  obtain ⟨htotal, -, hkey, -⟩ := RequestLog.bind_eq_ok hbind
  have hkey : values.apiKeyId = record.apiKeyId := hkey
  have hstored : record.storedTokens = values.stored.totalTokens.asInt := by
    change bindJson record.totalTokens = _ at htotal
    rw [RequestLog.storedTokens, htotal]
    rfl
  rw [he, hstored, ← hkey]
  unfold Tables.totalTokens
  rw [Table.rows_insert, List.filter_append, List.map_append, List.sum_append,
    List.filter_singleton]
  by_cases hk : values.apiKeyId = k <;> simp [hk]

/-- Of a record that can be bound, what is stored is either charged or left out. -/
theorem storedTokens_eq {record : RequestLog Json} (hb : record.bindable = true) :
    record.storedTokens = (tokenIncrement record).getD 0 + record.uncounted := by
  obtain ⟨values, hbind⟩ := Except.isOk_iff.mp hb
  have htotal : bindJson record.totalTokens = .ok values.totalTokens :=
    (RequestLog.bind_eq_ok hbind).1
  unfold RequestLog.uncounted
  cases hn : tokenIncrement record with
  | none => exact (zero_add _).symm
  | some n =>
    change record.storedTokens = n + 0
    rw [add_zero, RequestLog.storedTokens, htotal]
    generalize values.totalTokens = x at htotal ⊢
    obtain ⟨hn, -⟩ := Option.filter_eq_some_iff.mp hn
    cases hv : record.totalTokens with
    | bool b =>
      rw [hv] at hn htotal
      cases htotal
      cases hn
      rfl
    | int m =>
      rw [hv] at hn htotal
      obtain ⟨_, -, hx⟩ := Except.bind_eq_ok htotal
      cases hx
      cases hn
      rfl
    | null | float | str | arr | obj =>
      rw [hv] at hn
      cases hn

/-! ## The tasks -/

/-- What the row of a task has added to the total of key `k`. -/
def Task.logged (k : Nat) (t : Task) : Int :=
  match t.purpose with
  | .touch .. => 0
  | .log record _ =>
    if 0 < t.steps ∧ record.bindable = true ∧ record.apiKeyId = k then record.storedTokens else 0

/-- It has begun to write to the log and has not committed. -/
def Task.midway (t : Task) : Bool :=
  match t.purpose with
  | .touch .. => false
  | .log .. => 0 < t.steps && !t.persisted

/-- What the two totals of a key are made of. -/
def Tables.account (t : Tables) (k : Nat) : Option (SqlNumber × Option Int) × Int :=
  (t.quota k, t.totalTokens k)

/-- The key that a task charges is the one of its record; a record without a key has used
nothing. -/
def Purpose.Keyed : Purpose → Prop
  | .touch .. => True
  | .log record keyId => keyId = some record.apiKeyId ∨ keyId = none ∧ record.totalTokens = .null

/-- `touch_last_used` does not log. -/
def Task.Booked (t : Task) : Prop :=
  t.Runs ∧ t.purpose.Keyed ∧ ∀ keyId nowMs, t.purpose = .touch keyId nowMs → t.coro.All Stmt.Quiet

theorem spawn_booked {p : Purpose} (hp : p.Keyed) : (spawn p).Booked := by
  refine ⟨spawn_runs p, hp, ?_⟩
  rintro keyId nowMs rfl
  refine (executeCommit_all ?_ ?_).bind fun _ => .ret
  · rintro d ⟨⟩
    rfl
  · exact fun _ h => nomatch h

/-- After a commit, what is seen is durable. -/
theorem Conn.Alone.durable_of_commit {c : Conn} (h : c.Alone) (hs : s.isCommit = true) :
    (Conn.handler s c).2.durable = (Conn.handler s c).2.view := by
  obtain ⟨-, hview, hdurable, -⟩ := h.step s
  rw [if_pos hs] at hdurable
  cases s with
  | commit => exact hdurable.trans hview.symm
  | query | dml => cases hs

/-- **One statement of a task**: the row of a record adds what is stored of it. Only a log task that
is midway leaves a difference between the file and the connection. -/
theorem Task.Booked.step {t : Task} (h : t.Booked) {conn conn' : Conn} (ha : conn.Alone)
    {coro : Db Unit} (hc : t.coro.advance Conn.handler conn = some (coro, conn')) {k : Nat}
    {used : SqlNumber} {limit : Option Int} (hq : conn.view.quota k = some (used, limit)) :
    (∀ keyId nowMs, t.purpose = .touch keyId nowMs → coro.All Stmt.Quiet) ∧
      conn'.view.totalTokens k + t.logged k =
        conn.view.totalTokens k + Task.logged k { t with coro, steps := t.steps + 1 } ∧
      (conn'.durable = conn'.view ∨
        Task.midway { t with coro, steps := t.steps + 1 } = true ∨
        t.midway = false ∧ conn'.durable = conn.durable ∧
        conn'.view.account k = conn.view.account k) := by
  obtain ⟨hruns, -, hquiet⟩ := h
  obtain ⟨purpose, coro₀, steps⟩ := t
  cases purpose with
  | touch keyId nowMs =>
    obtain ⟨op, hop, hkeeps, rfl, -⟩ :=
      Coro.All.advance (show coro₀.All Stmt.KeepsQuota from hruns) hc
    obtain ⟨op', hop', hquiet, -, hall⟩ := Coro.All.advance (hquiet _ _ rfl) hc
    cases hop.symm.trans hop'
    have hview : (Conn.handler op conn).2.view = (op.effect conn.view).2 := (ha.step op).2.1
    have htotal := hquiet.totalTokens conn.view k
    refine ⟨fun _ _ _ => hall, by rw [hview, htotal]; rfl, ?_⟩
    cases hcommit : op.isCommit with
    | true => exact .inl (ha.durable_of_commit hcommit)
    | false =>
      refine .inr (.inr ⟨rfl, ?_, ?_⟩)
      · exact (ha.step op).2.2.1.trans (if_neg (by rw [hcommit]; exact Bool.false_ne_true))
      · rw [hview, Tables.account, Tables.account, htotal, hkeeps.quota hq, hq]
  | log record keyId =>
    rcases (show Purpose.Runs steps coro₀ (.log record keyId) from hruns) with
      ⟨hfollows, hb⟩ | ⟨e, rfl⟩
    case inr => cases hc
    obtain ⟨op, rest, hdrop, rfl, hnext⟩ := hfollows.advance hc
    have hview : (Conn.handler op conn).2.view = (op.effect conn.view).2 := (ha.step op).2.1
    have hmidway (hrest : rest ≠ []) : Task.midway ⟨.log record keyId, coro, steps + 1⟩ = true := by
      rcases hnext with ⟨-, hat⟩ | ⟨-, e, rfl⟩
      · cases hat with
        | ret => exact absurd rfl hrest
        | await => rfl
      · rfl
    refine ⟨fun _ _ hp => (nomatch hp), ?_⟩
    rw [hview]
    rcases persistStmts_drop hdrop with
      ⟨rfl, rfl, hrest⟩ | ⟨rfl, ⟨k', n, -, rfl⟩, hrest⟩ | ⟨hn, rfl, -⟩
    · refine ⟨?_, .inr (.inl (hmidway hrest))⟩
      cases hb : record.bindable with
      | true =>
        rw [Stmt.effect, insertRequestLog_totalTokens hb]
        simp [Task.logged, hb]
      | false =>
        obtain ⟨e, he⟩ := insertRequestLog_unbindable hb conn.view
        rw [Stmt.effect, he]
        simp [Task.logged, hb]
    · refine ⟨?_, .inr (.inl (hmidway hrest))⟩
      have hquiet : (Stmt.dml (.addTokenUsed n k')).Quiet := by
        rintro d ⟨⟩
        rfl
      rw [hquiet.totalTokens]
      simp [Task.logged]
    · refine ⟨?_, .inl ((ha.durable_of_commit rfl).trans hview)⟩
      simp [Task.logged, hn, Stmt.effect]

/-- Of a task that has committed, what is logged is either charged or left out. -/
theorem Task.Booked.logged_eq {t : Task} (h : t.Booked) (hp : t.persisted = true) (k : Nat) :
    t.logged k = t.charged k + t.purpose.uncounted k := by
  obtain ⟨hruns, hkeyed, -⟩ := h
  obtain ⟨purpose, coro, steps⟩ := t
  cases purpose with
  | touch => simp [Task.logged, Task.charged, Purpose.chargeTo, Purpose.uncounted]
  | log record keyId =>
    rcases (show Purpose.Runs steps coro (.log record keyId) from hruns) with
      ⟨hfollows, hb⟩ | ⟨e, rfl⟩
    case inr => cases hp
    have hdrop : (Purpose.log record keyId).stmts.drop steps = [] := by
      cases coro with
      | ret => exact (Coro.Follows.ended_iff hfollows).mp rfl
      | raise | await => cases hp
    have hlength := List.drop_eq_nil_iff.mp hdrop
    have hsteps : 2 ≤ steps := by
      refine le_trans ?_ hlength
      simp [Purpose.stmts, persistStmts]
    have hpos : 0 < steps := Nat.lt_of_lt_of_le Nat.two_pos hsteps
    have hb := hb hpos
    have hstored := storedTokens_eq hb
    simp only [Task.logged, Task.charged, Purpose.chargeTo, Purpose.uncounted, hpos, hb, hsteps,
      true_and, if_true]
    rcases hkeyed with rfl | ⟨rfl, hnull⟩
    · simp only [Option.some.injEq]
      split
      · exact hstored
      · rfl
    · have hzero : tokenIncrement record = none := by simp [tokenIncrement, hnull, Json.asInt?]
      rw [hzero, Option.getD_none, zero_add] at hstored
      simp [hstored]

/-! ## The requests -/

/-- The record of a request is of the key that has authenticated it. -/
def Pc.Keyed (pc : Pc) : Prop := ∀ f, pc.frame? = some f → f.record.apiKeyId = f.auth.apiKeyId

def Request.Keyed (r : Request) : Prop := ∀ pc, r.phase = .serving pc → pc.Keyed

theorem mem_spawned {effects : List Effect} (ht : t ∈ spawned effects) :
    ∃ record keyId, Effect.persist record keyId ∈ effects ∧ t = spawn (.log record keyId) := by
  obtain ⟨e, he, hsome⟩ := List.mem_filterMap.mp ht
  cases e with
  | release => cases hsome
  | persist record keyId => exact ⟨record, keyId, he, (Option.some.inj hsome).symm⟩

/-- What a request hands over is of its key. -/
def KeyedEffects (effects : List Effect) : Prop :=
  ∀ record keyId, Effect.persist record keyId ∈ effects → (Purpose.log record keyId).Keyed

theorem keyedEffects_nil : KeyedEffects [] := fun _ _ hmem => absurd hmem List.not_mem_nil

theorem keyedEffects_release : KeyedEffects [.release] :=
  fun _ _ hmem => nomatch List.mem_singleton.mp hmem

theorem keyedEffects_finish {f : Admitted} (hf : f.record.apiKeyId = f.auth.apiKeyId) (clk : Clock)
    (a : FinishArgs) {effects : List Effect} (heffects : KeyedEffects effects) :
    KeyedEffects (.persist (finishRecord f clk a) (some f.auth.apiKeyId) :: effects) := by
  intro record keyId hmem
  rcases List.mem_cons.mp hmem with hmem | hmem
  · cases hmem
    exact .inl (congrArg some hf.symm)
  · exact heffects record keyId hmem

/-- **One resumption** keeps the key of the request and logs for that key only. -/
theorem Resumed.keyed (h : Resumed env clk pc ev pc' effects) (hk : pc.Keyed) :
    pc'.Keyed ∧ KeyedEffects effects := by
  have hkeyed : pc'.Keyed := by
    rcases h.frame with hframe | ⟨o, rfl⟩
    · intro f hf
      exact hk f (hframe ▸ hf)
    · exact fun _ hf => nomatch hf
  refine ⟨hkeyed, ?_⟩
  cases h with
  | busy => exact keyedEffects_finish (hk _ rfl) _ _ keyedEffects_nil
  | whole | sendFailed | errorBody | finalized =>
    exact keyedEffects_finish (hk _ rfl) _ _ keyedEffects_release
  | refused | unreadable | sendCancelled | readFailed | closeFailed => exact keyedEffects_release
  | _ => exact keyedEffects_nil

theorem Admission.keyed (h : Admission env req a limiter pc effects limiter') :
    pc.Keyed ∧ KeyedEffects effects := by
  cases h with
  | failed => exact ⟨fun _ hf => (nomatch hf), keyedEffects_nil⟩
  | refused =>
    refine ⟨fun _ hf => (nomatch hf), fun record keyId hmem => ?_⟩
    cases List.mem_singleton.mp hmem
    exact .inr ⟨rfl, rfl⟩
  | admitted hb hraw hl hpay hauth _ _ _ _ _ hrec =>
    refine ⟨?_, keyedEffects_nil⟩
    rintro f ⟨⟩
    rw [hauth, hrec]
    rfl

/-! ## The gateway -/

namespace Gateway

/-- The books of key `k`, whose `token_used` was `m` when the tables were `t₀`. -/
structure Books (cfg : GatewayConfig) (t₀ : Tables) (k : Nat) (m : Int) (limit : Option Int)
    (g : Gateway) : Prop where
  alone : g.conn.Alone
  tasks : ∀ t ∈ g.tasks, t.Booked
  authentic : ∀ r ∈ g.requests, r.Authentic cfg
  keyed : ∀ r ∈ g.requests, r.Keyed
  quota : ∃ used, g.conn.view.quota k = some (used, limit) ∧ used.Covers (m + g.charged k)
  total : g.conn.view.totalTokens k = t₀.totalTokens k + (g.tasks.map (Task.logged k)).sum
  settled : (∀ t ∈ g.tasks, t.midway = false) → g.conn.durable.account k = g.conn.view.account k

/-- A step that runs no statement but queries. -/
theorem Books.quiet {g g' : Gateway} (h : g.Books cfg t₀ k m limit) (new : List Purpose)
    (hnew : ∀ p ∈ new, p.Keyed) (htasks : g'.tasks = g.tasks ++ new.map spawn)
    (hconn : g'.conn = g.conn ∨ ∃ q, g'.conn = (g.conn.step none (.query q)).2)
    (hauth : ∀ r ∈ g'.requests, r.Authentic cfg) (hkeyed : ∀ r ∈ g'.requests, r.Keyed) :
    g'.Books cfg t₀ k m limit := by
  have hsame : g'.conn.Alone ∧ g'.conn.view = g.conn.view ∧ g'.conn.durable = g.conn.durable := by
    rcases hconn with hconn | ⟨q, hconn⟩ <;> rw [hconn]
    · exact ⟨h.alone, rfl, rfl⟩
    · obtain ⟨-, hview, hdurable, halone⟩ := h.alone.step (.query q)
      exact ⟨halone, hview, hdurable⟩
  obtain ⟨halone, hview, hdurable⟩ := hsame
  have hzero {w : Task → Int} (hw : ∀ p, w (spawn p) = 0) :
      (g'.tasks.map w).sum = (g.tasks.map w).sum := by
    rw [htasks, List.map_append, List.sum_append, List.map_map, show w ∘ spawn = fun _ => 0
      from funext hw]
    simp
  have hlogged (p : Purpose) : (spawn p).logged k = 0 := by cases p <;> rfl
  refine ⟨halone, fun t ht => ?_, hauth, hkeyed, ?_, ?_, fun hmid => ?_⟩
  · rw [htasks] at ht
    rcases List.mem_append.mp ht with ht | ht
    · exact h.tasks t ht
    · obtain ⟨p, hp, rfl⟩ := List.mem_map.mp ht
      exact spawn_booked (hnew p hp)
  · unfold charged
    rw [hview, hzero (Task.charged_spawn k)]
    exact h.quota
  · rw [hview, hzero hlogged]
    exact h.total
  · rw [hview, hdurable]
    apply h.settled
    intro t ht
    apply hmid
    rw [htasks]
    exact List.mem_append_left _ ht

/-- What an effect spawns is keyed, and nothing but log tasks. -/
theorem spawned_keyed {effects : List Effect} (h : KeyedEffects effects) :
    ∃ new : List Purpose, spawned effects = new.map spawn ∧ ∀ p ∈ new, p.Keyed := by
  obtain ⟨new, hnew⟩ := spawned_eq effects
  refine ⟨new, hnew, fun p hp => ?_⟩
  obtain ⟨record, keyId, hmem, hspawn⟩ := mem_spawned (hnew ▸ List.mem_map_of_mem hp)
  rw [show p = .log record keyId from congrArg Task.purpose hspawn]
  exact h record keyId hmem

theorem authSpawned_keyed (nowMs : Int) (c : Db AuthContext) :
    ∃ new : List Purpose, authSpawned nowMs c = new.map spawn ∧ ∀ p ∈ new, p.Keyed := by
  cases c with
  | ret auth =>
    exact ⟨[.touch auth.apiKeyId nowMs], rfl, fun p hp => by rw [List.mem_singleton.mp hp]; trivial⟩
  | raise | await => exact ⟨[], rfl, fun _ hp => absurd hp List.not_mem_nil⟩

theorem settleAuth_keyed (r : Request) (nowMs : Int) (c : Db AuthContext) :
    (settleAuth r nowMs c).Keyed := by
  rintro pc hp f hf
  cases c with
  | ret | await => cases hp
  | raise =>
    cases hp
    cases hf

theorem Books.step {g g' : Gateway} (h : g.Books cfg t₀ k m limit)
    (hstep : Gateway.step cfg g l = some g') :
    g'.Books cfg t₀ k m limit := by
  have hserved (i : Nat) (r : Request) (pc : Pc) (effects : List Effect) (took : Nat) :
      ∀ x ∈ g.requests.set i (r.serve pc effects took), x.Authentic cfg := by
    apply forall_mem_set h.authentic i
    intro c nowMs hp
    cases hp
  have hkept {i : Nat} {r : Request} {pc : Pc} {effects : List Effect} {took : Nat}
      (hpc : pc.Keyed) :
      ∀ x ∈ g.requests.set i (r.serve pc effects took), x.Keyed := by
    apply forall_mem_set h.keyed i
    rintro pc' ⟨⟩
    exact hpc
  cases Stepped.of_step hstep with
  | arrive =>
    rename_i req nowMs
    obtain ⟨new, hnew, hkeyed⟩ := authSpawned_keyed nowMs
      (requireAuth cfg.hashKey cfg.keyPrefix (Request.header req) nowMs)
    refine h.quiet new hkeyed (congrArg _ hnew) (.inl rfl) (fun r hr => ?_) fun r hr => ?_
    · rcases List.mem_append.mp hr with hr | hr
      · exact h.authentic r hr
      · rw [List.mem_singleton.mp hr]
        exact arrive_authentic cfg req nowMs
    · rcases List.mem_append.mp hr with hr | hr
      · exact h.keyed r hr
      · rw [List.mem_singleton.mp hr]
        exact settleAuth_keyed _ _ _
  | @auth i r c nowMs c' conn hr hp hc =>
    obtain ⟨new, hnew, hkeyed⟩ := authSpawned_keyed nowMs c'
    have hat := h.authentic r (List.mem_of_getElem? hr) c nowMs hp
    obtain ⟨hq, hat'⟩ := hat.advance h.alone (fun _ _ => trivial) hc
    exact h.quiet new hkeyed (congrArg _ hnew) (.inr hq)
      (forall_mem_set h.authentic i ((settleAuth_saw r hat').authentic cfg))
      (forall_mem_set h.keyed i (settleAuth_keyed r nowMs c'))
  | cancelAuth =>
    exact h.quiet [] (by simp) rfl (.inl rfl) (hserved _ _ _ _ 0) (hkept fun _ hf => nomatch hf)
  | @body i r auth clk pc effects limiter hr hp ha =>
    obtain ⟨hpc, heffects⟩ := ha.keyed
    obtain ⟨new, hnew, hkeyed⟩ := spawned_keyed heffects
    exact h.quiet new hkeyed (congrArg _ hnew) (.inl rfl) (hserved i r pc effects 0) (hkept hpc)
  | @event i r pc clk ev pc' effects hr hp hres =>
    obtain ⟨hpc, heffects⟩ := hres.keyed (h.keyed r (List.mem_of_getElem? hr) pc hp)
    obtain ⟨new, hnew, hkeyed⟩ := spawned_keyed heffects
    exact h.quiet new hkeyed (congrArg _ hnew) (.inl rfl)
      (hserved i r pc' effects ev.takes) (hkept hpc)
  | @task j t coro conn ht hc =>
    obtain ⟨used, hq, hu⟩ := h.quota
    have hmem := List.mem_of_getElem? ht
    have hbooked := h.tasks t hmem
    obtain ⟨halone, hruns, used', n, hq', hu', hn⟩ := hbooked.1.step h.alone hc hq hu
    obtain ⟨hall, htotal, hdurable⟩ := hbooked.step h.alone hc hq
    have hcharged := sum_map_set (Task.charged k) ht { t with coro, steps := t.steps + 1 }
    have hlogged := sum_map_set (Task.logged k) ht { t with coro, steps := t.steps + 1 }
    refine ⟨halone, forall_mem_set h.tasks j ⟨hruns, hbooked.2.1, hall⟩, h.authentic, h.keyed,
      ⟨used', hq', ?_⟩, ?_, fun hmid => ?_⟩
    · convert hu' using 1
      unfold charged
      linarith
    · have := h.total
      dsimp only
      linarith
    · rcases hdurable with hdurable | hmidway | ⟨hnot, hdurable, hview⟩
      · exact congrArg (Tables.account · k) hdurable
      · rw [hmid _ (List.mem_of_getElem?
          (List.getElem?_set_self (List.getElem?_eq_some_iff.mp ht).1))] at hmidway
        cases hmidway
      · dsimp only
        rw [hdurable, hview]
        apply h.settled
        intro t' ht'
        obtain ⟨i, hi⟩ := List.mem_iff_getElem?.mp ht'
        by_cases hij : j = i
        · subst hij
          cases ht.symm.trans hi
          exact hnot
        · exact hmid t' (List.mem_of_getElem? ((List.getElem?_set_ne hij).trans hi))

/-- **The totals differ by what only the column takes for an integer**: once every
`persist_request_log` has committed, what key `k` has used is what has been added to its TOTAL row,
less what has been stored and not charged; or a float above 64 bits. -/
theorem total_accounts (cfg : GatewayConfig)
    (bucketKey : Granularity → Int → Except PyExn Str) (t₀ : Tables) (slots drawn k : Nat)
    (used₀ : SqlNumber) (m : Int) (limit : Option Int) (ls : List Label) (g : Gateway) (conn : Conn)
    (hkey : t₀.quota k = some (used₀, limit)) (hm : used₀.Covers m) (hk : fits64 k = true)
    (hrun : Run (Gateway.step cfg) (Gateway.init { durable := t₀ } slots drawn) ls g)
    (hdone : ∀ t ∈ g.tasks, t.persisted = true)
    (hconn : conn = g.conn ∨ conn = .settled g.conn.durable) :
    ∃ total total₀ used, totalOf bucketKey conn k = some total ∧
    totalOf bucketKey (.settled t₀) k = some total₀ ∧
      conn.view.quota k = some (used, limit) ∧
      used.Covers (m + (total - total₀) - g.uncounted k) := by
  have hinit : (Gateway.init { durable := t₀ } slots drawn).Books cfg t₀ k m limit :=
    ⟨.of_tx_none rfl rfl, (fun _ h => nomatch h), (fun _ h => nomatch h), (fun _ h => nomatch h),
      ⟨used₀, hkey, by simpa [charged, Gateway.init] using hm⟩, (add_zero _).symm, fun _ => rfl⟩
  have hbooks := hrun.invariant (I := Books cfg t₀ k m limit) (fun _ _ _ hi hs => hi.step hs) hinit
  have hmidway : ∀ t ∈ g.tasks, t.midway = false := by
    intro t ht
    have hp := hdone t ht
    unfold Task.midway
    split
    · rfl
    · rw [hp]
      simp
  have haccount : conn.view.account k = g.conn.view.account k := by
    rcases hconn with rfl | rfl
    · rfl
    · exact hbooks.settled hmidway
  obtain ⟨hquota, htotal⟩ := Prod.mk.inj haccount
  obtain ⟨used, hq, hu⟩ := hbooks.quota
  refine ⟨_, _, used, totalOf_eq bucketKey conn hk rfl, totalOf_eq bucketKey (.settled t₀) hk rfl,
    hquota.trans hq, ?_⟩
  have hsum : (g.tasks.map (Task.logged k)).sum = g.charged k + g.uncounted k := by
    unfold charged uncounted
    rw [← List.sum_map_add]
    exact congrArg List.sum (List.map_congr_left fun t ht =>
      (hbooks.tasks t ht).logged_eq (hdone t ht) k)
  convert hu using 1
  have := hbooks.total
  rw [htotal, Conn.view_settled]
  linarith

end Gateway

namespace Sample

/-- Request `i` gets a slot, and an answer that reports these `total_tokens`. -/
def reported (i : Nat) (totalTokens : String) : List Label :=
  acquire i (chat false) ++ [.event i (clockAt 3) (.response
    { status := 200, contentType := none
      content := bytes ("\x7b\"usage\": \x7b\"total_tokens\": " ++ totalTokens ++ "\x7d\x7d") })]

/-- A negative count and a text are stored and not charged. -/
def uncharged : List Label :=
  reported 0 "-5" ++ reported 1 "\"12\"" ++ [.task 1, .task 1, .task 3, .task 3]

/-- Without a granularity there are no buckets. -/
def bucketKey (_ : Granularity) (_ : Int) : Except PyExn Str := .ok []

/-- A key that has used up all of 64 bits. -/
def full : Conn where
  durable := { tables none with
    apiKeys := Table.empty.insert { key none with tokenUsed := .int (2 ^ 63 - 1) } }

end Sample

namespace Gateway

theorem total_accounts_sample :
    ∃ g, Run (Gateway.step Sample.cfg) (Gateway.init Sample.conn 2) Sample.uncharged g ∧
    g.uncounted 1 = 7 ∧
      ∃ total total₀ used, totalOf Sample.bucketKey g.conn 1 = some total ∧
        totalOf Sample.bucketKey (.settled (Sample.tables none)) 1 = some total₀ ∧
        g.conn.view.quota 1 = some (used, none) ∧
        used.Covers (0 + (total - total₀) - g.uncounted 1) := by
  have hrun : (Sample.uncharged.foldlM (Gateway.step Sample.cfg) (Gateway.init Sample.conn 2)).any
      (fun g =>
      g.uncounted 1 = 7 ∧ g.tasks.all (·.persisted)) := by decide +kernel
  obtain ⟨g, h, hp⟩ := Run.exists_of_any hrun
  obtain ⟨huncounted, hdone⟩ := of_decide_eq_true hp
  exact ⟨g, h, huncounted, total_accounts Sample.cfg Sample.bucketKey (Sample.tables none) 2 0 1
    (.int 0) 0 none _ g g.conn (by decide +kernel) ⟨rfl, by decide, by decide⟩
    (by decide) h (by simpa using hdone) (.inl rfl)⟩

/-- A total of 7 of which nothing has been charged; and a charge of 5 that leaves the integers. -/
theorem totals_differ :
    (∃ g, Run (Gateway.step Sample.cfg) (Gateway.init Sample.conn 2) Sample.uncharged g ∧
      (∀ t ∈ g.tasks, t.persisted = true) ∧ totalOf Sample.bucketKey g.conn 1 = some 7 ∧
      g.conn.view.quota 1 = some (.int 0, none)) ∧
    ∃ g, Run (Gateway.step Sample.cfg) (Gateway.init Sample.full 1)
        (Sample.reported 0 "5" ++ [.task 1, .task 1, .task 1]) g ∧
      (∀ t ∈ g.tasks, t.persisted = true) ∧ totalOf Sample.bucketKey g.conn 1 = some 5 ∧
      g.conn.view.quota 1 = some (.real (.fin (2 ^ 63)), none) := by
  have h₁ : (Sample.uncharged.foldlM (Gateway.step Sample.cfg) (Gateway.init Sample.conn 2)).any
      (fun g =>
      g.tasks.all (·.persisted) ∧ totalOf Sample.bucketKey g.conn 1 = some 7 ∧
        g.conn.view.quota 1 = some (.int 0, none)) := by decide +kernel
  have h₂ :
      ((Sample.reported 0 "5" ++ [Label.task 1, .task 1, .task 1]).foldlM (Gateway.step Sample.cfg)
      (Gateway.init Sample.full 1)).any (fun g => g.tasks.all (·.persisted) ∧
        totalOf Sample.bucketKey g.conn 1 = some 5 ∧
        g.conn.view.quota 1 = some (.real (.fin (2 ^ 63)), none)) := by decide +kernel
  obtain ⟨g₁, h₁, hp₁⟩ := Run.exists_of_any h₁
  obtain ⟨hdone₁, htotal₁, hquota₁⟩ := of_decide_eq_true hp₁
  obtain ⟨g₂, h₂, hp₂⟩ := Run.exists_of_any h₂
  obtain ⟨hdone₂, htotal₂, hquota₂⟩ := of_decide_eq_true hp₂
  exact ⟨⟨g₁, h₁, by simpa using hdone₁, htotal₁, hquota₁⟩, g₂, h₂,
    by simpa using hdone₂, htotal₂, hquota₂⟩

end Gateway
end EasyModelGate
