import EasyModelGate.Verify.Logging
import EasyModelGate.Verify.Summary

/-! # One notion of failure

`analytics` counts a row as an error for its error type or its status, `list_request_logs` selects
it for its error type alone. The two agree because every call of `finish` that gives no error type
gives a status of success. -/

namespace EasyModelGate

/-! ## The property -/

/-- Without an error type, a status of success. -/
def RequestLog.Classified (record : RequestLog Json) : Prop :=
  record.errorType = none → 200 ≤ record.statusCode ∧ record.statusCode < 400

def LogRow.Classified (row : LogRow) : Prop :=
  row.errorType = none → ∃ status, row.statusCode = some status ∧ 200 ≤ status ∧ status < 400

def Tables.Classified (t : Tables) : Prop := ∀ row ∈ t.requestLogs.rows, row.val.Classified

/-- What `list_request_logs` selects with `errors_only`, whatever its limit. -/
def Tables.errors (t : Tables) (f : LogFilter) : List (Row LogRow) :=
  t.requestLogs.select { f with errorsOnly := true }.accepts

/-- The two views of the errors of a user, a key and a model. -/
structure Conn.OneNotion (bucketKey : Granularity → Int → Except PyExn Str)
    (conn : Conn) : Prop where
  classified : conn.view.Classified
  agree : ∀ userId apiKeyId model granularity out,
    ((Analytics.summary bucketKey { userId, apiKeyId, model, granularity }).run Conn.handler
      conn).1 = .ok out →
    ∃ total, out.getLast? = some (str "TOTAL", total) ∧
      total.successCount + total.errorCount = total.requests ∧
      total.errorCount = (conn.view.errors { userId, apiKeyId, model }).length ∧
      ∀ limit, ∃ items,
        ((Dao.listRequestLogs { errorsOnly := true, userId, apiKeyId, model } limit).run
          Conn.handler conn).1 = .ok items ∧
        items.length = min (max 1 (min limit 200)).toNat total.errorCount

/-! ## Statements -/

/-- A record that it inserts is classified. -/
def Stmt.Classified (s : Stmt) : Prop := ∀ record, s = .dml (.insertRequestLog record) →
    record.Classified

theorem RequestLog.bind_errorType {record : RequestLog Json} (h : record.bind = .ok values) :
    values.errorType = record.errorType := by
  unfold RequestLog.bind at h
  iterate 9 obtain ⟨_, -, h⟩ := Except.bind_eq_ok h
  cases h
  rfl

theorem RequestLog.Classified.stored {record : RequestLog Json} (hr : record.Classified)
    (h : record.bind = .ok values) :
    values.stored.Classified := by
  obtain ⟨-, -, -, hstatus⟩ := RequestLog.bind_eq_ok h
  intro herror
  obtain ⟨hmin, hmax⟩ := hr ((RequestLog.bind_errorType h).symm.trans herror)
  exact ⟨record.statusCode, by rw [← hstatus]; rfl, by exact_mod_cast hmin, by exact_mod_cast hmax⟩

theorem Tables.Classified.run {d : Dml} (ht : t.Classified) (hd : (Stmt.dml d).Classified)
    (h : d.run t = .ok (cursor, t')) : t'.Classified := by
  cases hlog : d.isLog with
  | false =>
    unfold Tables.Classified
    rw [Dml.run_requestLogs hlog h]
    exact ht
  | true =>
    cases d with
    | insertRequestLog record =>
      simp only [Dml.run] at h
      split at h <;> cases h
      rename_i values hbind
      intro row hrow
      rcases List.mem_append.mp hrow with hrow | hrow
      · exact ht row hrow
      · rw [List.mem_singleton.mp hrow]
        exact (hd record rfl).stored hbind
    | _ => cases hlog

/-- What the connection sees, and what is durable. -/
structure Conn.Classified (c : Conn) : Prop where
  view : c.view.Classified
  durable : c.durable.Classified

/-- **One statement.** -/
theorem Conn.Classified.step {c : Conn} (h : c.Classified) {s : Stmt} (hs : s.Classified) :
    (c.step none s).2.Classified := by
  cases s with
  | query q =>
    cases hq : q.exec c.view with
    | error e =>
      rw [step_query_error hq]
      exact h
    | ok r =>
      rw [step_query_ok hq]
      exact ⟨by rw [view_pin]; exact h.view, h.durable⟩
  | dml d =>
    have hbegin : c.begin.Classified := ⟨by rw [view_begin]; exact h.view, h.durable⟩
    rw [step_dml, write]
    split
    · exact hbegin
    split
    · exact hbegin
    split
    · exact ⟨hbegin.view, hbegin.durable⟩
    · rename_i hrun
      exact ⟨hbegin.view.run hs hrun, hbegin.durable⟩
  | commit =>
    rw [step_commit]
    have hcommitted : c.committed.durable.Classified := by
      rcases c with ⟨d, _ | ⟨_ | v, w, st⟩, l⟩
      · exact h.durable
      · cases w <;> exact h.durable
      · cases w
        · exact h.durable
        · exact h.view
    exact ⟨hcommitted, hcommitted⟩

theorem persistRequestLog_classified {record : RequestLog Json} (hr : record.Classified)
    (keyId : Option Int) :
    (persistRequestLog record keyId).All Stmt.Classified := by
  apply Coro.All.bind
  · apply Coro.All.perform
    rintro record' ⟨⟩
    exact hr
  · intro _
    unfold chargeAndCommit
    split
    · apply Coro.All.bind (.perform fun _ h => nomatch h)
      exact fun _ => .perform fun _ h => nomatch h
    · exact .perform fun _ h => nomatch h

/-- `require_auth` only queries. -/
theorem requireAuth_classified (hashKey : Str → Str) (keyPrefix header : Str) (nowMs : Int) :
    (requireAuth hashKey keyPrefix header nowMs).All Stmt.Classified := by
  unfold requireAuth
  split
  · exact .raise
  split
  · exact .raise
  apply Coro.All.bind (.perform fun _ h => nomatch h)
  intro row
  split
  · exact .raise
  unfold Auth.checkRow
  split
  · exact .raise
  split
  · exact .raise
  apply Coro.All.bind (.perform fun _ h => nomatch h)
  intro user
  split
  · exact .raise
  · split
    · exact .raise
    · exact .ret

/-! ## The calls of `finish` -/

def ClassifiedEffects (effects : List Effect) : Prop :=
  ∀ record keyId, Effect.persist record keyId ∈ effects → record.Classified

theorem classifiedEffects_nil : ClassifiedEffects [] := fun _ _ h => absurd h List.not_mem_nil

theorem classifiedEffects_release : ClassifiedEffects [.release] :=
  fun _ _ h => nomatch List.mem_singleton.mp h

theorem ClassifiedEffects.cons {record : RequestLog Json} (hr : record.Classified)
    (keyId : Option Nat) {effects : List Effect} (h : ClassifiedEffects effects) :
    ClassifiedEffects (.persist record keyId :: effects) := by
  intro record' keyId' hmem
  rcases List.mem_cons.mp hmem with hmem | hmem
  · cases hmem
    exact hr
  · exact h record' keyId' hmem

/-- A record with an error type. -/
theorem RequestLog.Classified.of_error {record : RequestLog Json}
    (h : record.errorType.isSome = true) : record.Classified := by
  intro hnone
  rw [hnone] at h
  cases h

theorem sendFailure_errorType (h : sendFailure env e = some (a, err)) :
    a.errorType.isSome = true := by
  cases e <;> cases h <;> rfl

theorem wholeRecord_classified (h : Holding) (clk : Clock) (resp : UpstreamResponse)
    (parsed : Option Json × Option Str) :
    (wholeRecord h clk resp parsed).Classified := by
  intro herror
  cases hok : isSuccess resp.status with
  | false =>
    change (if isSuccess resp.status then none else some (str "upstream_error")) = none at herror
    rw [hok] at herror
    cases herror
  | true =>
    have hstatus := of_decide_eq_true hok
    exact hstatus

theorem streamRecord_classified (g : Gen) (clk : Clock) (errorType : Option Str) (tUpEnd : ℚ) :
    (g.streamRecord clk errorType tUpEnd).Classified := by
  intro _
  have hstatus : (g.streamRecord clk errorType tUpEnd).statusCode = 200 := rfl
  omega

/-- **Every call site of `finish`.** -/
theorem Resumed.classified (h : Resumed env clk pc ev pc' effects) : ClassifiedEffects effects := by
  cases h with
  | busy => exact classifiedEffects_nil.cons (.of_error rfl) _
  | whole => exact classifiedEffects_release.cons (wholeRecord_classified _ _ _ _) _
  | sendFailed _ _ ha =>
    exact classifiedEffects_release.cons (.of_error (sendFailure_errorType ha)) _
  | errorBody => exact classifiedEffects_release.cons (.of_error rfl) _
  | finalized => exact classifiedEffects_release.cons (streamRecord_classified _ _ _ _) _
  | refused | unreadable | sendCancelled | readFailed | closeFailed =>
    exact classifiedEffects_release
  | _ => exact classifiedEffects_nil

/-- The call in `_enforce_limits`. -/
theorem Admission.classified (h : Admission env req a limiter pc effects limiter') :
    ClassifiedEffects effects := by
  cases h with
  | refused => exact classifiedEffects_nil.cons (.of_error rfl) _
  | failed | admitted => exact classifiedEffects_nil

/-! ## The gateway -/

namespace Gateway

/-- What may still be written is classified, like what has been. -/
structure Classified (g : Gateway) : Prop where
  conn : g.conn.Classified
  tasks : ∀ t ∈ g.tasks, t.coro.All Stmt.Classified
  auth : ∀ r ∈ g.requests, ∀ c nowMs, r.phase = .authenticating c nowMs → c.All Stmt.Classified

theorem spawned_classified {effects : List Effect} (h : ClassifiedEffects effects) :
    ∀ t ∈ spawned effects, t.coro.All Stmt.Classified := by
  intro t ht
  obtain ⟨record, keyId, hmem, rfl⟩ := mem_spawned ht
  exact persistRequestLog_classified (h record keyId hmem) _

theorem authSpawned_classified (nowMs : Int) (c : Db AuthContext) :
    ∀ t ∈ authSpawned nowMs c, t.coro.All Stmt.Classified := by
  intro t ht
  cases c with
  | raise | await => exact absurd ht List.not_mem_nil
  | ret auth =>
    rw [List.mem_singleton.mp ht]
    exact (executeCommit_all (fun _ h => nomatch h) fun _ h => nomatch h).bind fun _ => .ret

theorem settleAuth_classified {r : Request} {nowMs : Int} {c : Db AuthContext}
    (hc : c.All Stmt.Classified) :
    ∀ c' nowMs', (settleAuth r nowMs c).phase = .authenticating c' nowMs' →
    c'.All Stmt.Classified := by
  intro c' nowMs' hp
  cases c with
  | ret | raise => cases hp
  | await =>
    cases hp
    exact hc

/-- A request that has been served is not authenticating. -/
theorem Classified.serve {g : Gateway} (h : g.Classified) (i : Nat) (r : Request) (pc : Pc)
    {effects : List Effect} (took : Nat) (heffects : ClassifiedEffects effects) :
    (g.serve i r pc effects took).Classified where
  conn := h.conn
  tasks := List.forall_mem_append.mpr ⟨h.tasks, spawned_classified heffects⟩
  auth := forall_mem_set h.auth i fun _ _ hp => nomatch hp

theorem Classified.step {g g' : Gateway} (h : g.Classified)
    (hstep : Gateway.step cfg g l = some g') : g'.Classified := by
  cases Stepped.of_step hstep with
  | arrive =>
    have hauth := requireAuth_classified cfg.hashKey cfg.keyPrefix
    refine ⟨h.conn, List.forall_mem_append.mpr ⟨h.tasks, authSpawned_classified _ _⟩, ?_⟩
    refine List.forall_mem_append.mpr ⟨h.auth, List.forall_mem_singleton.mpr ?_⟩
    exact settleAuth_classified (hauth ..)
  | auth hr hp hc =>
    obtain ⟨s, -, hs, rfl, hall⟩ := (h.auth _ (List.mem_of_getElem? hr) _ _ hp).advance hc
    refine ⟨h.conn.step hs, List.forall_mem_append.mpr ⟨h.tasks, authSpawned_classified _ _⟩, ?_⟩
    exact forall_mem_set h.auth _ (settleAuth_classified hall)
  | cancelAuth => exact h.serve _ _ _ _ classifiedEffects_nil
  | body hr hp ha =>
    rename_i i r auth clk pc effects limiter
    have hserved := h.serve i r pc 0 ha.classified
    exact ⟨hserved.conn, hserved.tasks, hserved.auth⟩
  | event _ _ hres => exact h.serve _ _ _ _ hres.classified
  | task ht hc =>
    obtain ⟨s, -, hs, rfl, hall⟩ := (h.tasks _ (List.mem_of_getElem? ht)).advance hc
    exact ⟨h.conn.step hs, forall_mem_set h.tasks _ hall, h.auth⟩

end Gateway

/-! ## The two views -/

/-- A filter that accepts no errors only, and the same with errors only. -/
theorem accepts_errorsOnly {f : LogFilter} (hf : f.errorsOnly = false) (row : LogRow) :
    ({ f with errorsOnly := true } : LogFilter).accepts row =
      (row.errorType.isSome && f.accepts row) := by
  obtain ⟨errorsOnly, startMs, endMs, userId, apiKeyId, model, statusCode, errorType⟩ := f
  cases hf
  simp [LogFilter.accepts, Bool.and_assoc]

theorem LogRow.Classified.not_succeeded {row : LogRow} (h : row.Classified) :
    (!Analytics.succeeded row) = row.errorType.isSome := by
  unfold Analytics.succeeded
  cases herror : row.errorType with
  | some e => rfl
  | none =>
    obtain ⟨status, hstatus, hmin, hmax⟩ := h herror
    simp [hstatus, hmin, hmax]

/-- The error count of the rows of a filter. -/
theorem errorCount_eq {t : Tables} (ht : t.Classified) {f : LogFilter} (hf : f.errorsOnly = false) :
    (Analytics.bucketOf ((t.requestLogs.select f.accepts).map Row.val)).errorCount =
      (t.errors f).length := by
  rw [Analytics.errorCount_bucketOf, List.countP_map, Tables.errors, Table.select, Table.select,
    List.countP_filter, ← List.countP_eq_length_filter]
  apply List.countP_congr
  intro row hrow
  rw [accepts_errorsOnly hf, Function.comp_apply, (ht row hrow).not_succeeded]

theorem listRequestLogs_length {conn : Conn} {f : LogFilter} (hbind : f.bind = .ok ())
    (limit : Int) :
    ∃ items, ((Dao.listRequestLogs f limit).run Conn.handler conn).1 = .ok items ∧
      items.length = min (max 1 (min limit 200)).toNat
        (conn.view.requestLogs.select f.accepts).length := by
  have hexec : (Query.requestLogs f limit).exec conn.view =
      .ok (((conn.view.requestLogs.select f.accepts).reverse.take (max 1 (min limit 200)).toNat).map
        conn.view.joined) := by
    rw [Query.exec, hbind]
    rfl
  have hrun : ((Dao.listRequestLogs f limit).run Conn.handler conn).1 =
      .ok (((conn.view.requestLogs.select f.accepts).reverse.take (max 1 (min limit 200)).toNat).map
        conn.view.joined) := by
    unfold Dao.listRequestLogs Db.query
    rw [Coro.run_perform, Conn.handler, Conn.step_query_ok hexec]
    rfl
  exact ⟨_, hrun, by rw [List.length_map, List.length_take, List.length_reverse]⟩

theorem Conn.OneNotion.of_classified (bucketKey : Granularity → Int → Except PyExn Str)
    {conn : Conn} (h : conn.view.Classified) : conn.OneNotion bucketKey where
  classified := h
  agree := by
    intro userId apiKeyId model granularity out hout
    obtain ⟨hbind, ps, -, rfl⟩ := Analytics.of_run_summary bucketKey hout
    refine ⟨_, Analytics.getLast?_table _ _, Analytics.success_add_error _, errorCount_eq h rfl,
      fun limit => ?_⟩
    obtain ⟨items, hitems, hlength⟩ := @listRequestLogs_length conn
      { errorsOnly := true, userId, apiKeyId, model } hbind limit
    refine ⟨items, hitems, hlength.trans ?_⟩
    exact congrArg (min _) (errorCount_eq h (f := { userId, apiKeyId, model }) rfl).symm

/-- **The two views of the errors agree** in every database that the gateway writes. -/
theorem Gateway.one_notion (cfg : GatewayConfig)
    (bucketKey : Granularity → Int → Except PyExn Str) (t₀ : Tables) (slots drawn : Nat)
    (ls : List Label) (g : Gateway) (conn : Conn) (ht₀ : t₀.Classified)
    (hrun : Run (Gateway.step cfg) (Gateway.init { durable := t₀ } slots drawn) ls g)
    (hconn : conn = g.conn ∨ conn = .settled g.conn.durable) : conn.OneNotion bucketKey := by
  have hinit : (Gateway.init { durable := t₀ } slots drawn).Classified :=
    ⟨⟨ht₀, ht₀⟩, (fun _ h => nomatch h), fun _ h => nomatch h⟩
  have hclassified := hrun.invariant (I := Gateway.Classified) (fun _ _ _ hi hs => hi.step hs) hinit
  apply Conn.OneNotion.of_classified
  rcases hconn with rfl | rfl
  · exact hclassified.conn.view
  · exact hclassified.conn.durable

/-- A request that is relayed and logged. -/
theorem Gateway.one_notion_relayed : ∃ g, Run (Gateway.step Sample.cfg) (Gateway.init Sample.conn 1)
      (Sample.relayed ++ Sample.tasks) g ∧
    g.conn.durable.requestLogs.rows ≠ [] ∧ g.conn.OneNotion Sample.bucketKey := by
  have hrun : ((Sample.relayed ++ Sample.tasks).foldlM (Gateway.step Sample.cfg)
        (Gateway.init Sample.conn 1)).any (fun g =>
      !g.conn.durable.requestLogs.rows.isEmpty) := by decide +kernel
  obtain ⟨g, h, hrows⟩ := Run.exists_of_any hrun
  refine ⟨g, h, by simpa using hrows, ?_⟩
  exact one_notion Sample.cfg Sample.bucketKey (Sample.tables none) 1 0 _ g g.conn
    (fun _ h => nomatch h) h (.inl rfl)

end EasyModelGate
