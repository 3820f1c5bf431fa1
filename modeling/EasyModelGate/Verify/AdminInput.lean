import EasyModelGate.Verify.AdminRun
import EasyModelGate.Verify.Summary

/-! # What the Admin API makes of its input

A number from a path, a query or a body is unbounded until something bounded receives it: SQLite
when it is bound, or `datetime` when days are added. Each handler is followed from its parameters to
these. -/

namespace EasyModelGate

/-! ## Query parameters -/

/-- The number is that of a row, or can be bound. -/
def ParamBound (found : Int → Option α) (param : Option Str) : Prop :=
  ∀ raw, param = some raw → ∀ id, raw.toInt? = some id → boundId (found id) id = true

/-- The parameter is left out, or is the number of a row. -/
def ParamNames (found : Int → Option α) (param : Option Str) (id? : Option Int) : Prop :=
  param = none ∧ id? = none ∨
    ∃ raw id, param = some raw ∧ raw.toInt? = some id ∧ (found id).isSome = true ∧ id? = some id

/-- The parameters `user_id` and `key_id`, one after the other, and what comes after them. -/
def FiltersSafe (t : Tables) (req : AdminRequest) (rest : Option Int → Option Int → Prop) : Prop :=
  ParamBound t.userById (req.param "user_id") ∧
    ∀ uid, ParamNames t.userById (req.param "user_id") uid →
    ParamBound t.keyById (req.param "key_id") ∧
    ∀ kid, ParamNames t.keyById (req.param "key_id") kid → rest uid kid

/-- What `existing_user` and `existing_key` have in common. -/
def existing (found : Int → Option α) (name : String) (missing : Int → Exn) :
    Option Str → Except Exn (Option Int)
  | none => .ok none
  | some raw => do
    let id ← Admin.parseQueryInt raw name
    let _ ← lookup (found id) id (missing id)
    return some id

theorem parseQueryInt_error (h : Admin.parseQueryInt raw name = .error e) : e.client = true := by
  unfold Admin.parseQueryInt at h
  split at h <;> cases h
  exact Handling.client_refuse (by decide) ..

theorem parseQueryInt_ok {id : Int} : Admin.parseQueryInt raw name = .ok id ↔
    raw.toInt? = some id := by
  unfold Admin.parseQueryInt
  cases raw.toInt? <;> simp

section
variable {found : Int → Option α} {name : String} {missing : Int → Exn} {param : Option Str}

theorem existing_some {raw : Str} {id : Int} (hid : raw.toInt? = some id) :
    existing found name missing (some raw) = (lookup (found id) id (missing id)).map fun _ =>
      some id := by
  rw [existing, parseQueryInt_ok.mpr hid]
  cases hl : lookup (found id) id (missing id) <;> simp only [hl, bind, Except.bind] <;> rfl

theorem existing_none {raw : Str} (hnone : raw.toInt? = none) :
    ∃ e, existing found name missing (some raw) = .error e ∧ e.client = true := by
  cases hraw : Admin.parseQueryInt raw name with
  | error e =>
    refine ⟨e, ?_, parseQueryInt_error hraw⟩
    rw [existing, hraw]
    rfl
  | ok id => cases hnone.symm.trans (parseQueryInt_ok.mp hraw)

theorem existing_client (hm : ∀ id, (missing id).client = true) :
    (∀ e, existing found name missing param = .error e → e.client = true) ↔
    ParamBound found param := by
  cases param with
  | none => simp [existing, ParamBound]
  | some raw =>
    cases hid : raw.toInt? with
    | none =>
      have herror : ∃ e, existing found name missing (some raw) = .error e ∧ e.client = true :=
        existing_none hid
      obtain ⟨e, he, hclient⟩ := herror
      simp [ParamBound, he, hclient, hid]
    | some id =>
      have hbound : ParamBound found (some raw) ↔ boundId (found id) id = true := by
        simp [ParamBound, hid]
      rw [existing_some hid, hbound, ← lookup_raises (P := (Exn.client · = true)) (hm id)
        (not_client_py _)]
      cases lookup (found id) id (missing id) <;> simp [Except.map]

theorem existing_ok {id? : Option Int} : existing found name missing param = .ok id? ↔
    ParamNames found param id? := by
  cases param with
  | none =>
    have hnone : ParamNames found none id? ↔ id? = none := by simp [ParamNames]
    rw [hnone, existing, Except.ok.injEq]
    exact eq_comm
  | some raw =>
    cases hid : raw.toInt? with
    | none =>
      have herror : ∃ e, existing found name missing (some raw) = .error e ∧ e.client = true :=
        existing_none hid
      obtain ⟨e, he, -⟩ := herror
      rw [he]
      simp [ParamNames, hid]
    | some id =>
      have hsome : ParamNames found (some raw) id? ↔ (found id).isSome = true ∧ id? = some id := by
        simp [ParamNames, hid]
      rw [existing_some hid, hsome]
      cases hfound : found id with
      | none => simp [lookup, Except.map]
      | some a =>
        simp only [lookup, Except.map, Except.ok.injEq, Option.isSome_some, true_and]
        exact eq_comm

end

namespace Db

variable {t : Tables}

theorem run_existing {found : Int → Option α} {name : String} {missing : Int → Exn} {c : Int → Db α}
    (hc : ∀ id, (c id).run Tables.handler t = (lookup (found id) id (missing id), t)) (raw : Str) :
    (lift (Admin.parseQueryInt raw name) >>= fun id => c id >>= fun _ => pure (some id)).run
      Tables.handler t =
      (existing found name missing (some raw), t) := by
  rw [Coro.run_bind, run_lift]
  cases hid : Admin.parseQueryInt raw name with
  | error e =>
    rw [existing, hid]
    rfl
  | ok id =>
    rw [existing_some (parseQueryInt_ok.mp hid)]
    dsimp only
    rw [Coro.run_bind, hc]
    cases lookup (found id) id (missing id) <;> rfl

theorem run_existingUser (raw : Option Str) (t : Tables) :
    (Admin.existingUser raw).run Tables.handler t =
    (existing t.userById "user_id" Admin.userNotFound raw, t) := by
  cases raw with
  | none => rfl
  | some raw =>
    refine run_existing (fun id => ?_) raw
    exact run_lookup_handle (run_getUserById id t) rfl rfl

theorem run_existingKey (raw : Option Str) (t : Tables) :
    (Admin.existingKey raw).run Tables.handler t =
    (existing t.keyById "key_id" Admin.keyNotFound raw, t) := by
  cases raw with
  | none => rfl
  | some raw =>
    refine run_existing (fun id => ?_) raw
    exact run_lookup_handle (run_getKey id t) rfl rfl

theorem raises_filters {f : Option Int → Option Int → Db α} {req : AdminRequest} :
    Raises (Exn.client · = true) t (do
        let uid ← Admin.existingUser (req.param "user_id")
        let kid ← Admin.existingKey (req.param "key_id")
        f uid kid) ↔
      FiltersSafe t req fun uid kid => Raises (Exn.client · = true) t (f uid kid) := by
  unfold Raises FiltersSafe
  rw [Coro.raisesOnly_bind_run (run_existingUser _ t), existing_client userNotFound_client]
  simp only [Coro.raisesOnly_bind_run (run_existingKey _ t),
    existing_client keyNotFound_client, existing_ok]

end Db

/-! ## Usage -/

/-- The parameters of a `WHERE` clause that can be bound. -/
def LogFilter.binds (f : LogFilter) : Bool :=
  f.startMs.all fits64 && f.endMs.all fits64 && f.userId.all fits64 && f.apiKeyId.all fits64 &&
    f.model.all Str.valid &&
    f.statusCode.all fits64 && f.errorType.all Str.valid

theorem isOk_seq {x : Except ε Unit} {y : Except ε α} :
    (x >>= fun _ => y).isOk = (x.isOk && y.isOk) := by
  cases x <;> rfl

theorem isOk_bindInt (n : Option Int) : (bindOption bindInt n).isOk = n.all fits64 := by
  cases n with
  | none => rfl
  | some n => cases hn : fits64 n <;> simp [bindOption, bindInt, hn, Except.isOk, Except.toBool]

theorem isOk_bindText (s : Option Str) : (bindOption bindText s).isOk = s.all Str.valid := by
  cases s with
  | none => rfl
  | some s => cases hs : s.valid <;> simp [bindOption, bindText, hs, Except.isOk, Except.toBool]

theorem LogFilter.isOk_bind (f : LogFilter) : f.bind.isOk = f.binds := by
  simp only [LogFilter.bind, LogFilter.binds, isOk_seq, isOk_bindInt, isOk_bindText, Bool.and_assoc]

/-- The periods that have a name. -/
def knownPeriod (name : Str) : Bool := (periodDefaultGroup.find? (·.1 = name)).isSome

/-- Both times are there, and the first is not the earlier. -/
def TimesSwapped (req : AdminRequest) (range : UsageService.TimeRange) : Prop :=
  ((req.param "from").any (· ≠ []) ∨ (req.param "to").any (· ≠ [])) ∧
    (range.1.any fun s => range.2.1.any fun e => e ≤ s) = true

/-- The period and the times of a usage query: what is done with them goes well. -/
def TimesSafe (cal : Calendar) (clk : Clock) (req : AdminRequest)
    (rest : UsageService.TimeRange → Prop) : Prop :=
  (req.param "period").all knownPeriod = true →
    (∀ e, UsageService.resolveTimeRange cal clk (req.param "period") (req.param "from")
      (req.param "to") = .error e →
      e = .valueError) ∧
    ∀ range, UsageService.resolveTimeRange cal clk (req.param "period") (req.param "from")
      (req.param "to") = .ok range →
      ¬ TimesSwapped req range → rest range

/-- The rows that a usage query selects, and the keys of their buckets. -/
def RowsSafe (cal : Calendar) (t : Tables) (f : SummaryFilter) : Prop :=
  f.conditions.binds = true ∧ ∀ g, f.granularity = some g →
    ∀ row ∈ t.requestLogs.select f.conditions.accepts,
    (cal.bucketKey g row.val.startedAt).isOk = true

theorem isOk_keyed {bucketKey : Granularity → Int → Except PyExn Str} {g : Option Granularity}
    {rows : List (Row LogRow)} : (Analytics.keyed bucketKey g rows).isOk = true ↔
      ∀ g', g = some g' → ∀ row ∈ rows, (bucketKey g' row.val.startedAt).isOk = true := by
  cases g with
  | none => simp [Analytics.keyed, Except.isOk, Except.toBool]
  | some g =>
    simp only [Analytics.keyed, isOk_mapM, Option.some.injEq, forall_eq']
    refine forall₂_congr fun row _ => ?_
    cases bucketKey g row.val.startedAt <;> rfl

namespace Db

variable {t : Tables} {cal : Calendar} {clk : Clock} {req : AdminRequest}

theorem raises_parseTimes {f : UsageService.TimeRange → Db α} :
    Raises (Exn.client · = true) t (lift (AdminUsage.parseTimes cal clk req) >>= f) ↔
      TimesSafe cal clk req fun range => Raises (Exn.client · = true) t (f range) := by
  have hunknown : ((req.param "period").any fun p => (periodDefaultGroup.find? (·.1 = p)).isNone) =
      !(req.param "period").all knownPeriod := by
    cases req.param "period" <;> simp [knownPeriod]
  rw [raises_lift_bind]
  unfold AdminUsage.parseTimes TimesSafe
  simp only [hunknown]
  cases (req.param "period").all knownPeriod with
  | false => simp [Handling.client_refuse]
  | true =>
    cases UsageService.resolveTimeRange cal clk (req.param "period") (req.param "from")
      (req.param "to") with
    | error e =>
      cases e <;> simp [AdminUsage.invalidTimeRange, Handling.client_refuse, not_client_py]
    | ok range =>
      obtain ⟨start, end?, group⟩ := range
      rw [if_neg (by decide)]
      dsimp only
      split
      · rename_i hcond
        have hswapped : TimesSwapped req (start, end?, group) := hcond
        simp [hswapped, AdminUsage.invalidTimeRange, Handling.client_refuse]
      · rename_i hcond
        have hswapped : ¬ TimesSwapped req (start, end?, group) := hcond
        simp [hswapped]

/-- `summary` on the tables: its query, and its loop. -/
theorem run_summarize (f : SummaryFilter) (t : Tables) :
    (UsageService.summarize cal f).run Tables.handler t =
    ((f.conditions.bind.bind fun _ =>
      (Analytics.keyed cal.bucketKey f.granularity (t.requestLogs.select f.conditions.accepts)).map
          fun ps =>
        Analytics.table (Analytics.bucketsOf ps)
          (Analytics.bucketOf ((t.requestLogs.select f.conditions.accepts).map Row.val))).mapError
            Exn.py, t) := by
  unfold UsageService.summarize Analytics.summary
  rw [Coro.run_bind, run_query, Query.exec]
  cases f.conditions.bind with
  | error e => rfl
  | ok =>
    simp only [bind, Except.bind, pure, Except.pure, Except.mapError, Analytics.foldlM_eq]
    cases Analytics.keyed cal.bucketKey f.granularity
      (t.requestLogs.select f.conditions.accepts) <;> rfl

/-- A summary fails when its parameters cannot be bound, or a row has no key. -/
theorem raises_summarize {f : SummaryFilter} {k : List (Str × Analytics.Metrics) → Db α}
    (hk : ∀ buckets total, Raises (Exn.client · = true) t (k (Analytics.table buckets total))) :
    Raises (Exn.client · = true) t (UsageService.summarize cal f >>= k) ↔ RowsSafe cal t f := by
  rw [Raises, Coro.raisesOnly_bind_run (run_summarize f t), mapError_raises not_client_py,
    RowsSafe, ← isOk_keyed, ← LogFilter.isOk_bind]
  cases f.conditions.bind with
  | error e => simp [Except.bind, Except.isOk, Except.toBool, Except.mapError]
  | ok =>
    cases Analytics.keyed cal.bucketKey f.granularity
      (t.requestLogs.select f.conditions.accepts) with
    | error e => simp [Except.bind, Except.map, Except.isOk, Except.toBool, Except.mapError]
    | ok ps =>
      simp only [Except.bind, Except.map, Except.isOk, Except.toBool, Except.mapError,
        Except.ok.injEq, forall_eq']
      simpa using hk _ _

theorem raises_parseUsageParams {k : AdminUsage.UsageParams → Db α} :
    Raises (Exn.client · = true) t (AdminUsage.parseUsageParams cal clk req >>= k) ↔
      TimesSafe cal clk req fun range => FiltersSafe t req fun userId keyId =>
        Raises (Exn.client · = true) t
          (k { startMs := range.1, endMs := range.2.1, defaultGroup := range.2.2, userId, keyId,
               model := req.param "model" }) := by
  unfold AdminUsage.parseUsageParams
  rw [Coro.bind_assoc, raises_parseTimes]
  refine iff_of_eq (congrArg (TimesSafe cal clk req) (funext fun range => propext ?_))
  obtain ⟨startMs, endMs, defaultGroup⟩ := range
  simp only [Coro.bind_assoc]
  exact raises_filters

theorem raises_usageSummary {timezone : Str} :
    Raises (Exn.client · = true) t (AdminUsage.usageSummary cal timezone clk req) ↔
      TimesSafe cal clk req fun range => FiltersSafe t req fun userId keyId =>
        RowsSafe cal t
          { startMs := range.1, endMs := range.2.1, userId, apiKeyId := keyId,
            model := req.param "model" } := by
  unfold AdminUsage.usageSummary
  rw [raises_parseUsageParams]
  refine iff_of_eq (congrArg (TimesSafe cal clk req) (funext fun range => ?_))
  refine congrArg (FiltersSafe t req) (funext fun userId => funext fun keyId => propext ?_)
  refine raises_summarize fun buckets total => ?_
  rw [AdminUsage.totalRow, Analytics.getLast?_table]
  exact .ret

theorem groupBy_error {group? : Option Granularity} (h : AdminUsage.groupBy req group? = .error e) :
    e.client = true := by
  unfold AdminUsage.groupBy at h
  split at h
  · cases h
  · split at h <;> cases h
    exact Handling.client_refuse (by decide) ..

end Db

/-- The granularity of a query: that of the period, or the one that it names. -/
def GroupNames (req : AdminRequest) (group? granularity : Option Granularity) : Prop :=
  match req.param "group_by" with
  | none => granularity = group?
  | some gb => (AdminUsage.groupByChoices.find? (·.1 = gb)).map Prod.snd = some granularity

theorem groupBy_ok {req : AdminRequest} {group? granularity : Option Granularity} :
    AdminUsage.groupBy req group? = .ok granularity ↔ GroupNames req group? granularity := by
  unfold AdminUsage.groupBy GroupNames
  cases req.param "group_by" with
  | none =>
    simp only [Except.ok.injEq]
    exact eq_comm
  | some gb => cases hgb : (AdminUsage.groupByChoices.find? (·.1 = gb)).map Prod.snd <;> simp [hgb]

namespace Db

variable {t : Tables} {cal : Calendar} {clk : Clock} {req : AdminRequest}

theorem raises_usageTimeseries :
    Raises (Exn.client · = true) t (AdminUsage.usageTimeseries cal clk req) ↔
      TimesSafe cal clk req fun range => FiltersSafe t req fun userId keyId =>
        ∀ granularity, GroupNames req range.2.2 granularity →
          RowsSafe cal t
            { startMs := range.1, endMs := range.2.1, userId, apiKeyId := keyId,
              model := req.param "model", granularity } := by
  unfold AdminUsage.usageTimeseries
  rw [raises_parseUsageParams]
  refine iff_of_eq (congrArg (TimesSafe cal clk req) (funext fun range => ?_))
  refine congrArg (FiltersSafe t req) (funext fun userId => funext fun keyId => propext ?_)
  rw [raises_lift_bind, and_iff_right fun e => groupBy_error]
  simp only [groupBy_ok]
  exact forall₂_congr fun granularity _ => raises_summarize fun buckets total => .ret

end Db

/-! ## Requests -/

/-- The limit is left out, or a number that is accepted. -/
def LimitAccepted (param : Option Str) : Prop :=
  ∀ raw, param = some raw → ∃ limit, raw.toInt? = some limit ∧ 1 ≤ limit ∧
    limit ≤ AdminRequests.maxLimit

theorem parseLimit_cases (param : Option Str) :
    LimitAccepted param ∧ (∃ limit, AdminRequests.parseLimit param = .ok limit) ∨
    ¬ LimitAccepted param ∧ ∃ e, AdminRequests.parseLimit param = .error e ∧ e.client = true := by
  cases param with
  | none => exact .inl ⟨nofun, _, rfl⟩
  | some raw =>
    simp only [LimitAccepted, Option.some.injEq, forall_eq', AdminRequests.parseLimit]
    cases hraw : Admin.parseQueryInt raw "limit" with
    | error e =>
      refine .inr ⟨?_, e, rfl, parseQueryInt_error hraw⟩
      rintro ⟨limit, hlimit, -⟩
      rw [parseQueryInt_ok.mpr hlimit] at hraw
      cases hraw
    | ok limit =>
      simp only [parseQueryInt_ok.mp hraw, bind, Except.bind, Option.some.injEq, exists_eq_left']
      by_cases hrange : 1 ≤ limit ∧ limit ≤ AdminRequests.maxLimit
      · exact .inl ⟨hrange, limit, by rw [if_pos hrange]; rfl⟩
      · exact .inr ⟨hrange, _, by rw [if_neg hrange], Handling.client_refuse (by decide) ..⟩

theorem mapM_parseQueryInt_error {param : Option Str}
    (h : param.mapM (Admin.parseQueryInt · name) = .error e) :
    e.client = true := by
  cases param with
  | none => cases h
  | some raw =>
    rw [Option.mapM_some] at h
    cases hraw : Admin.parseQueryInt raw name with
    | error e' =>
      rw [hraw] at h
      cases h
      exact parseQueryInt_error hraw
    | ok n =>
      rw [hraw] at h
      cases h

theorem mapM_parseQueryInt_ok {param : Option Str} {n? : Option Int} :
    param.mapM (Admin.parseQueryInt · name) = .ok n? ↔ param.mapM Str.toInt? = some n? := by
  cases param with
  | none => simp [pure, Except.pure]
  | some raw =>
    rw [Option.mapM_some, Option.mapM_some]
    cases hraw : Admin.parseQueryInt raw name with
    | error e =>
      have hnone : raw.toInt? = none := by
        cases hn : raw.toInt? with
        | none => rfl
        | some n => cases hraw.symm.trans (parseQueryInt_ok.mpr hn)
      simp [hnone]
    | ok n => simp [parseQueryInt_ok.mp hraw]

namespace Db

variable {t : Tables} {req : AdminRequest}

theorem raises_recentRequests {hex : Uuid → Str} :
    Raises (Exn.client · = true) t (AdminRequests.recentRequests hex req) ↔
    (LimitAccepted (req.param "limit") →
      FiltersSafe t req fun userId apiKeyId =>
        ∀ statusCode, (req.param "status_code").mapM Str.toInt? = some statusCode →
        LogFilter.binds
            { errorsOnly := AdminRequests.parseBool (req.param "errors_only"), userId, apiKeyId,
              model := req.param "model", statusCode,
              errorType := req.param "error_type" } = true) := by
  unfold AdminRequests.recentRequests
  rw [raises_lift_bind]
  rcases parseLimit_cases (req.param "limit") with
    ⟨haccepted, limit, hlimit⟩ | ⟨hrefused, e, he, hclient⟩
  · simp only [hlimit, reduceCtorEq, false_implies, implies_true, true_and, Except.ok.injEq,
      forall_eq', haccepted, true_implies]
    rw [raises_filters]
    refine iff_of_eq (congrArg (FiltersSafe t req)
      (funext fun userId => funext fun keyId => propext ?_))
    rw [raises_lift_bind, and_iff_right fun e => mapM_parseQueryInt_error]
    simp only [mapM_parseQueryInt_ok]
    refine forall₂_congr fun statusCode _ => ?_
    rw [Raises, Dao.listRequestLogs, Coro.raisesOnly_bind_run (run_query _ t),
      mapError_raises not_client_py, Query.exec, ← LogFilter.isOk_bind, isOk_seq,
      and_iff_left fun _ _ => .ret]
    exact iff_of_eq (congrArg (· = true) (Bool.and_true _))
  · simp [he, hclient, hrefused]

end Db

/-! ## The handlers -/

/-- The handlers of users, keys, usage and requests. -/
def Protected.onTables : Protected → Bool
  | .me | .overview | .system => false
  | _ => true

/-- The input that a handler can answer, or refuse as the client's error. -/
def Protected.Safe (cfg : AdminConfig) (amb : Ambient) (req : AdminRequest) (t : Tables) :
    Protected → Prop
  | .me | .overview | .system | .listUsers => True
  | .createUser => ∀ payload body, req.body = .ok payload → cfg.userCreate payload = .ok body →
      CreateUserSafe t body amb.clk.nowMs
  | .setUserEnabled _ userId =>
    ∀ id, userId.toInt? = some id → 1 ≤ id → boundId (t.userById id) id = true
  | .listKeys => ∀ row ∈ t.apiKeys.rows, row.val.tokenUsed.toInt.isOk = true
  | .getKey keyId | .setKeyEnabled _ keyId => ∀ id, keyId.toInt? = some id → 1 ≤ id → KeySafe t id
  | .createKey => ∀ payload body, req.body = .ok payload → cfg.keyCreate payload = .ok body →
      CreateKeySafe cfg amb t body
  | .patchLimits keyId =>
    ∀ payload body, req.body = .ok payload → cfg.keyLimits payload = .ok body →
      ∀ id, keyId.toInt? = some id → 1 ≤ id → KeySafe t id ∧ ∀ row, t.keyById id = some row →
        limitsBind ((AdminKeys.limitUpdate body.rpm).apply row.val.rpmLimit)
          ((AdminKeys.limitUpdate body.tokenLimit).apply row.val.tokenLimit) = true
  | .usageSummary =>
    TimesSafe cfg.calendar amb.clk req fun range => FiltersSafe t req fun userId keyId =>
      RowsSafe cfg.calendar t
        { startMs := range.1, endMs := range.2.1, userId, apiKeyId := keyId,
          model := req.param "model" }
  | .usageTimeseries =>
    TimesSafe cfg.calendar amb.clk req fun range => FiltersSafe t req fun userId keyId =>
      ∀ granularity, GroupNames req range.2.2 granularity →
        RowsSafe cfg.calendar t
          { startMs := range.1, endMs := range.2.1, userId, apiKeyId := keyId,
            model := req.param "model", granularity }
  | .recentRequests => LimitAccepted (req.param "limit") → FiltersSafe t req fun userId apiKeyId =>
      ∀ statusCode, (req.param "status_code").mapM Str.toInt? = some statusCode →
        LogFilter.binds
          { errorsOnly := AdminRequests.parseBool (req.param "errors_only"), userId, apiKeyId,
            model := req.param "model", statusCode, errorType := req.param "error_type" } = true

/-- **What an Admin handler makes of its input** is a result or an error of the client's, exactly
when every number of it that no row has can be bound, every text is encodable, every date is between
years 1 and 9999, and what is stored can be shown. -/
theorem Protected.answersOrRefuses_iff (cfg : AdminConfig) (amb : Ambient) (env : AdminEnv)
    (st : AdminState) (hst : st.conn.Alone) (e : Protected) (he : e.onTables = true) :
    (∀ exn, ((e.handler cfg amb env.req).run env.handler st).1 = .error exn → exn.client = true) ↔
      e.Safe cfg amb env.req st.conn.view := by
  change Coro.RaisesOnly env.handler (Exn.client · = true) st _ ↔ _
  cases e with
  | me | overview | system => cases he
  | listUsers =>
    refine (Handling.raises_answer hst _ _).trans (iff_of_true ?_ trivial)
    exact (Coro.raisesOnly_bind_run (Db.run_query .users _)).mpr ⟨fun _ he => (nomatch he),
      fun _ _ => .ret⟩
  | createUser =>
    refine Handling.raises_parsedBody.trans ?_
    exact forall₄_congr fun payload body _ _ =>
      (Handling.raises_created hst _).trans Db.raises_createUser
  | setUserEnabled enabled userId =>
    exact (Handling.raises_answer hst _ _).trans Db.raises_setUserEnabled
  | listKeys => exact (Handling.raises_answer hst _ _).trans Db.raises_listKeys
  | getKey keyId => exact (Handling.raises_answer hst _ _).trans Db.raises_getKey
  | createKey =>
    refine Handling.raises_parsedBody.trans ?_
    exact forall₄_congr fun payload body _ _ =>
      (Handling.raises_created hst _).trans Db.raises_createKey
  | setKeyEnabled enabled keyId => exact (Handling.raises_answer hst _ _).trans Db.raises_setEnabled
  | patchLimits keyId =>
    refine Handling.raises_parsedBody.trans ?_
    exact forall₄_congr fun payload body _ _ =>
      (Handling.raises_answer hst _ _).trans Db.raises_patchLimits
  | usageSummary => exact (Handling.raises_answer hst _ _).trans Db.raises_usageSummary
  | usageTimeseries => exact (Handling.raises_answer hst _ _).trans Db.raises_usageTimeseries
  | recentRequests => exact (Handling.raises_answer hst _ _).trans Db.raises_recentRequests

namespace Sample

/-- `GET /admin/api/keys/…` -/
def getKeyEnv (path : String) (h : str "/admin" <+: str path) : AdminEnv where
  ids := sessionIds
  req := { method := str "GET", path := str path, underAdmin := h }
  now := 0

/-- The largest number that can be bound. -/
def lastKey : AdminEnv := getKeyEnv "/admin/api/keys/9223372036854775807" (by decide)

/-- One more. -/
def nextKey : AdminEnv := getKeyEnv "/admin/api/keys/9223372036854775808" (by decide)

theorem alone_adminConn : adminConn.Alone := .of_tx_none rfl rfl

end Sample

open Sample in
theorem Protected.answersOrRefuses_lastKey :
    ((Protected.getKey (str "9223372036854775807")).handler adminConfig ambient
      lastKey.req).RaisesOnly lastKey.handler
      (Exn.client · = true) { conn := adminConn } := by
  refine (Protected.answersOrRefuses_iff adminConfig ambient lastKey { conn := adminConn }
    alone_adminConn _ rfl).mpr ?_
  intro id hid _
  have hlast : (str "9223372036854775807").toInt? = some 9223372036854775807 := by decide +kernel
  cases hlast.symm.trans hid
  have hnone : adminConn.view.keyById 9223372036854775807 = none := rfl
  exact (keySafe_of_none hnone).mpr (by decide)

open Sample in
/-- The number of a key that does not fit ends in an internal error. -/
theorem Protected.getKey_overflows :
    endpoint nextKey.req = some (.guarded (.getKey (str "9223372036854775808"))) ∧
    ∃ exn, (((Protected.getKey (str "9223372036854775808")).handler adminConfig ambient
      nextKey.req).run nextKey.handler
        { conn := adminConn }).1 = .error exn ∧
      exn.client = false ∧ exn.response?.map Response.statusCode = some 500 := by
  refine ⟨by rfl, .py .overflowError, ?_, rfl, rfl⟩
  rfl

end EasyModelGate
