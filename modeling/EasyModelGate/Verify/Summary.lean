import EasyModelGate.Verify.Analytics

/-! # The table of `analytics.summary`

A bucket is what `_accumulate` has made of the rows with its key, one after the other. What it adds
up it adds up row by row, so that the buckets together hold what the rows hold. -/

namespace EasyModelGate

/-- The metrics that are sums: the three counts and the four token sums. -/
abbrev Additive := ℕ × ℕ × ℕ × ℤ × ℤ × ℤ × ℤ

namespace Analytics

def Bucket.additive (b : Bucket) : Additive :=
  (b.requests, b.successCount, b.errorCount, b.promptTokens, b.completionTokens, b.totalTokens,
    b.cachedTokens)

def Metrics.additive (m : Metrics) : Additive :=
  (m.requests, m.successCount, m.errorCount, m.promptTokens, m.completionTokens, m.totalTokens,
    m.cachedTokens)

@[simp] theorem additive_finalize (b : Bucket) : (finalize b).additive = b.additive := rfl

/-- What one row adds. -/
def rowAdditive (row : LogRow) : Additive :=
  (1, if succeeded row then 1 else 0, if succeeded row then 0 else 1, row.promptTokens.asInt,
    row.completionTokens.asInt, row.totalTokens.asInt, row.cachedTokens.asInt)

theorem additive_accumulate (b : Bucket) (row : LogRow) :
    (accumulate b row).additive = b.additive + rowAdditive row := by
  simp only [accumulate, Bucket.additive, rowAdditive, addTokens_eq, Prod.mk_add_mk, Prod.mk.injEq,
    and_true, true_and]
  cases succeeded row <;> exact ⟨rfl, rfl⟩

/-- The bucket of some rows. -/
def bucketOf (rows : List (LogRow)) : Bucket := rows.foldl accumulate {}

theorem bucketOf_concat (rows : List (LogRow)) (row : LogRow) :
    bucketOf (rows ++ [row]) = accumulate (bucketOf rows) row := List.foldl_append

theorem additive_bucketOf (rows : List (LogRow)) :
    (bucketOf rows).additive = (rows.map rowAdditive).sum := by
  induction rows using List.reverseRecOn with
  | nil => rfl
  | append_singleton rows row ih =>
    rw [bucketOf_concat, additive_accumulate, ih, List.map_append, List.sum_append,
      List.map_singleton, List.sum_singleton]

theorem errorCount_bucketOf (rows : List (LogRow)) :
    (bucketOf rows).errorCount = rows.countP fun row => !succeeded row := by
  induction rows using List.reverseRecOn with
  | nil => rfl
  | append_singleton rows row ih =>
    rw [bucketOf_concat, List.countP_append, ← ih, List.countP_singleton]
    cases hrow : succeeded row <;> simp [accumulate, hrow]

/-- Every row is counted as a success or as an error. -/
theorem success_add_error (rows : List (LogRow)) :
    (bucketOf rows).successCount + (bucketOf rows).errorCount = (bucketOf rows).requests := by
  induction rows using List.reverseRecOn with
  | nil => rfl
  | append_singleton rows row ih =>
    rw [bucketOf_concat]
    cases hrow : succeeded row <;>
      simp only [accumulate, hrow, Bool.false_eq_true, if_true, if_false] <;> omega

/-! ## The loop -/

/-- The rows with the keys of their buckets; without a granularity there are none. -/
def keyed (bucketKey : Granularity → Int → Except PyExn Str) (g : Option Granularity)
    (rows : List (Row LogRow)) : Except PyExn (List (Str × LogRow)) :=
  match g with
  | none => .ok []
  | some g => rows.mapM fun row => do return (← bucketKey g row.val.startedAt, row.val)

/-- The buckets of rows with keys. -/
def bucketsOf (ps : List (Str × LogRow)) : List (Str × Bucket) :=
  ps.foldl (fun buckets p => accumulateAt p.1 p.2 buckets) []

theorem bucketsOf_concat (ps : List (Str × LogRow)) (p : Str × LogRow) :
    bucketsOf (ps ++ [p]) = accumulateAt p.1 p.2 (bucketsOf ps) := List.foldl_append

section
variable (bucketKey : Granularity → Int → Except PyExn Str)

theorem keyed_concat (g : Option Granularity) (rows : List (Row LogRow)) (row : Row LogRow) :
    keyed bucketKey g (rows ++ [row]) = do
      return (← keyed bucketKey g rows) ++ (← keyed bucketKey g [row]) := by
  cases g with
  | none => rfl
  | some g => exact List.mapM_append

/-- **The loop of `summary`**: it fails when the key of a row does. -/
theorem foldlM_eq (f : SummaryFilter) (rows : List (Row LogRow)) :
    rows.foldlM (addRow bucketKey f) ([], {}) =
      (keyed bucketKey f.granularity rows).map fun ps =>
        (bucketsOf ps, bucketOf (rows.map Row.val)) := by
  induction rows using List.reverseRecOn with
  | nil => cases hg : f.granularity <;> rfl
  | append_singleton rows row ih =>
    rw [List.foldlM_append, ih, keyed_concat, List.map_append]
    cases hkeyed : keyed bucketKey f.granularity rows with
    | error e => rfl
    | ok ps =>
      change (addRow bucketKey f (bucketsOf ps, bucketOf (rows.map Row.val)) row >>= pure) = _
      rw [bind_pure]
      cases hg : f.granularity with
      | none =>
        simp only [addRow, hg, keyed]
        exact congrArg Except.ok (Prod.ext (congrArg bucketsOf (List.append_nil ps).symm)
          (bucketOf_concat ..).symm)
      | some g =>
        simp only [addRow, hg, keyed, List.mapM_cons, List.mapM_nil]
        cases bucketKey g row.val.startedAt with
        | error e => rfl
        | ok key =>
          exact congrArg Except.ok (Prod.ext (bucketsOf_concat ps (key, row.val)).symm
            (bucketOf_concat ..).symm)

/-- What `summary` returns on the tables that the connection sees. -/
theorem run_summary_eq {f : SummaryFilter} (conn : Conn) (hbind : f.conditions.bind = .ok ()) :
    ((summary bucketKey f).run Conn.handler conn).1 =
      ((keyed bucketKey f.granularity (conn.view.requestLogs.select f.conditions.accepts)).mapError
        Exn.py).map fun ps =>
        table (bucketsOf ps)
            (bucketOf ((conn.view.requestLogs.select f.conditions.accepts).map Row.val)) := by
  have hquery : Conn.handler (.query (.summary f.conditions)) conn =
      (.ok (conn.view.requestLogs.select f.conditions.accepts), conn.pin) := by
    have hexec : (Query.summary f.conditions).exec conn.view =
        .ok (conn.view.requestLogs.select f.conditions.accepts) := by
      rw [Query.exec, hbind]
      rfl
    rw [Conn.handler, Conn.step_query_ok hexec]
    rfl
  unfold summary Db.query
  rw [Coro.run_bind, Coro.run_perform, hquery]
  dsimp only
  rw [foldlM_eq]
  cases keyed bucketKey f.granularity (conn.view.requestLogs.select f.conditions.accepts) <;> rfl

/-- A summary that is returned was of parameters that can be bound, and of rows that have keys. -/
theorem of_run_summary {f : SummaryFilter} {conn : Conn} {out : List (Str × Metrics)}
    (h : ((summary bucketKey f).run Conn.handler conn).1 = .ok out) :
    f.conditions.bind = .ok () ∧ ∃ ps,
      keyed bucketKey f.granularity (conn.view.requestLogs.select f.conditions.accepts) = .ok ps ∧
      out = table (bucketsOf ps)
        (bucketOf ((conn.view.requestLogs.select f.conditions.accepts).map Row.val)) := by
  cases hbind : f.conditions.bind with
  | error e =>
    have hexec : (Query.summary f.conditions).exec conn.view = .error e := by
      rw [Query.exec, hbind]
      rfl
    unfold summary Db.query at h
    rw [Coro.run_bind, Coro.run_perform, Conn.handler, Conn.step_query_error hexec] at h
    cases h
  | ok u =>
    rw [run_summary_eq bucketKey conn hbind] at h
    cases hkeyed : keyed bucketKey f.granularity
      (conn.view.requestLogs.select f.conditions.accepts) with
    | error e =>
      rw [hkeyed] at h
      cases h
    | ok ps =>
      rw [hkeyed] at h
      exact ⟨rfl, ps, rfl, (Except.ok.inj h).symm⟩

end

theorem getLast?_table (buckets : List (Str × Bucket)) (total : Bucket) :
    (table buckets total).getLast? = some (str "TOTAL", finalize total) := List.getLast?_concat

end Analytics
end EasyModelGate
