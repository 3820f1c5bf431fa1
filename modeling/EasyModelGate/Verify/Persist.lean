import EasyModelGate.Gateway
import EasyModelGate.Verify.Database

/-! # The statements of a detached task

`persist_request_log` and `touch_last_used` await their statements one after another; what the
tables are like after each follows from which of them have run. -/

namespace EasyModelGate

/-! ## Binding a record -/

/-- The record as `persist_request_log` writes it. -/
def RequestLog.clipped (record : RequestLog Json) : RequestLog Json :=
  { record with errorMessage := clipErrorMessage record.errorMessage }

def RequestLog.bindable (record : RequestLog Json) : Bool := record.clipped.bind.isOk

theorem bindText_eq_ok : bindText s = .ok u ↔ s.valid = true := by
  unfold bindText
  split <;> simp_all

theorem bindOption_text {s : Option Str} : bindOption bindText s = .ok u ↔
    s.all Str.valid = true := by
  cases s with
  | none => simp [bindOption]
  | some s => exact bindText_eq_ok

theorem valid_clipErrorMessage {s : Option Str} (h : s.all Str.valid = true) :
    (clipErrorMessage s).all Str.valid = true := by
  cases s with
  | none => rfl
  | some s =>
    simp only [clipErrorMessage, Option.bind_some]
    split
    · rfl
    · exact Str.valid_take h 500

theorem Except.bind_eq_ok {x : Except ε α} {f : α → Except ε β} (h : (x >>= f) = .ok b) :
    ∃ a, x = .ok a ∧ f a = .ok b := by
  cases x with
  | error e => cases h
  | ok a => exact ⟨a, rfl, h⟩

theorem Except.bind_eq_error {x : Except ε α} {f : α → Except ε β} (h : (x >>= f) = .error e) :
    x = .error e ∨ ∃ a, x = .ok a ∧ f a = .error e := by
  cases x with
  | error =>
    cases h
    exact .inl rfl
  | ok a => exact .inr ⟨a, rfl, h⟩

/-- The token columns of a record, each in the order in which it is bound. -/
def RequestLog.tokens (record : RequestLog τ) : List τ :=
  [record.promptTokens, record.completionTokens, record.totalTokens, record.cachedTokens]

/-- What a record needs to be bound. -/
structure RequestLog.Valid (record : RequestLog Json) : Prop where
  model : record.model.all Str.valid = true
  tokens : ∀ v ∈ record.tokens, (bindJson v).isOk = true
  finishReason : record.finishReason.all Str.valid = true
  clientIp : record.clientIp.all Str.valid = true
  errorType : record.errorType.all Str.valid = true
  errorMessage : record.errorMessage.all Str.valid = true

theorem Except.isOk_iff {x : Except ε α} : x.isOk = true ↔ ∃ a, x = .ok a := by
  cases x <;> simp [Except.isOk, Except.toBool]

theorem RequestLog.Valid.bindable {record : RequestLog Json} (h : record.Valid) :
    record.bindable = true := by
  have htok (v) (hv : v ∈ record.tokens) : ∃ a, bindJson v = .ok a :=
    Except.isOk_iff.mp (h.tokens v hv)
  simp only [RequestLog.tokens, List.forall_mem_cons] at htok
  obtain ⟨⟨p, hp⟩, ⟨c, hc⟩, ⟨t, ht⟩, ⟨ca, hca⟩, -⟩ := htok
  have hmsg := bindOption_text (u := ()) |>.mpr (valid_clipErrorMessage h.errorMessage)
  simp [RequestLog.bindable, RequestLog.bind, RequestLog.clipped, bind,
    bindOption_text (u := ()) |>.mpr h.model, hp, hc, ht, hca,
    bindOption_text (u := ()) |>.mpr h.finishReason, bindOption_text (u := ()) |>.mpr h.clientIp,
    bindOption_text (u := ()) |>.mpr h.errorType, hmsg]
  rfl

/-- Binding looks at every column and changes the token columns only. -/
theorem RequestLog.bind_eq_ok {record : RequestLog Json} (h : record.bind = .ok values) :
    bindJson record.totalTokens = .ok values.totalTokens ∧
      values.requestId = record.requestId ∧ values.apiKeyId = record.apiKeyId ∧
      values.statusCode = record.statusCode := by
  unfold RequestLog.bind at h
  obtain ⟨_, -, h⟩ := Except.bind_eq_ok h
  obtain ⟨_, -, h⟩ := Except.bind_eq_ok h
  obtain ⟨_, -, h⟩ := Except.bind_eq_ok h
  obtain ⟨total, htotal, h⟩ := Except.bind_eq_ok h
  obtain ⟨_, -, h⟩ := Except.bind_eq_ok h
  obtain ⟨_, -, h⟩ := Except.bind_eq_ok h
  obtain ⟨_, -, h⟩ := Except.bind_eq_ok h
  obtain ⟨_, -, h⟩ := Except.bind_eq_ok h
  obtain ⟨_, -, h⟩ := Except.bind_eq_ok h
  cases h
  exact ⟨htotal, rfl, rfl, rfl⟩

/-! ## The statements -/

/-- What `persist_request_log` charges, and to which key. -/
def charge (record : RequestLog Json) (keyId : Option Int) : Option (Int × Int) :=
  keyId.bind fun keyId => (tokenIncrement record).map (keyId, ·)

def persistStmts (record : RequestLog Json) (keyId : Option Int) : List Stmt :=
  .dml (.insertRequestLog record.clipped) ::
    ((charge record keyId).map fun (k, n) => Stmt.dml (.addTokenUsed n k)).toList ++ [.commit]

theorem chargeAndCommit_follows (record : RequestLog Json) (keyId : Option Int) :
    (chargeAndCommit record keyId).Follows
      (((charge record keyId).map fun (k, n) => Stmt.dml (.addTokenUsed n k)).toList ++
        [.commit]) := by
  unfold chargeAndCommit charge
  cases keyId with
  | none => exact .perform _
  | some keyId =>
    cases tokenIncrement record with
    | none => exact .perform _
    | some n => exact (Coro.Follows.perform _).bind fun _ => .perform _

theorem persistRequestLog_follows (record : RequestLog Json) (keyId : Option Int) :
    (persistRequestLog record keyId).Follows (persistStmts record keyId) :=
  (Coro.Follows.perform _).bind fun _ => chargeAndCommit_follows record keyId

/-- The statements of `persist_request_log`: the row, the charge if there is one, the commit. -/
theorem persistStmts_drop (h : (persistStmts record keyId).drop n = s :: rest) :
    n = 0 ∧ s = .dml (.insertRequestLog record.clipped) ∧ rest ≠ [] ∨
      n = 1 ∧ (∃ k m, charge record keyId = some (k, m) ∧ s = .dml (.addTokenUsed m k)) ∧
        rest ≠ [] ∨
      0 < n ∧ s = .commit ∧ rest = [] := by
  unfold persistStmts at h
  cases n with
  | zero =>
    cases h
    exact .inl ⟨rfl, rfl, by simp⟩
  | succ n =>
    rw [List.cons_append, List.drop_succ_cons] at h
    cases hc : charge record keyId with
    | none =>
      rw [hc] at h
      cases n with
      | zero =>
        cases h
        exact .inr (.inr ⟨Nat.succ_pos _, rfl, rfl⟩)
      | succ n => simp at h
    | some p =>
      rw [hc] at h
      rcases n with _ | _ | n
      · cases h
        exact .inr (.inl ⟨rfl, ⟨_, _, rfl, rfl⟩, by simp⟩)
      · cases h
        exact .inr (.inr ⟨Nat.succ_pos _, rfl, rfl⟩)
      · simp at h

theorem executeCommit_follows (d : Dml) : (Db.executeCommit d).Follows [.dml d, .commit] :=
  (Coro.Follows.perform _).bind fun _ => (Coro.Follows.perform _).bind fun _ => .ret

theorem executeCommit_all {P : Stmt → Prop} (hd : P (.dml d)) (hcommit : P .commit) :
    (Db.executeCommit d).All P :=
  (Coro.All.perform hd).bind fun _ => (Coro.All.perform hcommit).bind fun _ => .ret

namespace Purpose

def stmts : Purpose → List Stmt
  | .touch keyId nowMs => [.dml (.touchLastUsed keyId nowMs), .commit]
  | .log record keyId => persistStmts record (keyId.map fun (id : Nat) => (id : Int))

end Purpose

/-! ## What they do to the tables -/

/-- The row of a record is of the record's key. -/
@[simp] theorem RequestLog.stored_apiKeyId_eq (values : RequestLog SqlValue) (k : Nat) :
    values.stored.apiKeyId = some (k : Int) ↔ values.apiKeyId = k := by
  simp [RequestLog.stored]

/-- How many rows of the log have a request id and a status that satisfy `p`. -/
def Tables.logged (t : Tables) (p : Uuid → Option Int → Bool) : Nat :=
  t.requestLogs.rows.countP fun row => p row.val.requestId row.val.statusCode

theorem insertRequestLog_unbindable {record : RequestLog Json} (h : record.bindable = false)
    (t : Tables) : ∃ e, (Dml.insertRequestLog record.clipped).effect t = (.error e, t) := by
  cases hb : record.clipped.bind with
  | ok values => simp [RequestLog.bindable, hb, Except.isOk, Except.toBool] at h
  | error e => exact ⟨e, by simp [Dml.effect, Dml.bind, hb, Except.map]⟩

/-- The new row of a record. -/
theorem insertRequestLog_bindable {record : RequestLog Json} (h : record.bindable = true)
    (t : Tables) :
    ∃ values cursor, record.clipped.bind = .ok values ∧
      (Dml.insertRequestLog record.clipped).effect t =
        (.ok cursor, { t with requestLogs := t.requestLogs.insert values.stored }) := by
  obtain ⟨values, hb⟩ := Except.isOk_iff.mp h
  exact ⟨values, { lastrowid := t.requestLogs.seq + 1, rowcount := 1 }, hb,
    by simp [Dml.effect, Dml.bind, Dml.run, hb, Except.map]⟩

theorem insertRequestLog_logged {record : RequestLog Json} (h : record.bindable = true) (t : Tables)
    (p : Uuid → Option Int → Bool) :
    ((Dml.insertRequestLog record.clipped).effect t).2.logged p =
      t.logged p + (p record.requestId (some record.statusCode)).toNat := by
  obtain ⟨values, cursor, hb, he⟩ := insertRequestLog_bindable h t
  obtain ⟨-, hid, -, hstatus⟩ := RequestLog.bind_eq_ok hb
  have hid : values.requestId = record.requestId := hid
  have hstatus : values.statusCode = record.statusCode := hstatus
  rw [he]
  unfold Tables.logged
  rw [Table.rows_insert, List.countP_append, List.countP_singleton]
  simp only [RequestLog.stored, hid, hstatus]
  cases p record.requestId (some record.statusCode) <;> rfl

/-- A statement that writes nothing to the log. -/
def Stmt.Quiet (s : Stmt) : Prop := ∀ d, s = .dml d → d.isLog = false

theorem Stmt.effect_logged (s : Stmt) (hs : s.Quiet) (t : Tables)
    (p : Uuid → Option Int → Bool) : (s.effect t).2.logged p = t.logged p := by
  cases s with
  | query | commit => rfl
  | dml d =>
    unfold Tables.logged
    rw [Stmt.effect, Dml.effect_requestLogs (hs d rfl) t]

/-- An integer that a record was stored with can be charged. -/
theorem fits64_of_charge {record : RequestLog Json} (hb : record.bindable = true)
    (hc : charge record keyId = some (k, n)) : fits64 n = true := by
  obtain ⟨values, hb⟩ := Except.isOk_iff.mp hb
  have htotal := (RequestLog.bind_eq_ok hb).1
  obtain ⟨k', -, hn⟩ := Option.bind_eq_some_iff.mp hc
  obtain ⟨n', hn, ⟨⟩⟩ := Option.map_eq_some_iff.mp hn
  obtain ⟨hn, -⟩ := Option.filter_eq_some_iff.mp hn
  simp only [RequestLog.clipped] at htotal
  cases hv : record.totalTokens with
  | bool b =>
    rw [hv] at hn
    cases hn
    cases b <;> rfl
  | int m =>
    rw [hv] at hn htotal
    cases hn
    obtain ⟨_, hbind, -⟩ := Except.bind_eq_ok htotal
    unfold bindInt at hbind
    split at hbind
    · assumption
    · cases hbind
  | _ =>
    rw [hv] at hn
    cases hn

/-- Charging a key that exists. -/
theorem addTokenUsed_effect {t : Tables} {k : Nat} (hk : (t.apiKeys.get? k).isSome)
    (hn : fits64 n = true) :
    ∃ cursor t', (Dml.addTokenUsed n k).effect t = (.ok cursor, t') ∧
      t'.requestLogs = t.requestLogs ∧
      ∀ id, t'.tokenUsed id = if id = k then (t.tokenUsed id).map (·.addInt n)
        else t.tokenUsed id := by
  have hrun : (Dml.addTokenUsed n k).effect t = (.ok (Dml.updateKey t k fun key =>
      { key with tokenUsed := key.tokenUsed.addInt n }).1, (Dml.updateKey t k fun key =>
      { key with tokenUsed := key.tokenUsed.addInt n }).2) := by
    simp [Dml.effect, Dml.bind, Dml.run, bindInt, hn, bindId, hk, bind, Except.bind]
  refine ⟨_, _, hrun, ?_, fun id => ?_⟩
  · rw [Dml.updateKey_eq]
  · rw [Dml.updateKey_eq]
    simp only [Tables.tokenUsed, Table.get?_update_id]
    split
    · simp only [Option.map_map]
      rfl
    · rfl

end EasyModelGate
