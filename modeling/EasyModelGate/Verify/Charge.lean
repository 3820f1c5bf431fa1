import Mathlib.Tactic.Linarith
import EasyModelGate.Verify.Gateway
import EasyModelGate.Verify.Persist
import EasyModelGate.Writers

/-! # What is logged is charged

`persist_request_log` inserts the row and charges the key in two statements, and any writer's
commit makes durable what is pending on the connection. The books balance on the connection up to
the charges that are still owed (`Writers.ChargeInv`); they balance in the file as long as nobody
commits while a charge is owed. -/

namespace EasyModelGate

/-! ## The property -/

/-- `x = y + n` -/
def SqlNumber.IsSum (x y : SqlNumber) (n : Int) : Prop :=
  n = 0 ∧ x = y ∨ ∃ m, y = .int m ∧ x = .int (m + n)

/-- The value of a positive integer, and 0 for anything else. -/
def SqlValue.positive : SqlValue → Int
  | .int n => max n 0
  | _ => 0

namespace Tables

/-- `token_used` of a key; what is not there has used nothing. -/
def used (t : Tables) (k : Nat) : SqlNumber := (t.tokenUsed k).getD (.int 0)

def billedRow (k : Nat) (row : Row LogRow) : Int :=
  if row.val.apiKeyId = some (k : Int) then row.val.totalTokens.positive else 0

/-- The positive integer `total_tokens` of a key, after the first `n₀` rows. -/
def billed (t : Tables) (n₀ k : Nat) : Int := ((t.requestLogs.rows.drop n₀).map (billedRow k)).sum

/-- Every key has been charged what has been logged for it since `t₀`. -/
def Balanced (t₀ t : Tables) : Prop :=
  ∀ k, (t.used k).IsSum (t₀.used k) (t.billed t₀.requestLogs.rows.length k)

end Tables

/-- `persist_request_log` as it is called: for the key of an authenticated request, or without a
key for a request that was refused. -/
def WriteOp.called (t : Tables) : WriteOp → Bool
  | .persist record (some k) => record.apiKeyId = k && (t.apiKeys.get? k).isSome
  | .persist record none =>
    match record.totalTokens with
    | .null => true
    | _ => false
  | _ => true

/-- A `total_tokens` of which as much is charged as is logged: SQLite stores some floats and texts
as integers, which Python does not take for integers. -/
def countedAsStored (v : Json) : Bool :=
  v.asInt?.isSome ||
    match bindJson v with
    | .ok x => (integerAffinity x).positive = 0
    | .error _ => true

/-- The charge that a writer still owes: it has inserted its row, and not charged the key. -/
def Writer.owes (w : Writer) : Option (Int × Int) :=
  match w.op with
  | .persist record keyId =>
    if w.steps = 1 then charge record (keyId.map fun (id : Nat) => (id : Int)) else none
  | _ => none

namespace Writers

/-- The statement that a step runs. -/
def next? (g : Writers) : Label → Option Stmt
  | .start _ => none
  | .statement j => (g.writers[j]?).bind (·.coro.next?)

/-- The statement succeeds, and `persist_request_log` is called as it is. -/
def succeeds (g : Writers) : Label → Bool
  | .start op => op.called g.conn.view
  | .statement j =>
    match g.next? (.statement j) with
    | some s => (g.conn.step none s).1.isOk
    | none => true

/-- Nobody commits while a charge is owed, and every charge is what was logged. -/
def balances (g : Writers) (l : Label) : Bool :=
  match g.next? l with
  | some .commit => g.writers.all (·.owes.isNone)
  | some (.dml (.insertRequestLog record)) => countedAsStored record.totalTokens
  | some (.dml (.addTokenUsed n k)) =>
    match g.conn.view.used k.toNat with
    | .int m => fits64 (m + n)
    | .real _ => false
  | _ => true

end Writers

/-! ## What a statement bills and charges -/

/-- A statement that neither logs nor charges. -/
def Stmt.Plain (s : Stmt) : Prop := ∀ d, s = .dml d → d.isLog = false ∧ d.isCharge = false

namespace Tables

theorem used_eq {t t' : Tables} (h : t'.tokenUsed k = t.tokenUsed k ∨
    t.tokenUsed k = none ∧ t'.tokenUsed k = some (.int 0)) : t'.used k = t.used k := by
  unfold used
  rcases h with h | ⟨h, h'⟩
  · rw [h]
  · rw [h, h']
    rfl

theorem billed_eq {t t' : Tables} (h : t'.requestLogs = t.requestLogs) (n₀ k : Nat) :
    t'.billed n₀ k = t.billed n₀ k := by
  unfold billed
  rw [h]

end Tables

theorem Stmt.Plain.used {s : Stmt} (hs : s.Plain) (t : Tables) (k : Nat) :
    (s.effect t).2.used k = t.used k := by
  cases s with
  | query | commit => rfl
  | dml d => exact Tables.used_eq (Dml.effect_tokenUsed (hs d rfl).2 t k)

theorem Stmt.Plain.billed {s : Stmt} (hs : s.Plain) (t : Tables) (n₀ k : Nat) :
    (s.effect t).2.billed n₀ k = t.billed n₀ k := by
  cases s with
  | query | commit => rfl
  | dml d => exact Tables.billed_eq (Dml.effect_requestLogs (hs d rfl).1 t) n₀ k

/-- What a record adds to the bill of a key. -/
def billedRecord (record : RequestLog Json) (k : Nat) : Int :=
  if record.apiKeyId = k then (tokenIncrement record).getD 0 else 0

theorem positive_of_countedAsStored {record : RequestLog Json}
    (hb : bindJson record.totalTokens = .ok x) (hc : countedAsStored record.totalTokens = true) :
    (integerAffinity x).positive = (tokenIncrement record).getD 0 := by
  unfold tokenIncrement
  unfold countedAsStored at hc
  cases hv : record.totalTokens with
  | bool b =>
    rw [hv] at hb
    cases hb
    cases b <;> rfl
  | int n =>
    rw [hv] at hb
    obtain ⟨_, -, hx⟩ := Except.bind_eq_ok hb
    cases hx
    by_cases hn : 0 < n
    · simp [integerAffinity, SqlValue.positive, Json.asInt?, Option.filter, hn, le_of_lt hn]
    · simp [integerAffinity, SqlValue.positive, Json.asInt?, Option.filter, hn, not_lt.mp hn]
  | null | float | str | arr | obj =>
    rw [hv] at hb hc
    rw [hb] at hc
    simpa [Json.asInt?] using hc

theorem insertRequestLog_used (record : RequestLog Json) (t : Tables) (k : Nat) :
    ((Dml.insertRequestLog record).effect t).2.used k = t.used k :=
  Tables.used_eq (Dml.effect_tokenUsed rfl t k)

theorem Tables.billedRow_stored (k id : Nat) (values : RequestLog SqlValue) :
    Tables.billedRow k ⟨id, values.stored⟩ =
    if values.apiKeyId = k then (integerAffinity values.totalTokens).positive else 0 := by
  simp only [Tables.billedRow, RequestLog.stored_apiKeyId_eq]
  rfl

theorem insertRequestLog_billed {record : RequestLog Json} (hb : record.bindable = true)
    (hc : countedAsStored record.totalTokens = true) {t : Tables}
    (hn : n₀ ≤ t.requestLogs.rows.length) (k : Nat) :
    ((Dml.insertRequestLog record.clipped).effect t).2.billed n₀ k =
      t.billed n₀ k + billedRecord record k := by
  obtain ⟨values, cursor, hbind, he⟩ := insertRequestLog_bindable hb t
  obtain ⟨htotal, -, hkey, -⟩ := RequestLog.bind_eq_ok hbind
  have hkey : values.apiKeyId = record.apiKeyId := hkey
  rw [he]
  unfold Tables.billed
  rw [Table.rows_insert, List.drop_append_of_le_length hn, List.map_append, List.sum_append]
  simp only [List.map_cons, List.map_nil, List.sum_cons, List.sum_nil, add_zero,
    Tables.billedRow_stored, hkey, billedRecord, positive_of_countedAsStored htotal hc]
  rfl

/-- A charge that neither overflows nor meets a float. -/
theorem addTokenUsed_used {t : Tables} {k : Nat} (hk : (t.apiKeys.get? k).isSome = true)
    (hn : fits64 n = true) (hm : t.used k = .int m) (hfits : fits64 (m + n) = true) (id : Nat) :
    ((Dml.addTokenUsed n k).effect t).2.used id = if id = k then .int (m + n) else t.used id := by
  obtain ⟨cursor, t', he, -, hused⟩ := addTokenUsed_effect hk hn
  rw [he]
  unfold Tables.used at hm ⊢
  rw [hused id]
  split
  · subst id
    obtain ⟨row, hrow⟩ := Option.isSome_iff_exists.mp hk
    have hsome : t.tokenUsed k = some row.val.tokenUsed := by
      unfold Tables.tokenUsed
      rw [hrow]
      rfl
    rw [hsome] at hm ⊢
    simp only [Option.getD_some] at hm
    simp [hm, SqlNumber.addInt, hfits]
  · rfl

/-! ## The invariant -/

namespace WriteOp

/-- A writer at one of its statements: `persist_request_log` follows its script, the others neither
log nor charge. -/
def At (steps : Nat) (c : Db Unit) : WriteOp → Prop
  | .persist record keyId =>
    c.Follows ((persistStmts record (keyId.map fun (id : Nat) => (id : Int))).drop steps)
  | _ => c.All Stmt.Plain

theorem plain_dml {d : Dml} (hlog : d.isLog = false) (hcharge : d.isCharge = false) :
    (Stmt.dml d).Plain := by
  rintro d' ⟨⟩
  exact ⟨hlog, hcharge⟩

theorem plain_query (q : Query) : (Stmt.query q).Plain := fun _ h => nomatch h

theorem plain_commit : Stmt.commit.Plain := fun _ h => nomatch h

theorem daoCreateUser_all (username : Str) (displayName note : Option Str) (nowMs : Int) :
    (Dao.createUser username displayName note nowMs).All Stmt.Plain :=
  (executeCommit_all (plain_dml rfl rfl) plain_commit).bind fun _ => .ret

theorem createUser_all (username : Str) (displayName note : Option Str) (nowMs : Int) :
    (UserService.createUser username displayName note nowMs).All Stmt.Plain := by
  apply Coro.All.bind (.perform (plain_query _))
  intro user
  split
  · exact .raise
  · apply Coro.All.handle (daoCreateUser_all ..)
    intro e
    split <;> exact .raise

theorem at_zero (op : WriteOp) : op.At 0 op.coro := by
  cases op with
  | persist record keyId => exact persistRequestLog_follows _ _
  | daoCreateUser => exact (daoCreateUser_all ..).bind fun _ => .ret
  | createUser => exact (createUser_all ..).bind fun _ => .ret
  | touchLastUsed | setSetting =>
    exact (executeCommit_all (plain_dml rfl rfl) plain_commit).bind fun _ => .ret
  | _ =>
    exact ((executeCommit_all (plain_dml rfl rfl) plain_commit).bind fun _ => .ret).bind fun _ =>
      .ret

/-- It is called as it is, in whatever state it is now. -/
def Called (t : Tables) (op : WriteOp) : Prop := op.called t = true

theorem Called.mono (hg : Tables.Grown t t') {op : WriteOp} (h : op.Called t) : op.Called t' := by
  cases op with
  | persist record keyId =>
    cases keyId with
    | none => exact h
    | some k =>
      simp only [Called, called, Bool.and_eq_true] at h ⊢
      exact ⟨h.1, hg.keys k h.2⟩
  | _ => rfl

/-- What a call charges is what its record adds to the bill of the key. -/
theorem Called.charge {record : RequestLog Json} {keyId : Option Nat}
    (h : (WriteOp.persist record keyId).Called t) :
    (∃ k n, keyId = some k ∧ record.apiKeyId = k ∧ (t.apiKeys.get? k).isSome = true ∧
      tokenIncrement record = some n ∧
      EasyModelGate.charge record (keyId.map fun (id : Nat) => (id : Int)) = some ((k : Int), n)) ∨
    (tokenIncrement record = none ∧
      EasyModelGate.charge record (keyId.map fun (id : Nat) => (id : Int)) = none) := by
  cases keyId with
  | none =>
    have hnull : record.totalTokens = .null := by
      simp only [Called, called] at h
      split at h
      · assumption
      · cases h
    refine .inr ⟨?_, rfl⟩
    simp [tokenIncrement, hnull, Json.asInt?]
  | some k =>
    simp only [Called, called, Bool.and_eq_true, decide_eq_true_eq] at h
    cases hn : tokenIncrement record with
    | none => exact .inr ⟨rfl, by simp [EasyModelGate.charge, hn]⟩
    | some n => exact .inl ⟨k, n, rfl, h.1, h.2, rfl, by simp [EasyModelGate.charge, hn]⟩

end WriteOp

structure Writer.Sound (t : Tables) (w : Writer) : Prop where
  called : w.op.Called t
  script : w.op.At w.steps w.coro

/-- What a writer still owes to a key. -/
def Writer.owed (k : Nat) (w : Writer) : Int :=
  match w.owes with
  | some (k', n) => if k' = k then n else 0
  | none => 0

/-- The books balance on the connection up to what is owed, and they balance in the file. -/
structure Writers.ChargeInv (t₀ : Tables) (g : Writers) : Prop where
  alone : g.conn.Alone
  sound : ∀ w ∈ g.writers, w.Sound g.conn.view
  longer : t₀.requestLogs.rows.length ≤ g.conn.view.requestLogs.rows.length
  view : ∀ k, (g.conn.view.used k).IsSum (t₀.used k)
    (g.conn.view.billed t₀.requestLogs.rows.length k - (g.writers.map (Writer.owed k)).sum)
  durable : t₀.Balanced g.conn.durable

theorem SqlNumber.IsSum.add {x y : SqlNumber} (h : x.IsSum y a) (hx : x = .int m) (n : Int) :
    (SqlNumber.int (m + n)).IsSum y (a + n) := by
  subst hx
  rcases h with ⟨rfl, rfl⟩ | ⟨m', rfl, h⟩
  · exact .inr ⟨m, rfl, by rw [zero_add]⟩
  · cases h
    exact .inr ⟨m', rfl, by rw [add_assoc]⟩

namespace Writers

/-- One statement of a writer: it leaves what is used, and bills what it leaves owing; or it charges
what was owed. -/
theorem ChargeInv.move {g : Writers} (h : g.ChargeInv t₀) {s : Stmt} {w w' : Writer}
    (hj : g.writers[j]? = some w) (hop : w'.op = w.op) (hat : w'.op.At w'.steps w'.coro)
    (hcommit : s.isCommit = true → ∀ w ∈ g.writers, w.owes = none)
    (hview : ∀ k,
      (s.effect g.conn.view).2.used k = g.conn.view.used k ∧
        (s.effect g.conn.view).2.billed t₀.requestLogs.rows.length k + w.owed k =
          g.conn.view.billed t₀.requestLogs.rows.length k + w'.owed k ∨
      ∃ m n, g.conn.view.used k = .int m ∧ (s.effect g.conn.view).2.used k = .int (m + n) ∧
        (s.effect g.conn.view).2.billed t₀.requestLogs.rows.length k =
          g.conn.view.billed t₀.requestLogs.rows.length k ∧ w.owed k = w'.owed k + n) :
    ChargeInv t₀ { conn := (g.conn.step none s).2, writers := g.writers.set j w' } := by
  obtain ⟨-, hv, hdurable, halone⟩ := h.alone.step s
  have hgrown := s.effect_grown g.conn.view
  rw [← hv] at hgrown hview
  have hsound : ∀ w ∈ g.writers, w.Sound (g.conn.step none s).2.view := fun w hw =>
    ⟨(h.sound w hw).called.mono hgrown, (h.sound w hw).script⟩
  have hcalled := (hsound w (List.mem_of_getElem? hj)).called
  refine ⟨halone, forall_mem_set hsound j ⟨hop ▸ hcalled, hat⟩,
    h.longer.trans hgrown.logs.length_le, fun k => ?_, ?_⟩
  · have hsum := sum_map_set (Writer.owed k) hj w'
    have hbal := h.view k
    rcases hview k with ⟨hused, hbilled⟩ | ⟨m, n, hm, hused, hbilled, howed⟩
    · rw [hused]
      convert hbal using 1
      linarith
    · rw [hused]
      convert hbal.add hm n using 1
      linarith
  · rw [hdurable]
    split
    · intro k
      have hbal := h.view k
      have hzero : (g.writers.map (Writer.owed k)).sum = 0 := by
        apply List.sum_eq_zero
        intro x hx
        obtain ⟨w, hw, rfl⟩ := List.mem_map.mp hx
        rw [Writer.owed, hcommit ‹_› w hw]
      rwa [hzero, sub_zero] at hbal
    · exact h.durable

theorem owed_eq_zero {w : Writer} (h : w.owes = none) (k : Nat) : w.owed k = 0 := by
  rw [Writer.owed, h]

/-- A new writer owes nothing yet. -/
theorem ChargeInv.start {g : Writers} (h : g.ChargeInv t₀) {op : WriteOp}
    (hop : op.Called g.conn.view) :
    ChargeInv t₀ { g with writers := g.writers ++ [{ op, coro := op.coro }] } where
  alone := h.alone
  sound w hw := by
    rcases List.mem_append.mp hw with hw | hw
    · exact h.sound w hw
    · rw [List.mem_singleton.mp hw]
      exact ⟨hop, op.at_zero⟩
  longer := h.longer
  view k := by
    have howes : Writer.owes { op, coro := op.coro } = none := by cases op <;> rfl
    simpa [owed_eq_zero howes] using h.view k
  durable := h.durable

/-- A statement of a writer other than `persist_request_log`. -/
theorem ChargeInv.plain {g : Writers} (h : g.ChargeInv t₀) {s : Stmt} {w w' : Writer}
    (hj : g.writers[j]? = some w) (hop : w'.op = w.op) (hat : w'.op.At w'.steps w'.coro)
    (hcommit : s.isCommit = true → ∀ w ∈ g.writers, w.owes = none) (hs : s.Plain)
    (hw : w.owes = none) (hw' : w'.owes = none) :
    ChargeInv t₀ { conn := (g.conn.step none s).2, writers := g.writers.set j w' } := by
  refine h.move hj hop hat hcommit fun k => .inl ⟨hs.used _ k, ?_⟩
  rw [hs.billed, owed_eq_zero hw, owed_eq_zero hw']

/-- Once its row is inserted, a call owes what the row has added to the bill. -/
theorem billedRecord_eq_owed {record : RequestLog Json} {keyId : Option Nat}
    (h : (WriteOp.persist record keyId).Called t) (coro : Db Unit) (k : Nat) :
    billedRecord record k = Writer.owed k ⟨.persist record keyId, coro, 1⟩ := by
  unfold billedRecord Writer.owed Writer.owes
  rcases h.charge with ⟨k', n, -, hkey, -, hinc, hcharge⟩ | ⟨hinc, hcharge⟩
  · simp [hkey, hinc, hcharge]
  · simp [hinc, hcharge]

theorem fits64_of_addTokenUsed (h : ((Stmt.dml (.addTokenUsed n k)).effect t).1.isOk = true) :
    fits64 n = true := by
  by_contra hn
  simp [Stmt.effect, Dml.effect, Dml.bind, bindInt, hn, bind, Except.bind, Except.isOk,
    Except.toBool] at h

/-- A statement of `persist_request_log`. -/
theorem ChargeInv.persist {g : Writers} (h : g.ChargeInv t₀) {s : Stmt} {record : RequestLog Json}
    {keyId : Option Nat} {coro coro' : Db Unit}
    (hj : g.writers[j]? = some ⟨.persist record keyId, coro, n⟩)
    (hcalled : (WriteOp.persist record keyId).Called g.conn.view)
    (hdrop : (persistStmts record (keyId.map fun (id : Nat) => (id : Int))).drop n = s :: rest)
    (hat : coro'.Follows rest) (hok : (s.effect g.conn.view).1.isOk = true)
    (hnext : coro.next? = some s) (hbal : g.balances (.statement j) = true) :
    ChargeInv t₀ { conn := (g.conn.step none s).2
                   writers := g.writers.set j ⟨.persist record keyId, coro', n + 1⟩ } := by
  have hnext : g.next? (.statement j) = some s := by rw [next?, hj]; exact hnext
  unfold balances at hbal
  rw [hnext] at hbal
  have hat' : (WriteOp.persist record keyId).At (n + 1) coro' := by
    change coro'.Follows ((persistStmts _ _).drop (n + 1))
    rw [← List.tail_drop, hdrop]
    exact hat
  rcases persistStmts_drop hdrop with ⟨rfl, rfl, -⟩ | ⟨rfl, ⟨k', n, hcharge, rfl⟩, -⟩ | ⟨hn, rfl, -⟩
  · have hb : record.bindable = true := by
      by_contra hb
      obtain ⟨e, he⟩ := insertRequestLog_unbindable (Bool.not_eq_true _ ▸ hb) g.conn.view
      rw [Stmt.effect, he] at hok
      cases hok
    refine h.move hj rfl hat' (fun h => absurd h Bool.false_ne_true) fun k =>
      .inl ⟨insertRequestLog_used _ _ k, ?_⟩
    rw [Stmt.effect, insertRequestLog_billed hb hbal h.longer, billedRecord_eq_owed hcalled coro' k]
    simp [Writer.owed, Writer.owes]
  · obtain ⟨k, _, rfl, hkey, hrow, hinc, hcharge'⟩ | ⟨-, hcharge'⟩ := hcalled.charge <;>
      cases hcharge.symm.trans hcharge'
    have hfits := fits64_of_addTokenUsed hok
    dsimp only [Int.toNat_natCast] at hbal
    split at hbal <;> [skip; cases hbal]
    rename_i m hm
    refine h.move hj rfl hat' (fun h => absurd h Bool.false_ne_true) fun id => ?_
    have hused := addTokenUsed_used hrow hfits hm hbal id
    have hbilled :=
      Tables.billed_eq (Dml.effect_requestLogs (d := .addTokenUsed n k) rfl g.conn.view)
      t₀.requestLogs.rows.length id
    have howed : Writer.owed id ⟨.persist record (some k), coro, 1⟩ = if k = id then n else 0 := by
      rw [← billedRecord_eq_owed hcalled, billedRecord, hkey, hinc]
      rfl
    have hpaid : Writer.owed id ⟨.persist record (some k), coro', 1 + 1⟩ = 0 := owed_eq_zero rfl id
    rw [howed, hpaid]
    by_cases hid : id = k
    · subst id
      rw [if_pos rfl] at hused
      exact .inr ⟨m, n, hm, hused, hbilled, by simp⟩
    · rw [if_neg hid] at hused
      exact .inl ⟨hused, by rw [Stmt.effect, hbilled, if_neg (Ne.symm hid)]⟩
  · have hnone : ∀ w ∈ g.writers, w.owes = none := by simpa using hbal
    refine h.move hj rfl hat' (fun _ => hnone) fun k => .inl ⟨rfl, ?_⟩
    rw [owed_eq_zero (hnone _ (List.mem_of_getElem? hj)), owed_eq_zero]
    · rfl
    · simp only [Writer.owes]
      exact if_neg (by omega)

theorem ChargeInv.step {g g' : Writers} (h : g.ChargeInv t₀) (hstep : g.step l = some g')
    (hok : g.succeeds l = true) (hbal : g.balances l = true) : g'.ChargeInv t₀ := by
  cases l with
  | start op =>
    cases hstep
    exact h.start hok
  | statement j =>
    simp only [Writers.step] at hstep
    split at hstep <;> [skip; cases hstep]
    rename_i w hj
    obtain ⟨⟨coro, conn⟩, hc, hstep⟩ := Option.bind_eq_some_iff.mp hstep
    cases hstep
    have hsound := h.sound w (List.mem_of_getElem? hj)
    have hnext {s : Stmt} (hs : w.coro.next? = some s) : g.next? (.statement j) = some s := by
      rw [next?, hj]
      exact hs
    have hcommit {s : Stmt} (hs : w.coro.next? = some s) (hc : s.isCommit = true) :
        ∀ w ∈ g.writers, w.owes = none := by
      unfold balances at hbal
      rw [hnext hs] at hbal
      cases s with
      | commit => simpa using hbal
      | query | dml => cases hc
    obtain ⟨op, coro₀, n⟩ := w
    cases op with
    | persist record keyId =>
      obtain ⟨s, rest, hdrop, rfl, hnext'⟩ := Coro.Follows.advance hsound.script hc
      have hscript : coro₀.Follows ((persistStmts _ _).drop n) := hsound.script
      rw [hdrop] at hscript
      have hs : coro₀.next? = some s := Coro.next?_of_follows hscript
      have hok : (s.effect g.conn.view).1.isOk = true := by
        simp only [succeeds, hnext hs] at hok
        rwa [← (h.alone.step s).1]
      rcases hnext' with ⟨-, hat⟩ | ⟨⟨e, he⟩, -⟩
      · exact h.persist hj hsound.called hdrop hat hok hs hbal
      · exfalso
        rw [← (h.alone.step s).1] at hok
        obtain ⟨r, hr⟩ := Except.isOk_iff.mp hok
        simp [Conn.handler, hr, Except.mapError] at he
    | _ =>
      obtain ⟨s, hs, hplain, rfl, hat⟩ := Coro.All.advance hsound.script hc
      exact h.plain hj rfl hat (hcommit hs) hplain rfl rfl

/-- **What is durable is charged**: in every run in which no statement fails, nobody commits while a
charge is owed and every charge is what was logged, the file balances. -/
theorem charged_balanced (t₀ : Tables) (ls : List Label) (g : Writers)
    (h : Run (restrict Writers.step fun g l => (g.succeeds l && g.balances l) = true)
      { conn := { durable := t₀ } } ls g) : t₀.Balanced g.conn.durable := by
  have hinit : ChargeInv t₀ { conn := { durable := t₀ } } :=
    ⟨.of_tx_none rfl rfl, (fun _ hw => nomatch hw), le_rfl,
      fun k => .inl (by simp [Conn.view, Tables.billed]), fun k => .inl (by simp [Tables.billed])⟩
  refine (h.invariant (I := ChargeInv t₀) (fun g l g' hi hs => ?_) hinit).durable
  obtain ⟨hl, hs⟩ := restrict_eq_some.mp hs
  obtain ⟨hok, hbal⟩ := Bool.and_eq_true_iff.mp hl
  exact hi.step hs hok hbal

end Writers

namespace Sample

/-- The record of a request of the key 1 that used five tokens. -/
def usageRecord : RequestLog Json :=
  { baseRecord relay (chat true) ⟨0, ⟨1, 1, str "alice", [], none, none, .int 0⟩,
    clockAt 1⟩ [] 0 with
    totalTokens := .int 5
    statusCode := 200 }

def persisted : WriteOp := .persist usageRecord (some 1)
def touched : WriteOp := .touchLastUsed 1 0

end Sample

/-- The row, the charge, a foreign commit. -/
theorem Writers.charged_balanced_sample :
    ∃ g, Run (restrict Writers.step fun g l => (g.succeeds l && g.balances l) = true)
        { conn := Sample.conn } [.start Sample.persisted, .start Sample.touched, .statement 0,
          .statement 1, .statement 0, .statement 1, .statement 0] g ∧
      g.conn.durable.billed 0 1 = 5 ∧ (Sample.tables none).Balanced g.conn.durable := by
  have hrun : ([Label.start Sample.persisted, .start Sample.touched, .statement 0, .statement 1,
    .statement 0, .statement 1, .statement 0].foldlM
    (restrict Writers.step fun g l => (g.succeeds l && g.balances l) = true)
      { conn := Sample.conn }).any (fun g => g.conn.durable.billed 0 1 = 5) := by decide +kernel
  obtain ⟨g, h, hp⟩ := Run.exists_of_any hrun
  exact ⟨g, h, of_decide_eq_true hp, Writers.charged_balanced _ _ _ h⟩

/-- Another writer's commit between the row and the charge: the file holds a request that nobody has
been charged for. -/
theorem Writers.logged_uncharged : ¬ ∀ (t₀ : Tables) (ls : List Label) (g : Writers),
    Run (restrict Writers.step fun g l => g.succeeds l = true) { conn := { durable := t₀ } } ls g →
      t₀.Balanced g.conn.durable := by
  intro hall
  have hrun : ([Label.start Sample.persisted, .start Sample.touched, .statement 0, .statement 1,
    .statement 1].foldlM (restrict Writers.step fun g l => g.succeeds l = true)
      { conn := Sample.conn }).any (fun g =>
        g.conn.durable.billed 0 1 = 5 ∧ g.conn.durable.used 1 = .int 0) := by decide +kernel
  obtain ⟨g, h, hp⟩ := Run.exists_of_any hrun
  obtain ⟨hbilled, hused⟩ := of_decide_eq_true hp
  have hsum := hall _ _ _ h 1
  rw [hused, show (Sample.tables none).requestLogs.rows.length = 0 from rfl, hbilled] at hsum
  rcases hsum with ⟨h0, -⟩ | ⟨m, hm, hm'⟩
  · cases h0
  · cases hm
    cases hm'

end EasyModelGate
