import EasyModelGate.Verify.Beside
import EasyModelGate.Verify.Charge

/-! # The books

The log, and what the keys have been charged. Only the detached tasks write to them, on the
gateway's own connection: what runs beside them, in this process or in another, leaves the books as
they are. -/

namespace EasyModelGate

namespace Tables

/-- Nothing has been logged or charged. -/
structure SameBooks (t t' : Tables) : Prop where
  requestLogs : t'.requestLogs = t.requestLogs
  used : ∀ k, t'.used k = t.used k

variable {t t' : Tables}

theorem SameBooks.refl (t : Tables) : t.SameBooks t := ⟨rfl, fun _ => rfl⟩

theorem SameBooks.trans {t'' : Tables} (h : t.SameBooks t') (h' : t'.SameBooks t'') :
    t.SameBooks t'' :=
  ⟨h'.requestLogs.trans h.requestLogs, fun k => (h'.used k).trans (h.used k)⟩

/-- `D` can be told of the durable books and `V` of those that are seen: both tell of the books
only, and what is seen may become durable. -/
structure Kept (D V : Tables → Prop) : Prop where
  durable : ∀ t t', t.SameBooks t' → D t → D t'
  view : ∀ t t', t.SameBooks t' → V t → V t'
  commit : ∀ t, V t → D t

end Tables

theorem Dml.Plain.sameBooks {d : Dml} (hd : d.Plain) (h : d.run t = .ok (cursor, t')) :
    t.SameBooks t' where
  requestLogs := Dml.run_requestLogs hd.1 h
  used k := Tables.used_eq (Dml.run_tokenUsed hd.2 h k)

/-! ## The connection -/

namespace Conn

/-- The books as they are durable and as they are seen. A transaction that has not written may be
behind the file, but never in the books: nobody else writes to them. -/
structure Books (D V : Tables → Prop) (c : Conn) : Prop where
  durable : D c.durable
  view : V c.view
  same : ∀ tx, c.tx = some tx → tx.wrote = false → c.view.SameBooks c.durable

variable {D V D' V' : Tables → Prop} {c : Conn}

theorem Books.init {t : Tables} (hD : D t) (hV : V t) : Books D V { durable := t } :=
  ⟨hD, hV, fun _ ht => nomatch ht⟩

theorem Books.mono (h : c.Books D V) (hD : ∀ t, D t → D' t) (hV : ∀ t, V t → V' t) :
    c.Books D' V' :=
  ⟨hD _ h.durable, hV _ h.view, h.same⟩

theorem Books.pin (h : c.Books D V) : c.pin.Books D V := by
  refine ⟨h.durable, (view_pin c).symm ▸ h.view, ?_⟩
  intro tx' htx' hw
  obtain ⟨tx, ht, rfl⟩ := Option.map_eq_some_iff.mp htx'
  rw [view_pin]
  exact h.same tx ht hw

theorem Books.begin (h : c.Books D V) : c.begin.Books D V := by
  refine ⟨h.durable, (view_begin c).symm ▸ h.view, ?_⟩
  intro tx' htx' hw
  rw [view_begin]
  rcases hc : c.tx with _ | tx
  · rw [Conn.view, hc]
    exact .refl _
  · rw [Conn.begin, hc] at htx'
    cases htx'
    exact h.same _ hc hw

theorem Books.written (h : c.Books D V) {t : Tables} (ht : V' t) : (c.written t).Books D V' := by
  refine ⟨h.durable, ht, ?_⟩
  rintro _ ⟨⟩ ⟨⟩

/-- A commit makes the books durable as they are seen. -/
theorem Books.committed_same (h : c.Books D V) : c.view.SameBooks c.committed.durable := by
  rcases committed_cases c with ⟨hd, hsame⟩ | ⟨hd, -⟩ <;> rw [hd]
  · cases ht : c.tx with
    | none => simpa [Conn.view, ht] using Tables.SameBooks.refl c.durable
    | some tx =>
      cases hw : tx.wrote with
      | true => exact hsame tx ht hw ▸ .refl _
      | false => exact h.same tx ht hw
  · exact .refl _

theorem Books.committed (hk : Tables.Kept D V) (h : c.Books D' V) : c.committed.Books D V := by
  have hview := hk.view _ _ h.committed_same h.view
  exact ⟨hk.commit _ hview, hview, fun _ ht => nomatch ht⟩

/-- A write that fails. -/
theorem Books.failed (h : c.Books D V) {d : Dml} (he : (Conn.handler (.dml d) c).1 = .error e) :
    (Conn.handler (.dml d) c).2.Books D V := by
  change (c.begin.write d).2.Books D V
  rcases write_cases c.begin d with ⟨-, -, hs | ⟨-, hs⟩⟩ | ⟨cursor, t, -, -, -, hs⟩
  · rw [hs]
    exact h.begin
  · rw [hs]
    exact h.begin.written h.begin.view
  · simp only [Conn.handler, step_dml, hs] at he
    cases he

/-- A write that succeeds. -/
theorem Books.ran (h : c.Books D V) {d : Dml} (hok : (Conn.handler (.dml d) c).1 = .ok r)
    (hd : ∀ cursor t, d.bind c.view = .ok () → d.run c.view = .ok (cursor, t) → V' t) :
    (Conn.handler (.dml d) c).2.Books D V' := by
  change (c.begin.write d).2.Books D V'
  rcases write_cases c.begin d with ⟨e, he, -⟩ | ⟨cursor, t, -, hbind, hrun, hs⟩
  · simp only [Conn.handler, step_dml, he] at hok
    cases hok
  · rw [view_begin] at hbind hrun
    rw [hs]
    exact h.begin.written (hd cursor t hbind hrun)

/-- A statement that neither logs nor charges. -/
theorem Books.plain (hk : Tables.Kept D V) (h : c.Books D V) {s : Stmt} (hs : s.Within Dml.Plain) :
    (Conn.handler s c).2.Books D V := by
  cases hs with
  | query q =>
    change (c.step none (.query q)).2.Books D V
    cases hq : q.exec c.view with
    | error e =>
      rw [step_query_error hq]
      exact h
    | ok r =>
      rw [step_query_ok hq]
      exact h.pin
  | @dml d hd =>
    cases hres : (Conn.handler (.dml d) c).1 with
    | error e => exact h.failed hres
    | ok r => exact h.ran hres fun _ _ _ hrun => hk.view _ _ (hd.sameBooks hrun) h.view
  | commit => exact .committed hk h

/-- The books, of those who leave them alone. -/
def bookkeeping : Discipline where
  Good _ := True
  Extends := Tables.SameBooks
  Allowed _ := Dml.Plain
  refl := .refl
  trans _ _ _ := .trans
  run _ _ _ _ _ hd _ hrun := ⟨trivial, hd.sameBooks hrun⟩

/-- Another process that neither logs nor charges. -/
theorem Books.outside (hk : Tables.Kept D V) (h : c.Books D V) {p : Coro Stmt Stmt.Res Exn α}
    (hp : Db.Writes Dml.Plain p) :
    (c.outside p).2.Books D V := by
  have hinit : Other.Keeps bookkeeping c.durable (c.tx.any Tx.wrote)
      { conn := { durable := c.durable, locked := c.tx.any Tx.wrote } } := .init trivial _
  have ho := hinit.run (hp.mono fun _ hd _ => hd)
  set o := (p.run Other.handler { conn := { durable := c.durable, locked := c.tx.any Tx.wrote } }).2
  have hbooks : c.durable.SameBooks o.conn.durable := ho.durable
  have hdurable : D o.conn.durable := hk.durable _ _ hbooks h.durable
  have hout : (c.outside p).2 = { c with
      durable := o.conn.durable
      tx := c.tx.map fun tx => { tx with stale := tx.stale || (o.published && tx.view.isSome) } } :=
      rfl
  rw [hout]
  rcases hc : c with ⟨d, _ | ⟨_ | t, wrote, stale⟩, l⟩ <;> subst c
  · exact ⟨hdurable, hk.view _ _ hbooks h.view, fun _ ht => nomatch ht⟩
  · exact ⟨hdurable, hk.view _ _ hbooks h.view, fun _ _ _ => .refl _⟩
  · refine ⟨hdurable, h.view, ?_⟩
    rintro _ ⟨⟩ hw
    exact (h.same _ rfl hw).trans hbooks

/-- What neither logs nor charges leaves the books. -/
theorem Books.stable (hk : Tables.Kept D V) : Stable Dml.Plain (Books D V) where
  stmt _ _ h hs := h.plain hk hs
  outside _ _ h hp := h.outside hk hp

end Conn

/-! ## The tasks -/

/-- Where a task is: `touch_last_used` leaves the books alone, and `persist_request_log` goes
through its script until a statement fails. -/
def Purpose.Scripted (steps : Nat) (c : Db Unit) : Purpose → Prop
  | .touch .. => Db.Writes Dml.Plain c
  | .log record keyId =>
    (∃ e, c = .raise e) ∨ c.Follows ((Purpose.log record keyId).stmts.drop steps)

def Task.Scripted (t : Task) : Prop := t.purpose.Scripted t.steps t.coro

theorem spawn_scripted (p : Purpose) : (spawn p).Scripted := by
  cases p with
  | touch keyId nowMs =>
    apply (Purpose.touch keyId nowMs).coro_writes.mono
    rintro d rfl
    exact ⟨rfl, rfl⟩
  | log record keyId => exact .inr (persistRequestLog_follows _ _)

/-- What one statement of a task does. -/
inductive Task.Moved (t : Task) (c : Conn) : Db Unit → Conn → Prop
  | touched {keyId nowMs s coro} (hp : t.purpose = .touch keyId nowMs) (hs : s.Within Dml.Plain) :
    t.Moved c coro (Conn.handler s c).2
  | inserted {record keyId r coro} (hp : t.purpose = .log record keyId) (hn : t.steps = 0)
    (hok : (Conn.handler (.dml (.insertRequestLog record.clipped)) c).1 = .ok r)
    (hlive : coro.ended = false) :
    t.Moved c coro (Conn.handler (.dml (.insertRequestLog record.clipped)) c).2
  | charged {record keyId k n r coro} (hp : t.purpose = .log record keyId) (hn : t.steps = 1)
    (hcharge : charge record (keyId.map fun (id : Nat) => (id : Int)) = some (k, n))
    (hok : (Conn.handler (.dml (.addTokenUsed n k)) c).1 = .ok r) (hlive : coro.ended = false) :
    t.Moved c coro (Conn.handler (.dml (.addTokenUsed n k)) c).2
  | committed {record keyId} (hp : t.purpose = .log record keyId) (hn : 0 < t.steps) :
    t.Moved c (.ret ()) (Conn.handler .commit c).2
  | failed {record keyId d e e'} (hp : t.purpose = .log record keyId) (hn : t.steps ≤ 1)
    (he : (Conn.handler (.dml d) c).1 = .error e) :
    t.Moved c (.raise e') (Conn.handler (.dml d) c).2

/-- **One statement of a task.** -/
theorem Task.Scripted.step {t : Task} (h : t.Scripted) {c c' : Conn} {coro : Db Unit}
    (hadv : t.coro.advance Conn.handler c = some (coro, c')) :
    Task.Scripted { t with coro, steps := t.steps + 1 } ∧ t.coro.ended = false ∧
    t.Moved c coro c' := by
  obtain ⟨purpose, coro₀, steps⟩ := t
  have hlive : coro₀.ended = false := by
    cases coro₀ with
    | ret | raise => cases hadv
    | await => rfl
  cases purpose with
  | touch keyId nowMs =>
    obtain ⟨s, -, hs, rfl, hall⟩ := Coro.All.advance (show Db.Writes Dml.Plain coro₀ from h) hadv
    exact ⟨hall, hlive, .touched rfl hs⟩
  | log record keyId =>
    rcases (show Purpose.Scripted steps coro₀ (.log record keyId) from h) with ⟨e, rfl⟩ | hfollows
    case inl => cases hadv
    obtain ⟨s, rest, hdrop, rfl, hnext⟩ := hfollows.advance hadv
    have htail : rest = (Purpose.log record keyId).stmts.drop (steps + 1) := by
      rw [← List.tail_drop, hdrop, List.tail_cons]
    have hscripted : Task.Scripted ⟨.log record keyId, coro, steps + 1⟩ := by
      rcases hnext with ⟨-, hat⟩ | ⟨-, hraise⟩
      · exact .inr (htail ▸ hat)
      · exact .inl hraise
    have hgoes (hat : coro.Follows rest) (hrest : rest ≠ []) : coro.ended = false :=
      Bool.eq_false_iff.mpr fun hended => hrest (hat.ended_iff.mp hended)
    refine ⟨hscripted, hlive, ?_⟩
    rcases persistStmts_drop hdrop with
      ⟨rfl, rfl, hrest⟩ | ⟨rfl, ⟨k, n, hcharge, rfl⟩, hrest⟩ | ⟨hn, rfl, rfl⟩
    · rcases hnext with ⟨⟨r, hok⟩, hat⟩ | ⟨⟨e, he⟩, e', rfl⟩
      · exact .inserted rfl rfl hok (hgoes hat hrest)
      · exact .failed rfl (Nat.zero_le 1) he
    · rcases hnext with ⟨⟨r, hok⟩, hat⟩ | ⟨⟨e, he⟩, e', rfl⟩
      · exact .charged rfl rfl hcharge hok (hgoes hat hrest)
      · exact .failed rfl le_rfl he
    · rcases hnext with ⟨-, hat⟩ | ⟨⟨e, he⟩, -⟩
      · obtain ⟨_, rfl⟩ := hat.eq_ret
        exact .committed rfl hn
      · cases he

end EasyModelGate
