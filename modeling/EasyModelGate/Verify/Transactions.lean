import EasyModelGate.Verify.Gateway
import EasyModelGate.Verify.Persist
import EasyModelGate.Writers

/-! # What a failed operation leaves behind

Operations run one after another on one connection, and any statement may raise. A writing
statement opens the transaction before it binds and runs, and nothing rolls back: the transaction
of an operation that fails stays open, for the next one to commit. -/

namespace EasyModelGate

/-! ## The property -/

/-- The connection while operations run one after another, with a journal of their writes. -/
structure Session where
  conn : Conn
  /-- The errors that the database is going to raise, one entry for each statement. -/
  faults : List (Option PyExn) := []
  /-- The number of the operation at work. -/
  op : Nat := 0
  /-- The operations with writes in the open transaction. -/
  pending : List Nat := []
  /-- The operations with writes that have been committed. -/
  committed : List Nat := []

namespace Session

def fault (σ : Session) : Option PyExn := σ.faults.head?.join

/-- The journal after a statement that has succeeded. -/
def book (σ : Session) : Stmt → Session
  | .query _ => σ
  | .dml _ => { σ with pending := σ.op :: σ.pending }
  | .commit => { σ with pending := [], committed := σ.pending ++ σ.committed }

def handler : Coro.Handler Stmt Stmt.Res Exn Session := fun s σ =>
  let (r, conn) := σ.conn.step σ.fault s
  let σ := { σ with conn, faults := σ.faults.tail }
  (r.mapError Exn.py, if r.isOk then σ.book s else σ)

/-- One operation, with the faults that it meets. -/
def perform (σ : Session) (op : WriteOp) (faults : List (Option PyExn)) :
    Except Exn Unit × Session :=
  let (r, σ) := op.coro.run handler { σ with faults }
  (r, { σ with op := σ.op + 1 })

def after (σ : Session) (ops : List (WriteOp × List (Option PyExn))) : Session :=
  ops.foldl (fun σ (op, faults) => (σ.perform op faults).2) σ

/-- After the operation no transaction is open, and none of its writes is ever committed. -/
def LeavesNothing (σ : Session) (op : WriteOp) (faults : List (Option PyExn)) : Prop :=
  (σ.perform op faults).2.conn.inTransaction = false ∧
    ∀ later, σ.op ∉ ((σ.perform op faults).2.after later).committed

end Session

/-- It fails before its first write: only `create_user` queries first, and it gives up when the
query raises or the name is taken. -/
def WriteOp.failsEarly (c : Conn) (fault : Option PyExn) : WriteOp → Bool
  | .createUser username .. =>
    fault.isSome || !username.valid || (c.view.userByUsername username).isSome
  | _ => false

/-! ## One statement -/

namespace Conn

theorem inTransaction_write {c : Conn} (h : c.inTransaction = true) (d : Dml) :
    (c.write d).2.inTransaction = true := by
  unfold write
  split
  · exact h
  · split
    · exact h
    · split <;> rfl

theorem inTransaction_query (c : Conn) (fault : Option PyExn) (q : Query) :
    (c.step fault (.query q)).2.inTransaction = c.inTransaction := by
  cases fault with
  | some e => rfl
  | none =>
    cases hq : q.exec c.view with
    | error e => rw [step_query_error hq]
    | ok r => rw [step_query_ok hq, inTransaction_pin]

theorem inTransaction_dml (c : Conn) (fault : Option PyExn) (d : Dml) :
    (c.step fault (.dml d)).2.inTransaction = true := by
  unfold step
  cases fault with
  | some e => rfl
  | none => exact inTransaction_write (inTransaction_begin c) d

theorem inTransaction_commit (c : Conn) (fault : Option PyExn) :
    (c.step fault .commit).2.inTransaction =
      (c.inTransaction && !(c.step fault .commit).1.isOk) := by
  unfold step
  cases fault with
  | some e => simp [Except.isOk, Except.toBool]
  | none => simp [Except.isOk, Except.toBool]

end Conn

namespace Session

@[simp] theorem conn_book (σ : Session) (s : Stmt) : (σ.book s).conn = σ.conn := by cases s <;> rfl
@[simp] theorem op_book (σ : Session) (s : Stmt) : (σ.book s).op = σ.op := by cases s <;> rfl

theorem handler_conn (s : Stmt) (σ : Session) :
    (handler s σ).2.conn = (σ.conn.step σ.fault s).2 := by
  unfold handler
  dsimp only
  split
  · exact conn_book ..
  · rfl

theorem handler_op (s : Stmt) (σ : Session) : (handler s σ).2.op = σ.op := by
  unfold handler
  dsimp only
  split
  · exact op_book ..
  · rfl

theorem handler_isOk (s : Stmt) (σ : Session) :
    (handler s σ).1.isOk = (σ.conn.step σ.fault s).1.isOk := by
  unfold handler
  dsimp only
  cases (σ.conn.step σ.fault s).1 <;> rfl

/-! ## One operation -/

/-- An operation whose statements are writes and a commit fails with the transaction open. -/
theorem run_fails {ds : List Dml} {c : Db α} {σ : Session}
    (hc : c.Follows (ds.map Stmt.dml ++ [.commit])) (hopen : ds = [] → σ.conn.inTransaction = true)
    (hfail : (c.run handler σ).1.isOk = false) : (c.run handler σ).2.conn.inTransaction = true := by
  induction ds generalizing c σ with
  | nil =>
    cases hc with
    | @await _ _ k hok herror =>
      cases hr : (handler .commit σ).1 with
      | ok r =>
        obtain ⟨a, ha⟩ := (hok r).eq_ret
        simp [Coro.run, hr, ha, Except.isOk, Except.toBool] at hfail
      | error e =>
        obtain ⟨e', he⟩ := herror e
        simp only [Coro.run, hr, he]
        rw [handler_conn, Conn.inTransaction_commit, hopen rfl, ← handler_isOk, hr]
        rfl
  | cons d ds ih =>
    cases hc with
    | @await _ _ k hok herror =>
      have hdml : (handler (.dml d) σ).2.conn.inTransaction = true := by
        rw [handler_conn, Conn.inTransaction_dml]
      cases hr : (handler (.dml d) σ).1 with
      | ok r =>
        simp only [Coro.run, hr] at hfail ⊢
        exact ih (hok r) (fun _ => hdml) hfail
      | error e =>
        obtain ⟨e', he⟩ := herror e
        simp only [Coro.run, hr, he]
        exact hdml

end Session

/-- Every operation but `create_user` writes first and commits last. -/
theorem WriteOp.coro_follows (op : WriteOp) (hop : ∀ u d n t, op ≠ .createUser u d n t) :
    ∃ d ds, op.coro.Follows ((d :: ds).map Stmt.dml ++ [.commit]) := by
  cases op with
  | createUser => exact absurd rfl (hop _ _ _ _)
  | persist record keyId =>
    have h := persistRequestLog_follows record (keyId.map fun (id : Nat) => (id : Int))
    unfold persistStmts at h
    cases hc : charge record (keyId.map fun (id : Nat) => (id : Int)) with
    | none =>
      rw [hc] at h
      exact ⟨_, [], h⟩
    | some p =>
      rw [hc] at h
      exact ⟨_, [_], h⟩
  | touchLastUsed | setSetting => exact ⟨_, [], (executeCommit_follows _).bind fun _ => .ret⟩
  | _ => exact ⟨_, [], ((executeCommit_follows _).bind fun _ => .ret).bind fun _ => .ret⟩

namespace Session

theorem handler_fst (s : Stmt) (σ : Session) :
    (handler s σ).1 = (σ.conn.step σ.fault s).1.mapError Exn.py := rfl

/-- What the query of `create_user` returns. -/
theorem handler_userByUsername (username : Str) (σ : Session) :
    (∃ e, (handler (.query (.userByUsername username)) σ).1 = .error e) ∧
        (σ.fault.isSome || !username.valid) = true ∨
      (handler (.query (.userByUsername username)) σ).1 =
          .ok (σ.conn.view.userByUsername username) ∧
        (σ.fault.isSome || !username.valid) = false := by
  rw [handler_fst]
  cases hf : σ.fault with
  | some e => exact .inl ⟨⟨_, rfl⟩, rfl⟩
  | none =>
    cases hv : username.valid with
    | false =>
      have hq : Query.exec σ.conn.view (.userByUsername username) = .error .unicodeEncodeError := by
        simp [Query.exec, bindText, hv, bind, Except.bind]
      rw [Conn.step_query_error hq]
      exact .inl ⟨⟨_, rfl⟩, rfl⟩
    | true =>
      have hq : Query.exec σ.conn.view (.userByUsername username) =
          .ok (σ.conn.view.userByUsername username) := by
        simp [Query.exec, bindText, hv, bind, Except.bind, pure, Except.pure]
      rw [Conn.step_query_ok hq]
      exact .inr ⟨rfl, rfl⟩

/-- `create_user` when its query has returned `user`. -/
def createUserWith (username : Str) (displayName note : Option Str) (nowMs : Int)
    (user : Option (Row User)) : Db Nat :=
  if user.isSome then .raise (.userAlreadyExists username)
  else (Dao.createUser username displayName note nowMs).handle fun
    | .py .integrityError => .raise (.userAlreadyExists username)
    | e => .raise e

theorem run_createUser (username : Str) (displayName note : Option Str) (nowMs : Int)
    (σ : Session) :
    (WriteOp.createUser username displayName note nowMs).coro.run handler σ =
      match handler (.query (.userByUsername username)) σ with
      | (.ok user, σ) => (createUserWith username displayName note nowMs user >>=
          fun _ => .ret ()).run handler σ
      | (.error e, σ) => (.error e, σ) := by
  change ((Db.query (.userByUsername username) >>=
    createUserWith username displayName note nowMs) >>= fun _ => .ret ()).run handler σ = _
  rw [Coro.run_bind, Coro.run_bind, Db.query, Coro.run_perform]
  rcases handler (.query (.userByUsername username)) σ with ⟨_ | user, σ'⟩
  · rfl
  · exact (Coro.run_bind _ _ _).symm

/-- Past its query `create_user` fails with the transaction open. -/
theorem createUserWith_fails {user : Option (Row User)} (hu : user.isSome = false) {σ : Session}
    (hfail : ((createUserWith username displayName note nowMs user >>=
      fun _ => Coro.ret ()).run handler σ).1.isOk = false) :
    ((createUserWith username displayName note nowMs user >>=
      fun _ => Coro.ret ()).run handler σ).2.conn.inTransaction = true := by
  have hfollows : (Dao.createUser username displayName note nowMs).Follows
      ([Dml.insertUser username displayName note true nowMs].map Stmt.dml ++ [.commit]) :=
    (executeCommit_follows _).bind fun _ => .ret
  have hinner := run_fails (σ := σ) hfollows nofun
  simp only [createUserWith, hu, Bool.false_eq_true, if_false] at hfail ⊢
  rw [Coro.run_bind, Coro.run_handle] at hfail ⊢
  cases hr : (Dao.createUser username displayName note nowMs).run handler σ with
  | mk r σ' =>
    rw [hr] at hfail hinner
    cases r with
    | ok a => cases hfail
    | error e =>
      have hopen := hinner rfl
      by_cases he : e = .py .integrityError
      · subst he
        exact hopen
      · simpa [he] using hopen

theorem writeFirst_fails {op : WriteOp} (hop : ∀ u d n t, op ≠ .createUser u d n t) {σ : Session}
    (hfail : (op.coro.run handler σ).1.isOk = false) :
    (op.coro.run handler σ).2.conn.inTransaction = true := by
  obtain ⟨d, ds, hc⟩ := op.coro_follows hop
  exact run_fails hc nofun hfail

/-- **A failing operation**: the transaction stays open if it was, and opens unless the operation
fails early. -/
theorem run_inTransaction (op : WriteOp) (σ : Session)
    (hfail : (op.coro.run handler σ).1.isOk = false) :
    (op.coro.run handler σ).2.conn.inTransaction =
      (σ.conn.inTransaction || !op.failsEarly σ.conn σ.fault) := by
  cases op with
  | createUser username displayName note nowMs =>
    rw [run_createUser] at hfail ⊢
    have hsame := handler_conn (.query (.userByUsername username)) σ
    have hquery := Conn.inTransaction_query σ.conn σ.fault (.userByUsername username)
    rw [← hsame] at hquery
    rcases handler_userByUsername username σ with ⟨⟨e, he⟩, hearly⟩ | ⟨hok, hearly⟩
    · have hσ : handler (.query (.userByUsername username)) σ = (.error e, _) := Prod.ext he rfl
      rw [hσ]
      simp only [WriteOp.failsEarly, hearly, Bool.true_or, Bool.not_true, Bool.or_false]
      exact hquery
    · have hσ : handler (.query (.userByUsername username)) σ = (.ok _, _) := Prod.ext hok rfl
      rw [hσ] at hfail ⊢
      simp only [WriteOp.failsEarly, hearly, Bool.false_or]
      cases hu : (σ.conn.view.userByUsername username).isSome with
      | true =>
        simp only [createUserWith, hu, if_true, Coro.raise_bind, Coro.run_raise]
        simpa using hquery
      | false => simpa using createUserWith_fails hu hfail
  | _ =>
    rw [writeFirst_fails (by intro _ _ _ _ h; cases h) hfail]
    exact (Bool.or_true _).symm

/-! ## The journal -/

/-- Operation `n` is over, and has no write that is pending or committed. -/
structure Absent (n : Nat) (σ : Session) : Prop where
  past : n < σ.op
  pending : n ∉ σ.pending
  committed : n ∉ σ.committed

/-- The journal names operations up to the one at work. -/
structure Numbered (σ : Session) : Prop where
  pending : ∀ i ∈ σ.pending, i ≤ σ.op
  committed : ∀ i ∈ σ.committed, i ≤ σ.op

/-- What a statement does to the journal. -/
theorem handler_journal (s : Stmt) (σ : Session) :
    (handler s σ).2.pending = (if (handler s σ).1.isOk then σ.book s else σ).pending ∧
      (handler s σ).2.committed = (if (handler s σ).1.isOk then σ.book s else σ).committed := by
  rw [handler_isOk]
  unfold handler
  dsimp only
  split
  · cases s <;> exact ⟨rfl, rfl⟩
  · exact ⟨rfl, rfl⟩

theorem handler_absent {σ : Session} (h : σ.Absent n) (s : Stmt) : (handler s σ).2.Absent n := by
  obtain ⟨hp, hc⟩ := handler_journal s σ
  refine ⟨by rw [handler_op]; exact h.past, ?_, ?_⟩
  · rw [hp]
    split
    · cases s with
      | query => exact h.pending
      | dml => exact List.not_mem_cons_of_ne_of_not_mem (Nat.ne_of_lt h.past) h.pending
      | commit => exact List.not_mem_nil
    · exact h.pending
  · rw [hc]
    split
    · cases s with
      | query | dml => exact h.committed
      | commit => exact fun hmem => (List.mem_append.mp hmem).elim h.pending h.committed
    · exact h.committed

theorem handler_numbered {σ : Session} (h : σ.Numbered) (s : Stmt) : (handler s σ).2.Numbered := by
  obtain ⟨hp, hc⟩ := handler_journal s σ
  refine ⟨?_, ?_⟩
  · rw [hp, handler_op]
    split
    · cases s with
      | query => exact h.pending
      | dml => exact List.forall_mem_cons.mpr ⟨le_rfl, h.pending⟩
      | commit => exact fun _ hmem => absurd hmem List.not_mem_nil
    · exact h.pending
  · rw [hc, handler_op]
    split
    · cases s with
      | query | dml => exact h.committed
      | commit =>
        intro i hi
        exact (List.mem_append.mp hi).elim (h.pending i) (h.committed i)
    · exact h.committed

theorem run_op (op : WriteOp) (σ : Session) : (op.coro.run handler σ).2.op = σ.op :=
  Coro.run_invariant (I := fun σ' => σ'.op = σ.op) (fun s σ' h => (handler_op s σ').trans h) _ _ rfl

theorem perform_absent {σ : Session} (h : σ.Absent n) (op : WriteOp)
    (faults : List (Option PyExn)) :
    (σ.perform op faults).2.Absent n := by
  have hrun : (op.coro.run handler { σ with faults }).2.Absent n :=
    Coro.run_invariant (I := Absent n) (fun s σ h => handler_absent h s) _ _
      ⟨h.past, h.pending, h.committed⟩
  exact ⟨Nat.lt_succ_of_lt hrun.past, hrun.pending, hrun.committed⟩

theorem after_absent {σ : Session} (h : σ.Absent n) (ops : List (WriteOp × List (Option PyExn))) :
    (σ.after ops).Absent n := by
  induction ops generalizing σ with
  | nil => exact h
  | cons op ops ih => exact ih (perform_absent h op.1 op.2)

/-- Between two operations the journal names earlier ones only. -/
theorem after_earlier {σ : Session} (h : (∀ i ∈ σ.pending, i < σ.op) ∧ ∀ i ∈ σ.committed, i < σ.op)
    (ops : List (WriteOp × List (Option PyExn))) :
    (∀ i ∈ (σ.after ops).pending, i < (σ.after ops).op) ∧
      ∀ i ∈ (σ.after ops).committed, i < (σ.after ops).op := by
  induction ops generalizing σ with
  | nil => exact h
  | cons op ops ih =>
    refine ih ?_
    have hrun : (op.1.coro.run handler { σ with faults := op.2 }).2.Numbered :=
      Coro.run_invariant (I := Numbered) (fun s σ h => handler_numbered h s) _ _
        ⟨fun i hi => le_of_lt (h.1 i hi), fun i hi => le_of_lt (h.2 i hi)⟩
    exact ⟨fun i hi => Nat.lt_succ_of_le (hrun.pending i hi),
      fun i hi => Nat.lt_succ_of_le (hrun.committed i hi)⟩

/-- An operation that fails early has not touched the journal. -/
theorem run_early {op : WriteOp} {σ : Session} (h : op.failsEarly σ.conn σ.fault = true) :
    (op.coro.run handler σ).2.pending = σ.pending ∧
      (op.coro.run handler σ).2.committed = σ.committed := by
  cases op with
  | createUser username displayName note nowMs =>
    have hjournal := handler_journal (.query (.userByUsername username)) σ
    simp only [book, ite_self] at hjournal
    rw [run_createUser]
    rcases handler_userByUsername username σ with ⟨⟨e, he⟩, -⟩ | ⟨hok, hearly⟩
    · have hσ : handler (.query (.userByUsername username)) σ = (.error e, _) := Prod.ext he rfl
      rw [hσ]
      exact hjournal
    · have hσ : handler (.query (.userByUsername username)) σ = (.ok _, _) := Prod.ext hok rfl
      simp only [WriteOp.failsEarly, hearly, Bool.false_or] at h
      rw [hσ]
      simp only [createUserWith, h, if_true, Coro.raise_bind, Coro.run_raise]
      exact hjournal
  | _ => cases h

/-- **A failed operation leaves nothing behind** exactly when no transaction was open and it failed
before its first write. -/
theorem leaves_nothing_iff (c₀ : Conn) (before : List (WriteOp × List (Option PyExn)))
    (op : WriteOp) (faults : List (Option PyExn))
    (hfail : ((Session.after { conn := c₀ } before).perform op faults).1.isOk = false) :
    (Session.after { conn := c₀ } before).LeavesNothing op faults ↔
      (Session.after { conn := c₀ } before).conn.inTransaction = false ∧
        op.failsEarly (Session.after { conn := c₀ } before).conn faults.head?.join = true := by
  have hearlier := after_earlier (σ := { conn := c₀ }) (by simp) before
  generalize Session.after { conn := c₀ } before = σ at hfail hearlier
  have htx := run_inTransaction op { σ with faults } hfail
  constructor
  · rintro ⟨hclosed, -⟩
    rw [perform, htx, Bool.or_eq_false_iff, Bool.not_eq_false'] at hclosed
    exact hclosed
  · rintro ⟨hclosed, hearly⟩
    refine ⟨?_, fun later => ?_⟩
    · rw [perform, htx]
      exact (Bool.or_eq_false_iff.mpr ⟨hclosed, by rw [Bool.not_eq_false']; exact hearly⟩)
    · obtain ⟨hp, hc⟩ := @run_early op { σ with faults } hearly
      refine (after_absent (n := σ.op) ⟨?_, fun hmem => ?_, fun hmem => ?_⟩ later).committed
      · simp only [perform, run_op]
        exact Nat.lt_succ_self _
      · exact absurd (hearlier.1 _ (hp ▸ hmem)) (Nat.lt_irrefl _)
      · exact absurd (hearlier.2 _ (hc ▸ hmem)) (Nat.lt_irrefl _)

/-- A user that exists cannot be created again, and nothing is left behind. -/
theorem leaves_nothing_existing_user :
    (Session.after { conn := Sample.conn } []).LeavesNothing
      (.createUser (str "alice") none none 0) [] :=
  (leaves_nothing_iff _ _ _ _ (by decide +kernel)).mpr (by decide +kernel)

/-- A key whose limit does not fit in 64 bits is refused by SQLite, with the transaction open. -/
theorem failed_leaves_transaction : ¬ ∀ (c₀ : Conn) (before : List (WriteOp × List (Option PyExn)))
    (op : WriteOp) (faults : List (Option PyExn)),
    ((Session.after { conn := c₀ } before).perform op faults).1.isOk = false →
      (Session.after { conn := c₀ } before).LeavesNothing op faults := by
  intro hall
  have hleft := hall Sample.conn []
    (.createApiKey 1 none (str "emg_AAAAAAAA") (str "hash") none (some (2 ^ 63)) none 0) []
    (by decide +kernel)
  have hopen : ((Session.after { conn := Sample.conn } []).perform (.createApiKey 1 none
    (str "emg_AAAAAAAA") (str "hash") none (some (2 ^ 63)) none 0)
    []).2.conn.inTransaction = true := by
    decide +kernel
  exact absurd (hopen.symm.trans hleft.1) (by decide)

end Session
end EasyModelGate
