import EasyModelGate.Lib.Coroutine
import EasyModelGate.Db.Schema

/-! # `db/database.py`: one connection to the database

Python's `sqlite3` opens an implicit transaction before a writing statement binds its parameters
and runs, and only `commit` closes it: no code rolls back. The transaction is deferred: it takes
its snapshot at the first statement that reads or writes inside it, and the write lock at the
first that writes. -/

namespace EasyModelGate

/-- An open transaction. -/
structure Tx where
  /-- The snapshot with the changes made so far, once there is a snapshot. -/
  view : Option Tables := none
  wrote : Bool := false
  /-- Another connection has committed since the snapshot was taken. -/
  stale : Bool := false

structure Conn where
  /-- What is committed, by any connection. -/
  durable : Tables := {}
  tx : Option Tx := none
  /-- Another connection holds the write lock. -/
  locked : Bool := false

inductive Stmt
  | query (q : Query)
  | dml (d : Dml)
  | commit

abbrev Stmt.Res : Stmt → Type
  | .query q => q.Res
  | .dml _ => Cursor
  | .commit => Unit

namespace Conn

def inTransaction (c : Conn) : Bool := c.tx.isSome

/-- What a query sees. -/
def view (c : Conn) : Tables := (c.tx.bind Tx.view).getD c.durable

/-- A query inside a transaction pins the snapshot. -/
def pin (c : Conn) : Conn :=
  { c with tx := c.tx.map fun tx => { tx with view := some c.view } }

/-- The implicit `BEGIN`. -/
def begin (c : Conn) : Conn :=
  { c with tx := some (c.tx.getD {}) }

/-- Whether a write is refused with `SQLITE_BUSY`. -/
def busy (c : Conn) : Bool := c.locked || c.tx.any Tx.stale

/-- The connection with the tables `t` after a write. -/
def written (c : Conn) (t : Tables) : Conn :=
  { c with tx := some { view := some t, wrote := true } }

def committed (c : Conn) : Conn :=
  { c with
    durable := match c.tx with
      | some { view := some t, wrote := true, .. } => t
      | _ => c.durable
    tx := none }

/-- A writing statement in an open transaction. -/
def write (c : Conn) (d : Dml) : Except PyExn Cursor × Conn :=
  match d.bind c.view with
  | .error e => (.error e, c)
  | .ok () =>
    if c.busy then (.error .operationalError, c)
    else match d.run c.view with
      | .error e => (.error e, c.written c.view)
      | .ok (cursor, t) => (.ok cursor, c.written t)

/-- One statement, where the database may raise an error of its own (`fault`). -/
def step (fault : Option PyExn) : (s : Stmt) → Conn → Except PyExn s.Res × Conn
  | .query q, c =>
    match fault, q.exec c.view with
    | some e, _ | none, .error e => (.error e, c)
    | none, .ok r => (.ok r, c.pin)
  | .dml d, c =>
    match fault with
    | some e => (.error e, c.begin)
    | none => c.begin.write d
  | .commit, c =>
    match fault with
    | some e => (.error e, c)
    | none => (.ok (), c.committed)

/-- The statements of a coroutine, on a database without faults of its own. -/
def handler : Coro.Handler Stmt Stmt.Res Exn Conn := fun s c =>
  ((step none s c).1.mapError Exn.py, (step none s c).2)

/-- The connection of another process: whether it has changed rows since its last commit, and
whether it has committed changes. -/
structure Other where
  conn : Conn
  dirty : Bool := false
  published : Bool := false

def Other.handler : Coro.Handler Stmt Stmt.Res Exn Other
  | .commit, o =>
    ((Conn.handler .commit o.conn).1,
      { conn := (Conn.handler .commit o.conn).2, published := o.published || o.dirty })
  | .dml d, o =>
    ((Conn.handler (.dml d) o.conn).1,
      { o with
        conn := (Conn.handler (.dml d) o.conn).2
        dirty := o.dirty || (step none (.dml d) o.conn).1.toOption.any fun cur =>
          decide (0 < cur.rowcount) })
  | .query q, o =>
    ((Conn.handler (.query q) o.conn).1, { o with conn := (Conn.handler (.query q) o.conn).2 })

/-- What a process of its own returns, and the connection after it has run: what it leaves open is
rolled back, and what it commits makes a pinned snapshot stale. -/
def outside (c : Conn) (p : Coro Stmt Stmt.Res Exn α) : Except Exn α × Conn :=
  let (r, o) :=
    p.run Other.handler { conn := { durable := c.durable, locked := c.tx.any Tx.wrote } }
  (r, { c with
    durable := o.conn.durable
    tx := c.tx.map fun tx => { tx with stale := tx.stale || (o.published && tx.view.isSome) } })

theorem step_query_ok {q : Query} {r : q.Res} (h : q.exec c.view = .ok r) :
    step none (.query q) c = (.ok r, c.pin) := by
  simp only [step, h]

theorem step_query_error {q : Query} {e : PyExn} (h : q.exec c.view = .error e) :
    step none (.query q) c = (.error e, c) := by
  simp only [step, h]

@[simp] theorem step_dml (d : Dml) (c : Conn) : step none (.dml d) c = c.begin.write d := rfl
@[simp] theorem step_commit (c : Conn) : step none .commit c = (.ok (), c.committed) := rfl

@[simp] theorem view_pin (c : Conn) : c.pin.view = c.view := by
  unfold pin view
  rcases c with ⟨d, _ | ⟨_ | v, w, st⟩, l⟩ <;> rfl

@[simp] theorem view_begin (c : Conn) : c.begin.view = c.view := by
  unfold begin view
  rcases c with ⟨d, _ | tx, l⟩ <;> rfl

@[simp] theorem view_written (c : Conn) (t : Tables) : (c.written t).view = t := rfl

@[simp] theorem durable_begin (c : Conn) : c.begin.durable = c.durable := rfl
@[simp] theorem durable_pin (c : Conn) : c.pin.durable = c.durable := rfl
@[simp] theorem durable_written (c : Conn) (t : Tables) : (c.written t).durable = c.durable := rfl
@[simp] theorem inTransaction_begin (c : Conn) : c.begin.inTransaction = true := rfl
@[simp] theorem inTransaction_written (c : Conn) (t : Tables) :
    (c.written t).inTransaction = true := rfl
@[simp] theorem inTransaction_committed (c : Conn) : c.committed.inTransaction = false := rfl
@[simp] theorem inTransaction_pin (c : Conn) : c.pin.inTransaction = c.inTransaction := by
  unfold pin inTransaction
  cases c.tx <;> rfl

end Conn
end EasyModelGate
