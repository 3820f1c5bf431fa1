import EasyModelGate.Db.Dao

/-! # Calls from several processes

Any number of service calls on one database, from the gateway and from CLI processes. Each function
of `dao.py` is one step on what is committed: a query, or a writing statement with its commit. -/

namespace EasyModelGate

/-- The next step of a coroutine, on a connection without a transaction. What it leaves uncommitted
when it fails is lost. -/
def Db.atomic (c : Db α) (t : Tables) : Option (Db α × Tables) := do
  let (c, conn) ← c.advance Conn.handler { durable := t }
  match c with
  | .await .commit _ =>
    let (c, conn) ← c.advance Conn.handler conn
    return (c, conn.durable)
  | c => return (c, conn.durable)

structure Call (ι α : Type) where
  op : ι
  coro : Db α
  /-- The tables when the call was made. -/
  made : Tables
  /-- The tables on which it has taken its last step. -/
  seen : Tables

structure Processes (ι α : Type) where
  tables : Tables
  /-- In the order in which they were made. -/
  calls : List (Call ι α) := []

namespace Processes

inductive Label (ι : Type)
  | call (op : ι)
  | step (j : Nat)

/-- `coro` is what a call runs. -/
def step (coro : ι → Db α) (g : Processes ι α) : Label ι → Option (Processes ι α)
  | .call op =>
    some { g with
        calls := g.calls ++ [{ op, coro := coro op, made := g.tables, seen := g.tables }] }
  | .step j => do
    let call ← g.calls[j]?
    let (c, tables) ← call.coro.atomic g.tables
    return { tables, calls := g.calls.set j { call with coro := c, seen := g.tables } }

end Processes
end EasyModelGate
