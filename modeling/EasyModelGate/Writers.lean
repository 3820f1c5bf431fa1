import EasyModelGate.Services.RequestLogging
import EasyModelGate.Services.UserService

/-! # Writers on one connection

The operations that write through the gateway's connection, and what happens when any number of
them run at once: each awaited statement is one step, and all of them share the connection's one
implicit transaction. -/

namespace EasyModelGate

/-- The writing functions of `dao.py`, `user_service.create_user` and `persist_request_log`, with
their arguments. -/
inductive WriteOp
  | daoCreateUser (username : Str) (displayName note : Option Str) (nowMs : Int)
  | createUser (username : Str) (displayName note : Option Str) (nowMs : Int)
  | setUserEnabled (username : Str) (enabled : Bool)
  | setUserEnabledById (userId : Int) (enabled : Bool)
  | createApiKey (userId : Int) (name : Option Str) (keyPrefix keyHash : Str)
      (expiresAt rpmLimit tokenLimit : Option Int) (nowMs : Int)
  | setKeyEnabledById (keyId : Int) (enabled : Bool)
  | setKeyLimitsById (keyId : Int) (rpmLimit tokenLimit : Option Int)
  | touchLastUsed (keyId : Int) (nowMs : Int)
  | setSetting (key value : Str)
  | persist (record : RequestLog Json) (keyId : Option Nat)

namespace WriteOp

private def ignore (c : Db α) : Db Unit := do
  let _ ← c

def coro : WriteOp → Db Unit
  | .daoCreateUser username displayName note nowMs =>
    ignore (Dao.createUser username displayName note nowMs)
  | .createUser username displayName note nowMs =>
    ignore (UserService.createUser username displayName note nowMs)
  | .setUserEnabled username enabled => ignore (Dao.setUserEnabled username enabled)
  | .setUserEnabledById userId enabled => ignore (Dao.setUserEnabledById userId enabled)
  | .createApiKey userId name keyPrefix keyHash expiresAt rpmLimit tokenLimit nowMs =>
    ignore (Dao.createApiKey userId name keyPrefix keyHash expiresAt rpmLimit tokenLimit nowMs)
  | .setKeyEnabledById keyId enabled => ignore (Dao.setKeyEnabledById keyId enabled)
  | .setKeyLimitsById keyId rpmLimit tokenLimit =>
    ignore (Dao.setKeyLimitsById keyId rpmLimit tokenLimit)
  | .touchLastUsed keyId nowMs => Dao.touchLastUsed keyId nowMs
  | .setSetting key value => Dao.setSetting key value
  | .persist record keyId => persistRequestLog record (keyId.map fun (id : Nat) => (id : Int))

end WriteOp

structure Writer where
  op : WriteOp
  coro : Db Unit
  /-- How many of its statements have run. -/
  steps : Nat := 0

/-- The connection, and the operations that have been started, in the order of their start. -/
structure Writers where
  conn : Conn
  writers : List Writer := []

namespace Writers

inductive Label
  | start (op : WriteOp)
  /-- The next statement of a writer. -/
  | statement (j : Nat)

def advance (g : Writers) (j : Nat) (w : Writer) : Option Writers := do
  let (coro, conn) ← w.coro.advance Conn.handler g.conn
  return { conn, writers := g.writers.set j { w with coro, steps := w.steps + 1 } }

def step (g : Writers) : Label → Option Writers
  | .start op => some { g with writers := g.writers ++ [{ op, coro := op.coro }] }
  | .statement j =>
    match g.writers[j]? with
    | some w => g.advance j w
    | none => none

end Writers
end EasyModelGate
