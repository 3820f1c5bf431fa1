import Mathlib.Logic.Relation
import EasyModelGate.Lib.Run

/-! # A pool of tickets

Any number of parties share a number of tickets. A party takes a ticket at most once; it gives it
back, or it goes away with it. In whatever order they move, the tickets add up. -/

namespace EasyModelGate

/-- What a party has done with its ticket. -/
inductive Ticket
  | none | held | returned | lost
  deriving DecidableEq

/-- The ticket is not in the pool. -/
def Ticket.out : Ticket → Bool
  | .held | .lost => true
  | _ => false

structure Pool where
  free : Nat
  /-- By the parties. -/
  tickets : List Ticket

namespace Pool

def count (p : Pool) (t : Ticket) : Nat := p.tickets.countP (· = t)

/-- What one party does. -/
inductive Move : Pool → Pool → Prop
  | join : Move p { p with tickets := p.tickets ++ [.none] }
  | take (hi : p.tickets[i]? = some .none) (hfree : 0 < p.free) :
    Move p ⟨p.free - 1, p.tickets.set i .held⟩
  | giveBack (hi : p.tickets[i]? = some .held) : Move p ⟨p.free + 1, p.tickets.set i .returned⟩
  | lose (hi : p.tickets[i]? = some .held) : Move p ⟨p.free, p.tickets.set i .lost⟩

/-- Any number of moves. -/
abbrev Moves : Pool → Pool → Prop := Relation.ReflTransGen Move

/-- The tickets that are there or out. -/
def total (p : Pool) : Nat := p.free + p.tickets.countP Ticket.out

theorem total_eq (p : Pool) : p.total = p.free + p.count .held + p.count .lost := by
  have hout (ts : List Ticket) : ts.countP Ticket.out = ts.countP (· = .held) +
      ts.countP (· = .lost) := by
    induction ts with
    | nil => rfl
    | cons t ts ih =>
      rw [List.countP_cons, List.countP_cons, List.countP_cons, ih]
      cases t <;> simp [Ticket.out] <;> omega
  rw [total, hout, ← Nat.add_assoc]
  rfl

theorem Move.total (h : Move p q) : q.total = p.total := by
  unfold Pool.total
  cases h with
  | join => simp [Ticket.out]
  | take hi hfree =>
    have hset := countP_set_add Ticket.out hi .held
    simp only [Ticket.out, Bool.toNat_true, Bool.toNat_false] at hset ⊢
    omega
  | giveBack hi =>
    have hset := countP_set_add Ticket.out hi .returned
    simp only [Ticket.out, Bool.toNat_true, Bool.toNat_false] at hset ⊢
    omega
  | lose hi =>
    have hset := countP_set_add Ticket.out hi .lost
    simp only [Ticket.out, Bool.toNat_true] at hset ⊢
    omega

/-- **The tickets add up** after any moves. -/
theorem Moves.total (h : Moves p q) : q.total = p.total := by
  induction h with
  | refl => rfl
  | tail _ hmove ih => exact hmove.total.trans ih

end Pool
end EasyModelGate
