import Mathlib.Logic.Basic

/-! # Coroutines

A coroutine runs until it awaits an operation, and goes on with the result or the exception. The
operations are interpreted by a handler over a shared state; `run` lets one coroutine run to its
end, `advance` is one awaited operation, the unit of interleaving. -/

namespace EasyModelGate

/-- A coroutine that returns an `α`, raises an `ε` or awaits one of the operations `Op`. -/
inductive Coro (Op : Type) (Res : Op → Type) (ε α : Type)
  | ret (a : α)
  | raise (e : ε)
  | await (op : Op) (k : Except ε (Res op) → Coro Op Res ε α)

namespace Coro

variable {Op : Type} {Res : Op → Type} {ε α β σ : Type}

def bind : Coro Op Res ε α → (α → Coro Op Res ε β) → Coro Op Res ε β
  | .ret a, f => f a
  | .raise e, _ => .raise e
  | .await op k, f => .await op fun r => (k r).bind f

instance : Monad (Coro Op Res ε) where
  pure := .ret
  bind := .bind

/-- `try: ... except` -/
def handle : Coro Op Res ε α → (ε → Coro Op Res ε α) → Coro Op Res ε α
  | .ret a, _ => .ret a
  | .raise e, f => f e
  | .await op k, f => .await op fun r => (k r).handle f

/-- `await op`, passing an exception on. -/
def perform (op : Op) : Coro Op Res ε (Res op) :=
  .await op fun
    | .ok r => .ret r
    | .error e => .raise e

@[simp] theorem ret_bind (a : α) (f : α → Coro Op Res ε β) : (Coro.ret a >>= f) = f a := rfl
@[simp] theorem pure_eq (a : α) : (pure a : Coro Op Res ε α) = .ret a := rfl
@[simp] theorem raise_bind (e : ε) (f : α → Coro Op Res ε β) :
    (Coro.raise e >>= f) = .raise e := rfl
@[simp] theorem await_bind (op : Op) (k : Except ε (Res op) → Coro Op Res ε α)
    (f : α → Coro Op Res ε β) : (Coro.await op k >>= f) = .await op fun r => k r >>= f := rfl

protected theorem bind_assoc {γ : Type} (c : Coro Op Res ε α) (f : α → Coro Op Res ε β)
    (g : β → Coro Op Res ε γ) : ((c >>= f) >>= g) = c >>= fun a => f a >>= g := by
  induction c with
  | ret | raise => rfl
  | await op k ih => exact congrArg (Coro.await op) (funext ih)

/-! ## Running alone -/

/-- What an operation does to the shared state. -/
abbrev Handler (Op : Type) (Res : Op → Type) (ε σ : Type) :=
  (op : Op) → σ → Except ε (Res op) × σ

def run (h : Handler Op Res ε σ) : Coro Op Res ε α → σ → Except ε α × σ
  | .ret a, s => (.ok a, s)
  | .raise e, s => (.error e, s)
  | .await op k, s => (k (h op s).1).run h (h op s).2

variable {h : Handler Op Res ε σ}

@[simp] theorem run_ret (a : α) (s : σ) : (Coro.ret a : Coro Op Res ε α).run h s = (.ok a, s) := rfl
@[simp] theorem run_raise (e : ε) (s : σ) :
    (Coro.raise e : Coro Op Res ε α).run h s = (.error e, s) := rfl

theorem run_bind (c : Coro Op Res ε α) (f : α → Coro Op Res ε β) (s : σ) :
    (c >>= f).run h s = match c.run h s with
      | (.ok a, s) => (f a).run h s
      | (.error e, s) => (.error e, s) := by
  induction c generalizing s with
  | ret a => rfl
  | raise e => rfl
  | await op k ih => exact ih _ _

theorem run_perform (op : Op) (s : σ) : (perform op : Coro Op Res ε _).run h s = h op s := by
  unfold perform run
  rcases h op s with ⟨_ | _, _⟩ <;> rfl

theorem run_handle (c : Coro Op Res ε α) (f : ε → Coro Op Res ε α) (s : σ) :
    (c.handle f).run h s = match c.run h s with
      | (.ok a, s) => (.ok a, s)
      | (.error e, s) => (f e).run h s := by
  induction c generalizing s with
  | ret a => rfl
  | raise e => rfl
  | await op k ih => exact ih _ _

theorem run_handle_ok {c : Coro Op Res ε α} {s' : σ} (hc : c.run h s = (.ok a, s'))
    (f : ε → Coro Op Res ε α) :
    (c.handle f).run h s = (.ok a, s') := by
  rw [run_handle, hc]

theorem run_handle_error {c : Coro Op Res ε α} {s' : σ} (hc : c.run h s = (.error e, s'))
    (f : ε → Coro Op Res ε α) :
    (c.handle f).run h s = (f e).run h s' := by
  rw [run_handle, hc]

/-- What every operation preserves, a whole run preserves. -/
theorem run_invariant {I : σ → Prop} (hI : ∀ op s, I s → I (h op s).2) (c : Coro Op Res ε α) (s : σ)
    (hs : I s) : I (c.run h s).2 := by
  induction c generalizing s with
  | ret a => exact hs
  | raise e => exact hs
  | await op k ih => exact ih _ _ (hI op s hs)

/-- A handler that keeps more than another one runs a coroutine in the same way. -/
theorem run_project {τ : Type} {h' : Handler Op Res ε τ} (f : τ → σ)
    (hf : ∀ op t, (h op (f t)).1 = (h' op t).1 ∧ (h op (f t)).2 = f (h' op t).2)
    (c : Coro Op Res ε α) (t : τ) : c.run h (f t) = ((c.run h' t).1, f (c.run h' t).2) := by
  induction c generalizing t with
  | ret | raise => rfl
  | await op k ih =>
    obtain ⟨h₁, h₂⟩ := hf op t
    change (k (h op (f t)).1).run h (h op (f t)).2 = _
    rw [h₁, h₂]
    exact ih _ _

/-! ## Postconditions -/

/-- Run from `s`, the coroutine returns with `Q` or raises with `E`. -/
def Meets (h : Handler Op Res ε σ) (s : σ) (c : Coro Op Res ε α) (Q : α → σ → Prop)
    (E : ε → σ → Prop) : Prop :=
  match c.run h s with
  | (.ok a, s') => Q a s'
  | (.error e, s') => E e s'

variable {Q : α → σ → Prop} {E E' : ε → σ → Prop} {s : σ}

theorem Meets.ret {a : α} (hQ : Q a s) : (Coro.ret a : Coro Op Res ε α).Meets h s Q E := hQ

theorem Meets.raise {e : ε} (hE : E e s) : (Coro.raise e : Coro Op Res ε α).Meets h s Q E := hE

theorem Meets.mono {Q' : α → σ → Prop} {c : Coro Op Res ε α} (hc : c.Meets h s Q E)
    (hQ : ∀ a s', Q a s' → Q' a s') (hE : ∀ e s', E e s' → E' e s') : c.Meets h s Q' E' := by
  unfold Meets at *
  rcases hr : c.run h s with ⟨e | a, s'⟩ <;> rw [hr] at hc
  · exact hE _ _ hc
  · exact hQ _ _ hc

theorem Meets.bind {R : β → σ → Prop} {c : Coro Op Res ε α} {f : α → Coro Op Res ε β}
    (hc : c.Meets h s Q E) (hf : ∀ a s', Q a s' → (f a).Meets h s' R E) :
    (c >>= f).Meets h s R E := by
  unfold Meets at *
  rw [run_bind]
  rcases hr : c.run h s with ⟨e | a, s'⟩ <;> rw [hr] at hc
  · exact hc
  · exact hf _ _ hc

theorem Meets.handle {c : Coro Op Res ε α} {f : ε → Coro Op Res ε α} (hc : c.Meets h s Q E)
    (hf : ∀ e s', E e s' → (f e).Meets h s' Q E') : (c.handle f).Meets h s Q E' := by
  unfold Meets at *
  rw [run_handle]
  rcases hr : c.run h s with ⟨e | a, s'⟩ <;> rw [hr] at hc
  · exact hf _ _ hc
  · exact hc

theorem Meets.perform {op : Op} {Q : Res op → σ → Prop}
    (hok : ∀ r, (h op s).1 = .ok r → Q r (h op s).2)
    (herror : ∀ e, (h op s).1 = .error e → E e (h op s).2) :
    (Coro.perform op : Coro Op Res ε _).Meets h s Q E := by
  unfold Meets
  rw [run_perform]
  rcases hr : h op s with ⟨e | r, s'⟩ <;> rw [hr] at hok herror
  · exact herror e rfl
  · exact hok r rfl

/-- Run from `s`, the coroutine raises nothing but what satisfies `P`. -/
def RaisesOnly (h : Handler Op Res ε σ) (P : ε → Prop) (s : σ) (c : Coro Op Res ε α) : Prop :=
  ∀ e, (c.run h s).1 = .error e → P e

section
variable {P : ε → Prop} {c : Coro Op Res ε α}

theorem RaisesOnly.ret {a : α} : (Coro.ret a : Coro Op Res ε α).RaisesOnly h P s :=
  fun _ he => nomatch he

theorem raisesOnly_bind {f : α → Coro Op Res ε β} : (c >>= f).RaisesOnly h P s ↔
    c.RaisesOnly h P s ∧ ∀ a s', c.run h s = (.ok a, s') → (f a).RaisesOnly h P s' := by
  unfold RaisesOnly
  rw [run_bind]
  rcases hr : c.run h s with ⟨e | a, s'⟩
  · constructor
    · refine fun hc => ⟨?_, fun _ _ h => nomatch h⟩
      rintro _ ⟨⟩
      exact hc e rfl
    · rintro hc _ ⟨⟩
      exact hc.1 e rfl
  · constructor
    · refine fun hc => ⟨fun _ he' => (nomatch he'), ?_⟩
      rintro _ _ ⟨⟩
      exact hc
    · exact fun hc => hc.2 a s' rfl

/-- A first part whose run is known. -/
theorem raisesOnly_bind_run {f : α → Coro Op Res ε β} {x : Except ε α} {s' : σ}
    (hc : c.run h s = (x, s')) :
    (c >>= f).RaisesOnly h P s ↔ (∀ e, x = .error e → P e) ∧ ∀ a, x = .ok a →
    (f a).RaisesOnly h P s' := by
  rw [raisesOnly_bind, RaisesOnly, hc]
  refine and_congr_right fun _ => ⟨fun hf a ha => hf a s' (by rw [ha]), ?_⟩
  rintro hf a _ ⟨⟩
  exact hf a rfl

end

/-! ## Running among others -/

/-- One awaited operation. A coroutine that has ended does not move. -/
def advance (h : Handler Op Res ε σ) : Coro Op Res ε α → σ → Option (Coro Op Res ε α × σ)
  | .await op k, s => some (k (h op s).1, (h op s).2)
  | _, _ => none

/-- The operations that `instant` names do not suspend: up to the next one that does. -/
def settle (h : Handler Op Res ε σ) (instant : Op → Bool) :
    Coro Op Res ε α → σ → Coro Op Res ε α × σ
  | .ret a, s => (.ret a, s)
  | .raise e, s => (.raise e, s)
  | .await op k, s =>
    if instant op then (k (h op s).1).settle h instant (h op s).2 else (.await op k, s)

/-- A first operation that does not suspend. -/
theorem settle_perform {instant : Op → Bool} {op : Op} (hop : instant op = true)
    (f : Res op → Coro Op Res ε α) (s : σ) :
    (perform op >>= f).settle h instant s = ((match (h op s).1 with
      | .ok r => f r
      | .error e => .raise e) : Coro Op Res ε α).settle h instant (h op s).2 := by
  change (if instant op then _ else _) = _
  rw [if_pos hop]
  cases (h op s).1 <;> rfl

/-- The operations of a coroutine as operations of a larger signature. -/
def embed {Op' : Type} {Res' : Op' → Type} (f : Op → Op')
    (g : ∀ op, Except ε (Res' (f op)) → Except ε (Res op)) :
    Coro Op Res ε α → Coro Op' Res' ε α
  | .ret a => .ret a
  | .raise e => .raise e
  | .await op k => .await (f op) fun r => (k (g op r)).embed f g

theorem embed_bind {Op' : Type} {Res' : Op' → Type} {f : Op → Op'}
    {g : ∀ op, Except ε (Res' (f op)) → Except ε (Res op)} (c : Coro Op Res ε α)
    (k : α → Coro Op Res ε β) :
    (c >>= k).embed f g = c.embed f g >>= fun a => (k a).embed f g := by
  induction c with
  | ret | raise => rfl
  | await op _ ih => exact congrArg (Coro.await (f op)) (funext fun r => ih (g op r))

/-- What the operations do in the larger signature, the coroutine does in it. -/
theorem run_embed {Op' : Type} {Res' : Op' → Type} {τ : Type} {h' : Handler Op' Res' ε τ}
    {f : Op → Op'} {g : ∀ op, Except ε (Res' (f op)) → Except ε (Res op)} (p : τ → σ)
    (hf : ∀ op t, g op (h' (f op) t).1 = (h op (p t)).1 ∧ p (h' (f op) t).2 = (h op (p t)).2)
    (c : Coro Op Res ε α) (t : τ) :
    ((c.embed f g).run h' t).1 = (c.run h (p t)).1 ∧
    p ((c.embed f g).run h' t).2 = (c.run h (p t)).2 := by
  induction c generalizing t with
  | ret | raise => exact ⟨rfl, rfl⟩
  | await op k ih =>
    obtain ⟨h₁, h₂⟩ := hf op t
    have hk := ih (h op (p t)).1 (h' (f op) t).2
    rw [h₂] at hk
    rw [embed, run, h₁, run]
    exact hk

/-- The step of a coroutine that first performs `op`. -/
theorem advance_perform (op : Op) (f : Res op → Coro Op Res ε α) (s : σ) :
    (perform op >>= f).advance h s = some ((match (h op s).1 with
      | .ok r => f r
      | .error e => .raise e), (h op s).2) := by
  change some (((match (h op s).1 with
    | .ok r => .ret r
    | .error e => .raise e : Coro Op Res ε (Res op)) >>= f), (h op s).2) = _
  cases (h op s).1 <;> rfl

theorem exists_op_of_advance {c c' : Coro Op Res ε α} {s s' : σ}
    (hadv : c.advance h s = some (c', s')) :
    ∃ op, s' = (h op s).2 := by
  cases c with
  | ret | raise => cases hadv
  | await op k =>
    cases hadv
    exact ⟨op, rfl⟩

/-- The operation that the coroutine awaits. -/
def next? : Coro Op Res ε α → Option Op
  | .await op _ => some op
  | _ => none

def ended : Coro Op Res ε α → Bool
  | .await .. => false
  | _ => true

/-! ## The operations of a coroutine -/

/-- Every operation that the coroutine can still await satisfies `P`. -/
inductive All (P : Op → Prop) : Coro Op Res ε α → Prop
  | ret {a} : All P (.ret a)
  | raise {e} : All P (.raise e)
  | await {op k} (hop : P op) (hk : ∀ r, All P (k r)) : All P (.await op k)

variable {P : Op → Prop}

theorem All.bind {c : Coro Op Res ε α} {f : α → Coro Op Res ε β} (hc : c.All P)
    (hf : ∀ a, (f a).All P) : (c >>= f).All P := by
  induction hc with
  | ret => exact hf _
  | raise => exact .raise
  | await hop _ ih => exact .await hop ih

theorem All.handle {c : Coro Op Res ε α} {f : ε → Coro Op Res ε α} (hc : c.All P)
    (hf : ∀ e, (f e).All P) : (c.handle f).All P := by
  induction hc with
  | ret => exact .ret
  | raise => exact hf _
  | await hop _ ih => exact .await hop ih

theorem All.perform (hop : P op) : (Coro.perform op : Coro Op Res ε _).All P := by
  refine .await hop fun r => ?_
  cases r
  · exact .raise
  · exact .ret

/-- Two facts about the operations. -/
theorem All.and {Q : Op → Prop} {c : Coro Op Res ε α} (hP : c.All P) (hQ : c.All Q) :
    c.All fun op => P op ∧ Q op := by
  induction hP with
  | ret => exact .ret
  | raise => exact .raise
  | await hop _ ih =>
    cases hQ with
    | await hop' hk => exact .await ⟨hop, hop'⟩ fun r => ih r (hk r)

/-- What the operations of a coroutine preserve, a stretch of it preserves. -/
theorem All.settle {I : σ → Prop} {instant : Op → Bool} {c : Coro Op Res ε α} (hc : c.All P)
    (hI : ∀ op s, P op → I s → I (h op s).2) {s : σ} (hs : I s) :
    (c.settle h instant s).1.All P ∧ I (c.settle h instant s).2 := by
  induction hc generalizing s with
  | ret => exact ⟨.ret, hs⟩
  | raise => exact ⟨.raise, hs⟩
  | @await op k hop hk ih =>
    cases hinstant : instant op with
    | true =>
      rw [Coro.settle, if_pos hinstant]
      exact ih _ (hI op s hop hs)
    | false =>
      rw [Coro.settle, if_neg (Bool.eq_false_iff.mp hinstant)]
      exact ⟨.await hop hk, hs⟩

theorem All.embed {Op' : Type} {Res' : Op' → Type} {Q : Op' → Prop} {f : Op → Op'}
    {g : ∀ op, Except ε (Res' (f op)) → Except ε (Res op)} (hQ : ∀ op, Q (f op))
    (c : Coro Op Res ε α) :
    (c.embed f g).All Q := by
  induction c with
  | ret => exact .ret
  | raise => exact .raise
  | await op k ih => exact .await (hQ op) fun r => ih _

/-- One awaited operation of a coroutine whose operations are known. -/
theorem All.advance {c c' : Coro Op Res ε α} {s s' : σ} (hc : c.All P)
    (hadv : c.advance h s = some (c', s')) :
    ∃ op, c.next? = some op ∧ P op ∧ s' = (h op s).2 ∧ c'.All P := by
  cases hc with
  | ret | raise => cases hadv
  | @await op k hop hk =>
    cases hadv
    exact ⟨op, rfl, hop, rfl, hk _⟩

/-- The coroutine awaits `ops` in turn and returns; it raises when one of them fails. -/
inductive Follows : List Op → Coro Op Res ε α → Prop
  | ret {a} : Follows [] (.ret a)
  | await {op ops k} (hok : ∀ r, Follows ops (k (.ok r)))
    (herror : ∀ e, ∃ e', k (.error e) = .raise e') : Follows (op :: ops) (.await op k)

theorem Follows.bind {c : Coro Op Res ε α} {f : α → Coro Op Res ε β} (hc : c.Follows ops)
    (hf : ∀ a, (f a).Follows ops') : (c >>= f).Follows (ops ++ ops') := by
  induction hc with
  | ret => exact hf _
  | await _ herror ih =>
    refine .await ih fun e => ?_
    obtain ⟨e', he⟩ := herror e
    exact ⟨e', by rw [he]; rfl⟩

theorem Follows.perform (op : Op) : (Coro.perform op : Coro Op Res ε _).Follows [op] :=
  .await (fun _ => .ret) fun e => ⟨e, rfl⟩

theorem Follows.eq_ret {c : Coro Op Res ε α} (hc : c.Follows []) : ∃ a, c = .ret a := by
  cases hc
  exact ⟨_, rfl⟩

theorem Follows.ended_iff {c : Coro Op Res ε α} (hc : c.Follows ops) : c.ended = true ↔
    ops = [] := by
  cases hc <;> simp [ended]

theorem next?_of_follows {c : Coro Op Res ε α} (hc : c.Follows (op :: ops)) :
    c.next? = some op := by
  cases hc
  rfl

/-- One awaited operation: when it succeeds the coroutine goes on, else it raises. -/
theorem Follows.advance {c c' : Coro Op Res ε α} {s s' : σ} (hc : c.Follows ops)
    (hadv : c.advance h s = some (c', s')) :
    ∃ op ops', ops = op :: ops' ∧ s' = (h op s).2 ∧
      ((∃ r, (h op s).1 = .ok r) ∧ c'.Follows ops' ∨
        (∃ e, (h op s).1 = .error e) ∧ ∃ e', c' = .raise e') := by
  cases hc with
  | ret => cases hadv
  | @await op ops' k hok herror =>
    cases hadv
    refine ⟨op, ops', rfl, rfl, ?_⟩
    cases hr : (h op s).1 with
    | ok r => exact .inl ⟨⟨r, rfl⟩, hok r⟩
    | error e => exact .inr ⟨⟨e, rfl⟩, herror e⟩

end Coro
end EasyModelGate
