import EasyModelGate.Lib.Coroutine

/-! # Coroutines that do the same under a renaming

Two coroutines correspond when the second awaits what the first awaits, renamed, and goes on in the
same way with the renamed result. A handler that respects the renaming then takes both through the
same states, renamed. -/

namespace EasyModelGate

/-- A renaming of operations, and of their results. -/
structure Renaming (Op : Type) (Res : Op → Type) where
  op : Op → Op
  res : ∀ o, Res o → Res (op o)

variable {Op : Type} {Res : Op → Type} {ε α β γ δ σ : Type}

/-- The handler answers renamed operations in renamed states with renamed results. -/
def Renaming.Respects (ρ : Renaming Op Res) (S : σ → σ) (h : Coro.Handler Op Res ε σ) : Prop :=
  ∀ o s, h (ρ.op o) (S s) = ((h o s).1.map (ρ.res o), S (h o s).2)

namespace Coro

/-- The second coroutine is the first one, renamed: they end with results that `R` relates, or with
one exception. -/
inductive Renamed (ρ : Renaming Op Res) (R : α → β → Prop) :
    Coro Op Res ε α → Coro Op Res ε β → Prop
  | ret {a b} (h : R a b) : Renamed ρ R (.ret a) (.ret b)
  | raise {e} : Renamed ρ R (.raise e) (.raise e)
  | await {o k k'} (h : ∀ r, Renamed ρ R (k r) (k' (r.map (ρ.res o)))) :
    Renamed ρ R (.await o k) (.await (ρ.op o) k')

variable {ρ : Renaming Op Res} {R : α → β → Prop} {c : Coro Op Res ε α} {c' : Coro Op Res ε β}

theorem Renamed.mono {R' : α → β → Prop} (hc : c.Renamed ρ R c') (hR : ∀ a b, R a b → R' a b) :
    c.Renamed ρ R' c' := by
  induction hc with
  | ret h => exact .ret (hR _ _ h)
  | raise => exact .raise
  | await _ ih => exact .await ih

theorem Renamed.bind {R' : γ → δ → Prop} {f : α → Coro Op Res ε γ} {f' : β → Coro Op Res ε δ}
    (hc : c.Renamed ρ R c') (hf : ∀ a b, R a b → (f a).Renamed ρ R' (f' b)) :
    (c >>= f).Renamed ρ R' (c' >>= f') := by
  induction hc with
  | ret h => exact hf _ _ h
  | raise => exact .raise
  | await _ ih => exact .await ih

theorem Renamed.handle {f : ε → Coro Op Res ε α} {f' : ε → Coro Op Res ε β} (hc : c.Renamed ρ R c')
    (hf : ∀ e, (f e).Renamed ρ R (f' e)) : (c.handle f).Renamed ρ R (c'.handle f') := by
  induction hc with
  | ret h => exact .ret h
  | raise => exact hf _
  | await _ ih => exact .await ih

theorem Renamed.perform (ρ : Renaming Op Res) (o : Op) :
    (perform o : Coro Op Res ε _).Renamed ρ (fun r r' => r' = ρ.res o r) (perform (ρ.op o)) := by
  apply Renamed.await
  intro r
  cases r with
  | ok r => exact .ret rfl
  | error e => exact .raise

theorem Renamed.ended (hc : c.Renamed ρ R c') : c'.ended = c.ended := by
  cases hc <;> rfl

/-! ## Runs -/

variable {h : Handler Op Res ε σ} {S : σ → σ}

/-- What one awaited operation makes of both. -/
theorem Renamed.advance (hc : c.Renamed ρ R c') (hh : ρ.Respects S h)
    {d : Coro Op Res ε α} {s s₁ : σ} (hadv : c.advance h s = some (d, s₁)) :
    ∃ d', c'.advance h (S s) = some (d', S s₁) ∧ d.Renamed ρ R d' := by
  cases hc with
  | ret | raise => cases hadv
  | @await o k k' hk =>
    cases hadv
    refine ⟨_, ?_, hk (h o s).1⟩
    change some (k' (h (ρ.op o) (S s)).1, (h (ρ.op o) (S s)).2) = _
    rw [hh]

/-- A stretch of both, up to the next operation that suspends. -/
theorem Renamed.settle {instant : Op → Bool} (hc : c.Renamed ρ R c') (hh : ρ.Respects S h)
    (hinstant : ∀ o, instant (ρ.op o) = instant o) (s : σ) :
    (c.settle h instant s).1.Renamed ρ R (c'.settle h instant (S s)).1 ∧
      (c'.settle h instant (S s)).2 = S (c.settle h instant s).2 := by
  induction hc generalizing s with
  | ret h => exact ⟨.ret h, rfl⟩
  | raise => exact ⟨.raise, rfl⟩
  | @await o k k' hk ih =>
    cases hi : instant o with
    | false =>
      rw [Coro.settle, if_neg (Bool.eq_false_iff.mp hi), Coro.settle,
        if_neg (by rw [hinstant, hi]; exact Bool.false_ne_true)]
      exact ⟨.await hk, rfl⟩
    | true =>
      rw [Coro.settle, if_pos hi, Coro.settle, if_pos ((hinstant o).trans hi), hh]
      exact ih (h o s).1 (h o s).2

/-- Both run to their ends. -/
theorem Renamed.run (hc : c.Renamed ρ R c') (hh : ρ.Respects S h) (s : σ) :
    (c'.run h (S s)).2 = S (c.run h s).2 ∧
      ((∃ a b, (c.run h s).1 = .ok a ∧ (c'.run h (S s)).1 = .ok b ∧ R a b) ∨
        ∃ e, (c.run h s).1 = .error e ∧ (c'.run h (S s)).1 = .error e) := by
  induction hc generalizing s with
  | ret h => exact ⟨rfl, .inl ⟨_, _, rfl, rfl, h⟩⟩
  | raise => exact ⟨rfl, .inr ⟨_, rfl, rfl⟩⟩
  | @await o k k' _ ih =>
    have hrun : (Coro.await (ρ.op o) k').run h (S s) =
        (k' ((h o s).1.map (ρ.res o))).run h (S (h o s).2) := by
      rw [Coro.run, hh]
    rw [hrun]
    exact ih (h o s).1 (h o s).2

end Coro
end EasyModelGate
