import Mathlib.Algebra.BigOperators.Group.List.Basic
import Mathlib.Data.List.Forall2
import Mathlib.Data.List.Induction

/-! # Runs of a labelled transition system

A system is a partial function `step : σ → ℓ → Option σ`: the label says which party moves and how
its environment answers. A property of every state that a run reaches is proved once, from what
one step preserves; a run whose steps all meet a condition is a run of the restricted system. -/

namespace EasyModelGate

variable {σ ℓ π : Type*} {step : σ → ℓ → Option σ}

/-- `Run step s ls t`: the labels `ls` take `s` to `t`. -/
inductive Run (step : σ → ℓ → Option σ) : σ → List ℓ → σ → Prop
  | nil : Run step s [] s
  | snoc : Run step s ls t → step t l = some u → Run step s (ls ++ [l]) u

namespace Run

theorem of_foldlM : ∀ {ls : List ℓ} {s t : σ}, ls.foldlM step s = some t → Run step s ls t := by
  intro ls
  induction ls using List.reverseRecOn with
  | nil => intro s t h; cases h; exact .nil
  | append_singleton ls l ih =>
    intro s t h
    rw [List.foldlM_append] at h
    obtain ⟨u, hu, h⟩ := Option.bind_eq_some_iff.mp h
    simp only [List.foldlM_cons, List.foldlM_nil, bind_pure] at h
    exact .snoc (ih hu) h

theorem foldlM (h : Run step s ls t) : ls.foldlM step s = some t := by
  induction h with
  | nil => rfl
  | snoc _ hstep ih => simp [List.foldlM_append, ih, hstep]

theorem append (h : Run step s ls t) (h' : Run step t ls' u) : Run step s (ls ++ ls') u := by
  induction h' with
  | nil => rwa [List.append_nil]
  | snoc _ hstep ih =>
    rw [← List.append_assoc]
    exact .snoc ih hstep

/-- A run that can be computed, to a state that passes a test. -/
theorem exists_of_any {p : σ → Bool} (h : (ls.foldlM step s).any p = true) :
    ∃ t, Run step s ls t ∧ p t = true := by
  obtain ⟨t, ht, hp⟩ := (Option.any_eq_true ..).mp h
  exact ⟨t, of_foldlM ht, hp⟩

/-- **The run rule**: what holds at the start and is preserved by every step holds wherever a run
ends. -/
theorem invariant {I : σ → Prop} (hI : ∀ s l t, I s → step s l = some t → I t)
    (h : Run step s ls t) (hs : I s) : I t := by
  induction h with
  | nil => exact hs
  | snoc _ hstep ih => exact hI _ _ _ ih hstep

/-- The run rule for an invariant that also speaks of the labels so far. -/
theorem history {I : List ℓ → σ → Prop}
    (hI : ∀ ls s l t, I ls s → step s l = some t → I (ls ++ [l]) t) (h : Run step s ls t)
    (hs : I [] s) : I ls t := by
  induction h with
  | nil => exact hs
  | snoc _ hstep ih => exact hI _ _ _ _ ih hstep

end Run

/-- The system with only the steps that meet `ok`. -/
def restrict (step : σ → ℓ → Option σ) (ok : σ → ℓ → Prop) [∀ s l, Decidable (ok s l)] (s : σ)
    (l : ℓ) : Option σ :=
  if ok s l then step s l else none

theorem restrict_eq_some {ok : σ → ℓ → Prop} [∀ s l, Decidable (ok s l)] :
    restrict step ok s l = some t ↔ ok s l ∧ step s l = some t := by
  unfold restrict
  split <;> simp_all

theorem Run.of_restrict {ok : σ → ℓ → Prop} [∀ s l, Decidable (ok s l)]
    (h : Run (restrict step ok) s ls t) :
    Run step s ls t := by
  induction h with
  | nil => exact .nil
  | snoc _ hstep ih => exact .snoc ih (restrict_eq_some.mp hstep).2

/-! ## What the steps of a run bring -/

/-- What `f` tells of the steps that the labels take, one after the other. -/
def gather (step : σ → ℓ → Option σ) (f : σ → ℓ → List β) : σ → List ℓ → List β
  | _, [] => []
  | s, l :: ls => f s l ++ ((step s l).map fun t => gather step f t ls).getD []

theorem Run.gather_concat {f : σ → ℓ → List β} (h : Run step s ls t) (l : ℓ) :
    gather step f s (ls ++ [l]) = gather step f s ls ++ f t l := by
  have hfold := h.foldlM
  clear h
  induction ls generalizing s with
  | nil =>
    cases hfold
    have hnil : ((step t l).map fun _ => ([] : List β)).getD [] = [] := by
      cases step t l <;> rfl
    simp only [List.nil_append, gather, hnil, List.append_nil]
  | cons l₀ ls ih =>
    rw [List.foldlM_cons] at hfold
    obtain ⟨s₁, hstep, hfold⟩ := Option.bind_eq_some_iff.mp hfold
    rw [List.cons_append, gather, gather, hstep, Option.map_some, Option.map_some, Option.getD_some,
      Option.getD_some, ih hfold, List.append_assoc]

/-! ## Parties -/

/-- A property of every party survives the replacement of one. -/
theorem forall_mem_set {P : π → Prop} {xs : List π} (h : ∀ x ∈ xs, P x) (i : Nat)
    {y : π} (hy : P y) :
    ∀ x ∈ xs.set i y, P x := by
  intro x hx
  rcases List.mem_or_eq_of_mem_set hx with hx | rfl
  · exact h x hx
  · exact hy

/-- What stands at a place after a replacement. -/
theorem getElem?_set_cases {xs : List π} (h : (xs.set i y)[j]? = some x) :
    j = i ∧ x = y ∨ j ≠ i ∧ xs[j]? = some x := by
  by_cases hji : j = i
  · subst hji
    rw [List.getElem?_set_self'] at h
    cases hx : xs[j]? <;> rw [hx] at h <;> cases h
    exact .inl ⟨rfl, rfl⟩
  · rw [List.getElem?_set_ne (Ne.symm hji)] at h
    exact .inr ⟨hji, h⟩

theorem getElem?_concat_cases {xs : List π} (h : (xs ++ [y])[j]? = some x) :
    xs[j]? = some x ∨ j = xs.length ∧ x = y := by
  rw [List.getElem?_append] at h
  split at h
  · exact .inl h
  · rw [List.getElem?_singleton] at h
    split at h <;> cases h
    exact .inr ⟨by omega, rfl⟩

/-- Replacing one party changes a sum by the difference of its weights. -/
theorem sum_map_set {M : Type*} [AddCommMonoid M] (w : π → M) {ps : List π} {i : Nat} {p : π}
    (h : ps[i]? = some p) (q : π) :
    ((ps.set i q).map w).sum + w p = (ps.map w).sum + w q := by
  induction ps generalizing i with
  | nil => simp at h
  | cons a ps ih =>
    cases i with
    | zero =>
      simp only [List.getElem?_cons_zero, Option.some.injEq] at h
      subst h
      simp only [List.set_cons_zero, List.map_cons, List.sum_cons]
      rw [add_comm (w q), add_right_comm, add_comm (w a)]
    | succ i =>
      simp only [List.getElem?_cons_succ] at h
      simp only [List.set_cons_succ, List.map_cons, List.sum_cons, add_assoc, ih h]

/-- Replacing one party changes a count by the difference of what counts of it. -/
theorem countP_set_add (p : π → Bool) {ps : List π} {i : Nat} {x : π}
    (h : ps[i]? = some x) (y : π) :
    (ps.set i y).countP p + (p x).toNat = ps.countP p + (p y).toNat := by
  have hcount (ps : List π) : ps.countP p = (ps.map fun x => (p x).toNat).sum := by
    induction ps with
    | nil => rfl
    | cons a ps ih => cases ha : p a <;> simp [ha, ih, add_comm]
  rw [hcount, hcount]
  exact sum_map_set _ h y

/-- The parties that count, after one is replaced that did not. -/
theorem filterMap_set_perm {f : π → Option β} {ps : List π} {i : Nat} {x y : π}
    (h : ps[i]? = some x) (hx : f x = none) :
    ((ps.set i y).filterMap f).Perm (ps.filterMap f ++ (f y).toList) := by
  induction ps generalizing i with
  | nil => simp at h
  | cons a ps ih =>
    cases i with
    | zero =>
      simp only [List.getElem?_cons_zero, Option.some.injEq] at h
      subst h
      rw [List.set_cons_zero, List.filterMap_cons_none hx]
      cases hy : f y with
      | none => simp [List.filterMap_cons_none hy]
      | some b =>
        rw [List.filterMap_cons_some hy]
        exact (List.perm_append_singleton b _).symm
    | succ i =>
      simp only [List.getElem?_cons_succ] at h
      rw [List.set_cons_succ]
      cases ha : f a with
      | none =>
        rw [List.filterMap_cons_none ha, List.filterMap_cons_none ha]
        exact ih h
      | some b =>
        rw [List.filterMap_cons_some ha, List.filterMap_cons_some ha]
        exact (ih h).cons b

/-- What counts is the same, after a party is replaced by one of which the same counts. -/
theorem filterMap_set_same {f : π → Option β} {ps : List π} {i : Nat} {x y : π}
    (h : ps[i]? = some x) (hxy : f y = f x) :
    (ps.set i y).filterMap f = ps.filterMap f := by
  induction ps generalizing i with
  | nil => rfl
  | cons a ps ih =>
    cases i with
    | zero =>
      simp only [List.getElem?_cons_zero, Option.some.injEq] at h
      subst h
      rw [List.set_cons_zero, List.filterMap_cons, List.filterMap_cons, hxy]
    | succ i =>
      simp only [List.getElem?_cons_succ] at h
      rw [List.set_cons_succ, List.filterMap_cons, List.filterMap_cons, ih h]

theorem filterMap_sublist {f g : π → Option β} {ps : List π}
    (h : ∀ p ∈ ps, ∀ b, f p = some b → g p = some b) :
    (ps.filterMap f).Sublist (ps.filterMap g) := by
  induction ps with
  | nil => exact .slnil
  | cons p ps ih =>
    have htail := ih fun q hq => h q (List.mem_cons_of_mem p hq)
    cases hf : f p with
    | none =>
      rw [List.filterMap_cons_none hf]
      cases hg : g p with
      | none => rwa [List.filterMap_cons_none hg]
      | some b =>
        rw [List.filterMap_cons_some hg]
        exact htail.cons b
    | some b =>
      rw [List.filterMap_cons_some hf, List.filterMap_cons_some (h p List.mem_cons_self b hf)]
      exact htail.cons_cons b

/-! ## Two systems, party by party -/

variable {π' : Type*} {R : π → π' → Prop}

theorem forall₂_getElem? {xs : List π} {ys : List π'} (h : List.Forall₂ R xs ys) {i : Nat} {x : π}
    (hx : xs[i]? = some x) :
    ∃ y, ys[i]? = some y ∧ R x y := by
  induction h generalizing i with
  | nil => cases hx
  | cons hR _ ih =>
    cases i with
    | zero =>
      cases hx
      exact ⟨_, rfl, hR⟩
    | succ i => exact ih hx

theorem forall₂_set {xs : List π} {ys : List π'} (h : List.Forall₂ R xs ys) (i : Nat) {x : π}
    {y : π'} (hR : R x y) :
    List.Forall₂ R (xs.set i x) (ys.set i y) := by
  induction h generalizing i with
  | nil => exact .nil
  | cons hR' htail ih =>
    cases i with
    | zero => exact .cons hR htail
    | succ i => exact .cons hR' (ih i)

theorem forall₂_append {xs xs' : List π} {ys ys' : List π'} (h : List.Forall₂ R xs ys)
    (h' : List.Forall₂ R xs' ys') :
    List.Forall₂ R (xs ++ xs') (ys ++ ys') := List.rel_append h h'

theorem forall₂_concat_left {xs : List π} {x : π} {zs : List π'}
    (h : List.Forall₂ R (xs ++ [x]) zs) :
    ∃ ys y, zs = ys ++ [y] ∧ List.Forall₂ R xs ys ∧ R x y := by
  induction xs generalizing zs with
  | nil =>
    cases h with
    | cons hR htail =>
      cases htail
      exact ⟨[], _, rfl, .nil, hR⟩
  | cons x' xs ih =>
    cases h with
    | cons hR htail =>
      obtain ⟨ys, y, rfl, hxs, hx⟩ := ih htail
      exact ⟨_ :: ys, y, rfl, .cons hR hxs, hx⟩

/-- **The simulation rule**: when every step of the one system can be followed by the other, so can
every run. -/
theorem Run.simulates {σ' ℓ' : Type*} {step' : σ' → ℓ' → Option σ'} {S : σ → σ' → Prop}
    {L : ℓ → ℓ' → Prop} (hstep : ∀ s s' l l' t, S s s' → L l l' → step s l = some t →
      ∃ t', step' s' l' = some t' ∧ S t t')
    {s : σ} {s' : σ'} {ls : List ℓ} {ls' : List ℓ'} (h : Run step s ls t)
      (hls : List.Forall₂ L ls ls') (hs : S s s') :
    ∃ t', Run step' s' ls' t' ∧ S t t' := by
  induction h generalizing ls' with
  | nil =>
    cases hls
    exact ⟨s', .nil, hs⟩
  | snoc _ hl ih =>
    obtain ⟨ls₀, l', rfl, hls₀, hl'⟩ := forall₂_concat_left hls
    obtain ⟨u, hu, hS⟩ := ih hls₀
    obtain ⟨t', ht, hS'⟩ := hstep _ _ _ _ _ hS hl' hl
    exact ⟨t', .snoc hu ht, hS'⟩

end EasyModelGate
