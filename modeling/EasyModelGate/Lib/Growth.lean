import EasyModelGate.Lib.Table

/-! # Tables that only grow

A table grows when its rows stay under their numbers, with values that change only as a relation
allows, and new rows get new numbers. -/

namespace EasyModelGate.Table

variable {α : Type} {R : α → α → Prop} {t t' t'' : Table α}

/-- The rows of `t` are in `t'`, and what else is in `t'` is numbered after them. -/
structure Grows (R : α → α → Prop) (t t' : Table α) : Prop where
  kept : ∀ id r, t.get? id = some r → ∃ r', t'.get? id = some r' ∧ R r.val r'.val
  fresh : ∀ id, (t'.get? id).isSome → (t.get? id).isSome ∨ t.seq < id
  seq : t.seq ≤ t'.seq

namespace Grows

theorem refl (hR : ∀ a, R a a) (t : Table α) : t.Grows R t :=
  ⟨fun _ r h => ⟨r, h, hR _⟩, fun _ => .inl, Nat.le_refl _⟩

theorem trans (hR : ∀ a b c, R a b → R b c → R a c) (h : t.Grows R t') (h' : t'.Grows R t'') :
    t.Grows R t'' := by
  refine ⟨fun id r hr => ?_, fun id hid => ?_, Nat.le_trans h.seq h'.seq⟩
  · obtain ⟨r', hr', hkept⟩ := h.kept id r hr
    obtain ⟨r'', hr'', hkept'⟩ := h'.kept id r' hr'
    exact ⟨r'', hr'', hR _ _ _ hkept hkept'⟩
  · rcases h'.fresh id hid with hold | hnew
    · exact h.fresh id hold
    · exact .inr (Nat.lt_of_le_of_lt h.seq hnew)

theorem insert (hR : ∀ a, R a a) (t : Table α) (a : α) : t.Grows R (t.insert a) := by
  refine ⟨fun id r hr => ⟨r, ?_, hR _⟩, fun id hid => ?_, Nat.le_succ _⟩
  · have hle := id_le hr
    rw [get?_insert, if_neg (by omega), hr]
  · rw [get?_insert] at hid
    split at hid
    · exact .inr (by omega)
    · exact .inl hid

theorem update (hR : ∀ a, R a a) (t : Table α) (p : Row α → Bool) {f : α → α}
    (hf : ∀ r ∈ t.rows, R r.val (f r.val)) : t.Grows R (t.update p f) := by
  refine ⟨fun id r hr => ?_, fun id hid => .inl ?_, Nat.le_refl _⟩
  · rw [get?_update, hr]
    refine ⟨_, rfl, ?_⟩
    dsimp only
    split
    · exact hf r (get?_eq_some.mp hr).1
    · exact hR _
  · rwa [get?_update, Option.isSome_map] at hid

end Grows

/-! ## Columns -/

theorem map_insert (t : Table α) (a : α) (f : α → β) :
    (t.insert a).rows.map (f ·.val) = t.rows.map (f ·.val) ++ [f a] := by
  rw [rows_insert, List.map_append]
  rfl

/-- A column that an update leaves alone. -/
theorem map_update (t : Table α) (p : Row α → Bool) {g : α → α} {f : α → β}
    (hf : ∀ a, f (g a) = f a) :
    (t.update p g).rows.map (f ·.val) = t.rows.map (f ·.val) := by
  rw [rows_update, List.map_map]
  refine List.map_congr_left fun r _ => ?_
  dsimp only [Function.comp]
  split
  · exact hf _
  · rfl

/-- No row has `b` in a column where none is found. -/
theorem not_mem_column_of_find? [DecidableEq β] {t : Table α} {f : α → β} {b : β}
    (h : t.find? (fun a => decide (f a = b)) = none) : b ∉ t.rows.map (f ·.val) := by
  intro hb
  obtain ⟨r, hr, heq⟩ := List.mem_map.mp hb
  exact List.find?_eq_none.mp h r hr (decide_eq_true heq)

theorem forall_insert {P : Row α → Prop} (h : ∀ r ∈ t.rows, P r) {a : α} (ha : P ⟨t.seq + 1, a⟩) :
    ∀ r ∈ (t.insert a).rows, P r := by
  intro r hr
  rcases List.mem_append.mp hr with hr | hr
  · exact h r hr
  · rwa [List.mem_singleton.mp hr]

theorem forall_update {P : Row α → Prop} (h : ∀ r ∈ t.rows, P r) (p : Row α → Bool) {f : α → α}
    (hf : ∀ r ∈ t.rows, P r → P ⟨r.id, f r.val⟩) : ∀ r ∈ (t.update p f).rows, P r := by
  intro r hr
  obtain ⟨r₀, hr₀, rfl⟩ := List.mem_map.mp hr
  split
  · exact hf r₀ hr₀ (h r₀ hr₀)
  · exact h r₀ hr₀

end EasyModelGate.Table
