import Mathlib.Data.Prod.Lex
import Mathlib.Order.Bounds.Basic
import Mathlib.Data.List.Infix

/-! # Cutting a stream at delimiters

A stream is cut at the leftmost occurrence of one of finitely many delimiters, and what follows
the last complete delimiter is carried over until more of the stream arrives. The cut that is
found first need not be the leftmost one of the whole stream: a longer delimiter may start
earlier and still be incomplete. `Delimiters` rules this out (`interior`), and under it the
pieces do not depend on where the stream was cut into chunks (`pieces_append`). -/

namespace EasyModelGate
namespace Framing

variable {α : Type*}

section
variable [DecidableEq α]

/-- Position of the first occurrence of `sub`. -/
def find (sub : List α) : List α → Option Nat
  | [] => if sub = [] then some 0 else none
  | a :: s => if sub <+: a :: s then some 0 else (find sub s).map (· + 1)

theorem find_eq_some {sub s : List α} :
    find sub s = some i ↔ sub <+: s.drop i ∧ i ≤ s.length ∧ ∀ j < i, ¬ sub <+: s.drop j := by
  induction s generalizing i with
  | nil =>
    simp only [find, List.drop_nil, List.prefix_nil, List.length_nil, Nat.le_zero]
    split
    · simp only [Option.some.injEq]
      exact ⟨fun h => by subst h; simp_all, fun h => h.2.1.symm⟩
    · simp_all
  | cons a s ih =>
    simp only [find]
    split
    · rename_i hp
      refine ⟨fun h => by cases h; simpa using hp, fun ⟨_, _, h⟩ => ?_⟩
      cases i with
      | zero => rfl
      | succ i => exact absurd hp (by simpa using h 0 (Nat.succ_pos i))
    · rename_i hp
      cases i with
      | zero => simp [hp]
      | succ i =>
        simp only [Option.map_eq_some_iff, Nat.add_right_cancel_iff, exists_eq_right, ih,
          List.drop_succ_cons, List.length_cons, Nat.add_le_add_iff_right]
        refine and_congr_right fun _ => and_congr_right fun _ =>
          ⟨fun h j hj => ?_, fun h j hj => ?_⟩
        · cases j with
          | zero => simpa using hp
          | succ j => simpa using h j (Nat.lt_of_succ_lt_succ hj)
        · simpa using h (j + 1) (Nat.succ_lt_succ hj)

theorem find_eq_none {sub s : List α} (hsub : sub ≠ []) :
    find sub s = none ↔ ∀ i, ¬ sub <+: s.drop i := by
  induction s with
  | nil => simp [find, hsub]
  | cons a s ih =>
    simp only [find]
    split
    · rename_i hp
      exact ⟨(nomatch ·), fun h => absurd hp (by simpa using h 0)⟩
    · rename_i hp
      simp only [Option.map_eq_none_iff, ih]
      refine ⟨fun h i => ?_, fun h i => by simpa using h (i + 1)⟩
      cases i with
      | zero => simpa using hp
      | succ i => simpa using h i

/-- The leftmost occurrence of a delimiter, the shorter one at a tie. -/
def leftmost (ds : List (List α)) (s : List α) : Option (ℕ ×ₗ ℕ) :=
  (ds.filterMap fun δ => (find δ s).map fun i => toLex (i, δ.length)).min?

end

/-- Where the delimiters `ds` occur in `s`: start and length, ordered by start first. -/
def occurrences (ds : List (List α)) (s : List α) : Set (ℕ ×ₗ ℕ) :=
  {p | ∃ δ ∈ ds, δ.length = (ofLex p).2 ∧ δ <+: s.drop (ofLex p).1}

/-- Delimiters of which none is empty and none is complete before the end of another one that
started earlier. -/
structure Delimiters (α : Type*) where
  all : List (List α)
  ne_nil : ∀ δ ∈ all, δ ≠ []
  interior : ∀ δ ∈ all, ∀ δ' ∈ all, ∀ k, 0 < k → k + δ.length < δ'.length → ¬ δ <+: δ'.drop k

variable {D : Delimiters α} {s t : List α}

theorem occurrences_append {p : ℕ ×ₗ ℕ} (hp : p ∈ occurrences D.all s) :
    p ∈ occurrences D.all (s ++ t) := by
  obtain ⟨δ, hδ, hl, h⟩ := hp
  refine ⟨δ, hδ, hl, h.trans ?_⟩
  rw [List.drop_append]
  exact List.prefix_append _ _

/-- An occurrence in the longer stream that is complete in the shorter one occurs there. -/
theorem occurrences_of_append {p : ℕ ×ₗ ℕ} (hp : p ∈ occurrences D.all (s ++ t))
    (hle : (ofLex p).1 + (ofLex p).2 ≤ s.length) : p ∈ occurrences D.all s := by
  obtain ⟨δ, hδ, hl, h⟩ := hp
  refine ⟨δ, hδ, hl, ?_⟩
  rw [List.drop_append_of_le_length (by omega)] at h
  exact List.prefix_of_prefix_length_le h (List.prefix_append _ _)
    (by rw [List.length_drop]; omega)

theorem occurrences_bound {p : ℕ ×ₗ ℕ} (hp : p ∈ occurrences D.all s) :
    0 < (ofLex p).2 ∧ (ofLex p).1 + (ofLex p).2 ≤ s.length := by
  obtain ⟨δ, hδ, hl, h⟩ := hp
  have hpos : 0 < δ.length := List.length_pos_of_ne_nil (D.ne_nil δ hδ)
  have hlen := h.length_le
  rw [List.length_drop] at hlen
  omega

variable [DecidableEq α]

theorem mem_candidates {p : ℕ ×ₗ ℕ} :
    p ∈ (D.all.filterMap fun δ => (find δ s).map fun i => toLex (i, δ.length)) ↔
      ∃ δ ∈ D.all, find δ s = some (ofLex p).1 ∧ δ.length = (ofLex p).2 := by
  simp only [List.mem_filterMap, Option.map_eq_some_iff]
  constructor
  · rintro ⟨δ, hδ, i, hi, rfl⟩
    exact ⟨δ, hδ, hi, rfl⟩
  · rintro ⟨δ, hδ, hi, hl⟩
    exact ⟨δ, hδ, _, hi, by rw [hl]; rfl⟩

/-- Every occurrence is at or after the first occurrence of its delimiter. -/
theorem exists_candidate_le {p : ℕ ×ₗ ℕ} (hp : p ∈ occurrences D.all s) :
    ∃ q ∈ (D.all.filterMap fun δ => (find δ s).map fun i => toLex (i, δ.length)), q ≤ p := by
  obtain ⟨δ, hδ, hl, hpre⟩ := hp
  cases hf : find δ s with
  | none => exact absurd hpre ((find_eq_none (D.ne_nil δ hδ)).mp hf _)
  | some i =>
    refine ⟨toLex (i, δ.length), mem_candidates.mpr ⟨δ, hδ, hf, rfl⟩, ?_⟩
    have hi : i ≤ (ofLex p).1 := by
      by_contra hlt
      exact (find_eq_some.mp hf).2.2 _ (Nat.lt_of_not_le hlt) hpre
    rw [Prod.Lex.le_iff]
    rcases Nat.lt_or_eq_of_le hi with hi | hi
    · exact .inl hi
    · exact .inr ⟨hi, hl.le⟩

theorem leftmost_eq_some {p : ℕ ×ₗ ℕ} :
    leftmost D.all s = some p ↔ IsLeast (occurrences D.all s) p := by
  have hmem : ∀ {q}, q ∈ (D.all.filterMap fun δ => (find δ s).map fun i => toLex (i, δ.length)) →
      q ∈ occurrences D.all s := fun hq =>
    let ⟨δ, hδ, hf, hl⟩ := mem_candidates.mp hq
    ⟨δ, hδ, hl, (find_eq_some.mp hf).1⟩
  rw [leftmost, List.min?_eq_some_iff]
  constructor
  · rintro ⟨hp, hle⟩
    refine ⟨hmem hp, fun q hq => ?_⟩
    obtain ⟨r, hr, hrq⟩ := exists_candidate_le hq
    exact (hle r hr).trans hrq
  · rintro ⟨hp, hle⟩
    obtain ⟨r, hr, hrp⟩ := exists_candidate_le hp
    have : r = p := le_antisymm hrp (hle (hmem hr))
    exact ⟨this ▸ hr, fun q hq => hle (hmem hq)⟩

theorem leftmost_eq_none : leftmost D.all s = none ↔ ∀ δ ∈ D.all, ¬ δ <:+: s := by
  rw [leftmost, List.min?_eq_none_iff, List.filterMap_eq_nil_iff]
  refine forall₂_congr fun δ hδ => ?_
  rw [Option.map_eq_none_iff, find_eq_none (D.ne_nil δ hδ)]
  constructor
  · rintro h ⟨a, b, rfl⟩
    exact h a.length (by simp)
  · exact fun h i hpre => h (hpre.isInfix.trans (List.drop_suffix i s).isInfix)

/-! ## The cut is final

What has arrived never changes where the stream is cut first. -/

/-- The leftmost delimiter stays the leftmost one, whatever arrives later. -/
theorem leftmost_append {p : ℕ ×ₗ ℕ} (h : leftmost D.all s = some p) :
    leftmost D.all (s ++ t) = some p := by
  rw [leftmost_eq_some] at h ⊢
  obtain ⟨hp, hmin⟩ := h
  refine ⟨occurrences_append hp, fun q hq => ?_⟩
  by_cases hle : (ofLex q).1 + (ofLex q).2 ≤ s.length
  · exact hmin (occurrences_of_append hq hle)
  -- `q` is still incomplete in `s`: starting earlier it would contain `p` in its interior
  have hb := (occurrences_bound hp).2
  rw [Prod.Lex.le_iff]
  by_contra hlt
  obtain ⟨δ, hδ, hl, hpre⟩ := occurrences_append (t := t) hp
  obtain ⟨δ', hδ', hl', hpre'⟩ := hq
  have hstart : (ofLex q).1 < (ofLex p).1 := by omega
  refine D.interior δ hδ δ' hδ' ((ofLex p).1 - (ofLex q).1) (by omega) (by omega) ?_
  have hdrop := hpre'.drop ((ofLex p).1 - (ofLex q).1)
  rw [List.drop_drop, show (ofLex q).1 + ((ofLex p).1 - (ofLex q).1) = (ofLex p).1 by omega]
    at hdrop
  exact List.prefix_of_prefix_length_le hpre hdrop (by rw [List.length_drop]; omega)

/-! ## Pieces -/

/-- The pieces between delimiters, and the rest after the last complete delimiter. -/
def pieces (D : Delimiters α) (s : List α) : List (List α) × List α :=
  match _h : leftmost D.all s with
  | none => ([], s)
  | some p =>
    let next := pieces D (s.drop ((ofLex p).1 + (ofLex p).2))
    (s.take (ofLex p).1 :: next.1, next.2)
termination_by s.length
decreasing_by
  have := occurrences_bound (leftmost_eq_some.mp ‹_›).1
  simp only [List.length_drop]
  omega

theorem pieces_of_none (h : leftmost D.all s = none) : pieces D s = ([], s) := by
  rw [pieces]; split <;> simp_all

theorem pieces_of_some {p : ℕ ×ₗ ℕ} (h : leftmost D.all s = some p) :
    pieces D s = (s.take (ofLex p).1 :: (pieces D (s.drop ((ofLex p).1 + (ofLex p).2))).1,
      (pieces D (s.drop ((ofLex p).1 + (ofLex p).2))).2) := by
  rw [pieces]; split <;> simp_all

/-- Induction along the cuts. -/
theorem cutInduction {motive : List α → Prop} (D : Delimiters α)
    (none : ∀ s, leftmost D.all s = none → motive s)
    (some : ∀ s (p : ℕ ×ₗ ℕ), leftmost D.all s = some p →
      motive (s.drop ((ofLex p).1 + (ofLex p).2)) → motive s) (s : List α) : motive s := by
  induction hn : s.length using Nat.strongRecOn generalizing s with
  | ind n ih =>
    cases h : leftmost D.all s with
    | none => exact none s h
    | some p =>
      have := occurrences_bound (leftmost_eq_some.mp h).1
      exact some s p h (ih _ (by rw [List.length_drop]; omega) _ rfl)

/-- **Chunking does not matter**: cutting what has arrived and carrying the rest over to what
arrives later gives the pieces of the whole stream. -/
theorem pieces_append (D : Delimiters α) (s t : List α) :
    pieces D (s ++ t) = ((pieces D s).1 ++ (pieces D ((pieces D s).2 ++ t)).1,
      (pieces D ((pieces D s).2 ++ t)).2) := by
  induction s using cutInduction D with
  | none s h => simp [pieces_of_none h]
  | some s p h ih =>
    have hb := occurrences_bound (leftmost_eq_some.mp h).1
    rw [pieces_of_some (leftmost_append h), pieces_of_some h,
      List.drop_append_of_le_length hb.2, List.take_append_of_le_length (by omega), ih]
    rfl

theorem leftmost_pieces_snd (D : Delimiters α) (s : List α) :
    leftmost D.all (pieces D s).2 = none := by
  induction s using cutInduction D with
  | none s h => rwa [pieces_of_none h]
  | some s p h ih => rwa [pieces_of_some h]

/-- The rest contains no delimiter. -/
theorem rest_no_delimiter (s : List α) : ∀ δ ∈ D.all, ¬ δ <:+: (pieces D s).2 :=
  leftmost_eq_none.mp (leftmost_pieces_snd D s)

/-- A piece contains no delimiter. -/
theorem piece_no_delimiter (s : List α) :
    ∀ e ∈ (pieces D s).1, ∀ δ ∈ D.all, ¬ δ <:+: e := by
  induction s using cutInduction D with
  | none s h => simp [pieces_of_none h]
  | some s p h ih =>
    rw [pieces_of_some h]
    rintro e (_ | ⟨_, he⟩) δ hδ
    · rintro ⟨a, b, hab⟩
      have hocc : toLex (a.length, δ.length) ∈ occurrences D.all s := by
        refine ⟨δ, hδ, rfl, ?_⟩
        rw [← List.take_append_drop (ofLex p).1 s, ← hab]
        simp [List.append_assoc]
      have hle := (leftmost_eq_some.mp h).2 hocc
      have hpos := List.length_pos_of_ne_nil (D.ne_nil δ hδ)
      have hlen := congrArg List.length hab
      simp only [List.length_append, List.length_take] at hlen
      rw [Prod.Lex.le_iff] at hle
      simp only [ofLex_toLex] at hle
      omega
    · exact ih e he δ hδ

/-- The pieces, each followed by a delimiter, and then the rest spell the stream. -/
theorem pieces_spell (D : Delimiters α) (s : List α) :
    ∃ seps : List (List α), seps.length = (pieces D s).1.length ∧ (∀ δ ∈ seps, δ ∈ D.all) ∧
      (List.zipWith (· ++ ·) (pieces D s).1 seps).flatten ++ (pieces D s).2 = s := by
  induction s using cutInduction D with
  | none s h => exact ⟨[], by simp [pieces_of_none h]⟩
  | some s p h ih =>
    obtain ⟨seps, hlen, hmem, hs⟩ := ih
    obtain ⟨δ, hδ, hl, hpre⟩ := (leftmost_eq_some.mp h).1
    refine ⟨δ :: seps, by simp [pieces_of_some h, hlen], by simpa [hδ] using hmem, ?_⟩
    have hdrop : s.drop (ofLex p).1 = δ ++ s.drop ((ofLex p).1 + (ofLex p).2) := by
      obtain ⟨r, hr⟩ := hpre
      rw [← List.drop_drop, ← hr, ← hl, List.drop_left]
    simp only [pieces_of_some h, List.zipWith_cons_cons, List.flatten_cons, List.append_assoc, hs]
    rw [← hdrop, List.take_append_drop]

end Framing
end EasyModelGate
