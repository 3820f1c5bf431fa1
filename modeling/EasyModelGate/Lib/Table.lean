import Mathlib.Data.List.Nodup

/-! # Tables with an automatic key

A table whose rows are numbered as they are inserted and whose numbers are never used again. The
rows stand in the order of their numbers, so a number finds at most one row. -/

namespace EasyModelGate

/-- A row and its number. -/
structure Row (α : Type) where
  id : Nat
  val : α
  deriving DecidableEq

structure Table (α : Type) where
  rows : List (Row α)
  /-- The largest number given so far. -/
  seq : Nat
  ordered : rows.Pairwise (·.id < ·.id)
  bounded : ∀ r ∈ rows, r.id ≤ seq

namespace Table

variable {α : Type}

def empty : Table α := ⟨[], 0, .nil, nofun⟩

@[simp] theorem rows_empty : (empty : Table α).rows = [] := rfl

instance : Inhabited (Table α) := ⟨empty⟩

def find? (t : Table α) (p : α → Bool) : Option (Row α) := t.rows.find? fun r => p r.val

def get? (t : Table α) (id : Nat) : Option (Row α) := t.rows.find? fun r => r.id = id

def select (t : Table α) (p : α → Bool) : List (Row α) := t.rows.filter fun r => p r.val

/-- The table with one more row, whose number is the new `seq`. -/
def insert (t : Table α) (a : α) : Table α where
  rows := t.rows ++ [⟨t.seq + 1, a⟩]
  seq := t.seq + 1
  ordered := List.pairwise_append.mpr ⟨t.ordered, List.pairwise_singleton .., by
    intro r hr r' hr'
    rw [List.mem_singleton.mp hr']
    exact Nat.lt_succ_of_le (t.bounded r hr)⟩
  bounded := by
    intro r hr
    rcases List.mem_append.mp hr with hr | hr
    · exact Nat.le_succ_of_le (t.bounded r hr)
    · exact Nat.le_of_eq (congrArg Row.id (List.mem_singleton.mp hr))

/-- `f` applied to the rows that satisfy `p`. -/
def update (t : Table α) (p : Row α → Bool) (f : α → α) : Table α where
  rows := t.rows.map fun r => if p r then ⟨r.id, f r.val⟩ else r
  seq := t.seq
  ordered := by
    rw [List.pairwise_map]
    refine t.ordered.imp fun {r r'} h => ?_
    split <;> split <;> exact h
  bounded := by
    intro r hr
    obtain ⟨r₀, hr₀, rfl⟩ := List.mem_map.mp hr
    split <;> exact t.bounded r₀ hr₀

/-- How many rows satisfy `p`. -/
def count (t : Table α) (p : Row α → Bool) : Nat := t.rows.countP p

@[simp] theorem rows_insert (t : Table α) (a : α) :
    (t.insert a).rows = t.rows ++ [⟨t.seq + 1, a⟩] := rfl
@[simp] theorem seq_insert (t : Table α) (a : α) : (t.insert a).seq = t.seq + 1 := rfl
@[simp] theorem rows_update (t : Table α) (p : Row α → Bool) (f : α → α) :
    (t.update p f).rows = t.rows.map fun r => if p r then ⟨r.id, f r.val⟩ else r := rfl
@[simp] theorem seq_update (t : Table α) (p : Row α → Bool) (f : α → α) :
    (t.update p f).seq = t.seq := rfl

theorem ext_rows {t u : Table α} (h : t.rows = u.rows) (h' : t.seq = u.seq) : t = u := by
  cases t; cases u; cases h; cases h'; rfl

theorem eq_of_id {t : Table α} {r r' : Row α} (h : r ∈ t.rows) (h' : r' ∈ t.rows)
    (hid : r.id = r'.id) : r = r' := by
  have hnodup : (t.rows.map Row.id).Nodup :=
    (List.pairwise_map.mpr t.ordered).imp Nat.ne_of_lt
  exact List.inj_on_of_nodup_map hnodup h h' hid

/-- **A number finds its row.** -/
theorem get?_eq_some {t : Table α} {id : Nat} {r : Row α} :
    t.get? id = some r ↔ r ∈ t.rows ∧ r.id = id := by
  constructor
  · intro h
    exact ⟨List.mem_of_find?_eq_some h, by simpa using List.find?_some h⟩
  · rintro ⟨hr, rfl⟩
    cases h : t.get? r.id with
    | none => exact absurd (List.find?_eq_none.mp h r hr) (by simp)
    | some r' =>
      have hid : r'.id = r.id := by simpa using List.find?_some h
      rw [eq_of_id (List.mem_of_find?_eq_some h) hr hid]

theorem of_find?_eq_some {t : Table α} {p : α → Bool} {r : Row α} (h : t.find? p = some r) :
    t.get? r.id = some r ∧ p r.val = true :=
  ⟨get?_eq_some.mpr ⟨List.mem_of_find?_eq_some h, rfl⟩,
    List.find?_some (p := fun r : Row α => p r.val) h⟩

theorem get?_eq_none {t : Table α} {id : Nat} : t.get? id = none ↔ ∀ r ∈ t.rows, r.id ≠ id := by
  simp [get?]

theorem id_le {t : Table α} {id : Nat} {r : Row α} (h : t.get? id = some r) : id ≤ t.seq := by
  obtain ⟨hr, rfl⟩ := get?_eq_some.mp h
  exact t.bounded r hr

@[simp] theorem get?_empty (id : Nat) : (empty : Table α).get? id = none := rfl

theorem get?_insert (t : Table α) (a : α) (id : Nat) :
    (t.insert a).get? id = if id = t.seq + 1 then some ⟨id, a⟩ else t.get? id := by
  split
  · subst id
    exact get?_eq_some.mpr ⟨by simp, rfl⟩
  · rename_i h
    unfold get?
    rw [rows_insert, List.find?_append]
    simp [Ne.symm h]

theorem get?_update (t : Table α) (p : Row α → Bool) (f : α → α) (id : Nat) :
    (t.update p f).get? id =
      (t.get? id).map fun r => if p r then ⟨r.id, f r.val⟩ else r := by
  unfold get?
  rw [rows_update, List.find?_map]
  congr 2
  funext r
  dsimp only [Function.comp]
  split <;> rfl

/-- The row of a number, after an update that is aimed at a number. -/
theorem get?_update_id (t : Table α) (i : Nat) (f : α → α) (id : Nat) :
    (t.update (fun r => decide (r.id = i)) f).get? id =
      if id = i then (t.get? id).map fun r => ⟨r.id, f r.val⟩ else t.get? id := by
  rw [get?_update]
  cases h : t.get? id with
  | none => simp
  | some r =>
    have hid := (get?_eq_some.mp h).2
    by_cases hi : id = i <;> simp [hid, hi]

/-- `count` of an aimed update is 1 exactly when the row is there. -/
theorem update_of_count {t : Table α} {p : Row α → Bool} (h : t.count p = 0) (f : α → α) :
    t.update p f = t := by
  apply ext_rows
  · rw [rows_update]
    refine (List.map_congr_left fun r hr => ?_).trans (List.map_id _)
    rw [if_neg (List.countP_eq_zero.mp h r hr)]
    rfl
  · rfl

end Table
end EasyModelGate
