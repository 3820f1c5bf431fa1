import EasyModelGate.Db.Connect

/-! # Opening a database

`schema.sql` has run, and is committed, before the version is read: a file that is refused has been
completed all the same. -/

namespace EasyModelGate

/-! ## The property -/

namespace DbFile

/-- Every table and every index of the schema. -/
def Complete (f : DbFile) : Prop := (∀ t, (f.tables t).isSome = true) ∧ ∀ i, f.indexes i = true

/-- The same tables, rows and indexes. -/
def Untouched (f g : DbFile) : Prop := g.tables = f.tables ∧ g.indexes = f.indexes

/-- Every row is still there. -/
def Kept (f g : DbFile) : Prop := ∀ t rows, f.tables t = some rows →
    ∃ added, g.tables t = some (rows ++ added)

/-- The stored version. -/
def versionCell (f : DbFile) : Option Cell :=
  (f.tables .settings).bind fun rows =>
    (rows.find? fun r => r.key = versionKey).map SettingsRow.valueJson

end DbFile

/-- The value reads as the version of the code. -/
def Cell.isVersion (limit : Nat) (c : Cell) : Bool :=
  (c.loads limit).toOption.any (Json.eqInt · schemaVersion)

/-- `connect` opens the file, complete, with its rows and under the right version, or refuses it as
it is; and a second `connect` finds and does the same. -/
def Database.OpensOrRefuses (limit : Nat) (pyStr : Json → Str) (f : DbFile) : Prop :=
  let opened := connect limit pyStr { file := f }
  (opened.1.isOk = true → opened.2.file.Complete ∧
    opened.2.file.versionCell.any (Cell.isVersion limit) = true ∧ f.Kept opened.2.file) ∧
  (opened.1.isOk = false → f.Untouched opened.2.file) ∧
  connect limit pyStr opened.2 = opened

/-! ## The script -/

namespace DbFile

/-- The file with the table, as it is or empty. -/
def withTable (f : DbFile) (t : TableName) : DbFile :=
  if (f.tables t).isSome then f else f.addTable t

/-- The file with the whole schema. -/
def completed (f : DbFile) : DbFile where
  wal := true
  tables t := some ((f.tables t).getD [])
  indexes _ := true
  indexed _ _ := rfl

variable {f g : DbFile} {limit : Nat}

theorem eq_of_same (hw : f.wal = g.wal) (ht : f.tables = g.tables)
    (hi : f.indexes = g.indexes) : f = g := by
  cases f
  cases g
  cases hw
  cases ht
  cases hi
  rfl

theorem withTable_tables (f : DbFile) (t : TableName) :
    (f.withTable t).tables = Function.update f.tables t (some ((f.tables t).getD [])) := by
  unfold withTable
  split
  · rename_i h
    rw [Option.getD_of_ne_none (Option.isSome_iff_ne_none.mp h), Function.update_eq_self]
  · rename_i h
    rw [Option.not_isSome_iff_eq_none.mp h]
    rfl

theorem withTable_wal (f : DbFile) (t : TableName) : (f.withTable t).wal = f.wal := by
  unfold withTable
  split <;> rfl

/-- An index can be created once its table is there. -/
theorem ddl_createIndex (h : (f.tables .requestLogs).isSome = true) (i : IndexName) :
    ∃ g, f.ddl (.createIndex i) = .ok g ∧ g.wal = f.wal ∧ g.tables = f.tables ∧
      g.indexes = Function.update f.indexes i true := by
  by_cases hi : f.indexes i = true
  · refine ⟨f, if_pos hi, rfl, rfl, ?_⟩
    rw [← hi, Function.update_eq_self]
  · exact ⟨f.addIndex i h, (if_neg hi).trans (dif_pos h), rfl, rfl, rfl⟩

theorem executescript_createIndexes (is : List IndexName) :
    ∀ f : DbFile, (f.tables .requestLogs).isSome = true →
    ∃ g, f.executescript (is.map .createIndex) = (.ok (), g) ∧
      g.wal = f.wal ∧ g.tables = f.tables ∧
      ∀ i, g.indexes i = (f.indexes i || decide (i ∈ is)) := by
  induction is with
  | nil => exact fun f _ => ⟨f, rfl, rfl, rfl, fun i => (Bool.or_false _).symm⟩
  | cons i is ih =>
    intro f h
    obtain ⟨g, hg, hw, ht, hi⟩ := ddl_createIndex h i
    obtain ⟨g', hg', hw', ht', hi'⟩ := ih g (ht ▸ h)
    refine ⟨g', ?_, hw'.trans hw, ht'.trans ht, fun j => ?_⟩
    · rw [List.map_cons, executescript, hg]
      exact hg'
    · rw [hi', hi]
      by_cases hj : j = i
      · subst hj
        simp
      · simp [hj]

/-- The script never fails, and completes the schema. -/
theorem executescript_schemaSql (f : DbFile) :
    { f with wal := true }.executescript schemaSql = (.ok (), f.completed) := by
  let tabled := ((((({ f with
    wal := true } : DbFile).withTable .users).withTable .apiKeys).withTable .backends).withTable
    .requestLogs).withTable .settings
  have htables : tabled.tables = fun t => some ((f.tables t).getD []) := by
    funext t
    simp only [tabled, withTable_tables]
    cases t <;> rfl
  obtain ⟨g, hg, hw, ht, hi⟩ := executescript_createIndexes
    [.rlStarted, .rlUserStarted, .rlKeyStarted, .rlModelStarted] tabled (by rw [htables]; rfl)
  have hsame : g = f.completed := by
    refine eq_of_same ?_ (ht.trans htables) (funext fun i => ?_)
    · rw [hw]
      simp only [tabled, withTable_wal]
      rfl
    · rw [hi]
      cases i <;> exact Bool.or_true _
  rw [← hsame, ← hg]
  rfl

theorem completed_complete (f : DbFile) : f.completed.Complete := ⟨fun _ => rfl, fun _ => rfl⟩

theorem completed_of_complete (h : f.Complete) (hw : f.wal = true) : f.completed = f :=
  eq_of_same hw.symm (funext fun t => Option.getD_of_ne_none (Option.isSome_iff_ne_none.mp (h.1 t))
    _) (funext fun i => (h.2 i).symm)

/-- Completing a file changes it unless it was complete. -/
theorem untouched_completed : f.Untouched f.completed ↔ f.Complete := by
  constructor
  · intro h
    exact ⟨fun t => (congrFun h.1 t) ▸ rfl, fun i => (congrFun h.2 i).symm⟩
  · intro h
    exact ⟨funext fun t => Option.getD_of_ne_none (Option.isSome_iff_ne_none.mp (h.1 t)) _,
      funext fun i => (h.2 i).symm⟩

theorem completed_tables (f : DbFile) (t : TableName) :
    f.completed.tables t = some ((f.tables t).getD []) := rfl

theorem kept_completed (f : DbFile) : f.Kept f.completed := by
  intro t rows h
  exact ⟨[], by rw [completed_tables, h, Option.getD_some, List.append_nil]⟩

theorem versionCell_completed (f : DbFile) : f.completed.versionCell = f.versionCell := by
  rw [versionCell, completed_tables, versionCell]
  cases f.tables .settings <;> rfl

theorem selectVersion_completed (f : DbFile) : f.completed.selectVersion = .ok f.versionCell := by
  rw [← versionCell_completed]
  rfl

/-- The file with the version entered. -/
def versioned (f : DbFile) : DbFile :=
  f.completed.addSetting ((f.tables .settings).getD [])
    { key := versionKey, valueJson := .text (bytes (toString schemaVersion)) }

theorem insertVersion_completed (h : f.versionCell = none) :
    f.completed.insertVersion (bytes (toString schemaVersion)) = .ok f.versioned := by
  rw [← versionCell_completed, versionCell, completed_tables, Option.bind_some,
    Option.map_eq_none_iff] at h
  have hnone : (((f.tables .settings).getD []).any fun r => r.key = versionKey) = false := by
    rw [List.find?_eq_none] at h
    rw [List.any_eq_false]
    exact fun r hr => h r hr
  rw [insertVersion, completed_tables]
  exact if_neg (Bool.eq_false_iff.mp hnone)

theorem versioned_settings (f : DbFile) :
    f.versioned.tables .settings = some ((f.tables .settings).getD [] ++
    [{ key := versionKey, valueJson := .text (bytes (toString schemaVersion)) }]) := by
  exact Function.update_self TableName.settings _ f.completed.tables

theorem versioned_of_ne {t : TableName} (h : t ≠ .settings) :
    f.versioned.tables t = some ((f.tables t).getD []) :=
  Function.update_of_ne h ..

theorem versioned_complete (f : DbFile) : f.versioned.Complete := by
  refine ⟨fun t => ?_, fun _ => rfl⟩
  by_cases ht : t = .settings
  · subst ht
    rw [versioned_settings]
    rfl
  · rw [versioned_of_ne ht]
    rfl

theorem kept_versioned (f : DbFile) : f.Kept f.versioned := by
  intro t rows h
  by_cases ht : t = .settings
  · subst ht
    exact ⟨_, by rw [versioned_settings, h, Option.getD_some]⟩
  · exact ⟨[], by rw [versioned_of_ne ht, h, Option.getD_some, List.append_nil]⟩

theorem versionCell_versioned (h : f.versionCell = none) :
    f.versioned.versionCell = some (.text (bytes (toString schemaVersion))) := by
  rw [← versionCell_completed, versionCell, completed_tables, Option.bind_some,
    Option.map_eq_none_iff] at h
  rw [versionCell, versioned_settings, Option.bind_some, List.find?_append, h]
  rfl

end DbFile

theorem Cell.isVersion_inserted (limit : Nat) :
    isVersion limit (.text (bytes (toString schemaVersion))) = true := rfl

/-! ## `connect` -/

namespace Database

variable {f : DbFile} {limit : Nat} {pyStr : Json → Str} {connected : Bool} {c : Cell}

theorem connect_unversioned (h : f.versionCell = none) :
    connect limit pyStr { file := f, connected } =
      (.ok (), { file := f.versioned, connected := true }) := by
  unfold connect
  simp only [DbFile.executescript_schemaSql, DbFile.selectVersion_completed, h,
    DbFile.insertVersion_completed h]

theorem connect_version (h : f.versionCell = some c) (hc : c.isVersion limit = true) :
    connect limit pyStr { file := f, connected } =
      (.ok (), { file := f.completed, connected := true }) := by
  unfold connect
  unfold Cell.isVersion at hc
  cases hv : c.loads limit with
  | error e =>
    rw [hv] at hc
    cases hc
  | ok v =>
    rw [hv] at hc
    have hv1 : v.eqInt schemaVersion = true := hc
    simp only [DbFile.executescript_schemaSql, DbFile.selectVersion_completed, h, hv, hv1, if_true]

/-- The refusal, which is the same however often it is asked for. -/
theorem connect_refused (limit : Nat) (pyStr : Json → Str) (hc : c.isVersion limit = false) :
    ∃ e open', ∀ g : DbFile, g.versionCell = some c → ∀ connected,
      connect limit pyStr { file := g, connected } =
        (.error e, { file := g.completed, connected := open' }) := by
  unfold Cell.isVersion at hc
  cases hv : c.loads limit with
  | error e =>
    refine ⟨.py e, true, fun g hg connected => ?_⟩
    unfold connect
    simp only [DbFile.executescript_schemaSql, DbFile.selectVersion_completed, hg, hv]
  | ok v =>
    rw [hv] at hc
    have hv1 : v.eqInt schemaVersion = false := hc
    refine ⟨versionMismatch pyStr v, false, fun g hg connected => ?_⟩
    unfold connect
    simp only [DbFile.executescript_schemaSql, DbFile.selectVersion_completed, hg, hv, hv1,
      Bool.false_eq_true, if_false]

/-- A second `connect` repeats the first. -/
theorem connect_again (limit : Nat) (pyStr : Json → Str) (f : DbFile) :
    connect limit pyStr (connect limit pyStr { file := f }).2 =
      connect limit pyStr { file := f } := by
  cases h : f.versionCell with
  | none =>
    have hcell := DbFile.versionCell_versioned h
    rw [connect_unversioned h, connect_version hcell (Cell.isVersion_inserted limit),
      DbFile.completed_of_complete f.versioned_complete rfl]
  | some c =>
    have hcell : f.completed.versionCell = some c := f.versionCell_completed.trans h
    have hsame := DbFile.completed_of_complete f.completed_complete rfl
    cases hc : c.isVersion limit with
    | true => rw [connect_version h hc, connect_version hcell hc, hsame]
    | false =>
      obtain ⟨e, open', hrefused⟩ := connect_refused limit pyStr hc
      rw [hrefused f h, hrefused f.completed hcell, hsame]

/-- **`connect` opens the file or leaves it as it is**, unless the file has another version than the
code's, or one that cannot be read, and part of the schema is missing. -/
theorem opensOrRefuses_iff (limit : Nat) (pyStr : Json → Str) (f : DbFile) :
    OpensOrRefuses limit pyStr f ↔ f.versionCell.all (Cell.isVersion limit) = true ∨
    f.Complete := by
  have hagain := connect_again limit pyStr f
  unfold OpensOrRefuses
  cases h : f.versionCell with
  | none =>
    rw [connect_unversioned h] at hagain ⊢
    refine iff_of_true ⟨fun _ => ⟨f.versioned_complete, ?_, f.kept_versioned⟩, nofun,
      hagain⟩ (.inl rfl)
    rw [DbFile.versionCell_versioned h]
    exact Cell.isVersion_inserted limit
  | some c =>
    cases hc : c.isVersion limit with
    | true =>
      rw [connect_version h hc] at hagain ⊢
      refine iff_of_true ⟨fun _ => ⟨f.completed_complete, ?_, f.kept_completed⟩, nofun,
        hagain⟩ (.inl hc)
      rw [DbFile.versionCell_completed, h]
      exact hc
    | false =>
      obtain ⟨e, open', hrefused⟩ := connect_refused limit pyStr hc
      rw [hrefused f h] at hagain ⊢
      constructor
      · intro hopens
        exact .inr (DbFile.untouched_completed.mp (hopens.2.1 rfl))
      · rintro (hversion | hcomplete)
        · exact absurd (hc.symm.trans hversion) Bool.false_ne_true
        · exact ⟨nofun, fun _ => DbFile.untouched_completed.mpr hcomplete, hagain⟩

/-! ## A file that is refused and changed -/

/-- A database of a later version, which has no table `backends`. -/
def laterFile : DbFile where
  wal := true
  tables
    | .backends => none
    | .settings => some [{ key := DbFile.versionKey, valueJson := .text (bytes "2") }]
    | .users | .apiKeys | .requestLogs => some []
  indexes _ := true
  indexed _ _ := rfl

/-- It is refused, and has the table. -/
theorem laterFile_refused_changed : ¬ ∀ limit pyStr f, OpensOrRefuses limit pyStr f := by
  intro h
  have huntouched := (h 1000 (fun _ => []) laterFile).2.1 (by decide +kernel)
  exact absurd (congrArg Option.isSome (congrFun huntouched.1 .backends)) (by decide +kernel)

end Database
end EasyModelGate
