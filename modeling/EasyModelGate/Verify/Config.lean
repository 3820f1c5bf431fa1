import EasyModelGate.Config

/-! # The precedence of the configuration

Whatever `load_config` returns has the right source in every field. The one rule of `_coerce` for
`float` and `float | None` is what can give a field a value that is not of its type. -/

namespace EasyModelGate

/-! ## The property -/

/-- A value is of a type in the strictest sense. -/
def FieldType.Exactly : FieldType → PyValue → Prop
  | .str, v => ∃ s, v = some (.str s)
  | .int, v => ∃ n, v = some (.int n)
  | .float, v => ∃ x, v = some (.float x)
  | .floatOrNone, v => v = none ∨ ∃ x, v = some (.float x)
  | .intOrNone, v => v = none ∨ ∃ n, v = some (.int n)
  | .bool, v => ∃ b, v = some (.bool b)

/-- The types that `None` belongs to. -/
def FieldType.optional : FieldType → Bool
  | .floatOrNone | .intOrNone => true
  | _ => false

/-- When a value has its declared type: an `int` may count as a `float`, and a `bool` as an `int`,
or may not. -/
structure Typing where
  holds : FieldType → PyValue → Prop
  of_exactly : ∀ {a v}, a.Exactly v → holds a v
  none_iff : ∀ {a}, holds a none ↔ a.optional = true

/-- The value of a field in a document. -/
def documented (data : List (Str × Toml)) (f : Field) : Option Toml :=
  match data.lookup f.sect.name with
  | some (.table items) => items.lookup f.name
  | _ => none

/-- The environment, else the document, else the default. -/
def firstSource (data : List (Str × Toml)) (env : Str → Option Str) (f : Field) :
    Except PyExn PyValue :=
  match env f.envKey with
  | some raw => coerce f.type raw
  | none => .ok (((documented data f).map some).getD f.default)

/-- A zero of `timeouts.read` is `None`. -/
def expected (data : List (Str × Toml)) (env : Str → Option Str) (f : Field) :
    Except PyExn PyValue :=
  (firstSource data env f).map fun v : PyValue =>
    if f = .read ∧ v.any Toml.eqZero = true then none else v

/-- The known sections are tables whose known fields have their declared types. -/
def WellTyped (T : Typing) (data : List (Str × Toml)) : Prop :=
  (∀ s ∈ sections, ∀ v, data.lookup s.name = some v → ∃ items, v = .table items) ∧
  ∀ f v, documented data f = some v → T.holds f.type (some v)

/-- `load_config` raises, or every field has the value of its first source, of its declared type. -/
def LoadsOrRaises (T : Typing) (files : Files) (env : Str → Option Str)
    (path : Option Str) : Prop :=
  (∃ e, loadConfig files env path = .error e) ∨
  ∃ data cfg, files.parsed (configPath env path) = some (.ok data) ∧
    loadConfig files env path = .ok cfg ∧
    (∀ f, expected data env f = .ok (cfg f)) ∧ (∀ f, T.holds f.type (cfg f)) ∧
    ∀ f, cfg f = none → f = .read

/-! ## What is refused -/

/-- The text of a variable is no value of the type. -/
def refuses : FieldType → Str → Bool
  | .int, raw => raw.toInt?.isNone
  | .float, raw | .floatOrNone, raw | .intOrNone, raw => !blank raw && raw.toFloat?.isNone
  | .bool, _ | .str, _ => false

def Section.hasField (s : Section) (name : Str) : Bool := s.fields.any fun f => f.name = name

/-- The table of the section has known fields only. -/
def knownFields (data : List (Str × Toml)) (s : Section) : Bool :=
  match data.lookup s.name with
  | some (.table items) => items.all fun i => s.hasField i.1
  | _ => true

/-- There is a document, with known fields only, and no variable has an unreadable text. -/
def Readable (files : Files) (env : Str → Option Str) (path : Option Str) : Prop :=
  ∃ data, files.parsed (configPath env path) = some (.ok data) ∧
    (∀ s ∈ sections, knownFields data s = true) ∧
    ∀ f raw, env (Field.envKey f) = some raw → refuses f.type raw = false

variable {T : Typing} {data : List (Str × Toml)} {env : Str → Option Str} {a : FieldType}
  {r : Str} {v : PyValue} {f : Field} {fs : List Field} {s : Section} {raw raw' : Raw}

theorem coerce_error_iff : (∃ e, coerce a r = .error e) ↔ refuses a r = true := by
  cases a with
  | str | bool => simp [coerce, refuses]
  | int => cases h : r.toInt? <;> simp [coerce, refuses, h]
  | float | floatOrNone | intOrNone =>
    cases hb : blank r
    · cases h : r.toFloat? <;> simp [coerce, refuses, hb, h]
    · simp [coerce, refuses, hb]

/-- A value from the environment has its type, unless it is the `None` of a `float`. -/
theorem coerce_exactly (h : coerce a r = .ok v) (ha : a ≠ .intOrNone)
    (hb : a = .float → blank r = false) :
    a.Exactly v := by
  cases a with
  | str =>
    cases h
    exact ⟨r, rfl⟩
  | bool =>
    cases h
    exact ⟨_, rfl⟩
  | int =>
    cases hn : r.toInt? <;> simp only [coerce, hn] at h <;> cases h
    exact ⟨_, rfl⟩
  | float =>
    simp only [coerce, hb rfl, Bool.false_eq_true, if_false] at h
    cases hx : r.toFloat? <;> rw [hx] at h <;> cases h
    exact ⟨_, rfl⟩
  | floatOrNone =>
    cases hblank : blank r with
    | true =>
      simp only [coerce, hblank, if_true] at h
      cases h
      exact .inl rfl
    | false =>
      simp only [coerce, hblank, Bool.false_eq_true, if_false] at h
      cases hx : r.toFloat? <;> rw [hx] at h <;> cases h
      exact .inr ⟨_, rfl⟩
  | intOrNone => exact absurd rfl ha

theorem coerce_blank (h : blank r = true) : coerce .float r = .ok none := if_pos h

/-! ## The merge of one section -/

namespace Raw

theorem get?_set_self (raw : Raw) (key : Str) (v : PyValue) :
    (raw.set key v).get? key = some v := by
  simp [set, get?]

theorem get?_set_of_ne {key key' : Str} (h : key' ≠ key) (raw : Raw) (v : PyValue) :
    (raw.set key v).get? key' = raw.get? key' := by
  have hfilter (items : List (Str × PyValue)) :
      (items.filter fun i => i.1 ≠ key).lookup key' = items.lookup key' := by
    induction items with
    | nil => rfl
    | cons i items ih =>
      obtain ⟨k, w⟩ := i
      by_cases hk : k = key
      · subst hk
        rw [List.filter_cons_of_neg (by simp), ih, List.lookup_cons, beq_eq_false_iff_ne.mpr h]
      · rw [List.filter_cons_of_pos (by simpa using hk), List.lookup_cons, List.lookup_cons, ih]
  rw [get?, set, List.lookup_cons, beq_eq_false_iff_ne.mpr h]
  exact hfilter raw.items

/-- Only known names, and no other keys. -/
def Known (p : Str → Bool) (raw : Raw) : Prop := raw.keywords = true ∧ ∀ i ∈ raw.items, p i.1 = true

theorem known_set {p : Str → Bool} {key : Str} (h : p key = true) (raw : Raw) (v : PyValue) :
    Known p (raw.set key v) ↔ Known p raw := by
  refine and_congr_right fun _ => ⟨fun hall i hi => ?_, fun hall i hi => ?_⟩
  · by_cases hk : i.1 = key
    · rw [hk]
      exact h
    · exact hall i (.tail _ (List.mem_filter.mpr ⟨hi, by simpa using hk⟩))
  · rcases List.mem_cons.mp hi with rfl | hi
    · exact h
    · exact hall i (List.mem_filter.mp hi).1

/-- What the environment makes of a value. -/
def sourced (env : Str → Option Str) (f : Field) (old : Option PyValue) :
    Except PyExn (Option PyValue) :=
  match env f.envKey with
  | none => .ok old
  | some r => (coerce f.type r).map some

theorem overlay_unset (h : env f.envKey = none) :
    raw.overlay env (f :: fs) = raw.overlay env fs := by
  rw [overlay, List.foldlM_cons, h]
  rfl

theorem overlay_set (h : env f.envKey = some r) (hv : coerce f.type r = .ok v) :
    raw.overlay env (f :: fs) = (raw.set f.name v).overlay env fs := by
  simp only [overlay, List.foldlM_cons, h, hv]
  rfl

theorem overlay_refused (h : env f.envKey = some r) (hv : coerce f.type r = .error e) :
    raw.overlay env (f :: fs) = .error e := by
  simp only [overlay, List.foldlM_cons, h, hv]
  rfl

theorem overlay_error_iff (raw : Raw) : (∃ e, raw.overlay env fs = .error e) ↔
    ∃ f ∈ fs, ∃ r, env f.envKey = some r ∧ refuses f.type r = true := by
  induction fs generalizing raw with
  | nil => simp [overlay, pure, Except.pure]
  | cons f fs ih =>
    rw [List.exists_mem_cons_iff]
    cases h : env f.envKey with
    | none => simp only [overlay_unset h, ih, reduceCtorEq, false_and, exists_false, false_or]
    | some r =>
      cases hv : coerce f.type r with
      | ok v =>
        have hrefuses : ¬ refuses f.type r = true := by
          rw [← coerce_error_iff, hv]
          exact fun ⟨_, he⟩ => nomatch he
        simp only [overlay_set h hv, ih, Option.some.injEq, exists_eq_left', hrefuses,
          Bool.false_eq_true, false_or]
      | error e =>
        rw [overlay_refused h hv]
        exact iff_of_true ⟨e, rfl⟩ (.inl ⟨r, rfl, coerce_error_iff.mp ⟨e, hv⟩⟩)

theorem overlay_ok (h : raw.overlay env fs = .ok raw') (hfs : (fs.map Field.name).Nodup) :
    (∀ key ∉ fs.map Field.name, raw'.get? key = raw.get? key) ∧
    (∀ f ∈ fs, sourced env f (raw.get? f.name) = .ok (raw'.get? f.name)) ∧
    ∀ p, (∀ f ∈ fs, p f.name = true) → (Known p raw' ↔ Known p raw) := by
  induction fs generalizing raw with
  | nil =>
    cases h
    exact ⟨fun _ _ => rfl, fun _ hf => (nomatch hf), fun _ _ => .rfl⟩
  | cons f fs ih =>
    obtain ⟨hnew, hfs⟩ := List.nodup_cons.mp hfs
    cases henv : env f.envKey with
    | none =>
      rw [overlay_unset henv] at h
      obtain ⟨hother, hfields, hknown⟩ := ih h hfs
      refine ⟨fun key hkey => hother key fun hmem => hkey (.tail _ hmem), ?_,
        fun p hp => hknown p fun f hf => hp f (.tail _ hf)⟩
      rintro g (_ | ⟨_, hg⟩)
      · rw [sourced, henv, hother f.name hnew]
      · exact hfields g hg
    | some r =>
      cases hv : coerce f.type r with
      | error e =>
        rw [overlay_refused henv hv] at h
        cases h
      | ok v =>
        rw [overlay_set henv hv] at h
        obtain ⟨hother, hfields, hknown⟩ := ih h hfs
        refine ⟨fun key hkey => ?_, ?_, fun p hp => ?_⟩
        · rw [hother key fun hmem => hkey (.tail _ hmem)]
          have hne : key ≠ f.name := by
            rintro rfl
            exact hkey List.mem_cons_self
          exact get?_set_of_ne hne raw v
        · rintro g (_ | ⟨_, hg⟩)
          · rw [sourced, henv, hother f.name hnew, get?_set_self]
            exact congrArg (Except.map some) hv
          · have hne : g.name ≠ f.name := fun hn => hnew (hn ▸ List.mem_map_of_mem hg)
            rw [← get?_set_of_ne hne raw v]
            exact hfields g hg
        · rw [hknown p fun f hf => hp f (.tail _ hf)]
          exact known_set (hp f (.head _)) raw v

theorem lookup_map_some (items : List (Str × Toml)) (key : Str) :
    (items.map fun i => (i.1, some i.2)).lookup key = (items.lookup key).map some := by
  induction items with
  | nil => rfl
  | cons i items ih =>
    rw [List.map_cons, List.lookup_cons, List.lookup_cons, ih]
    cases key == i.1 <;> rfl

/-- A section that is a table or is not there. -/
theorem ofSection_spec (h : ∀ v, data.lookup s.name = some v → ∃ items, v = .table items) :
    ∃ raw, ofSection data s = .ok raw ∧
    (∀ f, f.sect = s → raw.get? f.name = (documented data f).map some) ∧
      (Known s.hasField raw ↔ knownFields data s = true) := by
  unfold ofSection knownFields
  cases hv : data.lookup s.name with
  | none =>
    refine ⟨{}, rfl, fun f hf => ?_, by simp [Known]⟩
    subst hf
    simp only [documented, hv]
    rfl
  | some v =>
    obtain ⟨items, rfl⟩ := h v hv
    refine ⟨{ items := items.map fun i => (i.1, some i.2) }, ?_, fun f hf => ?_,
      by simp only [Known, List.forall_mem_map, List.all_eq_true, true_and]⟩
    · cases items <;> rfl
    · subst hf
      simp only [documented, hv]
      exact lookup_map_some items f.name

theorem construct_ok {inst : Field → PyValue} (h : raw.construct s = .ok inst) :
    inst = fun f => (raw.get? f.name).getD f.default := by
  unfold construct at h
  split at h <;> cases h
  rfl

theorem construct_error_iff (raw : Raw) (s : Section) : (∃ e, raw.construct s = .error e) ↔
    ¬ Known s.hasField raw := by
  have hknown : (raw.keywords = true ∧ raw.items.all fun i => s.fields.any fun f => f.name = i.1) ↔
      Known s.hasField raw := by
    rw [List.all_eq_true]
    exact .rfl
  unfold construct
  split
  · rename_i h
    exact iff_of_false (fun ⟨_, he⟩ => nomatch he) (not_not_intro (hknown.mp h))
  · rename_i h
    exact iff_of_true ⟨_, rfl⟩ fun hraw => h (hknown.mpr hraw)

theorem known_readZero (raw : Raw) (s : Section) : Known s.hasField (raw.readZero s) ↔
    Known s.hasField raw := by
  unfold readZero
  split
  · rename_i h
    rw [h.1]
    exact known_set (by decide) raw none
  · exact .rfl

theorem name_inj : ∀ f g : Field, f.name = g.name → f = g := by
  intro f g h
  cases f <;> cases g <;> first | rfl | exact absurd h (by decide)

/-- Only the value of `timeouts.read` changes. -/
theorem readZero_value (raw : Raw) (hf : f.sect = s) :
    (((raw.readZero s).get? f.name).getD f.default) =
    if f = .read ∧ ((raw.get? f.name).getD f.default).any Toml.eqZero = true then none
    else (raw.get? f.name).getD f.default := by
  unfold readZero
  by_cases hread : f = .read
  · subst hread
    subst hf
    by_cases hzero : ((raw.get? Field.read.name).getD none).any Toml.eqZero = true
    · rw [if_pos ⟨rfl, hzero⟩, if_pos ⟨rfl, hzero⟩, get?_set_self]
      rfl
    · rw [if_neg fun h => hzero h.2, if_neg fun h => hzero h.2]
  · simp only [hread, false_and, if_false]
    split
    · rw [get?_set_of_ne fun h => hread (name_inj _ _ h)]
    · rfl

end Raw

theorem mem_fields (f : Field) : f ∈ f.sect.fields := by
  cases f <;> decide

theorem fields_nodup (s : Section) : (s.fields.map Field.name).Nodup := by
  cases s <;> decide

theorem expected_eq (data : List (Str × Toml)) (env : Str → Option Str) (f : Field) :
    expected data env f =
    (Raw.sourced env f ((documented data f).map some)).map fun o =>
      if f = .read ∧ (o.getD f.default).any Toml.eqZero = true then none else o.getD f.default := by
  unfold expected firstSource Raw.sourced
  cases env f.envKey with
  | none => rfl
  | some r =>
    cases hv : coerce f.type r <;> simp only [hv] <;> rfl

/-- **The merge of one section.** -/
theorem loadSection_spec (env : Str → Option Str)
    (h : ∀ v, data.lookup s.name = some v → ∃ items, v = .table items) :
    ((∃ e, loadSection data env s = .error e) ↔ knownFields data s = false ∨
      ∃ f ∈ s.fields, ∃ r, env f.envKey = some r ∧ refuses f.type r = true) ∧
    ∀ inst, loadSection data env s = .ok inst → ∀ f, f.sect = s →
      expected data env f = .ok (inst f) := by
  obtain ⟨raw, hraw, hvalues, hknown⟩ := Raw.ofSection_spec h
  have hload : loadSection data env s = (raw.overlay env s.fields).bind fun raw =>
      (raw.readZero s).construct s := by
    rw [loadSection, hraw]
    rfl
  rw [← Raw.overlay_error_iff raw, hload]
  cases hover : raw.overlay env s.fields with
  | error e => exact ⟨iff_of_true ⟨e, rfl⟩ (.inr ⟨e, rfl⟩), fun _ hinst => nomatch hinst⟩
  | ok raw' =>
    obtain ⟨_, hsourced, hkeys⟩ := Raw.overlay_ok hover (fields_nodup s)
    have hfields : ∀ f ∈ s.fields, s.hasField f.name = true :=
      fun f hf => List.any_eq_true.mpr ⟨f, hf, by simp⟩
    constructor
    · refine (Raw.construct_error_iff (raw'.readZero s) s).trans ?_
      rw [Raw.known_readZero, hkeys _ hfields, hknown, Bool.not_eq_true]
      exact ⟨.inl, fun h => h.resolve_right fun ⟨_, he⟩ => nomatch he⟩
    · intro inst hinst f hf
      have hmem : f ∈ s.fields := hf ▸ mem_fields f
      rw [expected_eq, ← hvalues f hf, hsourced f hmem, Raw.construct_ok hinst]
      exact congrArg Except.ok (Raw.readZero_value raw' hf).symm

/-! ## All sections -/

theorem loadSections_spec (data : List (Str × Toml)) (env : Str → Option Str) {ss : List Section}
    (kwargs : Section → Field → PyValue) (hss : ss.Nodup) :
    ((∃ e, loadSections data env ss kwargs = .error e) ↔
      ∃ s ∈ ss, ∃ e, loadSection data env s = .error e) ∧
    ∀ k, loadSections data env ss kwargs = .ok k →
      (∀ s ∈ ss, loadSection data env s = .ok (k s)) ∧ ∀ s ∉ ss, k s = kwargs s := by
  induction ss generalizing kwargs with
  | nil =>
    refine ⟨by simp [loadSections, pure, Except.pure], fun k hk => ?_⟩
    cases hk
    exact ⟨fun _ hs => (nomatch hs), fun _ _ => rfl⟩
  | cons s ss ih =>
    obtain ⟨hnew, hss⟩ := List.nodup_cons.mp hss
    rw [List.exists_mem_cons_iff]
    cases hs : loadSection data env s with
    | error e =>
      have hstop : loadSections data env (s :: ss) kwargs = .error e := by
        rw [loadSections, List.foldlM_cons, hs]
        rfl
      rw [hstop]
      exact ⟨iff_of_true ⟨e, rfl⟩ (.inl ⟨e, rfl⟩), fun _ hk => nomatch hk⟩
    | ok inst =>
      have hnext : loadSections data env (s :: ss) kwargs =
          loadSections data env ss (Function.update kwargs s inst) := by
        rw [loadSections, List.foldlM_cons, hs]
        rfl
      rw [hnext]
      obtain ⟨herror, hok⟩ := ih (Function.update kwargs s inst) hss
      refine ⟨herror.trans ⟨.inr, fun h => h.resolve_left fun ⟨_, he⟩ => nomatch he⟩,
        fun k hk => ?_⟩
      obtain ⟨hin, hout⟩ := hok k hk
      constructor
      · rintro s' (_ | ⟨_, hs'⟩)
        · rw [hout s hnew, Function.update_self]
          exact hs
        · exact hin s' hs'
      · intro s' hs'
        have hne : s' ≠ s := by
          rintro rfl
          exact hs' List.mem_cons_self
        rw [hout s' fun h => hs' (.tail _ h), Function.update_of_ne hne]

theorem mem_sections (s : Section) : s ∈ sections := by
  cases s <;> decide

/-- **The merge of the whole configuration.** -/
theorem fromData_spec (h : WellTyped T data) :
    ((∃ e, fromData data env = .error e) ↔ (∃ s ∈ sections, knownFields data s = false) ∨
      ∃ f r, env (Field.envKey f) = some r ∧ refuses f.type r = true) ∧
    ∀ cfg, fromData data env = .ok cfg → ∀ f, expected data env f = .ok (cfg f) := by
  have hsection (s : Section) := loadSection_spec env (h.1 s (mem_sections s))
  have hnodup : sections.Nodup := by decide
  obtain ⟨herror, hok⟩ := loadSections_spec data env (fun _ f => f.default) hnodup
  unfold fromData
  constructor
  · have hrefused : (∃ s ∈ sections, ∃ e, loadSection data env s = .error e) ↔
        (∃ s ∈ sections, knownFields data s = false) ∨
          ∃ f r, env (Field.envKey f) = some r ∧ refuses f.type r = true := by
      simp only [fun s => (hsection s).1]
      constructor
      · rintro ⟨s, hs, hknown | ⟨f, _, r, hr⟩⟩
        · exact .inl ⟨s, hs, hknown⟩
        · exact .inr ⟨f, r, hr⟩
      · rintro (⟨s, hs, hknown⟩ | ⟨f, r, hr⟩)
        · exact ⟨s, hs, .inl hknown⟩
        · exact ⟨f.sect, mem_sections _, .inr ⟨f, mem_fields f, r, hr⟩⟩
    rw [← hrefused, ← herror]
    cases loadSections data env sections fun _ f => f.default with
    | error e => exact iff_of_true ⟨e, rfl⟩ ⟨e, rfl⟩
    | ok k => exact iff_of_false (fun ⟨_, he⟩ => nomatch he) fun ⟨_, he⟩ => nomatch he
  · intro cfg hcfg f
    cases hfold : loadSections data env sections fun _ f => f.default with
    | error e =>
      rw [hfold] at hcfg
      cases hcfg
    | ok k =>
      rw [hfold] at hcfg
      cases hcfg
      exact (hsection f.sect).2 _ ((hok k hfold).1 _ (mem_sections _)) f rfl

/-! ## Types -/

theorem default_exactly (f : Field) : f.type.Exactly f.default := by
  cases f with
  | read => exact .inl rfl
  | _ => exact ⟨_, rfl⟩

theorem type_ne_intOrNone (f : Field) : f.type ≠ .intOrNone := by
  cases f <;> exact FieldType.noConfusion

theorem type_optional : f.type.optional = true ↔ f = .read := by
  cases f <;> simp [Field.type, FieldType.optional]

/-- Every field has a value of its type, unless the `None` of a `float` comes from the
environment. -/
theorem expected_holds (h : WellTyped T data)
    (hblank : f.type = .float → ∀ r, env f.envKey = some r → blank r = false)
    (hv : expected data env f = .ok v) : T.holds f.type v := by
  have hfirst : ∀ w, firstSource data env f = .ok w → T.holds f.type w := by
    intro w hw
    unfold firstSource at hw
    cases henv : env f.envKey with
    | some r =>
      rw [henv] at hw
      exact T.of_exactly (coerce_exactly hw (type_ne_intOrNone f) fun ha => hblank ha r henv)
    | none =>
      rw [henv] at hw
      cases hw
      cases hdoc : documented data f with
      | some w => exact h.2 f w hdoc
      | none => exact T.of_exactly (default_exactly f)
  unfold expected at hv
  cases hw : firstSource data env f with
  | error e =>
    rw [hw] at hv
    cases hv
  | ok w =>
    rw [hw] at hv
    cases hv
    dsimp only
    split
    · rename_i hread
      exact T.none_iff.mpr (type_optional.mpr hread.1)
    · exact hfirst w hw

/-- The `None` of a `float`. -/
theorem expected_blank (ha : f.type = .float) (henv : env f.envKey = some r) (hb : blank r = true) :
    expected data env f = .ok none := by
  rw [expected, firstSource, henv, ha]
  simp only [coerce_blank hb]
  exact congrArg Except.ok (if_neg fun h => Bool.noConfusion h.2)

/-! ## `load_config` -/

variable {files : Files} {path : Option Str}

/-- What it returns comes from a document that can be read. -/
theorem loadConfig_ok {cfg : AppConfig} (h : loadConfig files env path = .ok cfg) :
    ∃ data, files.parsed (configPath env path) = some (.ok data) ∧ fromData data env = .ok cfg := by
  unfold loadConfig at h
  split at h
  · cases h
  · cases h
  · rename_i data hfile
    refine ⟨data, hfile, ?_⟩
    cases hcfg : fromData data env <;> rw [hcfg] at h <;> cases h
    rfl

theorem loadConfig_of_parsed (h : files.parsed (configPath env path) = some (.ok data)) :
    loadConfig files env path = (fromData data env).mapError .py := by
  rw [loadConfig, h]

theorem loadConfig_ok_iff (h : ∀ data, files.parsed (configPath env path) = some (.ok data) →
      WellTyped T data) :
    (∃ cfg, loadConfig files env path = .ok cfg) ↔ Readable files env path := by
  constructor
  · rintro ⟨cfg, hcfg⟩
    obtain ⟨data, hfile, hdata⟩ := loadConfig_ok hcfg
    have hraises : ¬ ∃ e, fromData data env = .error e := by
      rw [hdata]
      exact fun ⟨_, he⟩ => nomatch he
    rw [(fromData_spec (h data hfile)).1] at hraises
    refine ⟨data, hfile, fun s hs => ?_, fun f r henv => ?_⟩
    · exact Bool.eq_true_of_not_eq_false fun hknown => hraises (.inl ⟨s, hs, hknown⟩)
    · exact Bool.eq_false_of_not_eq_true fun hr => hraises (.inr ⟨f, r, henv, hr⟩)
  · rintro ⟨data, hfile, hknown, hread⟩
    cases hdata : fromData data env with
    | ok cfg => exact ⟨cfg, by rw [loadConfig_of_parsed hfile, hdata]; rfl⟩
    | error e =>
      rcases (fromData_spec (h data hfile)).1.mp ⟨e, hdata⟩ with ⟨s, hs, hs'⟩ | ⟨f, r, henv, hr⟩
      · exact absurd (hs'.symm.trans (hknown s hs)) Bool.false_ne_true
      · exact absurd ((hread f r henv).symm.trans hr) Bool.false_ne_true

/-- **The configuration is well typed unless a variable of a `float` field is empty or `none`.** -/
theorem loadsOrRaises_iff (T : Typing) (files : Files) (env : Str → Option Str) (path : Option Str)
    (h : ∀ data, files.parsed (configPath env path) = some (.ok data) → WellTyped T data) :
    LoadsOrRaises T files env path ↔ ¬ Readable files env path ∨
      ∀ f r, Field.type f = .float → env f.envKey = some r → blank r = false := by
  rw [← loadConfig_ok_iff h]
  constructor
  · rintro (⟨e, he⟩ | ⟨data, cfg, _, _, hvalues, _, hnone⟩)
    · rw [he]
      exact .inl fun ⟨_, hcfg⟩ => nomatch hcfg
    · refine .inr fun f r ha henv => Bool.eq_false_of_not_eq_true fun hb => ?_
      have hv := (hvalues f).symm.trans (expected_blank ha henv hb)
      have hread := hnone f (Except.ok.inj hv)
      subst hread
      cases ha
  · intro hcond
    cases hcfg : loadConfig files env path with
    | error e => exact .inl ⟨e, hcfg⟩
    | ok cfg =>
      obtain ⟨data, hfile, hdata⟩ := loadConfig_ok hcfg
      have hvalues := (fromData_spec (h data hfile)).2 cfg hdata
      have hblank := hcond.resolve_left (not_not_intro ⟨cfg, hcfg⟩)
      have hholds (f : Field) : T.holds f.type (cfg f) :=
        expected_holds (h data hfile) (fun ha r => hblank f r ha) (hvalues f)
      refine .inr ⟨data, cfg, hfile, hcfg, hvalues, hholds, fun f hf => ?_⟩
      have hnone := hholds f
      rw [hf, T.none_iff, type_optional] at hnone
      exact hnone

def Typing.strict : Typing where
  holds := FieldType.Exactly
  of_exactly h := h
  none_iff {a} := by cases a <;> simp [FieldType.Exactly, FieldType.optional]

/-- The document at `configs/config.toml`. -/
def Files.ofDocument (data : List (Str × Toml)) : Files where
  parsed path := if path = str "configs/config.toml" then some (.ok data) else none
  pathStr path := path

def portDocument : List (Str × Toml) := [(str "server", .table [(str "port", .int 3000)])]

def onlyVariable (key value : String) (name : Str) : Option Str :=
  if name = str key then some (str value) else none

theorem wellTyped_portDocument : WellTyped .strict portDocument := by
  constructor
  · intro s _ v hv
    cases s <;> cases hv
    exact ⟨_, rfl⟩
  · intro f v hv
    cases f <;> cases hv
    exact ⟨3000, rfl⟩

theorem loadsOrRaises_port :
    LoadsOrRaises .strict (.ofDocument portDocument)
      (onlyVariable "EMG_SERVER_PORT" "3999") none := by
  refine (loadsOrRaises_iff _ _ _ _ fun data hdata => ?_).mpr (.inr fun f r _ henv => ?_)
  · cases hdata
    exact wellTyped_portDocument
  · unfold onlyVariable at henv
    split at henv <;> cases henv
    decide +kernel

/-- The deadline of every request is `None`. -/
theorem loadConfig_untyped : ¬ ∀ T files env path,
    (∀ data, files.parsed (configPath env path) = some (.ok data) → WellTyped T data) →
      LoadsOrRaises T files env path := by
  intro h
  rcases h .strict (.ofDocument portDocument)
    (onlyVariable "EMG_TIMEOUTS_TOTAL_REQUEST" "none") none
    (fun data hdata => by cases hdata; exact wellTyped_portDocument) with ⟨e, he⟩ | ⟨data, cfg, _,
      _, hvalues, _, hnone⟩
  · have hok :
        (loadConfig (.ofDocument portDocument)
          (onlyVariable "EMG_TIMEOUTS_TOTAL_REQUEST" "none") none).isOk =
        true := by decide +kernel
    rw [he] at hok
    cases hok
  · have hblank : expected data (onlyVariable "EMG_TIMEOUTS_TOTAL_REQUEST" "none")
        .totalRequest = .ok none :=
      expected_blank (r := str "none") rfl rfl (by decide +kernel)
    exact Field.noConfusion (hnone .totalRequest
      (Except.ok.inj ((hvalues .totalRequest).symm.trans hblank)))

end EasyModelGate
