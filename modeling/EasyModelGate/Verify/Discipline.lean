import EasyModelGate.Verify.Footprint

/-! # Writing under a discipline

Which tables are good, how good tables may change, and which writes keep to that. A connection whose
writes follow a discipline keeps its tables good, what it sees and what is durable, whatever other
connections commit and however long its transactions stay open. -/

namespace EasyModelGate

structure Discipline where
  Good : Tables → Prop
  Extends : Tables → Tables → Prop
  Allowed : Tables → Dml → Prop
  refl : ∀ t, Extends t t
  trans : ∀ t t' t'', Extends t t' → Extends t' t'' → Extends t t''
  run : ∀ t d cursor t', Good t → Allowed t d → d.bind t = .ok () → d.run t = .ok (cursor, t') →
    Good t' ∧ Extends t t'

namespace Conn

/-- What is seen and what is durable are good; a transaction that has written is ahead of the file,
one that has not may be behind it, but only when another connection has committed. -/
structure Keeps (D : Discipline) (c : Conn) : Prop where
  durable : D.Good c.durable
  view : D.Good c.view
  ahead : ∀ tx, c.tx = some tx → tx.wrote = true → D.Extends c.durable c.view
  behind : ∀ tx, c.tx = some tx → tx.wrote = false → D.Extends c.view c.durable
  fresh : ∀ tx, c.tx = some tx → tx.wrote = false → tx.stale = false → c.view = c.durable

/-- A step of the connection: nothing that was seen or durable is undone. -/
structure Moves (D : Discipline) (c c' : Conn) : Prop where
  keeps : c'.Keeps D
  view : D.Extends c.view c'.view
  durable : D.Extends c.durable c'.durable

variable {D : Discipline} {c : Conn}

theorem Keeps.settled {t : Tables} (h : D.Good t) (locked : Bool) :
    Keeps D { durable := t, locked } where
  durable := h
  view := h
  ahead _ ht := nomatch ht
  behind _ ht := nomatch ht
  fresh _ ht := nomatch ht

theorem Moves.refl (h : c.Keeps D) : c.Moves D c := ⟨h, D.refl _, D.refl _⟩

/-- Only the bookkeeping of the transaction changes. -/
theorem Keeps.same {c' : Conn} (h : c.Keeps D) (hdurable : c'.durable = c.durable)
    (hview : c'.view = c.view) (htx : ∀ tx', c'.tx = some tx' →
      (∃ tx, c.tx = some tx ∧ tx'.wrote = tx.wrote ∧ tx'.stale = tx.stale) ∨
      c.view = c.durable) : c.Moves D c' := by
  refine ⟨⟨hdurable ▸ h.durable, hview ▸ h.view, ?_, ?_, ?_⟩, hview ▸ D.refl _, hdurable ▸ D.refl _⟩
  all_goals
    rw [hdurable, hview]
    intro tx' htx'
    rcases htx tx' htx' with ⟨tx, ht, hwrote, hstale⟩ | heq
  · exact fun hw => h.ahead tx ht (hwrote ▸ hw)
  · exact fun _ => heq ▸ D.refl _
  · exact fun hw => h.behind tx ht (hwrote ▸ hw)
  · exact fun _ => heq ▸ D.refl _
  · exact fun hw hs => h.fresh tx ht (hwrote ▸ hw) (hstale ▸ hs)
  · exact fun _ _ => heq

theorem Keeps.pin (h : c.Keeps D) : c.Moves D c.pin := by
  refine h.same rfl (view_pin c) fun tx' htx' => ?_
  obtain ⟨tx, ht, rfl⟩ := Option.map_eq_some_iff.mp htx'
  exact .inl ⟨tx, ht, rfl, rfl⟩

theorem Keeps.begin (h : c.Keeps D) : c.Moves D c.begin := by
  refine h.same rfl (view_begin c) fun tx' htx' => ?_
  rcases c with ⟨d, _ | tx, l⟩
  · exact .inr rfl
  · exact .inl ⟨tx', htx', rfl, rfl⟩

/-- A connection that may write sees everything that is durable. -/
theorem Keeps.durable_view (h : c.Keeps D) (hbusy : c.busy = false) :
    D.Extends c.durable c.view := by
  cases ht : c.tx with
  | none => simpa [Conn.view, ht] using D.refl c.durable
  | some tx =>
    cases hw : tx.wrote with
    | true => exact h.ahead tx ht hw
    | false =>
      rw [Conn.busy, ht, Option.any_some, Bool.or_eq_false_iff] at hbusy
      exact h.fresh tx ht hw hbusy.2 ▸ D.refl _

theorem Keeps.written {t : Tables} (h : c.Keeps D) (hbusy : c.busy = false) (hgood : D.Good t)
    (hext : D.Extends c.view t) : c.Moves D (c.written t) := by
  refine ⟨⟨h.durable, hgood, ?_, ?_, ?_⟩, hext, D.refl _⟩
  · exact fun _ _ _ => D.trans _ _ _ (h.durable_view hbusy) hext
  · rintro _ ⟨⟩ ⟨⟩
  · rintro _ ⟨⟩ ⟨⟩

/-- What a commit makes durable. -/
theorem committed_cases (c : Conn) :
    c.committed.durable = c.durable ∧
    (∀ tx, c.tx = some tx → tx.wrote = true → c.view = c.durable) ∨
      c.committed.durable = c.view ∧ ∃ tx, c.tx = some tx ∧ tx.wrote = true := by
  rcases c with ⟨d, _ | ⟨v, _ | _, st⟩, l⟩
  · exact .inl ⟨rfl, fun _ ht => nomatch ht⟩
  · refine .inl ⟨?_, ?_⟩
    · cases v <;> rfl
    · rintro _ ⟨⟩ ⟨⟩
  · cases v with
    | none => exact .inl ⟨rfl, fun _ _ _ => rfl⟩
    | some t => exact .inr ⟨rfl, _, rfl, rfl⟩

theorem Keeps.committed (h : c.Keeps D) : c.Moves D c.committed := by
  have hkeeps (hgood : D.Good c.committed.durable) : c.committed.Keeps D :=
    .settled hgood c.locked
  have hview : c.committed.view = c.committed.durable := rfl
  rcases committed_cases c with ⟨hd, hsame⟩ | ⟨hd, tx, ht, hw⟩
  · refine ⟨hkeeps (hd ▸ h.durable), ?_, hd ▸ D.refl _⟩
    rw [hview, hd]
    cases ht : c.tx with
    | none => simpa [Conn.view, ht] using D.refl c.durable
    | some tx =>
      cases hw : tx.wrote with
      | true => exact hsame tx ht hw ▸ D.refl _
      | false => exact h.behind tx ht hw
  · refine ⟨hkeeps (hd ▸ h.view), ?_, hd ▸ h.ahead tx ht hw⟩
    rw [hview, hd]
    exact D.refl _

/-- What becomes of a write. -/
theorem write_cases (c : Conn) (d : Dml) :
    (∃ e, (c.write d).1 = .error e ∧
      ((c.write d).2 = c ∨ c.busy = false ∧ (c.write d).2 = c.written c.view)) ∨
      ∃ cursor t, c.busy = false ∧ d.bind c.view = .ok () ∧ d.run c.view = .ok (cursor, t) ∧
        c.write d = (.ok cursor, c.written t) := by
  unfold Conn.write
  cases hbind : d.bind c.view with
  | error e => exact .inl ⟨e, rfl, .inl rfl⟩
  | ok u =>
    cases hbusy : c.busy with
    | true => exact .inl ⟨_, rfl, .inl rfl⟩
    | false =>
      cases hrun : d.run c.view with
      | error e => exact .inl ⟨e, rfl, .inr ⟨rfl, rfl⟩⟩
      | ok p => exact .inr ⟨p.1, p.2, rfl, rfl, rfl, rfl⟩

theorem Keeps.write (h : c.Keeps D) {d : Dml} (hd : D.Allowed c.view d) :
    c.Moves D (c.write d).2 := by
  rcases write_cases c d with ⟨e, -, hsame | ⟨hbusy, hwritten⟩⟩ | ⟨cursor, t, hbusy, hbind,
    hrun, hwritten⟩
  · rw [hsame]
    exact .refl h
  · rw [hwritten]
    exact h.written hbusy h.view (D.refl _)
  · rw [hwritten]
    obtain ⟨hgood, hext⟩ := D.run _ d cursor t h.view hd hbind hrun
    exact h.written hbusy hgood hext

/-- **One statement** that keeps to the discipline. -/
theorem Keeps.step (h : c.Keeps D) {s : Stmt} (hs : s.Within (D.Allowed c.view)) :
    c.Moves D (c.step none s).2 := by
  cases hs with
  | query q =>
    cases hq : q.exec c.view with
    | error e => rw [step_query_error hq]; exact .refl h
    | ok r => rw [step_query_ok hq]; exact h.pin
  | @dml d hd =>
    have hbegin := h.begin
    have hwrite := hbegin.keeps.write (d := d) (by rwa [view_begin])
    exact ⟨hwrite.keeps, view_begin c ▸ hwrite.view, hwrite.durable⟩
  | commit => exact h.committed

theorem Keeps.handler (h : c.Keeps D) {s : Stmt} (hs : s.Within (D.Allowed c.view)) :
    c.Moves D (Conn.handler s c).2 := h.step hs

theorem Moves.trans {c' c'' : Conn} (h : c.Moves D c') (h' : c'.Moves D c'') : c.Moves D c'' :=
  ⟨h'.keeps, D.trans _ _ _ h.view h'.view, D.trans _ _ _ h.durable h'.durable⟩

end Conn

/-! ## Another process -/

/-- A write that changes no row changes nothing. -/
theorem Dml.run_of_rowcount {d : Dml} (h : d.run t = .ok (cursor, t'))
    (h0 : cursor.rowcount = 0) : t' = t := by
  have husers (p : Row User → Bool) (f : User → User) (hcount : t.users.count p = 0) :
      ({ t with users := t.users.update p f } : Tables) = t := by
    rw [Table.update_of_count hcount]
  have hkeys (p : Row ApiKey → Bool) (f : ApiKey → ApiKey) (hcount : t.apiKeys.count p = 0) :
      ({ t with apiKeys := t.apiKeys.update p f } : Tables) = t := by
    rw [Table.update_of_count hcount]
  cases d with
  | insertUser | insertApiKey | insertRequestLog =>
    simp only [Dml.run] at h
    split at h <;> cases h
    exact absurd h0 Nat.one_ne_zero
  | upsertSetting =>
    cases h
    exact absurd h0 Nat.one_ne_zero
  | setUserEnabled | setUserEnabledById =>
    cases h
    exact husers _ _ h0
  | setKeyEnabledById | setKeyLimitsById | touchLastUsed | addTokenUsed =>
    cases h
    exact hkeys _ _ h0

namespace Conn

/-- The connection of another process that found the tables `t₀` durable, and the lock held or
not. -/
structure Other.Keeps (D : Discipline) (t₀ : Tables) (held : Bool) (o : Other) : Prop where
  conn : o.conn.Keeps D
  durable : D.Extends t₀ o.conn.durable
  unpublished : o.published = false → o.conn.durable = t₀
  clean : o.dirty = false → o.conn.view = o.conn.durable
  lock : o.conn.locked = held
  locked : held = true → o.conn.durable = t₀ ∧ ∀ tx, o.conn.tx = some tx → tx.wrote = false

namespace Other

variable {D : Discipline} {t₀ : Tables} {held : Bool} {o : Other}

theorem Keeps.init (h : D.Good t₀) (locked : Bool) :
    Keeps D t₀ locked { conn := { durable := t₀, locked } } where
  conn := .settled h locked
  durable := D.refl _
  unpublished _ := rfl
  clean _ := rfl
  lock := rfl
  locked _ := ⟨rfl, fun _ ht => nomatch ht⟩

/-- A statement that is no commit. -/
theorem Keeps.moved (h : o.Keeps D t₀ held) {conn : Conn} {dirty : Bool}
    (hmoves : o.conn.Moves D conn) (hdurable : conn.durable = o.conn.durable)
    (hlocked : conn.locked = o.conn.locked)
    (hwrote : held = true → ∀ tx, conn.tx = some tx → tx.wrote = false)
    (hdirty : dirty = false → o.dirty = false ∧ conn.view = o.conn.view) :
    Keeps D t₀ held { o with conn, dirty } where
  conn := hmoves.keeps
  durable := hdurable ▸ h.durable
  unpublished hp := hdurable.trans (h.unpublished hp)
  clean hd := by
    obtain ⟨hclean, hview⟩ := hdirty hd
    rw [hview, hdurable, h.clean hclean]
  lock := hlocked.trans h.lock
  locked hl := ⟨hdurable.trans (h.locked hl).1, hwrote hl⟩

theorem Keeps.query (h : o.Keeps D t₀ held) (q : Query) :
    (Other.handler (.query q) o).2.Keeps D t₀ held := by
  change Keeps D t₀ held { o with conn := (o.conn.step none (.query q)).2 }
  cases hq : q.exec o.conn.view with
  | error e =>
    rw [step_query_error hq]
    exact h
  | ok r =>
    rw [step_query_ok hq]
    refine h.moved h.conn.pin rfl rfl (fun hl tx' htx' => ?_) fun hd => ⟨hd, view_pin _⟩
    obtain ⟨tx, ht, rfl⟩ := Option.map_eq_some_iff.mp htx'
    exact (h.locked hl).2 tx ht

theorem Keeps.commit (h : o.Keeps D t₀ held) : (Other.handler .commit o).2.Keeps D t₀ held := by
  have hmoves := h.conn.committed
  refine ⟨hmoves.keeps, D.trans _ _ _ h.durable hmoves.durable, fun hp => ?_, fun _ => rfl,
    h.lock, fun hl => ?_⟩
  · obtain ⟨hp, hd⟩ := Bool.or_eq_false_iff.mp hp
    rcases committed_cases o.conn with ⟨hsame, -⟩ | ⟨hview, -⟩
    · exact hsame.trans (h.unpublished hp)
    · exact (hview.trans (h.clean hd)).trans (h.unpublished hp)
  · obtain ⟨hsame, hwrote⟩ := h.locked hl
    rcases committed_cases o.conn with ⟨hd, -⟩ | ⟨-, tx, ht, hw⟩
    · exact ⟨hd.trans hsame, fun _ ht => nomatch ht⟩
    · exact absurd ((hwrote tx ht).symm.trans hw) Bool.false_ne_true

theorem Keeps.dml (h : o.Keeps D t₀ held) {d : Dml} (hd : D.Allowed o.conn.view d) :
    (Other.handler (.dml d) o).2.Keeps D t₀ held := by
  have hmoves := h.conn.handler (s := .dml d) (.dml hd)
  have hunlocked (hbusy : o.conn.begin.busy = false) (hl : held = true) : False := by
    have hlocked := (Bool.or_eq_false_iff.mp hbusy).1
    exact Bool.false_ne_true (hlocked.symm.trans (h.lock.trans hl))
  change o.conn.Moves D (o.conn.begin.write d).2 at hmoves
  change Keeps D t₀ held { o with
    conn := (o.conn.begin.write d).2
    dirty := o.dirty || (o.conn.begin.write d).1.toOption.any fun cur => decide (0 < cur.rowcount) }
  rcases write_cases o.conn.begin d with ⟨e, he, hs | ⟨hbusy, hs⟩⟩ | ⟨cursor, t, hbusy, -, hrun, hs⟩
  · rw [he]
    rw [hs] at hmoves ⊢
    refine h.moved hmoves rfl rfl (fun hl tx ht => ?_) fun hd =>
      ⟨(Bool.or_eq_false_iff.mp hd).1, view_begin _⟩
    rcases hc : o.conn.tx with _ | tx₀ <;> rw [Conn.begin, hc] at ht <;> cases ht
    · rfl
    · exact (h.locked hl).2 _ hc
  · rw [he]
    rw [hs] at hmoves ⊢
    exact h.moved hmoves rfl rfl (fun hl => (hunlocked hbusy hl).elim) fun hd =>
      ⟨(Bool.or_eq_false_iff.mp hd).1, view_begin _⟩
  · rw [hs] at hmoves ⊢
    refine h.moved hmoves rfl rfl (fun hl => (hunlocked hbusy hl).elim) fun hd => ?_
    obtain ⟨hclean, hcount⟩ := Bool.or_eq_false_iff.mp hd
    have h0 : cursor.rowcount = 0 := Nat.eq_zero_of_not_pos (of_decide_eq_false hcount)
    exact ⟨hclean, (Dml.run_of_rowcount hrun h0).trans (view_begin _)⟩

/-- The whole run of a process whose writes are allowed on any tables. -/
theorem Keeps.run (h : o.Keeps D t₀ held) {p : Coro Stmt Stmt.Res Exn α}
    (hp : Db.Writes (fun d => ∀ t, D.Allowed t d) p) :
    (p.run Other.handler o).2.Keeps D t₀ held := by
  induction hp generalizing o with
  | ret => exact h
  | raise => exact h
  | @await s k hs _ ih =>
    refine ih _ (o := (Other.handler s o).2) ?_
    cases hs with
    | query q => exact h.query q
    | dml hd => exact h.dml (hd _)
    | commit => exact h.commit

end Other

/-- **Another process** beside the connection: what it commits is in the file, and a pinned snapshot
becomes stale. -/
theorem Keeps.outside {D : Discipline} {c : Conn} (h : c.Keeps D) {p : Coro Stmt Stmt.Res Exn α}
    (hp : Db.Writes (fun d => ∀ t, D.Allowed t d) p) : c.Moves D (c.outside p).2 := by
  have ho := (Other.Keeps.init h.durable (c.tx.any Tx.wrote)).run hp
  set o := (p.run Other.handler { conn := { durable := c.durable, locked := c.tx.any Tx.wrote } }).2
  have hout : (c.outside p).2 = { c with
      durable := o.conn.durable
      tx := c.tx.map fun tx => { tx with stale := tx.stale || (o.published && tx.view.isSome) } } :=
      rfl
  rw [hout]
  rcases hc : c with ⟨d, _ | ⟨_ | t, wrote, stale⟩, l⟩ <;> subst c
  · exact ⟨.settled ho.conn.durable l, ho.durable, ho.durable⟩
  · -- no snapshot yet: the transaction sees what is durable
    refine ⟨⟨ho.conn.durable, ho.conn.durable, ?_, ?_, ?_⟩, ho.durable, ho.durable⟩
    · exact fun _ _ _ => D.refl _
    · exact fun _ _ _ => D.refl _
    · exact fun _ _ _ _ => rfl
  · refine ⟨⟨ho.conn.durable, h.view, ?_, ?_, ?_⟩, D.refl _, ho.durable⟩
    · rintro _ ⟨⟩ hw
      rw [(ho.locked hw).1]
      exact h.ahead _ rfl hw
    · rintro _ ⟨⟩ hw
      exact D.trans _ _ _ (h.behind _ rfl hw) ho.durable
    · rintro _ ⟨⟩ hw hs
      obtain ⟨hstale, hpub⟩ := Bool.or_eq_false_iff.mp hs
      have hpub : o.published = false := by simpa using hpub
      rw [ho.unpublished hpub]
      exact h.fresh _ rfl hw hstale

end Conn
end EasyModelGate
