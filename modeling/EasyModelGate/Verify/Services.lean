import EasyModelGate.Cli
import EasyModelGate.Routers.AdminKeys
import EasyModelGate.Routers.AdminUsers
import EasyModelGate.Verify.Persist

/-! # What the services do

The postconditions of the operations on users and keys, on a connection with no open transaction. An
operation that fails leaves the file as it was; whether it also leaves the connection as it was
depends on what its writing statement was given. -/

namespace EasyModelGate

/-- A connection without a transaction. -/
def Conn.settled (t : Tables) : Conn := { durable := t }

@[simp] theorem Conn.view_settled (t : Tables) : (Conn.settled t).view = t := rfl
@[simp] theorem Conn.durable_settled (t : Tables) : (Conn.settled t).durable = t := rfl

theorem Conn.alone_settled (t : Tables) : (Conn.settled t).Alone := .of_tx_none rfl rfl

theorem Conn.Alone.committed_eq {c : Conn} (h : c.Alone) : c.committed = .settled c.view := by
  have hdurable := h.durable_committed
  have hlocked := h.unlocked
  obtain ⟨durable, tx, locked⟩ := c
  cases hlocked
  simp only [Conn.committed] at hdurable ⊢
  rw [hdurable]
  rfl

theorem Conn.handler_query (q : Query) (t : Tables) :
    Conn.handler (.query q) (.settled t) = ((q.exec t).mapError Exn.py, .settled t) := by
  cases hq : q.exec t with
  | error e => rw [Conn.handler, Conn.step_query_error (c := .settled t) hq]
  | ok r =>
    rw [Conn.handler, Conn.step_query_ok (c := .settled t) hq]
    rfl

/-- A writing statement: it fails, or what it has written waits for the commit. -/
theorem Conn.handler_dml (d : Dml) (t : Tables) :
    (∃ e c, d.effect t = (.error e, t) ∧ Conn.handler (.dml d) (.settled t) = (.error (.py e), c) ∧
      c.durable = t) ∨
    ∃ cur t' c, d.effect t = (.ok cur, t') ∧ Conn.handler (.dml d) (.settled t) = (.ok cur, c) ∧
      c.committed = .settled t' := by
  obtain ⟨hres, hview, hdurable, halone⟩ := (Conn.alone_settled t).step (.dml d)
  rw [Conn.view_settled, Stmt.effect] at hres hview
  rcases d.effect_cases t with ⟨e, he⟩ | ⟨cur, t', -, -, he⟩
  · refine .inl ⟨e, _, he, ?_, hdurable⟩
    rw [Conn.handler, hres, he]
    rfl
  · rw [he] at hview
    refine .inr ⟨cur, t', (Conn.step none (.dml d) (.settled t)).2, he, ?_, ?_⟩
    · rw [Conn.handler, hres, he]
      rfl
    · rw [halone.committed_eq, hview]

namespace Db

/-- What a coroutine makes of a settled connection. -/
def Meets (t : Tables) (c : Db α) (Q : α → Conn → Prop) (E : Exn → Conn → Prop) : Prop :=
  Coro.Meets Conn.handler (Conn.settled t) c Q E

/-- An error that leaves the file, and the connection when `clean`. -/
def Failed (t : Tables) (clean : Prop) (_ : Exn) (c : Conn) : Prop :=
  c.durable = t ∧ (clean → c = .settled t)

theorem Failed.settled {t : Tables} {clean : Prop} (e : Exn) : Failed t clean e (.settled t) :=
  ⟨rfl, fun _ => rfl⟩

variable {t : Tables} {Q : α → Conn → Prop} {E : Exn → Conn → Prop}

theorem meets_query {q : Query} {Q : q.Res → Conn → Prop}
    (hok : ∀ r, q.exec t = .ok r → Q r (.settled t))
    (herror : ∀ e, q.exec t = .error e → E (.py e) (.settled t)) : Meets t (Db.query q) Q E := by
  apply Coro.Meets.perform <;> rw [Conn.handler_query]
  · intro r hr
    apply hok r
    cases hq : q.exec t <;> rw [hq] at hr <;> cases hr
    rfl
  · intro e he
    cases hq : q.exec t <;> rw [hq] at he <;> cases he
    exact herror _ hq

/-- A write and its commit. -/
theorem meets_executeCommit {d : Dml} {Q : Cursor → Conn → Prop}
    (hok : ∀ cur t', d.effect t = (.ok cur, t') → Q cur (.settled t'))
    (herror : ∀ e c, d.effect t = (.error e, t) → c.durable = t → E (.py e) c) :
    Meets t (executeCommit d) Q E := by
  rcases Conn.handler_dml d t with ⟨e, c, he, hc, hdurable⟩ | ⟨cur, t', c, he, hc, hcommitted⟩
  · apply Coro.Meets.bind (Q := fun _ _ => False)
    · apply Coro.Meets.perform <;> rw [hc]
      · exact fun _ hr => by cases hr
      · rintro _ ⟨⟩
        exact herror e c he hdurable
    · exact fun _ _ h => h.elim
  · apply Coro.Meets.bind (Q := fun cur' c' => cur' = cur ∧ c' = c)
    · apply Coro.Meets.perform <;> rw [hc]
      · rintro _ ⟨⟩
        exact ⟨rfl, rfl⟩
      · exact fun _ he' => by cases he'
    · rintro cur' c' ⟨rfl, rfl⟩
      change Q cur' c'.committed
      rw [hcommitted]
      exact hok _ _ he

/-- What awaits nothing leaves the connection. -/
theorem meets_lift {x : Except Exn α} (hok : ∀ a, x = .ok a → Q a (.settled t))
    (herror : ∀ e, x = .error e → E e (.settled t)) : Meets t (lift x) Q E := by
  cases x with
  | ok a => exact hok a rfl
  | error e => exact herror e rfl

end Db

/-! ## Rows by their numbers -/

namespace Tables

theorem byId_eq_some {table : Table α} {id : Int} {row : Row α} :
    (rowId id).bind table.get? = some row ↔ id = row.id ∧ table.get? row.id = some row := by
  unfold rowId
  constructor
  · intro h
    obtain ⟨n, hn, hrow⟩ := Option.bind_eq_some_iff.mp h
    split at hn <;> cases hn
    have hid := (Table.get?_eq_some.mp hrow).2
    exact ⟨by omega, hid ▸ hrow⟩
  · rintro ⟨rfl, h⟩
    simpa using h

theorem userById_eq_some {t : Tables} {id : Int} : t.userById id = some row ↔
    id = row.id ∧ t.users.get? row.id = some row := byId_eq_some

theorem keyById_eq_some {t : Tables} {id : Int} : t.keyById id = some row ↔
    id = row.id ∧ t.apiKeys.get? row.id = some row := byId_eq_some

end Tables

section
variable {found : Option α} {id : Int}

/-- The number is bound, or there is no row of it. -/
theorem of_bindId_ok {r : Option α} (h : (bindId found.isSome id >>= fun _ => pure found) = .ok r) :
    r = found := by
  cases found with
  | some => exact (Except.ok.inj h).symm
  | none =>
    obtain ⟨_, -, h⟩ := Except.bind_eq_ok h
    exact (Except.ok.inj h).symm

theorem of_bindId_error {e : PyExn}
    (h : (bindId found.isSome id >>= fun _ => pure found) = .error e) : found = none := by
  cases found with
  | some => cases h
  | none => rfl

end

namespace Db

/-- A look at a user fails only when there is no such row. -/
theorem meets_userById {t : Tables} {userId : Int} {Q : Option (Row User) → Conn → Prop}
    {E : Exn → Conn → Prop} (hok : Q (t.userById userId) (.settled t))
    (herror : ∀ e, t.userById userId = none → E e (.settled t)) :
    Meets t (Dao.getUserById userId) Q E := by
  apply meets_query
  · intro r hr
    cases of_bindId_ok hr
    exact hok
  · exact fun e he => herror _ (of_bindId_error he)

theorem meets_keyById {t : Tables} {keyId : Int} {Q : Option (Row ApiKey) → Conn → Prop}
    {E : Exn → Conn → Prop} (hok : Q (t.keyById keyId) (.settled t))
    (herror : ∀ e, t.keyById keyId = none → E e (.settled t)) :
    Meets t (Dao.getKeyById keyId) Q E := by
  apply meets_query
  · intro r hr
    cases of_bindId_ok hr
    exact hok
  · exact fun e he => herror _ (of_bindId_error he)

end Db

/-! ## Users -/

/-- The new row of `create_user`. -/
def newUser (username : Str) (displayName note : Option Str) (nowMs : Int) : User :=
  { username, displayName, enabled := true, createdAt := nowMs, note }

def Tables.addUser (t : Tables) (u : User) : Tables := { t with users := t.users.insert u }
def Tables.addKey (t : Tables) (k : ApiKey) : Tables := { t with apiKeys := t.apiKeys.insert k }

/-- What the INSERT of `create_user` needs. -/
def userBinds (displayName note : Option Str) (nowMs : Int) : Bool :=
  displayName.all Str.valid && note.all Str.valid && fits64 nowMs

theorem createUser_meets {t : Tables} {clean : Prop}
    (hclean : clean → username.valid = true → t.userByUsername username = none →
      userBinds displayName note nowMs = true) :
    Db.Meets t (UserService.createUser username displayName note nowMs)
      (fun id c => t.userByUsername username = none ∧ id = t.users.seq + 1 ∧
        c = .settled (t.addUser (newUser username displayName note nowMs)))
      (Db.Failed t clean) := by
  apply Coro.Meets.bind (Q := fun r c => c = .settled t ∧ username.valid = true ∧
    r = t.userByUsername username)
  · apply Db.meets_query
    · intro r hr
      simp only [Query.exec, bindText] at hr
      split at hr <;> cases hr
      exact ⟨rfl, ‹_›, rfl⟩
    · exact fun e _ => .settled _
  · rintro r c ⟨rfl, hvalid, rfl⟩
    split
    · exact .raise (.settled _)
    · have hnone : t.userByUsername username = none := Option.not_isSome_iff_eq_none.mp ‹_›
      have hinsert : Db.Meets t (Dao.createUser username displayName note nowMs) (fun id c =>
          t.userByUsername username = none ∧ id = t.users.seq + 1 ∧
            c = .settled (t.addUser (newUser username displayName note nowMs)))
          (Db.Failed t clean) := by
        apply Coro.Meets.bind (Q := fun (cur : Cursor) c => cur.lastrowid = t.users.seq + 1 ∧
          c = .settled (t.addUser (newUser username displayName note nowMs)))
        · apply Db.meets_executeCommit
          · intro cur t' he
            obtain ⟨-, hr⟩ := Dml.effect_ok he
            simp only [Dml.run, hnone, Option.isSome_none] at hr
            cases hr
            exact ⟨rfl, rfl⟩
          · intro e c he hc
            refine ⟨hc, fun h => ?_⟩
            have hbinds := hclean h hvalid hnone
            simp only [userBinds, Bool.and_eq_true] at hbinds
            rcases Dml.effect_error he with hb | hr
            · simp [Dml.bind, bindText, hvalid, bindOption_text (u := ()) |>.mpr hbinds.1.1,
                bindOption_text (u := ()) |>.mpr hbinds.1.2, bindInt, hbinds.2, bind,
                Except.bind] at hb
            · simp [Dml.run, hnone] at hr
        · rintro cur c ⟨hcur, rfl⟩
          exact .ret ⟨hnone, hcur, rfl⟩
      apply Coro.Meets.handle hinsert
      intro e c hfailed
      split <;> exact .raise hfailed

/-- `users` with the rows that satisfy `p` switched. -/
def Tables.setUsers (t : Tables) (p : Row User → Bool) (enabled : Bool) : Tables :=
  { t with users := t.users.update p fun u => { u with enabled } }

/-- `api_keys` with one row changed. -/
def Tables.setKey (t : Tables) (id : Nat) (f : ApiKey → ApiKey) : Tables :=
  { t with apiKeys := t.apiKeys.update (fun r => decide (r.id = id)) f }

theorem setUserEnabled_meets (t : Tables) (username : Str) (enabled : Bool) :
    Db.Meets t (UserService.setUserEnabled username enabled)
      (fun _ c => c = .settled (t.setUsers (fun r => r.val.username = username) enabled) ∧
        (t.userByUsername username).isSome)
      (Db.Failed t False) := by
  apply Coro.Meets.bind (Q := fun (b : Bool) c =>
    c = .settled (t.setUsers (fun r => r.val.username = username) enabled) ∧
      (b = true ↔ 0 < t.users.count fun r => decide (r.val.username = username)))
  · apply Coro.Meets.bind (Q := fun (cur : Cursor) c =>
      c = .settled (t.setUsers (fun r => r.val.username = username) enabled) ∧
        cur.rowcount = t.users.count fun r => decide (r.val.username = username))
    · apply Db.meets_executeCommit
      · intro cur t' he
        obtain ⟨-, hr⟩ := Dml.effect_ok he
        cases hr
        exact ⟨rfl, rfl⟩
      · exact fun e c _ hc => ⟨hc, False.elim⟩
    · rintro cur c ⟨rfl, hcur⟩
      exact .ret ⟨rfl, by rw [hcur, decide_eq_true_iff]⟩
  · rintro b c ⟨rfl, hb⟩
    cases b with
    | true =>
      refine .ret ⟨rfl, ?_⟩
      obtain ⟨r, hr, hname⟩ := List.countP_pos_iff.mp (hb.mp rfl)
      exact List.find?_isSome.mpr ⟨r, hr, hname⟩
    | false =>
      have hzero : t.users.count (fun r => decide (r.val.username = username)) = 0 := by
        have := mt hb.mpr Bool.false_ne_true
        omega
      refine .raise ⟨?_, False.elim⟩
      simp only [Conn.durable_settled, Tables.setUsers, Table.update_of_count hzero]

/-- How many rows an UPDATE by id finds. -/
theorem count_int_id {t : Table α} {id : Int} :
    0 < t.count (fun r => decide ((r.id : Int) = id)) ↔ ∃ n : Nat, id = n ∧ (t.get? n).isSome := by
  unfold Table.count
  rw [List.countP_pos_iff]
  constructor
  · rintro ⟨r, hr, hid⟩
    exact ⟨r.id, (of_decide_eq_true hid).symm,
      Option.isSome_iff_exists.mpr ⟨r, Table.get?_eq_some.mpr ⟨hr, rfl⟩⟩⟩
  · rintro ⟨n, rfl, hsome⟩
    obtain ⟨r, hr⟩ := Option.isSome_iff_exists.mp hsome
    obtain ⟨hmem, rfl⟩ := Table.get?_eq_some.mp hr
    exact ⟨r, hmem, decide_eq_true rfl⟩

/-- An UPDATE by id finds the row, and then aims at its number, or finds none. -/
theorem count_cases (table : Table α) (id : Int) :
    (∃ row, (Tables.rowId id).bind table.get? = some row ∧
      0 < table.count (fun r => decide ((r.id : Int) = id)) ∧
      (fun r : Row α => decide ((r.id : Int) = id)) = fun r => decide (r.id = row.id)) ∨
    (Tables.rowId id).bind table.get? = none ∧
      table.count (fun r => decide ((r.id : Int) = id)) = 0 := by
  by_cases hpos : 0 < table.count (fun r => decide ((r.id : Int) = id))
  · obtain ⟨n, rfl, hsome⟩ := count_int_id.mp hpos
    obtain ⟨row, hrow⟩ := Option.isSome_iff_exists.mp hsome
    obtain ⟨-, rfl⟩ := Table.get?_eq_some.mp hrow
    exact .inl ⟨row, Tables.byId_eq_some.mpr ⟨rfl, hrow⟩, hpos, by simp only [Nat.cast_inj]⟩
  · refine .inr ⟨?_, Nat.eq_zero_of_not_pos hpos⟩
    cases hfound : (Tables.rowId id).bind table.get? with
    | none => rfl
    | some row =>
      obtain ⟨rfl, hrow⟩ := Tables.byId_eq_some.mp hfound
      exact absurd (count_int_id.mpr ⟨row.id, rfl, Option.isSome_iff_exists.mpr ⟨row, hrow⟩⟩) hpos

/-- An update of the key `id`, which is there or not. -/
theorem Dml.updateKey_cases (t : Tables) (id : Int) (f : ApiKey → ApiKey) :
    (∃ row, t.keyById id = some row ∧ 0 < (Dml.updateKey t id f).1.rowcount ∧
      (Dml.updateKey t id f).2 = t.setKey row.id f) ∨
    t.keyById id = none ∧ (Dml.updateKey t id f).1.rowcount = 0 ∧ (Dml.updateKey t id f).2 = t := by
  rcases count_cases t.apiKeys id with ⟨row, hrow, hpos, haimed⟩ | ⟨hnone, hzero⟩
  · exact .inl ⟨row, hrow, hpos, by rw [Dml.updateKey, haimed]; rfl⟩
  · exact .inr ⟨hnone, hzero, by rw [Dml.updateKey, Table.update_of_count hzero]⟩

/-- An update of the user `id`, who is there or not. -/
theorem Dml.updateUsers_cases (t : Tables) (id : Int) (f : User → User) :
    (∃ row, t.userById id = some row ∧
      0 < (Dml.updateUsers t (fun r => (r.id : Int) = id) f).1.rowcount ∧
      (Dml.updateUsers t (fun r => (r.id : Int) = id) f).2 =
        { t with users := t.users.update (fun r => decide (r.id = row.id)) f }) ∨
    t.userById id = none ∧ (Dml.updateUsers t (fun r => (r.id : Int) = id) f).1.rowcount = 0 ∧
      (Dml.updateUsers t (fun r => (r.id : Int) = id) f).2 = t := by
  rcases count_cases t.users id with ⟨row, hrow, hpos, haimed⟩ | ⟨hnone, hzero⟩
  · exact .inl ⟨row, hrow, hpos, by rw [Dml.updateUsers, haimed]⟩
  · exact .inr ⟨hnone, hzero, by rw [Dml.updateUsers, Table.update_of_count hzero]⟩

/-- An UPDATE of the row `id` and its commit, with whether it has found the row. -/
theorem meets_updateKey {t : Tables} {d : Dml} {id : Int} {f : ApiKey → ApiKey} {clean : Prop}
    (hrun : d.run t = .ok (Dml.updateKey t id f)) (hbind : clean → ∀ e, d.bind t ≠ .error e) :
    Db.Meets t (Db.executeCommit d)
      (fun cur c => (d.bind t = .ok ()) ∧
        ((∃ row, t.keyById id = some row ∧ 0 < cur.rowcount ∧ c = .settled (t.setKey row.id f)) ∨
          t.keyById id = none ∧ cur.rowcount = 0 ∧ c = .settled t))
      (Db.Failed t clean) := by
  apply Db.meets_executeCommit
  · intro cur t' he
    obtain ⟨hb, hr⟩ := Dml.effect_ok he
    rw [hrun] at hr
    cases hr
    refine ⟨hb, ?_⟩
    rcases Dml.updateKey_cases t id f with ⟨row, hrow, hpos, htables⟩ | ⟨hnone, hzero, htables⟩
    · exact .inl ⟨row, hrow, hpos, congrArg Conn.settled htables⟩
    · exact .inr ⟨hnone, hzero, congrArg Conn.settled htables⟩
  · intro e c he hc
    refine ⟨hc, fun h => ?_⟩
    rcases Dml.effect_error he with hb | hr
    · exact absurd hb (hbind h e)
    · rw [hrun] at hr
      cases hr

theorem bindId_ne_error {b : Bool} {n : Int} (h : fits64 n = true) (e : PyExn) :
    bindId b n ≠ .error e := by
  cases b <;> simp [bindId, bindInt, h]

theorem touchLastUsed_meets {t : Tables} {row : Row ApiKey} {nowMs : Int}
    (hrow : t.apiKeys.get? row.id = some row) (hfits : fits64 nowMs = true) :
    Db.Meets t (Dao.touchLastUsed row.id nowMs)
      (fun _ c => c = .settled (t.setKey row.id fun k => { k with lastUsedAt := some nowMs }))
        (fun _ _ => False) := by
  have hbind : (Dml.touchLastUsed row.id nowMs).bind t = .ok () := by
    simp [Dml.bind, bindInt, hfits, bindId, hrow, bind, Except.bind]
  apply Coro.Meets.bind (Q := fun _ c =>
    c = .settled (t.setKey row.id fun k => { k with lastUsedAt := some nowMs }))
  · apply Db.meets_executeCommit
    · intro cur t' he
      obtain ⟨-, hr⟩ := Dml.effect_ok he
      cases hr
      simp only [Tables.setKey, Nat.cast_inj]
    · intro e c he _
      rcases Dml.effect_error he with hb | hr
      · cases hbind.symm.trans hb
      · cases hr
  · rintro _ c rfl
    exact .ret rfl

theorem setUserEnabledById_meets {t : Tables} {userId : Int} {enabled clean}
    (hclean : clean → fits64 userId = true) :
    Db.Meets t (UserService.setUserEnabledById userId enabled)
      (fun row? c => ∃ row, t.userById userId = some row ∧
        row? = some ⟨row.id, { row.val with enabled }⟩ ∧
        c = .settled (t.setUsers (fun r => decide (r.id = row.id)) enabled))
      (Db.Failed t clean) := by
  apply Coro.Meets.bind (Q := fun (b : Bool) c =>
    (∃ row, t.userById userId = some row ∧ b = true ∧
      c = .settled (t.setUsers (fun r => decide (r.id = row.id)) enabled)) ∨
      b = false ∧ c = .settled t)
  · apply Coro.Meets.bind (Q := fun (cur : Cursor) c =>
      (∃ row, t.userById userId = some row ∧ 0 < cur.rowcount ∧
        c = .settled (t.setUsers (fun r => decide (r.id = row.id)) enabled)) ∨
        cur.rowcount = 0 ∧ c = .settled t)
    · apply Db.meets_executeCommit
      · intro cur t' he
        obtain ⟨-, hr⟩ := Dml.effect_ok he
        cases hr
        rcases Dml.updateUsers_cases t userId fun u => { u with enabled } with
          ⟨row, hrow, hpos, htables⟩ | ⟨hnone, hzero, htables⟩
        · exact .inl ⟨row, hrow, hpos, congrArg Conn.settled htables⟩
        · exact .inr ⟨hzero, congrArg Conn.settled htables⟩
      · intro e c he hc
        refine ⟨hc, fun h => ?_⟩
        rcases Dml.effect_error he with hb | hr
        · exact absurd hb (bindId_ne_error (hclean h) e)
        · cases hr
    · rintro cur c (⟨row, hrow, hpos, rfl⟩ | ⟨hzero, rfl⟩)
      · exact .ret (.inl ⟨row, hrow, decide_eq_true hpos, rfl⟩)
      · exact .ret (.inr ⟨by rw [hzero]; rfl, rfl⟩)
  · rintro b c (⟨row, hrow, rfl, rfl⟩ | ⟨rfl, rfl⟩)
    · obtain ⟨rfl, hget⟩ := Tables.userById_eq_some.mp hrow
      have hrow' : (t.setUsers (fun r => decide (r.id = row.id)) enabled).userById row.id =
          some ⟨row.id, { row.val with enabled }⟩ := by
        simp only [Tables.userById_natCast, Tables.setUsers, Table.get?_update_id, if_pos, hget,
          Option.map_some]
      apply Db.meets_userById
      · exact ⟨row, hrow, hrow', rfl⟩
      · intro e he
        rw [hrow'] at he
        cases he
    · exact .raise (.settled _)

theorem getUserById_meets (t : Tables) (userId : Int) :
    Db.Meets t (UserService.getUserById userId)
      (fun row c => c = .settled t ∧ t.userById userId = some row)
        (fun _ c => c = .settled t ∧ t.userById userId = none) := by
  apply Coro.Meets.bind (Q := fun r c => c = .settled t ∧ r = t.userById userId)
  · exact Db.meets_userById ⟨rfl, rfl⟩ fun _ h => ⟨rfl, h⟩
  · rintro r c ⟨rfl, rfl⟩
    cases hr : t.userById userId with
    | none => exact .raise ⟨rfl, rfl⟩
    | some row => exact .ret ⟨rfl, rfl⟩

theorem newUser_meets (t : Tables) (username : Str) (displayName note : Option Str)
    (nowMs : Int) {uid : Nat} (hid : uid = t.users.seq + 1) :
    Db.Meets (t.addUser (newUser username displayName note nowMs)) (UserService.getUserById uid)
      (fun row c => c = .settled (t.addUser (newUser username displayName note nowMs)) ∧
        row.id = uid ∧
        row.val.username = username) (fun _ _ => False) := by
  have hrow : (t.addUser (newUser username displayName note nowMs)).userById uid =
      some ⟨uid, newUser username displayName note nowMs⟩ := by
    rw [Tables.userById_natCast, Tables.addUser, Table.get?_insert, if_pos hid, hid]
  apply (getUserById_meets _ _).mono
  · rintro row c ⟨rfl, hrow'⟩
    cases hrow.symm.trans hrow'
    exact ⟨rfl, rfl, rfl⟩
  · rintro e c ⟨-, hnone⟩
    cases hrow.symm.trans hnone

/-! ## Keys -/

theorem setKeyEnabled_meets {t : Tables} {keyId : Int} {enabled clean}
    (hclean : clean → fits64 keyId = true) :
    Db.Meets t (KeyService.setKeyEnabled keyId enabled)
      (fun _ c => ∃ row, t.keyById keyId = some row ∧
        c = .settled (t.setKey row.id fun k => { k with enabled }))
      (Db.Failed t clean) := by
  have hupdate := meets_updateKey (t := t) (d := .setKeyEnabledById keyId enabled) rfl
    fun h : clean => bindId_ne_error (hclean h)
  apply Coro.Meets.bind (Q := fun (b : Bool) c =>
    (∃ row, t.keyById keyId = some row ∧ b = true ∧
      c = .settled (t.setKey row.id fun k => { k with enabled })) ∨
      b = false ∧ c = .settled t)
  · apply Coro.Meets.bind hupdate
    rintro cur c ⟨-, ⟨row, hrow, hpos, rfl⟩ | ⟨-, hzero, rfl⟩⟩
    · exact .ret (.inl ⟨row, hrow, decide_eq_true hpos, rfl⟩)
    · exact .ret (.inr ⟨by rw [hzero]; rfl, rfl⟩)
  · rintro b c (⟨row, hrow, rfl, rfl⟩ | ⟨rfl, rfl⟩)
    · exact .ret ⟨row, hrow, rfl⟩
    · exact .raise (.settled _)

theorem getKey_meets (t : Tables) (keyId : Int) :
    Db.Meets t (KeyService.getKey keyId) (fun row c => c = .settled t ∧ t.keyById keyId = some row)
      (fun _ c => c = .settled t ∧ t.keyById keyId = none) := by
  apply Coro.Meets.bind (Q := fun r c => c = .settled t ∧ r = t.keyById keyId)
  · exact Db.meets_keyById ⟨rfl, rfl⟩ fun _ h => ⟨rfl, h⟩
  · rintro r c ⟨rfl, rfl⟩
    cases hr : t.keyById keyId with
    | none => exact .raise ⟨rfl, rfl⟩
    | some row => exact .ret ⟨rfl, rfl⟩

/-- A key whose owner exists. -/
theorem getKeyWithOwner_meets (t : Tables) (keyId : Int) :
    Db.Meets t (KeyService.getKeyWithOwner keyId)
      (fun k c => c = .settled t ∧ t.keyById keyId = some k.row)
      (fun _ c => c = .settled t ∧ ∀ row, t.keyById keyId = some row →
        t.users.get? row.val.userId = none) := by
  apply Coro.Meets.bind ((getKey_meets t keyId).mono (fun _ _ h => h) ?_)
  · rintro row c ⟨rfl, hrow⟩
    apply Coro.Meets.bind (Q := fun _ c => c = .settled t)
    · apply Db.meets_userById rfl
      intro e hnone
      refine ⟨rfl, fun row' hrow' => ?_⟩
      cases hrow.symm.trans hrow'
      exact hnone
    · rintro user c rfl
      exact .ret ⟨rfl, hrow⟩
  · rintro e c ⟨rfl, hnone⟩
    exact ⟨rfl, fun row hrow => nomatch hnone.symm.trans hrow⟩

/-- What the UPDATE of `set_key_limits` needs. -/
def limitsBind (rpm tokenLimit : Option Int) : Bool := rpm.all fits64 && tokenLimit.all fits64

theorem bindOption_int {n : Option Int} : bindOption bindInt n = .ok () ↔ n.all fits64 = true := by
  cases n with
  | none => simp [bindOption]
  | some n =>
    simp only [bindOption, bindInt, Option.all_some]
    split <;> simp_all

theorem bind_setKeyLimits {t : Tables} {keyId : Int} (hrow : t.keyById keyId = some row) :
    (Dml.setKeyLimitsById keyId rpm tokenLimit).bind t = .ok () ↔
    limitsBind rpm tokenLimit = true := by
  simp only [Dml.bind, limitsBind, Bool.and_eq_true, ← bindOption_int]
  cases bindOption bindInt rpm with
  | error => simp [bind, Except.bind]
  | ok =>
    cases bindOption bindInt tokenLimit with
    | error => simp [bind, Except.bind]
    | ok => simp [bind, Except.bind, bindId, hrow]

theorem setKeyLimits_meets {t : Tables} {keyId : Int} {rpm tokenLimit : LimitUpdate} {clean : Prop}
    (hclean : clean → ∀ row, t.keyById keyId = some row →
      limitsBind (rpm.apply row.val.rpmLimit) (tokenLimit.apply row.val.tokenLimit) = true) :
    Db.Meets t (KeyService.setKeyLimits keyId rpm tokenLimit)
      (fun _ c => ∃ row, t.keyById keyId = some row ∧
        limitsBind (rpm.apply row.val.rpmLimit) (tokenLimit.apply row.val.tokenLimit) = true ∧
        c = .settled (t.setKey row.id fun k => { k with
          rpmLimit := rpm.apply row.val.rpmLimit
          tokenLimit := tokenLimit.apply row.val.tokenLimit }))
      (Db.Failed t clean) := by
  apply Coro.Meets.bind ((getKey_meets t keyId).mono (fun _ _ h => h) ?_)
  · rintro row c ⟨rfl, hrow⟩
    have hbinds : (Dml.setKeyLimitsById keyId (rpm.apply row.val.rpmLimit)
        (tokenLimit.apply row.val.tokenLimit)).bind t = .ok () ↔ _ := bind_setKeyLimits hrow
    have hupdate :=
      meets_updateKey (t := t) (d := .setKeyLimitsById keyId (rpm.apply row.val.rpmLimit)
      (tokenLimit.apply row.val.tokenLimit)) rfl fun (h : clean) e he => by
        rw [hbinds.mpr (hclean h row hrow)] at he
        cases he
    apply Coro.Meets.bind (Q := fun _ c => limitsBind (rpm.apply row.val.rpmLimit)
        (tokenLimit.apply row.val.tokenLimit) = true ∧
        c = .settled (t.setKey row.id fun k => { k with
          rpmLimit := rpm.apply row.val.rpmLimit
          tokenLimit := tokenLimit.apply row.val.tokenLimit }))
    · apply Coro.Meets.bind hupdate
      rintro cur c ⟨hb, ⟨row', hrow', -, rfl⟩ | ⟨hnone, -⟩⟩
      · cases hrow.symm.trans hrow'
        exact .ret ⟨hbinds.mp hb, rfl⟩
      · cases hnone.symm.trans hrow
    · rintro _ c ⟨hb, rfl⟩
      exact .ret ⟨row, hrow, hb, rfl⟩
  · rintro e c ⟨rfl, -⟩
    exact .settled _

theorem resolveKeyPrefix_meets (t : Tables) (pfx : Str) :
    Db.Meets t (KeyService.resolveKeyPrefix pfx)
      (fun row c => c = .settled t ∧ t.keyById row.id = some row) (fun _ c => c = .settled t) := by
  apply Coro.Meets.bind (Q := fun (rows : List (Row ApiKey)) c => c = .settled t ∧
    ∀ row ∈ rows, row ∈ t.apiKeys.rows)
  · apply Db.meets_query
    · intro rows hrows
      simp only [Query.exec] at hrows
      obtain ⟨_, -, hrows⟩ := Except.bind_eq_ok hrows
      cases hrows
      exact ⟨rfl, fun row hrow => List.mem_of_mem_filter hrow⟩
    · exact fun _ _ => rfl
  · rintro rows c ⟨rfl, hmem⟩
    match rows with
    | [row] =>
      exact .ret ⟨rfl, Table.get?_eq_some.mpr ⟨hmem row (List.mem_singleton_self row), rfl⟩⟩
    | [] | _ :: _ :: _ => exact .raise rfl

theorem requireUser_meets (t : Tables) (username : Str) :
    Db.Meets t (UserService.requireUser username)
      (fun row c => c = .settled t ∧ t.users.get? row.id = some row)
        (fun _ c => c = .settled t) := by
  apply Coro.Meets.bind (Q := fun r c => c = .settled t ∧ r = t.userByUsername username)
  · apply Db.meets_query
    · intro r hr
      simp only [Query.exec] at hr
      obtain ⟨_, -, hr⟩ := Except.bind_eq_ok hr
      cases hr
      exact ⟨rfl, rfl⟩
    · exact fun _ _ => rfl
  · rintro r c ⟨rfl, hr⟩
    cases r with
    | none => exact .raise rfl
    | some row => exact .ret ⟨rfl, Table.get?_eq_some.mpr ⟨List.mem_of_find?_eq_some hr.symm, rfl⟩⟩

/-- What the INSERT of `create_key` needs. -/
def keyBinds (name : Option Str) (keyPrefix : Str) (expiresAt rpm tokenLimit : Option Int)
    (nowMs : Int) : Bool :=
  name.all Str.valid && keyPrefix.valid && expiresAt.all fits64 && rpm.all fits64 &&
    tokenLimit.all fits64 &&
    fits64 nowMs

theorem bind_insertApiKey {t : Tables} {userId : Int} (howner : (t.userById userId).isSome = true) :
    (Dml.insertApiKey userId name keyPrefix keyHash expiresAt rpm tokenLimit nowMs).bind t =
      .ok () ↔
      keyBinds name keyPrefix expiresAt rpm tokenLimit nowMs = true := by
  simp only [Dml.bind, bindId, howner, if_true, keyBinds, Bool.and_eq_true, ← bindOption_int,
    ← bindOption_text (u := ()), bind, Except.bind]
  cases bindOption bindText name with
  | error => simp
  | ok =>
    simp only [bindText, bindInt]
    cases keyPrefix.valid with
    | false => simp
    | true =>
      cases bindOption bindInt expiresAt with
      | error => simp
      | ok =>
        cases bindOption bindInt rpm with
        | error => simp
        | ok =>
          cases bindOption bindInt tokenLimit with
          | error => simp
          | ok => cases fits64 nowMs <;> simp

/-- There is an expiry when days are given. -/
theorem Zone.of_mapM_inDays {zone : Zone} {clk : Clock} {days expiresAt : Option Int}
    (hdays : days.mapM (zone.inDays clk) = .ok expiresAt) :
    days = none ∧ expiresAt = none ∨ ∃ n ms, days = some n ∧ zone.inDays clk n = .ok ms ∧
    expiresAt = some ms := by
  cases days with
  | none =>
    cases hdays
    exact .inl ⟨rfl, rfl⟩
  | some n =>
    cases hn : zone.inDays clk n <;> simp [hn, Except.map, Functor.map] at hdays
    exact .inr ⟨n, _, rfl, hn, hdays.symm⟩

/-- The new row of `create_key`. -/
def newKey (hashKey : Str → Str) (full : Str) (userId : Nat) (name : Option Str)
    (expiresAt rpm tokenLimit : Option Int) (nowMs : Int) : ApiKey where
  userId := userId
  name := name
  keyPrefix := full.take prefixDisplayLen
  keyHash := hashKey full
  enabled := true
  expiresAt := expiresAt
  rpmLimit := rpm
  tokenLimit := tokenLimit
  tokenUsed := .int 0
  createdAt := nowMs
  lastUsedAt := none

theorem createKey_meets {t : Tables} {hashKey : Str → Str} {zone : Zone} {clk : Clock}
    {random keyPrefix : Str} {userId : Int} {name : Option Str} {rpm tokenLimit days : Option Int}
    {clean : Prop} (howner : t.userById userId = some owner)
    (hclean : clean → ∀ expiresAt, days.mapM (zone.inDays clk) = .ok expiresAt →
      keyBinds name ((keyPrefix ++ random).take prefixDisplayLen) expiresAt rpm tokenLimit
        clk.nowMs = true ∧
        t.keyByHash (hashKey (keyPrefix ++ random)) = none) :
    Db.Meets t (KeyService.createKey hashKey zone clk random userId name rpm tokenLimit
        days keyPrefix)
      (fun created c => ∃ expiresAt, days.mapM (zone.inDays clk) = .ok expiresAt ∧
        created.keyId = t.apiKeys.seq + 1 ∧ created.full = keyPrefix ++ random ∧
        keyBinds name ((keyPrefix ++ random).take prefixDisplayLen) expiresAt rpm tokenLimit
          clk.nowMs = true ∧
        c = .settled
            (t.addKey (newKey hashKey (keyPrefix ++ random) owner.id name expiresAt rpm
              tokenLimit clk.nowMs)))
      (Db.Failed t clean) := by
  obtain ⟨rfl, -⟩ := Tables.userById_eq_some.mp howner
  have hsome : (t.userById owner.id).isSome = true := by rw [howner]; rfl
  unfold KeyService.createKey
  cases hdays : days.mapM (zone.inDays clk) with
  | error e => exact .raise (.settled _)
  | ok expiresAt =>
    have hinsert :
        Db.Meets t (Dao.createApiKey owner.id name ((keyPrefix ++ random).take prefixDisplayLen)
        (hashKey (keyPrefix ++ random)) expiresAt rpm tokenLimit clk.nowMs)
        (fun kid c => kid = t.apiKeys.seq + 1 ∧
          keyBinds name ((keyPrefix ++ random).take prefixDisplayLen) expiresAt rpm tokenLimit
          clk.nowMs = true ∧
          c = .settled
          (t.addKey (newKey hashKey (keyPrefix ++ random) owner.id name expiresAt rpm
            tokenLimit clk.nowMs)))
        (Db.Failed t clean) := by
      apply Coro.Meets.bind (Q := fun (cur : Cursor) c => cur.lastrowid = t.apiKeys.seq + 1 ∧
        keyBinds name ((keyPrefix ++ random).take prefixDisplayLen) expiresAt rpm tokenLimit
        clk.nowMs = true ∧
        c = .settled
        (t.addKey (newKey hashKey (keyPrefix ++ random) owner.id name expiresAt rpm
          tokenLimit clk.nowMs)))
      · apply Db.meets_executeCommit
        · intro cur t' he
          obtain ⟨hb, hr⟩ := Dml.effect_ok he
          simp only [Dml.run] at hr
          split at hr <;> cases hr
          exact ⟨rfl, (bind_insertApiKey hsome).mp hb, rfl⟩
        · intro e c he hc
          refine ⟨hc, fun h => ?_⟩
          obtain ⟨hbinds, hnew⟩ := hclean h expiresAt hdays
          rcases Dml.effect_error he with hb | hr
          · rw [(bind_insertApiKey hsome).mpr hbinds] at hb
            cases hb
          · simp only [Dml.run] at hr
            rw [if_neg (by simp [hnew, howner])] at hr
            cases hr
      · rintro cur c ⟨hcur, hbinds, rfl⟩
        exact .ret ⟨hcur, hbinds, rfl⟩
    apply Coro.Meets.bind hinsert
    rintro kid c ⟨hkid, hbinds, rfl⟩
    exact .ret ⟨expiresAt, rfl, hkid, rfl, hbinds, rfl⟩

end EasyModelGate
