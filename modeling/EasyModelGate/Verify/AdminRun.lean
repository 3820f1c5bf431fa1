import EasyModelGate.Verify.AdminServer
import EasyModelGate.Verify.Services

/-! # What the Admin handlers of users and keys raise

Each statement of a handler is followed on the tables that its connection sees, to the exception
that it raises there. -/

namespace EasyModelGate

/-- An `ApiError` with a 4xx status. -/
def Exn.client : Exn → Bool
  | .api e => 400 ≤ e.statusCode && e.statusCode < 500
  | _ => false

/-- The statements on the tables that a connection without rivals sees. -/
def Tables.handler : Coro.Handler Stmt Stmt.Res Exn Tables :=
  fun s t => ((s.effect t).1.mapError Exn.py, (s.effect t).2)

/-- On a connection without rivals a coroutine does what it does on the tables that are seen. -/
theorem Conn.Alone.run {conn : Conn} (h : conn.Alone) (c : Db α) :
    (c.run Conn.handler conn).1 = (c.run Tables.handler conn.view).1 ∧
      (c.run Conn.handler conn).2.view = (c.run Tables.handler conn.view).2 ∧
      (c.run Conn.handler conn).2.Alone := by
  induction c generalizing conn with
  | ret | raise => exact ⟨rfl, rfl, h⟩
  | await s k ih =>
    obtain ⟨hres, hview, -, halone⟩ := h.step s
    have hk := ih ((s.effect conn.view).1.mapError Exn.py) halone
    rw [hview] at hk
    rw [Coro.run, Conn.handler, hres]
    exact hk

/-! ## Exceptions of coroutines -/

namespace Db

/-- On the tables `t`, the coroutine raises nothing but what satisfies `P`. -/
abbrev Raises (P : Exn → Prop) (t : Tables) (c : Db α) : Prop :=
  Coro.RaisesOnly Tables.handler P t c

variable {P : Exn → Prop} {t t' : Tables}

theorem run_query (q : Query) (t : Tables) :
    (query q).run Tables.handler t = ((q.exec t).mapError Exn.py, t) := Coro.run_perform _ _

theorem run_lift (x : Except Exn α) (t : Tables) : (lift x).run Tables.handler t = (x, t) := by
  cases x <;> rfl

theorem run_executeCommit (d : Dml) (t : Tables) :
    (executeCommit d).run Tables.handler t = ((d.effect t).1.mapError Exn.py, (d.effect t).2) := by
  have hd : Tables.handler (.dml d) t = ((d.effect t).1.mapError Exn.py, (d.effect t).2) := rfl
  unfold executeCommit execute
  rw [Coro.run_bind, Coro.run_perform, hd]
  cases (d.effect t).1 <;> rfl

theorem raises_lift {x : Except Exn α} : Raises P t (lift x) ↔ ∀ e, x = .error e → P e := by
  unfold Raises Coro.RaisesOnly
  rw [run_lift]

/-- What awaits nothing comes first. -/
theorem raises_lift_bind {x : Except Exn α} {f : α → Db β} : Raises P t (lift x >>= f) ↔
    (∀ e, x = .error e → P e) ∧ ∀ a, x = .ok a → Raises P t (f a) :=
  Coro.raisesOnly_bind_run (run_lift x t)

end Db

namespace Handling

variable {P : Exn → Prop} {env : AdminEnv} {st : AdminState}

theorem raises_ofDb (hst : st.conn.Alone) (c : Db α) :
    (ofDb c).RaisesOnly env.handler P st ↔ Db.Raises P st.conn.view c := by
  have hrun : ((ofDb c).run env.handler st).1 = (c.run Conn.handler st.conn).1 :=
    (Coro.run_embed AdminState.conn (fun _ _ => ⟨rfl, rfl⟩) c st).1
  rw [Coro.RaisesOnly, hrun, (hst.run c).1]
  exact .rfl

theorem raises_answer (hst : st.conn.Alone) (toJson : α → Json) (c : Db α) :
    (answer toJson c).RaisesOnly env.handler P st ↔ Db.Raises P st.conn.view c := by
  rw [answer, Coro.raisesOnly_bind, raises_ofDb hst]
  exact and_iff_left fun _ _ _ => .ret

theorem raises_created [Dump α] (hst : st.conn.Alone) (c : Db α) :
    (ofDb c >>= fun a => (pure (created (dump a)) : Handling AdminResponse)).RaisesOnly
      env.handler P st ↔
      Db.Raises P st.conn.view c := by
  rw [Coro.raisesOnly_bind, raises_ofDb hst]
  exact and_iff_left fun _ _ _ => .ret

theorem run_lift (x : Except Exn α) (st : AdminState) : (lift x).run env.handler st = (x, st) := by
  cases x <;> rfl

theorem client_refuse {statusCode : Nat} (h : 400 ≤ statusCode ∧ statusCode < 500) (message : Str)
    (code : String) (param : Option Str) :
    (Admin.refuse statusCode message code param).client = true := by
  simp [Admin.refuse, Exn.client, h]

theorem parseJsonBody_error {body : Except Unit Json} (h : Admin.parseJsonBody body = .error e) :
    e.client = true := by
  cases body <;> cases h
  exact client_refuse (by decide) ..

theorem parseJsonBody_ok {body : Except Unit Json} : Admin.parseJsonBody body = .ok payload ↔
    body = .ok payload := by
  cases body <;> simp [Admin.parseJsonBody, Except.mapError]

theorem parseBody_error {modelValidate : Json → Except (Option Str) α}
    (h : Admin.parseBody modelValidate payload = .error e) :
    e.client = true := by
  unfold Admin.parseBody at h
  cases hv : modelValidate payload <;> rw [hv] at h <;> cases h
  exact client_refuse (by decide) ..

theorem parseBody_ok {modelValidate : Json → Except (Option Str) α} :
    Admin.parseBody modelValidate payload = .ok a ↔ modelValidate payload = .ok a := by
  unfold Admin.parseBody
  cases modelValidate payload <;> simp [Except.mapError]

/-- A body that is no JSON or not what the model wants is the client's error. -/
theorem raises_parsedBody {modelValidate : Json → Except (Option Str) α}
    {f : α → Handling AdminResponse} :
    (parsedBody modelValidate >>= f).RaisesOnly env.handler (Exn.client · = true) st ↔
      ∀ payload body, env.req.body = .ok payload → modelValidate payload = .ok body →
        (f body).RaisesOnly env.handler (Exn.client · = true) st := by
  have hbody : body.run env.handler st = (.ok env.req.body, st) := rfl
  unfold parsedBody
  rw [Coro.bind_assoc, Coro.raisesOnly_bind_run hbody]
  simp only [Coro.bind_assoc, Coro.raisesOnly_bind_run (run_lift _ st),
    parseJsonBody_ok, parseBody_ok]
  constructor
  · intro h payload body hpayload hvalid
    exact ((h.2 _ rfl).2 payload hpayload).2 body hvalid
  · intro h
    refine ⟨fun _ he => (nomatch he), ?_⟩
    rintro _ ⟨⟩
    exact ⟨fun e => parseJsonBody_error, fun payload hpayload =>
      ⟨fun e => parseBody_error, fun body hvalid => h payload body hpayload hvalid⟩⟩

end Handling

/-! ## Looking up rows -/

/-- A number by which a row is looked up: that of a row, or one that can be bound. -/
def boundId (found : Option α) (id : Int) : Bool := found.isSome || fits64 id

/-- The row of a number, or why there is none. -/
def lookup (found : Option α) (id : Int) (missing : Exn) : Except Exn α :=
  match found with
  | some a => .ok a
  | none => .error (if fits64 id then missing else .py .overflowError)

section
variable {found : Option α} {id : Int} {missing : Exn}

theorem lookup_raises {P : Exn → Prop} (hm : P missing) (hpy : ¬ P (.py .overflowError)) :
    (∀ e, lookup found id missing = .error e → P e) ↔ boundId found id = true := by
  cases found with
  | some a => simp [lookup, boundId]
  | none => cases hid : fits64 id <;> simp [lookup, boundId, hid, hm, hpy]

/-- `SELECT … WHERE id=?` -/
theorem bindId_eq : ((bindId found.isSome id >>= fun _ => pure found).mapError Exn.py) =
    if boundId found id then .ok found else .error (.py .overflowError) := by
  cases found with
  | some a => rfl
  | none => cases hid : fits64 id <;> simp [bindId, bindInt, boundId, hid] <;> rfl

end

namespace Db

variable {t : Tables} {P : Exn → Prop}

theorem run_userById (userId : Int) (t : Tables) : (Dao.getUserById userId).run Tables.handler t =
    (if boundId (t.userById userId) userId then .ok (t.userById userId)
      else .error (.py .overflowError), t) := by
  unfold Dao.getUserById
  rw [run_query, ← bindId_eq]
  rfl

theorem run_keyById (keyId : Int) (t : Tables) : (Dao.getKeyById keyId).run Tables.handler t =
    (if boundId (t.keyById keyId) keyId then .ok (t.keyById keyId)
      else .error (.py .overflowError), t) := by
  unfold Dao.getKeyById
  rw [run_query, ← bindId_eq]
  rfl

theorem run_getUserById (userId : Int) (t : Tables) :
    (UserService.getUserById userId).run Tables.handler t =
    (lookup (t.userById userId) userId (.userNotFoundById userId), t) := by
  unfold UserService.getUserById
  rw [Coro.run_bind, run_userById]
  cases hfound : t.userById userId with
  | some row => rfl
  | none => cases hid : fits64 userId <;> simp [boundId, lookup, hid]

theorem run_getKey (keyId : Int) (t : Tables) : (KeyService.getKey keyId).run Tables.handler t =
    (lookup (t.keyById keyId) keyId (.keyNotFound keyId), t) := by
  unfold KeyService.getKey
  rw [Coro.run_bind, run_keyById]
  cases hfound : t.keyById keyId with
  | some row => rfl
  | none => cases hid : fits64 keyId <;> simp [boundId, lookup, hid]

/-- An exception handler that says in another way that there is no such row. -/
theorem run_lookup_handle {c : Db α} {found : Option α} {id : Int} {missing missing' : Exn}
    {f : Exn → Db α} (hc : c.run Tables.handler t = (lookup found id missing, t))
    (hmissing : f missing = .raise missing')
    (hoverflow : f (.py .overflowError) = .raise (.py .overflowError)) :
    (c.handle f).run Tables.handler t = (lookup found id missing', t) := by
  rw [Coro.run_handle, hc]
  cases found with
  | some a => rfl
  | none => cases hfits : fits64 id <;> simp [lookup, hfits, hmissing, hoverflow]

end Db

/-! ## Exceptions that are not the client's -/

theorem not_client_py (e : PyExn) : ¬ (Exn.py e).client = true := Bool.false_ne_true

theorem mapError_raises {P : Exn → Prop} (hpy : ∀ e, ¬ P (.py e)) {x : Except PyExn α} :
    (∀ e, x.mapError Exn.py = .error e → P e) ↔ x.isOk = true := by
  cases x <;> simp [Except.mapError, Except.isOk, Except.toBool, hpy]

theorem isOk_mapM {f : α → Except ε β} {xs : List α} : (xs.mapM f).isOk = true ↔
    ∀ x ∈ xs, (f x).isOk = true := by
  induction xs with
  | nil => simp [pure, Except.pure, Except.isOk, Except.toBool]
  | cons x xs ih =>
    rw [List.mapM_cons, List.forall_mem_cons, ← ih]
    cases f x with
    | error e => simp [bind, Except.bind, Except.isOk, Except.toBool]
    | ok y =>
      cases xs.mapM f <;> simp [bind, Except.bind, pure, Except.pure, Except.isOk, Except.toBool]

/-- Errors of which none is allowed. -/
theorem mapM_raises {P : Exn → Prop} {f : α → Except Exn β} (hf : ∀ x e, f x = .error e → ¬ P e)
    {xs : List α} :
    (∀ e, xs.mapM f = .error e → P e) ↔ ∀ x ∈ xs, (f x).isOk = true := by
  have herror : ∀ e, xs.mapM f = .error e → ¬ P e := by
    induction xs with
    | nil => exact fun _ he => nomatch he
    | cons x xs ih =>
      intro e he
      rw [List.mapM_cons] at he
      cases hx : f x with
      | error e' =>
        rw [hx] at he
        cases he
        exact hf x _ hx
      | ok y =>
        rw [hx] at he
        cases hxs : xs.mapM f with
        | error e' =>
          rw [hxs] at he
          cases he
          exact ih _ hxs
        | ok ys =>
          rw [hxs] at he
          cases he
  rw [← isOk_mapM]
  cases hxs : xs.mapM f with
  | ok ys => simp [Except.isOk, Except.toBool]
  | error e => simp [Except.isOk, Except.toBool, herror e hxs]

/-! ## Path parameters -/

theorem parsePathId_ok {raw : Str} {id : Int} : Admin.parsePathId raw = .ok id ↔
    raw.toInt? = some id ∧ 1 ≤ id := by
  unfold Admin.parsePathId
  cases raw.toInt? with
  | none => simp
  | some value =>
    dsimp only
    split
    · simp only [reduceCtorEq, Option.some.injEq, false_iff]
      omega
    · simp only [Except.ok.injEq, Option.some.injEq]
      omega

theorem parsePathId_error (h : Admin.parsePathId raw = .error e) : e.client = true := by
  unfold Admin.parsePathId at h
  cases hraw : raw.toInt? with
  | none =>
    rw [hraw] at h
    cases h
    exact Handling.client_refuse (by decide) ..
  | some value =>
    rw [hraw] at h
    dsimp only at h
    split at h <;> cases h
    exact Handling.client_refuse (by decide) ..

theorem userNotFound_client (userId : Int) : (Admin.userNotFound userId).client = true :=
  Handling.client_refuse (by decide) ..

theorem keyNotFound_client (keyId : Int) : (Admin.keyNotFound keyId).client = true :=
  Handling.client_refuse (by decide) ..

/-! ## Keys -/

/-- A key that can be answered with: its owner can be looked up, and the tokens used are an
integer. -/
def ApiKey.Showable (t : Tables) (k : ApiKey) : Prop :=
  boundId (t.userById k.userId) k.userId = true ∧ k.tokenUsed.toInt.isOk = true

theorem keyPayload_eq (k : KeyWithOwner) : ∃ x : Except PyExn AdminKeyResponse,
    AdminKeys.keyPayload k = x.mapError Exn.py ∧ x.isOk = k.row.val.tokenUsed.toInt.isOk := by
  unfold AdminKeys.keyPayload
  cases k.row.val.tokenUsed.toInt with
  | error e => exact ⟨.error e, rfl, rfl⟩
  | ok n => exact ⟨.ok _, rfl, rfl⟩

theorem keyPayload_raises {P : Exn → Prop} (hpy : ∀ e, ¬ P (.py e)) {k : KeyWithOwner} :
    (∀ e, AdminKeys.keyPayload k = .error e → P e) ↔ k.row.val.tokenUsed.toInt.isOk = true := by
  obtain ⟨x, hpayload, hx⟩ := keyPayload_eq k
  rw [hpayload, mapError_raises hpy, hx]

theorem isOk_keyPayload (k : KeyWithOwner) :
    (AdminKeys.keyPayload k).isOk = k.row.val.tokenUsed.toInt.isOk := by
  obtain ⟨x, hpayload, hx⟩ := keyPayload_eq k
  rw [hpayload, ← hx]
  cases x <;> rfl

/-- The client's errors, and what `except key_service.KeyNotFound` makes one. -/
def Exn.clientOrMissing : Exn → Bool
  | .keyNotFound _ => true
  | e => e.client

theorem not_clientOrMissing_py (e : PyExn) : ¬ (Exn.py e).clientOrMissing = true :=
  Bool.false_ne_true

/-- A number of a key, which can be answered with if there is such a key. -/
def KeySafe (t : Tables) (keyId : Int) : Prop :=
  boundId (t.keyById keyId) keyId = true ∧ ∀ row, t.keyById keyId = some row → row.val.Showable t

theorem keySafe_of_some {t : Tables} {keyId : Int} (hrow : t.keyById keyId = some row) :
    KeySafe t keyId ↔ row.val.Showable t := by
  simp [KeySafe, hrow, boundId]

theorem keySafe_of_none {t : Tables} {keyId : Int} (hnone : t.keyById keyId = none) :
    KeySafe t keyId ↔ fits64 keyId = true := by
  simp [KeySafe, hnone, boundId]

namespace Db

variable {t : Tables} {P : Exn → Prop}

/-- A key that is read back is answered with, if it can be shown. -/
theorem run_shown {keyId : Int} {row : Row ApiKey} (hrow : t.keyById keyId = some row) :
    ∃ x : Except PyExn AdminKeyResponse,
      (KeyService.getKeyWithOwner keyId >>= fun k => lift (AdminKeys.keyPayload k)).run
        Tables.handler t =
        (x.mapError Exn.py, t) ∧ (x.isOk = true ↔ row.val.Showable t) := by
  unfold KeyService.getKeyWithOwner ApiKey.Showable
  rw [Coro.bind_assoc, Coro.run_bind, run_getKey, hrow]
  dsimp only [lookup]
  rw [Coro.bind_assoc, Coro.run_bind, run_userById]
  cases boundId (t.userById row.val.userId) row.val.userId with
  | false => exact ⟨.error .overflowError, rfl, by simp [Except.isOk, Except.toBool]⟩
  | true =>
    obtain ⟨x, hpayload, hx⟩ :=
      keyPayload_eq { row, username := (t.userById row.val.userId).map (·.val.username) }
    refine ⟨x, ?_, by simp [hx]⟩
    rw [← hpayload]
    exact run_lift _ _

theorem raises_shown_of_some {keyId : Int} {row : Row ApiKey} (hpy : ∀ e, ¬ P (.py e))
    (hrow : t.keyById keyId = some row) :
    Raises P t (KeyService.getKeyWithOwner keyId >>= fun k => lift (AdminKeys.keyPayload k)) ↔
    row.val.Showable t := by
  obtain ⟨x, hrun, hx⟩ := run_shown hrow
  rw [Raises, Coro.RaisesOnly, hrun, mapError_raises hpy, hx]

theorem raises_orNotFound {kid : Int} {c : Db KeyWithOwner} :
    Raises (Exn.client · = true) t (AdminKeys.orNotFound kid c >>= fun k =>
      lift (AdminKeys.keyPayload k)) ↔
      Raises (Exn.clientOrMissing · = true) t (c >>= fun k => lift (AdminKeys.keyPayload k)) := by
  unfold Raises Coro.RaisesOnly AdminKeys.orNotFound
  rw [Coro.run_bind, Coro.run_handle, Coro.run_bind]
  rcases c.run Tables.handler t with ⟨e | k, t'⟩
  · cases e <;> simp [Exn.clientOrMissing, keyNotFound_client]
  · dsimp only
    rw [run_lift, keyPayload_raises not_client_py, keyPayload_raises not_clientOrMissing_py]

/-- A key that is not there is the client's error, if its number can be bound. -/
theorem raises_missing {c : Db α} {f : α → Db β} {keyId : Int}
    (hc : c.run Tables.handler t =
      (.error (if fits64 keyId then .keyNotFound keyId else .py .overflowError), t)) :
    Raises (Exn.clientOrMissing · = true) t (c >>= f) ↔ fits64 keyId = true := by
  rw [Raises, Coro.raisesOnly_bind_run hc]
  cases hfits : fits64 keyId <;> simp [Exn.clientOrMissing, Exn.client]

theorem raises_getKeyWithOwner (t : Tables) (kid : Int) :
    Raises (Exn.clientOrMissing · = true) t (KeyService.getKeyWithOwner kid >>= fun k =>
      lift (AdminKeys.keyPayload k)) ↔
      KeySafe t kid := by
  cases hrow : t.keyById kid with
  | some row =>
    rw [keySafe_of_some hrow]
    exact raises_shown_of_some (P := (Exn.clientOrMissing · = true)) not_clientOrMissing_py hrow
  | none =>
    rw [keySafe_of_none hrow]
    unfold KeyService.getKeyWithOwner
    rw [Coro.bind_assoc]
    exact raises_missing (by rw [run_getKey, hrow]; rfl)

theorem raises_getKey {raw : Str} : Raises (Exn.client · = true) t (AdminKeys.getKey raw) ↔
    ∀ id, raw.toInt? = some id → 1 ≤ id → KeySafe t id := by
  unfold AdminKeys.getKey
  rw [raises_lift_bind]
  simp only [raises_orNotFound, raises_getKeyWithOwner, parsePathId_ok]
  simp only [and_imp, and_iff_right_iff_imp]
  exact fun _ _ => parsePathId_error

end Db

/-! ## Changing a key -/

theorem keyById_setKey {t : Tables} {keyId : Int} {row : Row ApiKey}
    (hrow : t.keyById keyId = some row) (f : ApiKey → ApiKey) :
    (t.setKey row.id f).keyById keyId = some ⟨row.id, f row.val⟩ := by
  obtain ⟨rfl, hget⟩ := Tables.keyById_eq_some.mp hrow
  exact Tables.keyById_eq_some.mpr ⟨rfl, by simp [Tables.setKey, Table.get?_update_id, hget]⟩

namespace Db

variable {t : Tables}

/-- An UPDATE of the row `id`, whose parameters are bound. -/
theorem run_updateKey {d : Dml} {id : Int} {f : ApiKey → ApiKey}
    (hrun : d.run t = .ok (Dml.updateKey t id f)) (hbind : d.bind t = .ok ()) :
    (executeCommit d).run Tables.handler t =
      (.ok (Dml.updateKey t id f).1, (Dml.updateKey t id f).2) := by
  rw [run_executeCommit, Dml.effect, hbind]
  dsimp only
  rw [hrun]
  rfl

theorem run_unbound {d : Dml} {e : PyExn} (hbind : d.bind t = .error e) :
    (executeCommit d).run Tables.handler t = (.error (.py e), t) := by
  rw [run_executeCommit, Dml.effect, hbind]
  rfl

theorem run_setKeyEnabled (keyId : Int) (enabled : Bool) (t : Tables) :
    (KeyService.setKeyEnabled keyId enabled).run Tables.handler t =
      ((lookup (t.keyById keyId) keyId (.keyNotFound keyId)).map fun _ => (),
        ((t.keyById keyId).map fun row => t.setKey row.id fun k => { k with enabled }).getD t) := by
  have hrun : (Dml.setKeyEnabledById keyId enabled).run t =
      .ok (Dml.updateKey t keyId fun k => { k with enabled }) := rfl
  unfold KeyService.setKeyEnabled Dao.setKeyEnabledById
  rw [Coro.bind_assoc, Coro.run_bind]
  rcases Dml.updateKey_cases t keyId fun k => { k with enabled } with
    ⟨row, hrow, hcount, htables⟩ | ⟨hnone, hcount, htables⟩
  · have hbind : (Dml.setKeyEnabledById keyId enabled).bind t = .ok () := by
      simp [Dml.bind, bindId, hrow]
    rw [run_updateKey hrun hbind, htables]
    simp [hcount, hrow, lookup, Except.map]
  · cases hfits : fits64 keyId with
    | true =>
      have hbind : (Dml.setKeyEnabledById keyId enabled).bind t = .ok () := by
        simp [Dml.bind, bindId, hnone, bindInt, hfits]
      rw [run_updateKey hrun hbind, htables]
      simp [hcount, hnone, lookup, hfits, Except.map]
    | false =>
      have hbind : (Dml.setKeyEnabledById keyId enabled).bind t = .error .overflowError := by
        simp [Dml.bind, bindId, hnone, bindInt, hfits]
      rw [run_unbound hbind]
      simp [hnone, lookup, hfits, Except.map]

/-- A key that has been changed and is read back. -/
theorem raises_changed {P : Exn → Prop} (hpy : ∀ e, ¬ P (.py e)) {c : Db α} {kid : Int}
    {row : Row ApiKey} {x : Except Exn α} {f : ApiKey → ApiKey} (hrow : t.keyById kid = some row)
    (hc : c.run Tables.handler t = (x, t.setKey row.id f))
    (huser : (f row.val).userId = row.val.userId)
    (hused : (f row.val).tokenUsed = row.val.tokenUsed) :
    Raises P t (c >>= fun _ => KeyService.getKeyWithOwner kid >>= fun k =>
      lift (AdminKeys.keyPayload k)) ↔
      (∀ e, x = .error e → P e) ∧ ((∃ a, x = .ok a) → row.val.Showable t) := by
  have hshow : (f row.val).Showable (t.setKey row.id f) ↔ row.val.Showable t := by
    unfold ApiKey.Showable
    rw [huser, hused]
    exact .rfl
  rw [Raises, Coro.raisesOnly_bind_run hc, ← hshow]
  refine and_congr_right fun _ => ?_
  rw [forall_exists_index]
  exact forall₂_congr fun a _ => raises_shown_of_some hpy (keyById_setKey hrow f)

theorem raises_setEnabled {raw : Str} {enabled : Bool} :
    Raises (Exn.client · = true) t (AdminKeys.setEnabled raw enabled) ↔
    ∀ id, raw.toInt? = some id → 1 ≤ id → KeySafe t id := by
  have hset : ∀ kid, Raises (Exn.clientOrMissing · = true) t (do
      let k ← (do
        KeyService.setKeyEnabled kid enabled
        KeyService.getKeyWithOwner kid)
      lift (AdminKeys.keyPayload k)) ↔ KeySafe t kid := fun kid => by
    have hrun := run_setKeyEnabled kid enabled t
    rw [Coro.bind_assoc]
    cases hrow : t.keyById kid with
    | none =>
      rw [keySafe_of_none hrow]
      exact raises_missing (by rw [hrun, hrow]; rfl)
    | some row =>
      rw [hrow] at hrun
      rw [keySafe_of_some hrow]
      refine (raises_changed not_clientOrMissing_py hrow hrun rfl rfl).trans ?_
      simp [lookup, Except.map]
  unfold AdminKeys.setEnabled
  rw [raises_lift_bind]
  simp only [raises_orNotFound, hset, parsePathId_ok]
  simp only [and_imp, and_iff_right_iff_imp]
  exact fun _ _ => parsePathId_error

theorem run_setKeyLimits_of_none {rpm tokenLimit : LimitUpdate} {keyId : Int}
    (hnone : t.keyById keyId = none) :
    (KeyService.setKeyLimits keyId rpm tokenLimit).run Tables.handler t =
      (.error (if fits64 keyId then .keyNotFound keyId else .py .overflowError), t) := by
  rw [KeyService.setKeyLimits, Coro.run_bind, run_getKey, hnone]
  rfl

section
variable {rpm tokenLimit : LimitUpdate} {keyId : Int} {row : Row ApiKey}

/-- The UPDATE of `set_key_limits`. -/
theorem run_setKeyLimits (hrow : t.keyById keyId = some row) :
    (KeyService.setKeyLimits keyId rpm tokenLimit).run Tables.handler t =
      (Dao.setKeyLimitsById keyId (rpm.apply row.val.rpmLimit)
        (tokenLimit.apply row.val.tokenLimit) >>= fun _ =>
        pure (rpm.apply row.val.rpmLimit, tokenLimit.apply row.val.tokenLimit)).run
            Tables.handler t := by
  rw [KeyService.setKeyLimits, Coro.run_bind, run_getKey, hrow]
  rfl

theorem run_setKeyLimits_ok (hrow : t.keyById keyId = some row)
    (hbinds : limitsBind (rpm.apply row.val.rpmLimit)
      (tokenLimit.apply row.val.tokenLimit) = true) :
    (KeyService.setKeyLimits keyId rpm tokenLimit).run Tables.handler t =
      (.ok (rpm.apply row.val.rpmLimit, tokenLimit.apply row.val.tokenLimit),
        t.setKey row.id fun k => { k with
        rpmLimit := rpm.apply row.val.rpmLimit,
        tokenLimit := tokenLimit.apply row.val.tokenLimit }) := by
  rw [run_setKeyLimits hrow, Dao.setKeyLimitsById, Coro.bind_assoc, Coro.run_bind,
    run_updateKey rfl ((bind_setKeyLimits hrow).mpr hbinds)]
  rcases Dml.updateKey_cases t keyId fun k => { k with
      rpmLimit := rpm.apply row.val.rpmLimit,
      tokenLimit := tokenLimit.apply row.val.tokenLimit } with
    ⟨row', hrow', -, htables⟩ | ⟨hnone, -⟩
  · cases hrow.symm.trans hrow'
    exact Prod.ext rfl htables
  · cases hnone.symm.trans hrow

theorem run_setKeyLimits_error (hrow : t.keyById keyId = some row)
    (hbinds : ¬ limitsBind (rpm.apply row.val.rpmLimit)
      (tokenLimit.apply row.val.tokenLimit) = true) :
    ∃ e, (KeyService.setKeyLimits keyId rpm tokenLimit).run Tables.handler t =
        (.error (.py e), t) := by
  rw [run_setKeyLimits hrow, Dao.setKeyLimitsById, Coro.bind_assoc, Coro.run_bind]
  cases hb : (Dml.setKeyLimitsById keyId (rpm.apply row.val.rpmLimit)
    (tokenLimit.apply row.val.tokenLimit)).bind t with
  | ok => exact absurd ((bind_setKeyLimits hrow).mp hb) hbinds
  | error e => exact ⟨e, by rw [run_unbound hb]⟩

end

theorem raises_patchLimits {raw : Str} {body : AdminKeyLimitsRequest} :
    Raises (Exn.client · = true) t (AdminKeys.patchLimits raw body) ↔
      ∀ id, raw.toInt? = some id → 1 ≤ id → KeySafe t id ∧ ∀ row, t.keyById id = some row →
        limitsBind ((AdminKeys.limitUpdate body.rpm).apply row.val.rpmLimit)
          ((AdminKeys.limitUpdate body.tokenLimit).apply row.val.tokenLimit) = true := by
  have hset : ∀ kid, Raises (Exn.clientOrMissing · = true) t (do
      let k ← (do
        let _ ← KeyService.setKeyLimits kid (AdminKeys.limitUpdate body.rpm)
          (AdminKeys.limitUpdate body.tokenLimit)
        KeyService.getKeyWithOwner kid)
      lift (AdminKeys.keyPayload k)) ↔ KeySafe t kid ∧ ∀ row, t.keyById kid = some row →
        limitsBind ((AdminKeys.limitUpdate body.rpm).apply row.val.rpmLimit)
          ((AdminKeys.limitUpdate body.tokenLimit).apply row.val.tokenLimit) = true := fun kid => by
    rw [Coro.bind_assoc]
    cases hrow : t.keyById kid with
    | none =>
      rw [keySafe_of_none hrow]
      simpa using raises_missing (run_setKeyLimits_of_none hrow)
    | some row =>
      rw [keySafe_of_some hrow]
      by_cases hbinds : limitsBind ((AdminKeys.limitUpdate body.rpm).apply row.val.rpmLimit)
          ((AdminKeys.limitUpdate body.tokenLimit).apply row.val.tokenLimit) = true
      · refine (raises_changed not_clientOrMissing_py hrow (run_setKeyLimits_ok hrow hbinds)
          rfl rfl).trans ?_
        simp [hbinds]
      · obtain ⟨e, hrun⟩ := run_setKeyLimits_error hrow hbinds
        rw [Raises, Coro.raisesOnly_bind_run hrun]
        simp [not_clientOrMissing_py, hbinds]
  unfold AdminKeys.patchLimits
  rw [raises_lift_bind]
  simp only [raises_orNotFound, hset, parsePathId_ok]
  simp only [and_imp, and_iff_right_iff_imp]
  exact fun _ _ => parsePathId_error

theorem run_listKeysWithOwner (t : Tables) : KeyService.listKeysWithOwner.run Tables.handler t =
    (.ok (t.apiKeys.rows.map fun row =>
      { row, username := KeyService.ownerName t.users.rows row.val.userId }), t) := by
  have hkeys : t.apiKeys.select (fun k => (none : Option Int).all (· = (k.userId : Int))) =
      t.apiKeys.rows := by
    simp [Table.select]
  unfold KeyService.listKeysWithOwner Dao.listKeys Dao.listUsers
  rw [Coro.run_bind, run_query, Query.exec, hkeys]
  rfl

theorem raises_listKeys : Raises (Exn.client · = true) t AdminKeys.listKeys ↔
    ∀ row ∈ t.apiKeys.rows, row.val.tokenUsed.toInt.isOk = true := by
  unfold AdminKeys.listKeys
  rw [Raises, Coro.raisesOnly_bind_run (run_listKeysWithOwner t)]
  have hpayload : ∀ (k : KeyWithOwner) e, AdminKeys.keyPayload k = .error e → ¬ e.client = true :=
    fun k e he => by
    unfold AdminKeys.keyPayload at he
    split at he <;> cases he
    exact not_client_py _
  simp only [reduceCtorEq, false_implies, implies_true, true_and, Except.ok.injEq, forall_eq']
  rw [← Raises, raises_lift, mapM_raises hpayload]
  simp [isOk_keyPayload]

end Db

/-! ## New keys -/

/-- A body of `POST /admin/api/keys` whose key can be stored and answered with. -/
def CreateKeySafe (cfg : AdminConfig) (amb : Ambient) (t : Tables)
    (body : AdminKeyCreateRequest) : Prop :=
  boundId (t.userById body.userId) body.userId = true ∧ ((t.userById body.userId).isSome = true →
    ∃ expiresAt, body.expiresInDays.mapM (cfg.zone.inDays amb.clk) = .ok expiresAt ∧
      keyBinds body.name ((cfg.keyPrefix ++ amb.random).take prefixDisplayLen) expiresAt body.rpm
      body.tokenLimit amb.clk.nowMs = true ∧
      t.keyByHash (cfg.hashKey (cfg.keyPrefix ++ amb.random)) = none)

theorem showable_newKey {t : Tables} {userId : Int} {owner : Row User}
    (howner : t.userById userId = some owner) (hashKey : Str → Str) (full : Str) (name : Option Str)
    (expiresAt rpm tokenLimit : Option Int) (nowMs : Int) :
    (newKey hashKey full owner.id name expiresAt rpm tokenLimit nowMs).Showable
      (t.addKey (newKey hashKey full owner.id name expiresAt rpm tokenLimit nowMs)) := by
  refine ⟨?_, rfl⟩
  obtain ⟨-, hget⟩ := Tables.userById_eq_some.mp howner
  have hfound : ∀ k, (t.addKey k).userById owner.id = some owner :=
    fun _ => Tables.userById_eq_some.mpr ⟨rfl, hget⟩
  change boundId ((t.addKey _).userById owner.id) owner.id = true
  rw [hfound]
  rfl

theorem keyById_addKey (t : Tables) (k : ApiKey) :
    (t.addKey k).keyById (t.apiKeys.seq + 1 : Nat) = some ⟨t.apiKeys.seq + 1, k⟩ := by
  refine Tables.keyById_eq_some.mpr ⟨rfl, ?_⟩
  rw [Tables.addKey, Table.get?_insert, if_pos rfl]

namespace Db

variable {t : Tables} {cfg : AdminConfig} {amb : Ambient} {body : AdminKeyCreateRequest}
  {P : Exn → Prop}

/-- The INSERT of `create_key`. -/
theorem run_createApiKey {owner : Row User} {userId : Int}
    {rpm tokenLimit expiresAt : Option Int} {nowMs : Int} (howner : t.userById userId = some owner)
    (hbinds : keyBinds name pfx expiresAt rpm tokenLimit nowMs = true)
    (hnew : t.keyByHash keyHash = none) :
    (Dao.createApiKey userId name pfx keyHash expiresAt rpm tokenLimit nowMs).run Tables.handler t =
      (.ok (t.apiKeys.seq + 1), t.addKey
        { userId := owner.id, name, keyPrefix := pfx, keyHash, enabled := true, expiresAt,
          rpmLimit := rpm, tokenLimit, tokenUsed := .int 0, createdAt := nowMs,
          lastUsedAt := none }) := by
  have hsome : (t.userById userId).isSome = true := by rw [howner]; rfl
  have hid : userId.toNat = owner.id := by
    obtain ⟨rfl, -⟩ := Tables.userById_eq_some.mp howner
    rfl
  rw [Dao.createApiKey, Coro.run_bind, run_executeCommit, Dml.effect,
    (bind_insertApiKey hsome).mpr hbinds]
  simp [Dml.run, hnew, howner, hid, Except.mapError, Tables.addKey]

theorem run_createApiKey_error {owner : Row User} {userId : Int}
    {rpm tokenLimit expiresAt : Option Int} {nowMs : Int} (howner : t.userById userId = some owner)
    (hrefused : ¬ (keyBinds name pfx expiresAt rpm tokenLimit nowMs = true ∧
      t.keyByHash keyHash = none)) :
    ∃ e, (Dao.createApiKey userId name pfx keyHash expiresAt rpm tokenLimit nowMs).run
        Tables.handler t =
      (.error (.py e), t) := by
  have hsome : (t.userById userId).isSome = true := by rw [howner]; rfl
  rw [Dao.createApiKey, Coro.run_bind, run_executeCommit, Dml.effect]
  cases hb : (Dml.insertApiKey userId name pfx keyHash expiresAt rpm tokenLimit nowMs).bind t with
  | error e => exact ⟨e, rfl⟩
  | ok =>
    have hhash : t.keyByHash keyHash ≠ none :=
      fun h => hrefused ⟨(bind_insertApiKey hsome).mp hb, h⟩
    refine ⟨.integrityError, ?_⟩
    simp [Dml.run, hhash, Option.isSome_iff_ne_none, Except.mapError]

/-- `create_key` for an owner who exists: the row that it inserts, or an error that is not the
client's. -/
theorem run_createKey_ok {owner : Row User} {expiresAt : Option Int}
    (howner : t.userById body.userId = some owner)
    (hdays : body.expiresInDays.mapM (cfg.zone.inDays amb.clk) = .ok expiresAt)
    (hbinds : keyBinds body.name ((cfg.keyPrefix ++ amb.random).take prefixDisplayLen) expiresAt
      body.rpm body.tokenLimit amb.clk.nowMs = true)
    (hnew : t.keyByHash (cfg.hashKey (cfg.keyPrefix ++ amb.random)) = none) :
    (KeyService.createKey cfg.hashKey cfg.zone amb.clk amb.random body.userId body.name body.rpm
        body.tokenLimit body.expiresInDays cfg.keyPrefix).run Tables.handler t =
      (.ok { keyId := t.apiKeys.seq + 1, full := cfg.keyPrefix ++ amb.random
             masked := maskKey ((cfg.keyPrefix ++ amb.random).take prefixDisplayLen) },
        t.addKey (newKey cfg.hashKey (cfg.keyPrefix ++ amb.random) owner.id body.name expiresAt
            body.rpm body.tokenLimit amb.clk.nowMs)) := by
  rw [KeyService.createKey, hdays]
  dsimp only [generateKey]
  rw [Coro.run_bind, run_createApiKey howner hbinds hnew]
  rfl

theorem run_createKey_error {owner : Row User} (howner : t.userById body.userId = some owner)
    (hrefused : ¬ ∃ expiresAt, body.expiresInDays.mapM (cfg.zone.inDays amb.clk) = .ok expiresAt ∧
      keyBinds body.name ((cfg.keyPrefix ++ amb.random).take prefixDisplayLen) expiresAt body.rpm
        body.tokenLimit amb.clk.nowMs = true ∧
      t.keyByHash (cfg.hashKey (cfg.keyPrefix ++ amb.random)) = none) :
    ∃ e, (KeyService.createKey cfg.hashKey cfg.zone amb.clk amb.random body.userId body.name
        body.rpm body.tokenLimit body.expiresInDays cfg.keyPrefix).run Tables.handler t =
          (.error (.py e), t) := by
  rw [KeyService.createKey]
  cases hdays : body.expiresInDays.mapM (cfg.zone.inDays amb.clk) with
  | error e => exact ⟨e, rfl⟩
  | ok expiresAt =>
    obtain ⟨e, hrun⟩ := run_createApiKey_error howner fun h => hrefused ⟨expiresAt, hdays, h⟩
    refine ⟨e, ?_⟩
    dsimp only [generateKey]
    rw [Coro.run_bind, hrun]

theorem raises_createKey : Raises (Exn.client · = true) t
    (AdminKeys.createKey cfg.hashKey cfg.zone cfg.keyPrefix amb.clk amb.random body) ↔
    CreateKeySafe cfg amb t body := by
  have hget := run_getUserById body.userId t
  unfold AdminKeys.createKey CreateKeySafe
  cases hfound : t.userById body.userId with
  | none =>
    rw [hfound] at hget
    rw [Raises, Coro.RaisesOnly, Coro.run_bind, Coro.run_handle_error hget]
    cases hid : fits64 body.userId <;> simp [boundId, hid, userNotFound_client, not_client_py]
  | some owner =>
    rw [hfound] at hget
    rw [Raises, Coro.raisesOnly_bind_run (Coro.run_handle_ok hget _)]
    simp only [reduceCtorEq, false_implies, implies_true, true_and, Except.ok.injEq,
      forall_eq', boundId, Option.isSome_some, Bool.true_or, true_implies]
    constructor
    · intro hraises
      by_contra hrefused
      obtain ⟨e, hrun⟩ := run_createKey_error hfound hrefused
      rw [Coro.raisesOnly_bind_run hrun] at hraises
      exact not_client_py e (hraises.1 _ rfl)
    · rintro ⟨expiresAt, hdays, hbinds, hnew⟩
      rw [Coro.raisesOnly_bind_run (run_createKey_ok hfound hdays hbinds hnew)]
      refine ⟨by simp, fun created hcreated => ?_⟩
      cases hcreated
      dsimp only
      rw [← Coro.bind_assoc, Coro.raisesOnly_bind]
      exact ⟨(raises_shown_of_some not_client_py (keyById_addKey _ _)).mpr
        (showable_newKey hfound ..), fun _ _ _ => .ret⟩

end Db

/-! ## What is returned -/

namespace Db

variable {t t' : Tables}

theorem returns_orNotFound {kid : Int} {c : Db KeyWithOwner} {f : KeyWithOwner → Db α} {a : α} :
    (AdminKeys.orNotFound kid c >>= f).run Tables.handler t = (.ok a, t') ↔
      (c >>= f).run Tables.handler t = (.ok a, t') := by
  rw [AdminKeys.orNotFound, Coro.run_bind, Coro.run_handle, Coro.run_bind]
  rcases c.run Tables.handler t with ⟨e | k, t₁⟩
  · cases e <;> simp
  · rfl

theorem patchLimits_returns {raw : Str} {id : Int} {row : Row ApiKey} (hraw : raw.toInt? = some id)
    (hid : 1 ≤ id) (hrow : t.keyById id = some row) {body : AdminKeyLimitsRequest}
    {rpm tokenLimit : Option Int}
    (hrpm : (AdminKeys.limitUpdate body.rpm).apply row.val.rpmLimit = rpm)
    (htokens : (AdminKeys.limitUpdate body.tokenLimit).apply row.val.tokenLimit = tokenLimit) :
    (∃ a, (AdminKeys.patchLimits raw body).run Tables.handler t = (.ok a, t')) ↔
      limitsBind rpm tokenLimit = true ∧ row.val.Showable t ∧
        t.setKey row.id (fun k => { k with rpmLimit := rpm, tokenLimit }) = t' := by
  subst hrpm htokens
  unfold AdminKeys.patchLimits
  rw [Coro.run_bind, run_lift, parsePathId_ok.mpr ⟨hraw, hid⟩]
  simp only [returns_orNotFound]
  rw [Coro.bind_assoc, Coro.run_bind]
  by_cases hbinds : limitsBind ((AdminKeys.limitUpdate body.rpm).apply row.val.rpmLimit)
      ((AdminKeys.limitUpdate body.tokenLimit).apply row.val.tokenLimit) = true
  · rw [run_setKeyLimits_ok hrow hbinds]
    obtain ⟨x, hrun, hx⟩ := run_shown (keyById_setKey hrow fun k => { k with
      rpmLimit := (AdminKeys.limitUpdate body.rpm).apply row.val.rpmLimit
      tokenLimit := (AdminKeys.limitUpdate body.tokenLimit).apply row.val.tokenLimit })
    have hshow : x.isOk = true ↔ row.val.Showable t := hx
    dsimp only
    rw [hrun, ← hshow, and_iff_right hbinds]
    cases x <;> simp [Except.isOk, Except.toBool, Except.mapError]
  · obtain ⟨e, hrun⟩ := run_setKeyLimits_error hrow hbinds
    rw [hrun]
    refine iff_of_false ?_ fun h => hbinds h.1
    rintro ⟨a, h⟩
    cases h

variable {cfg : AdminConfig} {amb : Ambient} {body : AdminKeyCreateRequest}

theorem createKey_returns :
    (∃ a, (AdminKeys.createKey cfg.hashKey cfg.zone cfg.keyPrefix amb.clk amb.random body).run
      Tables.handler t = (.ok a, t')) ↔
    ∃ owner expiresAt, t.userById body.userId = some owner ∧
      body.expiresInDays.mapM (cfg.zone.inDays amb.clk) = .ok expiresAt ∧
      keyBinds body.name ((cfg.keyPrefix ++ amb.random).take prefixDisplayLen) expiresAt body.rpm
        body.tokenLimit amb.clk.nowMs = true ∧
      t.keyByHash (cfg.hashKey (cfg.keyPrefix ++ amb.random)) = none ∧
      t.addKey (newKey cfg.hashKey (cfg.keyPrefix ++ amb.random) owner.id body.name expiresAt
          body.rpm body.tokenLimit amb.clk.nowMs) = t' := by
  have hget := run_getUserById body.userId t
  unfold AdminKeys.createKey
  rw [Coro.run_bind]
  cases hfound : t.userById body.userId with
  | none =>
    rw [hfound] at hget
    rw [Coro.run_handle_error hget]
    cases hid : fits64 body.userId <;> simp
  | some owner =>
    rw [hfound] at hget
    rw [Coro.run_handle_ok hget]
    dsimp only
    rw [Coro.run_bind]
    by_cases hnew : ∃ expiresAt, body.expiresInDays.mapM (cfg.zone.inDays amb.clk) = .ok expiresAt ∧
      keyBinds body.name ((cfg.keyPrefix ++ amb.random).take prefixDisplayLen) expiresAt body.rpm
      body.tokenLimit amb.clk.nowMs = true ∧
      t.keyByHash (cfg.hashKey (cfg.keyPrefix ++ amb.random)) = none
    · obtain ⟨expiresAt, hdays, hbinds, hhash⟩ := hnew
      rw [run_createKey_ok hfound hdays hbinds hhash]
      obtain ⟨x, hrun, hx⟩ :=
        run_shown (keyById_addKey t (newKey cfg.hashKey (cfg.keyPrefix ++ amb.random) owner.id
        body.name expiresAt body.rpm body.tokenLimit amb.clk.nowMs))
      have hshow : x.isOk = true := hx.mpr (showable_newKey hfound ..)
      dsimp only
      rw [← Coro.bind_assoc, Coro.run_bind, hrun]
      cases x with
      | error e => cases hshow
      | ok key => simp [hdays, hbinds, hhash, Except.mapError]
    · obtain ⟨e, hrun⟩ := run_createKey_error hfound hnew
      rw [hrun]
      refine iff_of_false (fun ⟨a, h⟩ => nomatch h) ?_
      rintro ⟨_, expiresAt, -, hdays, hbinds, hhash, -⟩
      exact hnew ⟨expiresAt, hdays, hbinds, hhash⟩

end Db

/-! ## Users -/

/-- A user who can be stored, or whose name is taken. -/
def CreateUserSafe (t : Tables) (body : AdminUserCreateRequest) (nowMs : Int) : Prop :=
  body.username.valid = true ∧
    (t.userByUsername body.username = none → userBinds body.displayName body.note nowMs = true)

theorem bind_insertUser {t : Tables} {username : Str} {displayName note : Option Str} {nowMs : Int}
    (hvalid : username.valid = true) :
    (Dml.insertUser username displayName note true nowMs).bind t = .ok () ↔
    userBinds displayName note nowMs = true := by
  simp only [Dml.bind, bindText, bindInt, hvalid, if_true, userBinds, Bool.and_eq_true,
    ← bindOption_text (u := ())]
  cases bindOption bindText displayName with
  | error => simp [bind, Except.bind]
  | ok => cases fits64 nowMs <;> simp [bind, Except.bind]

/-- What SQLite refuses to bind it does not take for a conflict. -/
theorem bindOption_ne_integrityError {f : α → Except PyExn Unit}
    (hf : ∀ a, f a ≠ .error .integrityError) (x : Option α) :
    bindOption f x ≠ .error .integrityError := by
  cases x with
  | none => exact nofun
  | some a => exact hf a

theorem bindText_ne_integrityError (s : Str) : bindText s ≠ .error .integrityError := by
  unfold bindText
  split <;> simp

theorem bindInt_ne_integrityError (n : Int) : bindInt n ≠ .error .integrityError := by
  unfold bindInt
  split <;> simp

theorem bind_insertUser_ne_integrityError (t : Tables) (username : Str)
    (displayName note : Option Str) (nowMs : Int) :
    (Dml.insertUser username displayName note true nowMs).bind t ≠ .error .integrityError := by
  intro h
  rw [Dml.bind] at h
  rcases Except.bind_eq_error h with h | ⟨_, -, h⟩
  · exact bindText_ne_integrityError _ h
  rcases Except.bind_eq_error h with h | ⟨_, -, h⟩
  · exact bindOption_ne_integrityError bindText_ne_integrityError _ h
  rcases Except.bind_eq_error h with h | ⟨_, -, h⟩
  · exact bindInt_ne_integrityError _ h
  · exact bindOption_ne_integrityError bindText_ne_integrityError _ h

namespace Db

variable {t : Tables}

section
variable {username : Str} {displayName note : Option Str} {nowMs : Int}

theorem run_insertUser (hvalid : username.valid = true) (hnew : t.userByUsername username = none)
    (hbinds : userBinds displayName note nowMs = true) :
    (Dao.createUser username displayName note nowMs).run Tables.handler t =
      (.ok (t.users.seq + 1), t.addUser (newUser username displayName note nowMs)) := by
  rw [Dao.createUser, Coro.run_bind, run_executeCommit, Dml.effect,
    (bind_insertUser hvalid).mpr hbinds]
  simp [Dml.run, hnew, Except.mapError, Tables.addUser, newUser]

theorem run_insertUser_error (hvalid : username.valid = true)
    (hbinds : ¬ userBinds displayName note nowMs = true) :
    ∃ e, e ≠ .integrityError ∧
      (Dao.createUser username displayName note nowMs).run Tables.handler t =
        (.error (.py e), t) := by
  rw [Dao.createUser, Coro.run_bind]
  cases hb : (Dml.insertUser username displayName note true nowMs).bind t with
  | ok => exact absurd ((bind_insertUser hvalid).mp hb) hbinds
  | error e =>
    refine ⟨e, ?_, by rw [run_unbound hb]⟩
    rintro rfl
    exact bind_insertUser_ne_integrityError t _ _ _ _ hb

/-- `create_user` looks for the name first. -/
theorem run_createUser_taken (hvalid : username.valid = true)
    (hfound : t.userByUsername username = some row) :
    (UserService.createUser username displayName note nowMs).run Tables.handler t =
      (.error (.userAlreadyExists username), t) := by
  rw [UserService.createUser, Coro.run_bind, Dao.getUserByUsername, run_query, Query.exec, bindText,
    if_pos hvalid, hfound]
  rfl

theorem run_createUser_new (hvalid : username.valid = true)
    (hnew : t.userByUsername username = none)
    (hinsert : (Dao.createUser username displayName note nowMs).run Tables.handler t = (x, t'))
    (hx : x ≠ .error (.py .integrityError)) :
    (UserService.createUser username displayName note nowMs).run Tables.handler t = (x, t') := by
  rw [UserService.createUser, Coro.run_bind, Dao.getUserByUsername, run_query, Query.exec, bindText,
    if_pos hvalid, hnew]
  change ((Dao.createUser username displayName note nowMs).handle _).run Tables.handler t = _
  cases x with
  | ok id => exact Coro.run_handle_ok hinsert _
  | error e =>
    rw [Coro.run_handle_error hinsert]
    split
    · exact absurd rfl hx
    · rfl

end

theorem raises_createUser {body : AdminUserCreateRequest} {nowMs : Int} :
    Raises (Exn.client · = true) t (AdminUsers.createUser body nowMs) ↔
    CreateUserSafe t body nowMs := by
  unfold AdminUsers.createUser CreateUserSafe
  cases hvalid : body.username.valid with
  | false =>
    have hcreate : (UserService.createUser body.username body.displayName body.note nowMs).run
        Tables.handler t =
        (.error (.py .unicodeEncodeError), t) := by
      rw [UserService.createUser, Coro.run_bind, Dao.getUserByUsername, run_query, Query.exec,
        bindText, hvalid]
      rfl
    rw [Raises, Coro.RaisesOnly, Coro.run_bind, Coro.run_handle_error hcreate]
    simp [not_client_py]
  | true =>
    cases hfound : t.userByUsername body.username with
    | some row =>
      have hclient : ∀ message code, (Admin.refuse 409 message code).client = true :=
        fun message code =>
        Handling.client_refuse (by decide) message code none
      rw [Raises, Coro.RaisesOnly, Coro.run_bind,
        Coro.run_handle_error (run_createUser_taken hvalid hfound)]
      simp [hclient]
    | none =>
      by_cases hbinds : userBinds body.displayName body.note nowMs = true
      · have hcreate :=
          run_createUser_new hvalid hfound (run_insertUser hvalid hfound hbinds) (by simp)
        rw [Raises, Coro.raisesOnly_bind_run (Coro.run_handle_ok hcreate _)]
        have hrow : (t.addUser (newUser body.username body.displayName body.note nowMs)).userById
            (t.users.seq + 1 : Nat) =
            some ⟨t.users.seq + 1, newUser body.username body.displayName body.note nowMs⟩ := by
          refine Tables.userById_eq_some.mpr ⟨rfl, ?_⟩
          rw [Tables.addUser, Table.get?_insert, if_pos rfl]
        have hget := run_getUserById (t.users.seq + 1 : Nat)
          (t.addUser (newUser body.username body.displayName body.note nowMs))
        rw [hrow] at hget
        simp only [Except.ok.injEq, forall_eq', Coro.raisesOnly_bind_run hget]
        simp [lookup, hbinds, Coro.RaisesOnly.ret]
      · obtain ⟨e, hne, hinsert⟩ := run_insertUser_error (t := t) hvalid hbinds
        have hcreate := run_createUser_new hvalid hfound hinsert (by simpa using hne)
        rw [Raises, Coro.RaisesOnly, Coro.run_bind, Coro.run_handle_error hcreate]
        simp [hbinds, not_client_py]

/-- An UPDATE of the user `id`, whose number is bound. -/
theorem run_setUserEnabledById {userId : Int} {enabled : Bool}
    (hbound : boundId (t.userById userId) userId = true) :
    (Dao.setUserEnabledById userId enabled).run Tables.handler t =
      (.ok (t.userById userId).isSome,
        ((t.userById userId).map fun row =>
          t.setUsers (fun r => decide (r.id = row.id)) enabled).getD t) := by
  have hbind : (Dml.setUserEnabledById userId enabled).bind t = .ok () := by
    simp only [boundId, Bool.or_eq_true] at hbound
    rw [Dml.bind, bindId, bindInt]
    split
    · rfl
    · rw [if_pos (hbound.resolve_left ‹_›)]
  have hrun : (Dml.setUserEnabledById userId enabled).run t =
    .ok (Dml.updateUsers t (fun r => (r.id : Int) = userId) fun u => { u with enabled }) := rfl
  rw [Dao.setUserEnabledById, Coro.run_bind, run_executeCommit, Dml.effect, hbind]
  dsimp only
  rw [hrun]
  rcases Dml.updateUsers_cases t userId fun u => { u with enabled } with
    ⟨row, hrow, hcount, htables⟩ | ⟨hnone, hcount, htables⟩
  · simp [Except.mapError, hcount, hrow, htables, Tables.setUsers]
  · simp [Except.mapError, hcount, hnone, htables]

theorem userById_setUsers {userId : Int} (hrow : t.userById userId = some row) (enabled : Bool) :
    (t.setUsers (fun r => decide (r.id = row.id)) enabled).userById userId =
      some ⟨row.id, { row.val with enabled }⟩ := by
  obtain ⟨rfl, hget⟩ := Tables.userById_eq_some.mp hrow
  exact Tables.userById_eq_some.mpr ⟨rfl, by simp [Tables.setUsers, Table.get?_update_id, hget]⟩

theorem run_setUserEnabled_of_none {userId : Int} {enabled : Bool}
    (hnone : t.userById userId = none) :
    (UserService.setUserEnabledById userId enabled).run Tables.handler t =
      (.error (if fits64 userId then .userNotFoundById userId else .py .overflowError), t) := by
  rw [UserService.setUserEnabledById, Coro.run_bind]
  cases hfits : fits64 userId with
  | true =>
    rw [run_setUserEnabledById (by simp [boundId, hfits]), hnone]
    rfl
  | false =>
    have hbind : (Dml.setUserEnabledById userId enabled).bind t = .error .overflowError := by
      simp [Dml.bind, bindId, hnone, bindInt, hfits]
    rw [Dao.setUserEnabledById, Coro.run_bind, run_unbound hbind]
    rfl

theorem run_setUserEnabled_of_some {userId : Int} {enabled : Bool}
    (hrow : t.userById userId = some row) :
    (UserService.setUserEnabledById userId enabled).run Tables.handler t =
      (.ok (some ⟨row.id, { row.val with enabled }⟩),
        t.setUsers (fun r => decide (r.id = row.id)) enabled) := by
  rw [UserService.setUserEnabledById, Coro.run_bind,
    run_setUserEnabledById (by simp [boundId, hrow]), hrow]
  have hget := run_userById userId (t.setUsers (fun r => decide (r.id = row.id)) enabled)
  rw [userById_setUsers hrow] at hget
  exact hget

theorem raises_setUserEnabled {raw : Str} {enabled : Bool} :
    Raises (Exn.client · = true) t (AdminUsers.setEnabled raw enabled) ↔
      ∀ id, raw.toInt? = some id → 1 ≤ id → boundId (t.userById id) id = true := by
  unfold AdminUsers.setEnabled
  rw [raises_lift_bind]
  simp only [parsePathId_ok, and_imp]
  rw [and_iff_right fun e => parsePathId_error]
  refine forall₃_congr fun id _ _ => ?_
  cases hfound : t.userById id with
  | none =>
    rw [Raises, Coro.RaisesOnly, Coro.run_bind,
      Coro.run_handle_error (run_setUserEnabled_of_none hfound)]
    cases hfits : fits64 id <;> simp [boundId, hfits, userNotFound_client, not_client_py]
  | some row =>
    rw [Raises, Coro.raisesOnly_bind_run (Coro.run_handle_ok (run_setUserEnabled_of_some hfound) _)]
    simp [boundId, Coro.RaisesOnly.ret]

end Db

/-! ## What is committed -/

namespace Db

/-- Where the coroutine returns, no transaction is open any more, if it has written (`w`) or if none
was open before. -/
def Commits (w : Prop) (c : Db α) : Prop :=
  ∀ conn a conn', c.run Conn.handler conn = (.ok a, conn') → w ∨ conn.tx = none → conn'.tx = none

namespace Commits

variable {w w' : Prop} {c : Db α}

theorem mono (hc : Commits w c) (h : w' → w) : Commits w' c := fun conn a conn' hrun hw =>
  hc conn a conn' hrun (hw.imp_left h)

theorem ret {a : α} : Commits False (.ret a) := by
  rintro conn _ _ ⟨⟩ hw
  exact hw.resolve_left id

theorem raise {e : Exn} : Commits w (.raise e : Db α) := fun _ _ _ hrun => nomatch hrun

theorem lift (x : Except Exn α) : Commits False (Db.lift x) := by
  cases x with
  | ok a => exact .ret
  | error e => exact .raise

theorem bind {f : α → Db β} (hc : Commits w c) (hf : ∀ a, Commits w' (f a)) :
    Commits (w ∨ w') (c >>= f) := by
  intro conn b conn' hrun hw
  rw [Coro.run_bind] at hrun
  rcases hr : c.run Conn.handler conn with ⟨e | a, conn₁⟩ <;> rw [hr] at hrun
  · cases hrun
  · refine hf a conn₁ b conn' hrun ?_
    rcases hw with (hw | hw) | hw
    · exact .inr (hc conn a conn₁ hr (.inl hw))
    · exact .inl hw
    · exact .inr (hc conn a conn₁ hr (.inr hw))

/-- What reads only, before the rest. -/
theorem after {f : α → Db β} (hc : Commits False c) (hf : ∀ a, Commits w (f a)) :
    Commits w (c >>= f) :=
  (hc.bind hf).mono .inr

/-- What writes, before what reads only. -/
theorem before {f : α → Db β} (hc : Commits True c) (hf : ∀ a, Commits False (f a)) :
    Commits True (c >>= f) :=
  (hc.bind hf).mono .inl

/-- An exception handler that raises again. -/
theorem handle {f : Exn → Db α} (hc : Commits w c) (hf : ∀ e, ∃ e', f e = .raise e') :
    Commits w (c.handle f) := by
  intro conn a conn' hrun
  rw [Coro.run_handle] at hrun
  rcases hr : c.run Conn.handler conn with ⟨e | a₁, conn₁⟩ <;> rw [hr] at hrun
  · obtain ⟨e', he⟩ := hf e
    dsimp only at hrun
    rw [he] at hrun
    cases hrun
  · cases hrun
    exact hc conn a conn' hr

theorem query (q : Query) : Commits False (Db.query q) := by
  intro conn a conn' hrun hw
  have hnone : conn.tx = none := hw.resolve_left id
  unfold Db.query at hrun
  rw [Coro.run_perform, Conn.handler] at hrun
  cases hq : q.exec conn.view with
  | error e =>
    rw [Conn.step_query_error hq] at hrun
    cases hrun
  | ok r =>
    rw [Conn.step_query_ok hq] at hrun
    cases hrun
    simp [Conn.pin, hnone]

theorem executeCommit (d : Dml) : Commits True (Db.executeCommit d) := by
  intro conn a conn' hrun _
  unfold Db.executeCommit execute at hrun
  rw [Coro.run_bind, Coro.run_perform] at hrun
  rcases hr : Conn.handler (.dml d) conn with ⟨e | cur, conn₁⟩ <;> rw [hr] at hrun
  · cases hrun
  · cases hrun
    rfl

theorem getKey (keyId : Int) : Commits False (KeyService.getKey keyId) := by
  unfold KeyService.getKey
  refine after (.query _) fun found => ?_
  cases found with
  | none => exact .raise
  | some row => exact .ret

theorem getKeyWithOwner (keyId : Int) : Commits False (KeyService.getKeyWithOwner keyId) := by
  unfold KeyService.getKeyWithOwner
  exact after (getKey keyId) fun row => after (.query _) fun user => .ret

theorem patchLimits (raw : Str) (body : AdminKeyLimitsRequest) :
    Commits True (AdminKeys.patchLimits raw body) := by
  have hupdate : ∀ kid rpm tokenLimit, Commits True (Dao.setKeyLimitsById kid rpm tokenLimit) :=
    fun _ _ _ =>
    before (.executeCommit _) fun _ => .ret
  unfold AdminKeys.patchLimits AdminKeys.orNotFound KeyService.setKeyLimits
  refine after (.lift _) fun kid => before (handle ?_ fun e => ?_) fun row => .lift _
  · exact before (after (getKey kid) fun _ => before (hupdate _ _ _) fun _ => .ret) fun _ =>
      getKeyWithOwner kid
  · cases e <;> exact ⟨_, rfl⟩

theorem createKey (hashKey : Str → Str) (zone : Zone) (keyPrefix : Str) (clk : Clock) (random : Str)
    (body : AdminKeyCreateRequest) :
    Commits True (AdminKeys.createKey hashKey zone keyPrefix clk random body) := by
  have howner : Commits False (UserService.getUserById body.userId) := by
    unfold UserService.getUserById
    refine after (.query _) fun found => ?_
    cases found with
    | none => exact .raise
    | some row => exact .ret
  unfold AdminKeys.createKey KeyService.createKey
  refine after (handle howner fun e => ?_) fun _ => before ?_ fun created => ?_
  · cases e <;> exact ⟨_, rfl⟩
  · cases body.expiresInDays.mapM (zone.inDays clk) with
    | error e => exact .raise
    | ok expiresMs => exact before (before (.executeCommit _) fun _ => .ret) fun _ => .ret
  · exact after (getKeyWithOwner _) fun row => after (.lift _) fun key => .ret

end Commits
end Db

theorem Conn.Alone.eq_settled {conn : Conn} (h : conn.Alone) (htx : conn.tx = none) :
    conn = .settled conn.view := by
  have hunlocked := h.unlocked
  obtain ⟨durable, tx, locked⟩ := conn
  cases htx
  cases hunlocked
  rfl

namespace Handling

/-- The request is answered with the status code, and tables that satisfy `P` are left, all of it
committed. -/
def Leaves (env : AdminEnv) (st : AdminState) (c : Handling AdminResponse) (statusCode : Nat)
    (P : Tables → Prop) : Prop :=
  ∃ response t st', c.run env.handler st = (.ok response, st') ∧ response.statusCode = statusCode ∧
    st'.conn = .settled t ∧ P t

variable {env : AdminEnv} {st : AdminState} {P : Tables → Prop}

theorem run_ofDb (c : Db α) : ((ofDb c).run env.handler st).1 = (c.run Conn.handler st.conn).1 ∧
    ((ofDb c).run env.handler st).2.conn = (c.run Conn.handler st.conn).2 :=
  Coro.run_embed AdminState.conn (fun _ _ => ⟨rfl, rfl⟩) c st

/-- A database coroutine that commits, and what it is answered with. -/
theorem leaves_ofDb (hst : st.conn.Alone) {c : Db α} (hc : Db.Commits True c) {statusCode : Nat}
    {f : α → AdminResponse} (hf : ∀ a, (f a).statusCode = statusCode) :
    Leaves env st (ofDb c >>= fun a => (pure (f a) : Handling AdminResponse)) statusCode P ↔
      ∃ a t, c.run Tables.handler st.conn.view = (.ok a, t) ∧ P t := by
  have hrun : ((ofDb c).run env.handler st).1 = _ ∧ ((ofDb c).run env.handler st).2.conn = _ :=
    run_ofDb c
  obtain ⟨hres, hview, halone⟩ := hst.run c
  rw [Leaves, Coro.run_bind]
  rcases hc₁ : c.run Conn.handler st.conn with ⟨e | a, conn⟩ <;> rw [hc₁] at hrun hres hview halone
  · rcases hr : (ofDb c).run env.handler st with ⟨e' | a', st₁⟩ <;> rw [hr] at hrun <;> cases hrun.1
    refine iff_of_false (fun ⟨_, _, _, h, _⟩ => nomatch h) ?_
    rintro ⟨a, t, h, -⟩
    rw [h] at hres
    cases hres
  · rcases hr : (ofDb c).run env.handler st with ⟨e' | a', st₁⟩ <;> rw [hr] at hrun <;> cases hrun.1
    have hsettled : st₁.conn = .settled (c.run Tables.handler st.conn.view).2 := by
      rw [hrun.2, ← hview]
      exact halone.eq_settled (hc _ _ _ hc₁ (.inl trivial))
    constructor
    · rintro ⟨response, t, st', hst', -, hconn, ht⟩
      cases hst'
      rw [hsettled] at hconn
      cases hconn
      exact ⟨a, _, Prod.ext hres.symm rfl, ht⟩
    · rintro ⟨a', t, hrun', ht⟩
      refine ⟨f a, t, st₁, rfl, hf a, ?_, ht⟩
      rw [hsettled, hrun']

theorem leaves_answer (hst : st.conn.Alone) {c : Db α} (hc : Db.Commits True c)
    (toJson : α → Json) :
    Leaves env st (answer toJson c) 200 P ↔
    ∃ a t, c.run Tables.handler st.conn.view = (.ok a, t) ∧ P t :=
  leaves_ofDb hst hc (f := fun a => okJson (toJson a)) fun _ => rfl

theorem leaves_created [Dump α] (hst : st.conn.Alone) {c : Db α} (hc : Db.Commits True c) :
    Leaves env st (ofDb c >>= fun a => (pure (created (dump a)) : Handling AdminResponse)) 201 P ↔
      ∃ a t, c.run Tables.handler st.conn.view = (.ok a, t) ∧ P t :=
  leaves_ofDb hst hc fun _ => rfl

theorem run_parsedBody {payload : Json} (hpayload : env.req.body = .ok payload)
    (modelValidate : Json → Except (Option Str) α) :
    (parsedBody modelValidate).run env.handler st =
      (Admin.parseBody modelValidate payload, st) := by
  have hbody : Handling.body.run env.handler st = (.ok (.ok payload), st) :=
    congrArg (fun x => (Except.ok x, st)) hpayload
  have hparse : Admin.parseJsonBody (.ok payload) = .ok payload := rfl
  unfold parsedBody
  rw [Coro.run_bind, hbody]
  dsimp only
  rw [Coro.run_bind, run_lift, hparse]
  exact run_lift _ st

/-- A body that is read, and a handler for it. -/
theorem leaves_parsedBody {modelValidate : Json → Except (Option Str) α}
    {f : α → Handling AdminResponse} {payload : Json} (hpayload : env.req.body = .ok payload)
    {statusCode : Nat} :
    Leaves env st (parsedBody modelValidate >>= f) statusCode P ↔
      ∃ body, modelValidate payload = .ok body ∧ Leaves env st (f body) statusCode P := by
  rw [Leaves, Coro.run_bind, run_parsedBody hpayload]
  cases hvalid : Admin.parseBody modelValidate payload with
  | error e =>
    refine iff_of_false (fun ⟨_, _, _, h, _⟩ => nomatch h) ?_
    rintro ⟨body, hbody, -⟩
    cases hvalid.symm.trans (parseBody_ok.mpr hbody)
  | ok body => simp [parseBody_ok.mp hvalid, Leaves]

end Handling

end EasyModelGate
