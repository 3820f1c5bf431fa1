import Mathlib.Logic.Equiv.Basic
import EasyModelGate.Core.Auth
import EasyModelGate.Lib.Renaming

/-! # The database under a renaming of the hashes

The hash of a key stands in one column, and only an equality asks for it: a statement on renamed
tables does what the statement does, renamed. A coroutine that passes no hash on is its own
renaming. -/

namespace EasyModelGate

/-! ## Tables -/

namespace Table

variable {α : Type}

/-- Every value replaced by its image. -/
def map (t : Table α) (f : α → α) : Table α where
  rows := t.rows.map fun r => ⟨r.id, f r.val⟩
  seq := t.seq
  ordered := List.pairwise_map.mpr t.ordered
  bounded := by
    intro r hr
    obtain ⟨r₀, hr₀, rfl⟩ := List.mem_map.mp hr
    exact t.bounded r₀ hr₀

variable (t : Table α) (f : α → α)

theorem get?_map (id : Nat) : (t.map f).get? id = (t.get? id).map fun r => ⟨r.id, f r.val⟩ :=
  List.find?_map ..

theorem find?_map {p p' : α → Bool} (hp : ∀ a, p' (f a) = p a) :
    (t.map f).find? p' = (t.find? p).map fun r => ⟨r.id, f r.val⟩ := by
  refine (List.find?_map ..).trans ?_
  exact congrArg (fun p => (t.rows.find? p).map fun r => (⟨r.id, f r.val⟩ : Row α))
    (funext fun r => hp r.val)

theorem select_map {p : α → Bool} (hp : ∀ a, p (f a) = p a) :
    (t.map f).select p = (t.select p).map fun r => ⟨r.id, f r.val⟩ := by
  refine List.filter_map.trans ?_
  exact congrArg (fun p => (t.rows.filter p).map fun r => (⟨r.id, f r.val⟩ : Row α))
    (funext fun r => hp r.val)

theorem insert_map (a : α) : (t.insert a).map f = (t.map f).insert (f a) :=
  ext_rows List.map_append rfl

theorem update_map {p : Row α → Bool} (hp : ∀ r, p ⟨r.id, f r.val⟩ = p r) {g : α → α}
    (hg : ∀ a, g (f a) = f (g a)) :
    (t.map f).update p g = (t.update p g).map f := by
  apply ext_rows
  · change (t.rows.map _).map _ = (t.rows.map _).map _
    rw [List.map_map, List.map_map]
    apply List.map_congr_left
    intro r _
    simp only [Function.comp, hp, hg]
    split <;> rfl
  · rfl

theorem count_map {p : Row α → Bool} (hp : ∀ r, p ⟨r.id, f r.val⟩ = p r) :
    (t.map f).count p = t.count p := by
  refine List.countP_map.trans ?_
  exact congrArg (fun p => t.rows.countP p) (funext hp)

end Table

variable (π : Equiv.Perm Str)

def ApiKey.renamed (k : ApiKey) : ApiKey := { k with keyHash := π k.keyHash }

/-- A row with its hash renamed. -/
def Row.renamed (r : Row ApiKey) : Row ApiKey := ⟨r.id, r.val.renamed π⟩

def Tables.renamed (t : Tables) : Tables := { t with apiKeys := t.apiKeys.map (ApiKey.renamed π) }

def Query.renamed : Query → Query
  | .keyByHash keyHash => .keyByHash (π keyHash)
  | q => q

/-- The result of a query with the hashes in it renamed. -/
def Query.renameRes : (q : Query) → q.Res → (q.renamed π).Res
  | .keyByHash _, r | .keyById _, r => Option.map (Row.renamed π) r
  | .keysByPrefix _, r | .keys _, r => List.map (Row.renamed π) r
  | .userByUsername _, r | .userById _, r => r
  | .users, r => r
  | .setting _, r => r
  | .requestLogs .., r => r
  | .enabledKeys, r => r
  | .summary _, r => r
  | .one, r => r

def Dml.renamed : Dml → Dml
  | .insertApiKey userId name keyPrefix keyHash expiresAt rpmLimit tokenLimit createdAt =>
    .insertApiKey userId name keyPrefix (π keyHash) expiresAt rpmLimit tokenLimit createdAt
  | d => d

namespace Tables

variable (t : Tables)

@[simp] theorem users_renamed : (t.renamed π).users = t.users := rfl
@[simp] theorem requestLogs_renamed : (t.renamed π).requestLogs = t.requestLogs := rfl
@[simp] theorem settings_renamed : (t.renamed π).settings = t.settings := rfl
@[simp] theorem apiKeys_renamed : (t.renamed π).apiKeys = t.apiKeys.map (ApiKey.renamed π) := rfl

theorem keyByHash_renamed (keyHash : Str) :
    (t.renamed π).keyByHash (π keyHash) = (t.keyByHash keyHash).map (Row.renamed π) := by
  apply Table.find?_map
  intro k
  exact decide_eq_decide.mpr π.injective.eq_iff

theorem keyById_renamed (keyId : Int) :
    (t.renamed π).keyById keyId = (t.keyById keyId).map (Row.renamed π) := by
  unfold keyById
  cases rowId keyId with
  | none => rfl
  | some id => exact t.apiKeys.get?_map _ id

@[simp] theorem userById_renamed (userId : Int) :
    (t.renamed π).userById userId = t.userById userId := rfl
@[simp] theorem userByUsername_renamed (username : Str) :
    (t.renamed π).userByUsername username = t.userByUsername username := rfl

theorem joined_renamed (row : Row LogRow) : (t.renamed π).joined row = t.joined row := by
  unfold joined
  cases row.val.apiKeyId with
  | none => rfl
  | some keyId =>
    rw [Option.bind_some, Option.bind_some, keyById_renamed]
    cases t.keyById keyId <;> rfl

end Tables

/-- A statement that first binds its parameters. -/
theorem map_bind_pure (x : Except PyExn Unit) (a : α) (f : α → β) :
    (x >>= fun _ => (pure (f a) : Except PyExn β)) =
      (x >>= fun _ => (pure a : Except PyExn α)).map f := by
  cases x <;> rfl

/-- A write that a constraint may refuse. -/
theorem map_refuse (p : Prop) [Decidable p] (e : PyExn) (a : α) (f : α → β) :
    (if p then .error e else .ok (f a)) =
      ((if p then .error e else .ok a) : Except PyExn α).map f := by
  split <;> rfl

/-- **A query on renamed tables.** -/
theorem Query.exec_renamed (t : Tables) (q : Query) :
    (q.renamed π).exec (t.renamed π) = (q.exec t).map (q.renameRes π) := by
  cases q with
  | userByUsername username =>
    exact map_bind_pure (bindText username) (t.userByUsername username) fun r => r
  | userById userId =>
    exact map_bind_pure (bindId (t.userById userId).isSome userId) (t.userById userId) fun r => r
  | users => rfl
  | keyByHash keyHash => exact congrArg Except.ok (t.keyByHash_renamed π keyHash)
  | keysByPrefix keyPrefix =>
    refine Eq.trans ?_ (map_bind_pure (bindText keyPrefix) _ _)
    exact congrArg (fun r => bindText keyPrefix >>= fun _ => pure r)
      (t.apiKeys.select_map _ fun _ => rfl)
  | keys userId => exact congrArg Except.ok (t.apiKeys.select_map _ fun _ => rfl)
  | keyById keyId =>
    refine Eq.trans ?_ (map_bind_pure (bindId (t.keyById keyId).isSome keyId) _ _)
    change (bindId ((t.renamed π).keyById keyId).isSome keyId >>= fun _ =>
      pure ((t.renamed π).keyById keyId)) = _
    rw [t.keyById_renamed, Option.isSome_map]
    rfl
  | setting key => rfl
  | requestLogs filter limit =>
    refine Eq.trans ?_ (map_bind_pure filter.bind _ _)
    exact congrArg (fun f => filter.bind >>= fun _ => pure (List.map f _))
      (funext (t.joined_renamed π))
  | enabledKeys =>
    have hcount : ((t.apiKeys.map (ApiKey.renamed π)).select (·.enabled)).length =
        (t.apiKeys.select (·.enabled)).length := by
      rw [t.apiKeys.select_map (ApiKey.renamed π) fun _ => rfl, List.length_map]
    exact congrArg Except.ok hcount
  | summary filter =>
    exact map_bind_pure filter.bind (t.requestLogs.select filter.accepts) fun r => r
  | one => rfl

namespace Dml

variable (t : Tables)

theorem bind_renamed (d : Dml) : (d.renamed π).bind (t.renamed π) = d.bind t := by
  cases d <;> simp only [renamed, bind, Tables.keyById_renamed, Option.isSome_map] <;> rfl

/-- An update of one key that leaves its hash alone. -/
theorem updateKey_renamed (keyId : Int) {f : ApiKey → ApiKey}
    (hf : ∀ k, f (k.renamed π) = (f k).renamed π) :
    updateKey (t.renamed π) keyId f = ((updateKey t keyId f).1,
      (updateKey t keyId f).2.renamed π) := by
  unfold updateKey Tables.renamed
  dsimp only
  rw [Table.count_map _ _ fun _ => rfl, Table.update_map _ _ (fun _ => rfl) hf]

/-- **A write on renamed tables.** -/
theorem run_renamed (d : Dml) :
    (d.renamed π).run (t.renamed π) = (d.run t).map fun r => (r.1, r.2.renamed π) := by
  cases d with
  | insertUser username displayName note enabled createdAt =>
    exact map_refuse ((t.userByUsername username).isSome = true)
      _ (_, { t with users := t.users.insert _ })
      fun r => (r.1, r.2.renamed π)
  | setUserEnabled | setUserEnabledById | upsertSetting => rfl
  | insertApiKey userId name keyPrefix keyHash expiresAt rpmLimit tokenLimit createdAt =>
    simp only [renamed, run, Tables.keyByHash_renamed, Option.isSome_map, Tables.userById_renamed]
    split
    · rfl
    · refine congrArg (fun t' =>
        Except.ok (({ lastrowid := t.apiKeys.seq + 1, rowcount := 1 } : Cursor), t')) ?_
      exact congrArg (fun apiKeys => { t with apiKeys }) (t.apiKeys.insert_map (ApiKey.renamed π)
        { userId := userId.toNat, name, keyPrefix, keyHash, enabled := true, expiresAt,
          rpmLimit, tokenLimit
          tokenUsed := .int 0, createdAt, lastUsedAt := none }).symm
  | setKeyEnabledById keyId | setKeyLimitsById keyId | touchLastUsed keyId | addTokenUsed _ keyId =>
    exact congrArg Except.ok (updateKey_renamed π t keyId fun _ => rfl)
  | insertRequestLog record =>
    simp only [renamed, run]
    split <;> rfl

end Dml

/-! ## Connections -/

def Tx.renamed (tx : Tx) : Tx := { tx with view := tx.view.map (Tables.renamed π) }

def Conn.renamed (c : Conn) : Conn :=
  { c with durable := c.durable.renamed π, tx := c.tx.map (Tx.renamed π) }

def Stmt.renaming : Renaming Stmt Stmt.Res where
  op
    | .query q => .query (q.renamed π)
    | .dml d => .dml (d.renamed π)
    | .commit => .commit
  res
    | .query q, r => q.renameRes π r
    | .dml _, r => r
    | .commit, r => r

namespace Conn

variable (c : Conn)

theorem view_renamed : (c.renamed π).view = c.view.renamed π := by
  rcases c with ⟨_, _ | ⟨_ | _, _, _⟩, _⟩ <;> rfl

theorem pin_renamed : (c.renamed π).pin = c.pin.renamed π := by
  rcases c with ⟨_, _ | ⟨_ | _, _, _⟩, _⟩ <;> rfl

theorem begin_renamed : (c.renamed π).begin = c.begin.renamed π := by
  rcases c with ⟨_, _ | _, _⟩ <;> rfl

theorem committed_renamed : (c.renamed π).committed = c.committed.renamed π := by
  rcases c with ⟨_, _ | ⟨_ | _, _ | _, _⟩, _⟩ <;> rfl

theorem busy_renamed : (c.renamed π).busy = c.busy := by
  rcases c with ⟨_, _ | _, _⟩ <;> rfl

theorem write_renamed (d : Dml) : (c.renamed π).write (d.renamed π) =
      ((c.write d).1, (c.write d).2.renamed π) := by
  unfold write
  rw [view_renamed, Dml.bind_renamed, Dml.run_renamed, busy_renamed]
  cases d.bind c.view with
  | error e => rfl
  | ok _ =>
    dsimp only
    split
    · rfl
    · cases d.run c.view <;> rfl

/-- **A statement on a renamed connection.** -/
theorem step_renamed (s : Stmt) : step none ((Stmt.renaming π).op s) (c.renamed π) =
    ((step none s c).1.map ((Stmt.renaming π).res s), (step none s c).2.renamed π) := by
  cases s with
  | query q =>
    have hexec := q.exec_renamed π c.view
    rw [← view_renamed] at hexec
    change step none (.query (q.renamed π)) (c.renamed π) = _
    cases hq : q.exec c.view with
    | error e =>
      rw [hq] at hexec
      rw [step_query_error hq, step_query_error hexec]
      rfl
    | ok r =>
      rw [hq] at hexec
      rw [step_query_ok hq, step_query_ok hexec, pin_renamed]
      rfl
  | dml d =>
    change step none (.dml (d.renamed π)) (c.renamed π) = _
    rw [step_dml, step_dml, begin_renamed, write_renamed]
    cases (c.begin.write d).1 <;> rfl
  | commit =>
    change step none .commit (c.renamed π) = _
    rw [step_commit, step_commit, committed_renamed]
    rfl

theorem handler_renamed : (Stmt.renaming π).Respects (Conn.renamed π) Conn.handler := by
  intro s c
  unfold handler
  rw [step_renamed]
  cases (step none s c).1 <;> rfl

def Other.renamed (o : Other) : Other := { o with conn := o.conn.renamed π }

theorem Other.handler_renamed : (Stmt.renaming π).Respects (Other.renamed π) Other.handler := by
  intro s o
  have hconn := Conn.handler_renamed π s o.conn
  cases s with
  | query q =>
    exact congrArg (fun r : Except Exn (q.renamed π).Res × Conn =>
      (r.1, ({ o with conn := r.2 } : Other))) hconn
  | commit =>
    exact congrArg (fun r : Except Exn Unit × Conn =>
      (r.1, ({ conn := r.2, published := o.published || o.dirty } : Other))) hconn
  | dml d =>
    have hstep : (step none (.dml (d.renamed π)) (o.conn.renamed π)).1 =
        (step none (.dml d) o.conn).1.map id :=
      congrArg Prod.fst (o.conn.step_renamed π (.dml d))
    have hdirty : (step none (.dml (d.renamed π)) (o.conn.renamed π)).1.toOption.any
        (fun cur => decide (0 < cur.rowcount)) =
        (step none (.dml d) o.conn).1.toOption.any fun cur => decide (0 < cur.rowcount) := by
      rw [hstep]
      cases (step none (.dml d) o.conn).1 <;> rfl
    have hres := congrArg Prod.fst hconn
    have hother := congrArg₂ (fun conn dirty => ({ o with conn, dirty } : Other))
      (congrArg Prod.snd hconn) (congrArg (o.dirty || ·) hdirty)
    exact Prod.ext hres hother

/-- **A process of its own on the renamed file.** -/
theorem outside_renamed {R : α → β → Prop} {p : Coro Stmt Stmt.Res Exn α}
    {p' : Coro Stmt Stmt.Res Exn β} (hp : p.Renamed (Stmt.renaming π) R p') :
    ((c.renamed π).outside p').2 = (c.outside p).2.renamed π ∧
      ((∃ a b, (c.outside p).1 = .ok a ∧ ((c.renamed π).outside p').1 = .ok b ∧ R a b) ∨
        ∃ e, (c.outside p).1 = .error e ∧ ((c.renamed π).outside p').1 = .error e) := by
  obtain ⟨hother, hresult⟩ :=
    hp.run (Other.handler_renamed π)
      { conn := { durable := c.durable, locked := c.tx.any Tx.wrote } }
  have hstart :
      ({ conn := { durable := (c.renamed π).durable, locked := (c.renamed π).tx.any Tx.wrote } } :
        Other) =
      Other.renamed π { conn := { durable := c.durable, locked := c.tx.any Tx.wrote } } := by
    rcases c with ⟨_, _ | _, _⟩ <;> rfl
  unfold outside
  rw [hstart]
  refine ⟨?_, hresult⟩
  dsimp only
  rw [hother]
  rcases c with ⟨_, _ | ⟨_ | _, _, _⟩, _⟩ <;> rfl

end Conn
end EasyModelGate
