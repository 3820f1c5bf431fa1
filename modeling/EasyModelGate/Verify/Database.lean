import EasyModelGate.Services.KeyService
import EasyModelGate.Services.RequestLogging
import EasyModelGate.Services.UserService

/-! # The gateway's connection on its own

As long as no other connection writes, a statement never meets `SQLITE_BUSY`, and an open
transaction is only the difference between what the connection sees and what is durable. -/

namespace EasyModelGate

/-- What a write returns on the tables that it sees, and what it makes of them. -/
def Dml.effect (d : Dml) (t : Tables) : Except PyExn Cursor × Tables :=
  match d.bind t with
  | .error e => (.error e, t)
  | .ok () =>
    match d.run t with
    | .error e => (.error e, t)
    | .ok (cursor, t') => (.ok cursor, t')

def Stmt.effect : (s : Stmt) → Tables → Except PyExn s.Res × Tables
  | .query q, t => (q.exec t, t)
  | .dml d, t => d.effect t
  | .commit, t => (.ok (), t)

def Stmt.isCommit : Stmt → Bool
  | .commit => true
  | _ => false

namespace Conn

/-- No other connection holds the lock, or has committed since the snapshot was taken; a
transaction that has written nothing sees what is durable. -/
structure Alone (c : Conn) : Prop where
  unlocked : c.locked = false
  fresh : ∀ tx, c.tx = some tx → tx.stale = false
  clean : ∀ tx, c.tx = some tx → tx.wrote = false → c.view = c.durable
  seen : ∀ tx, c.tx = some tx → tx.wrote = true → tx.view.isSome

namespace Alone

variable {c : Conn}

theorem of_tx_none (hl : c.locked = false) (ht : c.tx = none) : c.Alone :=
  ⟨hl, by simp [ht], by simp [ht], by simp [ht]⟩

theorem busy (h : c.Alone) : c.busy = false := by
  unfold Conn.busy
  rw [h.unlocked, Bool.false_or]
  cases ht : c.tx with
  | none => rfl
  | some tx => exact h.fresh tx ht

theorem begin (h : c.Alone) : c.begin.Alone := by
  rcases c with ⟨d, _ | tx, l⟩
  · refine ⟨h.unlocked, ?_, ?_, ?_⟩ <;> rintro tx ⟨⟩
    · rfl
    · exact fun _ => rfl
    · exact nofun
  · exact h

theorem pin (h : c.Alone) : c.pin.Alone := by
  refine ⟨h.unlocked, ?_, ?_, ?_⟩ <;> intro tx htx <;>
    obtain ⟨tx₀, ht, rfl⟩ := Option.map_eq_some_iff.mp htx
  · exact h.fresh tx₀ ht
  · exact fun hw => (view_pin c).trans (h.clean tx₀ ht hw)
  · exact fun _ => rfl

theorem written (h : c.Alone) (t : Tables) : (c.written t).Alone := by
  refine ⟨h.unlocked, ?_, ?_, ?_⟩ <;> rintro tx ⟨⟩
  · rfl
  · exact nofun
  · exact fun _ => rfl

theorem committed (h : c.Alone) : c.committed.Alone := of_tx_none h.unlocked rfl

/-- A commit makes durable what the connection sees. -/
theorem durable_committed (h : c.Alone) : c.committed.durable = c.view := by
  unfold Conn.committed
  cases ht : c.tx with
  | none => simp [Conn.view, ht]
  | some tx =>
    obtain ⟨v, w, st⟩ := tx
    cases w with
    | false => simpa using (h.clean _ ht rfl).symm
    | true =>
      obtain ⟨t, rfl⟩ := Option.isSome_iff_exists.mp (h.seen _ ht rfl)
      simp [Conn.view, ht]

theorem view_committed (h : c.Alone) : c.committed.view = c.view := h.durable_committed

theorem write (h : c.Alone) (d : Dml) :
    (c.write d).1 = (d.effect c.view).1 ∧
      (c.write d).2.view = (d.effect c.view).2 ∧
      (c.write d).2.durable = c.durable ∧ (c.write d).2.Alone := by
  unfold Conn.write Dml.effect
  cases hb : d.bind c.view with
  | error e => exact ⟨rfl, rfl, rfl, h⟩
  | ok u =>
    simp only [h.busy, Bool.false_eq_true, if_false]
    cases hr : d.run c.view with
    | error e => exact ⟨rfl, rfl, rfl, h.written _⟩
    | ok p => exact ⟨rfl, rfl, rfl, h.written _⟩

/-- **One statement**: its result and what is seen after it depend on what was seen before, and
only a commit changes what is durable. -/
theorem step (h : c.Alone) (s : Stmt) :
    (c.step none s).1 = (s.effect c.view).1 ∧ (c.step none s).2.view = (s.effect c.view).2 ∧
      (c.step none s).2.durable = (if s.isCommit then c.view else c.durable) ∧
      (c.step none s).2.Alone := by
  cases s with
  | query q =>
    cases hq : q.exec c.view with
    | error e =>
      rw [step_query_error hq]
      exact ⟨hq.symm, rfl, rfl, h⟩
    | ok r =>
      rw [step_query_ok hq]
      exact ⟨hq.symm, view_pin c, rfl, h.pin⟩
  | dml d =>
    have := h.begin.write d
    rwa [view_begin, durable_begin] at this
  | commit => exact ⟨rfl, h.view_committed, h.durable_committed, h.committed⟩

end Alone
end Conn

/-! ## What the tables keep -/

theorem Dml.effect_cases (d : Dml) (t : Tables) :
    (∃ e, d.effect t = (.error e, t)) ∨
      ∃ cursor t', d.bind t = .ok () ∧ d.run t = .ok (cursor, t') ∧
      d.effect t = (.ok cursor, t') := by
  unfold Dml.effect
  cases hb : d.bind t with
  | error e => exact .inl ⟨e, rfl⟩
  | ok u =>
    cases hr : d.run t with
    | error e => exact .inl ⟨e, rfl⟩
    | ok p => exact .inr ⟨p.1, p.2, rfl, rfl, rfl⟩

theorem Dml.effect_ok {d : Dml} (h : d.effect t = (.ok cursor, t')) :
    d.bind t = .ok () ∧ d.run t = .ok (cursor, t') := by
  rcases d.effect_cases t with ⟨e, he⟩ | ⟨_, _, hb, hr, he⟩ <;> cases he.symm.trans h
  exact ⟨hb, hr⟩

theorem Dml.effect_error {d : Dml} (h : d.effect t = (.error e, t)) :
    d.bind t = .error e ∨ d.run t = .error e := by
  unfold Dml.effect at h
  cases hb : d.bind t with
  | error e' =>
    rw [hb] at h
    cases h
    exact .inl rfl
  | ok u =>
    rw [hb] at h
    cases hr : d.run t with
    | error e' =>
      rw [hr] at h
      cases h
      exact .inr rfl
    | ok p =>
      rw [hr] at h
      cases h

/-- Rows are only added. -/
structure Tables.Grown (t t' : Tables) : Prop where
  logs : t.requestLogs.rows <+: t'.requestLogs.rows
  keys : ∀ id, (t.apiKeys.get? id).isSome → (t'.apiKeys.get? id).isSome

namespace Tables

theorem Grown.refl (t : Tables) : t.Grown t := ⟨List.prefix_rfl, fun _ => id⟩

/-- `token_used` of a key. -/
def tokenUsed (t : Tables) (keyId : Nat) : Option SqlNumber :=
  (t.apiKeys.get? keyId).map (·.val.tokenUsed)

@[simp] theorem userById_natCast (t : Tables) (id : Nat) : t.userById id = t.users.get? id := rfl
@[simp] theorem keyById_natCast (t : Tables) (id : Nat) : t.keyById id = t.apiKeys.get? id := rfl

end Tables

/-- The two writes of `persist_request_log`. -/
def Dml.isLog : Dml → Bool
  | .insertRequestLog _ => true
  | _ => false

def Dml.isCharge : Dml → Bool
  | .addTokenUsed .. => true
  | _ => false

theorem Dml.updateKey_eq (t : Tables) (keyId : Nat) (f : ApiKey → ApiKey) :
    (Dml.updateKey t keyId f).2 =
      { t with apiKeys := t.apiKeys.update (fun r => decide (r.id = keyId)) f } := by
  simp only [Dml.updateKey, Nat.cast_inj]

theorem Dml.run_grown {d : Dml} (h : d.run t = .ok (cursor, t')) : t.Grown t' := by
  have hupdate (p : Row ApiKey → Bool) (f : ApiKey → ApiKey) :
      t.Grown { t with apiKeys := t.apiKeys.update p f } :=
    ⟨List.prefix_rfl, fun id hid => by rwa [Table.get?_update, Option.isSome_map]⟩
  cases d with
  | insertUser =>
    simp only [Dml.run] at h
    split at h <;> cases h
    exact ⟨List.prefix_rfl, fun _ => id⟩
  | setUserEnabled | setUserEnabledById | upsertSetting =>
    cases h
    exact ⟨List.prefix_rfl, fun _ => id⟩
  | insertApiKey =>
    simp only [Dml.run] at h
    split at h <;> cases h
    refine ⟨List.prefix_rfl, fun id hid => ?_⟩
    rw [Table.get?_insert]
    split
    · rfl
    · exact hid
  | setKeyEnabledById | setKeyLimitsById | touchLastUsed | addTokenUsed =>
    cases h
    exact hupdate _ _
  | insertRequestLog record =>
    simp only [Dml.run] at h
    split at h <;> cases h
    exact ⟨List.prefix_append _ _, fun _ => id⟩

theorem Dml.effect_grown (d : Dml) (t : Tables) : t.Grown (d.effect t).2 := by
  rcases d.effect_cases t with ⟨e, h⟩ | ⟨cursor, t', -, hr, h⟩
  · rw [h]; exact .refl t
  · rw [h]; exact Dml.run_grown hr

theorem Stmt.effect_grown (s : Stmt) (t : Tables) : t.Grown (s.effect t).2 := by
  cases s with
  | query | commit => exact .refl t
  | dml d => exact d.effect_grown t

/-- Only `persist_request_log` writes to the log. -/
theorem Dml.run_requestLogs {d : Dml} (hd : d.isLog = false) (h : d.run t = .ok (cursor, t')) :
    t'.requestLogs = t.requestLogs := by
  cases d with
  | insertRequestLog => cases hd
  | insertUser | insertApiKey =>
    simp only [Dml.run] at h
    split at h <;> cases h
    rfl
  | _ =>
    cases h
    rfl

theorem Dml.effect_requestLogs {d : Dml} (hd : d.isLog = false) (t : Tables) :
    (d.effect t).2.requestLogs = t.requestLogs := by
  rcases d.effect_cases t with ⟨e, h⟩ | ⟨cursor, t', -, hr, h⟩
  · rw [h]
  · rw [h]; exact Dml.run_requestLogs hd hr

/-- Only `persist_request_log` charges a key; a new key has used nothing. -/
theorem Dml.run_tokenUsed {d : Dml} (hd : d.isCharge = false) (h : d.run t = .ok (cursor, t'))
    (k : Nat) :
    t'.tokenUsed k = t.tokenUsed k ∨ t.tokenUsed k = none ∧ t'.tokenUsed k = some (.int 0) := by
  have hupdate (p : Row ApiKey → Bool) (f : ApiKey → ApiKey)
      (hf : ∀ key, (f key).tokenUsed = key.tokenUsed) :
      ({ t with apiKeys := t.apiKeys.update p f } : Tables).tokenUsed k = t.tokenUsed k := by
    unfold Tables.tokenUsed
    rw [Table.get?_update, Option.map_map]
    congr 1
    funext r
    dsimp only [Function.comp]
    split
    · exact hf _
    · rfl
  cases d with
  | addTokenUsed => cases hd
  | insertUser =>
    simp only [Dml.run] at h
    split at h <;> cases h
    exact .inl rfl
  | setUserEnabled | setUserEnabledById | upsertSetting =>
    cases h
    exact .inl rfl
  | insertApiKey =>
    simp only [Dml.run] at h
    split at h <;> cases h
    simp only [Tables.tokenUsed, Table.get?_insert]
    split
    · subst k
      refine .inr ⟨?_, rfl⟩
      rw [Option.map_eq_none_iff, Table.get?_eq_none]
      exact fun r hr => Nat.ne_of_lt (Nat.lt_succ_of_le (t.apiKeys.bounded r hr))
    · exact .inl rfl
  | setKeyEnabledById | setKeyLimitsById | touchLastUsed =>
    cases h
    exact .inl (hupdate _ _ fun _ => rfl)
  | insertRequestLog record =>
    simp only [Dml.run] at h
    split at h <;> cases h
    exact .inl rfl

theorem Dml.effect_tokenUsed {d : Dml} (hd : d.isCharge = false) (t : Tables) (k : Nat) :
    (d.effect t).2.tokenUsed k = t.tokenUsed k ∨
      t.tokenUsed k = none ∧ (d.effect t).2.tokenUsed k = some (.int 0) := by
  rcases d.effect_cases t with ⟨e, h⟩ | ⟨cursor, t', -, hr, h⟩
  · rw [h]; exact .inl rfl
  · rw [h]; exact Dml.run_tokenUsed hd hr k

end EasyModelGate
