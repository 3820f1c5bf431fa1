import EasyModelGate.Lib.Run
import EasyModelGate.Verify.Auth
import EasyModelGate.Verify.Gateway
import EasyModelGate.Verify.History

/-! # Who is let in

A token is accepted as long as the history says so. The tables agree with the history as long as
every writing statement of the gateway finds its arguments bindable; one that does not leaves a
transaction open, which pins a snapshot that a revocation from elsewhere does not reach. -/

namespace EasyModelGate

/-! ## The property -/

namespace Lifecycle

def bearer (token : Str) : Str := str "Bearer " ++ token

/-- An attempt with this token succeeds exactly for a good key, and carries what belongs to it. -/
structure Faithful (cfg : KeyConfig) (l : Lifecycle) (token : Str) (nowMs : Int) : Prop where
  accepted : (l.attempt cfg (bearer token) nowMs).1.isOk = true ↔
    ∃ key ∈ History.issued l.history, key.full = token ∧ History.Good l.history key nowMs
  context : ∀ auth, (l.attempt cfg (bearer token) nowMs).1 = .ok auth →
    ∃ key ∈ History.issued l.history, key.full = token ∧ auth.apiKeyId = key.id ∧
      auth.userId = key.owner ∧ (auth.rpmLimit, auth.tokenLimit) = History.limits l.history key

end Lifecycle

/-- The full key that an operation generates. -/
def AdminOp.generates (cfg : KeyConfig) : AdminOp → Option Str
  | .createKey _ random _ => some (cfg.keyPrefix ++ random)
  | _ => none

def CliOp.generates (cfg : KeyConfig) : CliOp → Option Str
  | .keyCreate _ random .. => some (cfg.keyPrefix ++ random)
  | _ => none

namespace Lifecycle

def Label.generates (cfg : KeyConfig) : Label → Option Str
  | .admin op => op.generates cfg
  | .cli op => op.generates cfg
  | _ => none

/-- A generated key is one of the `tokens`, is not empty, and has not been generated before. -/
def fresh (cfg : KeyConfig) (tokens : List Str) (l : Lifecycle) (label : Label) : Bool :=
  (label.generates cfg).all fun full =>
    decide (full ∈ tokens) && decide (full ≠ []) &&
      (History.issued l.history).all fun key => decide (key.full ≠ full)

end Lifecycle

/-- Every argument of a writing statement that the operation reaches can be bound. -/
def AdminOp.binds (cfg : KeyConfig) (t : Tables) : AdminOp → Bool
  | .createUser body nowMs =>
    !body.username.valid || (t.userByUsername body.username).isSome ||
      (body.displayName.all Str.valid && body.note.all Str.valid && fits64 nowMs)
  | .setUserEnabled userId _ => (Admin.parsePathId userId).toOption.all fits64
  | .createKey clk random body =>
    (t.userById body.userId).isNone || (cfg.expiry clk body.expiresInDays).isSome !=
        body.expiresInDays.isSome ||
      (body.name.all Str.valid && Str.valid ((cfg.keyPrefix ++ random).take prefixDisplayLen) &&
        (cfg.expiry clk body.expiresInDays).all fits64 && body.rpm.all fits64 &&
        body.tokenLimit.all fits64 && fits64 clk.nowMs)
  | .setKeyEnabled keyId _ => (Admin.parsePathId keyId).toOption.all fits64
  | .patchLimits keyId body =>
    ((Admin.parsePathId keyId).toOption.bind t.keyById).isNone ||
      ((body.rpm.bind id).all fits64 && (body.tokenLimit.bind id).all fits64)

namespace Lifecycle

/-- No writing statement of the gateway is refused its arguments. -/
def binds (cfg : KeyConfig) (l : Lifecycle) : Label → Bool
  | .admin op => op.binds cfg l.conn.view
  | .touch j => (l.touches[j]?).all fun p => fits64 p.2
  | _ => true

end Lifecycle

/-! ## The operations -/

/-- The operation has left tables that agree with the history that goes on with its event. -/
def History.Extended (cfg : KeyConfig) (H : List LifeEvent) (generates : Option Str) (e : LifeEvent)
    (c : Conn) : Prop :=
  (∃ t, c = .settled t ∧ Agrees cfg.hashKey (H ++ [e]) t) ∧
    ∀ key, e.issued? = some key → generates = some key.full

namespace KeyConfig

variable {cfg : KeyConfig} {clk : Clock} {days expiresAt : Option Int}

theorem expiry_eq (hdays : days.mapM (cfg.zone.inDays clk) = .ok expiresAt) :
    cfg.expiry clk days = expiresAt := by
  rcases Zone.of_mapM_inDays hdays with ⟨rfl, rfl⟩ | ⟨n, ms, rfl, hn, rfl⟩
  · rfl
  · simp [expiry, hn, Except.toOption]

theorem isSome_of_mapM (hdays : days.mapM (cfg.zone.inDays clk) = .ok expiresAt) :
    expiresAt.isSome = days.isSome := by
  rcases Zone.of_mapM_inDays hdays with ⟨rfl, rfl⟩ | ⟨n, ms, rfl, -, rfl⟩ <;> rfl

end KeyConfig

section
variable {cfg : KeyConfig} {H : List LifeEvent} {t : Tables} (h : History.Agrees cfg.hashKey H t)
include h

theorem createUser_extended (body : AdminUserCreateRequest) (nowMs : Int) :
    Db.Meets t ((AdminOp.createUser body nowMs).coro cfg) (History.Extended cfg H none)
      (Db.Failed t ((AdminOp.createUser body nowMs).binds cfg t = true)) := by
  have hcreate :
      Db.Meets t (UserService.createUser body.username body.displayName body.note nowMs) _
      (Db.Failed t ((AdminOp.createUser body nowMs).binds cfg t = true)) :=
      createUser_meets fun hbinds hvalid hnone => by
    simpa [AdminOp.binds, hvalid, hnone, userBinds] using hbinds
  apply Coro.Meets.bind (Q := fun (user : AdminUserResponse) c =>
    t.userByUsername body.username = none ∧
    user.id = t.users.seq + 1 ∧ user.username = body.username ∧
    c = .settled (t.addUser (newUser body.username body.displayName body.note nowMs)))
  · apply Coro.Meets.bind (Coro.Meets.handle hcreate ?_)
    · rintro uid c ⟨hnone, hid, rfl⟩
      apply Coro.Meets.bind ((newUser_meets _ _ _ _ _ hid).mono (fun _ _ hQ => hQ) fun _ _ =>
        False.elim)
      rintro row c ⟨rfl, hrow, hname⟩
      exact .ret ⟨hnone, hrow.trans hid, hname, rfl⟩
    · intro e c hfailed
      split <;> exact .raise hfailed
  · rintro user c ⟨hnone, hid, hname, rfl⟩
    refine .ret ⟨⟨_, rfl, ?_⟩, fun _ hkey => by cases hkey⟩
    rw [hid, hname]
    exact h.addUser (u := newUser body.username body.displayName body.note nowMs) hnone rfl

theorem setUserEnabled_extended (userId : Str) (enabled : Bool) :
    Db.Meets t ((AdminOp.setUserEnabled userId enabled).coro cfg) (History.Extended cfg H none)
      (Db.Failed t ((AdminOp.setUserEnabled userId enabled).binds cfg t = true)) := by
  apply Coro.Meets.bind (Q := fun (user : AdminUserResponse) c => (t.users.get? user.id).isSome ∧
    c = .settled (t.setUsers (fun r => decide (r.id = user.id)) enabled))
  · apply Coro.Meets.bind (Q := fun id c => c = .settled t ∧ Admin.parsePathId userId = .ok id)
    · exact Db.meets_lift (fun id hid => ⟨rfl, hid⟩) fun e _ => .settled _
    · rintro id c ⟨rfl, hid⟩
      apply Coro.Meets.bind (Coro.Meets.handle
        (E := Db.Failed t ((AdminOp.setUserEnabled userId enabled).binds cfg t = true))
        (setUserEnabledById_meets ?_) ?_)
      · rintro row? c ⟨row, hrow, rfl, rfl⟩
        exact .ret ⟨Option.isSome_of_eq_some (Tables.userById_eq_some.mp hrow).2, rfl⟩
      · intro hbinds
        simpa [AdminOp.binds, hid, Except.toOption] using hbinds
      · intro e c hfailed
        split <;> exact .raise hfailed
  · rintro user c ⟨hsome, rfl⟩
    refine .ret ⟨⟨_, rfl, ?_⟩, fun _ hkey => by cases hkey⟩
    obtain ⟨row, hrow⟩ := Option.isSome_iff_exists.mp hsome
    refine h.setUsers (e := .userSet user.id enabled) (Table.id_le hrow) rfl (fun _ => rfl)
      (fun _ => ⟨rfl, rfl⟩) ?_
    intro row' _
    simp only [LifeEvent.setsUser?, decide_eq_true_eq, eq_comm (a := user.id)]

/-- Neither the look at the owner nor `int(row["token_used"])` fails. -/
theorem keyPayload_meets {row : Row ApiKey} {keyId : Int} (hrow : t.keyById keyId = some row) :
    Db.Meets t (KeyService.getKeyWithOwner keyId)
      (fun k c => c = .settled t ∧ ∃ payload, AdminKeys.keyPayload k = .ok payload ∧
        payload.id = row.id)
      (fun _ _ => False) := by
  obtain ⟨-, hget⟩ := Tables.keyById_eq_some.mp hrow
  obtain ⟨key, hkey, hid⟩ := h.rows row (Table.get?_eq_some.mp hget).1
  obtain ⟨row', hget', hr⟩ := h.keys key hkey
  rw [hid] at hget'
  cases hget.symm.trans hget'
  apply (getKeyWithOwner_meets t keyId).mono
  · rintro k c ⟨rfl, hk⟩
    cases hrow.symm.trans hk
    refine ⟨rfl, _, by rw [AdminKeys.keyPayload, hr.unused]; rfl, rfl⟩
  · rintro e c ⟨-, hnone⟩
    have howner := h.owners key hkey
    rw [← hr.userId, hnone _ hrow] at howner
    cases howner

theorem agrees_newKey {clk : Clock} {days expiresAt : Option Int} {name : Option Str}
    {rpm tokenLimit : Option Int} (full : Str) {owner : Row User}
    (howner : t.users.get? owner.id = some owner)
    (hdays : days.mapM (cfg.zone.inDays clk) = .ok expiresAt)
    (hbinds : keyBinds name (full.take prefixDisplayLen) expiresAt rpm tokenLimit
      clk.nowMs = true) :
    History.Agrees cfg.hashKey
      (H ++ [.keyCreated ⟨t.apiKeys.seq + 1, full, owner.id, cfg.expiry clk days, rpm, tokenLimit⟩])
      (t.addKey (newKey cfg.hashKey full owner.id name expiresAt rpm tokenLimit clk.nowMs)) := by
  simp only [keyBinds, Bool.and_eq_true] at hbinds
  obtain ⟨⟨⟨-, hrpm⟩, htok⟩, -⟩ := hbinds
  apply h.addKey rfl rfl rfl rfl (KeyConfig.expiry_eq hdays).symm rfl rfl rfl
  · exact Bool.and_eq_true_iff.mpr ⟨hrpm, htok⟩
  · exact Option.isSome_of_eq_some howner

theorem createKey_extended (clk : Clock) (random : Str) (body : AdminKeyCreateRequest)
    (hnew : t.keyByHash (cfg.hashKey (cfg.keyPrefix ++ random)) = none) :
    Db.Meets t ((AdminOp.createKey clk random body).coro cfg)
      (History.Extended cfg H (some (cfg.keyPrefix ++ random)))
      (Db.Failed t ((AdminOp.createKey clk random body).binds cfg t = true)) := by
  apply Coro.Meets.bind (Q := fun (created : AdminKeyCreateResponse) c => ∃ owner expiresAt,
    t.userById body.userId = some owner ∧ body.expiresInDays.mapM (cfg.zone.inDays clk) =
    .ok expiresAt ∧
    created.key.id = t.apiKeys.seq + 1 ∧ created.apiKey = cfg.keyPrefix ++ random ∧
    keyBinds body.name ((cfg.keyPrefix ++ random).take prefixDisplayLen) expiresAt body.rpm
    body.tokenLimit clk.nowMs = true ∧
    c = .settled
    (t.addKey (newKey cfg.hashKey (cfg.keyPrefix ++ random) owner.id body.name expiresAt body.rpm
      body.tokenLimit clk.nowMs)))
  · apply Coro.Meets.bind (Coro.Meets.handle (getUserById_meets t body.userId) ?_)
    · rintro owner c ⟨rfl, howner⟩
      apply Coro.Meets.bind (createKey_meets howner ?_)
      · rintro created c ⟨expiresAt, hdays, hid, hfull, hbinds, rfl⟩
        have hagrees := agrees_newKey h (cfg.keyPrefix ++ random)
          (Tables.userById_eq_some.mp howner).2 hdays hbinds
        have hrow :
            (t.addKey (newKey cfg.hashKey (cfg.keyPrefix ++ random) owner.id body.name
              expiresAt body.rpm body.tokenLimit clk.nowMs)).keyById created.keyId =
              some ⟨created.keyId, newKey cfg.hashKey
              (cfg.keyPrefix ++ random) owner.id body.name expiresAt body.rpm body.tokenLimit
              clk.nowMs⟩ := by
          rw [Tables.keyById_natCast, Tables.addKey, Table.get?_insert, if_pos hid, hid]
        apply Coro.Meets.bind ((keyPayload_meets hagrees hrow).mono (fun _ _ hQ => hQ) fun _ _ =>
          False.elim)
        rintro k c ⟨rfl, payload, hpayload, hpid⟩
        rw [hpayload]
        exact .ret ⟨owner, expiresAt, howner, hdays, hpid.trans hid, hfull, hbinds, rfl⟩
      · intro hclean expiresAt hdays
        refine ⟨?_, hnew⟩
        simpa [AdminOp.binds, howner, KeyConfig.expiry_eq hdays, KeyConfig.isSome_of_mapM hdays,
          keyBinds] using hclean
    · rintro e c ⟨rfl, -⟩
      split <;> exact .raise (Db.Failed.settled _)
  · rintro created c ⟨owner, expiresAt, howner, hdays, hid, hfull, hbinds, rfl⟩
    obtain ⟨huser, hget⟩ := Tables.userById_eq_some.mp howner
    refine .ret ⟨⟨_, rfl, ?_⟩, ?_⟩
    · rw [hid, hfull, huser, Int.toNat_natCast]
      exact agrees_newKey h _ hget hdays hbinds
    · intro key hkey
      cases hkey
      rw [hfull]

omit h in
/-- A handler that changes a key and answers with its row. -/
theorem changeKey_meets {α : Type} {keyId : Str} (change : Int → Db α) (event : Nat → LifeEvent)
    {f : Row ApiKey → ApiKey → ApiKey} {clean : Prop}
    (hchange : ∀ kid, Admin.parsePathId keyId = .ok kid → Db.Meets t (change kid)
      (fun _ c => ∃ row, t.keyById kid = some row ∧
        History.Agrees cfg.hashKey (H ++ [event row.id]) (t.setKey row.id (f row)) ∧
        c = .settled (t.setKey row.id (f row)))
      (Db.Failed t clean)) :
    Db.Meets t (do
        let kid ← Db.lift (Admin.parsePathId keyId)
        let row ← AdminKeys.orNotFound kid do
          let _ ← change kid
          KeyService.getKeyWithOwner kid
        Db.lift (AdminKeys.keyPayload row))
      (fun key c => ∃ t', c = .settled t' ∧ History.Agrees cfg.hashKey (H ++ [event key.id]) t')
      (Db.Failed t clean) := by
  apply Coro.Meets.bind (Q := fun kid c => c = .settled t ∧ Admin.parsePathId keyId = .ok kid)
  · exact Db.meets_lift (fun id hid => ⟨rfl, hid⟩) fun e _ => .settled _
  rintro kid c ⟨rfl, hkid⟩
  apply Coro.Meets.bind (Q := fun k c => ∃ t' payload, c = .settled t' ∧
    AdminKeys.keyPayload k = .ok payload ∧ History.Agrees cfg.hashKey (H ++ [event payload.id]) t')
  · apply Coro.Meets.handle (E := Db.Failed t clean)
    · apply Coro.Meets.bind (hchange kid hkid)
      rintro _ c ⟨row, hrow, hagrees, rfl⟩
      obtain ⟨rfl, hget⟩ := Tables.keyById_eq_some.mp hrow
      have hrow' : (t.setKey row.id (f row)).keyById row.id = some ⟨row.id, f row row.val⟩ := by
        simp only [Tables.keyById_natCast, Tables.setKey, Table.get?_update_id, if_pos, hget,
          Option.map_some]
      apply (keyPayload_meets hagrees hrow').mono
      · rintro k c ⟨rfl, payload, hpayload, hid⟩
        refine ⟨_, payload, rfl, hpayload, ?_⟩
        rw [hid]
        exact hagrees
      · exact fun _ _ => False.elim
    · intro e c hfailed
      split <;> exact .raise hfailed
  · rintro k c ⟨t', payload, rfl, hpayload, hagrees⟩
    rw [hpayload]
    exact .ret ⟨t', rfl, hagrees⟩

theorem setKeyEnabled_extended (keyId : Str) (enabled : Bool) :
    Db.Meets t ((AdminOp.setKeyEnabled keyId enabled).coro cfg) (History.Extended cfg H none)
      (Db.Failed t ((AdminOp.setKeyEnabled keyId enabled).binds cfg t = true)) := by
  apply Coro.Meets.bind (changeKey_meets (H := H) (f := fun _ k => { k with enabled })
    (fun kid => KeyService.setKeyEnabled kid enabled) (fun id => .keySet id enabled) ?_)
  · rintro key c ⟨t', rfl, hagrees⟩
    exact .ret ⟨⟨t', rfl, hagrees⟩, fun _ hkey => by cases hkey⟩
  · intro kid hkid
    apply (setKeyEnabled_meets ?_).mono
    · rintro _ c ⟨row, hrow, rfl⟩
      exact ⟨row, hrow, h.switchKey (Tables.keyById_eq_some.mp hrow).2 enabled, rfl⟩
    · exact fun _ _ hfailed => hfailed
    · intro hbinds
      simpa [AdminOp.binds, hkid, Except.toOption] using hbinds

/-- The limits that a row keeps fit, so only new ones may be refused. -/
theorem limits_fit {row : Row ApiKey} (hrow : t.apiKeys.get? row.id = some row)
    (rpm tokenLimit : Option (Option Int))
    (hfits : ((rpm.bind id).all fits64 && (tokenLimit.bind id).all fits64) = true) :
    limitsBind ((AdminKeys.limitUpdate rpm).apply row.val.rpmLimit)
      ((AdminKeys.limitUpdate tokenLimit).apply row.val.tokenLimit) = true := by
  obtain ⟨key, hkey, hid⟩ := h.rows row (Table.get?_eq_some.mp hrow).1
  obtain ⟨row', hget', hr⟩ := h.keys key hkey
  rw [hid] at hget'
  cases hrow.symm.trans hget'
  have hkept (limit : Option (Option Int)) (current : Option Int)
      (hcurrent : current.all fits64 = true) (hnew : (limit.bind id).all fits64 = true) :
      ((AdminKeys.limitUpdate limit).apply current).all fits64 = true := by
    rcases limit with _ | _ | n
    · exact hcurrent
    · rfl
    · exact hnew
  have hcurrent := Bool.and_eq_true_iff.mp hr.fits
  rw [Bool.and_eq_true] at hfits
  exact Bool.and_eq_true_iff.mpr ⟨hkept rpm _ hcurrent.1 hfits.1,
    hkept tokenLimit _ hcurrent.2 hfits.2⟩

theorem patchLimits_extended (keyId : Str) (body : AdminKeyLimitsRequest) :
    Db.Meets t ((AdminOp.patchLimits keyId body).coro cfg) (History.Extended cfg H none)
      (Db.Failed t ((AdminOp.patchLimits keyId body).binds cfg t = true)) := by
  apply Coro.Meets.bind (changeKey_meets (H := H)
    (f := fun row k => { k with
      rpmLimit := (AdminKeys.limitUpdate body.rpm).apply row.val.rpmLimit
      tokenLimit := (AdminKeys.limitUpdate body.tokenLimit).apply row.val.tokenLimit })
    (fun kid => KeyService.setKeyLimits kid (AdminKeys.limitUpdate body.rpm)
      (AdminKeys.limitUpdate body.tokenLimit))
    (fun id => .limitsSet id (AdminKeys.limitUpdate body.rpm)
      (AdminKeys.limitUpdate body.tokenLimit)) ?_)
  · rintro key c ⟨t', rfl, hagrees⟩
    exact .ret ⟨⟨t', rfl, hagrees⟩, fun _ hkey => by cases hkey⟩
  · intro kid hkid
    apply (setKeyLimits_meets ?_).mono
    · rintro _ c ⟨row, hrow, hfits, rfl⟩
      exact ⟨row, hrow, h.limitKey (Tables.keyById_eq_some.mp hrow).2 hfits, rfl⟩
    · exact fun _ _ hfailed => hfailed
    · intro hbinds row hrow
      apply limits_fit h (Tables.keyById_eq_some.mp hrow).2
      simpa [AdminOp.binds, hkid, hrow, Except.toOption] using hbinds

/-- Every operation of the Admin API. -/
theorem adminOp_extended (op : AdminOp)
    (hnew : ∀ full, op.generates cfg = some full → t.keyByHash (cfg.hashKey full) = none) :
    Db.Meets t (op.coro cfg) (History.Extended cfg H (op.generates cfg))
      (Db.Failed t (op.binds cfg t = true)) := by
  cases op with
  | createUser body nowMs => exact createUser_extended h body nowMs
  | setUserEnabled userId enabled => exact setUserEnabled_extended h userId enabled
  | createKey clk random body => exact createKey_extended h clk random body (hnew _ rfl)
  | setKeyEnabled keyId enabled => exact setKeyEnabled_extended h keyId enabled
  | patchLimits keyId body => exact patchLimits_extended h keyId body

/-! ### From the CLI -/

omit h in
theorem cliCreateKey_meets (clk : Clock) (random user : Str) (name : Option Str)
    (rpm tokenLimit days : Option Int) :
    Db.Meets t (Cli.createKey cfg.hashKey cfg.zone cfg.keyPrefix clk random user name rpm
      tokenLimit days)
      (fun r c => ∃ expiresAt, t.users.get? r.1.id = some r.1 ∧
        days.mapM (cfg.zone.inDays clk) = .ok expiresAt ∧
        r.2.keyId = t.apiKeys.seq + 1 ∧ r.2.full = cfg.keyPrefix ++ random ∧
        keyBinds name ((cfg.keyPrefix ++ random).take prefixDisplayLen) expiresAt rpm tokenLimit
          clk.nowMs = true ∧
        c = .settled
            (t.addKey (newKey cfg.hashKey (cfg.keyPrefix ++ random) r.1.id name expiresAt
              rpm tokenLimit
          clk.nowMs))) (Db.Failed t False) := by
  apply Coro.Meets.bind ((requireUser_meets t user).mono (fun _ _ hQ => hQ) ?_)
  · rintro owner c ⟨rfl, howner⟩
    apply Coro.Meets.bind (createKey_meets ?_ False.elim)
    · rintro created c ⟨expiresAt, hdays, hid, hfull, hbinds, rfl⟩
      exact .ret ⟨expiresAt, howner, hdays, hid, hfull, hbinds, rfl⟩
    · rw [Tables.userById_natCast]
      exact howner
  · rintro e c rfl
    exact .settled e

omit h in
theorem cliSetKeyEnabled_meets (t : Tables) (pfx : Str) (enabled : Bool) :
    Db.Meets t (Cli.setKeyEnabled pfx enabled)
      (fun target c => t.keyById target.id = some target ∧
        c = .settled (t.setKey target.id fun k => { k with enabled }))
    (Db.Failed t False) := by
  apply Coro.Meets.bind ((resolveKeyPrefix_meets t pfx).mono (fun _ _ hQ => hQ) ?_)
  · rintro target c ⟨rfl, hrow⟩
    apply Coro.Meets.bind (setKeyEnabled_meets False.elim)
    rintro _ c ⟨row, hrow', rfl⟩
    cases hrow.symm.trans hrow'
    exact .ret ⟨hrow, rfl⟩
  · rintro e c rfl
    exact .settled e

omit h in
theorem cliSetKeyLimits_meets (t : Tables) (pfx : Str) (rpm tokenLimit : LimitUpdate) :
    Db.Meets t (Cli.setKeyLimits pfx rpm tokenLimit)
      (fun r c => t.keyById r.1.id = some r.1 ∧
        limitsBind (rpm.apply r.1.val.rpmLimit) (tokenLimit.apply r.1.val.tokenLimit) = true ∧
        c = .settled (t.setKey r.1.id fun k => { k with
          rpmLimit := rpm.apply r.1.val.rpmLimit
          tokenLimit := tokenLimit.apply r.1.val.tokenLimit })) (Db.Failed t False) := by
  apply Coro.Meets.bind ((resolveKeyPrefix_meets t pfx).mono (fun _ _ hQ => hQ) ?_)
  · rintro target c ⟨rfl, hrow⟩
    apply Coro.Meets.bind (setKeyLimits_meets False.elim)
    rintro _ c ⟨row, hrow', hfits, rfl⟩
    cases hrow.symm.trans hrow'
    exact .ret ⟨hrow, hfits, rfl⟩
  · rintro e c rfl
    exact .settled e

theorem cliOp_extended (op : CliOp) :
    Db.Meets t (op.coro cfg) (History.Extended cfg H (op.generates cfg)) (Db.Failed t False) := by
  cases op with
  | userCreate username displayName note nowMs =>
    apply Coro.Meets.bind (createUser_meets False.elim)
    rintro id c ⟨hnone, rfl, rfl⟩
    refine .ret ⟨⟨_, rfl, ?_⟩, fun _ hkey => by cases hkey⟩
    exact h.addUser (u := newUser username displayName note nowMs) hnone rfl
  | userSetEnabled username enabled =>
    apply Coro.Meets.bind (setUserEnabled_meets t username enabled)
    rintro _ c ⟨rfl, hknown⟩
    refine .ret ⟨⟨_, rfl, ?_⟩, fun _ hkey => by cases hkey⟩
    refine h.setUsers (e := .namedUserSet username enabled) hknown rfl (fun _ => rfl)
      (fun _ => ⟨rfl, rfl⟩) ?_
    intro row _
    simp only [LifeEvent.setsUser?, Option.some.injEq, decide_eq_true_eq, eq_comm (a := username)]
  | keyCreate clk random user name rpm tokenLimit days =>
    apply Coro.Meets.bind (cliCreateKey_meets clk random user name rpm tokenLimit days)
    rintro ⟨owner, created⟩ c ⟨expiresAt, howner, hdays, hid, hfull, hbinds, rfl⟩
    refine .ret ⟨⟨_, rfl, ?_⟩, ?_⟩
    · rw [hid, hfull]
      exact agrees_newKey h _ howner hdays hbinds
    · intro key hkey
      cases hkey
      exact congrArg some hfull.symm
  | keySetEnabled pfx enabled =>
    apply Coro.Meets.bind (cliSetKeyEnabled_meets t pfx enabled)
    rintro target c ⟨hrow, rfl⟩
    refine .ret ⟨⟨_, rfl, ?_⟩, fun _ hkey => by cases hkey⟩
    exact h.switchKey (Tables.keyById_eq_some.mp hrow).2 enabled
  | keySetLimits pfx rpm tokenLimit =>
    apply Coro.Meets.bind (cliSetKeyLimits_meets t pfx rpm tokenLimit)
    rintro ⟨target, limits⟩ c ⟨hrow, hfits, rfl⟩
    refine .ret ⟨⟨_, rfl, ?_⟩, fun _ hkey => by cases hkey⟩
    exact h.limitKey (Tables.keyById_eq_some.mp hrow).2 hfits

end

/-! ## An attempt -/

/-- The two rows that let a header in. -/
structure Tables.Admits (t : Tables) (hashKey : Str → Str) (keyPrefix header : Str) (nowMs : Int)
    (row : Row ApiKey) (user : Row User) : Prop where
  scheme : Auth.scheme header = str "bearer"
  nonempty : Auth.token header ≠ []
  issuedHere : keyPrefix <+: Auth.token header
  found : t.keyByHash (hashKey (Auth.token header)) = some row
  enabled : row.val.enabled = true
  unexpired : row.val.expiresAt.any (· ≤ nowMs) = false
  owner : t.userById row.val.userId = some user
  userEnabled : user.val.enabled = true

/-- The checks of `require_auth` on the row of a key. -/
theorem checkRow_meets (t : Tables) (row : Row ApiKey) (nowMs : Int) :
    Db.Meets t (Auth.checkRow row nowMs)
      (fun auth c => c = .settled t ∧ ∃ user, row.val.enabled = true ∧
        row.val.expiresAt.any (· ≤ nowMs) = false ∧
      t.userById row.val.userId = some user ∧ user.val.enabled = true ∧
        auth = Auth.context row user)
    (fun _ c => c = .settled t ∧ ∀ user, row.val.enabled = true →
      row.val.expiresAt.any (· ≤ nowMs) = false →
      t.userById row.val.userId = some user → user.val.enabled = false) := by
  unfold Auth.checkRow
  cases henabled : row.val.enabled with
  | false => exact .raise ⟨rfl, nofun⟩
  | true =>
    cases hexpired : row.val.expiresAt.any (· ≤ nowMs) with
    | true => exact .raise ⟨rfl, nofun⟩
    | false =>
      apply Coro.Meets.bind (Q := fun r c => c = .settled t ∧ r = t.userById row.val.userId)
      · apply Db.meets_userById ⟨rfl, rfl⟩
        intro e hnone
        exact ⟨rfl, fun user _ _ howner => by cases hnone.symm.trans howner⟩
      · rintro r c ⟨rfl, hr⟩
        cases r with
        | none => exact .raise ⟨rfl, fun user _ _ howner => by cases hr.trans howner⟩
        | some user =>
          cases huser : user.val.enabled with
          | false =>
            simp only [huser]
            refine .raise ⟨rfl, fun user' _ _ howner => ?_⟩
            cases hr.trans howner
            exact huser
          | true =>
            simp only [huser]
            exact .ret ⟨rfl, user, trivial, trivial, hr.symm, huser, rfl⟩

theorem requireAuth_meets (t : Tables) (hashKey : Str → Str) (keyPrefix header : Str)
    (nowMs : Int) :
    Db.Meets t (requireAuth hashKey keyPrefix header nowMs)
    (fun auth c => c = .settled t ∧ ∃ row user, t.Admits hashKey keyPrefix header nowMs row user ∧
      auth = Auth.context row user)
    (fun _ c => c = .settled t ∧ ∀ row user, ¬ t.Admits hashKey keyPrefix header nowMs
        row user) := by
  unfold requireAuth
  split
  · refine .raise ⟨rfl, fun row user ha => ?_⟩
    rename_i hmissing
    exact hmissing.elim (fun hs => hs ha.scheme) ha.nonempty
  rename_i hpresent
  rw [not_or, not_not] at hpresent
  split
  · rename_i hforeign
    exact .raise ⟨rfl, fun row user ha => hforeign ha.issuedHere⟩
  rename_i hissued
  apply Coro.Meets.bind (Q := fun r c => c = .settled t ∧
    r = t.keyByHash (hashKey (Auth.token header)))
  · apply Db.meets_query
    · intro r hr
      cases hr
      exact ⟨rfl, rfl⟩
    · intro e he
      cases he
  rintro r c ⟨rfl, hfound⟩
  cases r with
  | none => exact .raise ⟨rfl, fun row user ha => by cases hfound.trans ha.found⟩
  | some row =>
    apply (checkRow_meets t row nowMs).mono
    · rintro auth c ⟨rfl, user, henabled, hexpired, howner, huser, rfl⟩
      exact ⟨rfl, row, user,
        ⟨hpresent.1, hpresent.2, not_not.mp hissued, hfound.symm, henabled, hexpired,
          howner, huser⟩, rfl⟩
    · rintro e c ⟨rfl, hrefused⟩
      refine ⟨rfl, fun row' user ha => ?_⟩
      obtain rfl : row = row' := Option.some.inj (hfound.trans ha.found)
      have hdisabled := hrefused user ha.enabled ha.unexpired ha.owner
      rw [ha.userEnabled] at hdisabled
      cases hdisabled

theorem unexpired_iff {nowMs : Int} {expiresAt : Option Int} :
    expiresAt.any (· ≤ nowMs) = false ↔ expiresAt.all (nowMs < ·) = true := by
  cases expiresAt with
  | none => exact iff_of_true rfl rfl
  | some n => simp

theorem scheme_bearer (token : Str) : Auth.scheme (Lifecycle.bearer token) = str "bearer" := rfl

theorem token_bearer {token : Str} (h : token.strip = token) :
    Auth.token (Lifecycle.bearer token) = token := h

namespace Lifecycle

/-! ## A run -/

/-- The connection has no transaction, and its tables agree with the history, in which no two keys
have one text. -/
structure Inv (cfg : KeyConfig) (tokens : List Str) (t : Tables) (l : Lifecycle) : Prop where
  conn : l.conn = .settled t
  agrees : History.Agrees cfg.hashKey l.history t
  touches : ∀ p ∈ l.touches, ∃ key ∈ History.issued l.history, key.id = p.1
  fulls : ∀ key ∈ History.issued l.history, key.full ∈ tokens ∧
    cfg.keyPrefix <+: key.full ∧ key.full ≠ []
  distinct : ∀ key ∈ History.issued l.history, ∀ key' ∈ History.issued l.history,
    key.full = key'.full → key.id = key'.id

variable {cfg : KeyConfig} {tokens : List Str} {t : Tables} {l l' : Lifecycle}

theorem Inv.init : Inv cfg tokens {} {} := by
  refine ⟨rfl, .init, ?_, ?_, ?_⟩ <;> intro _ hmem <;> exact absurd hmem List.not_mem_nil

/-- Assumption on SHA-256. -/
def Injective (cfg : KeyConfig) (tokens : List Str) : Prop :=
  ∀ a ∈ tokens, ∀ b ∈ tokens, cfg.hashKey a = cfg.hashKey b → a = b

/-- The row of a token belongs to the key of that text. -/
theorem Inv.issued_of_found {row : Row ApiKey} {token : Str} (h : Inv cfg tokens t l)
    (hinj : Injective cfg tokens) (htoken : token ∈ tokens)
    (hrow : t.keyByHash (cfg.hashKey token) = some row) :
    ∃ key ∈ History.issued l.history, key.full = token ∧ key.id = row.id ∧
      key.Row cfg.hashKey l.history row.val := by
  obtain ⟨hget, hhash⟩ := Table.of_find?_eq_some hrow
  obtain ⟨key, hkey, hid⟩ := h.agrees.rows row (Table.get?_eq_some.mp hget).1
  obtain ⟨row', hget', hr⟩ := h.agrees.keys key hkey
  rw [hid] at hget'
  cases hget.symm.trans hget'
  exact ⟨key, hkey, hinj _ (h.fulls key hkey).1 _ htoken
    (hr.keyHash.symm.trans (of_decide_eq_true hhash)), hid, hr⟩

/-- An attempt leaves the connection, and is answered as the two rows say. -/
theorem Inv.attempt (h : Inv cfg tokens t l) (header : Str) (nowMs : Int) :
    (l.attempt cfg header nowMs).2 = .settled t ∧
      ((∃ row user, t.Admits cfg.hashKey cfg.keyPrefix header nowMs row user ∧
          (l.attempt cfg header nowMs).1 = .ok (Auth.context row user)) ∨
        (∃ e, (l.attempt cfg header nowMs).1 = .error e) ∧
          ∀ row user, ¬ t.Admits cfg.hashKey cfg.keyPrefix header nowMs row user) := by
  have hmeets := requireAuth_meets t cfg.hashKey cfg.keyPrefix header nowMs
  unfold Lifecycle.attempt
  rw [h.conn]
  unfold Db.Meets Coro.Meets at hmeets
  rcases hrun : (requireAuth cfg.hashKey cfg.keyPrefix header nowMs).run Conn.handler
    (.settled t) with ⟨e | auth, c⟩
  · rw [hrun] at hmeets
    exact ⟨hmeets.1, .inr ⟨⟨e, rfl⟩, hmeets.2⟩⟩
  · rw [hrun] at hmeets
    obtain ⟨hc, row, user, hadmits, rfl⟩ := hmeets
    exact ⟨hc, .inl ⟨row, user, hadmits, rfl⟩⟩

theorem Inv.faithful {token : Str} (h : Inv cfg tokens t l) (hinj : Injective cfg tokens)
    (htoken : token ∈ tokens) (hstrip : token.strip = token) (nowMs : Int) :
    Faithful cfg l token nowMs := by
  have hadmits {row user} (ha : t.Admits cfg.hashKey cfg.keyPrefix (bearer token) nowMs row user) :
      ∃ key ∈ History.issued l.history, key.full = token ∧ key.id = row.id ∧
        key.Row cfg.hashKey l.history row.val := by
    have hfound := ha.found
    rw [token_bearer hstrip] at hfound
    exact h.issued_of_found hinj htoken hfound
  rcases h.attempt (bearer token) nowMs with ⟨-, ⟨row, user, ha, hok⟩ | ⟨⟨e, herror⟩, hnone⟩⟩
  · obtain ⟨key, hkey, hfull, hid, hr⟩ := hadmits ha
    constructor
    · refine iff_of_true (by rw [hok]; rfl) ⟨key, hkey, hfull, ?_, ?_, ?_⟩
      · rw [← hr.enabled]
        exact ha.enabled
      · rw [← hr.expiresAt]
        exact unexpired_iff.mp ha.unexpired
      · obtain ⟨hidu, hget⟩ := Tables.userById_eq_some.mp ha.owner
        rw [← hr.userId, Nat.cast_inj.mp hidu,
          ← (h.agrees.users user (Table.get?_eq_some.mp hget).1).2]
        exact ha.userEnabled
    · intro auth hauth
      cases hok.symm.trans hauth
      exact ⟨key, hkey, hfull, hid.symm, hr.userId, hr.limits⟩
  · constructor
    · refine iff_of_false (by rw [herror]; exact Bool.false_ne_true) ?_
      rintro ⟨key, hkey, hfull, henabled, hexpires, huser⟩
      obtain ⟨row, hget, hr⟩ := h.agrees.keys key hkey
      obtain ⟨user, howner⟩ := Option.isSome_iff_exists.mp (h.agrees.owners key hkey)
      obtain ⟨-, hprefix, hne⟩ := h.fulls key hkey
      rw [hfull] at hprefix hne
      refine hnone row user ⟨scheme_bearer token, ?_, ?_, ?_, ?_, ?_, ?_, ?_⟩
      · rwa [token_bearer hstrip]
      · rwa [token_bearer hstrip]
      · rw [token_bearer hstrip]
        obtain ⟨row', hfound⟩ : ∃ row', t.keyByHash (cfg.hashKey token) = some row' := by
          apply Option.isSome_iff_exists.mp
          refine List.find?_isSome.mpr ⟨row, (Table.get?_eq_some.mp hget).1, decide_eq_true ?_⟩
          rw [hr.keyHash, hfull]
        obtain ⟨key', hkey', hfull', hid', -⟩ := h.issued_of_found hinj htoken hfound
        have hget' := (Table.of_find?_eq_some hfound).1
        rw [← hid', h.distinct key' hkey' key hkey (hfull'.trans hfull.symm), hget] at hget'
        rw [hfound, hget']
      · rw [hr.enabled, henabled]
      · rw [hr.expiresAt]
        exact unexpired_iff.mpr hexpires
      · rw [hr.userId, Tables.userById_natCast]
        exact howner
      · obtain ⟨hmem, hidu⟩ := Table.get?_eq_some.mp howner
        rw [(h.agrees.users user hmem).2, hidu, huser]
    · intro auth hauth
      cases herror.symm.trans hauth

/-- An operation on the gateway's connection or on another one. -/
theorem Inv.record {r : Except Exn LifeEvent} {generates : Option Str} (h : Inv cfg tokens t l)
    (hfresh : ∀ full, generates = some full → full ∈ tokens ∧ cfg.keyPrefix <+: full ∧ full ≠ [] ∧
      ∀ key ∈ History.issued l.history, key.full ≠ full)
    (hok : ∀ e, r = .ok e → History.Agrees cfg.hashKey (l.history ++ [e]) t' ∧
      ∀ key, e.issued? = some key → generates = some key.full)
    (herror : ∀ e, r = .error e → t' = t) : Inv cfg tokens t' (l.record (r, .settled t')) := by
  cases r with
  | error e =>
    cases herror e rfl
    refine ⟨rfl, ?_, ?_, ?_, ?_⟩ <;>
      simp only [Lifecycle.record, Except.toOption, Option.toList_none, List.append_nil]
    · exact h.agrees
    · exact h.touches
    · exact h.fulls
    · exact h.distinct
  | ok e =>
    obtain ⟨hagrees, hgenerates⟩ := hok e rfl
    have hcases {key} (hkey : key ∈ History.issued (l.history ++ [e])) :
        key ∈ History.issued l.history ∨ e.issued? = some key := by
      rw [History.issued_concat, List.mem_append, Option.mem_toList] at hkey
      exact hkey
    refine ⟨rfl, hagrees, ?_, ?_, ?_⟩
    · intro p hp
      obtain ⟨key, hkey, hid⟩ := h.touches p hp
      refine ⟨key, ?_, hid⟩
      change key ∈ History.issued (l.history ++ [e])
      rw [History.issued_concat]
      exact List.mem_append_left _ hkey
    · intro key hkey
      rcases hcases hkey with hkey | hkey
      · exact h.fulls key hkey
      · obtain ⟨htoken, hprefix, hne, -⟩ := hfresh _ (hgenerates key hkey)
        exact ⟨htoken, hprefix, hne⟩
    · intro key hkey key' hkey' hfull
      obtain hkey | hkey := hcases hkey <;> obtain hkey' | hkey' := hcases hkey'
      · exact h.distinct key hkey key' hkey' hfull
      · exact absurd hfull ((hfresh _ (hgenerates key' hkey')).2.2.2 key hkey)
      · exact absurd hfull.symm ((hfresh _ (hgenerates key hkey)).2.2.2 key' hkey')
      · cases hkey.symm.trans hkey'
        rfl

theorem generates_prefix {label : Label} {full : Str} (h : label.generates cfg = some full) :
    cfg.keyPrefix <+: full := by
  cases label with
  | admin op => cases op <;> cases h; exact List.prefix_append _ _
  | cli op => cases op <;> cases h; exact List.prefix_append _ _
  | attempt | touch => cases h

theorem fresh_spec {label : Label} (h : l.fresh cfg tokens label = true) :
    ∀ full, label.generates cfg = some full → full ∈ tokens ∧ cfg.keyPrefix <+: full ∧ full ≠ [] ∧
      ∀ key ∈ History.issued l.history, key.full ≠ full := by
  intro full hfull
  simp only [fresh, hfull, Option.all_some, Bool.and_eq_true, decide_eq_true_eq,
    List.all_eq_true] at h
  exact ⟨h.1.1, generates_prefix hfull, h.1.2, h.2⟩

/-- A generated key has no row yet. -/
theorem Inv.keyByHash_none {full : Str} (h : Inv cfg tokens t l) (hinj : Injective cfg tokens)
    (htoken : full ∈ tokens) (hnew : ∀ key ∈ History.issued l.history, key.full ≠ full) :
    t.keyByHash (cfg.hashKey full) = none := by
  cases hrow : t.keyByHash (cfg.hashKey full) with
  | none => rfl
  | some row =>
    obtain ⟨key, hkey, hfull, -⟩ := h.issued_of_found hinj htoken hrow
    exact absurd hfull (hnew key hkey)

end Lifecycle

theorem Conn.outside_settled (t : Tables) (p : Db α) : (Conn.settled t).outside p =
    ((p.run Conn.handler (.settled t)).1,
      .settled (p.run Conn.handler (.settled t)).2.durable) := by
  have hproject : p.run Conn.handler (.settled t) =
      ((p.run Conn.Other.handler { conn := .settled t }).1,
      (p.run Conn.Other.handler { conn := .settled t }).2.conn) :=
    Coro.run_project Conn.Other.conn (fun op o => by cases op <;> exact ⟨rfl, rfl⟩) p
      { conn := .settled t }
  rw [hproject]
  rfl

namespace Lifecycle

theorem Inv.step_admin {op : AdminOp} (h : Inv cfg tokens t l) (hinj : Injective cfg tokens)
    (hfresh : l.fresh cfg tokens (.admin op) = true) (hbinds : op.binds cfg t = true) :
    ∃ t', Inv cfg tokens t' (l.record ((op.coro cfg).run Conn.handler l.conn)) := by
  have hspec := fresh_spec hfresh
  have hmeets := adminOp_extended h.agrees op fun full hfull =>
    h.keyByHash_none hinj (hspec full hfull).1 (hspec full hfull).2.2.2
  unfold Db.Meets Coro.Meets at hmeets
  rw [h.conn]
  rcases hrun : (op.coro cfg).run Conn.handler (.settled t) with ⟨e | e, c⟩
  · rw [hrun] at hmeets
    cases hmeets.2 hbinds
    exact ⟨t, h.record hspec (fun e he => by cases he) fun _ _ => rfl⟩
  · rw [hrun] at hmeets
    obtain ⟨⟨t', rfl, hagrees⟩, hgenerates⟩ := hmeets
    refine ⟨t', h.record hspec (fun e' he => ?_) fun e' he => by cases he⟩
    cases he
    exact ⟨hagrees, hgenerates⟩

theorem Inv.step_cli {op : CliOp} (h : Inv cfg tokens t l)
    (hfresh : l.fresh cfg tokens (.cli op) = true) :
    ∃ t', Inv cfg tokens t' (l.record (l.conn.outside (op.coro cfg))) := by
  have hmeets := cliOp_extended h.agrees op
  unfold Db.Meets Coro.Meets at hmeets
  rw [h.conn, Conn.outside_settled]
  rcases hrun : (op.coro cfg).run Conn.handler (.settled t) with ⟨e | e, c⟩ <;> rw [hrun] at hmeets
  · rw [hmeets.1]
    exact ⟨t, h.record (fresh_spec hfresh) (fun e he => by cases he) fun _ _ => rfl⟩
  · obtain ⟨⟨t', rfl, hagrees⟩, hgenerates⟩ := hmeets
    refine ⟨t', h.record (fresh_spec hfresh) (fun e' he => ?_) fun e' he => by cases he⟩
    cases he
    exact ⟨hagrees, hgenerates⟩

theorem Inv.step_attempt (h : Inv cfg tokens t l) (header : Str) (nowMs : Int)
    (hstep : l.step cfg (.attempt header nowMs) = some l') : Inv cfg tokens t l' := by
  change some { l with
    conn := (l.attempt cfg header nowMs).2
    touches := l.touches ++
      ((l.attempt cfg header nowMs).1.toOption.map fun auth => (auth.apiKeyId, nowMs)).toList } =
      some l' at hstep
  cases hstep
  rcases h.attempt header nowMs with ⟨hconn, ⟨row, user, ha, hok⟩ | ⟨⟨e, herror⟩, -⟩⟩
  · refine ⟨hconn, h.agrees, ?_, h.fulls, h.distinct⟩
    intro p hp
    simp only [hok] at hp
    rcases List.mem_append.mp hp with hp | hp
    · exact h.touches p hp
    · cases List.mem_singleton.mp hp
      exact h.agrees.rows row (Table.get?_eq_some.mp (Table.of_find?_eq_some ha.found).1).1
  · refine ⟨hconn, h.agrees, ?_, h.fulls, h.distinct⟩
    intro p hp
    simp only [herror] at hp
    exact h.touches p (List.append_nil l.touches ▸ hp)

theorem Inv.step_touch {j : Nat} (h : Inv cfg tokens t l) (hbinds : l.binds cfg (.touch j) = true)
    (hstep : l.step cfg (.touch j) = some l') : ∃ t', Inv cfg tokens t' l' := by
  cases hj : l.touches[j]? with
  | none =>
    simp only [step, hj] at hstep
    cases hstep
  | some p =>
    obtain ⟨keyId, nowMs⟩ := p
    simp only [step, hj] at hstep
    cases hstep
    obtain ⟨key, hkey, rfl⟩ := h.touches _ (List.mem_of_getElem? hj)
    obtain ⟨row, hrow, -⟩ := h.agrees.keys key hkey
    obtain ⟨-, hid⟩ := Table.get?_eq_some.mp hrow
    have hfits : fits64 nowMs = true := by simpa [binds, hj] using hbinds
    have hmeets := touchLastUsed_meets (hid.symm ▸ hrow : t.apiKeys.get? row.id = some row) hfits
    rw [hid] at hmeets
    unfold Db.Meets Coro.Meets at hmeets
    rcases hrun : (Dao.touchLastUsed key.id nowMs).run Conn.handler (.settled t) with ⟨e | _, c⟩ <;>
      rw [hrun] at hmeets
    · exact hmeets.elim
    · refine ⟨_, ?_, h.agrees.touch key.id (some nowMs), ?_, h.fulls, h.distinct⟩
      · change ((Dao.touchLastUsed key.id nowMs).run Conn.handler l.conn).2 = _
        rw [h.conn, hrun]
        exact hmeets
      · exact fun p hp => h.touches p (List.mem_of_mem_eraseIdx hp)

/-- One step that finds its arguments bindable. -/
theorem Inv.step {label : Label} (h : Inv cfg tokens t l) (hinj : Injective cfg tokens)
    (hfresh : l.fresh cfg tokens label = true) (hbinds : l.binds cfg label = true)
    (hstep : l.step cfg label = some l') : ∃ t', Inv cfg tokens t' l' := by
  cases label with
  | admin op =>
    cases hstep
    apply h.step_admin hinj hfresh
    simpa only [binds, h.conn, Conn.view_settled] using hbinds
  | cli op =>
    cases hstep
    exact h.step_cli hfresh
  | attempt header nowMs => exact ⟨t, h.step_attempt header nowMs hstep⟩
  | touch j => exact h.step_touch hbinds hstep

/-- **Who is let in**: as long as every writing statement of the gateway finds its arguments
bindable, an attempt succeeds exactly for a key that the history says is good. -/
theorem faithful_of_binds (cfg : KeyConfig) (tokens : List Str) (hinj : Injective cfg tokens)
    (ls : List Label) (l : Lifecycle)
    (hrun : Run (restrict (Lifecycle.step cfg) fun l label =>
      l.fresh cfg tokens label = true ∧ l.binds cfg label = true) {} ls l)
    (token : Str) (htoken : token ∈ tokens) (hstrip : token.strip = token) (nowMs : Int) :
    Faithful cfg l token nowMs := by
  have hinv : ∃ t, Inv cfg tokens t l := by
    refine hrun.invariant (I := fun l => ∃ t, Inv cfg tokens t l) ?_ ⟨{}, .init⟩
    rintro l label l' ⟨t, h⟩ hstep
    obtain ⟨⟨hfresh, hbinds⟩, hstep⟩ := restrict_eq_some.mp hstep
    exact h.step hinj hfresh hbinds hstep
  obtain ⟨t, h⟩ := hinv
  exact h.faithful hinj htoken hstrip nowMs

end Lifecycle

namespace Sample

def keyConfig : KeyConfig where
  keyPrefix := str "emg_"
  zone := ⟨fun _ => 0, fun _ => 0⟩
  hashKey := hashKey

def random : Str := str "AAAAAAAABBBBBBBBBBBBBBBBBBBBBBBBBBBBBBBBBBB"

/-- A user with a key. -/
def issuing : List Lifecycle.Label :=
  [.admin (.createUser { username := str "alice" } 0),
    .admin (.createKey (clockAt 0) random { userId := 1 })]

/-- The key is switched off and on again, and used. -/
def switching : List Lifecycle.Label :=
  issuing ++ [.admin (.setKeyEnabled (str "1") false),
    .cli (.keySetEnabled (str "emg_AAAAAAAA") true),
    .attempt (Lifecycle.bearer fullKey) 0, .touch 0]

/-- A limit of 2^63 is refused by SQLite, an attempt pins the snapshot, and the CLI revokes the
key. -/
def revoking : List Lifecycle.Label :=
  issuing ++ [.admin (.patchLimits (str "1") { rpm := some (some (2 ^ 63)) }),
    .attempt (Lifecycle.bearer (str "emg_x")) 0, .cli (.keySetEnabled (str "emg_AAAAAAAA") false)]

theorem injective : Lifecycle.Injective keyConfig [fullKey] := by
  intro a ha b hb _
  rw [List.mem_singleton.mp ha, List.mem_singleton.mp hb]

end Sample

namespace Lifecycle

open Sample in
theorem faithful_of_binds_switching : ∃ l, Run (restrict (Lifecycle.step keyConfig) fun l label =>
      l.fresh keyConfig [fullKey] label = true ∧ l.binds keyConfig label = true) {} switching l ∧
    Faithful keyConfig l fullKey 0 := by
  have hfold : (switching.foldlM (restrict (Lifecycle.step keyConfig) fun l label =>
      l.fresh keyConfig [fullKey] label = true ∧ l.binds keyConfig label = true) {}).any
        (fun _ => true) := by
    decide +kernel
  obtain ⟨l, hrun, -⟩ := Run.exists_of_any hfold
  exact ⟨l, hrun, faithful_of_binds keyConfig [fullKey] injective switching l hrun fullKey
    (List.mem_singleton_self _) (by decide) 0⟩

open Sample in
/-- A key that has been switched off lets its holder in, from the snapshot that a refused statement
has left open. -/
theorem revoked_accepted : ¬ ∀ (cfg : KeyConfig) (tokens : List Str), Injective cfg tokens →
    ∀ (ls : List Label) (l : Lifecycle),
      Run (restrict (Lifecycle.step cfg) fun l label => l.fresh cfg tokens label = true) {} ls l →
      ∀ token ∈ tokens, token.strip = token → ∀ nowMs, Faithful cfg l token nowMs := by
  intro hall
  have hfold : (revoking.foldlM (restrict (Lifecycle.step keyConfig) fun l label =>
      l.fresh keyConfig [fullKey] label = true) {}).any (fun l =>
        (l.attempt keyConfig (bearer fullKey) 0).1.isOk &&
          (History.issued l.history).all fun key => !History.keyEnabled l.history key.id) := by
          decide +kernel
  obtain ⟨l, hrun, hl⟩ := Run.exists_of_any hfold
  rw [Bool.and_eq_true, List.all_eq_true] at hl
  obtain ⟨hok, hrevoked⟩ := hl
  have hfaithful := hall keyConfig [fullKey] injective revoking l hrun fullKey
    (List.mem_singleton_self _) (by decide) 0
  obtain ⟨key, hkey, -, hgood⟩ := hfaithful.accepted.mp hok
  have hoff := hrevoked key hkey
  rw [hgood.1] at hoff
  exact absurd hoff Bool.false_ne_true

end Lifecycle
end EasyModelGate
