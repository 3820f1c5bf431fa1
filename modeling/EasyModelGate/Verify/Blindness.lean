import EasyModelGate.System
import EasyModelGate.Verify.Renaming

/-! # The services pass no hash on

Every coroutine over the database is its own renaming, as far as what it returns and raises goes: it
may hold rows with hashes in between, and looks at their other columns. The token of `require_auth`
and the new key of `create_key` are renamed with the tables. -/

namespace EasyModelGate

variable {π : Equiv.Perm Str}

/-- The coroutine does the same on renamed tables, and ends with the same result. -/
def Db.Blind (π : Equiv.Perm Str) (c : Db α) : Prop := c.Renamed (Stmt.renaming π) Eq c

/-- The coroutine does the same on renamed tables, and ends with rows that are renamed by `f`. -/
def Db.Carries (π : Equiv.Perm Str) (f : α → α) (c : Db α) : Prop :=
  c.Renamed (Stmt.renaming π) (fun a b => b = f a) c

namespace Db

theorem Blind.ret (a : α) : Blind π (.ret a) := Coro.Renamed.ret rfl
theorem Blind.raise (e : Exn) : Blind π (.raise e : Db α) := Coro.Renamed.raise

theorem Blind.bind {c : Db α} {f : α → Db β} (hc : Blind π c) (hf : ∀ a, Blind π (f a)) :
    Blind π (c >>= f) := by
  apply Coro.Renamed.bind hc
  rintro a _ rfl
  exact hf a

theorem Blind.handle {c : Db α} {f : Exn → Db α} (hc : Blind π c) (hf : ∀ e, Blind π (f e)) :
    Blind π (c.handle f) :=
  Coro.Renamed.handle hc hf

theorem Blind.lift (x : Except Exn α) : Blind π (Db.lift x) := by
  cases x
  · exact .raise _
  · exact .ret _

/-- What is done with the rows does not depend on their hashes. -/
theorem Carries.bind {g : α → α} {c : Db α} {f : α → Db β} (hc : Carries π g c)
    (hg : ∀ a, f (g a) = f a) (hf : ∀ a, Blind π (f a)) : Blind π (c >>= f) := by
  apply Coro.Renamed.bind hc
  rintro a _ rfl
  rw [hg]
  exact hf a

theorem Carries.bind_carries {g : α → α} {g' : β → β} {c : Db α} {f : α → Db β} (hc : Carries π g c)
    (hf : ∀ a, (f a).Renamed (Stmt.renaming π) (fun b b' => b' = g' b) (f (g a))) :
    Carries π g' (c >>= f) := by
  apply Coro.Renamed.bind hc
  rintro a _ rfl
  exact hf a

theorem Carries.handle {g : α → α} {c : Db α} {f : Exn → Db α} (hc : Carries π g c)
    (hf : ∀ e, Carries π g (f e)) :
    Carries π g (c.handle f) :=
  Coro.Renamed.handle hc hf

end Db

/-! ## Statements -/

/-- No row of a key is selected. -/
def Query.blind : Query → Bool
  | .keyByHash _ | .keysByPrefix _ | .keys _ | .keyById _ => false
  | _ => true

namespace Db

theorem Blind.query {q : Query} (hq : q.blind = true) : Blind π (Db.query q) := by
  cases q with
  | keyByHash | keysByPrefix | keys | keyById => cases hq
  | _ =>
    apply Coro.Renamed.await
    intro r
    cases r with
    | error e => exact .raise
    | ok r => exact .ret rfl

theorem execute_renamed (d : Dml) :
    (Db.execute d).Renamed (Stmt.renaming π) Eq (Db.execute (d.renamed π)) :=
  (Coro.Renamed.perform (Stmt.renaming π) (.dml d)).mono fun _ _ h => h.symm

theorem Blind.commit : Blind π Db.commit :=
  (Coro.Renamed.perform (Stmt.renaming π) .commit).mono fun _ _ h => h.symm

theorem executeCommit_renamed (d : Dml) :
    (Db.executeCommit d).Renamed (Stmt.renaming π) Eq (Db.executeCommit (d.renamed π)) := by
  apply Coro.Renamed.bind (execute_renamed d)
  rintro cur _ rfl
  exact Blind.commit.bind fun _ => .ret cur

theorem Blind.execute {d : Dml} (hd : d.renamed π = d) : Blind π (Db.execute d) := by
  have h := execute_renamed (π := π) d
  rwa [hd] at h

theorem Blind.executeCommit {d : Dml} (hd : d.renamed π = d) : Blind π (Db.executeCommit d) := by
  have h := executeCommit_renamed (π := π) d
  rwa [hd] at h

end Db

open Db

namespace Dao

theorem createUser_blind (username : Str) (displayName note : Option Str) (nowMs : Int) :
    Blind π (createUser username displayName note nowMs) :=
  (Blind.executeCommit rfl).bind fun _ => .ret _

theorem setUserEnabled_blind (username : Str) (enabled : Bool) :
    Blind π (setUserEnabled username enabled) :=
  (Blind.executeCommit rfl).bind fun _ => .ret _

theorem setUserEnabledById_blind (userId : Int) (enabled : Bool) :
    Blind π (setUserEnabledById userId enabled) :=
  (Blind.executeCommit rfl).bind fun _ => .ret _

theorem setKeyEnabledById_blind (keyId : Int) (enabled : Bool) :
    Blind π (setKeyEnabledById keyId enabled) :=
  (Blind.executeCommit rfl).bind fun _ => .ret _

theorem setKeyLimitsById_blind (keyId : Int) (rpmLimit tokenLimit : Option Int) :
    Blind π (setKeyLimitsById keyId rpmLimit tokenLimit) :=
  (Blind.executeCommit rfl).bind fun _ => .ret _

theorem touchLastUsed_blind (keyId : Int) (nowMs : Int) : Blind π (touchLastUsed keyId nowMs) :=
  (Blind.executeCommit rfl).bind fun _ => .ret _

theorem setSetting_blind (key value : Str) : Blind π (setSetting key value) :=
  (Blind.executeCommit rfl).bind fun _ => .ret _

theorem createApiKey_renamed (userId : Int) (name : Option Str) (keyPrefix keyHash : Str)
    (expiresAt rpmLimit tokenLimit : Option Int) (nowMs : Int) :
    (createApiKey userId name keyPrefix keyHash expiresAt rpmLimit tokenLimit nowMs).Renamed
      (Stmt.renaming π) Eq (createApiKey userId name keyPrefix (π keyHash) expiresAt rpmLimit
        tokenLimit nowMs) := by
  apply Coro.Renamed.bind (executeCommit_renamed _)
  rintro cur _ rfl
  exact .ret rfl

theorem getKeyByHash_renamed (keyHash : Str) : (getKeyByHash keyHash).Renamed (Stmt.renaming π)
    (fun r r' => r' = r.map (Row.renamed π)) (getKeyByHash (π keyHash)) :=
  Coro.Renamed.perform (Stmt.renaming π) (.query (.keyByHash keyHash))

theorem getKeyById_carries (keyId : Int) : Carries π (Option.map (Row.renamed π))
      (getKeyById keyId) :=
  Coro.Renamed.perform (Stmt.renaming π) (.query (.keyById keyId))

theorem findKeysByPrefix_carries (keyPrefix : Str) :
    Carries π (List.map (Row.renamed π)) (findKeysByPrefix keyPrefix) :=
  Coro.Renamed.perform (Stmt.renaming π) (.query (.keysByPrefix keyPrefix))

theorem listKeys_carries (userId : Option Int) :
    Carries π (List.map (Row.renamed π)) (listKeys userId) :=
  Coro.Renamed.perform (Stmt.renaming π) (.query (.keys userId))

end Dao

/-! ## Services -/

namespace UserService

theorem requireUser_blind (username : Str) : Blind π (requireUser username) := by
  apply Blind.bind (.query rfl)
  rintro (_ | user)
  · exact .raise _
  · exact .ret user

theorem getUserById_blind (userId : Int) : Blind π (getUserById userId) := by
  apply Blind.bind (.query rfl)
  rintro (_ | user)
  · exact .raise _
  · exact .ret user

theorem createUser_blind (username : Str) (displayName note : Option Str) (nowMs : Int) :
    Blind π (createUser username displayName note nowMs) := by
  apply Blind.bind (.query rfl)
  intro user
  split
  · exact .raise _
  · apply Blind.handle (Dao.createUser_blind ..)
    intro e
    split <;> exact .raise _

theorem listUsers_blind : Blind π listUsers := .query rfl

theorem setUserEnabled_blind (username : Str) (enabled : Bool) :
    Blind π (setUserEnabled username enabled) := by
  apply Blind.bind (Dao.setUserEnabled_blind ..)
  intro found
  split
  · exact .ret _
  · exact .raise _

theorem setUserEnabledById_blind (userId : Int) (enabled : Bool) :
    Blind π (setUserEnabledById userId enabled) := by
  apply Blind.bind (Dao.setUserEnabledById_blind ..)
  intro found
  split
  · exact .query rfl
  · exact .raise _

end UserService

/-- A key row with its hash renamed. -/
def KeyWithOwner.renamed (π : Equiv.Perm Str) (k : KeyWithOwner) : KeyWithOwner :=
  { k with row := k.row.renamed π }

namespace KeyService

theorem getKey_carries (keyId : Int) : Carries π (Row.renamed π) (getKey keyId) := by
  apply (Dao.getKeyById_carries keyId).bind_carries
  rintro (_ | row)
  · exact .raise
  · exact .ret rfl

theorem listKeysWithOwner_carries :
    Carries π (List.map (KeyWithOwner.renamed π)) listKeysWithOwner := by
  apply (Dao.listKeys_carries none).bind_carries
  intro rows
  apply Coro.Renamed.bind (UserService.listUsers_blind (π := π))
  rintro users _ rfl
  refine .ret ?_
  rw [List.map_map, List.map_map]
  rfl

theorem getKeyWithOwner_carries (keyId : Int) :
    Carries π (KeyWithOwner.renamed π) (getKeyWithOwner keyId) := by
  apply (getKey_carries keyId).bind_carries
  intro row
  apply Coro.Renamed.bind (Blind.query (q := .userById row.val.userId) rfl)
  rintro user _ rfl
  exact .ret rfl

theorem resolveKeyPrefix_carries (keyPrefix : Str) :
    Carries π (Row.renamed π) (resolveKeyPrefix keyPrefix) := by
  apply (Dao.findKeysByPrefix_carries keyPrefix).bind_carries
  rintro (_ | ⟨row, _ | ⟨row', rows⟩⟩)
  · exact .raise
  · exact .ret rfl
  · change Coro.Renamed _ _ (.raise (Exn.ambiguousKeyPrefix keyPrefix (row :: row' :: rows).length))
      (.raise (Exn.ambiguousKeyPrefix keyPrefix ((row :: row' :: rows).map (Row.renamed π)).length))
    rw [List.length_map]
    exact .raise

theorem setKeyEnabled_blind (keyId : Int) (enabled : Bool) :
    Blind π (setKeyEnabled keyId enabled) := by
  apply Blind.bind (Dao.setKeyEnabledById_blind ..)
  intro found
  split
  · exact .ret _
  · exact .raise _

theorem setKeyLimits_blind (keyId : Int) (rpm tokenLimit : LimitUpdate) :
    Blind π (setKeyLimits keyId rpm tokenLimit) := by
  apply (getKey_carries keyId).bind (fun _ => rfl)
  intro row
  exact (Dao.setKeyLimitsById_blind ..).bind fun _ => .ret _

variable {hashKey : Str → Str} {keyPrefix random random' : Str}

/-- Two keys with the same displayed prefix. -/
theorem createKey_renamed (hshown : (generateKey keyPrefix random').2 =
      (generateKey keyPrefix random).2)
    (hhash : hashKey (generateKey keyPrefix random').1 =
        π (hashKey (generateKey keyPrefix random).1)) (zone : Zone)
    (clk : Clock) (userId : Int) (name : Option Str) (rpm tokenLimit expiresInDays : Option Int) :
    (createKey hashKey zone clk random userId name rpm tokenLimit expiresInDays keyPrefix).Renamed
        (Stmt.renaming π) (fun k k' => k.full = (generateKey keyPrefix random).1 ∧
          k' = { k with full := (generateKey keyPrefix random').1 })
      (createKey hashKey zone clk random' userId name rpm tokenLimit expiresInDays keyPrefix) := by
  unfold createKey
  cases expiresInDays.mapM (zone.inDays clk) with
  | error e => exact .raise
  | ok expiresMs =>
    dsimp only
    rw [hshown, hhash]
    apply Coro.Renamed.bind (Dao.createApiKey_renamed ..)
    rintro kid _ rfl
    exact .ret ⟨rfl, rfl⟩

end KeyService

namespace AdminAuthService

variable (lib : AdminAuthLib)

theorem getAdminAuth_blind : Blind π (getAdminAuth lib) := Blind.bind (.query rfl) fun _ => .lift _

theorem isAdminInitialized_blind : Blind π (isAdminInitialized lib) :=
  (getAdminAuth_blind lib).bind fun _ => .ret _

theorem verifyAdminPassword_blind (password : Str) :
    Blind π (verifyAdminPassword lib password) := by
  apply (getAdminAuth_blind lib).bind
  rintro (_ | metadata)
  · exact .raise _
  · exact .lift _

theorem initializeAdmin_blind (password : Str) (salt : Bytes) (nowMs : Int) :
    Blind π (initializeAdmin lib password salt nowMs) := by
  unfold initializeAdmin
  split
  · exact .raise _
  · apply (isAdminInitialized_blind lib).bind
    intro initialized
    split
    · exact .raise _
    · exact (Blind.lift _).bind fun _ => (Blind.lift _).bind fun _ => Dao.setSetting_blind ..

end AdminAuthService

theorem Analytics.summary_blind (bucketKey : Granularity → Int → Except PyExn Str)
    (f : SummaryFilter) :
    Blind π (Analytics.summary bucketKey f) :=
  Blind.bind (.query rfl) fun _ => (Blind.lift _).bind fun _ => .ret _

namespace UsageService

theorem resolveUser_blind (username : Option Str) : Blind π (resolveUser username) := by
  unfold resolveUser
  split
  · exact .ret _
  · exact (UserService.requireUser_blind _).bind fun _ => .ret _

theorem resolveKey_blind (keyPrefix : Option Str) : Blind π (resolveKey keyPrefix) := by
  unfold resolveKey
  split
  · exact .ret _
  · exact (KeyService.resolveKeyPrefix_carries _).bind (fun _ => rfl) fun _ => .ret _

theorem resolveFilters_blind (username keyPrefix : Option Str) :
    Blind π (resolveFilters username keyPrefix) :=
  (resolveUser_blind username).bind fun _ => (resolveKey_blind keyPrefix).bind fun _ => .ret _

end UsageService

theorem persistRequestLog_blind (record : RequestLog Json) (keyId : Option Int) :
    Blind π (persistRequestLog record keyId) := by
  apply Blind.bind (.execute rfl)
  intro _
  unfold chargeAndCommit
  split
  · exact Blind.bind (.execute rfl) fun _ => .commit
  · exact .commit

/-! ## The commands -/

namespace Cli

theorem userCreate_blind (username : Str) (displayName note : Option Str) (nowMs : Int) :
    Blind π (userCreate username displayName note nowMs) := by
  apply Blind.handle ((UserService.createUser_blind ..).bind fun _ => .ret _)
  intro e
  split
  · exact .ret _
  · exact .raise _

theorem userList_blind : Blind π userList := UserService.listUsers_blind.bind fun _ => .ret _

theorem userSetEnabled_blind (username : Str) (enabled : Bool) :
    Blind π (userSetEnabled username enabled) := by
  apply Blind.handle ((UserService.setUserEnabled_blind ..).bind fun _ => .ret _)
  intro e
  split
  · exact .ret _
  · exact .raise _

/-- What `key create` prints: the key in the third line. -/
def createdOutput (full ident : Str) : CliOutput where
  lines := [str "请立即保存，该 Key 后续无法再次查看。", [], full, [], ident]

/-- Two outputs that differ in the key that was created at most. -/
def KeyLine (full full' : Str) (out out' : CliOutput) : Prop :=
  out' = out ∨ ∃ ident, out = createdOutput full ident ∧ out' = createdOutput full' ident

theorem keyCreate_renamed {hashKey : Str → Str} {keyPrefix random random' : Str}
    (hshown : (generateKey keyPrefix random').2 = (generateKey keyPrefix random).2)
    (hhash : hashKey (generateKey keyPrefix random').1 =
      π (hashKey (generateKey keyPrefix random).1)) (zone : Zone)
    (clk : Clock) (user : Str) (name : Option Str) (rpm tokenLimit expiresInDays : Option Int) :
    (keyCreate hashKey zone keyPrefix clk random user name rpm tokenLimit expiresInDays).Renamed
        (Stmt.renaming π)
          (KeyLine (generateKey keyPrefix random).1 (generateKey keyPrefix random').1)
      (keyCreate hashKey zone keyPrefix clk random' user name rpm tokenLimit expiresInDays) := by
  apply Coro.Renamed.handle
  · apply Coro.Renamed.bind (R := fun r r' => r.2.full = (generateKey keyPrefix random).1 ∧
      r' = (r.1, { r.2 with full := (generateKey keyPrefix random').1 }))
    · apply Coro.Renamed.bind (UserService.requireUser_blind (π := π) user)
      rintro owner _ rfl
      apply Coro.Renamed.bind (KeyService.createKey_renamed hshown hhash ..)
      rintro created _ ⟨hfull, rfl⟩
      exact .ret ⟨hfull, rfl⟩
    · rintro ⟨owner, created⟩ _ ⟨hfull, rfl⟩
      exact .ret (.inr ⟨_, by rw [← hfull]; rfl, rfl⟩)
  · intro e
    split
    · exact .ret (.inl rfl)
    · exact .raise

theorem listing_blind (floatRepr : PyFloat → String) (userId : Option Int) :
    Blind π (keyList.listing floatRepr userId) := by
  apply (Dao.listKeys_carries userId).bind
  · intro rows
    refine congrArg (UserService.listUsers >>= ·) (funext fun users => ?_)
    rw [List.map_map]
    rfl
  · exact fun _ => UserService.listUsers_blind.bind fun _ => .ret _

theorem keyList_blind (floatRepr : PyFloat → String) (user : Option Str) :
    Blind π (keyList floatRepr user) := by
  unfold keyList
  split
  · exact listing_blind floatRepr none
  · apply Blind.handle ((UserService.requireUser_blind _).bind fun _ => listing_blind floatRepr _)
    intro e
    split
    · exact .ret _
    · exact .raise _

theorem orAmbiguous_blind {c : Db CliOutput} (hc : Blind π c) : Blind π (orAmbiguous c) := by
  apply hc.handle
  intro e
  split
  · exact .ret _
  · exact .raise _

theorem setKeyEnabled_carries (pfx : Str) (enabled : Bool) :
    Carries π (Row.renamed π) (setKeyEnabled pfx enabled) := by
  apply (KeyService.resolveKeyPrefix_carries pfx).bind_carries
  intro target
  apply Coro.Renamed.bind (KeyService.setKeyEnabled_blind (π := π) target.id enabled)
  rintro _ _ rfl
  exact .ret rfl

theorem keySetEnabled_blind (pfx : Str) (enabled : Bool) : Blind π (keySetEnabled pfx enabled) :=
  orAmbiguous_blind ((setKeyEnabled_carries pfx enabled).bind (fun _ => rfl) fun _ => .ret _)

theorem keySetLimits_blind (pfx : Str) (rpm tokenLimit : LimitUpdate) :
    Blind π (keySetLimits pfx rpm tokenLimit) := by
  apply orAmbiguous_blind
  have htarget : Carries π (fun r => (r.1.renamed π, r.2)) (setKeyLimits pfx rpm tokenLimit) := by
    apply (KeyService.resolveKeyPrefix_carries pfx).bind_carries
    intro target
    apply Coro.Renamed.bind (KeyService.setKeyLimits_blind (π := π) target.id rpm tokenLimit)
    rintro _ _ rfl
    exact .ret rfl
  exact htarget.bind (fun _ => rfl) fun _ => .ret _

theorem usageSummary_blind (cal : Calendar) (timezone : Str) (clk : Clock) (args : UsageArgs) :
    Blind π (usageSummary cal timezone clk args) := by
  apply (Blind.lift _).bind
  intro range
  apply Blind.handle
  · exact (UsageService.resolveFilters_blind ..).bind fun _ =>
      (Analytics.summary_blind ..).bind fun _ => .ret _
  · intro e
    split
    · exact .ret _
    · exact .ret _
    · exact .raise _

theorem adminInit_blind (lib : AdminAuthLib) (entry : PasswordEntry) (salt : Bytes) (nowMs : Int) :
    Blind π (adminInit lib entry salt nowMs) := by
  apply (AdminAuthService.isAdminInitialized_blind lib).bind
  intro initialized
  split
  · exact .ret _
  split
  · exact .ret _
  · apply Blind.handle ((AdminAuthService.initializeAdmin_blind lib ..).bind fun _ => .ret _)
    intro e
    split
    · exact .ret _
    · exact .raise _

/-- **Every command is blind**, `key create` apart. -/
theorem Command.coro_blind (cfg : CliConfig) (cmd : Command)
    (hnew : ∀ clk random user name rpm tokenLimit expiresInDays,
      cmd ≠ .keyCreate clk random user name rpm tokenLimit expiresInDays) :
      Blind π (cmd.coro cfg) := by
  cases cmd with
  | userCreate => exact userCreate_blind ..
  | userList => exact userList_blind
  | userSetEnabled => exact userSetEnabled_blind ..
  | keyCreate => exact (hnew _ _ _ _ _ _ _ rfl).elim
  | keyList => exact keyList_blind ..
  | keySetEnabled => exact keySetEnabled_blind ..
  | keySetLimits => exact keySetLimits_blind ..
  | usageSummary => exact usageSummary_blind ..
  | adminInit => exact adminInit_blind ..

end Cli

/-! ## The Admin API -/

namespace AdminUsers

theorem listUsers_blind : Blind π listUsers := UserService.listUsers_blind.bind fun _ => .ret _

theorem createUser_blind (body : AdminUserCreateRequest) (nowMs : Int) :
    Blind π (createUser body nowMs) := by
  apply Blind.bind
  · apply (UserService.createUser_blind ..).handle
    intro e
    split <;> exact .raise _
  · exact fun _ => (UserService.getUserById_blind _).bind fun _ => .ret _

theorem setEnabled_blind (userId : Str) (enabled : Bool) : Blind π (setEnabled userId enabled) := by
  apply (Blind.lift _).bind
  intro uid
  apply Blind.bind
  · apply (UserService.setUserEnabledById_blind uid enabled).handle
    intro e
    split <;> exact .raise _
  · rintro (_ | row)
    · exact .raise _
    · exact .ret _

end AdminUsers

namespace AdminKeys

theorem orNotFound_carries {f : α → α} {c : Db α} (hc : Carries π f c) (kid : Int) :
    Carries π f (orNotFound kid c) := by
  apply hc.handle
  intro e
  split <;> exact .raise

theorem listKeys_blind : Blind π listKeys := by
  apply KeyService.listKeysWithOwner_carries.bind
  · intro rows
    rw [List.mapM_map]
    rfl
  · exact fun _ => .lift _

theorem getKey_blind (keyId : Str) : Blind π (getKey keyId) := by
  apply (Blind.lift _).bind
  intro kid
  exact (orNotFound_carries (KeyService.getKeyWithOwner_carries kid) kid).bind (fun _ => rfl)
    fun _ => .lift _

/-- A change of a key, and the row that is read back. -/
theorem changed_blind {c : Db α} (hc : Blind π c) (kid : Int) :
    Blind π (orNotFound kid (c >>= fun _ => KeyService.getKeyWithOwner kid) >>= fun row =>
      Db.lift (keyPayload row)) := by
  apply Carries.bind (g := KeyWithOwner.renamed π)
  · apply orNotFound_carries
    apply Coro.Renamed.bind hc
    exact fun _ _ _ => KeyService.getKeyWithOwner_carries kid
  · exact fun _ => rfl
  · exact fun _ => .lift _

theorem setEnabled_blind (keyId : Str) (enabled : Bool) : Blind π (setEnabled keyId enabled) :=
  (Blind.lift _).bind fun kid => changed_blind (KeyService.setKeyEnabled_blind kid enabled) kid

theorem patchLimits_blind (keyId : Str) (body : AdminKeyLimitsRequest) :
    Blind π (patchLimits keyId body) :=
  (Blind.lift _).bind fun kid => changed_blind (KeyService.setKeyLimits_blind kid _ _) kid

variable {hashKey : Str → Str} {keyPrefix random random' : Str}

/-- Two keys with the same displayed prefix: their responses differ in the key itself. -/
theorem createKey_renamed (hshown : (generateKey keyPrefix random').2 =
      (generateKey keyPrefix random).2)
    (hhash : hashKey (generateKey keyPrefix random').1 =
        π (hashKey (generateKey keyPrefix random).1)) (zone : Zone)
    (clk : Clock) (body : AdminKeyCreateRequest) :
    (createKey hashKey zone keyPrefix clk random body).Renamed (Stmt.renaming π)
      (fun r r' => r.apiKey = (generateKey keyPrefix random).1 ∧
        r' = { r with apiKey := (generateKey keyPrefix random').1 })
      (createKey hashKey zone keyPrefix clk random' body) := by
  refine Coro.Renamed.bind ((UserService.getUserById_blind body.userId).handle ?_) ?_
  · intro e
    split <;> exact .raise _
  intro _ _ _
  apply Coro.Renamed.bind (KeyService.createKey_renamed hshown hhash ..)
  rintro created _ ⟨hfull, rfl⟩
  apply Coro.Renamed.bind (KeyService.getKeyWithOwner_carries created.keyId)
  rintro row _ rfl
  apply Coro.Renamed.bind (Blind.lift (π := π) (keyPayload row))
  rintro key _ rfl
  exact .ret ⟨hfull, rfl⟩

end AdminKeys

namespace Admin

theorem existingUser_blind (raw : Option Str) : Blind π (existingUser raw) := by
  unfold existingUser
  split
  · exact .ret _
  · apply (Blind.lift _).bind
    intro uid
    apply Blind.bind
    · apply (UserService.getUserById_blind uid).handle
      intro e
      split <;> exact .raise _
    · exact fun _ => .ret _

theorem existingKey_blind (raw : Option Str) : Blind π (existingKey raw) := by
  unfold existingKey
  split
  · exact .ret _
  · apply (Blind.lift _).bind
    intro kid
    apply Carries.bind (g := Row.renamed π)
    · apply (KeyService.getKey_carries kid).handle
      intro e
      split <;> exact .raise
    · exact fun _ => rfl
    · exact fun _ => .ret _

end Admin

namespace AdminUsage

theorem parseUsageParams_blind (cal : Calendar) (clk : Clock) (req : AdminRequest) :
    Blind π (parseUsageParams cal clk req) :=
  (Blind.lift _).bind fun _ => (Admin.existingUser_blind _).bind fun _ =>
    (Admin.existingKey_blind _).bind fun _ => .ret _

theorem usageSummary_blind (cal : Calendar) (timezone : Str) (clk : Clock) (req : AdminRequest) :
    Blind π (usageSummary cal timezone clk req) :=
  (parseUsageParams_blind cal clk req).bind fun _ => (Analytics.summary_blind ..).bind fun _ =>
    (Blind.lift _).bind fun _ => .ret _

theorem usageTimeseries_blind (cal : Calendar) (clk : Clock) (req : AdminRequest) :
    Blind π (usageTimeseries cal clk req) :=
  (parseUsageParams_blind cal clk req).bind fun _ => (Blind.lift _).bind fun _ =>
    (Analytics.summary_blind ..).bind fun _ => .ret _

end AdminUsage

theorem AdminRequests.recentRequests_blind (hex : Uuid → Str) (req : AdminRequest) :
    Blind π (AdminRequests.recentRequests hex req) :=
  (Blind.lift _).bind fun _ => (Admin.existingUser_blind _).bind fun _ =>
    (Admin.existingKey_blind _).bind fun _ =>
    (Blind.lift _).bind fun _ => Blind.bind (.query rfl) fun _ => .ret _

namespace AdminOverview

theorem databaseStatus_blind : Blind π databaseStatus := by
  apply Blind.handle (Blind.bind (.query rfl) fun _ => .ret _)
  intro e
  split
  · exact .ret _
  · exact .raise _

theorem todayMetrics_blind (cal : Calendar) (clk : Clock) : Blind π (todayMetrics cal clk) :=
  (Blind.lift _).bind fun _ => (Analytics.summary_blind ..).bind fun _ =>
    (Blind.lift _).bind fun _ => .ret _

end AdminOverview

/-! ## The handlers under `/admin` -/

def HandlerOp.renaming (π : Equiv.Perm Str) : Renaming HandlerOp HandlerOp.Res where
  op
    | .stmt s => .stmt ((Stmt.renaming π).op s)
    | o => o
  res
    | .stmt s, r => (Stmt.renaming π).res s r
    | .body, r => r
    | .probe, r => r
    | .lookup _, r => r
    | .createSession, r => r
    | .deleteSession _, r => r
    | .blocked _, r => r
    | .recordFailure _, r => r
    | .reset _, r => r

theorem HandlerOp.instant_renamed (o : HandlerOp) :
    ((HandlerOp.renaming π).op o).instant = o.instant := by
  cases o <;> rfl

def AdminState.renamed (π : Equiv.Perm Str) (st : AdminState) : AdminState :=
  { st with conn := st.conn.renamed π }

theorem AdminEnv.handler_renamed (env : AdminEnv) :
    (HandlerOp.renaming π).Respects (AdminState.renamed π) env.handler := by
  intro o st
  cases o with
  | stmt s =>
    have hconn := Conn.handler_renamed π s st.conn
    change ((Conn.handler ((Stmt.renaming π).op s) (st.conn.renamed π)).1,
      { st with conn := (Conn.handler ((Stmt.renaming π).op s) (st.conn.renamed π)).2 }) = _
    rw [hconn]
    rfl
  | _ => rfl

/-- The handler does the same on renamed tables, and ends with the same response. -/
def Handling.Blind (π : Equiv.Perm Str) (c : Handling α) : Prop :=
  c.Renamed (HandlerOp.renaming π) Eq c

namespace Handling

theorem Blind.ret (a : α) : Blind π (.ret a) := Coro.Renamed.ret rfl
theorem Blind.raise (e : Exn) : Blind π (.raise e : Handling α) := Coro.Renamed.raise

theorem Blind.bind {c : Handling α} {f : α → Handling β} (hc : Blind π c)
    (hf : ∀ a, Blind π (f a)) :
    Blind π (c >>= f) := by
  apply Coro.Renamed.bind hc
  rintro a _ rfl
  exact hf a

theorem Blind.lift (x : Except Exn α) : Blind π (Handling.lift x) := by
  cases x
  · exact .raise _
  · exact .ret _

/-- What is no statement is not renamed. -/
theorem Blind.perform {o : HandlerOp} (ho : ∀ s, o ≠ .stmt s) :
    Blind π (Coro.perform o : Handling o.Res) := by
  cases o with
  | stmt s => exact absurd rfl (ho s)
  | _ =>
    apply Coro.Renamed.await
    intro r
    cases r with
    | error e => exact .raise
    | ok r => exact .ret rfl

theorem ofDb_renamed {R : α → β → Prop} {c : Db α} {c' : Db β}
    (hc : c.Renamed (Stmt.renaming π) R c') :
    (Handling.ofDb c).Renamed (HandlerOp.renaming π) R (Handling.ofDb c') := by
  induction hc with
  | ret h => exact .ret h
  | raise => exact .raise
  | await _ ih => exact .await ih

theorem Blind.ofDb {c : Db α} (hc : Db.Blind π c) : Blind π (Handling.ofDb c) := ofDb_renamed hc

theorem Blind.body : Blind π Handling.body := .perform fun _ h => by cases h
theorem Blind.probe : Blind π Handling.probe := .perform fun _ h => by cases h

end Handling

open Handling in
theorem Admin.requireAdminSession_blind (req : AdminRequest) :
    Handling.Blind π (Admin.requireAdminSession req) := by
  unfold Admin.requireAdminSession
  split
  · exact .raise _
  · apply Handling.Blind.bind (.perform fun _ h => by cases h)
    intro state
    split
    · exact .raise _
    · exact .raise _
    · exact .ret _

namespace Admin

theorem guarded_blind (req : AdminRequest) {c : Handling AdminResponse} (hc : Handling.Blind π c) :
    Handling.Blind π (guarded req c) :=
  (requireAdminSession_blind req).bind fun _ => (Handling.Blind.lift _).bind fun _ => hc

theorem dropSession_blind (req : AdminRequest) : Handling.Blind π (dropSession req) := by
  unfold dropSession
  split
  · exact .ret _
  · exact .perform fun _ h => by cases h

theorem adminLogout_blind (req : AdminRequest) : Handling.Blind π (adminLogout req) :=
  (Handling.Blind.lift _).bind fun _ => (dropSession_blind req).bind fun _ => .ret _

theorem loginVerified_blind (req : AdminRequest) (ok : Bool) :
    Handling.Blind π (loginVerified req ok) := by
  unfold loginVerified
  split
  · exact Handling.Blind.bind (.perform fun _ h => by cases h) fun _ => .raise _
  · exact Handling.Blind.bind (.perform fun _ h => by cases h) fun _ =>
      Handling.Blind.bind (.perform fun _ h => by cases h) fun _ => .ret _

theorem adminLogin_blind (lib : AdminAuthLib) (req : AdminRequest) :
    Handling.Blind π (adminLogin lib req) := by
  apply (Handling.Blind.lift _).bind
  intro _
  apply Handling.Blind.bind (.perform fun _ h => by cases h)
  intro blocked
  split
  · exact .raise _
  · apply Handling.Blind.bind
    · exact Handling.Blind.body.bind fun _ => (Handling.Blind.lift _).bind fun _ => .lift _
    · intro password
      apply (Handling.Blind.ofDb (AdminAuthService.isAdminInitialized_blind lib)).bind
      intro initialized
      unfold loginInitialized
      split
      · exact .raise _
      · exact (Handling.Blind.ofDb (AdminAuthService.verifyAdminPassword_blind lib password)).bind
          fun _ =>
          loginVerified_blind req _

end Admin

namespace AdminWeb

theorem checkAdminSession_blind (req : AdminRequest) :
    Handling.Blind π (checkAdminSession req) := by
  unfold checkAdminSession
  split
  · exact .ret _
  · exact Handling.Blind.bind (.perform fun _ h => by cases h) fun _ => .ret _

theorem page_blind (template : String) (req : AdminRequest) :
    Handling.Blind π (page template req) := by
  apply (checkAdminSession_blind req).bind
  intro b
  split <;> exact .ret _

theorem loginPage_blind (req : AdminRequest) : Handling.Blind π (loginPage req) := by
  apply (checkAdminSession_blind req).bind
  intro b
  split
  · exact .ret _
  · exact (Handling.Blind.ofDb (.query rfl)).bind fun _ => .ret _

theorem logoutPage_blind (req : AdminRequest) : Handling.Blind π (logoutPage req) :=
  (Admin.dropSession_blind req).bind fun _ => .ret _

end AdminWeb

theorem answer_blind (toJson : α → Json) {c : Db α} (hc : Db.Blind π c) :
    Handling.Blind π (answer toJson c) :=
  (Handling.Blind.ofDb hc).bind fun _ => .ret _

theorem parsedBody_blind (modelValidate : Json → Except (Option Str) α) :
    Handling.Blind π (parsedBody modelValidate) :=
  Handling.Blind.body.bind fun _ => (Handling.Blind.lift _).bind fun _ => .lift _

theorem AdminOverview.backendStatus_blind : Handling.Blind π AdminOverview.backendStatus :=
  Handling.Blind.probe.bind fun _ => .ret _

theorem Protected.handler_blind (cfg : AdminConfig) (amb : Ambient) (req : AdminRequest)
    {e : Protected} (he : e ≠ .createKey) : Handling.Blind π (e.handler cfg amb req) := by
  cases e with
  | me => exact .ret _
  | listUsers => exact answer_blind _ AdminUsers.listUsers_blind
  | createUser =>
    exact (parsedBody_blind _).bind fun _ =>
      (Handling.Blind.ofDb (AdminUsers.createUser_blind ..)).bind fun _ => .ret _
  | setUserEnabled => exact answer_blind _ (AdminUsers.setEnabled_blind ..)
  | listKeys => exact answer_blind _ AdminKeys.listKeys_blind
  | getKey => exact answer_blind _ (AdminKeys.getKey_blind _)
  | createKey => exact absurd rfl he
  | setKeyEnabled => exact answer_blind _ (AdminKeys.setEnabled_blind ..)
  | patchLimits =>
    exact (parsedBody_blind _).bind fun _ => answer_blind _ (AdminKeys.patchLimits_blind ..)
  | usageSummary => exact answer_blind _ (AdminUsage.usageSummary_blind ..)
  | usageTimeseries => exact answer_blind _ (AdminUsage.usageTimeseries_blind ..)
  | overview =>
    apply Handling.Blind.bind
    · exact (Handling.Blind.ofDb (AdminOverview.todayMetrics_blind ..)).bind fun _ =>
        AdminOverview.backendStatus_blind.bind fun _ =>
          (Handling.Blind.ofDb (.query rfl)).bind fun _ => .ret _
    · exact fun _ => .ret _
  | system =>
    apply Handling.Blind.bind
    · exact AdminOverview.backendStatus_blind.bind fun _ =>
        (Handling.Blind.ofDb AdminOverview.databaseStatus_blind).bind fun _ => .ret _
    · exact fun _ => .ret _
  | recentRequests => exact answer_blind _ (AdminRequests.recentRequests_blind ..)

/-- **Every request under `/admin` is blind**, the creation of a key apart. -/
theorem serve_blind (cfg : AdminConfig) (amb : Ambient) (req : AdminRequest)
    (hnew : endpoint req ≠ some (.guarded .createKey)) : Handling.Blind π (serve cfg amb req) := by
  unfold serve
  cases he : endpoint req with
  | none => exact .ret _
  | some e =>
    cases e with
    | login => exact Admin.adminLogin_blind ..
    | logout => exact Admin.adminLogout_blind req
    | guarded e =>
      have hguarded : e ≠ .createKey := by
        rintro rfl
        exact hnew he
      exact Admin.guarded_blind req (e.handler_blind cfg amb req hguarded)
    | loginPage => exact AdminWeb.loginPage_blind req
    | overviewPage | usersPage | keysPage | usagePage | systemPage =>
      exact AdminWeb.page_blind _ req
    | logoutPage => exact AdminWeb.logoutPage_blind req

/-- Two responses that differ in the key that was created at most. -/
def KeyReply (full full' : Str) (r r' : AdminResponse) : Prop :=
  r' = r ∨ ∃ key : AdminKeyCreateResponse,
    key.apiKey = full ∧ r = created (dump key) ∧ r' = created (dump { key with apiKey := full' })

theorem serve_renamed (cfg : AdminConfig) (clk : Clock) {random random' : Str} (req : AdminRequest)
    (hnew : endpoint req = some (.guarded .createKey))
    (hshown : (generateKey cfg.keyPrefix random').2 = (generateKey cfg.keyPrefix random).2)
    (hhash : cfg.hashKey (generateKey cfg.keyPrefix random').1 =
      π (cfg.hashKey (generateKey cfg.keyPrefix random).1)) :
    (serve cfg ⟨clk, random⟩ req).Renamed (HandlerOp.renaming π)
      (KeyReply (generateKey cfg.keyPrefix random).1 (generateKey cfg.keyPrefix random').1)
      (serve cfg ⟨clk, random'⟩ req) := by
  unfold serve
  rw [hnew]
  apply Coro.Renamed.bind (Admin.requireAdminSession_blind (π := π) req)
  rintro _ _ rfl
  apply Coro.Renamed.bind (Handling.Blind.lift (π := π) _)
  rintro _ _ rfl
  apply Coro.Renamed.bind (parsedBody_blind (π := π) cfg.keyCreate)
  rintro body _ rfl
  apply Coro.Renamed.bind (Handling.ofDb_renamed
    (AdminKeys.createKey_renamed hshown hhash cfg.zone clk body))
  rintro key _ ⟨hkey, rfl⟩
  exact .ret (.inr ⟨key, hkey, rfl, rfl⟩)

end EasyModelGate
