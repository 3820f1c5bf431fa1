import EasyModelGate.System
import EasyModelGate.Verify.Persist

/-! # What each coroutine writes

The footprint of a coroutine: the writing statements that it can still run, whatever the database
answers. The services and the handlers are walked once; a theorem about a set of writes then reads
off which coroutines stay inside it. -/

namespace EasyModelGate

variable {W : Dml → Prop}

/-- Of the writes, only those of `W`; a commit is for who writes. -/
inductive Stmt.Within (W : Dml → Prop) : Stmt → Prop
  | query (q : Query) : Within W (.query q)
  | dml (h : W d) : Within W (.dml d)
  | commit (h : ∃ d, W d) : Within W .commit

theorem Stmt.Within.mono {W' : Dml → Prop} (hW : ∀ d, W d → W' d) {s : Stmt} (h : s.Within W) :
    s.Within W' := by
  cases h with
  | query q => exact .query q
  | dml h => exact .dml (hW _ h)
  | commit h => exact .commit (h.imp hW)

/-- Whatever the database answers, the coroutine runs no writes but those of `W`. -/
def Db.Writes (W : Dml → Prop) (c : Db α) : Prop := c.All (Stmt.Within W)

namespace Db

theorem Writes.ret (a : α) : Writes W (.ret a) := Coro.All.ret
theorem Writes.raise (e : Exn) : Writes W (.raise e : Db α) := Coro.All.raise

theorem Writes.bind {c : Db α} {f : α → Db β} (hc : Writes W c) (hf : ∀ a, Writes W (f a)) :
    Writes W (c >>= f) :=
  Coro.All.bind hc hf

theorem Writes.handle {c : Db α} {f : Exn → Db α} (hc : Writes W c) (hf : ∀ e, Writes W (f e)) :
    Writes W (c.handle f) :=
  Coro.All.handle hc hf

theorem Writes.lift (x : Except Exn α) : Writes W (Db.lift x) := by
  cases x
  · exact .raise _
  · exact .ret _

theorem Writes.query (q : Query) : Writes W (Db.query q) := Coro.All.perform (.query q)

theorem Writes.commit (h : ∃ d, W d) : Writes W Db.commit := Coro.All.perform (.commit h)

theorem Writes.execute {d : Dml} (hd : W d) : Writes W (Db.execute d) := Coro.All.perform (.dml hd)

theorem Writes.executeCommit {d : Dml} (hd : W d) : Writes W (Db.executeCommit d) :=
  (Writes.execute hd).bind fun _ => (Writes.commit ⟨d, hd⟩).bind fun _ => .ret _

theorem Writes.mono {W' : Dml → Prop} (hW : ∀ d, W d → W' d) {c : Db α} (hc : Writes W c) :
    Writes W' c := by
  induction hc with
  | ret => exact .ret _
  | raise => exact .raise _
  | await hop _ ih => exact .await (hop.mono hW) ih

end Db

open Db

/-! ## Services -/

namespace UserService

theorem requireUser_writes (username : Str) : Writes W (requireUser username) := by
  apply (Writes.query _).bind
  intro user
  cases user
  · exact .raise _
  · exact .ret _

theorem getUserById_writes (userId : Int) : Writes W (getUserById userId) := by
  apply (Writes.query _).bind
  intro user
  cases user
  · exact .raise _
  · exact .ret _

theorem listUsers_writes : Writes W listUsers := .query _

theorem createUser_writes {username : Str} {displayName note : Option Str} {nowMs : Int}
    (h : W (.insertUser username displayName note true nowMs)) :
    Writes W (createUser username displayName note nowMs) := by
  apply (Writes.query _).bind
  intro user
  split
  · exact .raise _
  · apply ((Writes.executeCommit h).bind fun _ => .ret _).handle
    intro e
    split <;> exact .raise _

theorem setUserEnabled_writes {username : Str} {enabled : Bool}
    (h : W (.setUserEnabled username enabled)) :
    Writes W (setUserEnabled username enabled) := by
  apply ((Writes.executeCommit h).bind fun _ => .ret _).bind
  intro found
  split
  · exact .ret _
  · exact .raise _

theorem setUserEnabledById_writes {userId : Int} {enabled : Bool}
    (h : W (.setUserEnabledById userId enabled)) :
    Writes W (setUserEnabledById userId enabled) := by
  apply ((Writes.executeCommit h).bind fun _ => .ret _).bind
  intro found
  split
  · exact .query _
  · exact .raise _

end UserService

namespace KeyService

theorem getKey_writes (keyId : Int) : Writes W (getKey keyId) := by
  apply (Writes.query _).bind
  intro row
  cases row
  · exact .raise _
  · exact .ret _

theorem listKeysWithOwner_writes : Writes W listKeysWithOwner :=
  (Writes.query _).bind fun _ => (Writes.query _).bind fun _ => .ret _

theorem getKeyWithOwner_writes (keyId : Int) : Writes W (getKeyWithOwner keyId) :=
  (getKey_writes keyId).bind fun _ => (Writes.query _).bind fun _ => .ret _

theorem resolveKeyPrefix_writes (keyPrefix : Str) : Writes W (resolveKeyPrefix keyPrefix) := by
  apply (Writes.query _).bind
  intro rows
  split
  · exact .ret _
  · exact .raise _

theorem setKeyEnabled_writes {keyId : Int} {enabled : Bool}
    (h : W (.setKeyEnabledById keyId enabled)) :
    Writes W (setKeyEnabled keyId enabled) := by
  apply ((Writes.executeCommit h).bind fun _ => .ret _).bind
  intro found
  split
  · exact .ret _
  · exact .raise _

theorem setKeyLimits_writes {keyId : Int} {rpm tokenLimit : LimitUpdate}
    (h : ∀ rpm tokenLimit, W (.setKeyLimitsById keyId rpm tokenLimit)) :
    Writes W (setKeyLimits keyId rpm tokenLimit) :=
  (getKey_writes keyId).bind fun _ => ((Writes.executeCommit (h _ _)).bind fun _ => .ret _).bind
    fun _ => .ret _

/-- The one write of `create_key`: the row holds the hash and the displayed prefix of the generated
key. -/
theorem createKey_writes {hashKey : Str → Str} {zone : Zone} {clk : Clock} {random keyPrefix : Str}
    {userId : Int} {name : Option Str} {rpm tokenLimit expiresInDays : Option Int}
    (h : ∀ expiresAt, W (.insertApiKey userId name (generateKey keyPrefix random).2
      (hashKey (generateKey keyPrefix random).1) expiresAt rpm tokenLimit clk.nowMs)) :
    Writes W (createKey hashKey zone clk random userId name rpm tokenLimit expiresInDays
        keyPrefix) := by
  unfold createKey
  cases expiresInDays.mapM (zone.inDays clk) with
  | error e => exact .raise _
  | ok expiresMs =>
    exact ((Writes.executeCommit (h expiresMs)).bind fun _ => .ret _).bind fun _ => .ret _

end KeyService

namespace AdminAuthService

variable (lib : AdminAuthLib)

theorem getAdminAuth_writes : Writes W (getAdminAuth lib) := (Writes.query _).bind fun _ => .lift _

theorem isAdminInitialized_writes : Writes W (isAdminInitialized lib) :=
  (getAdminAuth_writes lib).bind fun _ => .ret _

theorem verifyAdminPassword_writes (password : Str) :
    Writes W (verifyAdminPassword lib password) := by
  apply (getAdminAuth_writes lib).bind
  intro metadata
  cases metadata
  · exact .raise _
  · exact .lift _

theorem initializeAdmin_writes {password : Str} {salt : Bytes} {nowMs : Int}
    (h : ∀ value, W (.upsertSetting settingsKey value)) :
    Writes W (initializeAdmin lib password salt nowMs) := by
  unfold initializeAdmin
  split
  · exact .raise _
  · apply (isAdminInitialized_writes lib).bind
    intro initialized
    split
    · exact .raise _
    · exact (Writes.lift _).bind fun _ => (Writes.lift _).bind fun _ =>
        (Writes.executeCommit (h _)).bind fun _ => .ret _

end AdminAuthService

theorem Analytics.summary_writes (bucketKey : Granularity → Int → Except PyExn Str)
    (f : SummaryFilter) :
    Writes W (Analytics.summary bucketKey f) :=
  (Writes.query _).bind fun _ => (Writes.lift _).bind fun _ => .ret _

namespace UsageService

theorem resolveUser_writes (username : Option Str) : Writes W (resolveUser username) := by
  unfold resolveUser
  split
  · exact .ret _
  · exact (UserService.requireUser_writes _).bind fun _ => .ret _

theorem resolveKey_writes (keyPrefix : Option Str) : Writes W (resolveKey keyPrefix) := by
  unfold resolveKey
  split
  · exact .ret _
  · exact (KeyService.resolveKeyPrefix_writes _).bind fun _ => .ret _

theorem resolveFilters_writes (username keyPrefix : Option Str) :
    Writes W (resolveFilters username keyPrefix) :=
  (resolveUser_writes username).bind fun _ => (resolveKey_writes keyPrefix).bind fun _ => .ret _

end UsageService

theorem checkRow_writes (row : Row ApiKey) (nowMs : Int) : Writes W (Auth.checkRow row nowMs) := by
  unfold Auth.checkRow
  split
  · exact .raise _
  split
  · exact .raise _
  apply (Writes.query _).bind
  intro user
  cases user with
  | none => exact .raise _
  | some user =>
    dsimp only
    split
    · exact .raise _
    · exact .ret _

theorem requireAuth_writes (hashKey : Str → Str) (keyPrefix header : Str) (nowMs : Int) :
    Writes W (requireAuth hashKey keyPrefix header nowMs) := by
  unfold requireAuth
  split
  · exact .raise _
  split
  · exact .raise _
  apply (Writes.query _).bind
  intro row
  cases row with
  | none => exact .raise _
  | some row => exact checkRow_writes row nowMs

/-- What a detached task writes. -/
def Purpose.MayWrite : Purpose → Dml → Prop
  | .touch keyId nowMs, d => d = .touchLastUsed keyId nowMs
  | .log record keyId, d =>
    d = .insertRequestLog { record with errorMessage := clipErrorMessage record.errorMessage } ∨
      ∃ id n, keyId = some id ∧ 0 < n ∧ d = .addTokenUsed n (id : Nat)

theorem Purpose.coro_writes (p : Purpose) : Writes p.MayWrite p.coro := by
  cases p with
  | touch keyId nowMs => exact Writes.bind (Writes.executeCommit (Eq.refl _)) fun _ => .ret _
  | log record keyId =>
    apply (Writes.execute (.inl rfl)).bind
    intro _
    unfold chargeAndCommit
    split
    · rename_i id n hid hn
      obtain ⟨k, hk, rfl⟩ := Option.map_eq_some_iff.mp hid
      refine (Writes.execute (.inr ⟨k, n, hk, ?_, rfl⟩)).bind fun _ => .commit ⟨_, .inl rfl⟩
      exact of_decide_eq_true (Option.mem_filter_iff.mp hn).2
    · exact .commit ⟨_, .inl rfl⟩

/-! ## The commands -/

namespace Cli

/-- What a command writes, on its own connection. -/
def Command.MayWrite (cfg : CliConfig) : Command → Dml → Prop
  | .userCreate username displayName note nowMs, d =>
    d = .insertUser username displayName note true nowMs
  | .userSetEnabled username enabled, d => d = .setUserEnabled username enabled
  | .keyCreate clk random _ name rpm tokenLimit _, d => ∃ owner expiresAt,
      d = .insertApiKey owner name (generateKey cfg.keyPrefix random).2
        (cfg.hashKey (generateKey cfg.keyPrefix random).1) expiresAt rpm tokenLimit clk.nowMs
  | .keySetEnabled _ enabled, d => ∃ id, d = .setKeyEnabledById id enabled
  | .keySetLimits .., d => ∃ id rpm tokenLimit, d = .setKeyLimitsById id rpm tokenLimit
  | .adminInit _ _ _, d => ∃ value, d = .upsertSetting AdminAuthService.settingsKey value
  | .userList, _ | .keyList _, _ | .usageSummary _ _, _ => False

theorem orAmbiguous_writes {c : Db CliOutput} (hc : Writes W c) : Writes W (orAmbiguous c) := by
  apply hc.handle
  intro e
  split
  · exact .ret _
  · exact .raise _

theorem listing_writes (floatRepr : PyFloat → String) (userId : Option Int) :
    Writes W (keyList.listing floatRepr userId) :=
  (Writes.query _).bind fun _ => UserService.listUsers_writes.bind fun _ => .ret _

theorem keyList_writes (floatRepr : PyFloat → String) (user : Option Str) :
    Writes W (keyList floatRepr user) := by
  unfold keyList
  split
  · exact listing_writes floatRepr none
  · apply ((UserService.requireUser_writes _).bind fun _ => listing_writes floatRepr _).handle
    intro e
    split
    · exact .ret _
    · exact .raise _

theorem usageSummary_writes (cal : Calendar) (timezone : Str) (clk : Clock) (args : UsageArgs) :
    Writes W (usageSummary cal timezone clk args) := by
  apply (Writes.lift _).bind
  intro range
  apply Writes.handle
  · exact (UsageService.resolveFilters_writes ..).bind fun _ =>
      (Analytics.summary_writes ..).bind fun _ => .ret _
  · intro e
    split
    · exact .ret _
    · exact .ret _
    · exact .raise _

/-- **The footprint of a command.** -/
theorem Command.coro_writes (cfg : CliConfig) (cmd : Command) :
    Writes (cmd.MayWrite cfg) (cmd.coro cfg) := by
  cases cmd with
  | userCreate =>
    apply Writes.handle
    · exact Writes.bind (UserService.createUser_writes (Eq.refl _)) fun _ => .ret _
    · intro e
      split
      · exact .ret _
      · exact .raise _
  | userList => exact UserService.listUsers_writes.bind fun _ => .ret _
  | userSetEnabled =>
    apply Writes.handle
    · exact Writes.bind (UserService.setUserEnabled_writes (Eq.refl _)) fun _ => .ret _
    · intro e
      split
      · exact .ret _
      · exact .raise _
  | keyCreate clk random user name rpm tokenLimit expiresInDays =>
    apply Writes.handle
    · apply Writes.bind _ fun _ => .ret _
      apply (UserService.requireUser_writes _).bind
      intro owner
      exact (KeyService.createKey_writes fun expiresAt => ⟨owner.id, expiresAt, rfl⟩).bind fun _ =>
        .ret _
    · intro e
      split
      · exact .ret _
      · exact .raise _
  | keyList => exact keyList_writes ..
  | keySetEnabled pfx enabled =>
    apply orAmbiguous_writes
    apply Writes.bind _ fun _ => .ret _
    apply (KeyService.resolveKeyPrefix_writes _).bind
    intro target
    exact (KeyService.setKeyEnabled_writes ⟨target.id, rfl⟩).bind fun _ => .ret _
  | keySetLimits pfx rpm tokenLimit =>
    apply orAmbiguous_writes
    apply Writes.bind _ fun _ => .ret _
    apply (KeyService.resolveKeyPrefix_writes _).bind
    intro target
    exact (KeyService.setKeyLimits_writes fun rpm tokenLimit =>
      ⟨target.id, rpm, tokenLimit, rfl⟩).bind fun _ => .ret _
  | usageSummary => exact usageSummary_writes ..
  | adminInit entry salt nowMs =>
    apply (AdminAuthService.isAdminInitialized_writes _).bind
    intro initialized
    split
    · exact .ret _
    split
    · exact .ret _
    · apply ((AdminAuthService.initializeAdmin_writes _ fun value => ⟨value, rfl⟩).bind fun _ =>
        .ret _).handle
      intro e
      split
      · exact .ret _
      · exact .raise _

end Cli

/-! ## The Admin API -/

namespace AdminKeys

theorem orNotFound_writes {c : Db α} (hc : Writes W c) (kid : Int) :
    Writes W (orNotFound kid c) := by
  apply hc.handle
  intro e
  split <;> exact .raise _

theorem getKey_writes (keyId : Str) : Writes W (getKey keyId) :=
  (Writes.lift _).bind fun kid =>
    (orNotFound_writes (KeyService.getKeyWithOwner_writes kid) kid).bind fun _ => .lift _

/-- A change of a key, and the row that is read back. -/
theorem changed_writes {c : Db α} (hc : Writes W c) (kid : Int) :
    Writes W (orNotFound kid (c >>= fun _ => KeyService.getKeyWithOwner kid) >>= fun row =>
      Db.lift (keyPayload row)) :=
  (orNotFound_writes (hc.bind fun _ => KeyService.getKeyWithOwner_writes kid) kid).bind fun _ =>
    .lift _

end AdminKeys

namespace Admin

theorem existingUser_writes (raw : Option Str) : Writes W (existingUser raw) := by
  unfold existingUser
  split
  · exact .ret _
  · apply (Writes.lift _).bind
    intro uid
    apply Writes.bind _ fun _ => .ret _
    apply (UserService.getUserById_writes uid).handle
    intro e
    split <;> exact .raise _

theorem existingKey_writes (raw : Option Str) : Writes W (existingKey raw) := by
  unfold existingKey
  split
  · exact .ret _
  · apply (Writes.lift _).bind
    intro kid
    apply Writes.bind _ fun _ => .ret _
    apply (KeyService.getKey_writes kid).handle
    intro e
    split <;> exact .raise _

end Admin

theorem AdminUsage.parseUsageParams_writes (cal : Calendar) (clk : Clock) (req : AdminRequest) :
    Writes W (parseUsageParams cal clk req) :=
  (Writes.lift _).bind fun _ => (Admin.existingUser_writes _).bind fun _ =>
    (Admin.existingKey_writes _).bind fun _ =>
    .ret _

/-! ## The handlers under `/admin` -/

/-- Of the writes, only those of `W`. -/
def HandlerOp.Within (W : Dml → Prop) : HandlerOp → Prop
  | .stmt s => s.Within W
  | _ => True

theorem HandlerOp.Within.mono {W' : Dml → Prop} (hW : ∀ d, W d → W' d) {o : HandlerOp}
    (h : o.Within W) : o.Within W' := by
  cases o with
  | stmt s => exact Stmt.Within.mono hW h
  | _ => exact h

/-- Whatever it is answered, the handler runs no writes but those of `W`. -/
def Handling.Writes (W : Dml → Prop) (c : Handling α) : Prop := c.All (HandlerOp.Within W)

namespace Handling

theorem Writes.ret (a : α) : Writes W (.ret a) := Coro.All.ret
theorem Writes.raise (e : Exn) : Writes W (.raise e : Handling α) := Coro.All.raise

theorem Writes.bind {c : Handling α} {f : α → Handling β} (hc : Writes W c)
    (hf : ∀ a, Writes W (f a)) :
    Writes W (c >>= f) :=
  Coro.All.bind hc hf

theorem Writes.lift (x : Except Exn α) : Writes W (Handling.lift x) := by
  cases x
  · exact .raise _
  · exact .ret _

/-- What is no statement writes nothing. -/
theorem Writes.perform {o : HandlerOp} (ho : ∀ s, o ≠ .stmt s) :
    Writes W (Coro.perform o : Handling o.Res) := by
  apply Coro.All.perform
  cases o with
  | stmt s => exact absurd rfl (ho s)
  | _ => trivial

theorem Writes.ofDb {c : Db α} (hc : Db.Writes W c) : Writes W (Handling.ofDb c) := by
  induction hc with
  | ret => exact .ret _
  | raise => exact .raise _
  | await hop _ ih => exact .await hop ih

theorem Writes.mono {W' : Dml → Prop} (hW : ∀ d, W d → W' d) {c : Handling α} (hc : Writes W c) :
    Writes W' c := by
  induction hc with
  | ret => exact .ret _
  | raise => exact .raise _
  | await hop _ ih => exact .await (hop.mono hW) ih

end Handling

theorem answer_writes (toJson : α → Json) {c : Db α} (hc : Db.Writes W c) :
    Handling.Writes W (answer toJson c) :=
  (Handling.Writes.ofDb hc).bind fun _ => .ret _

theorem parsedBody_writes (modelValidate : Json → Except (Option Str) α) :
    Handling.Writes W (parsedBody modelValidate) :=
  (Handling.Writes.perform fun _ h => by cases h).bind fun _ =>
    (Handling.Writes.lift _).bind fun _ => .lift _

/-- What a protected route writes. -/
def Protected.MayWrite (cfg : AdminConfig) (amb : Ambient) : Protected → Dml → Prop
  | .createUser, d =>
    ∃ username displayName note, d = .insertUser username displayName note true amb.clk.nowMs
  | .setUserEnabled enabled _, d => ∃ id, d = .setUserEnabledById id enabled
  | .createKey, d => ∃ owner name expiresAt rpm tokenLimit,
      d = .insertApiKey owner name (generateKey cfg.keyPrefix amb.random).2
        (cfg.hashKey (generateKey cfg.keyPrefix amb.random).1) expiresAt rpm
          tokenLimit amb.clk.nowMs
  | .setKeyEnabled enabled _, d => ∃ id, d = .setKeyEnabledById id enabled
  | .patchLimits _, d => ∃ id rpm tokenLimit, d = .setKeyLimitsById id rpm tokenLimit
  | _, _ => False

theorem Protected.handler_writes (cfg : AdminConfig) (amb : Ambient) (req : AdminRequest)
    (e : Protected) :
    Handling.Writes (e.MayWrite cfg amb) (e.handler cfg amb req) := by
  cases e with
  | me => exact .ret _
  | listUsers => exact answer_writes _ (UserService.listUsers_writes.bind fun _ => .ret _)
  | createUser =>
    apply (parsedBody_writes _).bind
    intro body
    apply Handling.Writes.bind _ fun _ => .ret _
    apply Handling.Writes.ofDb
    apply Db.Writes.bind
    · apply (UserService.createUser_writes ⟨_, _, _, rfl⟩).handle
      intro e
      split <;> exact .raise _
    · exact fun _ => (UserService.getUserById_writes _).bind fun _ => .ret _
  | setUserEnabled enabled userId =>
    apply answer_writes
    apply (Db.Writes.lift _).bind
    intro uid
    apply Db.Writes.bind
    · apply (UserService.setUserEnabledById_writes ⟨uid, rfl⟩).handle
      intro e
      split <;> exact .raise _
    · intro row
      cases row
      · exact .raise _
      · exact .ret _
  | listKeys => exact answer_writes _ (KeyService.listKeysWithOwner_writes.bind fun _ => .lift _)
  | getKey => exact answer_writes _ (AdminKeys.getKey_writes _)
  | createKey =>
    apply (parsedBody_writes _).bind
    intro body
    apply Handling.Writes.bind _ fun _ => .ret _
    apply Handling.Writes.ofDb
    apply Db.Writes.bind
    · apply (UserService.getUserById_writes _).handle
      intro e
      split <;> exact .raise _
    intro _
    apply (KeyService.createKey_writes fun expiresAt => ⟨_, _, expiresAt, _, _, rfl⟩).bind
    intro created
    exact (KeyService.getKeyWithOwner_writes _).bind fun _ =>
      (Db.Writes.lift _).bind fun _ => .ret _
  | setKeyEnabled enabled keyId =>
    apply answer_writes
    exact (Db.Writes.lift _).bind fun kid =>
      AdminKeys.changed_writes (KeyService.setKeyEnabled_writes ⟨kid, rfl⟩) kid
  | patchLimits keyId =>
    apply (parsedBody_writes _).bind
    intro body
    apply answer_writes
    apply (Db.Writes.lift _).bind
    intro kid
    exact AdminKeys.changed_writes (KeyService.setKeyLimits_writes fun rpm tokenLimit =>
      ⟨kid, rpm, tokenLimit, rfl⟩) kid
  | usageSummary =>
    exact answer_writes _ ((AdminUsage.parseUsageParams_writes ..).bind fun _ =>
      (Analytics.summary_writes ..).bind
      fun _ => (Db.Writes.lift _).bind fun _ => .ret _)
  | usageTimeseries =>
    exact answer_writes _ ((AdminUsage.parseUsageParams_writes ..).bind fun _ =>
      (Db.Writes.lift _).bind fun _ =>
      (Analytics.summary_writes ..).bind fun _ => .ret _)
  | overview =>
    apply Handling.Writes.bind _ fun _ => .ret _
    apply Handling.Writes.bind
    · exact .ofDb ((Db.Writes.lift _).bind fun _ => (Analytics.summary_writes ..).bind fun _ =>
        (Db.Writes.lift _).bind fun _ => .ret _)
    · exact fun _ => ((Handling.Writes.perform fun _ h => by cases h).bind fun _ =>
        .ret _).bind fun _ =>
        (Handling.Writes.ofDb (.query _)).bind fun _ => .ret _
  | system =>
    apply Handling.Writes.bind _ fun _ => .ret _
    apply ((Handling.Writes.perform fun _ h => by cases h).bind fun _ => .ret _).bind
    intro backend
    apply Handling.Writes.bind _ fun _ => .ret _
    apply Handling.Writes.ofDb
    apply ((Db.Writes.query _).bind fun _ => .ret _).handle
    intro e
    split
    · exact .ret _
    · exact .raise _
  | recentRequests =>
    exact answer_writes _ ((Db.Writes.lift _).bind fun _ =>
      (Admin.existingUser_writes _).bind fun _ =>
      (Admin.existingKey_writes _).bind fun _ => (Db.Writes.lift _).bind fun _ =>
        (Db.Writes.query _).bind fun _ => .ret _)

/-- What an endpoint writes: nothing, outside the protected routes. -/
def Endpoint.MayWrite (cfg : AdminConfig) (amb : Ambient) : Endpoint → Dml → Prop
  | .guarded e, d => e.MayWrite cfg amb d
  | _, _ => False

theorem requireAdminSession_writes (req : AdminRequest) :
    Handling.Writes W (Admin.requireAdminSession req) := by
  unfold Admin.requireAdminSession
  split
  · exact .raise _
  · apply Handling.Writes.bind (.perform fun _ h => by cases h)
    intro state
    split
    · exact .raise _
    · exact .raise _
    · exact .ret _

theorem dropSession_writes (req : AdminRequest) : Handling.Writes W (Admin.dropSession req) := by
  unfold Admin.dropSession
  split
  · exact .ret _
  · exact .perform fun _ h => by cases h

theorem adminLogin_writes (lib : AdminAuthLib) (req : AdminRequest) :
    Handling.Writes W (Admin.adminLogin lib req) := by
  apply (Handling.Writes.lift _).bind
  intro _
  apply Handling.Writes.bind (.perform fun _ h => by cases h)
  intro blocked
  split
  · exact .raise _
  apply Handling.Writes.bind
  · exact (Handling.Writes.perform fun _ h => by cases h).bind fun _ =>
      (Handling.Writes.lift _).bind fun _ => .lift _
  intro password
  apply (Handling.Writes.ofDb (AdminAuthService.isAdminInitialized_writes lib)).bind
  intro initialized
  unfold Admin.loginInitialized
  split
  · exact .raise _
  apply (Handling.Writes.ofDb (AdminAuthService.verifyAdminPassword_writes lib password)).bind
  intro ok
  unfold Admin.loginVerified
  split
  · exact Handling.Writes.bind (.perform fun _ h => by cases h) fun _ => .raise _
  · exact Handling.Writes.bind (.perform fun _ h => by cases h) fun _ =>
      Handling.Writes.bind (.perform fun _ h => by cases h) fun _ => .ret _

theorem checkAdminSession_writes (req : AdminRequest) :
    Handling.Writes W (AdminWeb.checkAdminSession req) := by
  unfold AdminWeb.checkAdminSession
  split
  · exact .ret _
  · exact Handling.Writes.bind (.perform fun _ h => by cases h) fun _ => .ret _

/-- **The footprint of an endpoint.** -/
theorem Endpoint.handler_writes (cfg : AdminConfig) (amb : Ambient) (req : AdminRequest)
    (e : Endpoint) :
    Handling.Writes (e.MayWrite cfg amb) (e.handler cfg amb req) := by
  cases e with
  | login => exact adminLogin_writes cfg.lib req
  | logout =>
    exact (Handling.Writes.lift _).bind fun _ => (dropSession_writes req).bind fun _ => .ret _
  | guarded e =>
    exact (requireAdminSession_writes req).bind fun _ => (Handling.Writes.lift _).bind fun _ =>
      e.handler_writes cfg amb req
  | loginPage =>
    apply (checkAdminSession_writes req).bind
    intro b
    split
    · exact .ret _
    · exact (Handling.Writes.ofDb (.query _)).bind fun _ => .ret _
  | overviewPage | usersPage | keysPage | usagePage | systemPage =>
    apply (checkAdminSession_writes req).bind
    intro b
    split <;> exact .ret _
  | logoutPage => exact (dropSession_writes req).bind fun _ => .ret _

/-- What a request under `/admin` writes. -/
def AdminRequest.MayWrite (cfg : AdminConfig) (amb : Ambient) (req : AdminRequest)
    (d : Dml) : Prop :=
  ∃ e, endpoint req = some (.guarded e) ∧ e.MayWrite cfg amb d

theorem serve_writes (cfg : AdminConfig) (amb : Ambient) (req : AdminRequest) :
    Handling.Writes (req.MayWrite cfg amb) (serve cfg amb req) := by
  unfold serve
  cases he : endpoint req with
  | none => exact .ret _
  | some e =>
    apply (e.handler_writes cfg amb req).mono
    intro d hd
    cases e with
    | guarded e => exact ⟨e, he, hd⟩
    | _ => exact hd.elim

end EasyModelGate
