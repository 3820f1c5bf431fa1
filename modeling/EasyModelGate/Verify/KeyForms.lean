import EasyModelGate.Verify.AdminRun
import EasyModelGate.Verify.Forms

/-! # What becomes of the forms of keys

A form encodes a limit by a disabled input or a number in it, the Admin API decodes it as absent,
`null` or an integer. Between the two stand the numbers of JavaScript and the request models of
Pydantic. -/

namespace EasyModelGate

/-! ## What Pydantic makes of a body -/

/-- What a field `int | None = None` is read as, if the member of the body is accepted. -/
def OptionalInt : Option Json → Option Int → Prop
  | none, n | some .null, n => n = none
  | some (.int m), n => n = some m
  | some (.float x), n => ∃ m : Int, x = .fin m ∧ n = some m
  | some (.str []), _ => False
  | _, _ => True

/-- `null` or an integer. -/
def Json.Limit (v : Json) : Prop := v = .null ∨ ∃ n, v = .int n

/-- The model of `PATCH /admin/api/keys/{key_id}/limits`, as far as the form relies on it. -/
structure ReadsLimits (keyLimits : Json → Except (Option Str) AdminKeyLimitsRequest) : Prop where
  accepts : ∀ items : List (Str × Json), (items.map Prod.fst).Nodup →
    (∀ p ∈ items, p.1 ∈ [str "rpm", str "token_limit"] ∧ p.2.Limit) →
    ∃ body, keyLimits (.obj items) = .ok body
  reads : ∀ items body, keyLimits (.obj items) = .ok body →
    OptionalInt (Json.lookup (str "rpm") items) body.rpm.join ∧
    OptionalInt (Json.lookup (str "token_limit") items) body.tokenLimit.join
  /-- `model_fields_set` -/
  fieldsSet : ∀ items body, keyLimits (.obj items) = .ok body →
    body.rpm.isSome = (Json.lookup (str "rpm") items).isSome ∧
    body.tokenLimit.isSome = (Json.lookup (str "token_limit") items).isSome

/-- The model of `POST /admin/api/keys`, as far as the form relies on it. -/
structure ReadsCreate (keyCreate : Json → Except (Option Str) AdminKeyCreateRequest) : Prop where
  accepts : ∀ (userId : Int) (name : Str) (items : List (Str × Json)), name.valid = true →
    (items.map Prod.fst).Nodup →
    (∀ p ∈ items, p.1 ∈ [str "rpm", str "token_limit", str "expires_in_days"] ∧ p.2.Limit) →
    ∃ body, keyCreate (.obj ([(str "user_id", .int userId), (str "name", .str name)] ++ items)) =
    .ok body
  reads : ∀ items body, keyCreate (.obj items) = .ok body →
    OptionalInt (Json.lookup (str "user_id") items) (some body.userId) ∧
    (∀ name, Json.lookup (str "name") items = some (.str name) → body.name = some name) ∧
    OptionalInt (Json.lookup (str "rpm") items) body.rpm ∧
    OptionalInt (Json.lookup (str "token_limit") items) body.tokenLimit ∧
    OptionalInt (Json.lookup (str "expires_in_days") items) body.expiresInDays

theorem sent_of_reaches {text : Str} {n : Int} (h : Reaches text n) : sent text = .int n := by
  unfold sent
  rw [if_neg, h]
  rintro rfl
  cases h

/-- A float that a form sends is too large for an integer of SQLite, and for a number of days. -/
theorem reads_sent_iff {text : Str} {v : Option Int}
    (hread : OptionalInt (some (sent text)) v) {n : Int} (hn : n.natAbs < 10 ^ 21) :
    v = some n ↔ Reaches text n := by
  constructor
  · rintro rfl
    unfold sent at hread
    split at hread
    · cases hread
    unfold Reaches
    cases htext : Js.parseInt text with
    | nan | inf =>
      rw [htext] at hread
      cases hread
    | fin q =>
      rw [htext, JsValue.received] at hread
      rw [JsValue.received]
      split at hread
      · rename_i hsmall
        rw [if_pos hsmall]
        exact congrArg Json.int (Option.some.inj hread).symm
      · rename_i hlarge
        obtain ⟨m, hm, hnm⟩ := hread
        cases hm
        cases hnm
        exact absurd ⟨Rat.den_intCast _, by rwa [Rat.num_intCast]⟩ hlarge
  · intro hreaches
    rw [sent_of_reaches hreaches] at hread
    exact hread

theorem natAbs_lt_of_fits64 {n : Int} (h : fits64 n = true) : n.natAbs < 10 ^ 21 := by
  simp only [fits64, decide_eq_true_eq] at h
  omega

namespace LimitField

variable {f : LimitField} {shown : Option Int}

theorem Reached.member_none (h : f.Reached) (hshown : f.Shows none) : f.member = none := by
  rw [member, h.synced.disabled, hshown]
  rfl

theorem Reached.member_some {n : Int} (h : f.Reached) (hshown : f.Shows (some n)) :
    f.member = some (sent f.value) := by
  rw [member, h.synced.disabled, hshown.1]
  rfl

/-- When the limit that is shown is stored: no limit if there was none before, a number if it
reaches the server and SQLite can store it. -/
def Saves (f : LimitField) (current : Option Int) : Option Int → Prop
  | none => current = none
  | some n => Reaches f.value n ∧ fits64 n = true

/-- The number that is shown is read, if it reaches the server. -/
theorem Reached.reads_iff (h : f.Reached) (hshown : f.Shows shown) (hfits : shown.all fits64 = true)
    {v : Option Int} (hread : OptionalInt f.member v) : v = shown ↔ ∀ n, shown = some n →
    Reaches f.value n := by
  cases shown with
  | none =>
    rw [h.member_none hshown] at hread
    exact iff_of_true hread nofun
  | some n =>
    rw [h.member_some hshown] at hread
    rw [reads_sent_iff hread (natAbs_lt_of_fits64 hfits)]
    simp

/-- What the update of a limit makes of the member of the body. -/
theorem Reached.saves_iff (h : f.Reached) (hshown : f.Shows shown) {field : Option (Option Int)}
    {current : Option Int} (hread : OptionalInt f.member field.join)
    (hset : field.isSome = f.member.isSome) :
    (AdminKeys.limitUpdate field).apply current = shown ∧ shown.all fits64 = true ↔
    f.Saves current shown := by
  cases shown with
  | none =>
    rw [h.member_none hshown] at hset
    cases field with
    | none => simp [AdminKeys.limitUpdate, LimitUpdate.apply, Saves]
    | some => cases hset
  | some n =>
    rw [h.member_some hshown] at hset
    cases field with
    | none => cases hset
    | some v =>
      have happly : (AdminKeys.limitUpdate (some v)).apply current = v := by cases v <;> rfl
      rw [happly, Saves, Option.all_some]
      refine and_congr_left fun hfits => (h.reads_iff hshown hfits hread).trans ?_
      simp

end LimitField

theorem lookup_saveLimits (rpm tokenLimit : LimitField) :
    Json.lookup (str "rpm") (rpm.members "rpm" ++ tokenLimit.members "token_limit") = rpm.member ∧
    Json.lookup (str "token_limit") (rpm.members "rpm" ++ tokenLimit.members "token_limit") =
      tokenLimit.member := by
  unfold LimitField.members
  cases rpm.member <;> cases tokenLimit.member <;> exact ⟨rfl, rfl⟩

theorem LimitField.Reached.limit {f : LimitField} (h : f.Reached) {shown : Option Int}
    (hshown : f.Shows shown) (hsent : ∀ n, shown = some n → Reaches f.value n) (name : String) :
    ∀ p ∈ f.members name, p.1 = str name ∧ p.2.Limit := by
  unfold members
  cases shown with
  | none =>
    rw [h.member_none hshown]
    exact fun _ hp => nomatch hp
  | some n =>
    rw [h.member_some hshown, sent_of_reaches (hsent n rfl)]
    intro p hp
    cases List.mem_singleton.mp hp
    exact ⟨rfl, .inr ⟨n, rfl⟩⟩

theorem nodup_saveLimits (rpm tokenLimit : LimitField) :
    ((rpm.members "rpm" ++ tokenLimit.members "token_limit").map Prod.fst).Nodup := by
  unfold LimitField.members
  have hne : str "rpm" ≠ str "token_limit" := by decide
  cases rpm.member <;> cases tokenLimit.member <;> simp [hne]

theorem limit_saveLimits {rpm tokenLimit : LimitField}
    (hrpm : ∀ p ∈ rpm.members "rpm", p.1 = str "rpm" ∧ p.2.Limit)
    (htokens : ∀ p ∈ tokenLimit.members "token_limit", p.1 = str "token_limit" ∧ p.2.Limit) :
    ∀ p ∈ rpm.members "rpm" ++ tokenLimit.members "token_limit", p.1 ∈
    [str "rpm", str "token_limit"] ∧ p.2.Limit := by
  intro p hp
  rcases List.mem_append.mp hp with hp | hp
  · obtain ⟨hkey, hlimit⟩ := hrpm p hp
    exact ⟨by simp [hkey], hlimit⟩
  · obtain ⟨hkey, hlimit⟩ := htokens p hp
    exact ⟨by simp [hkey], hlimit⟩

/-- **What the limits form shows is what gets stored**, exactly when each limit that is shown as
unlimited had been so, each text of a limit is read by `parseInt` as the integer that it is and
SQLite can store it, and the key can be answered with. -/
theorem keyLimitsForm_saves_iff {cfg : AdminConfig} (hreads : ReadsLimits cfg.keyLimits)
    (amb : Ambient) {env : AdminEnv} {st : AdminState} (hst : st.conn.Alone) {raw : Str} {id : Int}
    (hraw : raw.toInt? = some id) (hid : 1 ≤ id) {row : Row ApiKey}
    (hrow : st.conn.view.keyById id = some row) {rpm tokenLimit : LimitField}
    (hrpm : rpm.Reached) (htokens : tokenLimit.Reached) {rpmShown tokensShown : Option Int}
    (hrpmShown : rpm.Shows rpmShown) (htokensShown : tokenLimit.Shows tokensShown)
    (hbody : env.req.body = .ok (saveLimitsBody (keyLimitsForm rpm tokenLimit))) :
    ((Protected.patchLimits raw).handler cfg amb env.req).Leaves env st 200
      (fun t => ∃ row', t.keyById id = some row' ∧
        row'.val.rpmLimit = rpmShown ∧ row'.val.tokenLimit = tokensShown) ↔
      rpm.Saves row.val.rpmLimit rpmShown ∧ tokenLimit.Saves row.val.tokenLimit tokensShown ∧
        row.val.Showable st.conn.view := by
  obtain ⟨hrpmMember, htokensMember⟩ := lookup_saveLimits rpm tokenLimit
  rw [saveLimitsBody_eq] at hbody
  have hsaves :
      ∀ body, cfg.keyLimits (.obj (rpm.members "rpm" ++ tokenLimit.members "token_limit")) =
      .ok body →
      ((AdminKeys.limitUpdate body.rpm).apply row.val.rpmLimit = rpmShown ∧
        rpmShown.all fits64 = true ↔
        rpm.Saves row.val.rpmLimit rpmShown) ∧
      ((AdminKeys.limitUpdate body.tokenLimit).apply row.val.tokenLimit = tokensShown ∧
        tokensShown.all fits64 = true ↔
        tokenLimit.Saves row.val.tokenLimit tokensShown) := fun body hvalid => by
    obtain ⟨hrpmRead, htokensRead⟩ := hreads.reads _ _ hvalid
    obtain ⟨hrpmSet, htokensSet⟩ := hreads.fieldsSet _ _ hvalid
    rw [hrpmMember] at hrpmRead hrpmSet
    rw [htokensMember] at htokensRead htokensSet
    exact ⟨hrpm.saves_iff hrpmShown hrpmRead hrpmSet,
      htokens.saves_iff htokensShown htokensRead htokensSet⟩
  refine (Handling.leaves_parsedBody hbody).trans ⟨?_, ?_⟩
  · rintro ⟨body, hvalid, hleaves⟩
    obtain ⟨a, t, hrun, row', hrow', hrpmStored, htokensStored⟩ :=
      (Handling.leaves_answer hst (.patchLimits raw body) _).mp hleaves
    obtain ⟨hbinds, hshowable, rfl⟩ := (Db.patchLimits_returns hraw hid hrow rfl rfl).mp ⟨a, hrun⟩
    cases (keyById_setKey hrow _).symm.trans hrow'
    dsimp only at hrpmStored htokensStored
    rw [limitsBind, Bool.and_eq_true, hrpmStored, htokensStored] at hbinds
    obtain ⟨hrpmSaves, htokensSaves⟩ := hsaves body hvalid
    exact ⟨hrpmSaves.mp ⟨hrpmStored, hbinds.1⟩,
      htokensSaves.mp ⟨htokensStored, hbinds.2⟩, hshowable⟩
  · rintro ⟨hrpmSaves, htokensSaves, hshowable⟩
    obtain ⟨body, hvalid⟩ := hreads.accepts _ (nodup_saveLimits rpm tokenLimit)
      (limit_saveLimits (hrpm.limit hrpmShown (fun n hn => (hn ▸ hrpmSaves).1) "rpm")
        (htokens.limit htokensShown (fun n hn => (hn ▸ htokensSaves).1) "token_limit"))
    obtain ⟨hrpmIff, htokensIff⟩ := hsaves body hvalid
    obtain ⟨hrpmStored, hrpmFits⟩ := hrpmIff.mpr hrpmSaves
    obtain ⟨htokensStored, htokensFit⟩ := htokensIff.mpr htokensSaves
    have hbinds : limitsBind rpmShown tokensShown = true :=
      Bool.and_eq_true_iff.mpr ⟨hrpmFits, htokensFit⟩
    obtain ⟨a, hrun⟩ := (Db.patchLimits_returns hraw hid hrow hrpmStored htokensStored).mpr
      ⟨hbinds, hshowable, rfl⟩
    refine ⟨body, hvalid, (Handling.leaves_answer hst (.patchLimits raw body) _).mpr
      ⟨a, _, hrun, ?_⟩⟩
    exact ⟨_, keyById_setKey hrow _, rfl, rfl⟩

namespace Sample

/-- A field `int | None = None`, for what the forms send. -/
def optionalInt (items : List (Str × Json)) (name : String) : Except (Option Str) (Option Int) :=
  match Json.lookup (str name) items with
  | none | some .null => .ok none
  | some (.int n) => .ok (some n)
  | some _ => .error (some (str name))

theorem optionalInt_ok {items : List (Str × Json)} {name : String} {v : Option Int}
    (h : optionalInt items name = .ok v) : OptionalInt (Json.lookup (str name) items) v := by
  unfold optionalInt at h
  split at h <;> rename_i hlookup <;> cases h <;> rw [hlookup] <;> rfl

theorem optionalInt_limit {items : List (Str × Json)} (hitems : ∀ p ∈ items, p.2.Limit)
    (name : String) :
    ∃ v, optionalInt items name = .ok v := by
  have hlookup : ∀ v, Json.lookup (str name) items = some v → v.Limit := fun v h => by
    induction items with
    | nil => cases h
    | cons p items ih =>
      obtain ⟨hp, hitems⟩ := List.forall_mem_cons.mp hitems
      unfold Json.lookup at h
      split at h
      · cases h
        exact hp
      · exact ih hitems h
  unfold optionalInt
  cases hl : Json.lookup (str name) items with
  | none => exact ⟨none, rfl⟩
  | some v =>
    rcases hlookup v hl with rfl | ⟨n, rfl⟩
    · exact ⟨none, rfl⟩
    · exact ⟨some n, rfl⟩

/-- `extra="forbid"` -/
def onlyFields (fields : List String) (items : List (Str × Json)) : Except (Option Str) Unit :=
  match items.find? (·.1 ∉ fields.map str) with
  | none => .ok ()
  | some p => .error (some p.1)

theorem onlyFields_ok {fields : List String} {items : List (Str × Json)}
    (h : ∀ p ∈ items, p.1 ∈ fields.map str) :
    onlyFields fields items = .ok () := by
  have hnone : items.find? (·.1 ∉ fields.map str) = none := by
    rw [List.find?_eq_none]
    exact fun p hp => by simpa using h p hp
  rw [onlyFields, hnone]

def keyLimits : Json → Except (Option Str) AdminKeyLimitsRequest
  | .obj items => do
    onlyFields ["rpm", "token_limit"] items
    let rpm ← optionalInt items "rpm"
    let tokenLimit ← optionalInt items "token_limit"
    return { rpm := (Json.lookup (str "rpm") items).map fun _ => rpm
             tokenLimit := (Json.lookup (str "token_limit") items).map fun _ => tokenLimit }
  | _ => .error none

theorem readsLimits : ReadsLimits keyLimits where
  accepts items _ hitems := by
    obtain ⟨rpm, hrpm⟩ := optionalInt_limit (fun p hp => (hitems p hp).2) "rpm"
    obtain ⟨tokenLimit, htokens⟩ := optionalInt_limit (fun p hp => (hitems p hp).2) "token_limit"
    have hfields : onlyFields ["rpm", "token_limit"] items = .ok () :=
      onlyFields_ok fun p hp => (hitems p hp).1
    rw [keyLimits, hfields, hrpm, htokens]
    exact ⟨_, rfl⟩
  reads items body h := by
    obtain ⟨_, -, h⟩ := Except.bind_eq_ok h
    obtain ⟨rpm, hrpm, h⟩ := Except.bind_eq_ok h
    obtain ⟨tokenLimit, htokens, h⟩ := Except.bind_eq_ok h
    cases h
    have hjoin : ∀ {member : Option Json} {v}, OptionalInt member v →
        OptionalInt member (member.map fun _ => v).join := by
      intro member v hv
      cases member with
      | none => rfl
      | some => exact hv
    exact ⟨hjoin (optionalInt_ok hrpm), hjoin (optionalInt_ok htokens)⟩
  fieldsSet items body h := by
    obtain ⟨_, -, h⟩ := Except.bind_eq_ok h
    obtain ⟨rpm, -, h⟩ := Except.bind_eq_ok h
    obtain ⟨tokenLimit, -, h⟩ := Except.bind_eq_ok h
    cases h
    exact ⟨Option.isSome_map, Option.isSome_map⟩

/-- The Admin API, with this model of the limits. -/
def limitsConfig : AdminConfig := { adminConfig with keyLimits := keyLimits }

/-- A user, and a key of theirs with these limits. -/
def keyTables (rpm tokenLimit : Option Int) : Tables :=
  (({} : Tables).addUser (newUser (str "alice") none none 0)).addKey
    (newKey adminConfig.hashKey (str "emg_laptop") 1 none none rpm tokenLimit 0)

def formState (rpm tokenLimit : Option Int) : AdminState where
  conn := .settled (keyTables rpm tokenLimit)

theorem alone_formState (rpm tokenLimit : Option Int) : (formState rpm tokenLimit).conn.Alone :=
  .of_tx_none rfl rfl

/-- `PATCH /admin/api/keys/1/limits` -/
def limitsEnv (rpm tokenLimit : LimitField) : AdminEnv where
  ids := sessionIds
  req := { method := str "PATCH", path := str "/admin/api/keys/1/limits", underAdmin := by decide
           body := .ok (saveLimitsBody (keyLimitsForm rpm tokenLimit)) }
  now := 0

/-- A token limit of 1000 in which 2000 is entered. -/
def raised : LimitField := (LimitField.rendered (some 1000)).step (.enter (str "2000"))

/-- A limit of 60 that is taken away. -/
def lifted : LimitField := (LimitField.rendered (some 60)).step .toggle

theorem raised_reached : raised.Reached := ⟨some 1000, [.enter (str "2000")], rfl⟩
theorem lifted_reached : lifted.Reached := ⟨some 60, [.toggle], rfl⟩
theorem unlimited_reached : (LimitField.rendered none).Reached := ⟨none, [], rfl⟩

theorem raised_value : raised.value = Str.ofInt (2000 : Nat) := by decide +kernel

theorem raised_shows : raised.Shows (some 2000) := ⟨rfl, by decide +kernel, by decide⟩

end Sample

open Sample in
theorem keyLimitsForm_saves_raised :
    ((Protected.patchLimits (str "1")).handler limitsConfig ambient
      (limitsEnv (.rendered none) raised).req).Leaves
      (limitsEnv (.rendered none) raised)
        (formState none (some 1000)) 200 (fun t => ∃ row', t.keyById 1 = some row' ∧
        row'.val.rpmLimit = none ∧ row'.val.tokenLimit = some 2000) := by
  have hunlimited : (LimitField.rendered none).Shows none := rfl
  have hnone : (LimitField.rendered none).Saves none none := rfl
  have hsaves : raised.Saves (some 1000) (some 2000) := by
    refine ⟨?_, by decide⟩
    rw [raised_value]
    exact reaches_ofInt (by decide)
  exact (keyLimitsForm_saves_iff readsLimits ambient (alone_formState none (some 1000))
    (by decide +kernel) (by decide) rfl unlimited_reached raised_reached hunlimited raised_shows
    rfl).mpr ⟨hnone, hsaves, rfl, rfl⟩

open Sample in
/-- The form shows no limit any more, the answer is 200, and the limit stays. -/
theorem keyLimitsForm_keeps_lifted : lifted.Reached ∧ lifted.Shows none ∧
    (LimitField.rendered none).Shows none ∧
    endpoint (limitsEnv lifted (.rendered none)).req = some (.guarded (.patchLimits (str "1"))) ∧
    ∃ response t st', ((Protected.patchLimits (str "1")).handler limitsConfig ambient
        (limitsEnv lifted (.rendered none)).req).run (limitsEnv lifted (.rendered none)).handler
          (formState (some 60) none) =
        (.ok response, st') ∧
      response.statusCode = 200 ∧ st'.conn = .settled t ∧
      ∃ row', t.keyById 1 = some row' ∧ row'.val.rpmLimit = some 60 := by
  exact ⟨lifted_reached, rfl, rfl, rfl, _, _, _, rfl, rfl, rfl, _, rfl, rfl⟩

/-! ## New keys -/

theorem lookup_createKey (s : CreateKeyState) :
    let items := [(str "user_id", sent s.option), (str "name", .str s.name)] ++ s.members
    Json.lookup (str "user_id") items = some (sent s.option) ∧
    Json.lookup (str "name") items = some (.str s.name) ∧
    Json.lookup (str "rpm") items = s.rpm.member ∧
    Json.lookup (str "token_limit") items = s.tokenLimit.member ∧
    Json.lookup (str "expires_in_days") items = some (sent s.expiresInDays) := by
  unfold CreateKeyState.members LimitField.members
  generalize s.option = option
  cases s.rpm.member <;> cases s.tokenLimit.member <;> exact ⟨rfl, rfl, rfl, rfl, rfl⟩

/-- What is read of the form. -/
theorem ReadsCreate.form {keyCreate : Json → Except (Option Str) AdminKeyCreateRequest}
    (hreads : ReadsCreate keyCreate) {s : CreateKeyState} {body : AdminKeyCreateRequest}
    (hvalid : keyCreate (.obj ([(str "user_id", sent s.option), (str "name", .str s.name)] ++
      s.members)) = .ok body) :
    OptionalInt (some (sent s.option)) (some body.userId) ∧ body.name = some s.name ∧
      OptionalInt s.rpm.member body.rpm ∧ OptionalInt s.tokenLimit.member body.tokenLimit ∧
      OptionalInt (some (sent s.expiresInDays)) body.expiresInDays := by
  obtain ⟨huserMember, hnameMember, hrpmMember, htokensMember, hdaysMember⟩ := lookup_createKey s
  obtain ⟨huserRead, hnameRead, hrpmRead, htokensRead, hdaysRead⟩ := hreads.reads _ _ hvalid
  rw [huserMember] at huserRead
  rw [hrpmMember] at hrpmRead
  rw [htokensMember] at htokensRead
  rw [hdaysMember] at hdaysRead
  exact ⟨huserRead, hnameRead _ hnameMember, hrpmRead, htokensRead, hdaysRead⟩

theorem nodup_createKey (s : CreateKeyState) : (s.members.map Prod.fst).Nodup := by
  unfold CreateKeyState.members LimitField.members
  have hnodup : [str "rpm", str "token_limit", str "expires_in_days"].Nodup := by decide
  rw [List.map_append, List.map_append]
  refine hnodup.sublist ?_
  cases s.rpm.member <;> cases s.tokenLimit.member <;> simp

theorem limit_createKey {s : CreateKeyState}
    (hrpm : ∀ p ∈ s.rpm.members "rpm", p.1 = str "rpm" ∧ p.2.Limit)
    (htokens : ∀ p ∈ s.tokenLimit.members "token_limit", p.1 = str "token_limit" ∧ p.2.Limit)
    (hdays : Reaches s.expiresInDays days) :
    ∀ p ∈ s.members, p.1 ∈ [str "rpm", str "token_limit", str "expires_in_days"] ∧ p.2.Limit := by
  intro p hp
  rcases List.mem_append.mp hp with hp | hp
  · obtain ⟨hkey, hlimit⟩ := limit_saveLimits hrpm htokens p hp
    exact ⟨List.mem_append_left [str "expires_in_days"] hkey, hlimit⟩
  · cases List.mem_singleton.mp hp
    exact ⟨by simp, .inr ⟨days, sent_of_reaches hdays⟩⟩

theorem addKey_injective {t : Tables} {k k' : ApiKey} (h : t.addKey k = t.addKey k') : k = k' := by
  have hrow := keyById_addKey t k'
  rw [← h, keyById_addKey] at hrow
  cases hrow
  rfl

theorem limits_of_keyBinds (h : keyBinds name pfx expiresAt rpm tokenLimit nowMs = true) :
    rpm.all fits64 = true ∧ tokenLimit.all fits64 = true := by
  simp only [keyBinds, Bool.and_eq_true] at h
  exact ⟨h.1.1.2, h.1.2⟩

theorem natAbs_lt_of_inDays {zone : Zone} {clk : Clock} {days : Int}
    (h : zone.inDays clk days = .ok expiresAt) :
    days.natAbs < 10 ^ 21 := by
  unfold Zone.inDays at h
  dsimp only at h
  split at h
  · cases h
  · omega

/-- **The create form reaches the API** exactly when the expiry is not empty, the texts that are
shown are read by `parseInt` as the integers that they are, and the key can be stored. -/
theorem createKeyForm_creates_iff {cfg : AdminConfig} (hreads : ReadsCreate cfg.keyCreate)
    (amb : Ambient) {env : AdminEnv} {st : AdminState} (hst : st.conn.Alone) {s : CreateKeyState}
    {owner : Row User} (hfound : st.conn.view.userById s.user = some owner)
    (huser : fits64 s.user = true) (hrpm : s.rpm.Reached) (htokens : s.tokenLimit.Reached)
    {rpmShown tokensShown : Option Int} (hrpmShown : s.rpm.Shows rpmShown)
    (htokensShown : s.tokenLimit.Shows tokensShown)
    (hbody : env.req.body = .ok (createKeyBody (createKeyForm s))) :
    (Protected.createKey.handler cfg amb env.req).Leaves env st 201
      (fun t => ∃ k, t = st.conn.view.addKey k ∧
        k.userId = s.user ∧ k.name = some s.name ∧ k.rpmLimit = rpmShown ∧
        k.tokenLimit = tokensShown ∧
        (k.expiresAt = none ↔ s.expiresInDays = [])) ↔
      s.expiresInDays ≠ [] ∧ Reaches s.option s.user ∧
        (∀ n, rpmShown = some n → Reaches s.rpm.value n) ∧
        (∀ n, tokensShown = some n → Reaches s.tokenLimit.value n) ∧
        ∃ days expiresAt, Reaches s.expiresInDays days ∧
        cfg.zone.inDays amb.clk days = .ok expiresAt ∧
          keyBinds (some s.name) ((cfg.keyPrefix ++ amb.random).take prefixDisplayLen)
            (some expiresAt) rpmShown tokensShown amb.clk.nowMs = true ∧
          st.conn.view.keyByHash (cfg.hashKey (cfg.keyPrefix ++ amb.random)) = none := by
  rw [createKeyBody_eq] at hbody
  refine (Handling.leaves_parsedBody hbody).trans ⟨?_, ?_⟩
  · rintro ⟨body, hvalid, hleaves⟩
    obtain ⟨huserRead, -, hrpmRead, htokensRead, hdaysRead⟩ := hreads.form hvalid
    obtain ⟨a, t, hrun, k, rfl, huserId, hname, hrpmStored, htokensStored, hexpiry⟩ :=
      (Handling.leaves_created hst (.createKey _ _ _ _ _ body)).mp hleaves
    obtain ⟨owner', expiresAt, howner, hmapM, hbinds, hhash, hadd⟩ :=
      Db.createKey_returns.mp ⟨a, hrun⟩
    cases addKey_injective hadd
    dsimp only [newKey] at huserId hname hrpmStored htokensStored hexpiry
    rw [hname, hrpmStored, htokensStored] at hbinds
    obtain ⟨hrpmFits, htokensFit⟩ := limits_of_keyBinds hbinds
    have huserSent : some body.userId = some (s.user : Int) := by
      rw [(Tables.userById_eq_some.mp howner).1, huserId]
    have hne : s.expiresInDays ≠ [] := fun hempty => by
      rw [hempty] at hdaysRead
      exact hdaysRead
    rcases Zone.of_mapM_inDays hmapM with ⟨-, rfl⟩ | ⟨days, expiresMs, hdays, hinDays, rfl⟩
    · exact absurd (hexpiry.mp rfl) hne
    refine ⟨hne, (reads_sent_iff huserRead (natAbs_lt_of_fits64 huser)).mp huserSent,
      (hrpm.reads_iff hrpmShown hrpmFits hrpmRead).mp hrpmStored,
      (htokens.reads_iff htokensShown htokensFit htokensRead).mp htokensStored, days, expiresMs, ?_,
      hinDays, hbinds, hhash⟩
    exact (reads_sent_iff hdaysRead (natAbs_lt_of_inDays hinDays)).mp hdays
  · rintro ⟨hne, huserReaches, hrpmReaches, htokensReach, days, expiresAt, hdaysReach, hinDays,
      hbinds, hhash⟩
    obtain ⟨body, hvalid⟩ := hreads.accepts s.user s.name s.members s.name_valid (nodup_createKey s)
      (limit_createKey (hrpm.limit hrpmShown hrpmReaches "rpm")
        (htokens.limit htokensShown htokensReach "token_limit") hdaysReach)
    rw [← sent_of_reaches huserReaches] at hvalid
    obtain ⟨huserRead, hname, hrpmRead, htokensRead, hdaysRead⟩ := hreads.form hvalid
    obtain ⟨hrpmFits, htokensFit⟩ := limits_of_keyBinds hbinds
    have huserSent :=
      Option.some.inj ((reads_sent_iff huserRead (natAbs_lt_of_fits64 huser)).mpr huserReaches)
    have hrpmSent := (hrpm.reads_iff hrpmShown hrpmFits hrpmRead).mpr hrpmReaches
    have htokensSent := (htokens.reads_iff htokensShown htokensFit htokensRead).mpr htokensReach
    have hdaysSent := (reads_sent_iff hdaysRead (natAbs_lt_of_inDays hinDays)).mpr hdaysReach
    have hmapM : body.expiresInDays.mapM (cfg.zone.inDays amb.clk) = .ok (some expiresAt) := by
      rw [hdaysSent, Option.mapM_some, hinDays]
      rfl
    rw [← hname, ← hrpmSent, ← htokensSent] at hbinds
    obtain ⟨a, hrun⟩ := Db.createKey_returns.mpr ⟨owner, some expiresAt, huserSent ▸ hfound, hmapM,
      hbinds, hhash, rfl⟩
    refine ⟨body, hvalid, (Handling.leaves_created hst (.createKey _ _ _ _ _ body)).mpr
      ⟨a, _, hrun, _, rfl, ?_⟩⟩
    refine ⟨?_, hname, hrpmSent, htokensSent, iff_of_false (Option.some_ne_none _) hne⟩
    exact Int.ofNat.inj (Tables.userById_eq_some.mp hfound).1.symm

/-- The option of a user reaches the server. -/
theorem reaches_option {s : CreateKeyState} (huser : s.user < 2 ^ 53) :
    Reaches s.option s.user := by
  rw [CreateKeyState.option, PyFloat.round_natCast huser.le, Js.toString_natCast huser]
  exact reaches_ofInt huser

namespace Sample

/-- A text of a form is encodable, so that Pydantic takes it. -/
def optionalStr (items : List (Str × Json)) (name : String) : Except (Option Str) (Option Str) :=
  match Json.lookup (str name) items with
  | none | some .null => .ok none
  | some (.str s) => .ok (some s)
  | some _ => .error (some (str name))

def requiredInt (items : List (Str × Json)) (name : String) : Except (Option Str) Int :=
  match Json.lookup (str name) items with
  | some (.int n) => .ok n
  | _ => .error (some (str name))

def keyCreate : Json → Except (Option Str) AdminKeyCreateRequest
  | .obj items => do
    onlyFields ["user_id", "name", "rpm", "token_limit", "expires_in_days"] items
    let userId ← requiredInt items "user_id"
    let name ← optionalStr items "name"
    let rpm ← optionalInt items "rpm"
    let tokenLimit ← optionalInt items "token_limit"
    let expiresInDays ← optionalInt items "expires_in_days"
    return { userId, name, rpm, tokenLimit, expiresInDays }
  | _ => .error none

theorem readsCreate : ReadsCreate keyCreate where
  accepts userId name items _ _ hitems := by
    obtain ⟨rpm, hrpm⟩ := optionalInt_limit (fun p hp => (hitems p hp).2) "rpm"
    obtain ⟨tokenLimit, htokens⟩ := optionalInt_limit (fun p hp => (hitems p hp).2) "token_limit"
    obtain ⟨days, hdays⟩ := optionalInt_limit (fun p hp => (hitems p hp).2) "expires_in_days"
    have hfields : onlyFields ["user_id", "name", "rpm", "token_limit", "expires_in_days"]
        ([(str "user_id", .int userId), (str "name", .str name)] ++ items) = .ok () := by
      refine onlyFields_ok (List.forall_mem_append.mpr ⟨?_, fun p hp => ?_⟩)
      · simp
      · exact List.mem_cons_of_mem _ (List.mem_cons_of_mem _ (hitems p hp).1)
    rw [keyCreate, hfields]
    change ∃ body, Except.bind (optionalInt items "rpm") _ = .ok body
    rw [hrpm]
    change ∃ body, Except.bind (optionalInt items "token_limit") _ = .ok body
    rw [htokens]
    change ∃ body, Except.bind (optionalInt items "expires_in_days") _ = .ok body
    rw [hdays]
    exact ⟨_, rfl⟩
  reads items body h := by
    obtain ⟨_, -, h⟩ := Except.bind_eq_ok h
    obtain ⟨userId, huser, h⟩ := Except.bind_eq_ok h
    obtain ⟨name, hname, h⟩ := Except.bind_eq_ok h
    obtain ⟨rpm, hrpm, h⟩ := Except.bind_eq_ok h
    obtain ⟨tokenLimit, htokens, h⟩ := Except.bind_eq_ok h
    obtain ⟨expiresInDays, hdays, h⟩ := Except.bind_eq_ok h
    cases h
    refine ⟨?_, fun s hs => ?_, optionalInt_ok hrpm, optionalInt_ok htokens, optionalInt_ok hdays⟩
    · unfold requiredInt at huser
      split at huser <;> rename_i hlookup <;> cases huser
      rw [hlookup]
      rfl
    · rw [optionalStr, hs] at hname
      cases hname
      rfl

/-- The Admin API, with this model of a new key. -/
def createConfig : AdminConfig := { adminConfig with keyCreate := keyCreate }

/-- `POST /admin/api/keys` -/
def createEnv (s : CreateKeyState) : AdminEnv where
  ids := sessionIds
  req := { method := str "POST", path := str "/admin/api/keys", underAdmin := by decide
           body := .ok (createKeyBody (createKeyForm s)) }
  now := 0

/-- A new key without limits. -/
def newLaptop (expiresInDays : Str) : CreateKeyState where
  user := 1
  name := str "laptop"
  rpm := .rendered none
  tokenLimit := .rendered none
  expiresInDays := expiresInDays
  name_valid := by decide

end Sample

open Sample in
theorem createKeyForm_creates_month :
    (Protected.createKey.handler createConfig ambient (createEnv (newLaptop (str "30"))).req).Leaves
      (createEnv (newLaptop (str "30")))
        (formState none none) 201 (fun t => ∃ k, t = (keyTables none none).addKey k ∧
        k.userId = 1 ∧ k.name = some (str "laptop") ∧ k.rpmLimit = none ∧ k.tokenLimit = none ∧
        (k.expiresAt = none ↔ str "30" = [])) := by
  have hreads : ReadsCreate createConfig.keyCreate := readsCreate
  have hfound : (formState none none).conn.view.userById (newLaptop (str "30")).user =
    some ⟨1, newUser (str "alice") none none 0⟩ := rfl
  have hunlimited : (LimitField.rendered none).Shows none := rfl
  have huser : Reaches (newLaptop (str "30")).option 1 := reaches_option (by decide)
  have hdays : Reaches (newLaptop (str "30")).expiresInDays 30 := by
    have htext : str "30" = Str.ofInt (30 : Nat) := by decide +kernel
    change Reaches (str "30") 30
    rw [htext]
    exact reaches_ofInt (by decide)
  have hbody : (createEnv (newLaptop (str "30"))).req.body =
    .ok (createKeyBody (createKeyForm (newLaptop (str "30")))) := rfl
  refine (createKeyForm_creates_iff hreads ambient (alone_formState none none) hfound (by decide)
    unlimited_reached unlimited_reached hunlimited hunlimited hbody).mpr ⟨?_, huser, nofun, nofun,
    30, 2592000000, hdays, ?_⟩
  · exact List.cons_ne_nil _ _
  · exact ⟨by decide +kernel, by decide +kernel, by decide +kernel⟩

open Sample in
/-- An empty expiry is refused. -/
theorem createKeyForm_refuses_empty : (newLaptop []).rpm.Shows none ∧
    (newLaptop []).tokenLimit.Shows none ∧
    endpoint (createEnv (newLaptop [])).req = some (.guarded .createKey) ∧
    ∃ e, ((Protected.createKey.handler createConfig ambient (createEnv (newLaptop [])).req).run
        (createEnv (newLaptop [])).handler (formState none none)).1 = .error e ∧
      e.response?.map Response.statusCode = some 422 := by
  have hbody : (createEnv (newLaptop [])).req.body =
      .ok (.obj [(str "user_id", .int 1), (str "name", .str (str "laptop")),
      (str "expires_in_days", .str [])]) := by
    have huser : sent (newLaptop []).option = .int 1 := sent_of_reaches (reaches_option (by decide))
    change Except.ok (createKeyBody (createKeyForm (newLaptop []))) = _
    rw [createKeyBody_eq, huser]
    rfl
  refine ⟨rfl, rfl, rfl, Admin.refuse 422 (str "Request validation failed") "validation_error"
    (some (str "expires_in_days")), ?_, rfl⟩
  rw [Protected.handler, Coro.run_bind, Handling.run_parsedBody hbody]
  rfl

end EasyModelGate
