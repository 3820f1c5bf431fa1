import EasyModelGate.Lib.Growth
import EasyModelGate.Verify.Discipline
import EasyModelGate.Verify.Quota

/-! # The integrity of the tables

What the tables satisfy in every state of the gateway, its commands included, and what stays of
every row. The log has no foreign keys: that its rows name a key and the key's owner is for the
gateway to see to. -/

namespace EasyModelGate

/-! ## What may change -/

/-- A user is enabled and disabled. -/
def User.Kept (u u' : User) : Prop := u' = { u with enabled := u'.enabled }

/-- A key is enabled and disabled, limited, and used; what it has used does not go down. -/
structure ApiKey.Kept (k k' : ApiKey) : Prop where
  fixed : k' = { k with
    enabled := k'.enabled
    rpmLimit := k'.rpmLimit
    tokenLimit := k'.tokenLimit
    tokenUsed := k'.tokenUsed
    lastUsedAt := k'.lastUsedAt }
  used : k.tokenUsed.value ≤ k'.tokenUsed.value

theorem User.Kept.refl (u : User) : u.Kept u := rfl

theorem User.Kept.trans (u u' u'' : User) (h : u.Kept u') (h' : u'.Kept u'') : u.Kept u'' := by
  unfold User.Kept at *
  rw [h', h]

theorem ApiKey.Kept.refl (k : ApiKey) : k.Kept k := ⟨rfl, le_rfl⟩

theorem ApiKey.Kept.trans (k k' k'' : ApiKey) (h : k.Kept k') (h' : k'.Kept k'') : k.Kept k'' :=
  ⟨by rw [h'.fixed, h.fixed], h.used.trans h'.used⟩

theorem ApiKey.Kept.owner {k k' : ApiKey} (h : k.Kept k') : k'.userId = k.userId := by rw [h.fixed]

namespace Tables

/-- `t'` comes from `t`: no row is gone or under another number, the log is only appended to, no
setting is gone. -/
structure Extends (t t' : Tables) : Prop where
  users : t.users.Grows User.Kept t'.users
  apiKeys : t.apiKeys.Grows ApiKey.Kept t'.apiKeys
  requestLogs : t.requestLogs.rows <+: t'.requestLogs.rows
  settings : ∀ key ∈ t.settings.map Prod.fst, key ∈ t'.settings.map Prod.fst

theorem Extends.refl (t : Tables) : t.Extends t where
  users := .refl User.Kept.refl _
  apiKeys := .refl ApiKey.Kept.refl _
  requestLogs := List.prefix_rfl
  settings _ := id

theorem Extends.trans (t t' t'' : Tables) (h : t.Extends t') (h' : t'.Extends t'') :
    t.Extends t'' where
  users := h.users.trans User.Kept.trans h'.users
  apiKeys := h.apiKeys.trans ApiKey.Kept.trans h'.apiKeys
  requestLogs := h.requestLogs.trans h'.requestLogs
  settings key hkey := h'.settings key (h.settings key hkey)

/-- The key has this owner. -/
def Owned (t : Tables) (keyId userId : Nat) : Prop :=
  ∃ row, t.apiKeys.get? keyId = some row ∧ row.val.userId = userId

theorem Owned.mono {t t' : Tables} (h : t.Extends t') {keyId userId : Nat}
    (ho : t.Owned keyId userId) :
    t'.Owned keyId userId := by
  obtain ⟨row, hrow, rfl⟩ := ho
  obtain ⟨row', hrow', hkept⟩ := h.apiKeys.kept keyId row hrow
  exact ⟨row', hrow', hkept.owner⟩

end Tables

/-! ## What holds -/

/-- What charges have made of 0, as it is stored. -/
def SqlNumber.Used (x : SqlNumber) : Prop := x.storable = true ∧ ∃ s, 0 ≤ s ∧ x.Covers s

/-- The row names a key and the key's owner. -/
def Tables.Attributed (t : Tables) (row : LogRow) : Prop :=
  ∃ keyId userId : Nat, row.apiKeyId = some (keyId : Int) ∧ row.userId = some (userId : Int) ∧
    t.Owned keyId userId

theorem Tables.Attributed.mono {t t' : Tables} (h : t.Extends t') {row : LogRow}
    (ha : t.Attributed row) :
    t'.Attributed row := by
  obtain ⟨keyId, userId, hkey, huser, ho⟩ := ha
  exact ⟨keyId, userId, hkey, huser, ho.mono h⟩

section
variable (hashKey : Str → Str) (keyPrefix : Str)

/-- The row shows and hashes a full key that begins as the configuration says. -/
def ApiKey.Issued (k : ApiKey) : Prop :=
  ∃ full, keyPrefix <+: full ∧ k.keyPrefix = full.take prefixDisplayLen ∧ k.keyHash = hashKey full

structure Tables.Integral (t : Tables) : Prop where
  usernames : (t.users.rows.map (·.val.username)).Nodup
  hashes : (t.apiKeys.rows.map (·.val.keyHash)).Nodup
  issued : ∀ r ∈ t.apiKeys.rows, r.val.Issued hashKey keyPrefix
  owners : ∀ r ∈ t.apiKeys.rows, (t.users.get? r.val.userId).isSome
  used : ∀ r ∈ t.apiKeys.rows, r.val.tokenUsed.Used
  logged : ∀ r ∈ t.requestLogs.rows, t.Attributed r.val
  settings : (t.settings.map Prod.fst).Nodup

/-- The writes that keep it. -/
def Dml.Sound (t : Tables) : Dml → Prop
  | .insertApiKey _ _ pfx hash _ _ _ _ =>
    ∃ full, keyPrefix <+: full ∧ pfx = full.take prefixDisplayLen ∧ hash = hashKey full
  | .insertRequestLog record => t.Owned record.apiKeyId record.userId
  | .addTokenUsed n _ => 0 < n
  | _ => True

end

variable {hashKey : Str → Str} {keyPrefix : Str} {t t' : Tables}

theorem Dml.Sound.mono (t t' : Tables) (d : Dml) (h : t.Extends t')
    (hd : d.Sound hashKey keyPrefix t) :
    d.Sound hashKey keyPrefix t' := by
  cases d with
  | insertRequestLog => exact Tables.Owned.mono h hd
  | _ => exact hd

namespace Tables.Integral

theorem empty : Integral hashKey keyPrefix {} where
  usernames := .nil
  hashes := .nil
  issued _ hr := absurd hr List.not_mem_nil
  owners _ hr := absurd hr List.not_mem_nil
  used _ hr := absurd hr List.not_mem_nil
  logged _ hr := absurd hr List.not_mem_nil
  settings := .nil

variable (h : t.Integral hashKey keyPrefix)
include h

/-- A new user. -/
theorem insertUser {u : User} (hnew : t.userByUsername u.username = none) :
    Integral hashKey keyPrefix { t with users := t.users.insert u } ∧
    t.Extends { t with users := t.users.insert u } := by
  have hgrows := Table.Grows.insert User.Kept.refl t.users u
  refine ⟨{ h with usernames := ?_, owners := fun r hr => ?_ },
    { Extends.refl t with users := hgrows }⟩
  · rw [Table.map_insert (f := User.username)]
    refine List.Nodup.append h.usernames (List.nodup_singleton _) (List.disjoint_singleton.mpr ?_)
    exact Table.not_mem_column_of_find? hnew
  · obtain ⟨owner, howner⟩ := Option.isSome_iff_exists.mp (h.owners r hr)
    obtain ⟨owner', howner', -⟩ := hgrows.kept _ owner howner
    exact Option.isSome_iff_exists.mpr ⟨owner', howner'⟩

/-- Users who are enabled or disabled. -/
theorem setUsers (p : Row User → Bool) (enabled : Bool) :
    let t' : Tables := { t with users := t.users.update p fun u => { u with enabled } }
    t'.Integral hashKey keyPrefix ∧ t.Extends t' := by
  have hgrows := Table.Grows.update User.Kept.refl t.users p (f := fun u => { u with enabled })
    fun _ _ => rfl
  refine ⟨{ h with usernames := ?_, owners := fun r hr => ?_ },
    { Extends.refl t with users := hgrows }⟩
  · rw [Table.map_update (g := fun u => { u with enabled }) (f := User.username) t.users p fun _ =>
      rfl]
    exact h.usernames
  · rw [Table.get?_update, Option.isSome_map]
    exact h.owners r hr

/-- A new key. -/
theorem insertApiKey {k : ApiKey} (hnew : t.keyByHash k.keyHash = none)
    (hissued : k.Issued hashKey keyPrefix) (howner : (t.users.get? k.userId).isSome)
    (hused : k.tokenUsed = .int 0) :
    Integral hashKey keyPrefix { t with apiKeys := t.apiKeys.insert k } ∧
      t.Extends { t with apiKeys := t.apiKeys.insert k } := by
  have hext : t.Extends { t with apiKeys := t.apiKeys.insert k } :=
    { Extends.refl t with apiKeys := .insert ApiKey.Kept.refl t.apiKeys k }
  refine ⟨{ h with hashes := ?_, issued := ?_, owners := ?_, used := ?_, logged := ?_ }, hext⟩
  · rw [Table.map_insert (f := ApiKey.keyHash)]
    refine List.Nodup.append h.hashes (List.nodup_singleton _) (List.disjoint_singleton.mpr ?_)
    exact Table.not_mem_column_of_find? hnew
  · exact Table.forall_insert h.issued hissued
  · exact Table.forall_insert h.owners howner
  · refine Table.forall_insert h.used ?_
    rw [hused]
    exact ⟨rfl, 0, le_rfl, rfl, le_rfl, by norm_num⟩
  · exact fun r hr => (h.logged r hr).mono hext

/-- Keys that change as they may. -/
theorem setKeys (p : Row ApiKey → Bool) {f : ApiKey → ApiKey}
    (hfixed : ∀ k : ApiKey, f k = { k with
      enabled := (f k).enabled
      rpmLimit := (f k).rpmLimit
      tokenLimit := (f k).tokenLimit
      tokenUsed := (f k).tokenUsed
      lastUsedAt := (f k).lastUsedAt })
    (hused : ∀ k : ApiKey, k.tokenUsed.Used → k.tokenUsed.value ≤ (f k).tokenUsed.value ∧
      (f k).tokenUsed.Used) :
    Integral hashKey keyPrefix { t with apiKeys := t.apiKeys.update p f } ∧
      t.Extends { t with apiKeys := t.apiKeys.update p f } := by
  have hkept : ∀ r ∈ t.apiKeys.rows, r.val.Kept (f r.val) :=
    fun r hr => ⟨hfixed _, (hused _ (h.used r hr)).1⟩
  have hext : t.Extends { t with apiKeys := t.apiKeys.update p f } :=
    { Extends.refl t with apiKeys := .update ApiKey.Kept.refl t.apiKeys p hkept }
  refine ⟨{ h with hashes := ?_, issued := ?_, owners := ?_, used := ?_, logged := ?_ }, hext⟩
  · rw [Table.map_update (f := ApiKey.keyHash) t.apiKeys p fun k => by rw [hfixed k]]
    exact h.hashes
  · refine Table.forall_update h.issued p fun r _ hr => ?_
    obtain ⟨full, hpfx, hshown, hhash⟩ := hr
    exact ⟨full, hpfx, by rw [← hshown, hfixed r.val], by rw [← hhash, hfixed r.val]⟩
  · refine Table.forall_update h.owners p fun r hmem hr => ?_
    rw [(hkept r hmem).owner]
    exact hr
  · exact Table.forall_update h.used p fun r _ hr => (hused r.val hr).2
  · exact fun r hr => (h.logged r hr).mono hext

/-- A row of the log. -/
theorem insertRequestLog {row : LogRow} (ha : t.Attributed row) :
    Integral hashKey keyPrefix { t with requestLogs := t.requestLogs.insert row } ∧
      t.Extends { t with requestLogs := t.requestLogs.insert row } :=
  ⟨{ h with logged := Table.forall_insert h.logged ha },
    { Extends.refl t with requestLogs := List.prefix_append _ _ }⟩

/-- A setting that is written. -/
theorem upsertSetting (key value : Str) :
    let t' : Tables := { t with settings := (key, value) :: t.settings.filter (·.1 ≠ key) }
    t'.Integral hashKey keyPrefix ∧ t.Extends t' := by
  refine ⟨{ h with settings := ?_ }, { Extends.refl t with settings := fun k hk => ?_ }⟩
  · rw [List.map_cons, List.nodup_cons]
    refine ⟨?_, h.settings.sublist (List.filter_sublist.map _)⟩
    rw [List.mem_map]
    rintro ⟨item, hitem, rfl⟩
    exact absurd rfl (of_decide_eq_true (List.mem_filter.mp hitem).2)
  · rw [List.map_cons, List.mem_cons]
    obtain ⟨item, hitem, rfl⟩ := List.mem_map.mp hk
    by_cases heq : item.1 = key
    · exact .inl heq
    · exact .inr (List.mem_map.mpr ⟨item, List.mem_filter.mpr ⟨hitem, decide_eq_true heq⟩, rfl⟩)

end Tables.Integral

/-- What is bound is of the user and the key of its record. -/
theorem RequestLog.bind_ids {record : RequestLog Json} (h : record.bind = .ok values) :
    values.userId = record.userId ∧ values.apiKeyId = record.apiKeyId := by
  unfold RequestLog.bind at h
  iterate 9 obtain ⟨_, -, h⟩ := Except.bind_eq_ok h
  cases h
  exact ⟨rfl, rfl⟩

/-- **One write**: the tables stay integral, and nothing in them is lost. -/
theorem Dml.Sound.run (t : Tables) (d : Dml) (cursor : Cursor) (t' : Tables)
    (h : t.Integral hashKey keyPrefix) (hd : d.Sound hashKey keyPrefix t)
    (hbind : d.bind t = .ok ()) (hrun : d.run t = .ok (cursor, t')) :
    t'.Integral hashKey keyPrefix ∧ t.Extends t' := by
  have hsame {f : ApiKey → ApiKey} (hf : ∀ k, (f k).tokenUsed = k.tokenUsed) (k : ApiKey)
      (hk : k.tokenUsed.Used) :
      k.tokenUsed.value ≤ (f k).tokenUsed.value ∧ (f k).tokenUsed.Used := by
    rw [hf k]
    exact ⟨le_rfl, hk⟩
  cases d with
  | insertUser =>
    simp only [Dml.run] at hrun
    split at hrun <;> cases hrun
    exact h.insertUser (Option.not_isSome_iff_eq_none.mp ‹_›)
  | setUserEnabled | setUserEnabledById =>
    cases hrun
    exact h.setUsers _ _
  | insertApiKey =>
    simp only [Dml.run] at hrun
    split at hrun <;> cases hrun
    rename_i hfree
    obtain ⟨hhash, howner⟩ := not_or.mp hfree
    refine h.insertApiKey (Option.not_isSome_iff_eq_none.mp hhash) hd ?_ rfl
    obtain ⟨owner, howner⟩ := Option.ne_none_iff_exists'.mp fun hnone =>
      howner (Option.isNone_iff_eq_none.mpr hnone)
    obtain ⟨id, hid, hget⟩ := Option.bind_eq_some_iff.mp howner
    unfold Tables.rowId at hid
    split at hid <;> cases hid
    exact Option.isSome_iff_exists.mpr ⟨owner, hget⟩
  | setKeyEnabledById | setKeyLimitsById | touchLastUsed =>
    cases hrun
    exact h.setKeys _ (fun _ => rfl) (hsame fun _ => rfl)
  | addTokenUsed n keyId =>
    cases hrun
    have hfits : fits64 n = true := by
      simp only [Dml.bind, bindInt] at hbind
      cases hf : fits64 n with
      | true => rfl
      | false => rw [hf] at hbind; cases hbind
    have hpos : 0 < n := hd
    refine h.setKeys _ (fun _ => rfl) fun k hk => ?_
    obtain ⟨hstored, s, hs, hc⟩ := hk
    obtain ⟨hle, hstored'⟩ := hc.le_addInt hstored hpos hfits
    exact ⟨hle, hstored', s + n, by omega, hc.addInt hpos hfits⟩
  | insertRequestLog record =>
    simp only [Dml.run] at hrun
    split at hrun <;> cases hrun
    rename_i values hvalues
    obtain ⟨huser, hkey⟩ := RequestLog.bind_ids hvalues
    apply h.insertRequestLog
    refine ⟨record.apiKeyId, record.userId, ?_, ?_, hd⟩
    · rw [← hkey]
      rfl
    · rw [← huser]
      rfl
  | upsertSetting =>
    cases hrun
    exact h.upsertSetting _ _

/-- The discipline of the gateway's writes. -/
def integrity (hashKey : Str → Str) (keyPrefix : Str) : Discipline where
  Good := Tables.Integral hashKey keyPrefix
  Extends := Tables.Extends
  Allowed := fun t d => d.Sound hashKey keyPrefix t
  refl := Tables.Extends.refl
  trans := Tables.Extends.trans
  run := Dml.Sound.run

end EasyModelGate
