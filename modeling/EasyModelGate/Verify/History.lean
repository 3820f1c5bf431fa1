import EasyModelGate.Lifecycle
import EasyModelGate.Verify.Services

/-! # What the history of users and keys says

A key is good as long as neither it nor its owner has been switched off since it was issued, and it
has not expired. The tables say the same as the history (`History.Agrees`). -/

namespace EasyModelGate

namespace LifeEvent

def issued? : LifeEvent → Option IssuedKey
  | .keyCreated key => some key
  | _ => none

def named? (id : Nat) : LifeEvent → Option Str
  | .userCreated id' username => if id' = id then some username else none
  | _ => none

/-- It enables or disables the key. -/
def setsKey? (id : Nat) : LifeEvent → Option Bool
  | .keySet id' enabled => if id' = id then some enabled else none
  | _ => none

/-- It enables or disables the user. -/
def setsUser? (id : Nat) (username : Option Str) : LifeEvent → Option Bool
  | .userSet id' enabled => if id' = id then some enabled else none
  | .namedUserSet name enabled => if some name = username then some enabled else none
  | _ => none

/-- It sets the limits of the key. -/
def setsLimits? (id : Nat) : LifeEvent → Option (LimitUpdate × LimitUpdate)
  | .limitsSet id' rpm tokenLimit => if id' = id then some (rpm, tokenLimit) else none
  | _ => none

end LifeEvent

namespace History

variable (H : List LifeEvent)

def issued : List IssuedKey := H.filterMap LifeEvent.issued?

def username (id : Nat) : Option Str := (H.filterMap (LifeEvent.named? id)).head?

/-- The last enable or disable of the key, if any, was enable. -/
def keyEnabled (id : Nat) : Bool := ((H.filterMap (LifeEvent.setsKey? id)).getLast?).getD true

/-- The last enable or disable of the user, if any, was enable. -/
def userEnabled (id : Nat) : Bool :=
  ((H.filterMap (LifeEvent.setsUser? id (username H id))).getLast?).getD true

/-- The limits last set on the key. -/
def limits (key : IssuedKey) : Option Int × Option Int :=
  (H.filterMap (LifeEvent.setsLimits? key.id)).foldl
    (fun limits update => (update.1.apply limits.1, update.2.apply limits.2))
    (key.rpm, key.tokenLimit)

/-- The key is good at a time. -/
def Good (key : IssuedKey) (nowMs : Int) : Prop :=
  keyEnabled H key.id = true ∧ key.expiresAt.all (nowMs < ·) = true ∧ userEnabled H key.owner = true

end History

/-! ## A history with one more event -/

namespace History

variable {H : List LifeEvent} {e : LifeEvent}

theorem issued_concat : issued (H ++ [e]) = issued H ++ e.issued?.toList := by
  simp only [issued, List.filterMap_append]
  cases h : e.issued? <;> simp [h]

theorem username_concat (id : Nat) : username (H ++ [e]) id = (username H id).or (e.named? id) := by
  simp only [username, List.filterMap_append, List.head?_append]
  cases h : e.named? id <;> simp [h]

theorem keyEnabled_concat (id : Nat) :
    keyEnabled (H ++ [e]) id = (e.setsKey? id).getD (keyEnabled H id) := by
  simp only [keyEnabled, List.filterMap_append, List.getLast?_append]
  cases h : e.setsKey? id <;> simp [h]

theorem userEnabled_concat {id : Nat} (hname : username (H ++ [e]) id = username H id) :
    userEnabled (H ++ [e]) id = (e.setsUser? id (username H id)).getD (userEnabled H id) := by
  simp only [userEnabled, hname, List.filterMap_append, List.getLast?_append]
  cases h : e.setsUser? id (username H id) <;> simp [h]

theorem limits_concat (key : IssuedKey) : limits (H ++ [e]) key =
    match e.setsLimits? key.id with
    | some update => (update.1.apply (limits H key).1, update.2.apply (limits H key).2)
    | none => limits H key := by
  simp only [limits, List.filterMap_append, List.foldl_append]
  cases h : e.setsLimits? key.id <;> simp [h]

end History

/-! ## The tables and the history -/

/-- The event is about rows that are there. -/
def LifeEvent.Known (t : Tables) : LifeEvent → Prop
  | .userCreated id _ | .userSet id _ => id ≤ t.users.seq
  | .namedUserSet username _ => (t.userByUsername username).isSome
  | .keyCreated key => key.id ≤ t.apiKeys.seq
  | .keySet id _ | .limitsSet id .. => id ≤ t.apiKeys.seq

/-- What the row of an issued key holds. -/
structure IssuedKey.Row (hashKey : Str → Str) (H : List LifeEvent) (key : IssuedKey)
    (row : ApiKey) : Prop where
  keyHash : row.keyHash = hashKey key.full
  userId : row.userId = key.owner
  enabled : row.enabled = History.keyEnabled H key.id
  expiresAt : row.expiresAt = key.expiresAt
  limits : (row.rpmLimit, row.tokenLimit) = History.limits H key
  unused : row.tokenUsed = .int 0
  fits : limitsBind row.rpmLimit row.tokenLimit = true

/-- The tables say what the history says. -/
structure History.Agrees (hashKey : Str → Str) (H : List LifeEvent) (t : Tables) : Prop where
  keys : ∀ key ∈ issued H, ∃ row, t.apiKeys.get? key.id = some row ∧ key.Row hashKey H row.val
  rows : ∀ row ∈ t.apiKeys.rows, ∃ key ∈ issued H, key.id = row.id
  users : ∀ row ∈ t.users.rows, username H row.id = some row.val.username ∧
    row.val.enabled = userEnabled H row.id
  owners : ∀ key ∈ issued H, (t.users.get? key.owner).isSome
  known : ∀ e ∈ H, e.Known t

namespace History.Agrees

variable {hashKey : Str → Str} {H : List LifeEvent} {t : Tables}

theorem init : Agrees hashKey [] {} := by
  constructor <;> intro _ h <;> exact absurd h List.not_mem_nil

end History.Agrees

theorem IssuedKey.Row.frame {key : IssuedKey} {row : ApiKey} (h : key.Row hashKey H row)
    (hset : e.setsKey? key.id = none) (hlimits : e.setsLimits? key.id = none) :
    key.Row hashKey (H ++ [e]) row where
  keyHash := h.keyHash
  userId := h.userId
  enabled := by rw [History.keyEnabled_concat, hset]; exact h.enabled
  expiresAt := h.expiresAt
  limits := by rw [History.limits_concat, hlimits]; exact h.limits
  unused := h.unused
  fits := h.fits

theorem LifeEvent.Known.mono {t t' : Tables} {e : LifeEvent} (h : e.Known t)
    (husers : t.users.seq ≤ t'.users.seq) (hkeys : t.apiKeys.seq ≤ t'.apiKeys.seq)
    (hnames : ∀ name, (t.userByUsername name).isSome → (t'.userByUsername name).isSome) :
    e.Known t' := by
  cases e with
  | userCreated | userSet => exact le_trans h husers
  | namedUserSet => exact hnames _ h
  | keyCreated | keySet | limitsSet => exact le_trans h hkeys

namespace History.Agrees

theorem known_concat (t' : Tables) (h : Agrees hashKey H t) (he : e.Known t')
    (husers : t.users.seq ≤ t'.users.seq) (hkeys : t.apiKeys.seq ≤ t'.apiKeys.seq)
    (hnames : ∀ name, (t.userByUsername name).isSome → (t'.userByUsername name).isSome) :
    ∀ e' ∈ H ++ [e], e'.Known t' := by
  intro e' he'
  rcases List.mem_append.mp he' with he' | he'
  · exact (h.known e' he').mono husers hkeys hnames
  · rw [List.mem_singleton.mp he']
    exact he

/-- No event is about the next user. -/
theorem named_fresh (h : Agrees hashKey H t) :
    H.filterMap (LifeEvent.named? (t.users.seq + 1)) = [] := by
  rw [List.filterMap_eq_nil_iff]
  intro e he
  have hknown := h.known e he
  cases e with
  | userCreated id name =>
    refine if_neg fun hid => ?_
    exact absurd (hid ▸ hknown : t.users.seq + 1 ≤ t.users.seq) (Nat.not_succ_le_self _)
  | _ => rfl

/-- No event switches the next user, when the name is new. -/
theorem setsUser_fresh (h : Agrees hashKey H t) {name : Str}
    (hnone : t.userByUsername name = none) :
    H.filterMap (LifeEvent.setsUser? (t.users.seq + 1) (some name)) = [] := by
  rw [List.filterMap_eq_nil_iff]
  intro e he
  have hknown := h.known e he
  cases e with
  | userSet id b =>
    refine if_neg fun hid => ?_
    exact absurd (hid ▸ hknown : t.users.seq + 1 ≤ t.users.seq) (Nat.not_succ_le_self _)
  | namedUserSet name' b =>
    refine if_neg fun hname => ?_
    cases hname
    have hknown : (t.userByUsername name).isSome := hknown
    rw [hnone] at hknown
    cases hknown
  | _ => rfl

/-- No event is about the next key. -/
theorem key_fresh (h : Agrees hashKey H t) :
    H.filterMap (LifeEvent.setsKey? (t.apiKeys.seq + 1)) = [] ∧
    H.filterMap (LifeEvent.setsLimits? (t.apiKeys.seq + 1)) = [] := by
  have hsets (e) (he : e ∈ H) : e.setsKey? (t.apiKeys.seq + 1) = none ∧
      e.setsLimits? (t.apiKeys.seq + 1) = none := by
    have hknown := h.known e he
    cases e with
    | keySet id b =>
      have hle : id ≤ t.apiKeys.seq := hknown
      exact ⟨if_neg (by omega), rfl⟩
    | limitsSet id rpm tokenLimit =>
      have hle : id ≤ t.apiKeys.seq := hknown
      exact ⟨rfl, if_neg (by omega)⟩
    | _ => exact ⟨rfl, rfl⟩
  exact ⟨List.filterMap_eq_nil_iff.mpr fun e he => (hsets e he).1,
    List.filterMap_eq_nil_iff.mpr fun e he => (hsets e he).2⟩

/-- A new user has the next number and a name of its own, so no event is about it yet. -/
theorem addUser {u : User} (h : Agrees hashKey H t) (hnone : t.userByUsername u.username = none)
    (henabled : u.enabled = true) :
    Agrees hashKey (H ++ [.userCreated (t.users.seq + 1) u.username]) (t.addUser u) := by
  have hissued : issued (H ++ [.userCreated (t.users.seq + 1) u.username]) = issued H := by
    rw [issued_concat]
    exact List.append_nil _
  have hrow (row : Row User) (hrow : row ∈ t.users.rows) :
      username (H ++ [.userCreated (t.users.seq + 1) u.username]) row.id = username H row.id := by
    rw [username_concat, (h.users row hrow).1]
    rfl
  refine ⟨?_, ?_, ?_, ?_, h.known_concat (t.addUser u) le_rfl (Nat.le_succ _) le_rfl ?_⟩
  · rw [hissued]
    intro key hkey
    obtain ⟨row, hrow, hr⟩ := h.keys key hkey
    exact ⟨row, hrow, hr.frame rfl rfl⟩
  · rw [hissued]
    exact h.rows
  · intro row hmem
    rcases List.mem_append.mp hmem with hmem | hmem
    · rw [userEnabled_concat (hrow row hmem), hrow row hmem]
      exact h.users row hmem
    · rw [List.mem_singleton.mp hmem]
      have hname : username (H ++ [.userCreated (t.users.seq + 1) u.username]) (t.users.seq + 1) =
          some u.username := by
        rw [username_concat, username, h.named_fresh]
        simp [LifeEvent.named?]
      refine ⟨hname, ?_⟩
      rw [userEnabled, hname, List.filterMap_append, h.setsUser_fresh hnone, henabled]
      rfl
  · rw [hissued]
    intro key hkey
    obtain ⟨row, hget⟩ := Option.isSome_iff_exists.mp (h.owners key hkey)
    have hle := Table.id_le hget
    simp only [Tables.addUser, Table.get?_insert]
    rw [if_neg (by omega), hget]
    rfl
  · intro name hname
    simp only [Tables.userByUsername, Tables.addUser, Table.find?, Table.rows_insert,
      List.find?_append, Option.isSome_or] at hname ⊢
    rw [hname]
    rfl

/-- Switching the users that the event is about. -/
theorem setUsers {p : Row User → Bool} {b : Bool} (h : Agrees hashKey H t) (he : e.Known t)
    (hissued : e.issued? = none) (hnamed : ∀ id, e.named? id = none)
    (hkey : ∀ id, e.setsKey? id = none ∧ e.setsLimits? id = none)
    (hsets : ∀ row ∈ t.users.rows, e.setsUser? row.id (some row.val.username) = if p row then
      some b else none) :
    Agrees hashKey (H ++ [e]) (t.setUsers p b) := by
  have hissued : issued (H ++ [e]) = issued H := by
    rw [issued_concat, hissued]
    exact List.append_nil _
  have hname (id : Nat) : username (H ++ [e]) id = username H id := by
    rw [username_concat, hnamed, Option.or_none]
  have hnames (name : Str) (hsome : (t.userByUsername name).isSome) :
      ((t.setUsers p b).userByUsername name).isSome := by
    simp only [Tables.userByUsername, Table.find?, List.find?_isSome] at hsome ⊢
    obtain ⟨row, hmem, hrow⟩ := hsome
    refine ⟨_, List.mem_map_of_mem hmem, ?_⟩
    split <;> exact hrow
  refine ⟨?_, ?_, ?_, ?_, h.known_concat _ ?_ le_rfl le_rfl hnames⟩
  · rw [hissued]
    intro key hmem
    obtain ⟨row, hrow, hr⟩ := h.keys key hmem
    exact ⟨row, hrow, hr.frame (hkey key.id).1 (hkey key.id).2⟩
  · rw [hissued]
    exact h.rows
  · intro row' hmem'
    obtain ⟨row, hmem, rfl⟩ := List.mem_map.mp hmem'
    obtain ⟨hu, henabled⟩ := h.users row hmem
    have hrow : (if p row then (⟨row.id, { row.val with enabled := b }⟩ : Row User)
      else row).id = row.id := by
      split <;> rfl
    rw [hrow, hname, userEnabled_concat (hname row.id), hu, hsets row hmem]
    cases hp : p row with
    | true => exact ⟨rfl, rfl⟩
    | false => exact ⟨rfl, henabled⟩
  · rw [hissued]
    intro key hmem
    simp only [Tables.setUsers, Table.get?_update, Option.isSome_map]
    exact h.owners key hmem
  · exact he.mono le_rfl le_rfl hnames

/-- What is not about users leaves them as they are. -/
theorem users_frame {t' : Tables} (h : Agrees hashKey H t) (ht : t'.users = t.users)
    (hnamed : ∀ id, e.named? id = none) (hsets : ∀ id name, e.setsUser? id name = none) :
    ∀ row ∈ t'.users.rows, username (H ++ [e]) row.id = some row.val.username ∧
      row.val.enabled = userEnabled (H ++ [e]) row.id := by
  intro row hmem
  rw [ht] at hmem
  have hname : username (H ++ [e]) row.id = username H row.id := by
    rw [username_concat, hnamed, Option.or_none]
  rw [userEnabled_concat hname, hname, hsets]
  exact h.users row hmem

theorem addKey {key : IssuedKey} {row : ApiKey} (h : Agrees hashKey H t)
    (hid : key.id = t.apiKeys.seq + 1) (hhash : row.keyHash = hashKey key.full)
    (huser : row.userId = key.owner) (henabled : row.enabled = true)
    (hexpires : row.expiresAt = key.expiresAt) (hrpm : row.rpmLimit = key.rpm)
    (htok : row.tokenLimit = key.tokenLimit) (hunused : row.tokenUsed = .int 0)
    (hfits : limitsBind row.rpmLimit row.tokenLimit = true)
    (howner : (t.users.get? key.owner).isSome) :
    Agrees hashKey (H ++ [.keyCreated key]) (t.addKey row) := by
  have hissued : issued (H ++ [.keyCreated key]) = issued H ++ [key] := issued_concat
  have hold (k : IssuedKey) (hk : k ∈ issued H) : ∃ r, (t.addKey row).apiKeys.get? k.id = some r ∧
      k.Row hashKey (H ++ [.keyCreated key]) r.val := by
    obtain ⟨r, hget, hr⟩ := h.keys k hk
    have hle := Table.id_le hget
    refine ⟨r, ?_, hr.frame rfl rfl⟩
    simp only [Tables.addKey, Table.get?_insert]
    rw [if_neg (by omega), hget]
  obtain ⟨hkey, hlimits⟩ := h.key_fresh
  rw [← hid] at hkey hlimits
  refine ⟨?_, ?_, h.users_frame rfl (fun _ => rfl) (fun _ _ => rfl), ?_,
    h.known_concat (t.addKey row) hid.le le_rfl (Nat.le_succ _) fun _ => id⟩
  · rw [hissued]
    intro k hk
    rcases List.mem_append.mp hk with hk | hk
    · exact hold k hk
    · rw [List.mem_singleton.mp hk]
      refine ⟨⟨key.id, row⟩, ?_, hhash, huser, ?_, hexpires, ?_, hunused, hfits⟩
      · simp only [Tables.addKey, Table.get?_insert, hid, if_pos]
      · rw [keyEnabled_concat, keyEnabled, hkey]
        exact henabled
      · rw [limits_concat, limits, hlimits, hrpm, htok]
        rfl
  · rw [hissued]
    intro r hr
    rcases List.mem_append.mp hr with hr | hr
    · obtain ⟨k, hk, hkid⟩ := h.rows r hr
      exact ⟨k, List.mem_append_left _ hk, hkid⟩
    · rw [List.mem_singleton.mp hr]
      exact ⟨key, List.mem_append_right _ (List.mem_singleton_self key), hid⟩
  · rw [hissued]
    intro k hk
    rcases List.mem_append.mp hk with hk | hk
    · exact h.owners k hk
    · rw [List.mem_singleton.mp hk]
      exact howner

/-- The rows of the keys, after a change of one. -/
theorem rows_setKey (h : Agrees hashKey H t) (id : Nat) (f : ApiKey → ApiKey) :
    ∀ r ∈ (t.setKey id f).apiKeys.rows, ∃ k ∈ issued H, k.id = r.id := by
  intro r' hr'
  obtain ⟨r, hr, rfl⟩ := List.mem_map.mp hr'
  obtain ⟨k, hk, hkid⟩ := h.rows r hr
  refine ⟨k, hk, ?_⟩
  split <;> exact hkid

/-- A change of the key that the event is about. -/
theorem setKey {row : EasyModelGate.Row ApiKey} {f : ApiKey → ApiKey} (h : Agrees hashKey H t)
    (hrow : t.apiKeys.get? row.id = some row) (he : e.Known t)
    (hissued : e.issued? = none) (hnamed : ∀ id, e.named? id = none)
    (hsets : ∀ id name, e.setsUser? id name = none)
    (hother : ∀ id, id ≠ row.id → e.setsKey? id = none ∧ e.setsLimits? id = none)
    (hself : ∀ key : IssuedKey, key.id = row.id → key.Row hashKey H row.val →
      key.Row hashKey (H ++ [e]) (f row.val)) :
    Agrees hashKey (H ++ [e]) (t.setKey row.id f) := by
  have hissued : issued (H ++ [e]) = issued H := by
    rw [issued_concat, hissued]
    exact List.append_nil _
  refine ⟨?_, ?_, h.users_frame rfl hnamed hsets, ?_, h.known_concat _ ?_ le_rfl le_rfl fun _ => id⟩
  · rw [hissued]
    intro key hkey
    obtain ⟨r, hget, hr⟩ := h.keys key hkey
    simp only [Tables.setKey, Table.get?_update_id]
    by_cases hid : key.id = row.id
    · rw [hid] at hget
      cases hrow.symm.trans hget
      rw [if_pos hid, hid, hrow]
      exact ⟨_, rfl, hself key hid hr⟩
    · rw [if_neg hid]
      exact ⟨r, hget, hr.frame (hother _ hid).1 (hother _ hid).2⟩
  · rw [hissued]
    exact h.rows_setKey row.id f
  · rw [hissued]
    exact h.owners
  · exact he.mono le_rfl le_rfl fun _ => id

theorem switchKey {row : EasyModelGate.Row ApiKey} (h : Agrees hashKey H t)
    (hrow : t.apiKeys.get? row.id = some row) (enabled : Bool) :
    Agrees hashKey (H ++ [.keySet row.id enabled])
      (t.setKey row.id fun k => { k with enabled }) := by
  refine h.setKey (e := .keySet row.id enabled) hrow (Table.id_le hrow) rfl (fun _ => rfl)
    (fun _ _ => rfl) ?_ ?_
  · exact fun id hid => ⟨if_neg hid.symm, rfl⟩
  · intro key hid hr
    refine ⟨hr.keyHash, hr.userId, ?_, hr.expiresAt, ?_, hr.unused, hr.fits⟩
    · rw [keyEnabled_concat, LifeEvent.setsKey?, if_pos hid.symm]
      rfl
    · rw [limits_concat]
      exact hr.limits

theorem limitKey {row : EasyModelGate.Row ApiKey} {rpm tokenLimit : LimitUpdate}
    (h : Agrees hashKey H t) (hrow : t.apiKeys.get? row.id = some row)
    (hfits : limitsBind (rpm.apply row.val.rpmLimit) (tokenLimit.apply row.val.tokenLimit) = true) :
    Agrees hashKey (H ++ [.limitsSet row.id rpm tokenLimit]) (t.setKey row.id fun k => { k with
      rpmLimit := rpm.apply row.val.rpmLimit
      tokenLimit := tokenLimit.apply row.val.tokenLimit }) := by
  refine h.setKey (e := .limitsSet row.id rpm tokenLimit) hrow (Table.id_le hrow) rfl (fun _ => rfl)
    (fun _ _ => rfl) ?_ ?_
  · exact fun id hid => ⟨rfl, if_neg hid.symm⟩
  · intro key hid hr
    refine ⟨hr.keyHash, hr.userId, ?_, hr.expiresAt, ?_, hr.unused, hfits⟩
    · rw [keyEnabled_concat]
      exact hr.enabled
    · rw [limits_concat, LifeEvent.setsLimits?, if_pos hid.symm, ← hr.limits]

/-- `touch_last_used` is no event. -/
theorem touch (h : Agrees hashKey H t) (id : Nat) (lastUsedAt : Option Int) :
    Agrees hashKey H (t.setKey id fun k => { k with lastUsedAt }) := by
  refine ⟨fun key hkey => ?_, h.rows_setKey id _, h.users, h.owners, fun e he =>
    (h.known e he).mono le_rfl le_rfl fun _ hname => hname⟩
  obtain ⟨r, hget, hr⟩ := h.keys key hkey
  simp only [Tables.setKey, Table.get?_update_id]
  split
  · rw [hget]
    exact ⟨_, rfl, hr.keyHash, hr.userId, hr.enabled, hr.expiresAt, hr.limits, hr.unused, hr.fits⟩
  · exact ⟨r, hget, hr⟩

end History.Agrees

end EasyModelGate
