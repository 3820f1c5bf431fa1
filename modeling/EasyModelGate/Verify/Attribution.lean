import EasyModelGate.Verify.Durability
import EasyModelGate.Verify.Rollup

/-! # Whose usage it is

The log has no foreign keys, and the usage of a user and that of a key are filtered by different
columns of it. That the usage of a user is that of the user's keys is a property of the rows that
the gateway writes. -/

namespace EasyModelGate

/-! ## Sums by group -/

theorem sum_single {κ M : Type*} [DecidableEq κ] [AddCommMonoid M] {ks : List κ} (hks : ks.Nodup)
    {k : κ} (hk : k ∈ ks) (m : M) : (ks.map fun k' => if k = k' then m else 0).sum = m := by
  induction ks with
  | nil => exact absurd hk List.not_mem_nil
  | cons k' ks ih =>
    rw [List.map_cons, List.sum_cons]
    obtain ⟨hnew, hks⟩ := List.nodup_cons.mp hks
    by_cases heq : k = k'
    · subst heq
      have hrest : (ks.map fun k' => if k = k' then m else 0).sum = 0 := by
        refine List.sum_eq_zero fun x hx => ?_
        obtain ⟨k', hk', rfl⟩ := List.mem_map.mp hx
        refine if_neg fun heq => hnew ?_
        rwa [heq]
      rw [if_pos rfl, hrest, add_zero]
    · rw [ih hks ((List.mem_cons.mp hk).resolve_left heq), if_neg heq, zero_add]

/-- A sum is the sum of its groups. -/
theorem sum_groups {α κ M : Type*} [DecidableEq κ] [AddCommMonoid M] {ks : List κ} (hks : ks.Nodup)
    (key : α → κ) (w : α → M) {xs : List α} (h : ∀ x ∈ xs, key x ∈ ks) :
    (ks.map fun k => ((xs.filter fun x => key x = k).map w).sum).sum = (xs.map w).sum := by
  induction xs with
  | nil =>
    refine List.sum_eq_zero fun x hx => ?_
    obtain ⟨k, -, rfl⟩ := List.mem_map.mp hx
    rfl
  | cons x xs ih =>
    obtain ⟨hx, hxs⟩ := List.forall_mem_cons.mp h
    have hsplit (k : κ) : (((x :: xs).filter fun x => key x = k).map w).sum =
        (if key x = k then w x else 0) + ((xs.filter fun x => key x = k).map w).sum := by
      by_cases hk : key x = k <;> simp [hk]
    rw [List.map_congr_left fun k _ => hsplit k, List.sum_map_add, sum_single hks hx, ih hxs,
      List.map_cons, List.sum_cons]

namespace Table

theorem nodup_ids {α : Type} (t : Table α) : (t.rows.map Row.id).Nodup :=
  (List.pairwise_map.mpr t.ordered).imp Nat.ne_of_lt

end Table

/-! ## The filters -/

namespace Analytics

/-- A filter by neither user nor key, with a user. -/
def ofUser (f : SummaryFilter) (userId : Nat) : SummaryFilter := { f with userId := some userId }
def ofKey (f : SummaryFilter) (keyId : Nat) : SummaryFilter := { f with apiKeyId := some keyId }

theorem accepts_ofUser {f : SummaryFilter} (hf : f.userId = none) (u : Nat) (rl : LogRow) :
    (ofUser f u).conditions.accepts rl =
      (f.conditions.accepts rl && decide (rl.userId = some (u : Int))) := by
  simp only [ofUser, SummaryFilter.conditions, LogFilter.accepts, hf]
  change (_ && _ && _ && decide (rl.userId = some (u : Int)) && _ && _ && _ && _) =
    (_ && _ && _ && true && _ && _ && _ && _ && _)
  rw [Bool.and_true]
  ac_rfl

theorem accepts_ofKey {f : SummaryFilter} (hf : f.apiKeyId = none) (k : Nat) (rl : LogRow) :
    (ofKey f k).conditions.accepts rl =
      (f.conditions.accepts rl && decide (rl.apiKeyId = some (k : Int))) := by
  simp only [ofKey, SummaryFilter.conditions, LogFilter.accepts, hf]
  change (_ && _ && _ && _ && decide (rl.apiKeyId = some (k : Int)) && _ && _ && _) =
    (_ && _ && _ && _ && true && _ && _ && _ && _)
  rw [Bool.and_true]
  ac_rfl

/-- The additive metrics of the TOTAL row. -/
def totalOf? (z : ZoneInfo) (conn : Conn) (f : SummaryFilter) : Option Additive :=
  (summaryOf z conn f).toOption.bind fun out => out.getLast?.map (·.2.additive)

/-- What a filter of rows adds up. -/
def sumOf (t : Tables) (p : LogRow → Bool) : Additive :=
  ((t.requestLogs.rows.filter fun row => p row.val).map fun row => rowAdditive row.val).sum

theorem sumOf_congr {t : Tables} {p q : LogRow → Bool}
    (h : ∀ row ∈ t.requestLogs.rows, p row.val = q row.val) : sumOf t p = sumOf t q := by
  unfold sumOf
  rw [List.filter_congr h]

theorem of_totalOf? {z : ZoneInfo} {conn : Conn} {f : SummaryFilter} {a : Additive}
    (h : totalOf? z conn f = some a) :
    a = sumOf conn.view f.conditions.accepts := by
  obtain ⟨out, hout, hlast⟩ := Option.bind_eq_some_iff.mp h
  cases hsummary : summaryOf z conn f with
  | error e => rw [hsummary] at hout; cases hout
  | ok out' =>
    rw [hsummary] at hout
    cases hout
    obtain ⟨total, htotal, hsum⟩ := total_of_summary hsummary
    rw [htotal] at hlast
    exact (Option.some.inj hlast).symm.trans hsum

/-- The rows that a further condition splits by the number in a column. -/
theorem sumOf_groups {ids : List Nat} (hids : ids.Nodup) (column : LogRow → Option Int) (t : Tables)
    (p : LogRow → Bool) (h : ∀ row ∈ t.requestLogs.rows, p row.val = true →
      ∃ id ∈ ids, column row.val = some (id : Int)) :
    sumOf t p = (ids.map fun id : Nat => sumOf t fun rl =>
        p rl && decide (column rl = some (id : Int))).sum := by
  have hks : (ids.map fun id : Nat => some (id : Int)).Nodup :=
    hids.map fun _ _ heq => Int.ofNat_inj.mp (Option.some.inj heq)
  have hmem (row : Row LogRow) (hrow : row ∈ t.requestLogs.rows.filter fun row => p row.val) :
      column row.val ∈ ids.map fun id : Nat => some (id : Int) := by
    obtain ⟨id, hid, hcolumn⟩ := h row (List.mem_filter.mp hrow).1 (List.mem_filter.mp hrow).2
    exact List.mem_map.mpr ⟨id, hid, hcolumn.symm⟩
  have hsum := sum_groups hks (fun row : Row LogRow => column row.val)
    (fun row => rowAdditive row.val) hmem
  unfold sumOf
  rw [← hsum, List.map_map]
  refine congrArg List.sum (List.map_congr_left fun id _ => ?_)
  rw [Function.comp_apply, List.filter_filter]
  simp only [Bool.and_comm]

/-- The usage of a user is that of the user's keys, and the usage of all is that of every user. -/
structure Attributed (z : ZoneInfo) (conn : Conn) (f : SummaryFilter) : Prop where
  byKey : ∀ u usage (usageOf : Nat → Additive), totalOf? z conn (ofUser f u) = some usage →
    (∀ key ∈ conn.view.apiKeys.rows, key.val.userId = u →
      totalOf? z conn (ofKey f key.id) = some (usageOf key.id)) →
    usage = ((conn.view.apiKeys.rows.filter (·.val.userId = u)).map fun key => usageOf key.id).sum
  byUser : ∀ usage (usageOf : Nat → Additive), totalOf? z conn f = some usage →
    (∀ user ∈ conn.view.users.rows, totalOf? z conn (ofUser f user.id) = some (usageOf user.id)) →
    usage = (conn.view.users.rows.map fun user => usageOf user.id).sum

theorem Attributed.of_integral {z : ZoneInfo} {conn : Conn} {f : SummaryFilter}
    (hu : f.userId = none) (hk : f.apiKeyId = none) (h : conn.view.Integral hashKey keyPrefix) :
    Attributed z conn f where
  byKey u usage usageOf husage hkeys := by
    have hks : (((conn.view.apiKeys.rows.filter (·.val.userId = u)).map Row.id)).Nodup :=
      conn.view.apiKeys.nodup_ids.sublist (List.filter_sublist.map _)
    have hmem : ∀ row ∈ conn.view.requestLogs.rows, (ofUser f u).conditions.accepts row.val = true →
        ∃ id ∈ (conn.view.apiKeys.rows.filter (·.val.userId = u)).map Row.id, row.val.apiKeyId =
        some (id : Int) := by
      intro row hrow haccepts
      rw [accepts_ofUser hu, Bool.and_eq_true] at haccepts
      obtain ⟨keyId, userId, hkeyId, huserId, key, hkey, howner⟩ := h.logged row hrow
      obtain ⟨hin, hid⟩ := Table.get?_eq_some.mp hkey
      have hsame : some (userId : Int) = some (u : Int) :=
        huserId.symm.trans (of_decide_eq_true haccepts.2)
      refine ⟨keyId, List.mem_map.mpr ⟨key, List.mem_filter.mpr ⟨hin, ?_⟩, hid⟩, hkeyId⟩
      exact decide_eq_true (howner.trans (Int.ofNat_inj.mp (Option.some.inj hsame)))
    rw [of_totalOf? husage, sumOf_groups hks (·.apiKeyId) _ _ hmem, List.map_map]
    refine congrArg List.sum (List.map_congr_left fun key hkey => ?_)
    obtain ⟨hin, howner⟩ := List.mem_filter.mp hkey
    have howner := of_decide_eq_true howner
    rw [of_totalOf? (hkeys key hin howner), Function.comp_apply]
    -- a row of the key is of the key's owner
    refine sumOf_congr fun row hrow => ?_
    rw [accepts_ofUser hu, accepts_ofKey hk, Bool.and_assoc]
    congr 1
    by_cases hid : row.val.apiKeyId = some (key.id : Int)
    · obtain ⟨keyId, userId, hkeyId, huserId, key', hkey', howner'⟩ := h.logged row hrow
      have hsame : keyId = key.id := Int.ofNat_inj.mp (Option.some.inj (hkeyId.symm.trans hid))
      rw [hsame, Table.get?_eq_some.mpr ⟨hin, rfl⟩] at hkey'
      cases hkey'
      rw [decide_eq_true hid, Bool.and_true, decide_eq_true]
      rw [huserId, ← howner', howner]
    · rw [decide_eq_false hid, Bool.and_false]
  byUser usage usageOf husage husers := by
    have hmem : ∀ row ∈ conn.view.requestLogs.rows, f.conditions.accepts row.val = true →
        ∃ id ∈ conn.view.users.rows.map Row.id, row.val.userId = some (id : Int) := by
      intro row hrow _
      obtain ⟨keyId, userId, -, huserId, key, hkey, howner⟩ := h.logged row hrow
      obtain ⟨user, huser⟩ :=
        Option.isSome_iff_exists.mp (h.owners key (Table.get?_eq_some.mp hkey).1)
      obtain ⟨hin, hid⟩ := Table.get?_eq_some.mp huser
      exact ⟨userId, List.mem_map.mpr ⟨user, hin, hid.trans howner⟩, huserId⟩
    rw [of_totalOf? husage, sumOf_groups conn.view.users.nodup_ids (·.userId) _ _ hmem,
      List.map_map]
    refine congrArg List.sum (List.map_congr_left fun user huser => ?_)
    rw [of_totalOf? (husers user huser)]
    exact congrArg (sumOf conn.view) (funext fun rl => (accepts_ofUser hu user.id rl).symm)

end Analytics

/-- **Usage is attributed as keys are owned**, in every state of the gateway: over any period and
for any model, the usage of a user is the usage of the user's keys, and the usage of all users is
all usage. -/
theorem System.usage_attributed (cfg : SystemConfig) (t₀ : Tables)
    (h₀ : t₀.Integral cfg.admin.hashKey cfg.admin.keyPrefix) (slots drawn : Nat)
    (ls : List Label) (s : System)
    (h : Run (System.step cfg) (System.init { durable := t₀ } slots drawn) ls s) (z : ZoneInfo)
    (f : SummaryFilter) (hu : f.userId = none) (hk : f.apiKeyId = none) :
    Analytics.Attributed z s.gateway.conn f := by
  obtain ⟨-, hsound⟩ := (Sound.init cfg h₀ slots drawn).run h
  exact .of_integral hu hk hsound.conn.view

/-- The usage of the user whose only key has been served. -/
theorem System.usage_attributed_served : ∃ s, Run (System.step Sample.system) (System.init {} 1 0)
    (Sample.issued ++ Sample.served) s ∧ s.gateway.conn.durable.requestLogs.rows.length = 1 ∧
    Analytics.Attributed Sample.shanghai s.gateway.conn {} := by
  obtain ⟨s, s', h, h', hlogged, -⟩ := Sample.exists_served
  exact ⟨s', h.append h', hlogged, usage_attributed _ _ .empty _ _ _ _ (h.append h') _ _ rfl rfl⟩

end EasyModelGate
