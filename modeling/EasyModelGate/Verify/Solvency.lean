import EasyModelGate.Verify.Books
import EasyModelGate.Verify.Durability

/-! # No key is charged beyond its log

`persist_request_log` inserts its row before it charges the key, and between the two statements
anything may happen: other tasks commit, the write is refused, the transaction goes stale, another
process commits. A charge may get lost so, but there is never one for which the log holds
nothing. -/

namespace EasyModelGate

/-! ## The property -/

/-- At most `b`. A sum that has left 64 bits is a float from there on. -/
def SqlNumber.AtMost (b : Int) : SqlNumber → Prop
  | .int m => 0 ≤ m ∧ m < 2 ^ 63 ∧ m ≤ b
  | .real x => x.AtLeast (2 ^ 63) ∧ 2 ^ 63 ≤ b

namespace Tables

/-- Every key has been charged for no more than what the log holds of it. -/
def Solvent (t : Tables) : Prop := ∀ k, (t.used k).AtMost (t.billed 0 k)

/-- The log holds as much more of every key as is still to be charged. -/
def Affords (owed : Nat → Int) (t : Tables) : Prop := ∀ k, (t.used k).AtMost (t.billed 0 k - owed k)

end Tables

/-! ## What a write does to the books -/

/-- It covers some sum that is at most `b`. -/
theorem SqlNumber.atMost_iff {x : SqlNumber} : x.AtMost b ↔ ∃ s ≤ b, x.Covers s := by
  cases x with
  | int m =>
    constructor
    · rintro ⟨h0, hlt, hm⟩
      exact ⟨m, hm, rfl, h0, hlt⟩
    · rintro ⟨_, hm, rfl, h0, hlt⟩
      exact ⟨h0, hlt, hm⟩
  | real x =>
    constructor
    · rintro ⟨hx, hb⟩
      exact ⟨b, le_rfl, hx, hb⟩
    · rintro ⟨s, hs, hx, h63⟩
      exact ⟨hx, h63.trans hs⟩

theorem SqlNumber.AtMost.mono {x : SqlNumber} (h : x.AtMost b) (hb : b ≤ b') : x.AtMost b' := by
  obtain ⟨s, hs, hx⟩ := atMost_iff.mp h
  exact atMost_iff.mpr ⟨s, hs.trans hb, hx⟩

/-- A charge. -/
theorem SqlNumber.AtMost.addInt {x : SqlNumber} (h : x.AtMost b) (hn : 0 < n)
    (hfits : fits64 n = true) :
    (x.addInt n).AtMost (b + n) := by
  obtain ⟨s, hs, hx⟩ := atMost_iff.mp h
  exact atMost_iff.mpr ⟨s + n, by omega, hx.addInt hn hfits⟩

namespace Tables

variable {t t' : Tables} {owed owed' : Nat → Int}

theorem SameBooks.affords (h : t.SameBooks t') (ht : t.Affords owed) : t'.Affords owed := by
  intro k
  rw [h.used, billed_eq h.requestLogs]
  exact ht k

theorem SameBooks.solvent (h : t.SameBooks t') (ht : t.Solvent) : t'.Solvent := by
  intro k
  rw [h.used, billed_eq h.requestLogs]
  exact ht k

theorem Affords.mono (h : t.Affords owed) (hle : ∀ k, owed' k ≤ owed k) : t.Affords owed' := by
  intro k
  apply (h k).mono
  have := hle k
  omega

theorem Affords.solvent (h : t.Affords owed) (hpos : ∀ k, 0 ≤ owed k) : t.Solvent := by
  intro k
  apply (h k).mono
  have := hpos k
  omega

end Tables

theorem SqlValue.positive_nonneg (v : SqlValue) : 0 ≤ v.positive := by
  cases v with
  | int n => exact le_max_right n 0
  | null | real | text => exact le_rfl

/-- As much is stored as is charged. -/
theorem tokenIncrement_le_stored {record : RequestLog Json}
    (hb : bindJson record.totalTokens = .ok x) :
    (tokenIncrement record).getD 0 ≤ (integerAffinity x).positive := by
  cases hn : tokenIncrement record with
  | none => exact SqlValue.positive_nonneg _
  | some n =>
    obtain ⟨hint, -⟩ := Option.filter_eq_some_iff.mp hn
    have hcounted : countedAsStored record.totalTokens = true := by
      unfold countedAsStored
      rw [hint]
      rfl
    rw [← hn, positive_of_countedAsStored hb hcounted]

/-- What is logged can be charged. -/
theorem Tables.Affords.log {t t' : Tables} {owed : Nat → Int} (h : t.Affords owed)
    {record : RequestLog Json}
    (hrun : (Dml.insertRequestLog record.clipped).run t = .ok (cursor, t')) :
    t'.Affords fun k => owed k + billedRecord record k := by
  intro k
  simp only [Dml.run] at hrun
  split at hrun <;> cases hrun
  rename_i values hbind
  obtain ⟨htotal, -, hkey, -⟩ := RequestLog.bind_eq_ok hbind
  have hkey : values.apiKeyId = record.apiKeyId := hkey
  have hstored : billedRecord record k ≤ Tables.billedRow k ⟨t.requestLogs.seq + 1,
        values.stored⟩ := by
    rw [Tables.billedRow_stored, hkey]
    unfold billedRecord
    split
    · exact tokenIncrement_le_stored htotal
    · exact le_rfl
  have hbilled : Tables.billed { t with requestLogs := t.requestLogs.insert values.stored } 0 k =
      t.billed 0 k + Tables.billedRow k ⟨t.requestLogs.seq + 1, values.stored⟩ := by
    unfold Tables.billed
    rw [Table.rows_insert, List.drop_zero, List.drop_zero, List.map_append, List.sum_append,
      List.map_singleton, List.sum_singleton]
  apply (h k).mono
  dsimp only
  rw [hbilled]
  omega

/-- What is charged could be charged. -/
theorem Tables.Affords.charge {t t' : Tables} {owed : Nat → Int} (h : t.Affords owed)
    (hpos : 0 < n) {k' : Nat} (hbind : (Dml.addTokenUsed n k').bind t = .ok ())
    (hrun : (Dml.addTokenUsed n k').run t = .ok (cursor, t')) :
    t'.Affords fun k => owed k - if k' = k then n else 0 := by
  have hfits : fits64 n = true := by
    by_contra hn
    simp [Dml.bind, bindInt, hn, bind, Except.bind] at hbind
  intro k
  rw [Dml.run, Except.ok.injEq] at hrun
  have hlogs : t'.billed 0 k = t.billed 0 k :=
    Tables.billed_eq (congrArg (·.2.requestLogs) hrun.symm) 0 k
  have hused : t'.tokenUsed k = if k = k' then (t.tokenUsed k).map (·.addInt n)
      else t.tokenUsed k := by
    have htables := congrArg Prod.snd hrun
    dsimp only at htables
    rw [← htables, Dml.updateKey_eq]
    simp only [Tables.tokenUsed, Table.get?_update_id]
    split
    · simp only [Option.map_map]
      rfl
    · rfl
  have hk := h k
  unfold Tables.used at hk ⊢
  dsimp only
  rw [hused, hlogs]
  by_cases hkk : k = k'
  · subst hkk
    rw [if_pos rfl, if_pos rfl]
    cases hrow : t.tokenUsed k with
    | none =>
      -- a key that is not there is not charged
      rw [hrow] at hk
      apply hk.mono
      omega
    | some used =>
      rw [hrow] at hk
      apply (hk.addInt hpos hfits).mono
      omega
  · rw [if_neg hkk, if_neg (Ne.symm hkk), sub_zero]
    exact hk

/-- What is durable is solvent, and what is seen affords what is still owed. -/
theorem Tables.kept_solvent {owed : Nat → Int} (hpos : ∀ k, 0 ≤ owed k) :
    Tables.Kept Tables.Solvent (Tables.Affords owed) where
  durable _ _ h ht := h.solvent ht
  view _ _ h ht := h.affords ht
  commit _ ht := ht.solvent hpos

/-! ## The tasks -/

/-- The task has inserted its row, and its charge is still to come. -/
def Task.owed (k : Nat) (t : Task) : Int :=
  if t.steps = 1 ∧ t.coro.ended = false then t.purpose.chargeTo k else 0

theorem Purpose.chargeTo_nonneg (k : Nat) (p : Purpose) : 0 ≤ p.chargeTo k := by
  cases p with
  | touch => exact le_rfl
  | log record keyId =>
    rcases Purpose.chargeTo_log record keyId k with ⟨-, hto⟩ | ⟨k', n, -, hpos, hto⟩ <;> rw [hto]
    split
    · exact hpos.le
    · exact le_rfl

theorem Task.owed_nonneg (k : Nat) (t : Task) : 0 ≤ t.owed k := by
  unfold owed
  split
  · exact t.purpose.chargeTo_nonneg k
  · exact le_rfl

theorem Task.owed_le (k : Nat) (t : Task) : t.owed k ≤ t.purpose.chargeTo k := by
  unfold owed
  split
  · exact le_rfl
  · exact t.purpose.chargeTo_nonneg k

/-- A task is charged what its row adds to the bill. -/
theorem Purpose.Keyed.chargeTo_eq {record : RequestLog Json} {keyId : Option Nat}
    (h : (Purpose.log record keyId).Keyed) (k : Nat) :
    (Purpose.log record keyId).chargeTo k = billedRecord record k := by
  unfold Purpose.chargeTo billedRecord
  rcases h with rfl | ⟨rfl, hnull⟩
  · simp only [Option.some.injEq]
  · simp [tokenIncrement, hnull, Json.asInt?]

/-- The charge of a task, and the key that it is of. -/
theorem Purpose.chargeTo_of_charge {record : RequestLog Json} {keyId : Option Nat} {id n : Int}
    (h : charge record (keyId.map fun (id : Nat) => (id : Int)) = some (id, n)) :
    ∃ k' : Nat, id = k' ∧ 0 < n ∧ ∀ k, (Purpose.log record keyId).chargeTo k = if k' = k then
      n else 0 := by
  have hcharge (k : Nat) : ∃ k' : Nat, id = k' ∧ 0 < n ∧
      (Purpose.log record keyId).chargeTo k = if k' = k then n else 0 := by
    rcases Purpose.chargeTo_log record keyId k with ⟨hnone, -⟩ | ⟨k', n', hsome, hpos, hto⟩
    · cases hnone.symm.trans h
    · cases hsome.symm.trans h
      exact ⟨k', rfl, hpos, hto⟩
  obtain ⟨k', rfl, hpos, -⟩ := hcharge 0
  refine ⟨k', rfl, hpos, fun k => ?_⟩
  obtain ⟨k'', heq, -, hto⟩ := hcharge k
  cases heq
  exact hto

/-- **One statement of a task**: it charges no more than it owed, and owes no more than it has
logged. -/
theorem Task.Moved.affords {t : Task} {c c' : Conn} {coro : Db Unit} {owed : Nat → Int}
    (h : t.Moved c coro c') (hkeyed : t.purpose.Keyed) (hlive : t.coro.ended = false)
    (hpos : ∀ k, 0 ≤ owed k) (hc : c.Books Tables.Solvent (Tables.Affords owed)) :
    c'.Books Tables.Solvent (Tables.Affords fun k =>
      owed k - t.owed k + Task.owed k { t with coro, steps := t.steps + 1 }) := by
  obtain ⟨purpose, coro₀, steps⟩ := t
  -- nothing is logged or charged, and nothing is owed any more
  have hquiet (h : c'.Books Tables.Solvent (Tables.Affords owed))
      (hnone : ∀ k, Task.owed k ⟨purpose, coro, steps + 1⟩ = 0) :
      c'.Books Tables.Solvent (Tables.Affords fun k =>
        owed k - Task.owed k ⟨purpose, coro₀, steps⟩ + Task.owed k ⟨purpose, coro, steps + 1⟩) := by
    refine h.mono (fun _ => id) fun _ ht => ht.mono fun k => ?_
    have := Task.owed_nonneg k ⟨purpose, coro₀, steps⟩
    rw [hnone]
    omega
  have hpast (hn : 0 < steps) (k : Nat) : Task.owed k ⟨purpose, coro, steps + 1⟩ = 0 :=
    if_neg fun h => absurd (Nat.succ.inj h.1) (Nat.ne_of_gt hn)
  cases h with
  | touched hp hs =>
    cases hp
    refine hquiet (hc.plain (Tables.kept_solvent hpos) hs) fun k => ?_
    simp [Task.owed, Purpose.chargeTo]
  | failed hp hn he => exact hquiet (hc.failed he) fun k => if_neg fun h => Bool.noConfusion h.2
  | committed hp hn => exact hquiet (hc.committed (Tables.kept_solvent hpos)) (hpast hn)
  | @inserted record keyId r coro hp hn hok =>
    cases hp
    cases hn
    refine (hc.ran hok fun _ _ _ hrun => hc.view.log hrun).mono (fun _ => id) fun _ ht =>
      ht.mono fun k => ?_
    have hle := Task.owed_le k ⟨.log record keyId, coro, 0 + 1⟩
    rw [hkeyed.chargeTo_eq k] at hle
    have hnone : Task.owed k ⟨.log record keyId, coro₀, 0⟩ = 0 := rfl
    dsimp only
    omega
  | @charged record keyId k' n r coro hp hn hcharge hok =>
    cases hp
    cases hn
    obtain ⟨k', rfl, hn, hto⟩ := Purpose.chargeTo_of_charge hcharge
    refine (hc.ran hok fun _ _ hbind hrun => hc.view.charge hn hbind hrun).mono (fun _ => id)
      fun _ ht => ht.mono fun k => ?_
    have howed : Task.owed k ⟨.log record keyId, coro₀, 1⟩ = if k' = k then n else 0 :=
      (if_pos ⟨rfl, hlive⟩).trans (hto k)
    rw [howed, hpast Nat.one_pos]
    omega

/-! ## The gateway -/

/-- A request that is being authenticated only reads. -/
def Request.Reads (r : Request) : Prop := ∀ c nowMs, r.phase = .authenticating c nowMs →
    Db.Writes (fun _ => False) c

theorem settleAuth_reads (r : Request) (nowMs : Int) {c : Db AuthContext}
    (hc : Db.Writes (fun _ => False) c) :
    (settleAuth r nowMs c).Reads := by
  intro c' nowMs' hp
  cases c with
  | ret | raise => cases hp
  | await =>
    cases hp
    exact hc

theorem Request.serve_reads (r : Request) (pc : Pc) (effects : List Effect) (took : Nat) :
    (r.serve pc effects took).Reads :=
  fun _ _ hp => nomatch hp

namespace Gateway

/-- What is still to be charged to key `k` of what has been logged. -/
def owed (g : Gateway) (k : Nat) : Int := (g.tasks.map (Task.owed k)).sum

structure Solvent (g : Gateway) : Prop where
  conn : g.conn.Books Tables.Solvent (Tables.Affords g.owed)
  tasks : ∀ task ∈ g.tasks, task.Scripted ∧ task.purpose.Keyed
  keyed : ∀ r ∈ g.requests, r.Keyed
  reads : ∀ r ∈ g.requests, r.Reads

variable {cfg : GatewayConfig} {g g' : Gateway}

theorem owed_nonneg (g : Gateway) (k : Nat) : 0 ≤ g.owed k := by
  apply List.sum_nonneg
  intro x hx
  obtain ⟨task, -, rfl⟩ := List.mem_map.mp hx
  exact task.owed_nonneg k

/-- Tasks that have just been spawned owe nothing. -/
theorem owed_spawned {new : List Purpose} (h : g'.tasks = g.tasks ++ new.map spawn) :
    g'.owed = g.owed := by
  funext k
  unfold owed
  rw [h, List.map_append, List.sum_append, List.map_map, show Task.owed k ∘ spawn = fun _ => 0 from
    rfl]
  simp

/-- A step that leaves the books alone. -/
theorem Solvent.quiet (h : g.Solvent) (new : List Purpose) (hnew : ∀ p ∈ new, p.Keyed)
    (htasks : g'.tasks = g.tasks ++ new.map spawn)
    (hconn : g'.conn.Books Tables.Solvent (Tables.Affords g.owed))
    (hkeyed : ∀ r ∈ g'.requests, r.Keyed) (hreads : ∀ r ∈ g'.requests, r.Reads) : g'.Solvent where
  conn := owed_spawned htasks ▸ hconn
  tasks task htask := by
    rw [htasks] at htask
    rcases List.mem_append.mp htask with htask | htask
    · exact h.tasks task htask
    · obtain ⟨p, hp, rfl⟩ := List.mem_map.mp htask
      exact ⟨spawn_scripted p, hnew p hp⟩
  keyed := hkeyed
  reads := hreads

/-- **One step of the chat requests.** -/
theorem Solvent.step (h : g.Solvent) (hstep : Gateway.step cfg g l = some g') : g'.Solvent := by
  have hserved (i : Nat) (r : Request) (pc : Pc) (effects : List Effect) (took : Nat) :
      ∀ x ∈ g.requests.set i (r.serve pc effects took), x.Reads :=
    forall_mem_set h.reads i (r.serve_reads pc effects took)
  have hkept {i : Nat} {r : Request} {pc : Pc} {effects : List Effect} {took : Nat}
      (hpc : pc.Keyed) :
      ∀ x ∈ g.requests.set i (r.serve pc effects took), x.Keyed := by
    apply forall_mem_set h.keyed i
    rintro pc' ⟨⟩
    exact hpc
  cases Stepped.of_step hstep with
  | @arrive req nowMs =>
    obtain ⟨new, hnew, hkeyed⟩ := authSpawned_keyed nowMs
      (requireAuth cfg.hashKey cfg.keyPrefix (Request.header req) nowMs)
    refine h.quiet new hkeyed (congrArg _ hnew) h.conn (fun r hr => ?_) fun r hr => ?_
    · rcases List.mem_append.mp hr with hr | hr
      · exact h.keyed r hr
      · rw [List.mem_singleton.mp hr]
        exact settleAuth_keyed _ _ _
    · rcases List.mem_append.mp hr with hr | hr
      · exact h.reads r hr
      · rw [List.mem_singleton.mp hr]
        exact settleAuth_reads _ _ (requireAuth_writes _ _ _ _)
  | @auth i r c nowMs c' conn hr hp hc =>
    obtain ⟨new, hnew, hkeyed⟩ := authSpawned_keyed nowMs c'
    obtain ⟨s, -, hs, rfl, hall⟩ :=
      Coro.All.advance (h.reads r (List.mem_of_getElem? hr) c nowMs hp) hc
    exact h.quiet new hkeyed (congrArg _ hnew)
      (h.conn.plain (Tables.kept_solvent g.owed_nonneg) (hs.mono fun _ hd => hd.elim))
      (forall_mem_set h.keyed i (settleAuth_keyed r nowMs c'))
      (forall_mem_set h.reads i (settleAuth_reads r nowMs hall))
  | cancelAuth =>
    exact h.quiet [] (fun _ hp => absurd hp List.not_mem_nil) rfl h.conn
      (hkept fun _ hf => nomatch hf) (hserved _ _ _ _ 0)
  | @body i r auth clk pc effects limiter hr hp ha =>
    obtain ⟨hpc, heffects⟩ := ha.keyed
    obtain ⟨new, hnew, hkeyed⟩ := spawned_keyed heffects
    exact h.quiet new hkeyed (congrArg _ hnew) h.conn (hkept hpc) (hserved i r pc effects 0)
  | @event i r pc clk ev pc' effects hr hp hres =>
    obtain ⟨hpc, heffects⟩ := hres.keyed (h.keyed r (List.mem_of_getElem? hr) pc hp)
    obtain ⟨new, hnew, hkeyed⟩ := spawned_keyed heffects
    exact h.quiet new hkeyed (congrArg _ hnew) h.conn (hkept hpc) (hserved i r pc' effects ev.takes)
  | @task j t coro conn ht hc =>
    obtain ⟨hscripted, hkeyed⟩ := h.tasks t (List.mem_of_getElem? ht)
    obtain ⟨hscripted', hlive, hmoved⟩ := hscripted.step hc
    refine ⟨(hmoved.affords hkeyed hlive g.owed_nonneg h.conn).mono (fun _ => id) fun _ ht' =>
      ht'.mono fun k => ?_, forall_mem_set h.tasks j ⟨hscripted', hkeyed⟩, h.keyed, h.reads⟩
    have hsum := sum_map_set (Task.owed k) ht { t with coro, steps := t.steps + 1 }
    unfold owed
    dsimp only
    omega

end Gateway

/-! ## The system -/

namespace System

variable {cfg : SystemConfig} {s s' : System}

structure Solvent (s : System) : Prop where
  gateway : s.gateway.Solvent
  beside : s.Beside Dml.Plain

/-- **One step of the whole gateway.** -/
theorem Solvent.step (h : s.Solvent) (hstep : System.step cfg s l = some s') : s'.Solvent := by
  have hbeside (hl : ∀ l', l ≠ .chat l') : s'.Solvent := by
    obtain ⟨hconn, hbeside, nowMs, c, hgateway⟩ :=
      h.beside.step (Conn.Books.stable (Tables.kept_solvent s.gateway.owed_nonneg))
      (serve_plain _)
      (Cli.Command.coro_plain _) h.gateway.conn hl hstep
    obtain ⟨new, hnew, hkeyed⟩ := Gateway.authSpawned_keyed nowMs c
    rw [hnew] at hgateway
    refine ⟨h.gateway.quiet new hkeyed (congrArg Gateway.tasks hgateway) hconn ?_ ?_, hbeside⟩
    · rw [hgateway]
      exact h.gateway.keyed
    · rw [hgateway]
      exact h.gateway.reads
  cases l with
  | chat l =>
    obtain ⟨g, hg, rfl⟩ := Option.map_eq_some_iff.mp hstep
    exact ⟨h.gateway.step hg, h.beside.models, h.beside.admin⟩
  | models | admin | cli => exact hbeside fun _ => by nofun

/-- **No key is charged beyond its log**: in every run from solvent tables on, whatever happens and
in whatever order, what is durable and what the gateway sees is such that every key has been charged
for at most what the log holds of it. -/
theorem never_overcharged (cfg : SystemConfig) (t₀ : Tables) (h₀ : t₀.Solvent) (slots drawn : Nat)
    (ls : List Label) (s : System)
    (h : Run (System.step cfg) (System.init { durable := t₀ } slots drawn) ls s) :
    s.gateway.conn.durable.Solvent ∧ s.gateway.conn.view.Solvent := by
  have hinit : (System.init { durable := t₀ } slots drawn).Solvent := by
    refine ⟨⟨⟨h₀, fun k => ?_, fun _ ht => nomatch ht⟩, fun _ ht => absurd ht List.not_mem_nil,
      fun _ hr => absurd hr List.not_mem_nil, fun _ hr => absurd hr List.not_mem_nil⟩,
      .init _ _ _ _⟩
    exact (h₀ k).mono (sub_zero _).ge
  have hsolvent := h.invariant (I := Solvent) (fun _ _ _ hi hs => hi.step hs) hinit
  exact ⟨hsolvent.gateway.conn.durable, hsolvent.gateway.conn.view.solvent s.gateway.owed_nonneg⟩

/-- From an empty database to a key that has been charged. -/
theorem never_overcharged_served : ∃ s, Run (System.step Sample.system) (System.init {} 1 0)
      (Sample.issued ++ Sample.served) s ∧
    s.gateway.conn.durable.requestLogs.rows.length = 1 ∧ s.gateway.conn.durable.Solvent := by
  obtain ⟨s, s', h, h', hlogged, -⟩ := Sample.exists_served
  have hempty : ({} : Tables).Solvent := fun k => ⟨le_rfl, by norm_num, le_rfl⟩
  have hrun := h.append h'
  exact ⟨s', hrun, hlogged, (never_overcharged _ _ hempty _ _ _ _ hrun).1⟩

end System
end EasyModelGate
