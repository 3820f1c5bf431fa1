import EasyModelGate.Verify.Auth
import EasyModelGate.Verify.Gateway
import EasyModelGate.Verify.Persist
import EasyModelGate.Verify.Rounding

/-! # The soft quota

`token_used` is written by a detached task and read by the next `require_auth`. On the connection it
is what the tasks have charged so far, exactly, or a float above every limit once the sum has left
64 bits (`SqlNumber.Covers`); a request carries the value that it has read (`Request.Saw`) to the
check of its limits. -/

namespace EasyModelGate

/-! ## The property -/

/-- `token_used` and `token_limit` of a key. -/
def Tables.quota (t : Tables) (k : Nat) : Option (SqlNumber × Option Int) :=
  (t.apiKeys.get? k).map fun row => (row.val.tokenUsed, row.val.tokenLimit)

/-- The `total_tokens` that a task charges to key `k`. -/
def Purpose.chargeTo (k : Nat) : Purpose → Int
  | .touch .. => 0
  | .log record keyId => if keyId = some k then (tokenIncrement record).getD 0 else 0

/-- It has run its INSERT and its UPDATE. -/
def Task.charged (k : Nat) (t : Task) : Int :=
  if 2 ≤ t.steps then t.purpose.chargeTo k else 0

/-- The response has been handed out in full. -/
def Request.delivered (r : Request) : Bool :=
  match r.phase with
  | .serving (.done (.responded _)) => true
  | .serving (.done (.streamed none)) => true
  | _ => false

namespace Gateway

/-- What has been charged to key `k`. -/
def charged (g : Gateway) (k : Nat) : Int := (g.tasks.map (Task.charged k)).sum

/-- The request that a task logs has been delivered. -/
def hasDelivered (g : Gateway) : Purpose → Bool
  | .touch .. => false
  | .log record _ => (g.requests[record.requestId - g.drawn]?).any Request.delivered

/-- What the requests of key `k` that have been delivered have used. -/
def delivered (g : Gateway) (k : Nat) : Int :=
  ((g.tasks.filter fun t => g.hasDelivered t.purpose).map (·.purpose.chargeTo k)).sum

/-- The next statement of request `i` is the one that reads its key. -/
def readsKey (g : Gateway) (i : Nat) : Bool :=
  match g.requests[i]? with
  | some r =>
    match r.phase with
    | .authenticating c _ =>
      match c.next? with
      | some (.query (.keyByHash _)) => true
      | _ => false
    | _ => false
  | none => false

/-- `_enforce_limits` lets request `i` pass, which is of key `k`. -/
def passes (cfg : GatewayConfig) (g : Gateway) (i k : Nat) (clk : Clock) : Bool :=
  match g.requests[i]? with
  | some r =>
    match r.phase with
    | .reading auth =>
      auth.apiKeyId = k && (checkLimits cfg.relay auth clk g.limiter).1.isNone
    | _ => false
  | none => false

end Gateway

/-! ## What `token_used` says -/

/-- The value of `token_used` after charges of `s`: `s` itself, or a float once `s` has left 64
bits. -/
def SqlNumber.Covers (s : Int) : SqlNumber → Prop
  | .int m => m = s ∧ 0 ≤ s ∧ s < 2 ^ 63
  | .real x => x.AtLeast (2 ^ 63) ∧ 2 ^ 63 ≤ s

namespace SqlNumber

theorem integerAffinity_of_atLeast {x : PyFloat} (h : x.AtLeast (2 ^ 63)) :
    integerAffinity (.real x) = .real x := by
  cases x with
  | nan | inf => rfl
  | fin q =>
    refine if_neg ?_
    rintro ⟨hden, -, hlt⟩
    have hq : (2 : ℚ) ^ 63 ≤ q := h
    rw [← Rat.num_div_den q, hden] at hq
    have hle : (2 : ℤ) ^ 63 ≤ q.num := by
      norm_num at hq ⊢
      exact_mod_cast hq
    omega

theorem Covers.addInt {x : SqlNumber} (h : x.Covers s) (hn : 0 < n) (hfits : fits64 n = true) :
    (x.addInt n).Covers (s + n) := by
  simp only [fits64, decide_eq_true_eq] at hfits
  cases x with
  | int m =>
    obtain ⟨rfl, h0, hlt⟩ := h
    unfold SqlNumber.addInt
    dsimp only
    split
    · rename_i hsum
      simp only [fits64, decide_eq_true_eq] at hsum
      exact ⟨rfl, by omega, hsum.2⟩
    · rename_i hsum
      simp only [fits64, decide_eq_true_eq] at hsum
      have hlarge : 2 ^ 63 ≤ m + n := by omega
      have hadd := PyFloat.add_round_atLeast hlt hfits.2 hlarge
      rw [integerAffinity_of_atLeast hadd]
      exact ⟨hadd, hlarge⟩
  | real x =>
    obtain ⟨hx, hs⟩ := h
    have hadd := PyFloat.AtLeast.add_round hx hn.le
    unfold SqlNumber.addInt
    dsimp only
    rw [integerAffinity_of_atLeast hadd]
    exact ⟨hadd, by omega⟩

/-- Charging does not lower what is stored, and what it stores is a double again. -/
theorem Covers.le_addInt {x : SqlNumber} (h : x.Covers s) (hx : x.storable = true) (hn : 0 < n)
    (hfits : fits64 n = true) : x.value ≤ (x.addInt n).value ∧ (x.addInt n).storable = true := by
  simp only [fits64, decide_eq_true_eq] at hfits
  cases x with
  | int m =>
    obtain ⟨rfl, h0, hlt⟩ := h
    have hn0 : (0 : ℚ) < n := by exact_mod_cast hn
    have hm : (m : ℚ) < 2 ^ 63 := by exact_mod_cast hlt
    unfold SqlNumber.addInt
    dsimp only
    split
    · refine ⟨WithBot.coe_le_coe.mpr (WithTop.coe_le_coe.mpr ?_), rfl⟩
      push_cast
      linarith
    · rename_i hsum
      simp only [fits64, decide_eq_true_eq] at hsum
      have hadd := PyFloat.add_round_atLeast hlt hfits.2 (by omega)
      rw [value_integerAffinity]
      refine ⟨le_trans ?_ hadd.value_le, storable_integerAffinity ?_⟩
      · exact WithBot.coe_le_coe.mpr (WithTop.coe_le_coe.mpr hm.le)
      · exact (PyFloat.round_atLeast_zero h0).storable_add (PyFloat.round_atLeast_zero hn.le)
  | real x =>
    obtain ⟨hx63, -⟩ := h
    have hround := PyFloat.round_atLeast_zero hn.le
    unfold SqlNumber.addInt
    dsimp only
    rw [value_integerAffinity]
    exact ⟨PyFloat.value_le_add hx hx63 hround, storable_integerAffinity (hx63.storable_add hround)⟩

/-- Below the limit, it is exact. -/
theorem Covers.lt {x : SqlNumber} (h : x.Covers s) (hL : fits64 L = true) (hx : x.geInt L = false) :
    s < L := by
  simp only [fits64, decide_eq_true_eq] at hL
  cases x with
  | int m =>
    obtain ⟨rfl, -⟩ := h
    simpa [geInt] using hx
  | real x =>
    cases x with
    | nan => cases h.1
    | inf =>
      cases h.1
      cases hx
    | fin q =>
      have hq : (2 : ℚ) ^ 63 ≤ q := h.1
      have hlt : q < L := by simpa [geInt, PyFloat.geInt] using hx
      have hL : (L : ℚ) < 2 ^ 63 := by exact_mod_cast hL.2
      exact absurd (hq.trans_lt (hlt.trans hL)) (lt_irrefl _)

end SqlNumber

/-! ## What a statement does to a quota -/

/-- It neither charges a key nor changes its limits. -/
def Stmt.KeepsQuota (s : Stmt) : Prop :=
  ∀ d, s = .dml d → d.isCharge = false ∧ ∀ k rpm limit, d ≠ .setKeyLimitsById k rpm limit

theorem Stmt.KeepsQuota.quota {s : Stmt} (hs : s.KeepsQuota) {t : Tables} (h : t.quota k = some q) :
    (s.effect t).2.quota k = some q := by
  cases s with
  | query | commit => exact h
  | dml d =>
    obtain ⟨hcharge, hlimits⟩ := hs d rfl
    rcases d.effect_cases t with ⟨e, he⟩ | ⟨cursor, t', -, hr, he⟩ <;> rw [Stmt.effect, he]
    · exact h
    · cases d with
      | addTokenUsed => cases hcharge
      | setKeyLimitsById => exact absurd rfl (hlimits _ _ _)
      | insertUser | insertRequestLog =>
        simp only [Dml.run] at hr
        split at hr <;> cases hr
        exact h
      | setUserEnabled | setUserEnabledById | upsertSetting =>
        cases hr
        exact h
      | insertApiKey =>
        simp only [Dml.run] at hr
        split at hr <;> cases hr
        obtain ⟨row, hrow, rfl⟩ := Option.map_eq_some_iff.mp h
        have hle := Table.id_le hrow
        simp only [Tables.quota, Table.get?_insert]
        rw [if_neg (Nat.ne_of_lt (Nat.lt_succ_of_le hle)), hrow]
        rfl
      | setKeyEnabledById | touchLastUsed =>
        cases hr
        obtain ⟨row, hrow, rfl⟩ := Option.map_eq_some_iff.mp h
        simp only [Tables.quota, Table.get?_update, hrow, Option.map_some]
        split <;> rfl

theorem addTokenUsed_quota {t : Tables} (h : t.quota k = some (used, limit)) (hn : fits64 n = true)
    (k' : Nat) :
    ((Stmt.dml (.addTokenUsed n k')).effect t).2.quota k =
      some (if k' = k then used.addInt n else used, limit) := by
  obtain ⟨row, hrow, hq⟩ := Option.map_eq_some_iff.mp h
  cases hq
  obtain ⟨e, he⟩ | ⟨cursor, t', -, hr, he⟩ := (Dml.addTokenUsed n k').effect_cases t <;>
    rw [Stmt.effect, he]
  · rw [if_neg, h]
    rintro rfl
    simp [Dml.effect, Dml.bind, Dml.run, bindInt, hn, bindId, hrow, bind, Except.bind] at he
  · cases hr
    simp only [Tables.quota, Nat.cast_inj, Table.get?_update_id, hrow]
    by_cases hk : k = k'
    · rw [if_pos hk, if_pos hk.symm]
      rfl
    · rw [if_neg hk, if_neg (Ne.symm hk)]
      rfl

/-! ## The tasks -/

/-- Where a task is: `touch_last_used` leaves the quotas alone, and `persist_request_log` goes
through its script until a statement fails. -/
def Purpose.Runs (steps : Nat) (c : Db Unit) : Purpose → Prop
  | .touch .. => c.All Stmt.KeepsQuota
  | .log record keyId =>
    c.Follows ((Purpose.log record keyId).stmts.drop steps) ∧ (0 < steps → record.bindable = true) ∨
      ∃ e, c = .raise e

def Task.Runs (t : Task) : Prop := t.purpose.Runs t.steps t.coro

theorem keepsQuota_commit : Stmt.commit.KeepsQuota := fun _ h => nomatch h

theorem keepsQuota_insertRequestLog (record : RequestLog Json) :
    (Stmt.dml (.insertRequestLog record)).KeepsQuota := by
  rintro d ⟨⟩
  exact ⟨rfl, fun _ _ _ h => nomatch h⟩

theorem spawn_runs (p : Purpose) : (spawn p).Runs := by
  cases p with
  | touch keyId nowMs =>
    refine (executeCommit_all ?_ keepsQuota_commit).bind fun _ => .ret
    rintro d ⟨⟩
    exact ⟨rfl, fun _ _ _ h => nomatch h⟩
  | log record keyId => exact .inl ⟨persistRequestLog_follows _ _, fun h => absurd h (lt_irrefl 0)⟩

theorem Task.charged_spawn (k : Nat) (p : Purpose) : (spawn p).charged k = 0 := rfl

/-- What `persist_request_log` charges. -/
theorem Purpose.chargeTo_log (record : RequestLog Json) (keyId : Option Nat) (k : Nat) :
    charge record (keyId.map fun (id : Nat) => (id : Int)) = none ∧
        (Purpose.log record keyId).chargeTo k = 0 ∨
      ∃ (k' : Nat) (n : Int), charge record (keyId.map fun (id : Nat) => (id : Int)) =
          some ((k' : Int), n) ∧
        0 < n ∧ (Purpose.log record keyId).chargeTo k = if k' = k then n else 0 := by
  unfold charge Purpose.chargeTo
  cases keyId with
  | none => exact .inl ⟨rfl, rfl⟩
  | some k' =>
    cases hn : tokenIncrement record with
    | none => exact .inl ⟨rfl, by simp [hn]⟩
    | some n =>
      obtain ⟨-, hpos⟩ := Option.filter_eq_some_iff.mp hn
      exact .inr ⟨k', n, rfl, of_decide_eq_true hpos, by simp [hn]⟩

/-- **One statement of a task** charges key `k` by as much as it adds to what the task has
charged. -/
theorem Task.Runs.step {t : Task} (h : t.Runs) {conn conn' : Conn} (ha : conn.Alone)
    {coro : Db Unit} (hc : t.coro.advance Conn.handler conn = some (coro, conn'))
    (hq : conn.view.quota k = some (used, limit)) (hu : used.Covers s) :
    conn'.Alone ∧ Task.Runs { t with coro, steps := t.steps + 1 } ∧
      ∃ used' n, conn'.view.quota k = some (used', limit) ∧ used'.Covers (s + n) ∧
        Task.charged k { t with coro, steps := t.steps + 1 } = t.charged k + n := by
  obtain ⟨purpose, coro₀, steps⟩ := t
  cases purpose with
  | touch keyId nowMs =>
    obtain ⟨op, -, hkeeps, rfl, hall⟩ := Coro.All.advance (show coro₀.All Stmt.KeepsQuota from h) hc
    obtain ⟨-, hview, -, halone⟩ := ha.step op
    refine ⟨halone, hall, used, 0, ?_, by rwa [add_zero], ?_⟩
    · rw [← hkeeps.quota hq, ← hview]
      rfl
    · simp [Task.charged, Purpose.chargeTo]
  | log record keyId =>
    rcases (show Purpose.Runs steps coro₀ (.log record keyId) from h) with ⟨hfollows, hb⟩ | ⟨e, rfl⟩
    case inr => cases hc
    obtain ⟨op, rest, hdrop, rfl, hnext⟩ := hfollows.advance hc
    obtain ⟨hres, hview, -, halone⟩ := ha.step op
    have hruns (hb : (op.effect conn.view).1.isOk = true → record.bindable = true) :
        Task.Runs ⟨.log record keyId, coro, steps + 1⟩ := by
      rcases hnext with ⟨⟨r, hr⟩, hat⟩ | ⟨-, e, rfl⟩
      · rw [← hres] at hb
        refine .inl ⟨?_, fun _ => hb ?_⟩
        · rw [← List.tail_drop, hdrop]
          exact hat
        · unfold Conn.handler at hr
          cases hstep : (conn.step none op).1 with
          | ok => rfl
          | error => rw [hstep] at hr; cases hr
      · exact .inr ⟨e, rfl⟩
    have hkeep (hkeeps : op.KeepsQuota) :
        (Conn.handler op conn).2.view.quota k = some (used, limit) := by
      rw [← hkeeps.quota hq, ← hview]
      rfl
    have hcharge := Purpose.chargeTo_log record keyId k
    rcases persistStmts_drop hdrop with ⟨rfl, rfl, -⟩ | ⟨rfl, ⟨_, n, hsome, rfl⟩, -⟩ | ⟨hn, rfl, -⟩
    · refine ⟨halone, hruns fun hok => ?_, used, 0, hkeep (keepsQuota_insertRequestLog _),
        by rwa [add_zero], rfl⟩
      by_contra hb
      obtain ⟨e, he⟩ := insertRequestLog_unbindable (Bool.not_eq_true _ ▸ hb) conn.view
      rw [Stmt.effect, he] at hok
      cases hok
    · have hb := hb Nat.one_pos
      rcases hcharge with ⟨hnone, -⟩ | ⟨k', _, hsome', hpos, hto⟩
      · cases hnone.symm.trans hsome
      cases hsome'.symm.trans hsome
      have hfits := fits64_of_charge hb hsome
      refine ⟨halone, hruns fun _ => hb, if k' = k then used.addInt n else used,
        if k' = k then n else 0, ?_, ?_, ?_⟩
      · rw [← addTokenUsed_quota hq hfits k', ← hview]
        rfl
      · split
        · exact hu.addInt hpos hfits
        · rwa [add_zero]
      · simp [Task.charged, hto]
    · refine ⟨halone, hruns fun _ => hb hn, used, 0, hkeep keepsQuota_commit, by rwa [add_zero], ?_⟩
      rw [add_zero]
      obtain h2 | rfl : 2 ≤ steps ∨ steps = 1 := by omega
      · simp [Task.charged, h2, Nat.le_succ_of_le h2]
      · -- the commit follows the INSERT at once: there is nothing to charge
        rcases hcharge with ⟨-, hto⟩ | ⟨k', n, hsome, -⟩
        · simp [Task.charged, hto]
        · simp only [Purpose.stmts, persistStmts, hsome] at hdrop
          cases hdrop

/-! ## The requests -/

/-- The request is past the look at its key, whose row was such that `P` holds. -/
inductive Request.Saw (P : Row ApiKey → Prop) (r : Request) : Prop
  | checking {row nowMs} (hp : r.phase = .authenticating (Auth.checkRow row nowMs) nowMs)
    (hrow : P row)
  | reading {row user} (hp : r.phase = .reading (Auth.context row user)) (hrow : P row)
  | serving {pc} (hp : r.phase = .serving pc)

theorem settleAuth_saw {P : Row ApiKey → Prop} (r : Request) {c : Db AuthContext}
    (hc : AuthStep nowMs P c) :
    (settleAuth r nowMs c).Saw P := by
  cases hc with
  | raised => exact .serving rfl
  | @found row hrow =>
    rcases checkRow_cases row nowMs with ⟨e, hc⟩ | ⟨k, hc, -⟩
    · rw [hc]
      exact .serving rfl
    · rw [hc]
      exact @Request.Saw.checking _ _ row nowMs (by rw [hc]; rfl) hrow
  | granted hrow => exact .reading rfl hrow

/-- A request that authenticates is at one of the stages of `require_auth`. -/
def Request.Authentic (cfg : GatewayConfig) (r : Request) : Prop :=
  ∀ c nowMs, r.phase = .authenticating c nowMs →
    AuthAt cfg.hashKey cfg.keyPrefix (Request.header r.req) nowMs (fun _ => True) c

theorem Request.Saw.authentic {P : Row ApiKey → Prop} {r : Request} (h : r.Saw P)
    (cfg : GatewayConfig) :
    r.Authentic cfg := by
  intro c nowMs hp
  cases h with
  | checking hp' => cases hp.symm.trans hp'; exact .found trivial
  | reading hp' | serving hp' => cases hp.symm.trans hp'

/-! ## The gateway -/

namespace Gateway

/-- `token_used` of key `k`, whose limit is `L`, covers what has been charged to it. -/
structure QuotaInv (cfg : GatewayConfig) (k : Nat) (L : Int) (g : Gateway) : Prop where
  alone : g.conn.Alone
  tasks : ∀ t ∈ g.tasks, t.Runs
  requests : ∀ r ∈ g.requests, r.Authentic cfg
  quota : ∃ used, g.conn.view.quota k = some (used, some L) ∧ used.Covers (g.charged k)

/-- A step that runs no statement but queries: its new tasks have charged nothing yet. -/
theorem QuotaInv.quiet {g g' : Gateway} (h : g.QuotaInv cfg k L) (new : List Purpose)
    (htasks : g'.tasks = g.tasks ++ new.map spawn)
    (hconn : g'.conn = g.conn ∨ ∃ q, g'.conn = (g.conn.step none (.query q)).2)
    (hrequests : ∀ r ∈ g'.requests, r.Authentic cfg) : g'.QuotaInv cfg k L := by
  have hcharged : g'.charged k = g.charged k := by
    unfold charged
    rw [htasks, List.map_append, List.sum_append, List.map_map]
    have hzero : Task.charged k ∘ spawn = fun _ => 0 := funext (Task.charged_spawn k)
    rw [hzero]
    simp
  refine ⟨?_, fun t ht => ?_, hrequests, ?_⟩
  · rcases hconn with hconn | ⟨q, hconn⟩ <;> rw [hconn]
    · exact h.alone
    · exact (h.alone.step _).2.2.2
  · rw [htasks] at ht
    rcases List.mem_append.mp ht with ht | ht
    · exact h.tasks t ht
    · obtain ⟨p, -, rfl⟩ := List.mem_map.mp ht
      exact spawn_runs p
  · rw [hcharged]
    rcases hconn with hconn | ⟨q, hconn⟩ <;> rw [hconn]
    · exact h.quota
    · rw [(h.alone.step _).2.1]
      exact h.quota

theorem spawned_eq (effects : List Effect) :
    ∃ new : List Purpose, spawned effects = new.map spawn := by
  induction effects with
  | nil => exact ⟨[], rfl⟩
  | cons e effects ih =>
    obtain ⟨new, hnew⟩ := ih
    cases e with
    | release => exact ⟨new, hnew⟩
    | persist record keyId => exact ⟨.log record keyId :: new, congrArg (_ :: ·) hnew⟩

theorem authSpawned_eq (nowMs : Int) (c : Db AuthContext) :
    ∃ new : List Purpose, authSpawned nowMs c = new.map spawn := by
  cases c with
  | ret auth => exact ⟨[.touch auth.apiKeyId nowMs], rfl⟩
  | raise | await => exact ⟨[], rfl⟩

theorem arrive_authentic (cfg : GatewayConfig) (req : ChatRequest) (nowMs : Int) :
    (settleAuth { req, phase := .authenticating (requireAuth cfg.hashKey cfg.keyPrefix
      (Request.header req) nowMs) nowMs } nowMs (requireAuth cfg.hashKey cfg.keyPrefix
      (Request.header req) nowMs)).Authentic cfg := by
  intro c nowMs' hp
  rcases requireAuth_cases cfg.hashKey cfg.keyPrefix (Request.header req) nowMs with
    ⟨e, hc⟩ | ⟨k, hc, -⟩
  · rw [hc] at hp
    cases hp
  · rw [hc] at hp
    cases hp
    rw [← hc]
    rw [show (settleAuth _ nowMs _).req = req by rw [hc]; rfl]
    exact .start

theorem QuotaInv.step {g g' : Gateway} (h : g.QuotaInv cfg k L)
    (hstep : Gateway.step cfg g l = some g') :
    g'.QuotaInv cfg k L := by
  have hserved (i : Nat) (r : Request) (pc : Pc) (effects : List Effect) (took : Nat) :
      ∀ x ∈ g.requests.set i (r.serve pc effects took), x.Authentic cfg := by
    apply forall_mem_set h.requests i
    intro c nowMs hp
    cases hp
  cases Stepped.of_step hstep with
  | arrive =>
    rename_i req nowMs
    obtain ⟨new, hnew⟩ := authSpawned_eq nowMs
      (requireAuth cfg.hashKey cfg.keyPrefix (Request.header req) nowMs)
    refine h.quiet new (congrArg _ hnew) (.inl rfl) fun r hr => ?_
    rcases List.mem_append.mp hr with hr | hr
    · exact h.requests r hr
    · rw [List.mem_singleton.mp hr]
      exact arrive_authentic cfg req nowMs
  | @auth i r c nowMs c' conn hr hp hc =>
    obtain ⟨new, hnew⟩ := authSpawned_eq nowMs c'
    have hat := h.requests r (List.mem_of_getElem? hr) c nowMs hp
    obtain ⟨hq, hat'⟩ := hat.advance h.alone (fun _ _ => trivial) hc
    exact h.quiet new (congrArg _ hnew) (.inr hq)
      (forall_mem_set h.requests i ((settleAuth_saw r hat').authentic cfg))
  | cancelAuth => exact h.quiet [] rfl (.inl rfl) (hserved _ _ _ _ 0)
  | @body i r auth clk pc effects limiter =>
    obtain ⟨new, hnew⟩ := spawned_eq effects
    exact h.quiet new (congrArg _ hnew) (.inl rfl) (hserved i r pc effects 0)
  | @event i r pc clk ev pc' effects =>
    obtain ⟨new, hnew⟩ := spawned_eq effects
    exact h.quiet new (congrArg _ hnew) (.inl rfl) (hserved i r pc' effects ev.takes)
  | @task j t coro conn ht hc =>
    obtain ⟨used, hq, hu⟩ := h.quota
    obtain ⟨halone, hruns, used', n, hq', hu', hn⟩ :=
      (h.tasks t (List.mem_of_getElem? ht)).step h.alone hc hq hu
    refine ⟨halone, forall_mem_set h.tasks j hruns, h.requests, used', hq', ?_⟩
    have hsum := sum_map_set (Task.charged k) ht { t with coro, steps := t.steps + 1 }
    convert hu' using 1
    unfold charged
    linarith

/-- What request `i` has seen of its key stays with it. -/
theorem saw_step {P : Row ApiKey → Prop} {g g' : Gateway} {i : Nat}
    (h : ∃ r : Request, g.requests[i]? = some r ∧ r.Saw P)
    (hstep : Gateway.step cfg g l = some g') :
    ∃ r : Request, g'.requests[i]? = some r ∧ r.Saw P := by
  obtain ⟨r₀, hr₀, hsaw⟩ := h
  have hset (j : Nat) (r : Request) (hr : i = j → r.Saw P) :
      ∃ r' : Request, (g.requests.set j r)[i]? = some r' ∧ r'.Saw P := by
    by_cases hij : j = i
    · subst hij
      exact ⟨r, List.getElem?_set_self (List.getElem?_eq_some_iff.mp hr₀).1, hr rfl⟩
    · exact ⟨r₀, by rw [List.getElem?_set_ne hij]; exact hr₀, hsaw⟩
  cases Stepped.of_step hstep with
  | arrive =>
    exact ⟨r₀, List.getElem?_append_left (List.getElem?_eq_some_iff.mp hr₀).1 ▸ hr₀, hsaw⟩
  | @auth j r c nowMs c' conn hr hp hc =>
    refine hset j (settleAuth r nowMs c') fun hij => settleAuth_saw r ?_
    subst hij
    cases hr₀.symm.trans hr
    cases hsaw with
    | @checking row _ hp' hrow =>
      cases hp.symm.trans hp'
      exact (checkRow_advance hrow hc).2
    | reading hp' | serving hp' => cases hp.symm.trans hp'
  | @cancelAuth j r => exact hset j (r.serve _ [] 0) fun _ => .serving rfl
  | @body j r auth clk pc effects => exact hset j (r.serve pc effects 0) fun _ => .serving rfl
  | @event j r pc clk ev pc' effects =>
    exact hset j (r.serve pc' effects ev.takes) fun _ => .serving rfl
  | task => exact ⟨r₀, hr₀, hsaw⟩

/-- A request that reads its key sees what has been charged to it. -/
theorem QuotaInv.reads {g g' : Gateway} (h : g.QuotaInv cfg k L) (hread : g.readsKey i = true)
    (hstep : Gateway.step cfg g (.auth i) = some g') :
    ∃ r : Request, g'.requests[i]? = some r ∧ r.Saw fun row => row.id = k →
      row.val.tokenUsed.Covers (g.charged k) ∧ row.val.tokenLimit = some L := by
  obtain ⟨used, hq, hu⟩ := h.quota
  obtain ⟨row₀, hrow₀, hq⟩ := Option.map_eq_some_iff.mp hq
  obtain ⟨rfl, hlimit⟩ := Prod.mk.inj hq
  cases Stepped.of_step hstep with
  | @auth _ r c nowMs c' conn hr hp hc =>
    refine ⟨_, List.getElem?_set_self (List.getElem?_eq_some_iff.mp hr).1, settleAuth_saw r ?_⟩
    cases h.requests r (List.mem_of_getElem? hr) c nowMs hp with
    | start =>
      refine (AuthAt.advance .start h.alone (fun row hrow hid => ?_) hc).2
      have hget := Table.get?_eq_some.mpr ⟨List.mem_of_find?_eq_some hrow, hid⟩
      cases hrow₀.symm.trans hget
      exact ⟨hu, hlimit⟩
    | @found row =>
      -- it has read its key already
      exfalso
      obtain ⟨e, hc'⟩ | ⟨k', hc', -⟩ := checkRow_cases row nowMs <;>
        simp [readsKey, hr, hp, hc', Coro.next?] at hread

/-- The limits of a request are checked against what it has seen. -/
theorem lt_of_passes {g : Gateway} (h : ∃ r : Request, g.requests[i]? = some r ∧ r.Saw fun row =>
      row.id = k → row.val.tokenUsed.Covers s ∧ row.val.tokenLimit = some L)
    (hL : fits64 L = true) (hpass : g.passes cfg i k clk = true) : s < L := by
  obtain ⟨r, hr, hsaw⟩ := h
  unfold passes at hpass
  rw [hr] at hpass
  cases hsaw with
  | checking hp | serving hp =>
    dsimp only at hpass
    rw [hp] at hpass
    cases hpass
  | @reading row user hp hrow =>
    dsimp only at hpass
    rw [hp] at hpass
    obtain ⟨hid, hlimits⟩ := Bool.and_eq_true_iff.mp hpass
    obtain ⟨hu, hlimit⟩ := hrow (of_decide_eq_true hid)
    refine hu.lt hL ?_
    by_contra hge
    unfold checkLimits at hlimits
    simp only [Auth.context, hlimit, Option.any_some, Bool.not_eq_false] at hge hlimits
    rw [hge] at hlimits
    split at hlimits <;> cases hlimits

/-- **The soft quota counts every request that has been charged**: when a request passes the check
of its limits, what had been charged to its key before it read the key's row is below the limit. -/
theorem charged_below_limit (cfg : GatewayConfig) (t₀ : Tables) (slots drawn k : Nat) (L : Int)
    (ls₁ ls₂ : List Label) (g₁ g₁' g₂ : Gateway) (i : Nat) (clk : Clock)
    (hkey : t₀.quota k = some (.int 0, some L)) (hL : fits64 L = true)
    (h₁ : Run (Gateway.step cfg) (Gateway.init { durable := t₀ } slots drawn) ls₁ g₁)
    (hread : g₁.readsKey i = true) (hstep : Gateway.step cfg g₁ (.auth i) = some g₁')
    (h₂ : Run (Gateway.step cfg) g₁' ls₂ g₂) (hpass : g₂.passes cfg i k clk = true) :
    g₁.charged k < L := by
  have hinit : (Gateway.init { durable := t₀ } slots drawn).QuotaInv cfg k L :=
    ⟨.of_tx_none rfl rfl, (fun _ h => nomatch h), (fun _ h => nomatch h), .int 0, hkey, rfl, le_rfl,
      by norm_num [charged, Gateway.init]⟩
  have hinv := h₁.invariant (I := QuotaInv cfg k L) (fun _ _ _ hi hs => hi.step hs) hinit
  have hsaw := h₂.invariant (I := fun g => ∃ r : Request, g.requests[i]? = some r ∧ r.Saw fun row =>
    row.id = k → row.val.tokenUsed.Covers (g₁.charged k) ∧ row.val.tokenLimit = some L)
    (fun _ _ _ hi hs => saw_step hi hs) (hinv.reads hread hstep)
  exact lt_of_passes hsaw hL hpass

end Gateway

namespace Sample

/-- The first request gets an answer that has used five tokens. -/
def answered : List Label :=
  acquire 0 (chat false) ++ [.event 0 (clockAt 3) (.response
    { status := 200, contentType := none,
      content := bytes "\x7b\"usage\": \x7b\"total_tokens\": 5\x7d\x7d" })]

/-- `touch_last_used`, and the row, the charge and the commit of `persist_request_log`. -/
def charging : List Label := [.task 0, .task 0, .task 1, .task 1, .task 1]

end Sample

namespace Gateway

/-- The second request reads its key after the first has been charged. -/
theorem charged_below_limit_second :
    ∃ g₁, Run (Gateway.step Sample.cfg) (Gateway.init (Sample.conn (some 10)) 1)
        (Sample.answered ++ Sample.charging ++ [Label.arrive (Sample.chat false) 0]) g₁ ∧
      g₁.charged 1 = 5 ∧ g₁.charged 1 < 10 := by
  have hrun : ((Sample.answered ++ Sample.charging ++ [Label.arrive (Sample.chat false) 0]).foldlM
    (Gateway.step Sample.cfg) (Gateway.init (Sample.conn (some 10)) 1)).any (fun g =>
      g.charged 1 = 5 ∧ g.readsKey 1 ∧ (Gateway.step Sample.cfg g (.auth 1)).any fun g' =>
        ([Label.auth 1].foldlM (Gateway.step Sample.cfg) g').any fun g'' =>
          g''.passes Sample.cfg 1 1 (Sample.clockAt 4)) := by decide +kernel
  obtain ⟨g₁, h₁, hp⟩ := Run.exists_of_any hrun
  obtain ⟨hcharged, hread, hstep⟩ := of_decide_eq_true hp
  obtain ⟨g₁', hstep, hrest⟩ := (Option.any_eq_true ..).mp hstep
  obtain ⟨g₂, h₂, hpass⟩ := Run.exists_of_any hrest
  exact ⟨g₁, h₁, hcharged, charged_below_limit _ _ _ _ _ _ _ _ _ _ _ _ _ (by decide +kernel)
    (by decide) h₁ hread hstep h₂ hpass⟩

/-- The second request arrives after the first has been answered and before it is charged: it
passes, although the first has used up the quota. -/
theorem delivered_uncounted :
    ¬ ∀ (cfg : GatewayConfig) (t₀ : Tables) (slots drawn k : Nat) (L : Int)
    (ls₁ ls₂ : List Label) (g₁ g₁' g₂ : Gateway) (req : ChatRequest) (nowMs : Int) (clk : Clock),
    t₀.quota k = some (.int 0, some L) → fits64 L = true →
    Run (Gateway.step cfg) (Gateway.init { durable := t₀ } slots drawn) ls₁ g₁ →
    Gateway.step cfg g₁ (.arrive req nowMs) = some g₁' → Run (Gateway.step cfg) g₁' ls₂ g₂ →
    g₂.passes cfg g₁.requests.length k clk = true → g₁.delivered k < L := by
  intro hall
  have hrun : (Sample.answered.foldlM (Gateway.step Sample.cfg)
    (Gateway.init (Sample.conn (some 5)) 1)).any (fun g =>
      g.delivered 1 = 5 ∧ (Gateway.step Sample.cfg g (.arrive (Sample.chat false) 0)).any fun g' =>
        ([Label.auth 1, .auth 1].foldlM (Gateway.step Sample.cfg) g').any fun g'' =>
          g''.passes Sample.cfg g.requests.length 1 (Sample.clockAt 4)) := by decide +kernel
  obtain ⟨g₁, h₁, hp⟩ := Run.exists_of_any hrun
  obtain ⟨hdelivered, hstep⟩ := of_decide_eq_true hp
  obtain ⟨g₁', hstep, hrest⟩ := (Option.any_eq_true ..).mp hstep
  obtain ⟨g₂, h₂, hpass⟩ := Run.exists_of_any hrest
  have hlt := hall _ _ _ _ 1 5 _ _ _ _ _ _ _ _ (by decide +kernel) (by decide) h₁ hstep h₂ hpass
  rw [hdelivered] at hlt
  exact absurd hlt (lt_irrefl 5)

end Gateway
end EasyModelGate
