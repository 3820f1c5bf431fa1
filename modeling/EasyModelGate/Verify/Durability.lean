import EasyModelGate.Verify.Analytics
import EasyModelGate.Verify.Beside
import EasyModelGate.Verify.Integrity

/-! # Nothing that is committed is lost

The whole gateway keeps to the discipline of its writes: chat requests and their detached tasks,
models calls, requests under `/admin`, and the commands beside them. -/

namespace EasyModelGate

/-! ## Authentication beside other processes -/

/-- A query that succeeds has read what the connection sees. -/
theorem Conn.query_handler_ok {q : Query} {c : Conn} {r : q.Res}
    (h : (Conn.handler (.query q) c).1 = .ok r) :
    q.exec c.view = .ok r := by
  unfold Conn.handler at h
  cases hq : q.exec c.view with
  | error e =>
    rw [Conn.step_query_error hq] at h
    cases h
  | ok r' =>
    rw [Conn.step_query_ok hq] at h
    cases h
    rfl

/-- One statement of `require_auth`, on any connection. -/
theorem AuthAt.advance_view {hashKey : Str → Str} {keyPrefix header : Str} {nowMs : Int}
    {P : Row ApiKey → Prop} {conn conn' : Conn} {c c' : Db AuthContext}
    (h : AuthAt hashKey keyPrefix header nowMs P c)
    (hP : ∀ row, conn.view.keyByHash (hashKey (Auth.token header)) = some row → P row)
    (hadv : c.advance Conn.handler conn = some (c', conn')) :
    (∃ q, conn' = (conn.step none (.query q)).2) ∧ AuthStep nowMs P c' := by
  cases h with
  | start =>
    rcases requireAuth_cases hashKey keyPrefix header nowMs with ⟨e, hc⟩ | ⟨k, hc, hk⟩ <;>
      rw [hc] at hadv <;> cases hadv
    refine ⟨⟨_, rfl⟩, ?_⟩
    rcases hk (Conn.handler _ conn).1 with ⟨e, hr⟩ | ⟨row, hrow, hr⟩ <;> rw [hr]
    · exact .raised
    · exact .found (hP row (Except.ok.inj (Conn.query_handler_ok hrow)))
  | found hrow => exact checkRow_advance hrow hadv

/-- A key that a hash finds has the owner that its row names. -/
theorem Tables.owned_of_keyByHash {t : Tables} {keyHash : Str} {row : Row ApiKey}
    (h : t.keyByHash keyHash = some row) :
    t.Owned row.id row.val.userId :=
  ⟨row, (Table.of_find?_eq_some h).1, rfl⟩

/-! ## Chat requests -/

/-- The record of a request is of the owner of its key. -/
def Pc.Owned (t : Tables) (pc : Pc) : Prop :=
  ∀ f, pc.frame? = some f → t.Owned f.record.apiKeyId f.record.userId

/-- What is known of a request: the key that it has found, and the key's owner. -/
inductive Request.Owned (cfg : GatewayConfig) (t : Tables) (r : Request) : Prop
  | authenticating {c nowMs} (hp : r.phase = .authenticating c nowMs)
    (hc : AuthAt cfg.hashKey cfg.keyPrefix (header r.req) nowMs
      (fun row => t.Owned row.id row.val.userId) c)
  | reading {auth} (hp : r.phase = .reading auth) (ho : t.Owned auth.apiKeyId auth.userId)
  | serving {pc} (hp : r.phase = .serving pc) (ho : pc.Owned t)

/-- The log tasks that a list of effects spawns are of the owner of a key. -/
def OwnedEffects (t : Tables) (effects : List Effect) : Prop :=
  ∀ record keyId, Effect.persist record keyId ∈ effects → t.Owned record.apiKeyId record.userId

variable {cfg : GatewayConfig} {t t' : Tables} {r : Request}

theorem Request.Owned.mono (hext : t.Extends t') (h : r.Owned cfg t) : r.Owned cfg t' := by
  cases h with
  | authenticating hp hc => exact .authenticating hp (hc.mono fun _ ho => ho.mono hext)
  | reading hp ho => exact .reading hp (ho.mono hext)
  | serving hp ho => exact .serving hp fun f hf => (ho f hf).mono hext

theorem ownedEffects_nil : OwnedEffects t [] := fun _ _ hmem => absurd hmem List.not_mem_nil

theorem ownedEffects_release : OwnedEffects t [.release] :=
  fun _ _ hmem => nomatch List.mem_singleton.mp hmem

theorem ownedEffects_finish {f : Admitted} (ho : t.Owned f.record.apiKeyId f.record.userId)
    (clk : Clock) (a : FinishArgs) {effects : List Effect} (heffects : OwnedEffects t effects) :
    OwnedEffects t (.persist (finishRecord f clk a) (some f.auth.apiKeyId) :: effects) := by
  intro record keyId hmem
  rcases List.mem_cons.mp hmem with hmem | hmem
  · cases hmem
    exact ho
  · exact heffects record keyId hmem

theorem Resumed.owned (h : Resumed env clk pc ev pc' effects) (ho : pc.Owned t) :
    pc'.Owned t ∧ OwnedEffects t effects := by
  have howned : pc'.Owned t := by
    rcases h.frame with hframe | ⟨o, rfl⟩
    · intro f hf
      exact ho f (hframe ▸ hf)
    · exact fun _ hf => nomatch hf
  refine ⟨howned, ?_⟩
  cases h with
  | busy => exact ownedEffects_finish (ho _ rfl) _ _ ownedEffects_nil
  | whole | sendFailed | errorBody | finalized =>
    exact ownedEffects_finish (ho _ rfl) _ _ ownedEffects_release
  | refused | unreadable | sendCancelled | readFailed | closeFailed => exact ownedEffects_release
  | _ => exact ownedEffects_nil

theorem Admission.owned {env : RelayEnv} {req : ChatRequest} {a : Arrival}
    (h : Admission env req a limiter pc effects limiter')
    (ho : t.Owned a.auth.apiKeyId a.auth.userId) :
    pc.Owned t ∧ OwnedEffects t effects := by
  cases h with
  | failed => exact ⟨fun _ hf => (nomatch hf), ownedEffects_nil⟩
  | refused =>
    refine ⟨fun _ hf => (nomatch hf), fun record keyId hmem => ?_⟩
    cases List.mem_singleton.mp hmem
    exact ho
  | admitted hb hraw hl hpay hauth _ _ _ _ _ hrec =>
    refine ⟨?_, ownedEffects_nil⟩
    rintro f ⟨⟩
    rw [hrec]
    exact ho

theorem AuthStep.owned {nowMs : Int} {c : Db AuthContext}
    (h : AuthStep nowMs (fun row => t.Owned row.id row.val.userId) c) :
    (settleAuth r nowMs c).Owned cfg t := by
  cases h with
  | raised => exact .serving rfl fun _ hf => nomatch hf
  | granted hrow => exact .reading rfl hrow
  | @found row hrow =>
    rcases checkRow_cases row nowMs with ⟨e, hc⟩ | ⟨k, hc, -⟩
    · rw [hc]
      exact .serving rfl fun _ hf => nomatch hf
    · have hat : AuthAt cfg.hashKey cfg.keyPrefix (Request.header r.req) nowMs
          (fun row => t.Owned row.id row.val.userId) (Auth.checkRow row nowMs) := .found hrow
      rw [hc] at hat ⊢
      exact .authenticating rfl hat

/-- `require_auth` of a request that arrives. -/
theorem owned_arrive (req : ChatRequest) (nowMs : Int) :
    (settleAuth
      { req
        phase := .authenticating
          (requireAuth cfg.hashKey cfg.keyPrefix (Request.header req) nowMs) nowMs }
      nowMs (requireAuth cfg.hashKey cfg.keyPrefix (Request.header req) nowMs)).Owned cfg t := by
  rcases requireAuth_cases cfg.hashKey cfg.keyPrefix (Request.header req) nowMs with
    ⟨e, hc⟩ | ⟨k, hc, -⟩
  · rw [hc]
    exact .serving rfl fun _ hf => nomatch hf
  · have hat : AuthAt cfg.hashKey cfg.keyPrefix (Request.header req) nowMs
        (fun row => t.Owned row.id row.val.userId)
        (requireAuth cfg.hashKey cfg.keyPrefix (Request.header req) nowMs) := .start
    rw [hc] at hat ⊢
    exact .authenticating rfl hat

/-! ## The gateway -/

/-- The writes that the discipline allows on `t`. -/
abbrev GatewayConfig.allows (cfg : GatewayConfig) (t : Tables) (d : Dml) : Prop :=
  d.Sound cfg.hashKey cfg.keyPrefix t

theorem touch_sound (keyId : Nat) (nowMs : Int) :
    Db.Writes (cfg.allows t) (spawn (.touch keyId nowMs)).coro := by
  apply (Purpose.touch keyId nowMs).coro_writes.mono
  rintro _ rfl
  trivial

theorem authSpawned_sound (nowMs : Int) (c : Db AuthContext) :
    ∀ task ∈ authSpawned nowMs c, Db.Writes (cfg.allows t) task.coro := by
  cases c with
  | ret auth =>
    intro task htask
    rw [List.mem_singleton.mp htask]
    exact touch_sound auth.apiKeyId nowMs
  | raise | await => exact fun _ htask => absurd htask List.not_mem_nil

theorem spawned_sound {effects : List Effect} (h : OwnedEffects t effects) :
    ∀ task ∈ spawned effects, Db.Writes (cfg.allows t) task.coro := by
  intro task htask
  obtain ⟨record, keyId, hmem, rfl⟩ := mem_spawned htask
  apply (Purpose.log record keyId).coro_writes.mono
  rintro _ (rfl | ⟨id, n, -, hn, rfl⟩)
  · exact h record keyId hmem
  · exact hn

/-- The requests and the tasks of a gateway, on tables that its connection has seen. -/
structure Gateway.Sound (cfg : GatewayConfig) (t : Tables) (g : Gateway) : Prop where
  requests : ∀ r ∈ g.requests, r.Owned cfg t
  tasks : ∀ task ∈ g.tasks, Db.Writes (cfg.allows t) task.coro

theorem Gateway.Sound.mono {g : Gateway} (hext : t.Extends t') (h : g.Sound cfg t) :
    g.Sound cfg t' where
  requests r hr := (h.requests r hr).mono hext
  tasks task htask := (h.tasks task htask).mono fun d hd => Dml.Sound.mono t t' d hext hd

/-- Request `i` moves to `r'`, and tasks are spawned. -/
theorem Gateway.Sound.serve {g g' : Gateway} {r' : Request} {i : Nat} (h : g.Sound cfg t)
    (hreq : g'.requests = g.requests.set i r') (htasks : g'.tasks = g.tasks ++ new)
    (hr' : r'.Owned cfg t) (hnew : ∀ task ∈ new, Db.Writes (cfg.allows t) task.coro) :
    g'.Sound cfg t where
  requests := hreq ▸ forall_mem_set h.requests i hr'
  tasks task htask := by
    rw [htasks] at htask
    rcases List.mem_append.mp htask with htask | htask
    · exact h.tasks task htask
    · exact hnew task htask

/-- **One step of the chat requests.** -/
theorem Gateway.Sound.step {g g' : Gateway}
    (hconn : g.conn.Keeps (integrity cfg.hashKey cfg.keyPrefix)) (h : g.Sound cfg g.conn.view)
    (hstep : Gateway.step cfg g l = some g') :
    g.conn.Moves (integrity cfg.hashKey cfg.keyPrefix) g'.conn ∧ g'.Sound cfg g'.conn.view := by
  cases Stepped.of_step hstep with
  | @arrive req nowMs =>
    refine ⟨.refl hconn, fun r hr => ?_, fun task htask => ?_⟩
    · rcases List.mem_append.mp hr with hr | hr
      · exact h.requests r hr
      · rw [List.mem_singleton.mp hr]
        exact owned_arrive req nowMs
    · rcases List.mem_append.mp htask with htask | htask
      · exact h.tasks task htask
      · exact authSpawned_sound nowMs _ task htask
  | @auth i r c nowMs c' conn hr hp hc =>
    have hat : AuthAt cfg.hashKey cfg.keyPrefix (Request.header r.req) nowMs
        (fun row => g.conn.view.Owned row.id row.val.userId) c := by
      cases h.requests r (List.mem_of_getElem? hr) with
      | authenticating hp' hat => cases hp.symm.trans hp'; exact hat
      | reading hp' | serving hp' => cases hp.symm.trans hp'
    obtain ⟨⟨q, rfl⟩, hnext⟩ := hat.advance_view (fun row hrow => Tables.owned_of_keyByHash hrow) hc
    have hmoves := hconn.step (.query q)
    refine ⟨hmoves, Gateway.Sound.serve (h.mono hmoves.view) rfl rfl ?_
      (authSpawned_sound nowMs c')⟩
    exact hnext.owned.mono hmoves.view
  | cancelAuth hr hp =>
    exact ⟨.refl hconn, h.serve rfl rfl (.serving rfl fun _ hf => nomatch hf)
      (spawned_sound ownedEffects_nil)⟩
  | @body i r auth clk pc effects limiter hr hp hadm =>
    have howner : g.conn.view.Owned auth.apiKeyId auth.userId := by
      cases h.requests r (List.mem_of_getElem? hr) with
      | reading hp' ho => cases hp.symm.trans hp'; exact ho
      | authenticating hp' | serving hp' => cases hp.symm.trans hp'
    obtain ⟨hpc, heffects⟩ := hadm.owned howner
    exact ⟨.refl hconn, h.serve rfl rfl (.serving rfl hpc) (spawned_sound heffects)⟩
  | @event i r pc clk ev pc' effects hr hp hres ht =>
    have howner : pc.Owned g.conn.view := by
      cases h.requests r (List.mem_of_getElem? hr) with
      | serving hp' ho => cases hp.symm.trans hp'; exact ho
      | authenticating hp' | reading hp' => cases hp.symm.trans hp'
    obtain ⟨hpc, heffects⟩ := hres.owned howner
    exact ⟨.refl hconn, h.serve rfl rfl (.serving rfl hpc) (spawned_sound heffects)⟩
  | @task j task coro conn ht hc =>
    obtain ⟨s, -, hs, rfl, hall⟩ := Coro.All.advance (h.tasks task (List.mem_of_getElem? ht)) hc
    have hmoves := hconn.handler hs
    have hsound := h.mono hmoves.view
    refine ⟨hmoves, hsound.requests, forall_mem_set hsound.tasks j ?_⟩
    exact Db.Writes.mono (fun d hd => Dml.Sound.mono _ _ d hmoves.view hd) hall

/-! ## The commands and the Admin API -/

section
variable {hashKey : Str → Str} {keyPrefix : Str}

/-- The discipline allows the write whatever is in the tables. -/
def Dml.Administrative (hashKey : Str → Str) (keyPrefix : Str) (d : Dml) : Prop :=
  ∀ t, d.Sound hashKey keyPrefix t

theorem administrative_newKey {owner : Int} {name : Option Str}
    {expiresAt rpm tokenLimit : Option Int} {createdAt : Int} (random : Str) :
    Dml.Administrative hashKey keyPrefix (.insertApiKey owner name (generateKey keyPrefix random).2
      (hashKey (generateKey keyPrefix random).1) expiresAt rpm tokenLimit createdAt) :=
  fun _ => ⟨keyPrefix ++ random, List.prefix_append _ _, rfl, rfl⟩

end

theorem Cli.Command.administrative {cfg : CliConfig} {cmd : Cli.Command} {d : Dml}
    (h : cmd.MayWrite cfg d) :
    d.Administrative cfg.hashKey cfg.keyPrefix := by
  cases cmd with
  | userCreate | userSetEnabled => cases h; exact fun _ => trivial
  | keyCreate => obtain ⟨owner, expiresAt, rfl⟩ := h; exact administrative_newKey _
  | keySetEnabled | adminInit => obtain ⟨_, rfl⟩ := h; exact fun _ => trivial
  | keySetLimits => obtain ⟨_, _, _, rfl⟩ := h; exact fun _ => trivial
  | userList | keyList | usageSummary => exact h.elim

theorem Protected.administrative {cfg : AdminConfig} {amb : Ambient} {e : Protected} {d : Dml}
    (h : e.MayWrite cfg amb d) : d.Administrative cfg.hashKey cfg.keyPrefix := by
  cases e with
  | createUser => obtain ⟨_, _, _, rfl⟩ := h; exact fun _ => trivial
  | setUserEnabled | setKeyEnabled => obtain ⟨_, rfl⟩ := h; exact fun _ => trivial
  | createKey => obtain ⟨_, _, _, _, _, rfl⟩ := h; exact administrative_newKey _
  | patchLimits => obtain ⟨_, _, _, rfl⟩ := h; exact fun _ => trivial
  | _ => exact h.elim

theorem serve_administrative (cfg : AdminConfig) (amb : Ambient) (req : AdminRequest) :
    Handling.Writes (Dml.Administrative cfg.hashKey cfg.keyPrefix) (serve cfg amb req) := by
  apply (serve_writes cfg amb req).mono
  rintro d ⟨e, -, hd⟩
  exact Protected.administrative hd

/-! ## The system -/

namespace System

variable {cfg : SystemConfig} {s s' : System}

structure Sound (cfg : SystemConfig) (s : System) : Prop where
  conn : s.gateway.conn.Keeps (integrity cfg.admin.hashKey cfg.admin.keyPrefix)
  gateway : s.gateway.Sound cfg.gateway s.gateway.conn.view
  beside : s.Beside (Dml.Administrative cfg.admin.hashKey cfg.admin.keyPrefix)

/-- A step that is not of a chat request. -/
theorem Sound.step_beside (h : s.Sound cfg) (hl : ∀ l', l ≠ .chat l')
    (hstep : System.step cfg s l = some s') :
    s.gateway.conn.Moves (integrity cfg.admin.hashKey cfg.admin.keyPrefix) s'.gateway.conn ∧
    s'.Sound cfg := by
  have hallowed (d : Dml) (hd : Dml.Administrative cfg.admin.hashKey cfg.admin.keyPrefix d)
      (t : Tables) :
      (integrity cfg.admin.hashKey cfg.admin.keyPrefix).Allowed t d := hd t
  have hcli (command : Cli.Command) :
      Db.Writes (Dml.Administrative cfg.admin.hashKey cfg.admin.keyPrefix) (command.coro cfg.cli) :=
    (command.coro_writes cfg.cli).mono fun _ hd => Cli.Command.administrative hd
  obtain ⟨hmoves, hbeside, nowMs, c, hgateway⟩ :=
    h.beside.step (Discipline.stable hallowed _) (serve_administrative cfg.admin) hcli
      (.refl h.conn) hl hstep
  have hsound := h.gateway.mono hmoves.view
  refine ⟨hmoves, hmoves.keeps, ⟨fun r hr => hsound.requests r ?_, fun task htask => ?_⟩, hbeside⟩
  · rwa [hgateway] at hr
  · rw [hgateway] at htask
    rcases List.mem_append.mp htask with htask | htask
    · exact hsound.tasks task htask
    · exact authSpawned_sound nowMs c task htask

/-- **One step of the whole gateway**: nothing that was seen or durable is undone. -/
theorem Sound.step (h : s.Sound cfg) (hstep : System.step cfg s l = some s') :
    s.gateway.conn.Moves (integrity cfg.admin.hashKey cfg.admin.keyPrefix) s'.gateway.conn ∧
    s'.Sound cfg := by
  cases l with
  | chat l =>
    obtain ⟨g, hg, rfl⟩ := Option.map_eq_some_iff.mp hstep
    obtain ⟨hmoves, hsound⟩ := h.gateway.step h.conn hg
    exact ⟨hmoves, hmoves.keeps, hsound, h.beside.models, h.beside.admin⟩
  | models | admin | cli => exact h.step_beside (fun _ => by nofun) hstep

theorem Sound.init (cfg : SystemConfig) {t₀ : Tables}
    (h₀ : t₀.Integral cfg.admin.hashKey cfg.admin.keyPrefix) (slots drawn : Nat) :
    (System.init { durable := t₀ } slots drawn).Sound cfg where
  conn := .settled h₀ false
  gateway := ⟨fun _ hr => absurd hr List.not_mem_nil, fun _ ht => absurd ht List.not_mem_nil⟩
  beside := .init _ _ _ _

/-- What a run keeps, and from where it goes on. -/
theorem Sound.run (h : s.Sound cfg) (hrun : Run (System.step cfg) s ls s') :
    s.gateway.conn.Moves (integrity cfg.admin.hashKey cfg.admin.keyPrefix) s'.gateway.conn ∧
    s'.Sound cfg :=
  hrun.invariant (I := fun s' => s.gateway.conn.Moves
    (integrity cfg.admin.hashKey cfg.admin.keyPrefix) s'.gateway.conn ∧
    s'.Sound cfg) (fun _ _ _ hi hs => by
      obtain ⟨hmoves, hsound⟩ := hi.2.step hs
      exact ⟨hi.1.trans hmoves, hsound⟩) ⟨.refl h.conn, h⟩

/-- **The tables stay integral**: whatever happens, and in whatever order, what is durable and what
the gateway sees is such that user names and key hashes are unique, every key was issued for an
existing user, and every row of the log is of a key and of the owner of that key. -/
theorem integral (cfg : SystemConfig) (t₀ : Tables)
    (h₀ : t₀.Integral cfg.admin.hashKey cfg.admin.keyPrefix) (slots drawn : Nat)
    (ls : List Label) (s : System)
    (h : Run (System.step cfg) (System.init { durable := t₀ } slots drawn) ls s) :
    s.gateway.conn.durable.Integral cfg.admin.hashKey cfg.admin.keyPrefix ∧
      s.gateway.conn.view.Integral cfg.admin.hashKey cfg.admin.keyPrefix := by
  obtain ⟨-, hsound⟩ := (Sound.init cfg h₀ slots drawn).run h
  exact ⟨hsound.conn.durable, hsound.conn.view⟩

end System

namespace Sample

/-- Commands create a user and a key, on an empty database. -/
def issued : List System.Label :=
  [.cli (.userCreate (str "alice") none none 0),
    .cli (.keyCreate (clockAt 0) (fullKey.drop 4) (str "alice") none none none none)]

/-- The holder of the key is served a stream, which is logged; then the key is disabled. -/
def served : List System.Label :=
  (relayed ++ tasks).map .chat ++ [.cli (.keySetEnabled (fullKey.take prefixDisplayLen) false)]

theorem exists_served : ∃ s s', Run (System.step system) (System.init {} 1 0) issued s ∧
    Run (System.step system) s served s' ∧ s'.gateway.conn.durable.requestLogs.rows.length = 1 ∧
    s'.gateway.conn.durable.apiKeys.rows.map (·.val.enabled) = [false] := by
  have hrun : ((issued.foldlM (System.step system) (System.init {} 1 0)).any fun s =>
    (served.foldlM (System.step system) s).any fun s' =>
      decide (s'.gateway.conn.durable.requestLogs.rows.length = 1 ∧
        s'.gateway.conn.durable.apiKeys.rows.map (·.val.enabled) = [false])) = true := by
        decide +kernel
  obtain ⟨s, h, hs⟩ := Run.exists_of_any hrun
  obtain ⟨s', h', hp⟩ := Run.exists_of_any hs
  obtain ⟨hlogged, hdisabled⟩ := of_decide_eq_true hp
  exact ⟨s, s', h, h', hlogged, hdisabled⟩

end Sample

namespace System

/-- From an empty database to a request that is logged. -/
theorem integral_issued : ∃ s, Run (System.step Sample.system) (System.init {} 1 0)
      (Sample.issued ++ Sample.served) s ∧
    s.gateway.conn.durable.requestLogs.rows.length = 1 ∧
    s.gateway.conn.durable.Integral Sample.system.admin.hashKey Sample.system.admin.keyPrefix := by
  obtain ⟨s, s', h, h', hlogged, -⟩ := Sample.exists_served
  have hrun := h.append h'
  exact ⟨s', hrun, hlogged, (integral _ _ .empty _ _ _ _ hrun).1⟩

/-- **Nothing that is committed is lost**: from any state of the gateway on, the rows that are
durable stay under their numbers, and change only as users and keys may; the log only grows; a
number is given once. -/
theorem durable_extends (cfg : SystemConfig) (t₀ : Tables)
    (h₀ : t₀.Integral cfg.admin.hashKey cfg.admin.keyPrefix) (slots drawn : Nat)
    (ls ls' : List Label) (s s' : System)
    (h : Run (System.step cfg) (System.init { durable := t₀ } slots drawn) ls s)
    (h' : Run (System.step cfg) s ls' s') :
    s.gateway.conn.durable.Extends s'.gateway.conn.durable ∧
    s.gateway.conn.view.Extends s'.gateway.conn.view := by
  obtain ⟨-, hsound⟩ := (Sound.init cfg h₀ slots drawn).run h
  obtain ⟨hmoves, -⟩ := hsound.run h'
  exact ⟨hmoves.durable, hmoves.view⟩

/-- A key that has been used and disabled since it was created. -/
theorem durable_extends_served : ∃ s s', Run (System.step Sample.system)
      (System.init {} 1 0) Sample.issued s ∧
    Run (System.step Sample.system) s Sample.served s' ∧
    s'.gateway.conn.durable.apiKeys.rows.map (·.val.enabled) = [false] ∧
    s.gateway.conn.durable.Extends s'.gateway.conn.durable := by
  obtain ⟨s, s', h, h', -, hdisabled⟩ := Sample.exists_served
  exact ⟨s, s', h, h', hdisabled, (durable_extends _ _ .empty _ _ _ _ _ _ h h').1⟩

end System
end EasyModelGate
