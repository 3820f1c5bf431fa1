import EasyModelGate.Verify.Discipline
import EasyModelGate.Verify.System

/-! # What runs beside the chat requests

Models calls, the requests under `/admin`, and the commands. They meet the chat requests on the
database only: what their statements keep of the connection, they keep, in whatever order they
come. -/

namespace EasyModelGate

variable {W : Dml → Prop} {R : Conn → Prop}

/-- What the writes of `W` keep of a connection, its own and those of another process. -/
structure Conn.Stable (W : Dml → Prop) (R : Conn → Prop) : Prop where
  stmt : ∀ c s, R c → s.Within W → R (Conn.handler s c).2
  outside : ∀ c (p : Db CliOutput), R c → Db.Writes W p → R (c.outside p).2

/-- Writes that a discipline allows on any tables keep to it. -/
theorem Discipline.stable {D : Discipline} (hW : ∀ d, W d → ∀ t, D.Allowed t d) (conn : Conn) :
    Conn.Stable W fun c => conn.Moves D c where
  stmt c s h hs := by
    have hallowed : s.Within (D.Allowed c.view) := hs.mono fun d hd => hW d hd _
    exact h.trans (h.keeps.handler hallowed)
  outside c p h hp := by
    have hallowed : Db.Writes (fun d => ∀ t, D.Allowed t d) p := hp.mono fun d hd => hW d hd
    exact h.trans (h.keeps.outside hallowed)

/-! ## The requests under `/admin` -/

namespace AdminEnv

variable {st : AdminState}

/-- One operation of a handler. -/
theorem keeps (hR : Conn.Stable W R) (env : AdminEnv) (h : R st.conn) {op : HandlerOp}
    (hop : op.Within W) :
    R (env.handler op st).2.conn := by
  cases op with
  | stmt s => exact hR.stmt _ s h hop
  | _ => exact h

/-- A stretch of a handler. -/
theorem settle_keeps (hR : Conn.Stable W R) (env : AdminEnv) (h : R st.conn) {c : Handling α}
    (hc : Handling.Writes W c) :
    Handling.Writes W (env.settle c st).1 ∧ R (env.settle c st).2.conn :=
  Coro.All.settle (h := env.handler) (I := fun st : AdminState => R st.conn) hc
    (fun _ _ hop hs => env.keeps hR hs hop) h

end AdminEnv

/-- The handlers run no writes but those of `W`. -/
def AdminServer.Within (W : Dml → Prop) (g : AdminServer) : Prop :=
  ∀ task ∈ g.tasks, Handling.Writes W task.coro

/-- **One step of the requests under `/admin`.** -/
theorem AdminServer.Within.step {cfg : AdminConfig} {g g' : AdminServer} {l : AdminServer.Label}
    (hR : Conn.Stable W R) (hserve : ∀ amb req, Handling.Writes W (serve cfg amb req))
    (hconn : R g.state.conn) (h : g.Within W) (hl : ∀ conn, l ≠ .others conn)
    (hstep : AdminServer.step cfg g l = some g') : R g'.state.conn ∧ g'.Within W := by
  cases l with
  | others conn => exact absurd rfl (hl conn)
  | arrive req amb now =>
    simp only [AdminServer.step] at hstep
    split at hstep <;> cases hstep
    obtain ⟨hwrites, hkeeps⟩ :=
      AdminEnv.settle_keeps hR { ids := cfg.ids, req, now } hconn (hserve amb req)
    refine ⟨hkeeps, fun task htask => ?_⟩
    rcases List.mem_append.mp htask with htask | htask
    · exact h task htask
    · rw [List.mem_singleton.mp htask]
      exact hwrites
  | move i now upstream =>
    obtain ⟨task, c, state, ht, -, hc, rfl⟩ := AdminServer.step_move_iff.mp hstep
    obtain ⟨op, -, hop, rfl, hall⟩ := Coro.All.advance (h task (List.mem_of_getElem? ht)) hc
    obtain ⟨hwrites, hkeeps⟩ :=
      AdminEnv.settle_keeps hR { ids := cfg.ids, req := task.req, now, upstream }
      (AdminEnv.keeps hR { ids := cfg.ids, req := task.req, now, upstream } hconn hop) hall
    exact ⟨hkeeps, forall_mem_set h i hwrites⟩
  | cancel i =>
    obtain ⟨task, ht, -, rfl⟩ := AdminServer.step_cancel_iff.mp hstep
    exact ⟨hconn, forall_mem_set h i (Handling.Writes.raise _)⟩

/-! ## Models calls -/

/-- A models call only reads. -/
def ModelsCall.Reads (call : ModelsCall) : Prop :=
  ∀ c nowMs, call.phase = .authenticating c nowMs → Db.Writes (fun _ => False) c

theorem ModelsCall.reads_settle (env : RelayEnv) (headers : Headers) (nowMs : Int)
    {c : Db AuthContext} (hc : Db.Writes (fun _ => False) c) :
    ModelsCall.Reads ⟨headers, Public.settleModels env headers nowMs c⟩ := by
  intro c' nowMs' hp
  cases c with
  | ret =>
    simp only [Public.settleModels, Public.askModels] at hp
    split at hp <;> cases hp
  | raise => cases hp
  | await =>
    cases hp
    exact hc

theorem ModelsCall.reads_done {headers : Headers} {r : Except Exn Response} :
    ModelsCall.Reads ⟨headers, .done r⟩ :=
  fun _ _ hp => nomatch hp

/-! ## What they write -/

/-- It neither logs nor charges. -/
def Dml.Plain (d : Dml) : Prop := d.isLog = false ∧ d.isCharge = false

theorem Cli.Command.plain_of_mayWrite {cfg : CliConfig} {cmd : Cli.Command} {d : Dml}
    (h : cmd.MayWrite cfg d) : d.Plain := by
  cases cmd with
  | userCreate | userSetEnabled => cases h; exact ⟨rfl, rfl⟩
  | keyCreate => obtain ⟨_, _, rfl⟩ := h; exact ⟨rfl, rfl⟩
  | keySetEnabled | adminInit => obtain ⟨_, rfl⟩ := h; exact ⟨rfl, rfl⟩
  | keySetLimits => obtain ⟨_, _, _, rfl⟩ := h; exact ⟨rfl, rfl⟩
  | userList | keyList | usageSummary => exact h.elim

theorem Protected.plain_of_mayWrite {cfg : AdminConfig} {amb : Ambient} {e : Protected} {d : Dml}
    (h : e.MayWrite cfg amb d) :
    d.Plain := by
  cases e with
  | createUser => obtain ⟨_, _, _, rfl⟩ := h; exact ⟨rfl, rfl⟩
  | setUserEnabled | setKeyEnabled => obtain ⟨_, rfl⟩ := h; exact ⟨rfl, rfl⟩
  | createKey => obtain ⟨_, _, _, _, _, rfl⟩ := h; exact ⟨rfl, rfl⟩
  | patchLimits => obtain ⟨_, _, _, rfl⟩ := h; exact ⟨rfl, rfl⟩
  | _ => exact h.elim

theorem serve_plain (cfg : AdminConfig) (amb : Ambient) (req : AdminRequest) :
    Handling.Writes Dml.Plain (serve cfg amb req) := by
  apply (serve_writes cfg amb req).mono
  rintro d ⟨e, -, hd⟩
  exact Protected.plain_of_mayWrite hd

theorem Cli.Command.coro_plain (cfg : CliConfig) (cmd : Cli.Command) :
    Db.Writes Dml.Plain (cmd.coro cfg) :=
  (cmd.coro_writes cfg).mono fun _ hd => Cli.Command.plain_of_mayWrite hd

/-! ## All of them -/

namespace System

variable {cfg : SystemConfig} {s s' : System} {l : Label}

/-- What runs beside the chat requests writes nothing outside `W`. -/
structure Beside (W : Dml → Prop) (s : System) : Prop where
  models : ∀ call ∈ s.models, call.Reads
  admin : s.admin.Within W

theorem Beside.init (W : Dml → Prop) (conn : Conn) (slots drawn : Nat) :
    (System.init conn slots drawn).Beside W where
  models _ hm := absurd hm List.not_mem_nil
  admin _ ht := absurd ht List.not_mem_nil

/-- What a step that is not of a chat request leaves of the gateway. -/
def SameRequests (s s' : System) : Prop :=
  ∃ nowMs c, s'.gateway = { s.gateway with
    conn := s'.gateway.conn
    tasks := s.gateway.tasks ++ authSpawned nowMs c }

theorem SameRequests.of_conn {conn : Conn} (h : s'.gateway = { s.gateway with conn }) :
    s.SameRequests s' := by
  refine ⟨0, .raise (.py .cancelledError), ?_⟩
  rw [h]
  simp only [authSpawned, List.append_nil]

/-- **One step** that is not of a chat request. -/
theorem Beside.step (hR : Conn.Stable W R)
    (hserve : ∀ amb req, Handling.Writes W (serve cfg.admin amb req))
    (hcli : ∀ command : Cli.Command, Db.Writes W (command.coro cfg.cli)) (hconn : R s.gateway.conn)
    (h : s.Beside W) (hl : ∀ l', l ≠ .chat l') (hstep : System.step cfg s l = some s') :
    R s'.gateway.conn ∧ s'.Beside W ∧ s.SameRequests s' := by
  cases Stepped.of_step hstep with
  | @chat l => exact absurd rfl (hl l)
  | @modelsArrive headers nowMs c hc =>
    subst hc
    refine ⟨hconn, ⟨fun call hcall => ?_, h.admin⟩, _, _, rfl⟩
    rcases List.mem_append.mp hcall with hcall | hcall
    · exact h.models call hcall
    · rw [List.mem_singleton.mp hcall]
      exact ModelsCall.reads_settle _ headers nowMs (requireAuth_writes _ _ _ _)
  | @modelsAuth i call c nowMs c' conn hm hp hc =>
    obtain ⟨s₀, -, hreads, rfl, hall⟩ :=
      Coro.All.advance (h.models call (List.mem_of_getElem? hm) c nowMs hp) hc
    have hkeeps := hR.stmt _ s₀ hconn (hreads.mono fun _ hd => hd.elim)
    exact ⟨hkeeps, ⟨forall_mem_set h.models i (ModelsCall.reads_settle _ call.headers nowMs hall),
      h.admin⟩, _, _, rfl⟩
  | modelsCancelled | modelsAnswered =>
    exact ⟨hconn, ⟨forall_mem_set h.models _ ModelsCall.reads_done, h.admin⟩, .of_conn rfl⟩
  | @admin l admin hothers hadmin =>
    obtain ⟨hkeeps, hwithin⟩ :=
      AdminServer.Within.step (g := s.adminServer) hR hserve hconn h.admin hothers hadmin
    exact ⟨hkeeps, ⟨h.models, hwithin⟩, .of_conn rfl⟩
  | @cli command => exact ⟨hR.outside _ _ hconn (hcli command), ⟨h.models, h.admin⟩, .of_conn rfl⟩

end System
end EasyModelGate
