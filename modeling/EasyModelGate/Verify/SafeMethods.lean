import EasyModelGate.Verify.AdminServer
import EasyModelGate.Verify.Footprint
import EasyModelGate.Verify.System

/-! # Safe methods are safe

`require_same_origin` lets `GET`, `HEAD` and `OPTIONS` pass from any origin. A request with one of
these methods runs no write and no commit, and no sign-in or sign-out, at whichever of its steps,
whatever happens between them. -/

namespace EasyModelGate

/-! ## The routes -/

/-- A route of the Admin API that only reads. -/
def Protected.reads : Protected → Bool
  | .me | .listUsers | .listKeys | .getKey
      _ | .usageSummary | .usageTimeseries | .overview | .system | .recentRequests => true
  | _ => false

def Endpoint.reads : Endpoint → Bool
  | .login | .logout | .logoutPage => false
  | .guarded e => e.reads
  | _ => true

/-- Whatever the parameters of the path are. -/
def Target.Reads (t : Target) : Prop := ∀ ids e, t.endpoint ids = some e → e.reads = true

theorem Target.reads_plain (h : e.reads = true) : (Target.plain e).Reads := by
  intro ids e' he
  cases ids with
  | nil => cases he; exact h
  | cons => cases he

theorem Target.reads_guarded (h : e.reads = true) : (Target.guarded e).Reads := by
  intro ids e' he
  cases ids with
  | nil => cases he; exact h
  | cons => cases he

theorem Target.reads_withId {e : Str → Protected} (h : ∀ id, (e id).reads = true) :
    (Target.withId e).Reads := by
  intro ids e' he
  match ids with
  | [] | _ :: _ :: _ => cases he
  | [id] => cases he; exact h id

/-- The routes of the safe methods read. -/
theorem routes_read : ∀ r ∈ routes, str r.method ∈ Admin.safeMethods → r.target.Reads := by
  have hpost : str "POST" ∉ Admin.safeMethods := by decide
  have hpatch : str "PATCH" ∉ Admin.safeMethods := by decide
  simp only [routes, List.forall_mem_cons, hpost, hpatch, false_imp_iff, true_and]
  refine ⟨?_, ?_, ?_, ?_, ?_, ?_, ?_, ?_, ?_, ?_, ?_, ?_, ?_, ?_, ?_,
    fun _ h => absurd h List.not_mem_nil⟩
  all_goals
    intro _
    first
    | exact Target.reads_plain rfl
    | exact Target.reads_guarded rfl
    | exact Target.reads_withId fun _ => rfl

theorem endpoint_reads {req : AdminRequest} (hm : req.method ∈ Admin.safeMethods)
    (h : endpoint req = some e) :
    e.reads = true := by
  obtain ⟨r, hr, hfind⟩ := List.exists_of_findSome?_eq_some h
  unfold Route.find at hfind
  split at hfind
  case isFalse => cases hfind
  rename_i hmethod
  obtain ⟨ids, -, htarget⟩ := Option.bind_eq_some_iff.mp hfind
  exact routes_read r hr (hmethod ▸ hm) ids e htarget

theorem Endpoint.signs_of_reads {e : Endpoint} (h : e.reads = true) : e.signs = false := by
  cases e with
  | login | logout | logoutPage => cases h
  | _ => rfl

theorem Protected.not_mayWrite {cfg : AdminConfig} {amb : Ambient} {e : Protected}
    (h : e.reads = true) (d : Dml) :
    ¬ e.MayWrite cfg amb d := by
  cases e with
  | createUser | setUserEnabled | createKey | setKeyEnabled | patchLimits => cases h
  | _ => exact id

/-! ## What is awaited -/

/-- A read, or a look at a session. -/
def HandlerOp.Safe (op : HandlerOp) : Prop := op.Quiet ∧ op.Within fun _ => False

theorem serve_quiet (cfg : AdminConfig) (amb : Ambient) {req : AdminRequest}
    (h : ∀ e, endpoint req = some e → e.signs = false) :
    (serve cfg amb req).All HandlerOp.Quiet := by
  unfold serve
  cases he : endpoint req with
  | none => exact .ret
  | some e => exact e.handler_quiet cfg amb req (h e he)

theorem serve_safe (cfg : AdminConfig) (amb : Ambient) {req : AdminRequest}
    (hm : req.method ∈ Admin.safeMethods) :
    (serve cfg amb req).All HandlerOp.Safe := by
  have hquiet := serve_quiet cfg amb fun e he => Endpoint.signs_of_reads (endpoint_reads hm he)
  apply hquiet.and
  apply (serve_writes cfg amb req).mono
  rintro d ⟨e, he, hd⟩
  exact Protected.not_mayWrite (endpoint_reads hm he) d hd

/-! ## What a stretch does -/

/-- At most the snapshot of an open transaction has been taken. -/
def Conn.Read (c c' : Conn) : Prop := c' = c ∨ c' = c.pin

theorem Conn.pin_pin (c : Conn) : c.pin.pin = c.pin := by
  have hview := view_pin c
  unfold pin at hview ⊢
  rcases c with ⟨d, _ | tx, l⟩ <;> [rfl; simp only [Option.map_some] at hview ⊢]
  rw [hview]

theorem Conn.Read.query {c c' : Conn} (h : c.Read c') (q : Query) :
    c.Read (c'.step none (.query q)).2 := by
  cases hq : q.exec c'.view with
  | error e =>
    rw [step_query_error hq]
    exact h
  | ok r =>
    rw [step_query_ok hq]
    rcases h with rfl | rfl
    · exact .inr rfl
    · exact .inr c.pin_pin

theorem Conn.Read.tables {c c' : Conn} (h : c.Read c') :
    c'.durable = c.durable ∧ c'.view = c.view := by
  rcases h with rfl | rfl
  · exact ⟨rfl, rfl⟩
  · exact ⟨rfl, view_pin c⟩

/-- Nothing has changed but sessions that had expired, and what a read leaves. -/
structure AdminState.OnlyRead (now : ℚ) (st st' : AdminState) : Prop where
  conn : st.conn.Read st'.conn
  looked : st.Looked now st'

theorem AdminState.OnlyRead.refl (now : ℚ) (st : AdminState) : st.OnlyRead now st :=
  ⟨.inl rfl, .refl now st⟩

theorem AdminState.OnlyRead.handler {env : AdminEnv} {st st' : AdminState}
    (h : st.OnlyRead env.now st') {op : HandlerOp} (hop : op.Safe) :
    st.OnlyRead env.now (env.handler op st').2 := by
  refine ⟨?_, h.looked.handler hop.1⟩
  cases op with
  | stmt s =>
    cases hop.2 with
    | query q => exact h.conn.query q
    | dml hd => exact hd.elim
    | commit hd => exact hd.elim fun _ hd => hd.elim
  | body | probe | lookup => exact h.conn
  | createSession | deleteSession | blocked | recordFailure | reset => exact hop.1.elim

theorem settle_safe (env : AdminEnv) {st st' : AdminState} {c : Handling α}
    (hc : c.All HandlerOp.Safe) (h : st.OnlyRead env.now st') :
    (env.settle c st').1.All HandlerOp.Safe ∧ st.OnlyRead env.now (env.settle c st').2 :=
  hc.settle (fun _ _ hop hs => hs.handler hop) h

/-! ## The requests under `/admin` -/

namespace AdminServer

/-- The request that takes the step. -/
def mover (g : AdminServer) : Label → Option AdminRequest
  | .arrive req _ _ => some req
  | .move i _ _ | .cancel i => (g.tasks[i]?).map (·.req)
  | .others _ => none

/-- The place of the request that takes the step. -/
def place (g : AdminServer) : Label → Nat
  | .arrive .. | .others _ => g.tasks.length
  | .move i _ _ | .cancel i => i

/-- The other requests are where they were, and the history goes on with at most one answer, to this
request. -/
structure OnlyMoves (req : AdminRequest) (l : Label) (g g' : AdminServer) : Prop where
  others : ∀ j, j ≠ g.place l → g'.tasks[j]? = g.tasks[j]?
  own : ∃ t, g'.tasks[g.place l]? = some t ∧ t.req = req
  history : ∃ new, g'.history = g.history ++ new ∧ new.length ≤ 1 ∧ ∀ a ∈ new, a.req = req

/-- Requests with a safe method have only safe operations before them. -/
def Harmless (g : AdminServer) : Prop :=
  ∀ t ∈ g.tasks, t.req.method ∈ Admin.safeMethods → t.coro.All HandlerOp.Safe

variable {cfg : AdminConfig} {g g' : AdminServer} {l : Label}

theorem answered_own (req : AdminRequest) (now : ℚ) (conn : Conn) (c : Handling AdminResponse) :
    (answered req now conn c).length ≤ 1 ∧ ∀ a ∈ answered req now conn c, a.req = req := by
  cases c with
  | ret | raise =>
    exact ⟨Nat.le_refl 1, fun a ha => congrArg Answered.req (List.mem_singleton.mp ha)⟩
  | await => exact ⟨Nat.zero_le 1, fun a ha => absurd ha List.not_mem_nil⟩

/-- **A step moves one request.** -/
theorem onlyMoves_step (hreq : g.mover l = some req) (hstep : AdminServer.step cfg g l = some g') :
    OnlyMoves req l g g' := by
  cases l with
  | others conn => cases hreq
  | arrive req' amb now =>
    cases hreq
    simp only [AdminServer.step] at hstep
    split at hstep <;> cases hstep
    refine ⟨fun j hj => ?_, ⟨_, List.getElem?_concat_length, rfl⟩, _, rfl, answered_own ..⟩
    have hj : j ≠ g.tasks.length := hj
    rcases Nat.lt_or_ge j g.tasks.length with hlt | hge
    · exact List.getElem?_append_left hlt
    · rw [List.getElem?_eq_none hge, List.getElem?_eq_none]
      simp only [stepArrive, List.length_append, List.length_singleton]
      omega
  | move i now upstream =>
    obtain ⟨t, c, state, ht, -, hc, rfl⟩ := step_move_iff.mp hstep
    rw [mover, ht] at hreq
    cases hreq
    have hi := (List.getElem?_eq_some_iff.mp ht).1
    exact ⟨fun j hj => List.getElem?_set_ne (Ne.symm hj), ⟨_, List.getElem?_set_self hi, rfl⟩, _,
      rfl, answered_own ..⟩
  | cancel i =>
    obtain ⟨t, ht, -, rfl⟩ := step_cancel_iff.mp hstep
    rw [mover, ht] at hreq
    cases hreq
    have hi := (List.getElem?_eq_some_iff.mp ht).1
    refine ⟨fun j hj => List.getElem?_set_ne (Ne.symm hj), ⟨_, List.getElem?_set_self hi, rfl⟩, [],
      ?_, Nat.zero_le 1, ?_⟩
    · rw [List.append_nil]
    · exact fun a ha => absurd ha List.not_mem_nil

theorem Harmless.step (h : g.Harmless) (hstep : AdminServer.step cfg g l = some g') :
    g'.Harmless := by
  cases l with
  | others conn =>
    cases hstep
    exact h
  | arrive req amb now =>
    simp only [AdminServer.step] at hstep
    split at hstep <;> cases hstep
    intro t ht
    rcases List.mem_append.mp ht with ht | ht
    · exact h t ht
    · rw [List.mem_singleton.mp ht]
      intro hm
      exact (settle_safe { ids := cfg.ids, req, now } (serve_safe cfg amb hm) (.refl now g.state)).1
  | move i now upstream =>
    obtain ⟨t, c, state, ht, -, hc, rfl⟩ := step_move_iff.mp hstep
    apply forall_mem_set h
    intro hm
    obtain ⟨op, -, hop, rfl, hall⟩ := (h t (List.mem_of_getElem? ht) hm).advance hc
    exact (settle_safe { ids := cfg.ids, req := t.req, now, upstream } hall
      ((AdminState.OnlyRead.refl now g.state).handler hop)).1
  | cancel i =>
    obtain ⟨t, ht, -, rfl⟩ := step_cancel_iff.mp hstep
    exact forall_mem_set h i fun _ => .raise

/-- A step of a request with a safe method. -/
theorem Harmless.onlyRead (h : g.Harmless) (hreq : g.mover l = some req)
    (hm : req.method ∈ Admin.safeMethods) (hstep : AdminServer.step cfg g l = some g') :
    g.state.OnlyRead g'.now g'.state := by
  cases l with
  | others conn => cases hreq
  | arrive req' amb now =>
    cases hreq
    simp only [AdminServer.step] at hstep
    split at hstep <;> cases hstep
    exact (settle_safe { ids := cfg.ids, req, now } (serve_safe cfg amb hm) (.refl now g.state)).2
  | move i now upstream =>
    obtain ⟨t, c, state, ht, -, hc, rfl⟩ := step_move_iff.mp hstep
    rw [mover, ht] at hreq
    cases hreq
    obtain ⟨op, -, hop, rfl, hall⟩ := (h t (List.mem_of_getElem? ht) hm).advance hc
    exact (settle_safe { ids := cfg.ids, req := t.req, now, upstream } hall
      ((AdminState.OnlyRead.refl now g.state).handler hop)).2
  | cancel i =>
    obtain ⟨t, ht, -, rfl⟩ := step_cancel_iff.mp hstep
    exact .refl _ _

end AdminServer

/-! ## The system -/

namespace System

variable {cfg : SystemConfig} {s s' : System}

/-- The tables, the chat requests, the tasks, the slots, the limiters, the models calls, the
commands and the other requests under `/admin` are where they were. -/
structure OnlyRead (req : AdminRequest) (l : AdminServer.Label) (s s' : System) : Prop where
  durable : s'.gateway.conn.durable = s.gateway.conn.durable
  view : s'.gateway.conn.view = s.gateway.conn.view
  gateway : s'.gateway = { s.gateway with conn := s'.gateway.conn }
  models : s'.models = s.models
  printed : s'.printed = s.printed
  /-- An open transaction may get its snapshot, and sessions that have expired may go. -/
  admin : s.adminServer.state.OnlyRead s'.admin.now s'.adminServer.state
  moves : AdminServer.OnlyMoves req l s.admin s'.admin

theorem harmless_step (h : s.admin.Harmless) (hstep : System.step cfg s l = some s') :
    s'.admin.Harmless := by
  cases Stepped.of_step hstep with
  | admin hl hadmin => exact AdminServer.Harmless.step (g := s.adminServer) h hadmin
  | _ => exact h

/-- **A request with a safe method changes nothing**: from its arrival to its end, each of its steps
leaves the tables that are seen and the durable ones, all other requests, and everything else in the
gateway as they were, except that an open transaction may have got its snapshot, and that sessions
that have expired may be gone. -/
theorem safe_onlyRead (cfg : SystemConfig) (conn : Conn) (slots drawn : Nat) (ls : List Label)
    (l : AdminServer.Label) (req : AdminRequest) (s s' : System)
    (h : Run (System.step cfg) (System.init conn slots drawn) ls s)
    (hreq : s.admin.mover l = some req) (hm : req.method ∈ Admin.safeMethods)
    (hstep : System.step cfg s (.admin l) = some s') : OnlyRead req l s s' := by
  have hharmless : s.admin.Harmless := by
    refine h.invariant (I := fun s => s.admin.Harmless) (fun _ _ _ hs hl => harmless_step hs hl) ?_
    exact fun _ ht => absurd ht List.not_mem_nil
  cases Stepped.of_step hstep with
  | admin hl hadmin =>
    have hread := AdminServer.Harmless.onlyRead (g := s.adminServer) hharmless hreq hm hadmin
    have hmoves := AdminServer.onlyMoves_step (g := s.adminServer) hreq hadmin
    obtain ⟨hdurable, hview⟩ := Conn.Read.tables hread.conn
    exact ⟨hdurable, hview, rfl, rfl, rfl, hread, hmoves.others, hmoves.own, hmoves.history⟩

end System

/-- After a login, the list of the users is asked for. -/
def Sample.listsUsers : List System.Label :=
  (signIn ++ [AdminServer.Label.arrive (withCookie "GET" "/admin/api/users" (by decide)) ambient
    4]).map System.Label.admin

open Sample in
theorem System.safe_onlyRead_listUsers : ∃ s s', Run (System.step system)
      (System.init adminConn 1 0) listsUsers s ∧
    System.step system s (.admin (.move 1 5 none)) = some s' ∧
    s'.admin.history.map (·.reply.toOption.map (·.statusCode)) = [some 200, some 200] ∧
    ∃ req, System.OnlyRead req (.move 1 5 none) s s' := by
  have hrun : ((listsUsers.foldlM (System.step system) (System.init adminConn 1 0)).any fun s =>
    (System.step system s (.admin (.move 1 5 none))).any fun s' =>
      decide ((s.admin.mover (.move 1 5 none)).map AdminRequest.method = some (str "GET") ∧
        s'.admin.history.map (·.reply.toOption.map (·.statusCode)) = [some 200, some 200])) =
        true := by decide +kernel
  obtain ⟨s, h, hs⟩ := Run.exists_of_any hrun
  obtain ⟨s', hstep, hp⟩ := (Option.any_eq_true ..).mp hs
  obtain ⟨hmethod, hhistory⟩ := of_decide_eq_true hp
  obtain ⟨req, hreq, hget⟩ := Option.map_eq_some_iff.mp hmethod
  have hm : req.method ∈ Admin.safeMethods := hget ▸ List.mem_cons_self
  exact ⟨s, s', h, hstep, hhistory, req,
    safe_onlyRead system adminConn 1 0 _ _ req s s' h hreq hm hstep⟩

end EasyModelGate
