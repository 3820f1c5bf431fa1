import EasyModelGate.Verify.Csrf
import EasyModelGate.Verify.SafeMethods
import EasyModelGate.Verify.Sessions

/-! # Nothing through the Admin API without a session

`require_admin_session` and `require_same_origin` run in the first stretch of a request, before it
suspends. So a request that goes on to read or write has come from the right origin, with the id of
a session that a login had opened and that was neither closed nor expired at its arrival. -/

namespace EasyModelGate

/-! ## The first stretch of a protected route -/

/-- A protected route refuses the request, or it carries a session. -/
theorem guarded_settled (env : AdminEnv) (st : AdminState) (handler : Handling AdminResponse) :
    (∃ e, (env.settle (Admin.guarded env.req handler) st).1 = .raise e) ∨
      Admin.requireSameOrigin env.req = .ok () ∧ st.signedIn env.req env.now = true := by
  unfold Admin.guarded Admin.requireAdminSession AdminState.signedIn AdminEnv.settle
  cases env.req.sessionCookie with
  | none => exact .inl ⟨_, rfl⟩
  | some sid =>
    dsimp only
    rw [Coro.bind_assoc, show Handling.lookup sid = Coro.perform (HandlerOp.lookup sid) from
      rfl, Coro.settle_perform rfl]
    dsimp only [AdminEnv.handler, Option.bind_some]
    cases hs : st.sessions.sessions sid with
    | none =>
      rw [SessionStore.lookup_missing hs]
      exact .inl ⟨_, rfl⟩
    | some s =>
      cases hexpired : s.expired env.now with
      | true =>
        rw [SessionStore.lookup_expired hs hexpired]
        exact .inl ⟨_, rfl⟩
      | false =>
        rw [SessionStore.lookup_valid hs hexpired]
        cases horigin : Admin.requireSameOrigin env.req with
        | error e => exact .inl ⟨e, rfl⟩
        | ok u => exact .inr ⟨rfl, by rw [Option.any_some, hexpired]; rfl⟩

/-- A stretch leaves the connection as it is: statements are awaited. -/
theorem AdminEnv.settle_conn (env : AdminEnv) (c : Handling α) (st : AdminState) :
    (env.settle c st).2.conn = st.conn := by
  unfold settle
  induction c generalizing st with
  | ret | raise => rfl
  | await op k ih =>
    unfold Coro.settle
    split
    · rw [ih]
      cases op with
      | stmt | body | probe => cases ‹_ = true›
      | _ => rfl
    · rfl

/-- The writes that the request may run, whenever it came. -/
def AdminRequest.Writes (cfg : AdminConfig) (req : AdminRequest) (d : Dml) : Prop :=
  ∃ amb, req.MayWrite cfg amb d

/-- One operation of a request: it reads the database, unless the request is for a route that
writes. -/
theorem AdminEnv.handler_read (env : AdminEnv) (st : AdminState) {cfg : AdminConfig}
    {op : HandlerOp} (hop : op.Within (env.req.Writes cfg)) :
    st.conn.Read (env.handler op st).2.conn ∨ ∃ e, endpoint env.req = some (.guarded e) ∧
    e.reads = false := by
  have hwrites {d : Dml} (hd : env.req.Writes cfg d) : ∃ e, endpoint env.req = some (.guarded e) ∧
      e.reads = false := by
    obtain ⟨amb, e, he, hd⟩ := hd
    refine ⟨e, he, ?_⟩
    by_contra hreads
    exact Protected.not_mayWrite (Bool.not_eq_false _ ▸ hreads) d hd
  cases op with
  | stmt s =>
    cases hop with
    | query q => exact .inl (Conn.Read.query (.inl rfl) q)
    | dml hd => exact .inr (hwrites hd)
    | commit hd => exact .inr (hd.elim fun _ hd => hwrites hd)
  | _ => exact .inl (.inl rfl)

/-! ## The system -/

namespace System

/-- The request `i` under `/admin` was let in when it arrived: from the same origin if it is to
change anything, and with the id that a login had returned which had verified the stored password,
not longer ago than a session lasts and with no logout since. -/
def LetIn (cfg : SystemConfig) (s₀ : System) (ls : List Label) (i : Nat)
    (req : AdminRequest) : Prop :=
  ∃ ls₁ s₁ amb now sid, ls₁ ++ [.admin (.arrive req amb now)] <+: ls ∧
    Run (System.step cfg) s₀ ls₁ s₁ ∧
    s₁.admin.tasks.length = i ∧ Admin.requireSameOrigin req = .ok () ∧
    req.sessionCookie = some sid ∧
    SignedIn cfg.admin.lib s₁.admin.history sid now

variable {cfg : SystemConfig} {s₀ s s' : System} {ls : List Label} {l : Label}

theorem LetIn.mono {i : Nat} {req : AdminRequest} (h : LetIn cfg s₀ ls i req) (l : Label) :
    LetIn cfg s₀ (ls ++ [l]) i req := by
  obtain ⟨ls₁, s₁, amb, now, sid, hprefix, h⟩ := h
  exact ⟨ls₁, s₁, amb, now, sid, hprefix.trans (List.prefix_append _ _), h⟩

/-- What is known of the requests under `/admin` after a run. -/
structure Guarded (cfg : SystemConfig) (s₀ : System) (ls : List Label) (s : System) : Prop where
  sessions : s.adminServer.SessionInv cfg.admin
  /-- A protected route has ended with an error, or it was let in. -/
  letIn : ∀ i t e, s.admin.tasks[i]? = some t → endpoint t.req = some (.guarded e) →
    (∃ exn, t.coro = .raise exn) ∨ LetIn cfg s₀ ls i t.req
  writes : ∀ t ∈ s.admin.tasks, Handling.Writes (t.req.Writes cfg.admin) t.coro

theorem Guarded.init (cfg : SystemConfig) (conn : Conn) (slots drawn : Nat) :
    Guarded cfg (System.init conn slots drawn) [] (System.init conn slots drawn) where
  sessions := ⟨fun _ h => (nomatch h), rfl, fun _ h => (nomatch h), fun _ _ h => (nomatch h),
    fun _ _ _ h => (nomatch h)⟩
  letIn _ _ _ ht := nomatch ht
  writes _ ht := absurd ht List.not_mem_nil

/-- A step of the others: they have the connection in common with the requests under `/admin`, and
nothing else. -/
theorem Guarded.others (h : Guarded cfg s₀ ls s) (hadmin : s'.admin = s.admin) (l : Label) :
    Guarded cfg s₀ (ls ++ [l]) s' := by
  have hserver : s'.adminServer =
      { s.adminServer with state := { s.adminServer.state with conn := s'.gateway.conn } } := by
    rw [adminServer, hadmin]
    rfl
  refine ⟨?_, fun i t e ht he => ?_, ?_⟩
  · rw [hserver]
    exact h.sessions.step (l := .others s'.gateway.conn) rfl
  · rw [hadmin] at ht
    exact (h.letIn i t e ht he).imp_right fun h => h.mono l
  · rw [hadmin]
    exact h.writes

/-- The request that arrives at a protected route. -/
theorem Guarded.arrives (h : Guarded cfg s₀ ls s) (hrun : Run (System.step cfg) s₀ ls s)
    {req : AdminRequest} {amb : Ambient} {now : ℚ} (hnow : s.adminServer.now ≤ now) {e : Protected}
    (he : endpoint req = some (.guarded e)) :
    (∃ exn, (AdminEnv.settle { ids := cfg.admin.ids, req, now } (serve cfg.admin amb req)
      s.adminServer.state).1 = .raise exn) ∨
      LetIn cfg s₀ (ls ++ [.admin (.arrive req amb now)]) s.admin.tasks.length req := by
  have hserve : serve cfg.admin amb req = Admin.guarded req (e.handler cfg.admin amb req) := by
    unfold serve
    rw [he]
    rfl
  rw [hserve]
  apply (guarded_settled { ids := cfg.admin.ids, req, now } s.adminServer.state _).imp_right
  rintro ⟨horigin, hsession⟩
  unfold AdminState.signedIn at hsession
  cases hcookie : req.sessionCookie with
  | none =>
    rw [hcookie] at hsession
    cases hsession
  | some sid =>
    rw [hcookie] at hsession
    exact ⟨ls, s, amb, now, sid, List.prefix_refl _, hrun, rfl, horigin, hcookie,
      (h.sessions.tied.any_iff hnow sid).mp hsession⟩

/-- A step of a request under `/admin`. -/
theorem Guarded.admin (h : Guarded cfg s₀ ls s) (hrun : Run (System.step cfg) s₀ ls s)
    {l : AdminServer.Label} {g : AdminServer} (hl : ∀ conn, l ≠ .others conn)
    (hstep : AdminServer.step cfg.admin s.adminServer l = some g) :
    Guarded cfg s₀ (ls ++ [.admin l]) (s.withAdmin g) := by
  have hsessions : (s.withAdmin g).adminServer.SessionInv cfg.admin := h.sessions.step hstep
  have hkept (i : Nat) (t : AdminTask) (e : Protected) (ht : s.admin.tasks[i]? = some t)
      (he : endpoint t.req = some (.guarded e)) : (∃ exn, t.coro = .raise exn) ∨
      LetIn cfg s₀ (ls ++ [.admin l]) i t.req :=
    (h.letIn i t e ht he).imp_right fun h => h.mono _
  cases l with
  | others conn => exact absurd rfl (hl conn)
  | arrive req amb now =>
    simp only [AdminServer.step] at hstep
    split at hstep <;> cases hstep
    rename_i hnow
    refine ⟨hsessions, fun i t e ht he => ?_, fun t ht => ?_⟩
    · rcases getElem?_concat_cases ht with ht | ⟨rfl, rfl⟩
      · exact hkept i t e ht he
      · exact h.arrives hrun hnow he
    · rcases List.mem_append.mp ht with ht | ht
      · exact h.writes t ht
      · rw [List.mem_singleton.mp ht]
        have hwrites : Handling.Writes (req.Writes cfg.admin) (serve cfg.admin amb req) :=
          (serve_writes cfg.admin amb req).mono fun d hd => ⟨amb, hd⟩
        exact (hwrites.settle (I := fun _ => True) (fun _ _ _ _ => trivial) trivial).1
  | move i now upstream =>
    obtain ⟨t, c, state, ht, -, hc, rfl⟩ := AdminServer.step_move_iff.mp hstep
    obtain ⟨op, hop, hwithin, -, hall⟩ := Coro.All.advance (h.writes t (List.mem_of_getElem? ht)) hc
    refine ⟨hsessions, fun j t' e ht' he => ?_, ?_⟩
    · rcases getElem?_set_cases ht' with ⟨rfl, rfl⟩ | ⟨-, ht'⟩
      · rcases hkept j t e ht he with ⟨exn, hraise⟩ | hletIn
        · rw [hraise] at hc
          cases hc
        · exact .inr hletIn
      · exact hkept j t' e ht' he
    · apply forall_mem_set h.writes
      exact (Coro.All.settle (I := fun _ => True) hall (fun _ _ _ _ => trivial) trivial).1
  | cancel i =>
    obtain ⟨t, ht, -, rfl⟩ := AdminServer.step_cancel_iff.mp hstep
    refine ⟨hsessions, fun j t' e ht' he => ?_, forall_mem_set h.writes i (.raise _)⟩
    rcases getElem?_set_cases ht' with ⟨rfl, rfl⟩ | ⟨-, ht'⟩
    · exact .inl ⟨_, rfl⟩
    · exact hkept j t' e ht' he

theorem Guarded.step (h : Guarded cfg s₀ ls s) (hrun : Run (System.step cfg) s₀ ls s)
    (hstep : System.step cfg s l = some s') :
    Guarded cfg s₀ (ls ++ [l]) s' := by
  cases Stepped.of_step hstep with
  | admin hl hadmin => exact h.admin hrun hl hadmin
  | _ =>
    apply h.others
    rfl

theorem Guarded.run (cfg : SystemConfig) (conn : Conn) (slots drawn : Nat)
    (h : Run (System.step cfg) (System.init conn slots drawn) ls s) :
    Guarded cfg (System.init conn slots drawn) ls s := by
  induction h with
  | nil => exact .init cfg conn slots drawn
  | snoc hrun hstep ih => exact ih.step hrun hstep

/-- **Nothing through the Admin API without a session**: in every run, a request for a protected
route that is being handled or has been answered was let in when it arrived; and a step under
`/admin` leaves the tables and the transaction as a read does, unless it is of a request for a route
that writes, which was let in. -/
theorem admin_guarded (cfg : SystemConfig) (conn : Conn) (slots drawn : Nat)
    (ls : List Label) (s : System) (h : Run (System.step cfg) (System.init conn slots drawn) ls s) :
    (∀ i t e, s.admin.tasks[i]? = some t → endpoint t.req = some (.guarded e) →
      (∃ exn, t.coro = .raise exn) ∨ LetIn cfg (System.init conn slots drawn) ls i t.req) ∧
    ∀ l s', System.step cfg s (.admin l) = some s' → s.gateway.conn.Read s'.gateway.conn ∨
      ∃ i now upstream t e, l = .move i now upstream ∧ s.admin.tasks[i]? = some t ∧
      endpoint t.req = some (.guarded e) ∧
        e.reads = false ∧ LetIn cfg (System.init conn slots drawn) ls i t.req := by
  have hguarded := Guarded.run cfg conn slots drawn h
  refine ⟨hguarded.letIn, fun l s' hstep => ?_⟩
  cases Stepped.of_step hstep with
  | @admin _ g hl hadmin =>
    cases l with
    | others conn => exact absurd rfl (hl conn)
    | arrive req amb now =>
      simp only [AdminServer.step] at hadmin
      split at hadmin <;> cases hadmin
      exact .inl
        (.inl (AdminEnv.settle_conn { ids := cfg.admin.ids, req, now } _ s.adminServer.state))
    | move i now upstream =>
      obtain ⟨t, c, state, ht, -, hc, rfl⟩ := AdminServer.step_move_iff.mp hadmin
      obtain ⟨op, hop, hwithin, rfl, -⟩ :=
        Coro.All.advance (hguarded.writes t (List.mem_of_getElem? ht)) hc
      have hconn := AdminEnv.settle_conn { ids := cfg.admin.ids, req := t.req, now, upstream } c
        (AdminEnv.handler { ids := cfg.admin.ids, req := t.req, now, upstream } op
          s.adminServer.state).2
      rcases AdminEnv.handler_read { ids := cfg.admin.ids, req := t.req, now, upstream }
        s.adminServer.state hwithin with
        hread | ⟨e, he, hwrites⟩
      · refine .inl ?_
        change s.gateway.conn.Read (AdminEnv.settle _ c _).2.conn
        rw [hconn]
        exact hread
      · refine .inr ⟨i, now, upstream, t, e, rfl, ht, he, hwrites, ?_⟩
        rcases hguarded.letIn i t e ht he with ⟨exn, hraise⟩ | hletIn
        · rw [hraise] at hc
          cases hc
        · exact hletIn
    | cancel i =>
      obtain ⟨t, ht, -, rfl⟩ := AdminServer.step_cancel_iff.mp hadmin
      exact .inl (.inl rfl)

end System

namespace Sample

/-- The holder of the first session disables a user. -/
def disable : AdminRequest where
  method := str "POST"
  path := str "/admin/api/users/1/disable"
  underAdmin := by decide
  headers := (login "pw").headers
  cookies := [(sessionCookieName, sessionIds.id 0)]

/-- After a login. -/
def disables : List System.Label :=
  (signIn ++ [AdminServer.Label.arrive disable ambient 4]).map System.Label.admin

theorem endpoint_disable : endpoint disable = some (.guarded (.setUserEnabled false (str "1"))) :=
  rfl

end Sample

open Sample in
theorem System.admin_guarded_disable : ∃ s t, Run (System.step system)
      (System.init adminConn 1 0) disables s ∧
    s.admin.tasks[1]? = some t ∧ endpoint t.req =
        some (.guarded (.setUserEnabled false (str "1"))) ∧ t.coro.ended = false ∧
    LetIn system (System.init adminConn 1 0) disables 1 t.req := by
  have hrun : (disables.foldlM (System.step system) (System.init adminConn 1 0)).any
      (fun s => (s.admin.tasks[1]?).any fun t =>
    decide (t.req.method = disable.method ∧ t.req.path = disable.path ∧
      t.coro.ended = false)) = true := by decide +kernel
  obtain ⟨s, h, hs⟩ := Run.exists_of_any hrun
  obtain ⟨t, ht, hp⟩ := (Option.any_eq_true ..).mp hs
  obtain ⟨hmethod, hpath, hopen⟩ := of_decide_eq_true hp
  have he : endpoint t.req = some (.guarded (.setUserEnabled false (str "1"))) := by
    rw [← endpoint_disable]
    unfold endpoint Route.find
    rw [hmethod, hpath]
  refine ⟨s, t, h, ht, he, hopen, ?_⟩
  rcases (admin_guarded system adminConn 1 0 disables s h).1 1 t _ ht he with ⟨exn, hraise⟩ | hletIn
  · rw [hraise] at hopen
    cases hopen
  · exact hletIn

end EasyModelGate
