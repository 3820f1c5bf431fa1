import EasyModelGate.Verify.AdminServer

/-! # The `Origin` check over the admin surface

A request that changes something and comes from another origin ends in its first stretch. What it
leaves behind is the lazy deletion of an expired session, except at the logout page. -/

namespace EasyModelGate

/-! ## The property -/

/-- The `Origin` header is missing, or differs from the scheme and the host of the request. -/
def AdminRequest.ForeignOrigin (req : AdminRequest) : Prop :=
  ∀ origin, req.headers.get (str "origin") = some origin →
    Admin.rstripSlash origin ≠ Admin.rstripSlash (Admin.requestOrigin req)

/-- No session is created, and none deleted that has not expired. -/
structure SessionStore.Kept (now : ℚ) (store store' : SessionStore) : Prop where
  created : ∀ sid, store.sessions sid = none → store'.sessions sid = none
  deleted : ∀ sid s, store.sessions sid = some s → s.expired now = false →
    ∃ s', store'.sessions sid = some s' ∧ s'.createdAt = s.createdAt ∧ s'.expiresAt = s.expiresAt

/-- Nothing changes in the database, and no failure of a login is recorded. -/
structure AdminState.Kept (now : ℚ) (st st' : AdminState) : Prop where
  conn : st'.conn = st.conn
  limiter : st'.limiter = st.limiter
  sessions : st.sessions.Kept now st'.sessions

/-- The cookie is the id of a session that has not expired. -/
def AdminState.signedIn (st : AdminState) (req : AdminRequest) (now : ℚ) : Bool :=
  (req.sessionCookie.bind st.sessions.sessions).any fun s => !s.expired now

/-- The request calls the logout of the pages. -/
def AdminRequest.atLogoutPage (req : AdminRequest) : Bool :=
  match endpoint req with
  | some .logoutPage => true
  | _ => false

/-! ## The routes -/

/-- A page that is only shown. -/
def Endpoint.isPage : Endpoint → Bool
  | .loginPage | .overviewPage | .usersPage | .keysPage | .usagePage | .systemPage => true
  | _ => false

def Target.isPage : Target → Bool
  | .plain e => e.isPage
  | _ => false

theorem routes_isPage : (routes.all fun r => !r.target.isPage || r.method == "GET") = true := by
  decide +kernel

theorem Target.isPage_of_endpoint {t : Target} (h : t.endpoint ids = some e)
    (he : e.isPage = true) :
    t.isPage = true := by
  unfold Target.endpoint at h
  split at h <;> cases h
  · exact he
  · cases he
  · cases he

/-- The pages are for `GET`. -/
theorem endpoint_isPage {req : AdminRequest} (h : endpoint req = some e) (he : e.isPage = true) :
    req.method = str "GET" := by
  obtain ⟨r, hr, hfind⟩ := List.exists_of_findSome?_eq_some h
  unfold Route.find at hfind
  split at hfind
  case isFalse => cases hfind
  rename_i hmethod
  obtain ⟨ids, -, htarget⟩ := Option.bind_eq_some_iff.mp hfind
  have hall := List.all_eq_true.mp routes_isPage r hr
  rw [Target.isPage_of_endpoint htarget he] at hall
  rw [hmethod]
  exact congrArg str (eq_of_beq hall)

/-! ## The `Origin` check -/

theorem AdminRequest.ForeignOrigin.of_missing {req : AdminRequest}
    (h : req.headers.get (str "origin") = none) :
    req.ForeignOrigin := by
  intro origin horigin
  rw [h] at horigin
  cases horigin

theorem requireSameOrigin_foreign {req : AdminRequest} (hm : req.method ∉ Admin.safeMethods)
    (ho : req.ForeignOrigin) :
    ∃ e, Admin.requireSameOrigin req = .error e := by
  unfold Admin.requireSameOrigin
  rw [if_neg hm]
  cases hget : (req.headers.get (str "origin")).filter (· ≠ []) with
  | none => exact ⟨_, rfl⟩
  | some origin =>
    obtain ⟨hsome, -⟩ := Option.filter_eq_some_iff.mp hget
    exact ⟨_, if_pos (ho origin hsome)⟩

/-! ## What a stretch does -/

theorem SessionStore.Kept.refl (now : ℚ) (store : SessionStore) : store.Kept now store :=
  ⟨fun _ h => h, fun _ s h _ => ⟨s, h, rfl, rfl⟩⟩

theorem AdminState.Kept.refl (now : ℚ) (st : AdminState) : st.Kept now st := ⟨rfl, rfl, .refl now _⟩

/-- A look at a session deletes it only when it has expired. -/
theorem SessionStore.lookup_kept (store : SessionStore) (sid : Str) (now : ℚ) :
    store.Kept now (store.lookup sid now).2 := by
  cases hs : store.sessions sid with
  | none =>
    rw [lookup_missing hs]
    exact .refl now store
  | some s =>
    cases he : s.expired now with
    | true =>
      rw [lookup_expired hs he]
      refine ⟨fun sid' hnone => ?_, fun sid' s' hsome hlive => ?_⟩
      · exact (Function.update_apply ..).trans (by rw [hnone, ite_self])
      · refine ⟨s', (Function.update_of_ne ?_ ..).trans hsome, rfl, rfl⟩
        rintro rfl
        cases hs.symm.trans hsome
        rw [he] at hlive
        cases hlive
    | false =>
      rw [lookup_valid hs he]
      refine ⟨fun sid' hnone => ?_, fun sid' s' hsome hlive => ?_⟩
      · refine (Function.update_of_ne ?_ ..).trans hnone
        rintro rfl
        cases hs.symm.trans hnone
      · by_cases hid : sid' = sid
        · subst hid
          cases hs.symm.trans hsome
          exact ⟨_, Function.update_self .., rfl, rfl⟩
        · exact ⟨s', (Function.update_of_ne hid ..).trans hsome, rfl, rfl⟩

/-- A deletion keeps the sessions only when there was none that lives. -/
theorem SessionStore.delete_kept_iff (store : SessionStore) (sid : Str) (now : ℚ) :
    store.Kept now (store.delete sid) ↔
    (store.sessions sid).any (fun s => !s.expired now) = false := by
  constructor
  · intro h
    cases hs : store.sessions sid with
    | none => rfl
    | some s =>
      cases he : s.expired now with
      | true => simp [he]
      | false =>
        obtain ⟨s', hs', -⟩ := h.deleted sid s hs he
        rw [store.delete_self] at hs'
        cases hs'
  · intro h
    refine ⟨fun sid' hnone => ?_, fun sid' s hsome hlive => ?_⟩
    · exact (Function.update_apply ..).trans (by rw [hnone, ite_self])
    · refine ⟨s, (Function.update_of_ne ?_ ..).trans hsome, rfl, rfl⟩
      rintro rfl
      rw [hsome] at h
      simp [hlive] at h

namespace AdminEnv

variable (env : AdminEnv) (st : AdminState)

/-- The handling ends in the stretch that begins in `st`, and the state after it satisfies `P`. -/
def EndsWith (c : Handling α) (P : AdminState → Prop) : Prop :=
  (env.settle c st).1.ended = true ∧ P (env.settle c st).2

variable {env st}

theorem endsWith_ret (a : α) {P : AdminState → Prop} (hP : P st) :
    env.EndsWith st (.ret a : Handling α) P := ⟨rfl, hP⟩

theorem endsWith_raise (e : Exn) {P : AdminState → Prop} (hP : P st) :
    env.EndsWith st (.raise e : Handling α) P := ⟨rfl, hP⟩

theorem endsWith_lift_error {x : Except Exn β} (hx : x = .error e) (f : β → Handling α)
    {P : AdminState → Prop} (hP : P st) : env.EndsWith st (Handling.lift x >>= f) P := by
  rw [hx]
  exact endsWith_raise e hP

/-- An operation that neither suspends nor fails. -/
theorem endsWith_perform {op : HandlerOp} (hop : op.instant = true) {r : op.Res} {st' : AdminState}
    (hr : env.handler op st = (.ok r, st')) {f : op.Res → Handling α} {P : AdminState → Prop}
    (h : env.EndsWith st' (f r) P) : env.EndsWith st (Coro.perform op >>= f) P := by
  unfold EndsWith settle at *
  rw [Coro.settle_perform hop, hr]
  exact h

end AdminEnv

/-- A protected route refuses the request: with its session or its origin. -/
theorem guarded_endsWith {req : AdminRequest} (hreq : Admin.requireSameOrigin req = .error e)
    (handler : Handling AdminResponse) (env : AdminEnv) (st : AdminState) :
    env.EndsWith st (Admin.guarded req handler) (st.Kept env.now) := by
  unfold Admin.guarded Admin.requireAdminSession
  cases req.sessionCookie with
  | none => exact AdminEnv.endsWith_raise _ (.refl _ st)
  | some sid =>
    dsimp only
    rw [Coro.bind_assoc]
    refine AdminEnv.endsWith_perform rfl rfl ?_
    have hkept : st.Kept env.now { st with sessions := (st.sessions.lookup sid env.now).2 } :=
      ⟨rfl, rfl, st.sessions.lookup_kept sid env.now⟩
    rcases (st.sessions.lookup sid env.now).1 with ⟨_ | _ | _, _ | session⟩
    case valid.some | missing.some => exact AdminEnv.endsWith_lift_error hreq _ hkept
    all_goals exact AdminEnv.endsWith_raise _ hkept

/-- The logout of the pages deletes the session of the cookie, wherever the request comes from. -/
theorem logoutPage_endsWith {env : AdminEnv} (req : AdminRequest) (st : AdminState) :
    env.EndsWith st (AdminWeb.logoutPage req) fun st' =>
      st.Kept env.now st' ↔ st.signedIn req env.now = false := by
  unfold AdminWeb.logoutPage Admin.dropSession AdminState.signedIn
  cases req.sessionCookie with
  | none => exact AdminEnv.endsWith_ret _ (iff_of_true (.refl _ st) rfl)
  | some sid =>
    refine AdminEnv.endsWith_perform rfl rfl (AdminEnv.endsWith_ret _ ?_)
    refine Iff.trans ?_ (st.sessions.delete_kept_iff sid env.now)
    exact ⟨fun h => h.sessions, fun h => ⟨rfl, rfl, h⟩⟩

/-- A request from a foreign origin ends in its first stretch. -/
theorem serve_endsWith (cfg : AdminConfig) (amb : Ambient) (env : AdminEnv) (st : AdminState)
    (hm : env.req.method ∉ Admin.safeMethods) (ho : env.req.ForeignOrigin) :
    env.EndsWith st (serve cfg amb env.req) fun st' =>
      st.Kept env.now st' ↔ (env.req.atLogoutPage && st.signedIn env.req env.now) = false := by
  obtain ⟨e, hreq⟩ := requireSameOrigin_foreign hm ho
  have hkept {c : Handling AdminResponse} (hpage : env.req.atLogoutPage = false)
      (h : env.EndsWith st c (st.Kept env.now)) : env.EndsWith st c fun st' =>
      st.Kept env.now st' ↔ (env.req.atLogoutPage && st.signedIn env.req env.now) = false := by
    rw [hpage]
    exact ⟨h.1, iff_of_true h.2 rfl⟩
  have hget {e : Endpoint} (h : endpoint env.req = some e) : e.isPage = false := by
    cases he : e.isPage with
    | false => rfl
    | true =>
      have hmethod := endpoint_isPage h he
      exact absurd (hmethod ▸ List.mem_cons_self) hm
  unfold serve
  cases h : endpoint env.req with
  | none =>
    refine hkept ?_ (AdminEnv.endsWith_ret _ (.refl _ st))
    rw [AdminRequest.atLogoutPage, h]
  | some endpoint =>
    have hpage := hget h
    cases endpoint with
    | logoutPage =>
      have hat : env.req.atLogoutPage = true := by rw [AdminRequest.atLogoutPage, h]
      rw [hat]
      exact logoutPage_endsWith env.req st
    | login | logout =>
      refine hkept (by rw [AdminRequest.atLogoutPage, h]) ?_
      exact AdminEnv.endsWith_lift_error hreq _ (.refl _ st)
    | guarded e =>
      refine hkept (by rw [AdminRequest.atLogoutPage, h]) ?_
      exact guarded_endsWith hreq _ env st
    | loginPage | overviewPage | usersPage | keysPage | usagePage | systemPage => cases hpage

namespace AdminServer

/-- **A request from a foreign origin changes nothing**, except that the logout of the pages deletes
a session that has not expired: it ends in its first stretch, which keeps the sessions, the tables
and the failures exactly when it does not reach that logout with the cookie of a living session. -/
theorem foreign_kept_iff (cfg : AdminConfig) (g g' : AdminServer) (req : AdminRequest)
    (amb : Ambient) (now : ℚ) (hm : req.method ∉ Admin.safeMethods) (ho : req.ForeignOrigin)
    (hstep : AdminServer.step cfg g (.arrive req amb now) = some g') :
    (∃ t, g'.tasks = g.tasks ++ [t] ∧ t.coro.ended = true) ∧
      (g.state.Kept now g'.state ↔ (req.atLogoutPage && g.state.signedIn req now) = false) := by
  unfold AdminServer.step at hstep
  dsimp only at hstep
  split at hstep <;> cases hstep
  obtain ⟨hended, hkept⟩ := serve_endsWith cfg amb { ids := cfg.ids, req, now } g.state hm ho
  exact ⟨⟨_, rfl, hended⟩, hkept⟩

open Sample in
theorem foreign_kept_iff_createUser :
    ∃ g', AdminServer.step adminConfig { state := { conn := adminConn } }
      (.arrive (withCookie "POST" "/admin/api/users" (by decide)) ambient 0) = some g' ∧
    AdminState.Kept 0 { conn := adminConn } g'.state := by
  have hforeign : (withCookie "POST" "/admin/api/users" (by decide)).ForeignOrigin :=
    .of_missing rfl
  have hkept := foreign_kept_iff adminConfig _ _ _ ambient 0 (by decide) hforeign
    (step_arrive (g := { state := { conn := adminConn } }) le_rfl adminConfig _ ambient)
  exact ⟨_, step_arrive le_rfl .., hkept.2.mpr (Bool.and_eq_false_imp.mpr fun _ => rfl)⟩

open Sample in
/-- After a login, a request without an `Origin` header to the logout of the pages deletes the new
session. -/
theorem foreign_signs_out : ∃ g g', Run (AdminServer.step adminConfig)
      { state := { conn := adminConn } } signIn g ∧
    (withCookie "POST" "/admin/logout" (by decide)).ForeignOrigin ∧
    AdminServer.step adminConfig g (.arrive (withCookie "POST" "/admin/logout" (by decide)) ambient
        4) = some g' ∧
    ¬ g.state.Kept 4 g'.state := by
  have hfold : (signIn.foldlM (AdminServer.step adminConfig) { state := { conn := adminConn } }).any
    (fun g =>
      g.now ≤ 4 ∧ (g.state.sessions.sessions (sessionIds.id 0)).any
        (fun s => !s.expired 4) = true) := by decide +kernel
  obtain ⟨g, hrun, hg⟩ := Run.exists_of_any hfold
  obtain ⟨hnow, hlive⟩ := of_decide_eq_true hg
  refine ⟨g, _, hrun, .of_missing rfl, step_arrive hnow .., fun hkept => ?_⟩
  have hdeleted := (g.state.sessions.delete_kept_iff (sessionIds.id 0) 4).mp hkept.sessions
  rw [hlive] at hdeleted
  cases hdeleted

end AdminServer
end EasyModelGate
