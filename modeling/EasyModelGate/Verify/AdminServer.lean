import EasyModelGate.AdminServer
import EasyModelGate.Verify.Credential

/-! # What a stretch of a request under `/admin` does

The sessions and the login limiter are touched by login, by the two logouts and, with a look, by
every other request. -/

namespace EasyModelGate

/-! ## Requests that only look -/

/-- It touches neither the sessions nor the limiter, apart from a look at a session. -/
def HandlerOp.Quiet : HandlerOp → Prop
  | .stmt _ | .body | .probe | .lookup _ => True
  | _ => False

/-- What looks at sessions leave of a store: sessions that had expired may be gone. -/
structure SessionStore.Looked (now : ℚ) (store store' : SessionStore) : Prop where
  ttl : store'.ttl = store.ttl
  kept : ∀ sid, (store'.sessions sid).map Session.expiresAt =
    (store.sessions sid).map Session.expiresAt ∨
    store'.sessions sid = none ∧ ∃ s, store.sessions sid = some s ∧ s.expired now = true

namespace SessionStore.Looked

theorem refl (now : ℚ) (store : SessionStore) : store.Looked now store := ⟨rfl, fun _ => .inl rfl⟩

theorem lookup {store store' : SessionStore} (h : store.Looked now store') (sid : Str) :
    store.Looked now (store'.lookup sid now).2 := by
  cases hs : store'.sessions sid with
  | none =>
    rw [lookup_missing hs]
    exact h
  | some s =>
    have hkept := h.kept sid
    rw [hs] at hkept
    rcases hkept with hkept | ⟨hnone, -⟩
    case inr => cases hnone
    cases he : s.expired now with
    | true =>
      rw [lookup_expired hs he]
      refine ⟨h.ttl, fun sid' => ?_⟩
      by_cases hid : sid' = sid
      · subst hid
        obtain ⟨s₀, hs₀, hexp⟩ := Option.map_eq_some_iff.mp hkept.symm
        refine .inr ⟨store'.delete_self sid', s₀, hs₀, ?_⟩
        unfold Session.expired at he ⊢
        rwa [hexp]
      · rw [delete_of_ne hid]
        exact h.kept sid'
    | false =>
      rw [lookup_valid hs he]
      refine ⟨h.ttl, fun sid' => ?_⟩
      by_cases hid : sid' = sid
      · subst hid
        exact .inl ((congrArg _ (Function.update_self ..)).trans hkept)
      · dsimp only
        rw [Function.update_of_ne hid]
        exact h.kept sid'

end SessionStore.Looked

/-- What a quiet stretch leaves of the state. -/
structure AdminState.Looked (now : ℚ) (st st' : AdminState) : Prop where
  sessions : st.sessions.Looked now st'.sessions
  limiter : st'.limiter = st.limiter
  drawn : st'.drawn = st.drawn

theorem AdminState.Looked.refl (now : ℚ) (st : AdminState) : st.Looked now st :=
  ⟨.refl now _, rfl, rfl⟩

theorem AdminState.Looked.handler {env : AdminEnv} {st st' : AdminState} (h : st.Looked env.now st')
    {op : HandlerOp} (hop : op.Quiet) : st.Looked env.now (env.handler op st').2 := by
  cases op with
  | stmt | body | probe => exact ⟨h.sessions, h.limiter, h.drawn⟩
  | lookup sid => exact ⟨h.sessions.lookup sid, h.limiter, h.drawn⟩
  | createSession | deleteSession | blocked | recordFailure | reset => cases hop

/-- A stretch of a quiet coroutine. -/
theorem settle_quiet (env : AdminEnv) {st st' : AdminState} {c : Handling α}
    (hc : c.All HandlerOp.Quiet) (h : st.Looked env.now st') :
    (env.settle c st').1.All HandlerOp.Quiet ∧ st.Looked env.now (env.settle c st').2 :=
  hc.settle (fun _ _ hop hs => hs.handler hop) h

namespace Handling

theorem ofDb_quiet (c : Db α) : (ofDb c).All HandlerOp.Quiet := .embed (fun _ => trivial) c

theorem lift_quiet (x : Except Exn α) : (lift x).All HandlerOp.Quiet := by
  cases x
  · exact .raise
  · exact .ret

theorem body_quiet : body.All HandlerOp.Quiet := .perform trivial

theorem probe_quiet : probe.All HandlerOp.Quiet := .perform trivial

theorem ofDb_bind (c : Db α) (f : α → Db β) : ofDb (c >>= f) = ofDb c >>= fun a => ofDb (f a) :=
  Coro.embed_bind c f

theorem ofDb_query (q : Query) : ofDb (Db.query q) = Coro.perform (HandlerOp.stmt (.query q)) := by
  refine congrArg (Coro.await (HandlerOp.stmt (.query q))) (funext fun r => ?_)
  cases r <;> rfl

theorem ofDb_lift (x : Except Exn α) : ofDb (Db.lift x) = lift x := by cases x <;> rfl

end Handling

open Handling in
theorem parsedBody_quiet (modelValidate : Json → Except (Option Str) α) :
    (parsedBody modelValidate).All HandlerOp.Quiet :=
  body_quiet.bind fun _ => (lift_quiet _).bind fun _ => lift_quiet _

theorem answer_quiet (toJson : α → Json) (c : Db α) : (answer toJson c).All HandlerOp.Quiet :=
  (Handling.ofDb_quiet c).bind fun _ => .ret

open Handling in
theorem Protected.handler_quiet (cfg : AdminConfig) (amb : Ambient) (req : AdminRequest)
    (e : Protected) :
    (e.handler cfg amb req).All HandlerOp.Quiet := by
  cases e with
  | me => exact .ret
  | createUser | createKey =>
    exact (parsedBody_quiet _).bind fun _ => (ofDb_quiet _).bind fun _ => .ret
  | patchLimits => exact (parsedBody_quiet _).bind fun _ => answer_quiet _ _
  | overview =>
    apply Coro.All.bind
    · exact (ofDb_quiet _).bind fun _ => (probe_quiet.bind fun _ => .ret).bind fun _ =>
        (ofDb_quiet _).bind fun _ => .ret
    · exact fun _ => .ret
  | system =>
    apply Coro.All.bind
    · exact (probe_quiet.bind fun _ => .ret).bind fun _ => (ofDb_quiet _).bind fun _ => .ret
    · exact fun _ => .ret
  | _ => exact answer_quiet _ _

theorem requireAdminSession_quiet (req : AdminRequest) :
    (Admin.requireAdminSession req).All HandlerOp.Quiet := by
  unfold Admin.requireAdminSession
  split
  · exact .raise
  · refine Coro.All.bind (.perform trivial) fun _ => ?_
    split
    · exact .raise
    · exact .raise
    · exact .ret

theorem checkAdminSession_quiet (req : AdminRequest) :
    (AdminWeb.checkAdminSession req).All HandlerOp.Quiet := by
  unfold AdminWeb.checkAdminSession
  split
  · exact .ret
  · exact Coro.All.bind (.perform trivial) fun _ => .ret

theorem page_quiet (template : String) (req : AdminRequest) :
    (AdminWeb.page template req).All HandlerOp.Quiet := by
  refine (checkAdminSession_quiet req).bind fun _ => ?_
  split <;> exact .ret

theorem loginPage_quiet (req : AdminRequest) : (AdminWeb.loginPage req).All HandlerOp.Quiet := by
  refine (checkAdminSession_quiet req).bind fun _ => ?_
  split
  · exact .ret
  · exact (Handling.ofDb_quiet _).bind fun _ => .ret

/-- Login and the two logouts. -/
def Endpoint.signs : Endpoint → Bool
  | .login | .logout | .logoutPage => true
  | _ => false

/-- Every other endpoint only looks. -/
theorem Endpoint.handler_quiet (cfg : AdminConfig) (amb : Ambient) (req : AdminRequest)
    {e : Endpoint} (he : e.signs = false) : (e.handler cfg amb req).All HandlerOp.Quiet := by
  cases e with
  | login | logout | logoutPage => cases he
  | guarded e =>
    exact (requireAdminSession_quiet req).bind fun _ => (Handling.lift_quiet _).bind fun _ =>
      e.handler_quiet cfg amb req
  | loginPage => exact loginPage_quiet req
  | overviewPage | usersPage | keysPage | usagePage | systemPage => exact page_quiet _ req

/-! ## Login -/

/-- The password in the body of a request. -/
def AdminRequest.password (req : AdminRequest) : Option Str :=
  req.body.toOption.bind Admin.passwordOf

/-- What `verify_admin_password` computes from the row. -/
def AdminAuthLib.verifies (lib : AdminAuthLib) (password : Str) (row : Option Str) :
    Except PyExn (Option Bool) := do
  match ← AdminAuthService.decodeAuth lib row with
  | none => return none
  | some metadata => return some (← AdminAuthService.verifyPasswordAgainst lib password metadata)

/-- The login of a request that has passed the limiter, at each of its suspensions. -/
inductive LoginAt (lib : AdminAuthLib) (req : AdminRequest) : Handling AdminResponse → Prop
  | body : LoginAt lib req (Admin.parsePassword >>= fun password =>
      Handling.ofDb (AdminAuthService.isAdminInitialized lib) >>=
          Admin.loginInitialized lib req password)
  | initialized {password} (h : req.password = some password) :
    LoginAt lib req (Handling.ofDb (AdminAuthService.isAdminInitialized lib) >>=
      Admin.loginInitialized lib req password)
  | verify {password} (h : req.password = some password) :
    LoginAt lib req (Handling.ofDb (AdminAuthService.verifyAdminPassword lib password) >>=
      Admin.loginVerified req)

/-- What one move makes of a login. -/
inductive LoginMoved (lib : AdminAuthLib) (env : AdminEnv) (st : AdminState) :
    Handling AdminResponse → AdminState → Prop
  | goesOn {c conn} (h : LoginAt lib env.req c) : LoginMoved lib env st c { st with conn }
  | failed {e} (conn : Conn) (he : e ≠ Admin.invalidCredentials) :
    LoginMoved lib env st (.raise e) { st with conn }
  | wrong {password conn} (h : env.req.password = some password)
    (hv : lib.verifies password conn.view.credential = .ok (some false)) :
    LoginMoved lib env st (.raise Admin.invalidCredentials)
      { st with conn, limiter := st.limiter.recordFailure (Admin.clientKey env.req) env.now }
  | right {password conn} (h : env.req.password = some password)
    (hv : lib.verifies password conn.view.credential = .ok (some true)) :
    LoginMoved lib env st
      (.ret { body := Admin.authenticated true
              setCookie := some (Admin.cookie env.req (env.ids.id st.drawn) 43200) })
      { conn
        limiter := st.limiter.reset (Admin.clientKey env.req)
        sessions := (st.sessions.create (env.ids.id st.drawn) env.now).2
        drawn := st.drawn + 1 }

open AdminAuthService in
/-- A look at the credential suspends. -/
theorem settle_getAdminAuth (lib : AdminAuthLib) (f : Option Metadata → Db α) (k : α → Handling β)
    (env : AdminEnv) (st : AdminState) :
    env.settle (Handling.ofDb (getAdminAuth lib >>= f) >>= k) st =
      (Handling.ofDb (getAdminAuth lib >>= f) >>= k, st) := rfl

open AdminAuthService in
/-- What has been read is decoded in the stretch after the look. -/
theorem advance_getAdminAuth (lib : AdminAuthLib) (f : Option Metadata → Db α) (k : α → Handling β)
    (env : AdminEnv) (st : AdminState) :
    (Handling.ofDb (getAdminAuth lib >>= f) >>= k).advance env.handler st =
      some (Handling.lift ((decodeAuth lib st.conn.view.credential).mapError Exn.py) >>=
        fun metadata =>
        Handling.ofDb (f metadata) >>= k, { st with conn := st.conn.pin }) := by
  have hquery : Conn.handler (.query (.setting settingsKey)) st.conn =
      (.ok st.conn.view.credential, st.conn.pin) := by
    rw [Conn.handler, Conn.step_query_ok
      (show (Query.setting settingsKey).exec st.conn.view = _ from rfl)]
    rfl
  unfold getAdminAuth Dao.getSetting
  rw [Coro.bind_assoc, Handling.ofDb_bind, Handling.ofDb_query, Coro.bind_assoc,
    Coro.advance_perform]
  have hhandler : env.handler (.stmt (.query (.setting settingsKey))) st =
      (.ok st.conn.view.credential, { st with conn := st.conn.pin }) := by
    rw [AdminEnv.handler, hquery]
  rw [hhandler]
  simp only [Handling.ofDb_bind, Handling.ofDb_lift, Coro.bind_assoc]

/-- What `_parse_password` makes of the body. -/
def passwordIn (body : Except Unit Json) : Except Exn Str := do
  let payload ← Admin.parseJsonBody body
  ((Admin.passwordOf payload).map .ok).getD (.error Admin.passwordRequired)

theorem parsePassword_eq :
    Admin.parsePassword = Coro.perform HandlerOp.body >>= fun body =>
      Handling.lift (passwordIn body) := by
  refine congrArg (Coro.perform HandlerOp.body >>= ·) (funext fun body => ?_)
  cases body <;> rfl

theorem passwordIn_cases (req : AdminRequest) :
    (∃ e, passwordIn req.body = .error e ∧ e ≠ Admin.invalidCredentials) ∨
      ∃ password, passwordIn req.body = .ok password ∧ req.password = some password := by
  unfold AdminRequest.password
  cases req.body with
  | error u =>
    refine .inl ⟨_, rfl, ?_⟩
    simp [Admin.invalidCredentials, Admin.refuseAs, Admin.refuse]
  | ok payload =>
    have hparsed : passwordIn (.ok payload) =
        ((Admin.passwordOf payload).map .ok).getD (.error Admin.passwordRequired) := rfl
    rw [hparsed]
    cases hpassword : Admin.passwordOf payload with
    | none => exact .inl ⟨Admin.passwordRequired, rfl, by decide⟩
    | some password => exact .inr ⟨password, rfl, hpassword⟩

namespace LoginAt

variable {lib : AdminAuthLib} {env : AdminEnv} {st : AdminState}

theorem settled {c : Handling AdminResponse} (h : LoginAt lib env.req c) :
    env.settle c st = (c, st) := by
  cases h with
  | body => rfl
  | initialized => exact settle_getAdminAuth ..
  | verify => exact settle_getAdminAuth ..

theorem suspended {req : AdminRequest} {c : Handling AdminResponse} (h : LoginAt lib req c) :
    c.ended = false := by
  cases h <;> rfl

theorem goesOn {c : Handling AdminResponse} (h : LoginAt lib env.req c) (conn : Conn) :
    LoginMoved lib env st (env.settle c { st with conn }).1 (env.settle c { st with conn }).2 := by
  rw [h.settled]
  exact .goesOn h

/-- **One move of a login.** -/
theorem move {c c' : Handling AdminResponse} {st' : AdminState} (h : LoginAt lib env.req c)
    (hc : c.advance env.handler st = some (c', st')) :
    LoginMoved lib env st (env.settle c' st').1 (env.settle c' st').2 := by
  cases h with
  | body =>
    rw [parsePassword_eq, Coro.bind_assoc, Coro.advance_perform] at hc
    cases hc
    change LoginMoved lib env st (env.settle (Handling.lift (passwordIn env.req.body) >>= _) st).1
      (env.settle (Handling.lift (passwordIn env.req.body) >>= _) st).2
    rcases passwordIn_cases env.req with ⟨e, hparsed, he⟩ | ⟨password, hparsed, hp⟩ <;> rw [hparsed]
    · exact .failed st.conn he
    · exact (initialized hp).goesOn st.conn
  | @initialized password hp =>
    unfold AdminAuthService.isAdminInitialized at hc
    rw [advance_getAdminAuth] at hc
    cases hc
    cases hdecode : AdminAuthService.decodeAuth lib st.conn.view.credential with
    | error e => exact .failed st.conn.pin (by simp [Admin.invalidCredentials, Admin.refuseAs])
    | ok metadata =>
      cases metadata with
      | none => exact .failed st.conn.pin (by decide)
      | some metadata => exact (verify hp).goesOn st.conn.pin
  | @verify password hp =>
    unfold AdminAuthService.verifyAdminPassword at hc
    rw [advance_getAdminAuth] at hc
    cases hc
    have hverifies (b : Bool) {metadata : Metadata}
        (hdecode : AdminAuthService.decodeAuth lib st.conn.view.credential = .ok (some metadata))
        (hv : AdminAuthService.verifyPasswordAgainst lib password metadata = .ok b) :
        lib.verifies password st.conn.pin.view.credential = .ok (some b) := by
      rw [Conn.view_pin]
      unfold AdminAuthLib.verifies
      rw [hdecode]
      change (do return some (← AdminAuthService.verifyPasswordAgainst lib password metadata)) = _
      rw [hv]
      rfl
    cases hdecode : AdminAuthService.decodeAuth lib st.conn.view.credential with
    | error e => exact .failed st.conn.pin (by simp [Admin.invalidCredentials, Admin.refuseAs])
    | ok metadata =>
      cases metadata with
      | none => exact .failed st.conn.pin (by decide)
      | some metadata =>
        change LoginMoved lib env st
          (env.settle
            (Handling.ofDb
              (Db.lift ((AdminAuthService.verifyPasswordAgainst lib password metadata).mapError
            Exn.py)) >>= Admin.loginVerified env.req) { st with conn := st.conn.pin }).1
          (env.settle
            (Handling.ofDb
              (Db.lift ((AdminAuthService.verifyPasswordAgainst lib password metadata).mapError
            Exn.py)) >>= Admin.loginVerified env.req) { st with conn := st.conn.pin }).2
        cases hv : AdminAuthService.verifyPasswordAgainst lib password metadata with
        | error e => exact .failed st.conn.pin (by simp [Admin.invalidCredentials, Admin.refuseAs])
        | ok b =>
          cases b with
          | false => exact .wrong hp (hverifies false hdecode hv)
          | true => exact .right hp (hverifies true hdecode hv)

end LoginAt

/-! ## The first stretch -/

/-- The session of the cookie is gone. -/
def AdminState.dropped (st : AdminState) (req : AdminRequest) : AdminState :=
  match req.sessionCookie with
  | none => st
  | some sid => { st with sessions := st.sessions.delete sid }

/-- What the first stretch of a request does. -/
inductive Arrived (lib : AdminAuthLib) (env : AdminEnv) (st : AdminState) :
    Handling AdminResponse → AdminState → Prop
  | quiet {c st'} (he : (endpoint env.req).any Endpoint.signs = false) (hc : c.All HandlerOp.Quiet)
    (h : st.Looked env.now st') : Arrived lib env st c st'
  | refused {e} (he : e ≠ Admin.invalidCredentials) : Arrived lib env st (.raise e) st
  | limited : Arrived lib env st (.raise Admin.loginRateLimited)
      { st with limiter := (st.limiter.blocked (Admin.clientKey env.req) env.now).2 }
  | admitted {c} (he : endpoint env.req = some .login)
    (horigin : Admin.requireSameOrigin env.req = .ok ()) (hc : LoginAt lib env.req c)
    (hopen : (st.limiter.blocked (Admin.clientKey env.req) env.now).1 = false) :
    Arrived lib env st c
      { st with limiter := (st.limiter.blocked (Admin.clientKey env.req) env.now).2 }
  | signedOut {r} (he : endpoint env.req = some .logout ∨ endpoint env.req = some .logoutPage) :
    Arrived lib env st (.ret r) (st.dropped env.req)

theorem requireSameOrigin_ne {req : AdminRequest} (h : Admin.requireSameOrigin req = .error e) :
    e ≠ Admin.invalidCredentials := by
  unfold Admin.requireSameOrigin at h
  split at h
  · cases h
  split at h
  · cases h
    decide
  split at h <;> cases h
  decide

theorem settle_dropSession (env : AdminEnv) (st : AdminState) (r : AdminResponse) :
    env.settle (Admin.dropSession env.req >>= fun _ => .ret r) st =
      (.ret r, st.dropped env.req) := by
  unfold Admin.dropSession AdminState.dropped
  cases env.req.sessionCookie <;> rfl

theorem arrived_login (lib : AdminAuthLib) (env : AdminEnv) (st : AdminState)
    (he : endpoint env.req = some .login) :
    Arrived lib env st (env.settle (Admin.adminLogin lib env.req) st).1
      (env.settle (Admin.adminLogin lib env.req) st).2 := by
  unfold Admin.adminLogin
  cases horigin : Admin.requireSameOrigin env.req with
  | error e => exact .refused (requireSameOrigin_ne horigin)
  | ok u =>
    change Arrived lib env st
      (env.settle (if (st.limiter.blocked (Admin.clientKey env.req) env.now).1 then _ else _) _).1
      (env.settle (if (st.limiter.blocked (Admin.clientKey env.req) env.now).1 then _ else _) _).2
    cases hblocked : (st.limiter.blocked (Admin.clientKey env.req) env.now).1 with
    | true => exact .limited
    | false => exact .admitted he horigin .body hblocked

theorem Arrived.of_serve (cfg : AdminConfig) (amb : Ambient) (env : AdminEnv) (st : AdminState) :
    Arrived cfg.lib env st (env.settle (serve cfg amb env.req) st).1
      (env.settle (serve cfg amb env.req) st).2 := by
  unfold serve
  cases he : endpoint env.req with
  | none => exact .quiet (by rw [he]; rfl) .ret (.refl _ st)
  | some e =>
    cases hsigns : e.signs with
    | false =>
      obtain ⟨hc, h⟩ := settle_quiet env (e.handler_quiet cfg amb env.req hsigns)
        (AdminState.Looked.refl env.now st)
      exact .quiet (by rw [he]; exact hsigns) hc h
    | true =>
      cases e with
      | login => exact arrived_login cfg.lib env st he
      | logout =>
        change Arrived cfg.lib env st (env.settle (Admin.adminLogout env.req) st).1
          (env.settle (Admin.adminLogout env.req) st).2
        unfold Admin.adminLogout
        cases horigin : Admin.requireSameOrigin env.req with
        | error e => exact .refused (requireSameOrigin_ne horigin)
        | ok u =>
          change Arrived cfg.lib env st
            (env.settle (Admin.dropSession env.req >>= fun _ => .ret _) st).1
            (env.settle (Admin.dropSession env.req >>= fun _ => .ret _) st).2
          rw [settle_dropSession]
          exact .signedOut (.inl he)
      | logoutPage =>
        change Arrived cfg.lib env st
          (env.settle (Admin.dropSession env.req >>= fun _ => .ret _) st).1
          (env.settle (Admin.dropSession env.req >>= fun _ => .ret _) st).2
        rw [settle_dropSession]
        exact .signedOut (.inr he)
      | guarded | loginPage | overviewPage | usersPage | keysPage | usagePage | systemPage =>
        cases hsigns

/-! ## The steps of the server -/

/-- Where a request is. -/
inductive AdminTask.Stage (lib : AdminAuthLib) (t : AdminTask) : Prop
  | ended (h : t.coro.ended = true)
  | login (he : endpoint t.req = some .login) (h : LoginAt lib t.req t.coro)
  | quiet (he : (endpoint t.req).any Endpoint.signs = false) (h : t.coro.All HandlerOp.Quiet)

/-- What a later stretch does. -/
inductive Moved (lib : AdminAuthLib) (env : AdminEnv) (st : AdminState) :
    Handling AdminResponse → AdminState → Prop
  | quiet {c st'} (he : (endpoint env.req).any Endpoint.signs = false) (hc : c.All HandlerOp.Quiet)
    (h : st.Looked env.now st') : Moved lib env st c st'
  | login {c st'} (he : endpoint env.req = some .login) (h : LoginMoved lib env st c st') :
    Moved lib env st c st'

theorem AdminTask.Stage.move {lib : AdminAuthLib} (env : AdminEnv) {c c' : Handling AdminResponse}
    {st st' : AdminState} (h : AdminTask.Stage lib ⟨env.req, c⟩)
    (hc : c.advance env.handler st = some (c', st')) :
    Moved lib env st (env.settle c' st').1 (env.settle c' st').2 := by
  cases h with
  | ended h =>
    cases c with
    | ret | raise => cases hc
    | await => cases h
  | login he h => exact .login he (h.move hc)
  | quiet he h =>
    obtain ⟨op, -, hop, rfl, hall⟩ := h.advance hc
    obtain ⟨hall, hlooked⟩ :=
      settle_quiet env hall ((AdminState.Looked.refl env.now st).handler hop)
    exact .quiet he hall hlooked

namespace AdminServer

inductive Stepped (cfg : AdminConfig) (g : AdminServer) : Label → AdminServer → Prop
  | arrive {req amb now c state} (hnow : g.now ≤ now)
    (h : Arrived cfg.lib { ids := cfg.ids, req, now } g.state c state) :
    Stepped cfg g (.arrive req amb now)
      { state, now, tasks := g.tasks ++ [⟨req, c⟩],
        history := g.history ++ answered req now state.conn c }
  | move {i req c₀ now upstream c state} (hnow : g.now ≤ now) (ht : g.tasks[i]? = some ⟨req, c₀⟩)
    (hc₀ : c₀.ended = false)
    (h : Moved cfg.lib { ids := cfg.ids, req, now, upstream } g.state c state) :
    Stepped cfg g (.move i now upstream)
      { state, now, tasks := g.tasks.set i ⟨req, c⟩,
        history := g.history ++ answered req now state.conn c }
  | cancel {i req c₀} (ht : g.tasks[i]? = some ⟨req, c₀⟩) (hc₀ : c₀.ended = false) :
    Stepped cfg g (.cancel i) { g with tasks := g.tasks.set i ⟨req, .raise (.py .cancelledError)⟩ }
  | others {conn} : Stepped cfg g (.others conn) { g with state := { g.state with conn } }

theorem step_arrive {g : AdminServer} {now : ℚ} (h : g.now ≤ now) (cfg : AdminConfig)
    (req : AdminRequest) (amb : Ambient) :
    AdminServer.step cfg g (.arrive req amb now) = some (g.stepArrive cfg req amb now) := if_pos h

theorem step_move_iff {cfg : AdminConfig} {g g' : AdminServer} {i : Nat} {now : ℚ}
    {upstream : Option Nat} :
    AdminServer.step cfg g (.move i now upstream) = some g' ↔
    ∃ t c state, g.tasks[i]? = some t ∧ g.now ≤ now ∧
      t.coro.advance (AdminEnv.handler { ids := cfg.ids, req := t.req, now, upstream }) g.state =
        some (c, state) ∧
      g' = {
        state := (AdminEnv.settle { ids := cfg.ids, req := t.req, now, upstream } c state).2
        now
        tasks := g.tasks.set i ⟨t.req,
          (AdminEnv.settle { ids := cfg.ids, req := t.req, now, upstream } c state).1⟩
        history := g.history ++ answered t.req now
          (AdminEnv.settle { ids := cfg.ids, req := t.req, now, upstream } c state).2.conn
          (AdminEnv.settle { ids := cfg.ids, req := t.req, now, upstream } c state).1 } := by
  constructor
  · intro h
    simp only [AdminServer.step] at h
    split at h <;> [skip; cases h]
    rename_i t ht
    split at h <;> [skip; cases h]
    obtain ⟨⟨c, state⟩, hc, h⟩ := Option.bind_eq_some_iff.mp h
    cases h
    exact ⟨t, c, state, ht, ‹_›, hc, rfl⟩
  · rintro ⟨t, c, state, ht, hnow, hc, rfl⟩
    simp only [AdminServer.step, ht, if_pos hnow, stepMove, hc]
    rfl

theorem step_cancel_iff {cfg : AdminConfig} {g g' : AdminServer} {i : Nat} :
    AdminServer.step cfg g (.cancel i) = some g' ↔ ∃ t, g.tasks[i]? = some t ∧
    t.coro.ended = false ∧
      g' = { g with tasks := g.tasks.set i { t with coro := .raise (.py .cancelledError) } } := by
  constructor
  · intro h
    simp only [AdminServer.step] at h
    split at h <;> [skip; cases h]
    split at h <;> cases h
    exact ⟨_, ‹_›, Bool.eq_false_iff.mpr ‹_›, rfl⟩
  · rintro ⟨t, ht, hended, rfl⟩
    simp only [AdminServer.step, ht, hended]
    rfl

theorem answered_eq_nil {c : Handling AdminResponse} (hc : c.ended = false)
    (req : AdminRequest) (now : ℚ) (conn : Conn) : answered req now conn c = [] := by
  cases c with
  | ret | raise => cases hc
  | await => rfl

/-- **The inversion of a step**, while every request is at one of its stages. -/
theorem Stepped.of_step {cfg : AdminConfig} {g g' : AdminServer}
    (hstage : ∀ t ∈ g.tasks, t.Stage cfg.lib) (h : AdminServer.step cfg g l = some g') :
    Stepped cfg g l g' := by
  cases l with
  | arrive req amb now =>
    simp only [AdminServer.step] at h
    split at h <;> cases h
    exact .arrive ‹_› (.of_serve cfg amb { ids := cfg.ids, req, now } g.state)
  | move i now upstream =>
    obtain ⟨t, c, state, ht, hnow, hc, rfl⟩ := step_move_iff.mp h
    have hmoved := AdminTask.Stage.move { ids := cfg.ids, req := t.req, now, upstream }
      (hstage t (List.mem_of_getElem? ht)) hc
    refine .move hnow ht ?_ hmoved
    cases hcoro : t.coro with
    | ret | raise => rw [hcoro] at hc; cases hc
    | await => rfl
  | cancel i =>
    obtain ⟨t, ht, hended, rfl⟩ := step_cancel_iff.mp h
    exact .cancel ht hended
  | others conn =>
    cases h
    exact .others

/-- Every request stays at one of its stages. -/
theorem Stepped.stage {cfg : AdminConfig} {g g' : AdminServer} (h : Stepped cfg g l g')
    (hstage : ∀ t ∈ g.tasks, t.Stage cfg.lib) : ∀ t ∈ g'.tasks, t.Stage cfg.lib := by
  cases h with
  | others => exact hstage
  | cancel => exact forall_mem_set hstage _ (.ended rfl)
  | @arrive req amb now c state hnow h =>
    intro t ht
    rcases List.mem_append.mp ht with ht | ht
    · exact hstage t ht
    · rw [List.mem_singleton.mp ht]
      cases h with
      | quiet he hc => exact .quiet he hc
      | refused | limited | signedOut => exact .ended rfl
      | admitted he _ hc => exact .login he hc
  | move hnow ht hc₀ h =>
    apply forall_mem_set hstage
    cases h with
    | quiet he hc => exact .quiet he hc
    | login he h =>
      cases h with
      | goesOn h => exact .login he h
      | failed | wrong | right => exact .ended rfl

end AdminServer

namespace Sample

/-- The key that scrypt derives from the wrong password. -/
def derivedWrong : Bytes :=
  [0x07, 0xdf, 0x92, 0x01, 0x28, 0x41, 0x8d, 0xb8, 0xc1, 0xc2, 0xf1, 0xfd, 0x80, 0x9d, 0x85, 0x96,
    0x59, 0xb6, 0xa6, 0x9d, 0x50, 0x2c, 0x78, 0xbc, 0x51, 0xc5, 0x55, 0x7f, 0xd0, 0x75, 0xe9, 0xd8]

def adminScrypt (password salt : Bytes) (n r p : Int) (dklen : Nat) : Except PyExn Bytes :=
  if password = bytes "nope" ∧ salt = initOp1.salt ∧
      (n, r, p, dklen) = (AdminAuthService.scryptN, AdminAuthService.scryptR,
        AdminAuthService.scryptP, AdminAuthService.dklen)
  then .ok derivedWrong
  else scrypt password salt n r p dklen

/-- The ids are `a`, `aa` and so on. -/
def sessionIds : SessionIds where
  id n := List.replicate (n + 1) 0x61
  injective m n h := by simpa using congrArg List.length h
  nonempty n := List.cons_ne_nil _ _

def calendar : Calendar where
  parseLocalMs _ := .error .valueError
  startOf _ clk := .ok (some clk.nowMs)
  bucketKey _ _ := .ok []

def adminConfig : AdminConfig where
  lib := { authLib with scrypt := adminScrypt }
  ids := sessionIds
  userCreate _ := .error none
  keyCreate _ := .error none
  keyLimits _ := .error none
  hashKey key := key
  zone := ⟨fun _ => 0, fun _ => 0⟩
  calendar := calendar
  timezone := str "UTC"
  keyPrefix := str "emg_"
  info := ⟨str "1.0", 0, 0⟩
  hex _ := []

/-- What `initialize_admin` has stored for the first password. -/
def storedCredential : Except PyExn Str := do
  authLib.dumps (.obj (← AdminAuthService.hashPassword authLib initOp1.password initOp1.salt
      initOp1.nowMs))

def adminConn : Conn where
  durable := { settings := [(AdminAuthService.settingsKey, storedCredential.toOption.getD [])] }

def ambient : Ambient := ⟨⟨0, 0⟩, []⟩

/-- A login from the gateway's own origin. -/
def login (password : String) : AdminRequest where
  method := str "POST"
  path := str "/admin/api/auth/login"
  underAdmin := by decide
  headers := [(str "host", str "gateway"), (str "origin", str "http://gateway")]
  body := .ok (.obj [(str "password", .str (str password))])
  clientHost := some (str "127.0.0.1")

open AdminServer.Label in
/-- A login that is alone. -/
def signIn : List AdminServer.Label :=
  [arrive (login "pw") ambient 0, move 0 1 none, move 0 2 none, move 0 3 none]

/-- A request with the cookie of the first session. -/
def withCookie (method path : String) (h : str "/admin" <+: str path) : AdminRequest where
  method := str method
  path := str path
  underAdmin := h
  cookies := [(sessionCookieName, sessionIds.id 0)]

end Sample
end EasyModelGate
