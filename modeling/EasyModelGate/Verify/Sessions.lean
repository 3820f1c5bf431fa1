import EasyModelGate.Verify.AdminServer

/-! # Which sessions are accepted

The store holds what the history of the answered requests says: for each id the login that has
returned it, unless a logout has carried it since. A session that has expired may still be stored,
or be gone already. -/

namespace EasyModelGate

/-! ## The property -/

namespace Answered

/-- A login that has verified the stored password and returned `sid`. -/
structure LogsIn (lib : AdminAuthLib) (a : Answered) (sid : Str) : Prop where
  endpoint : endpoint a.req = some .login
  verified : ∃ password, a.req.password = some password ∧
    lib.verifies password a.tables.credential = .ok (some true)
  returned : ∃ r c, a.reply = .ok r ∧ r.setCookie = some c ∧ c.value = sid

/-- An accepted logout that carries `sid`, through either route. -/
structure LogsOut (a : Answered) (sid : Str) : Prop where
  endpoint : endpoint a.req = some .logout ∨ endpoint a.req = some .logoutPage
  accepted : ∃ r, a.reply = .ok r
  carried : a.req.sessionCookie = some sid

end Answered

theorem Answered.LogsIn.unique {lib : AdminAuthLib} {a : Answered} (h : a.LogsIn lib sid)
    (h' : a.LogsIn lib sid') :
    sid = sid' := by
  obtain ⟨r, c, hr, hc, rfl⟩ := h.returned
  obtain ⟨r', c', hr', hc', rfl⟩ := h'.returned
  cases hr.symm.trans hr'
  cases hc.symm.trans hc'
  rfl

theorem Answered.LogsIn.not_logsOut {lib : AdminAuthLib} {a : Answered} (h : a.LogsIn lib sid)
    (sid' : Str) :
    ¬ a.LogsOut sid' := by
  intro h'
  rcases h'.endpoint with he | he <;> cases h.endpoint.symm.trans he

/-- No logout carries `sid` after the answer `i`. -/
def Stays (history : List Answered) (i : Nat) (sid : Str) : Prop :=
  ∀ (j : Nat) (b : Answered), i < j → history[j]? = some b → ¬ b.LogsOut sid

/-- A login has returned `sid` less than the TTL before `t`, and no later logout carries it. -/
def SignedIn (lib : AdminAuthLib) (history : List Answered) (sid : Str) (t : ℚ) : Prop :=
  ∃ (i : Nat) (a : Answered), history[i]? = some a ∧ a.LogsIn lib sid ∧
    t < a.time + sessionTtlSeconds ∧
    Stays history i sid

/-- `require_admin_session` lets the request pass at time `t`. -/
def AdminServer.passes (cfg : AdminConfig) (g : AdminServer) (req : AdminRequest) (t : ℚ) : Bool :=
  match (AdminEnv.settle { ids := cfg.ids, req, now := t } (Admin.requireAdminSession req)
    g.state).1 with
  | .ret _ => true
  | _ => false

/-- The server after `require_admin_session` of a request at time `t`. -/
def AdminServer.afterLook (cfg : AdminConfig) (g : AdminServer) (req : AdminRequest) (t : ℚ) :
    AdminServer :=
  { g with
    state := (AdminEnv.settle { ids := cfg.ids, req, now := t }
      (Admin.requireAdminSession req) g.state).2 }

/-! ## What a look at the store says -/

theorem passes_eq (cfg : AdminConfig) (g : AdminServer) (req : AdminRequest) (t : ℚ) :
    g.passes cfg req t = (req.sessionCookie.bind g.state.sessions.sessions).any fun s =>
      !s.expired t := by
  unfold AdminServer.passes Admin.requireAdminSession AdminEnv.settle
  cases req.sessionCookie with
  | none => rfl
  | some sid =>
    dsimp only [Option.bind_some]
    rw [show Handling.lookup sid = Coro.perform (HandlerOp.lookup sid) from
      rfl, Coro.settle_perform rfl]
    dsimp only [AdminEnv.handler]
    cases hs : g.state.sessions.sessions sid with
    | none =>
      rw [SessionStore.lookup_missing hs]
      rfl
    | some s =>
      cases he : s.expired t with
      | true =>
        rw [SessionStore.lookup_expired hs he, Option.any_some, he]
        rfl
      | false =>
        rw [SessionStore.lookup_valid hs he, Option.any_some, he]
        rfl

/-! ## The store and the history -/

/-- The answers so far stay in their places. -/
theorem getElem?_answered {history : List Answered} {i : Nat} {a : Answered}
    (h : history[i]? = some a) (b : Answered) :
    (history ++ [b])[i]? = some a :=
  (List.getElem?_append_left (List.getElem?_eq_some_iff.mp h).1).trans h

theorem stays_concat {history : List Answered} {i : Nat} {a : Answered} (hi : history[i]? = some a)
    (b : Answered) (sid : Str) :
    Stays (history ++ [b]) i sid ↔ Stays history i sid ∧ ¬ b.LogsOut sid := by
  have hlt := (List.getElem?_eq_some_iff.mp hi).1
  constructor
  · intro h
    exact ⟨fun j c hj hc => h j c hj (getElem?_answered hc b),
      h _ b hlt List.getElem?_concat_length⟩
  · rintro ⟨h, hb⟩ j c hj hc
    rcases getElem?_concat_cases hc with hc | ⟨-, rfl⟩
    · exact h j c hj hc
    · exact hb

/-- Nothing comes after the last answer. -/
theorem stays_last (history : List Answered) (b : Answered) (sid : Str) :
    Stays (history ++ [b]) history.length sid := by
  intro j c hj hc
  have hlt := (List.getElem?_eq_some_iff.mp hc).1
  rw [List.length_append, List.length_singleton] at hlt
  omega

/-- The store holds what the history says. -/
structure Tied (lib : AdminAuthLib) (ids : SessionIds) (history : List Answered) (now : ℚ)
    (st : AdminState) : Prop where
  ttl : st.sessions.ttl = sessionTtlSeconds
  /-- An id that has been returned has been drawn. -/
  drawn : ∀ a ∈ history, ∀ sid, a.LogsIn lib sid → ∃ n < st.drawn, sid = ids.id n
  sound : ∀ sid s, st.sessions.sessions sid = some s →
    ∃ (i : Nat) (a : Answered), history[i]? = some a ∧
    a.LogsIn lib sid ∧ s.expiresAt = a.time + sessionTtlSeconds ∧ Stays history i sid
  complete : ∀ sid (i : Nat) (a : Answered), history[i]? = some a → a.LogsIn lib sid →
    now < a.time + sessionTtlSeconds → Stays history i sid →
    ∃ s, st.sessions.sessions sid = some s ∧ s.expiresAt = a.time + sessionTtlSeconds

namespace Tied

variable {lib : AdminAuthLib} {ids : SessionIds} {history : List Answered} {now now' : ℚ}
  {st st' : AdminState}

/-- The session of an id is stored and lives when the id is signed in. -/
theorem any_iff (h : Tied lib ids history now st) {t : ℚ} (ht : now ≤ t) (sid : Str) :
    (st.sessions.sessions sid).any (fun s => !s.expired t) = true ↔ SignedIn lib history sid t := by
  have hlive (s : SessionStore.Session) : (!s.expired t) = true ↔ t < s.expiresAt := by
    simp [SessionStore.Session.expired]
  constructor
  · intro hany
    obtain ⟨s, hs, hl⟩ := (Option.any_eq_true _ _).mp hany
    obtain ⟨i, a, hi, hin, hexp, hstays⟩ := h.sound sid s hs
    exact ⟨i, a, hi, hin, hexp ▸ (hlive s).mp hl, hstays⟩
  · rintro ⟨i, a, hi, hin, hl, hstays⟩
    obtain ⟨s, hs, hexp⟩ := h.complete sid i a hi hin (ht.trans_lt hl) hstays
    exact (Option.any_eq_true _ _).mpr ⟨s, hs, (hlive s).mpr (hexp ▸ hl)⟩

/-- Looks at sessions later on. -/
theorem look (h : Tied lib ids history now st) (hnow : now ≤ now')
    (hl : st.sessions.Looked now' st'.sessions) (hd : st'.drawn = st.drawn) :
    Tied lib ids history now' st' := by
  refine ⟨hl.ttl.trans h.ttl, hd ▸ h.drawn, fun sid s' hs' => ?_,
    fun sid i a hi hin hlive hstays => ?_⟩
  · rcases hl.kept sid with hkept | ⟨hnone, -⟩
    · rw [hs'] at hkept
      obtain ⟨s, hs, he⟩ := Option.map_eq_some_iff.mp hkept.symm
      obtain ⟨i, a, hi, hin, hexp, hstays⟩ := h.sound sid s hs
      exact ⟨i, a, hi, hin, he ▸ hexp, hstays⟩
    · cases hs'.symm.trans hnone
  · obtain ⟨s, hs, hexp⟩ := h.complete sid i a hi hin (hnow.trans_lt hlive) hstays
    rcases hl.kept sid with hkept | ⟨-, s₀, hs₀, he⟩
    · rw [hs] at hkept
      obtain ⟨s', hs', he⟩ := Option.map_eq_some_iff.mp hkept
      exact ⟨s', hs', he.trans hexp⟩
    · -- it had expired before it was deleted
      cases hs.symm.trans hs₀
      exact absurd (hexp ▸ of_decide_eq_true he) (not_le.mpr hlive)

/-- The clock moves on. -/
theorem later (h : Tied lib ids history now st) (hnow : now ≤ now') :
    Tied lib ids history now' st :=
  h.look hnow (.refl _ _) rfl

/-- An answer that is neither a login nor a logout. -/
theorem idle (h : Tied lib ids history now st) {b : Answered} (hin : ∀ sid, ¬ b.LogsIn lib sid)
    (hout : ∀ sid, ¬ b.LogsOut sid) : Tied lib ids (history ++ [b]) now st := by
  refine ⟨h.ttl, fun a ha sid hsid => ?_, fun sid s hs => ?_,
    fun sid i a hi hsid hlive hstays => ?_⟩
  · rcases List.mem_append.mp ha with ha | ha
    · exact h.drawn a ha sid hsid
    · rw [List.mem_singleton.mp ha] at hsid
      exact absurd hsid (hin sid)
  · obtain ⟨i, a, hi, hsid, hexp, hstays⟩ := h.sound sid s hs
    exact ⟨i, a, getElem?_answered hi b, hsid, hexp, (stays_concat hi b sid).mpr ⟨hstays, hout sid⟩⟩
  · rcases getElem?_concat_cases hi with hi | ⟨-, rfl⟩
    · exact h.complete sid i a hi hsid hlive ((stays_concat hi b sid).mp hstays).1
    · exact absurd hsid (hin sid)

/-- A login returns a new id. -/
theorem signIn (h : Tied lib ids history now st) {b : Answered}
    (hb : b.LogsIn lib (ids.id st.drawn)) (htime : b.time = now)
    (hs : st'.sessions = (st.sessions.create (ids.id st.drawn) now).2)
    (hd : st'.drawn = st.drawn + 1) : Tied lib ids (history ++ [b]) now st' := by
  have hcreated : st'.sessions.sessions (ids.id st.drawn) = some
      { sessionId := ids.id st.drawn, createdAt := now, expiresAt := now + st.sessions.ttl } := by
    rw [hs]
    exact Function.update_self ..
  have hother {sid : Str} (hsid : sid ≠ ids.id st.drawn) :
      st'.sessions.sessions sid = st.sessions.sessions sid := by
    rw [hs]
    exact Function.update_of_ne hsid ..
  have hexpires : now + st.sessions.ttl = b.time + sessionTtlSeconds := by rw [h.ttl, htime]
  refine ⟨by rw [hs]; exact h.ttl, fun a ha sid hsid => ?_, fun sid s hsome => ?_,
    fun sid i a hi hsid hlive hstays => ?_⟩
  · rw [hd]
    rcases List.mem_append.mp ha with ha | ha
    · obtain ⟨n, hn, hid⟩ := h.drawn a ha sid hsid
      exact ⟨n, Nat.lt_succ_of_lt hn, hid⟩
    · rw [List.mem_singleton.mp ha] at hsid
      exact ⟨st.drawn, Nat.lt_succ_self _, hsid.unique hb⟩
  · by_cases hid : sid = ids.id st.drawn
    · subst hid
      cases hcreated.symm.trans hsome
      exact ⟨history.length, b, List.getElem?_concat_length, hb, hexpires, stays_last history b _⟩
    · rw [hother hid] at hsome
      obtain ⟨i, a, hi, hsid, hexp, hstays⟩ := h.sound sid s hsome
      exact ⟨i, a, getElem?_answered hi b, hsid, hexp,
        (stays_concat hi b sid).mpr ⟨hstays, hb.not_logsOut sid⟩⟩
  · rcases getElem?_concat_cases hi with hi | ⟨-, rfl⟩
    · -- the new id is not one that has been returned before
      obtain ⟨n, hn, rfl⟩ := h.drawn a (List.mem_of_getElem? hi) sid hsid
      rw [hother fun hid => absurd (ids.injective hid) (Nat.ne_of_lt hn)]
      exact h.complete _ i a hi hsid hlive ((stays_concat hi b _).mp hstays).1
    · cases hsid.unique hb
      exact ⟨_, hcreated, hexpires⟩

/-- A logout drops the session of its cookie. -/
theorem signOut (h : Tied lib ids history now st) {b : Answered} (hin : ∀ sid, ¬ b.LogsIn lib sid)
    (hout : ∀ sid, b.LogsOut sid ↔ b.req.sessionCookie = some sid) :
    Tied lib ids (history ++ [b]) now (st.dropped b.req) := by
  cases hcookie : b.req.sessionCookie with
  | none =>
    have hsame : st.dropped b.req = st := by
      unfold AdminState.dropped
      rw [hcookie]
    rw [hsame]
    apply h.idle hin
    intro sid hsid
    rw [hout, hcookie] at hsid
    cases hsid
  | some sid₀ =>
    have hdropped : st.dropped b.req = { st with sessions := st.sessions.delete sid₀ } := by
      unfold AdminState.dropped
      rw [hcookie]
    have hout' (sid : Str) : b.LogsOut sid ↔ sid = sid₀ := by
      rw [hout, hcookie, Option.some.injEq, eq_comm]
    rw [hdropped]
    refine ⟨h.ttl, fun a ha sid hsid => ?_, fun sid s hsome => ?_,
      fun sid i a hi hsid hlive hstays => ?_⟩
    · rcases List.mem_append.mp ha with ha | ha
      · exact h.drawn a ha sid hsid
      · rw [List.mem_singleton.mp ha] at hsid
        exact absurd hsid (hin sid)
    · dsimp only at hsome
      have hid : sid ≠ sid₀ := by
        rintro rfl
        rw [st.sessions.delete_self] at hsome
        cases hsome
      rw [SessionStore.delete_of_ne hid] at hsome
      obtain ⟨i, a, hi, hsid, hexp, hstays⟩ := h.sound sid s hsome
      refine ⟨i, a, getElem?_answered hi b, hsid, hexp, (stays_concat hi b sid).mpr ⟨hstays, ?_⟩⟩
      rwa [hout']
    · rcases getElem?_concat_cases hi with hi | ⟨-, rfl⟩
      · obtain ⟨hstays, hb⟩ := (stays_concat hi b sid).mp hstays
        rw [hout'] at hb
        dsimp only
        rw [SessionStore.delete_of_ne hb]
        exact h.complete sid i a hi hsid hlive hstays
      · exact absurd hsid (hin sid)

/-- The answer of a stretch that neither logs in nor out. -/
theorem answered (h : Tied lib ids history now st) (req : AdminRequest) (conn : Conn)
    (c : Handling AdminResponse) (hc : (endpoint req).any Endpoint.signs = false ∨
      ∃ e, c = .raise e) :
    Tied lib ids (history ++ AdminServer.answered req now conn c) now st := by
  have hneither {b : Answered} (hreq : b.req = req)
      (hb : (endpoint req).any Endpoint.signs = false ∨ ∃ e, b.reply = .error e) :
      (∀ sid, ¬ b.LogsIn lib sid) ∧ ∀ sid, ¬ b.LogsOut sid := by
    subst hreq
    rcases hb with hb | ⟨e, he⟩
    · constructor <;> intro sid hsid
      · rw [hsid.endpoint] at hb
        cases hb
      · rcases hsid.endpoint with he | he <;> rw [he] at hb <;> cases hb
    · constructor <;> intro sid hsid
      · obtain ⟨r, _, hr, -⟩ := hsid.returned
        cases he.symm.trans hr
      · obtain ⟨r, hr⟩ := hsid.accepted
        cases he.symm.trans hr
  cases c with
  | ret r =>
    obtain ⟨hin, hout⟩ :=
      hneither (b := ⟨req, now, conn.view, .ok r⟩) rfl (hc.imp_right fun ⟨e, he⟩ => nomatch he)
    exact h.idle hin hout
  | raise e =>
    obtain ⟨hin, hout⟩ := hneither (b := ⟨req, now, conn.view, .error e⟩) rfl (.inr ⟨e, rfl⟩)
    exact h.idle hin hout
  | await =>
    rw [AdminServer.answered, List.append_nil]
    exact h

end Tied

/-! ## Every run -/

namespace AdminServer

structure SessionInv (cfg : AdminConfig) (g : AdminServer) : Prop where
  stages : ∀ t ∈ g.tasks, t.Stage cfg.lib
  tied : Tied cfg.lib cfg.ids g.history g.now g.state

theorem SessionInv.step {cfg : AdminConfig} {g g' : AdminServer} (h : g.SessionInv cfg)
    (hstep : AdminServer.step cfg g l = some g') : g'.SessionInv cfg := by
  have hs := Stepped.of_step h.stages hstep
  refine ⟨hs.stage h.stages, ?_⟩
  cases hs with
  | cancel => exact h.tied
  | others => exact h.tied.look le_rfl (.refl _ _) rfl
  | @arrive req amb now c state hnow h' =>
    cases h' with
    | quiet he hc hl => exact (h.tied.look hnow hl.sessions hl.drawn).answered req _ c (.inl he)
    | refused => exact (h.tied.later hnow).answered req _ _ (.inr ⟨_, rfl⟩)
    | limited =>
      apply Tied.answered
      · exact h.tied.look hnow (.refl _ _) rfl
      · exact .inr ⟨_, rfl⟩
    | admitted he _ hc =>
      have hsuspended := LoginAt.suspended hc
      rw [answered_eq_nil hsuspended, List.append_nil]
      exact h.tied.look hnow (.refl _ _) rfl
    | @signedOut r he =>
      apply (h.tied.later hnow).signOut (b := ⟨req, now, _, .ok r⟩)
      · intro sid hsid
        rcases he with he | he <;> cases he.symm.trans hsid.endpoint
      · exact fun sid => ⟨fun hsid => hsid.carried, fun hsid => ⟨he, ⟨r, rfl⟩, hsid⟩⟩
  | @move i req c₀ now upstream c state hnow ht hc₀ h' =>
    cases h' with
    | quiet he hc hl => exact (h.tied.look hnow hl.sessions hl.drawn).answered req _ c (.inl he)
    | login he h' =>
      cases h' with
      | goesOn hc =>
        have hsuspended := LoginAt.suspended hc
        rw [answered_eq_nil hsuspended, List.append_nil]
        exact h.tied.look hnow (.refl _ _) rfl
      | failed | wrong =>
        apply Tied.answered
        · exact h.tied.look hnow (.refl _ _) rfl
        · exact .inr ⟨_, rfl⟩
      | right hpassword hv =>
        exact (h.tied.later hnow).signIn ⟨he, ⟨_, hpassword, hv⟩, _, _, rfl, rfl, rfl⟩ rfl rfl rfl

/-- **Who is signed in**: whatever requests have come in whatever order, a protected request passes
exactly when its cookie is the id that a login has returned which has verified the stored password,
less than the TTL ago, with no accepted logout since; and a look at the store changes nobody's
answer. -/
theorem passes_iff (cfg : AdminConfig) (conn : Conn) (now₀ : ℚ) (ls : List Label) (g : AdminServer)
    (h : Run (AdminServer.step cfg) { state := { conn }, now := now₀ } ls g)
    (req : AdminRequest) (t : ℚ) (ht : g.now ≤ t) :
    (g.passes cfg req t = true ↔ ∃ sid, req.sessionCookie = some sid ∧
      SignedIn cfg.lib g.history sid t) ∧
      ∀ (other : AdminRequest) (t' : ℚ), g.now ≤ t' → t' ≤ t →
        (g.afterLook cfg other t').passes cfg req t = g.passes cfg req t := by
  have hinit : SessionInv cfg { state := { conn }, now := now₀ } :=
    ⟨fun _ h => (nomatch h), rfl, fun _ h => (nomatch h), fun _ _ h => (nomatch h),
      fun _ _ _ h => (nomatch h)⟩
  have hinv := h.invariant (I := SessionInv cfg) (fun _ _ _ hi hs => hi.step hs) hinit
  have hiff {st : AdminState} {now : ℚ} (htied : Tied cfg.lib cfg.ids g.history now st)
      (hnow : now ≤ t) :
      AdminServer.passes cfg { g with state := st } req t = true ↔
        ∃ sid, req.sessionCookie = some sid ∧ SignedIn cfg.lib g.history sid t := by
    rw [passes_eq]
    cases req.sessionCookie with
    | none => simp
    | some sid =>
      dsimp only [Option.bind_some]
      rw [htied.any_iff hnow]
      simp
  refine ⟨hiff hinv.tied ht, fun other t' ht' htt' => ?_⟩
  have hlooked : g.state.Looked t' (g.afterLook cfg other t').state :=
    (settle_quiet { ids := cfg.ids, req := other, now := t' } (requireAdminSession_quiet other)
      (.refl t' g.state)).2
  rw [Bool.eq_iff_iff]
  exact (hiff (hinv.tied.look ht' hlooked.sessions hlooked.drawn) htt').trans
    (hiff hinv.tied ht).symm

open Sample in
theorem passes_iff_signIn : ∃ g, Run (AdminServer.step adminConfig)
      { state := { conn := adminConn }, now := 0 } signIn g ∧
    ∀ (t : ℚ), 3 ≤ t →
      (g.passes adminConfig (withCookie "GET" "/admin/api/users" (by decide)) t = true ↔
      SignedIn adminConfig.lib g.history (sessionIds.id 0) t) := by
  have hfold :
      (signIn.foldlM (AdminServer.step adminConfig)
        { state := { conn := adminConn }, now := 0 }).any
      (fun g => g.now = 3) := by decide +kernel
  obtain ⟨g, hrun, hnow⟩ := Run.exists_of_any hfold
  refine ⟨g, hrun, fun t ht => ?_⟩
  have hpasses := (passes_iff adminConfig adminConn 0 signIn g hrun
    (withCookie "GET" "/admin/api/users" (by decide)) t (by rwa [of_decide_eq_true hnow])).1
  refine hpasses.trans ⟨?_, fun h => ⟨_, rfl, h⟩⟩
  rintro ⟨sid, hsid, h⟩
  cases hsid
  exact h

end AdminServer
end EasyModelGate
