import EasyModelGate.Verify.AdminServer

/-! # How often a password can be guessed

The limiter is asked when a login arrives, and told of a failure when its password has been
verified. In between the login is open: the failures of a window and the open logins together are
what the limiter must leave room for. -/

namespace EasyModelGate

/-! ## The property -/

/-- The request calls the login, from the origin `key`. -/
def AdminRequest.loginFrom (req : AdminRequest) (key : Str) : Bool :=
  match endpoint req with
  | some .login => Admin.clientKey req = key
  | _ => false

namespace Answered

/-- A login from `key` whose password was wrong. -/
def isGuess (key : Str) (a : Answered) : Bool :=
  match a.reply with
  | .error e => a.req.loginFrom key && e = Admin.invalidCredentials
  | .ok _ => false

/-- A login from `key` that has succeeded. -/
def isSuccess (key : Str) (a : Answered) : Bool :=
  match a.reply with
  | .ok _ => a.req.loginFrom key
  | .error _ => false

/-- The password of the request has been verified against the stored credential, and is wrong. -/
def VerifiedWrong (lib : AdminAuthLib) (a : Answered) : Prop :=
  ∃ password, a.req.password = some password ∧
    lib.verifies password a.tables.credential = .ok (some false)

end Answered

/-- When the wrong passwords of `key` were verified. -/
def guessTimes (key : Str) (history : List Answered) : List ℚ :=
  (history.filter (Answered.isGuess key)).map Answered.time

/-- Of these times, how many are in the half-open window from `t` on. -/
def inWindow (times : List ℚ) (t : ℚ) : Nat :=
  times.countP fun u => t ≤ u && u < t + loginWindowSeconds

def AdminTask.openLogin (key : Str) (t : AdminTask) : Bool := t.req.loginFrom key && !t.coro.ended

/-- The logins from `key` that have been let in and have not ended. -/
def AdminServer.openLogins (key : Str) (g : AdminServer) : Nat :=
  g.tasks.countP (AdminTask.openLogin key)

/-- A login from `key` that the check lets in finds room beside the open ones, should all of them
fail. -/
def AdminServer.sparing (key : Str) (g : AdminServer) : Label → Bool
  | .arrive req _ now =>
    let failures := (g.state.limiter.recent key now).length
    !(req.loginFrom key && (Admin.requireSameOrigin req).isOk && failures < loginMaxFailures) ||
      failures + g.openLogins key < loginMaxFailures
  | _ => true

/-! ## Requests -/

theorem AdminRequest.loginFrom_iff {req : AdminRequest} :
    req.loginFrom key = true ↔ endpoint req = some .login ∧ Admin.clientKey req = key := by
  unfold loginFrom
  split
  · rename_i he
    simp [he]
  · rename_i hne
    exact iff_of_false Bool.false_ne_true fun h => hne h.1

theorem AdminRequest.loginFrom_of_signs {req : AdminRequest}
    (h : (endpoint req).any Endpoint.signs = false) (key : Str) :
    req.loginFrom key = false := by
  rw [Bool.eq_false_iff]
  intro hlogin
  rw [(loginFrom_iff.mp hlogin).1] at h
  cases h

theorem guessTimes_append (key : Str) (history history' : List Answered) :
    guessTimes key (history ++ history') = guessTimes key history ++ guessTimes key history' := by
  unfold guessTimes
  rw [List.filter_append, List.map_append]

section
variable {key : Str} {req : AdminRequest} (history : List Answered) (now : ℚ) (conn : Conn)

/-- A stretch that does not end with a wrong password of `key`. -/
theorem guessTimes_answered {c : Handling AdminResponse}
    (hc : c = .raise Admin.invalidCredentials → req.loginFrom key = false) :
    guessTimes key (history ++ AdminServer.answered req now conn c) = guessTimes key history := by
  rw [guessTimes_append]
  cases c with
  | ret | await => exact List.append_nil _
  | raise e =>
    have hno : Answered.isGuess key ⟨req, now, conn.view, .error e⟩ = false := by
      unfold Answered.isGuess
      by_cases he : e = Admin.invalidCredentials
      · subst he
        simp [hc rfl]
      · simp [he]
    simp [AdminServer.answered, guessTimes, hno]

theorem guessTimes_ret (r : AdminResponse) :
    guessTimes key (history ++ AdminServer.answered req now conn (.ret r)) =
      guessTimes key history :=
  guessTimes_answered history now conn fun hc => by cases hc

theorem guessTimes_raise {e : Exn} (he : e ≠ Admin.invalidCredentials) :
    guessTimes key (history ++ AdminServer.answered req now conn (.raise e)) =
      guessTimes key history :=
  guessTimes_answered history now conn fun hc => absurd (Coro.raise.inj hc) he

theorem guessTimes_guess (hreq : req.loginFrom key = true) :
    guessTimes key (history ++ AdminServer.answered req now conn
      (.raise Admin.invalidCredentials)) =
      guessTimes key history ++ [now] := by
  rw [guessTimes_append]
  simp [AdminServer.answered, guessTimes, Answered.isGuess, hreq]

end

/-! ## The limiter -/

/-- For `key` and from `now` on the limiters are the same. -/
structure LoginRateLimiter.SameFor (key : Str) (now : ℚ) (l l' : LoginRateLimiter) : Prop where
  window : l'.window = l.window
  maxFailures : l'.maxFailures = l.maxFailures
  recent : ∀ t, now ≤ t → l'.recent key t = l.recent key t

namespace LoginRateLimiter.SameFor

theorem refl (key : Str) (now : ℚ) (l : LoginRateLimiter) : l.SameFor key now l :=
  ⟨rfl, rfl, fun _ _ => rfl⟩

theorem blocked (key originKey : Str) (now : ℚ) (l : LoginRateLimiter) :
    l.SameFor key now (l.blocked originKey now).2 :=
  ⟨rfl, rfl, fun _ ht => recent_blocked ht⟩

theorem recordFailure (h : key ≠ originKey) (now : ℚ) (l : LoginRateLimiter) :
    l.SameFor key now (l.recordFailure originKey now) :=
  ⟨rfl, rfl, fun _ _ => recent_recordFailure_of_ne h⟩

theorem reset (h : key ≠ originKey) (now : ℚ) (l : LoginRateLimiter) :
    l.SameFor key now (l.reset originKey) :=
  ⟨rfl, rfl, fun _ _ => recent_reset_of_ne h⟩

end LoginRateLimiter.SameFor

/-! ## The tally -/

/-- The limiter has kept the wrong passwords of the last window, and has room for `n` open
logins. -/
structure Tally (key : Str) (l : LoginRateLimiter) (times : List ℚ) (n : Nat) (now : ℚ) : Prop where
  window : l.window = loginWindowSeconds
  maxFailures : l.maxFailures = loginMaxFailures
  recent : ∀ t, now ≤ t → l.recent key t = times.filter fun u => t - loginWindowSeconds < u
  room : (l.recent key now).length + n ≤ loginMaxFailures
  bounded : ∀ t, inWindow times t ≤ loginMaxFailures

namespace Tally

variable {key : Str} {l l' : LoginRateLimiter} {times : List ℚ} {n n' : Nat} {now now' : ℚ}

/-- Fewer failures are in a later window. -/
theorem recent_le (h : Tally key l times n now) (hnow : now ≤ now') :
    (l.recent key now').length ≤ (l.recent key now).length := by
  rw [h.recent now' hnow, h.recent now le_rfl, ← List.countP_eq_length_filter,
    ← List.countP_eq_length_filter]
  apply List.countP_mono_left
  intro u _ hu
  rw [decide_eq_true_eq] at hu ⊢
  linarith

/-- Time passes, and logins end without a verification. -/
theorem still (h : Tally key l times n now) (hnow : now ≤ now') (hl : l.SameFor key now' l')
    (hn : n' ≤ n) :
    Tally key l' times n' now' := by
  refine ⟨hl.window.trans h.window, hl.maxFailures.trans h.maxFailures, fun t ht => ?_,
    ?_, h.bounded⟩
  · rw [hl.recent t ht, h.recent t (hnow.trans ht)]
  · rw [hl.recent now' le_rfl]
    have := h.recent_le hnow
    have := h.room
    omega

/-- A login is let in that leaves room. -/
theorem letIn (h : Tally key l times n now) (hnow : now ≤ now') (hl : l.SameFor key now' l')
    (hroom : (l.recent key now').length + n < loginMaxFailures) (hn : n' ≤ n + 1) :
    Tally key l' times n' now' := by
  refine { h.still hnow hl le_rfl with room := ?_ }
  rw [hl.recent now' le_rfl]
  omega

/-- An open login turns out to have a wrong password. -/
theorem guess (h : Tally key l times n now) (hnow : now ≤ now') (hn : n' + 1 = n) :
    Tally key (l.recordFailure key now') (times ++ [now']) n' now' := by
  have hle := h.recent_le hnow
  have hroom := h.room
  refine ⟨h.window, h.maxFailures, fun t ht => ?_, ?_, fun t => ?_⟩
  · rw [LoginRateLimiter.recent_recordFailure ht, h.recent t (hnow.trans ht),
      List.filter_append, h.window]
  · have hone := List.length_filter_le (fun u => decide (now' - l.window < u)) [now']
    rw [LoginRateLimiter.recent_recordFailure le_rfl, List.length_append]
    rw [List.length_singleton] at hone
    omega
  · unfold inWindow
    rw [List.countP_append, List.countP_singleton]
    split
    · -- what is in a window with `now'` is in the limiter's last window
      rename_i hin
      have hlast : inWindow times t ≤ (l.recent key now').length := by
        rw [h.recent now' hnow, ← List.countP_eq_length_filter]
        apply List.countP_mono_left
        intro u _ hu
        simp only [Bool.and_eq_true, decide_eq_true_eq] at hu hin ⊢
        linarith [hu.1, hin.2]
      unfold inWindow at hlast
      omega
    · exact h.bounded t

end Tally

/-! ## The steps of the server -/

/-- A request that goes on stays as open as it was, or closes. -/
theorem countP_openLogin_set_le {tasks : List AdminTask} {i : Nat} {req : AdminRequest}
    {c₀ : Handling AdminResponse} (ht : tasks[i]? = some ⟨req, c₀⟩) (hc₀ : c₀.ended = false)
    (key : Str) (c : Handling AdminResponse) :
    (tasks.set i ⟨req, c⟩).countP (AdminTask.openLogin key) ≤
      tasks.countP (AdminTask.openLogin key) := by
  have hcount := countP_set_add (AdminTask.openLogin key) ht ⟨req, c⟩
  have hle : (AdminTask.openLogin key ⟨req, c⟩).toNat ≤
      (AdminTask.openLogin key ⟨req, c₀⟩).toNat := by
    unfold AdminTask.openLogin
    rw [hc₀]
    cases req.loginFrom key <;> cases c.ended <;> decide
  omega

theorem countP_openLogin_concat (tasks : List AdminTask) (key : Str) (t : AdminTask) :
    (tasks ++ [t]).countP (AdminTask.openLogin key) =
      tasks.countP (AdminTask.openLogin key) + if AdminTask.openLogin key t then 1 else 0 := by
  rw [List.countP_append, List.countP_singleton]

theorem countP_openLogin_closed {key : Str} {t : AdminTask} (h : t.openLogin key = false)
    (tasks : List AdminTask) :
    (tasks ++ [t]).countP (AdminTask.openLogin key) = tasks.countP (AdminTask.openLogin key) := by
  rw [countP_openLogin_concat, if_neg (Bool.eq_false_iff.mp h)]
  rfl

namespace AdminTask

theorem openLogin_other {key : Str} {req : AdminRequest} (h : req.loginFrom key = false)
    (c : Handling AdminResponse) :
    AdminTask.openLogin key ⟨req, c⟩ = false := by
  unfold openLogin
  rw [h, Bool.false_and]

theorem openLogin_ret (key : Str) (req : AdminRequest) (r : AdminResponse) :
    AdminTask.openLogin key ⟨req, .ret r⟩ = false := Bool.and_false _

theorem openLogin_raise (key : Str) (req : AdminRequest) (e : Exn) :
    AdminTask.openLogin key ⟨req, .raise e⟩ = false :=
  Bool.and_false _

end AdminTask

namespace AdminServer

/-- What the limiter knows is what has happened. -/
structure GuessInv (cfg : AdminConfig) (key : Str) (g : AdminServer) : Prop where
  stages : ∀ t ∈ g.tasks, t.Stage cfg.lib
  verified : ∀ a ∈ g.history, a.isGuess key = true → a.VerifiedWrong cfg.lib
  /-- As long as no login of `key` has succeeded, which makes the limiter forget. -/
  tally : (∀ a ∈ g.history, a.isSuccess key = false) →
    Tally key g.state.limiter (guessTimes key g.history) (g.openLogins key) g.now

theorem GuessInv.arrive {cfg : AdminConfig} {key : Str} {g : AdminServer} {req : AdminRequest}
    {amb : Ambient} {now : ℚ} {c : Handling AdminResponse} {state : AdminState}
    (h : g.GuessInv cfg key) (hnow : g.now ≤ now)
    (hspare : g.sparing key (.arrive req amb now) = true)
    (h' : Arrived cfg.lib { ids := cfg.ids, req, now } g.state c state)
    (hnone : ∀ a ∈ g.history, a.isSuccess key = false) :
    Tally key state.limiter (guessTimes key (g.history ++ answered req now state.conn c))
      ((g.tasks ++ [AdminTask.mk req c]).countP (AdminTask.openLogin key)) now := by
  have htally := h.tally hnone
  have hsame : g.state.limiter.SameFor key now
      (g.state.limiter.blocked (Admin.clientKey req) now).2 := .blocked ..
  cases h' with
  | quiet he hc hl =>
    have hreq := AdminRequest.loginFrom_of_signs he key
    rw [guessTimes_answered _ _ _ fun _ => hreq,
      countP_openLogin_closed (AdminTask.openLogin_other hreq _), hl.limiter]
    exact htally.still hnow (.refl ..) le_rfl
  | refused he =>
    rw [guessTimes_raise _ _ _ he, countP_openLogin_closed (AdminTask.openLogin_raise ..)]
    exact htally.still hnow (.refl ..) le_rfl
  | limited =>
    rw [guessTimes_raise _ _ _ (by decide), countP_openLogin_closed (AdminTask.openLogin_raise ..)]
    exact htally.still hnow hsame le_rfl
  | signedOut he =>
    have hlimiter : (g.state.dropped req).limiter = g.state.limiter := by
      unfold AdminState.dropped
      cases req.sessionCookie <;> rfl
    rw [guessTimes_ret, countP_openLogin_closed (AdminTask.openLogin_ret ..), hlimiter]
    exact htally.still hnow (.refl ..) le_rfl
  | admitted he horigin hc hopen =>
    have hsuspended := LoginAt.suspended hc
    rw [answered_eq_nil hsuspended, List.append_nil]
    cases hlogin : req.loginFrom key with
    | false =>
      rw [countP_openLogin_closed (AdminTask.openLogin_other hlogin _)]
      exact htally.still hnow hsame le_rfl
    | true =>
      obtain ⟨-, rfl⟩ := AdminRequest.loginFrom_iff.mp hlogin
      have hfew := of_decide_eq_false hopen
      rw [htally.maxFailures] at hfew
      have hroom : (g.state.limiter.recent (Admin.clientKey req) now).length +
          g.openLogins (Admin.clientKey req) <
          loginMaxFailures := by
        simpa [sparing, hlogin, horigin, Except.isOk, Except.toBool,
          Nat.lt_of_not_le hfew] using hspare
      apply htally.letIn hnow hsame hroom
      rw [countP_openLogin_concat]
      split <;> simp [openLogins]

theorem GuessInv.move {cfg : AdminConfig} {key : Str} {g : AdminServer} {i : Nat}
    {req : AdminRequest} {now : ℚ} {upstream : Option Nat} {c₀ c : Handling AdminResponse}
    {state : AdminState} (h : g.GuessInv cfg key) (hnow : g.now ≤ now)
    (ht : g.tasks[i]? = some ⟨req, c₀⟩) (hc₀ : c₀.ended = false)
    (h' : Moved cfg.lib { ids := cfg.ids, req, now, upstream } g.state c state)
    (hnone : ∀ a ∈ g.history ++ answered req now state.conn c, a.isSuccess key = false) :
    Tally key state.limiter (guessTimes key (g.history ++ answered req now state.conn c))
      ((g.tasks.set i ⟨req, c⟩).countP (AdminTask.openLogin key)) now := by
  have htally := h.tally fun a ha => hnone a (List.mem_append_left _ ha)
  have hle := countP_openLogin_set_le ht hc₀ key c
  cases h' with
  | quiet he hc hl =>
    rw [guessTimes_answered _ _ _ fun _ => AdminRequest.loginFrom_of_signs he key, hl.limiter]
    exact htally.still hnow (.refl ..) hle
  | login he h' =>
    cases h' with
    | goesOn hc =>
      have hsuspended := LoginAt.suspended hc
      rw [answered_eq_nil hsuspended, List.append_nil]
      exact htally.still hnow (.refl ..) hle
    | failed _ he =>
      rw [guessTimes_raise _ _ _ he]
      exact htally.still hnow (.refl ..) hle
    | wrong =>
      by_cases hkey : key = Admin.clientKey req
      · have hlogin : req.loginFrom key = true := AdminRequest.loginFrom_iff.mpr ⟨he, hkey.symm⟩
        have hcount :=
          countP_set_add (AdminTask.openLogin key) ht ⟨req, .raise Admin.invalidCredentials⟩
        rw [guessTimes_guess _ _ _ hlogin, ← hkey]
        apply htally.guess hnow
        rw [AdminTask.openLogin_raise, AdminTask.openLogin, hlogin, hc₀] at hcount
        exact hcount
      · have hlogin : req.loginFrom key = false :=
          Bool.eq_false_iff.mpr fun hlogin => hkey (AdminRequest.loginFrom_iff.mp hlogin).2.symm
        rw [guessTimes_answered _ _ _ fun _ => hlogin]
        exact htally.still hnow (.recordFailure hkey ..) hle
    | right =>
      have hkey : key ≠ Admin.clientKey req := by
        intro hkey
        have hsuccess := hnone _ (List.mem_append_right _ (List.mem_singleton_self _))
        have hlogin : req.loginFrom key = true := AdminRequest.loginFrom_iff.mpr ⟨he, hkey.symm⟩
        exact absurd (hlogin.symm.trans hsuccess) (by decide)
      rw [guessTimes_ret]
      exact htally.still hnow (.reset hkey ..) hle

/-- A wrong password has been verified. -/
theorem verified_answered {lib : AdminAuthLib} {history : List Answered} {key : Str}
    {req : AdminRequest} {now : ℚ} {conn : Conn} {c : Handling AdminResponse}
    (h : ∀ a ∈ history, a.isGuess key = true → a.VerifiedWrong lib)
    (hc : c = .raise Admin.invalidCredentials → req.loginFrom key = true →
      Answered.VerifiedWrong lib ⟨req, now, conn.view, .error Admin.invalidCredentials⟩) :
    ∀ a ∈ history ++ answered req now conn c, a.isGuess key = true → a.VerifiedWrong lib := by
  intro a ha hguess
  rcases List.mem_append.mp ha with ha | ha
  · exact h a ha hguess
  · cases c with
    | await => cases ha
    | ret r =>
      rw [List.mem_singleton.mp ha] at hguess
      cases hguess
    | raise e =>
      rw [List.mem_singleton.mp ha] at hguess ⊢
      obtain ⟨hlogin, he⟩ := (Bool.and_eq_true _ _).mp hguess
      cases of_decide_eq_true he
      exact hc rfl hlogin

theorem GuessInv.step {cfg : AdminConfig} {key : Str} {g g' : AdminServer} {l : Label}
    (h : g.GuessInv cfg key) (hspare : g.sparing key l = true)
    (hstep : AdminServer.step cfg g l = some g') : g'.GuessInv cfg key := by
  have hs := Stepped.of_step h.stages hstep
  refine ⟨hs.stage h.stages, ?_, fun hnone => ?_⟩
  · cases hs with
    | cancel | others => exact h.verified
    | @arrive req amb now c state hnow h' =>
      apply verified_answered h.verified
      intro hc hlogin
      cases h' with
      | quiet he =>
        exact absurd hlogin (Bool.eq_false_iff.mp (AdminRequest.loginFrom_of_signs he key))
      | refused he => exact absurd (Coro.raise.inj hc) he
      | limited => exact absurd (Coro.raise.inj hc) (by decide)
      | signedOut => cases hc
      | admitted _ _ hat =>
        subst hc
        cases LoginAt.suspended hat
    | @move i req c₀ now upstream c state hnow ht hc₀ h' =>
      apply verified_answered h.verified
      intro hc hlogin
      cases h' with
      | quiet he =>
        exact absurd hlogin (Bool.eq_false_iff.mp (AdminRequest.loginFrom_of_signs he key))
      | login he h' =>
        cases h' with
        | goesOn hat =>
          subst hc
          cases LoginAt.suspended hat
        | failed _ he => exact absurd (Coro.raise.inj hc) he
        | wrong hpassword hv => exact ⟨_, hpassword, hv⟩
        | right => cases hc
  · cases hs with
    | others => exact (h.tally hnone).still le_rfl (.refl ..) le_rfl
    | cancel ht hc₀ =>
      exact (h.tally hnone).still le_rfl (.refl ..) (countP_openLogin_set_le ht hc₀ key _)
    | arrive hnow h' =>
      exact h.arrive hnow hspare h' fun a ha => hnone a (List.mem_append_left _ ha)
    | move hnow ht hc₀ h' => exact h.move hnow ht hc₀ h' hnone

/-- **Five wrong passwords in a window**, as long as every login that the check lets in leaves room
for itself and the open ones. -/
theorem guesses_bounded (cfg : AdminConfig) (conn : Conn) (now₀ : ℚ) (key : Str) (ls : List Label)
    (g : AdminServer) (h : Run (restrict (AdminServer.step cfg) fun g l => g.sparing key l = true)
      { state := { conn }, now := now₀ } ls g)
    (hnone : ∀ a ∈ g.history, a.isSuccess key = false) :
    (∀ a ∈ g.history, a.isGuess key = true → a.VerifiedWrong cfg.lib) ∧
      ∀ t, inWindow (guessTimes key g.history) t ≤ loginMaxFailures := by
  have hinit : GuessInv cfg key { state := { conn }, now := now₀ } := by
    refine ⟨fun _ h => (nomatch h), fun _ h => (nomatch h),
      fun _ => ⟨rfl, rfl, fun _ _ => rfl, ?_, fun _ => ?_⟩⟩
    · exact Nat.zero_le _
    · exact Nat.zero_le _
  have hinv := h.invariant (I := GuessInv cfg key)
    (fun _ _ _ hi hs => hi.step (restrict_eq_some.mp hs).1 (restrict_eq_some.mp hs).2) hinit
  exact ⟨hinv.verified, (hinv.tally hnone).bounded⟩

end AdminServer

namespace Sample

/-- The rest of login `i`. -/
def finishLogin (i : Nat) : List AdminServer.Label :=
  [.move i 1 none, .move i 1 none, .move i 1 none]

def wrongLogin : AdminServer.Label := .arrive (login "nope") ambient 1

/-- Two logins one after the other. -/
def loginsInTurn : List AdminServer.Label :=
  wrongLogin :: finishLogin 0 ++ wrongLogin :: finishLogin 1

/-- Six logins are let in before the first of them fails. -/
def loginBurst : List AdminServer.Label :=
  List.replicate 6 wrongLogin ++ (List.range 6).flatMap finishLogin

end Sample

namespace AdminServer

open Sample in
theorem guesses_bounded_inTurn : ∃ g,
    Run (restrict (AdminServer.step adminConfig) fun g l => g.sparing (str "127.0.0.1") l = true)
      { state := { conn := adminConn }, now := 0 } loginsInTurn g ∧
    (guessTimes (str "127.0.0.1") g.history).length = 2 ∧
    ∀ t, inWindow (guessTimes (str "127.0.0.1") g.history) t ≤ loginMaxFailures := by
  have hfold :
      (loginsInTurn.foldlM (restrict (AdminServer.step adminConfig) fun g l =>
        g.sparing (str "127.0.0.1") l = true)
      { state := { conn := adminConn }, now := 0 }).any (fun g =>
        (guessTimes (str "127.0.0.1") g.history).length = 2 ∧
          (g.history.all fun a => !a.isSuccess (str "127.0.0.1")) = true) := by decide +kernel
  obtain ⟨g, hrun, hg⟩ := Run.exists_of_any hfold
  obtain ⟨hlength, hnone⟩ := of_decide_eq_true hg
  exact ⟨g, hrun, hlength,
    (guesses_bounded adminConfig adminConn 0 _ loginsInTurn g hrun (by simpa using hnone)).2⟩

open Sample in
/-- Six wrong passwords in one second. -/
theorem guesses_unbounded : ∃ g, Run (AdminServer.step adminConfig)
      { state := { conn := adminConn }, now := 0 } loginBurst g ∧
    (∀ a ∈ g.history, a.isSuccess (str "127.0.0.1") = false) ∧
      (∀ a ∈ g.history, a.VerifiedWrong adminConfig.lib) ∧
    inWindow (guessTimes (str "127.0.0.1") g.history) 1 = 6 := by
  have hfold :
      (loginBurst.foldlM (AdminServer.step adminConfig)
        { state := { conn := adminConn }, now := 0 }).any (fun g =>
      (g.history.all fun a => !a.isSuccess (str "127.0.0.1")) = true ∧
        (g.history.all fun a => a.req.password.any fun password =>
          adminConfig.lib.verifies password a.tables.credential = .ok (some false)) = true ∧
        inWindow (guessTimes (str "127.0.0.1") g.history) 1 = 6) := by decide +kernel
  obtain ⟨g, hrun, hg⟩ := Run.exists_of_any hfold
  obtain ⟨hnone, hwrong, hsix⟩ := of_decide_eq_true hg
  refine ⟨g, hrun, by simpa using hnone, fun a ha => ?_, hsix⟩
  obtain ⟨password, hpassword, hv⟩ := (Option.any_eq_true ..).mp (List.all_eq_true.mp hwrong a ha)
  exact ⟨password, hpassword, of_decide_eq_true hv⟩

end AdminServer
end EasyModelGate
