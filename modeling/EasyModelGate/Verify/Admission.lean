import EasyModelGate.Verify.Concurrency
import EasyModelGate.Verify.Ratelimit
import EasyModelGate.Verify.System

/-! # Requests per minute, over whole runs

The limiter is one object for all requests, and a request comes to it some steps after it has read
its limit. Its counts are those of the requests that a run has brought to `_enforce_limits`. -/

namespace EasyModelGate

open FixedWindowRpmLimiter

/-- It has been answered with the error of the limiter. -/
def Pc.rateLimited : Pc → Bool
  | .done (.raised (.api e)) => e.code = some (str "rate_limit_exceeded")
  | _ => false

/-- A request that came to `_enforce_limits`: the call of the limiter, and where the request went
from there. -/
structure Checked where
  call : RpmCall
  pc : Pc

/-- The body can be measured, so that the limits of the key are looked at. -/
def ChatRequest.measured (env : RelayEnv) (req : ChatRequest) : Bool :=
  match readBody req with
  | .ok body => (encodeBody env.json body).isOk
  | .error _ => false

/-- The request that a step brings to `_enforce_limits`. -/
def Gateway.checked (cfg : GatewayConfig) (g : Gateway) : Label → List Checked
  | .body i clk =>
    match g.requests[i]? with
    | some r =>
      match r.phase with
      | .reading auth =>
        if r.req.measured cfg.relay then
          [⟨⟨auth.apiKeyId, auth.rpmLimit, clk.wall⟩,
            (forwardChat cfg.relay r.req { requestId := g.drawn + i, auth, clk } g.limiter).1.1⟩]
        else []
      | _ => []
    | none => []
  | _ => []

namespace System

def checked (cfg : SystemConfig) (s : System) : Label → List Checked
  | .chat l => s.gateway.checked cfg.gateway l
  | _ => []

/-- The requests that came to `_enforce_limits`, one after the other. -/
def tally (cfg : SystemConfig) (s : System) (ls : List Label) : List Checked :=
  gather (System.step cfg) (System.checked cfg) s ls

end System

/-! ## One request -/

section
variable (env : RelayEnv) {req : ChatRequest} (a : Arrival) (limiter : FixedWindowRpmLimiter)

/-- The call of the limiter. -/
def Arrival.call (a : Arrival) : RpmCall := ⟨a.auth.apiKeyId, a.auth.rpmLimit, a.clk.wall⟩

theorem checkLimits_limiter : (checkLimits env a.auth a.clk limiter).2 =
      (limiter.check a.call.keyId a.call.limit a.call.t).2 := by
  unfold checkLimits
  dsimp only [Arrival.call]
  split
  · rfl
  · split <;> rfl

/-- The error of the limiter is answered exactly when the limiter refuses. -/
theorem checkLimits_rateLimited :
    (∀ refusal, (checkLimits env a.auth a.clk limiter).1 = some refusal →
      (refusal.code = str "rate_limit_exceeded" ↔
        (limiter.check a.call.keyId a.call.limit a.call.t).1.1 = false)) ∧
    ((checkLimits env a.auth a.clk limiter).1 = none →
      (limiter.check a.call.keyId a.call.limit a.call.t).1.1 = true) := by
  unfold checkLimits
  dsimp only [Arrival.call]
  rcases limiter.check a.auth.apiKeyId a.auth.rpmLimit a.clk.wall with
    ⟨⟨_ | _, retryAfter⟩, limiter'⟩
  · refine ⟨?_, fun h => nomatch h⟩
    rintro refusal ⟨⟩
    exact iff_of_true rfl rfl
  · dsimp only [Bool.not_true]
    split
    case isTrue h => cases h
    split
    · refine ⟨?_, fun h => nomatch h⟩
      rintro refusal ⟨⟩
      have hcode : str "insufficient_quota" ≠ str "rate_limit_exceeded" := by decide
      exact iff_of_false hcode Bool.true_eq_false.mp
    · exact ⟨fun _ h => (nomatch h), fun _ => rfl⟩

theorem forwardChat_measured (h : req.measured env = true) :
    (forwardChat env req a limiter).2 = (limiter.check a.call.keyId a.call.limit a.call.t).2 ∧
      (forwardChat env req a limiter).1.1.rateLimited =
        !(limiter.check a.call.keyId a.call.limit a.call.t).1.1 := by
  obtain ⟨hrefused, hpassed⟩ := checkLimits_rateLimited env a limiter
  rw [← checkLimits_limiter env]
  unfold ChatRequest.measured at h
  unfold forwardChat
  cases hb : readBody req with
  | error e => rw [hb] at h; cases h
  | ok body =>
    rw [hb] at h
    dsimp only at h
    cases hraw : encodeBody env.json body with
    | error e => rw [hraw] at h; cases h
    | ok raw =>
      simp only [hraw, bind, Except.bind, Except.mapError, pure, Except.pure]
      rcases hl : checkLimits env a.auth a.clk limiter with ⟨_ | refusal, limiter'⟩
      · rw [hl] at hpassed
        rw [hpassed rfl]
        dsimp only
        cases encodeBody env.json (maybeInjectUsage body) <;> exact ⟨rfl, rfl⟩
      · rw [hl] at hrefused
        refine ⟨rfl, ?_⟩
        have hiff := Option.some_inj.trans (hrefused refusal rfl)
        change decide (some refusal.code = some (str "rate_limit_exceeded")) = _
        cases hc : (limiter.check a.call.keyId a.call.limit a.call.t).1.1 with
        | false => exact decide_eq_true (hiff.mpr hc)
        | true => exact decide_eq_false (mt hiff.mp (by rw [hc]; decide))

theorem forwardChat_unmeasured (h : req.measured env = false) :
    (forwardChat env req a limiter).2 = limiter := by
  unfold ChatRequest.measured at h
  unfold forwardChat
  cases hb : readBody req with
  | error e => rfl
  | ok body =>
    rw [hb] at h
    dsimp only at h
    cases hraw : encodeBody env.json body with
    | error e => simp only [hraw, bind, Except.bind, Except.mapError]
    | ok raw => rw [hraw] at h; cases h

end

/-! ## Whole runs -/

/-- The limiter has answered the calls of a tally, and its refusals are those of the requests. -/
structure Tallied (tally : List Checked) (limiter : FixedWindowRpmLimiter) : Prop where
  limiter : limiter = after {} (tally.map Checked.call)
  answers : (answers {} (tally.map Checked.call)).map Prod.fst = tally.map fun c =>
    !c.pc.rateLimited
  unlimited : ∀ c ∈ tally, c.call.limit = none → c.pc.rateLimited = false

theorem Tallied.concat {tally : List Checked} {limiter : FixedWindowRpmLimiter}
    (h : Tallied tally limiter) {c : Checked}
    (hc : c.pc.rateLimited = !(limiter.check c.call.keyId c.call.limit c.call.t).1.1) :
    Tallied (tally ++ [c]) (limiter.check c.call.keyId c.call.limit c.call.t).2 := by
  obtain ⟨rfl, hanswers, hunlimited⟩ := h
  refine ⟨?_, ?_, fun d hd => ?_⟩
  · rw [List.map_append, after, after, List.foldl_append]
    rfl
  · rw [List.map_append, answers_append, List.map_append, List.map_append, hanswers,
      List.map_singleton, List.map_singleton, hc, Bool.not_not]
    rfl
  · rcases List.mem_append.mp hd with hd | hd
    · exact hunlimited d hd
    · rw [List.mem_singleton.mp hd]
      intro hnone
      rw [hc, check_none c.call hnone]
      rfl

/-- A step comes to the limiter with one request, or leaves it alone. -/
theorem Gateway.checked_cases {cfg : GatewayConfig} {g g' : Gateway}
    (hstep : Gateway.step cfg g l = some g') :
    g.checked cfg l = [] ∧ g'.limiter = g.limiter ∨ ∃ c, g.checked cfg l = [c] ∧
      g'.limiter = (g.limiter.check c.call.keyId c.call.limit c.call.t).2 ∧
      c.pc.rateLimited = !(g.limiter.check c.call.keyId c.call.limit c.call.t).1.1 := by
  cases l with
  | body i clk =>
    obtain ⟨r, auth, hr, hp, rfl⟩ := step_body_iff.mp hstep
    unfold checked
    simp only [hr, hp]
    cases hm : r.req.measured cfg.relay with
    | false => exact .inl ⟨rfl, forwardChat_unmeasured _ _ _ hm⟩
    | true =>
      obtain ⟨hlimiter, hrefused⟩ :=
        forwardChat_measured cfg.relay { requestId := g.drawn + i, auth, clk } g.limiter hm
      exact .inr ⟨_, rfl, hlimiter, hrefused⟩
  | arrive =>
    cases hstep
    exact .inl ⟨rfl, rfl⟩
  | auth i =>
    obtain ⟨r, c, nowMs, c', conn, -, -, -, rfl⟩ := step_auth_iff.mp hstep
    exact .inl ⟨rfl, rfl⟩
  | cancelAuth i =>
    obtain ⟨r, c, nowMs, -, -, rfl⟩ := step_cancelAuth_iff.mp hstep
    exact .inl ⟨rfl, rfl⟩
  | event i clk ev =>
    obtain ⟨r, pc, pc', effects, -, -, -, -, rfl⟩ := step_event_iff.mp hstep
    exact .inl ⟨rfl, rfl⟩
  | task j =>
    obtain ⟨t, coro, conn, -, -, rfl⟩ := step_task_iff.mp hstep
    exact .inl ⟨rfl, rfl⟩

/-- **One step of the whole gateway.** -/
theorem Tallied.step {s s' : System} {cfg : SystemConfig} {tally : List Checked}
    (h : Tallied tally s.gateway.limiter) (hstep : System.step cfg s l = some s') :
    Tallied (tally ++ s.checked cfg l) s'.gateway.limiter := by
  cases System.Stepped.of_step hstep with
  | chat hg =>
    rcases Gateway.checked_cases hg with ⟨hnone, hlimiter⟩ | ⟨c, hone, hlimiter, hc⟩
    · change Tallied (tally ++ s.gateway.checked cfg.gateway _) _
      rw [hnone, List.append_nil, hlimiter]
      exact h
    · change Tallied (tally ++ s.gateway.checked cfg.gateway _) _
      rw [hone, hlimiter]
      exact h.concat hc
  | modelsArrive | modelsAuth | modelsCancelled | modelsAnswered | admin | cli =>
    change Tallied (tally ++ []) _
    rw [List.append_nil]
    exact h

theorem System.tallied {cfg : SystemConfig} {conn : Conn} {slots drawn : Nat}
    (h : Run (System.step cfg) (System.init conn slots drawn) ls s) :
    Tallied (System.tally cfg (System.init conn slots drawn) ls) s.gateway.limiter := by
  induction h with
  | nil => exact ⟨rfl, rfl, fun _ hc => absurd hc List.not_mem_nil⟩
  | snoc hrun hstep ih =>
    rw [System.tally, hrun.gather_concat]
    exact ih.step hstep

/-- What a tally says of the limits of the keys. -/
structure RpmEnforced (tally : List Checked) : Prop where
  /-- A request is refused exactly when its window has no room left for it. -/
  refused_iff : ∀ earlier c later, tally = earlier ++ c :: later →
    ∀ L : Int, c.call.limit = some L →
    (c.pc.rateLimited = true ↔ L ≤ earlier.countP fun d =>
      d.call.countsIn c.call.keyId c.call.window)
  /-- Under one limit, what is refused in a window is what is over the limit. -/
  refused : ∀ k w (L : Nat), (∀ c ∈ tally, c.call.keyId = k → c.call.window = w →
    c.call.limit = some (L : Int)) →
    tally.countP (fun c => c.call.countsIn k w && c.pc.rateLimited) =
    tally.countP (fun c => c.call.countsIn k w) - L
  /-- Under one limit, no more than that many requests wait for a slot. -/
  admitted : ∀ k w (L : Nat), (∀ c ∈ tally, c.call.keyId = k → c.call.window = w →
    c.call.limit = some (L : Int)) →
    tally.countP (fun c => c.call.countsIn k w && c.pc.isQueueing) ≤ L
  unlimited : ∀ c ∈ tally, c.call.limit = none → c.pc.rateLimited = false

section
variable {tally : List Checked} {limiter : FixedWindowRpmLimiter}

/-- What the limiter allows is what is not refused. -/
theorem Tallied.allowed_eq (h : Tallied tally limiter) (k : Nat) (w : Int) :
    allowed (tally.map Checked.call) k w = tally.countP fun c => c.call.countsIn k w &&
      !c.pc.rateLimited := by
  have hzip (xs : List RpmCall) (ys : List (Bool × Int)) :
      (xs.zip ys).countP (fun p => p.1.countsIn k w && p.2.1) =
      (xs.zip (ys.map Prod.fst)).countP fun p => p.1.countsIn k w && p.2 := by
    rw [List.zip_map_right, List.countP_map]
    rfl
  rw [allowed, hzip, h.answers, List.zip_map', List.countP_map]
  rfl

theorem countP_split (tally : List Checked) (p q : Checked → Bool) :
    tally.countP (fun c => p c && q c) + tally.countP (fun c => p c && !q c) =
    tally.countP p := by
  induction tally with
  | nil => rfl
  | cons c tally ih =>
    rw [List.countP_cons, List.countP_cons, List.countP_cons, ← ih]
    cases p c <;> cases q c <;> simp <;> omega

/-- What the calls before have counted decides on a request. -/
theorem Tallied.refused_iff (h : Tallied tally limiter)
    (hsorted : (tally.map Checked.call).Pairwise fun c d => c.t ≤ d.t)
    {earlier later : List Checked} {c : Checked} (htally : tally = earlier ++ c :: later) {L : Int}
    (hlimit : c.call.limit = some L) :
    c.pc.rateLimited = true ↔ L ≤ earlier.countP fun d =>
      d.call.countsIn c.call.keyId c.call.window := by
  subst htally
  have hanswer :
      ((after {} (earlier.map Checked.call)).check c.call.keyId c.call.limit c.call.t).1.1 =
      !c.pc.rateLimited := by
    have hanswers := h.answers
    rw [List.map_append, List.map_cons, answers_append, List.map_append,
      List.map_append] at hanswers
    obtain ⟨-, htail⟩ := List.append_inj hanswers (by simp)
    exact (List.cons.inj htail).1
  have hbefore : (earlier.map Checked.call ++ [c.call]).Pairwise fun c d => c.t ≤ d.t := by
    refine hsorted.sublist ?_
    rw [List.map_append, List.map_cons]
    exact (List.Sublist.refl _).append ((List.nil_sublist _).cons_cons _)
  have hallowed := limited_iff hbefore hlimit
  rw [hanswer, counted_concat, if_pos (by simp [RpmCall.countsIn, hlimit]), counted,
    List.countP_map] at hallowed
  cases hr : c.pc.rateLimited with
  | false =>
    rw [hr] at hallowed
    have hle := hallowed.mp rfl
    refine iff_of_false (by decide) fun h => ?_
    push_cast at hle
    exact absurd (hle.trans h) (by simp [Function.comp_def])
  | true =>
    rw [hr] at hallowed
    have hlt := mt hallowed.mpr (by decide)
    refine iff_of_true rfl ?_
    push_cast at hlt
    exact Int.lt_add_one_iff.mp (not_le.mp hlt)

theorem Pc.rateLimited_of_isQueueing {pc : Pc} (h : pc.isQueueing = true) :
    pc.rateLimited = false := by
  cases pc <;> first | rfl | cases h

theorem Tallied.enforced (h : Tallied tally limiter)
    (hsorted : (tally.map Checked.call).Pairwise fun c d => c.t ≤ d.t) :
    RpmEnforced tally := by
  have hallowed (k : Nat) (w : Int) (L : Nat)
      (hconst : ∀ c ∈ tally, c.call.keyId = k → c.call.window = w → c.call.limit = some (L : Int)) :
      (tally.countP fun c => c.call.countsIn k w && !c.pc.rateLimited) =
      min (tally.countP fun c => c.call.countsIn k w) L := by
    rw [← h.allowed_eq, FixedWindowRpmLimiter.allowed_eq _ hsorted k w L, counted, List.countP_map]
    · rfl
    · intro call hcall
      obtain ⟨c, hc, rfl⟩ := List.mem_map.mp hcall
      exact hconst c hc
  refine ⟨fun earlier c later htally L hlimit => h.refused_iff hsorted htally hlimit,
    fun k w L hconst => ?_, fun k w L hconst => ?_, h.unlimited⟩
  · have hsplit := countP_split tally (fun c => c.call.countsIn k w) fun c => c.pc.rateLimited
    have hpassed := hallowed k w L hconst
    omega
  · calc tally.countP (fun c => c.call.countsIn k w && c.pc.isQueueing)
      _ ≤ tally.countP fun c => c.call.countsIn k w && !c.pc.rateLimited := by
        refine List.countP_mono_left fun c _ hc => ?_
        obtain ⟨hcounts, hqueueing⟩ := Bool.and_eq_true_iff.mp hc
        rw [hcounts, Pc.rateLimited_of_isQueueing hqueueing]
        rfl
      _ = min (tally.countP fun c => c.call.countsIn k w) L := hallowed k w L hconst
      _ ≤ L := min_le_right _ _

end

/-- **The limits hold over whole runs**: whatever else happens in between, and to the key as well, a
request that comes to `_enforce_limits` is refused exactly when the requests of its key that came
there before it in the same minute have used up its limit. -/
theorem System.rpm_enforced (cfg : SystemConfig) (conn : Conn) (slots drawn : Nat)
    (ls : List System.Label) (s : System)
    (h : Run (System.step cfg) (System.init conn slots drawn) ls s)
    (hclock : ((System.tally cfg (System.init conn slots drawn) ls).map fun c =>
      c.call.t).Pairwise (· ≤ ·)) :
    RpmEnforced (System.tally cfg (System.init conn slots drawn) ls) := by
  refine (System.tallied h).enforced (List.pairwise_map.mpr ?_)
  exact List.pairwise_map.mp hclock

namespace Sample

/-- A key with a limit of one request in a minute is issued, and its holder sends two. -/
def limited : List System.Label :=
  [.cli (.userCreate (str "alice") none none 0),
    .cli (.keyCreate (clockAt 0) (fullKey.drop 4) (str "alice") none (some 1) none none),
    .chat (.arrive (chat false) 0), .chat (.auth 0), .chat (.auth 0),
    .chat (.arrive (chat false) 0), .chat (.auth 1), .chat (.auth 1),
    .chat (.body 0 (clockAt 1)), .chat (.body 1 (clockAt 2))]

end Sample

/-- The second request is refused. -/
theorem System.rpm_enforced_limited : ∃ s, Run (System.step Sample.system)
      (System.init {} 1 0) Sample.limited s ∧
    ((System.tally Sample.system (System.init {} 1 0) Sample.limited).map fun c =>
        c.pc.rateLimited) = [false, true] ∧
    RpmEnforced (System.tally Sample.system (System.init {} 1 0) Sample.limited) := by
  have hrun : ((Sample.limited.foldlM (System.step Sample.system) (System.init {} 1 0)).any fun _ =>
    decide (((System.tally Sample.system (System.init {} 1 0) Sample.limited).map fun c =>
      (c.call.t, c.pc.rateLimited)) =
      [(1001, false), (1002, true)])) = true := by decide +kernel
  obtain ⟨s, h, hs⟩ := Run.exists_of_any hrun
  have htally := of_decide_eq_true hs
  have htimes : (System.tally Sample.system (System.init {} 1 0) Sample.limited).map
      (fun c => c.call.t) = [1001, 1002] := by
    simpa [Function.comp_def] using congrArg (List.map Prod.fst) htally
  have hlimited := congrArg (List.map Prod.snd) htally
  refine ⟨s, h, by simpa [Function.comp_def] using hlimited,
    System.rpm_enforced Sample.system {} 1 0 _ s h ?_⟩
  rw [htimes]
  norm_num

end EasyModelGate
