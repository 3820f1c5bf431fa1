import Mathlib.Algebra.Order.Ring.Rat
import Mathlib.Tactic.Linarith
import EasyModelGate.Verify.Gateway

/-! # The total deadline

The deadline of a request is fixed when it passes `_enforce_limits` and stays in its frame. A
request that waits for its slot, for the answer, for a chunk or for its client waits under a timer
that fires by then; one that waits for an error body, for the server to begin with the stream, or
for the upstream to close, waits under none. -/

namespace EasyModelGate

/-- It fires no later than `t`. A timer that does not wait fires at once. -/
def Timer.firesBy (t : ℚ) : Timer → Prop
  | .none => False
  | .at s => s ≤ t
  | .immediate => True

/-- The awaits that lie under a timer: not `aread`, not `aclose`, and not the server's own awaits
before it starts `relay_gen`. -/
def Pc.timed : Pc → Bool
  | .queueing .. | .sending .. | .pulling _ | .yielded .. => true
  | _ => false

theorem waitFor_firesBy {clk : Clock} {timeout t : ℚ} (h : 0 < timeout → clk.mono + timeout ≤ t) :
    (waitFor clk timeout).firesBy t := by
  unfold waitFor
  split
  · trivial
  · exact h (lt_of_not_ge ‹_›)

/-- What the frames of a request keep: the deadline, and the timers that are computed from it. -/
structure Pc.OnTime (totalRequest : ℚ) (pc : Pc) : Prop where
  deadline : ∀ f, pc.frame? = some f → f.deadline = f.t0 + totalRequest
  fires : ∀ f, pc.frame? = some f → pc.timed = true → pc.timer.firesBy f.deadline

theorem Pc.OnTime.done {o : Outcome} : (Pc.done o).OnTime totalRequest :=
  ⟨fun _ h => (nomatch h), fun _ h => (nomatch h)⟩

/-- A state whose frame is that of a state on time, and whose timer is the frame's own deadline or
none. -/
theorem Pc.OnTime.keep {pc pc' : Pc} (h : pc.OnTime totalRequest) (hf : pc'.frame? = pc.frame?)
    (ht : ∀ f, pc'.frame? = some f → pc'.timed = true → pc'.timer.firesBy f.deadline) :
    pc'.OnTime totalRequest :=
  ⟨fun f hf' => h.deadline f (hf ▸ hf'), ht⟩

theorem Gen.fail_onTime {g : Gen} {pc : Pc} (h : pc.OnTime totalRequest)
    (hf : pc.frame? = some g.toAdmitted) (clk : Clock) (e : PyExn) :
    (g.fail clk e).OnTime totalRequest :=
  h.keep hf.symm fun _ _ ht => nomatch ht

theorem Resumed.onTime (h : Resumed env clk pc ev pc' effects) (hi : pc.OnTime totalRequest) :
    pc'.OnTime totalRequest := by
  cases h with
  | @sent f since timer hb =>
    refine ⟨fun f' hf => ?_, fun f' hf _ => ?_⟩ <;> cases hf
    · exact hi.deadline f rfl
    · refine waitFor_firesBy fun _ => ?_
      exact le_of_eq (add_sub_cancel clk.mono f.deadline)
  | errorStatus | created | bodyRead | eof => exact hi.keep rfl fun _ _ ht => nomatch ht
  | started | resumed | relayed => exact hi.keep rfl fun f hf _ => by cases hf; exact le_rfl
  | scannerRaised => exact hi.keep rfl fun _ _ ht => nomatch ht
  | pullFailed | closedAtYield | cancelledAtYield => exact Gen.fail_onTime hi rfl _ _
  | _ => exact .done

/-- `q_effective` never outlasts the deadline. -/
theorem queue_firesBy (clk : Clock) (queueTimeout deadline : ℚ) :
    (waitFor clk (min queueTimeout (max (deadline - clk.mono) 0))).firesBy deadline := by
  refine waitFor_firesBy fun hpos => ?_
  have hmax : 0 < max (deadline - clk.mono) 0 := lt_of_lt_of_le hpos (min_le_right _ _)
  have hremaining : max (deadline - clk.mono) 0 = deadline - clk.mono := by
    rcases max_cases (deadline - clk.mono) 0 with ⟨h, -⟩ | ⟨h, -⟩
    · exact h
    · exact absurd (h ▸ hmax) (lt_irrefl 0)
  have hle := min_le_right queueTimeout (max (deadline - clk.mono) 0)
  linarith

theorem Admission.onTime (h : Admission env req a limiter pc effects limiter') :
    pc.OnTime env.totalRequest := by
  cases h with
  | failed | refused => exact .done
  | admitted _ _ _ _ _ _ ht0 hdl _ _ _ =>
    refine ⟨fun f' hf => ?_, fun f' hf _ => ?_⟩ <;> cases hf
    · rw [hdl, ht0]
    · exact queue_firesBy ..

def Request.OnTime (totalRequest : ℚ) (r : Request) : Prop :=
  ∀ pc, r.phase = .serving pc → pc.OnTime totalRequest

theorem settleAuth_onTime (r : Request) (nowMs : Int) (c : Db AuthContext) :
    (settleAuth r nowMs c).OnTime totalRequest := by
  intro pc hp
  cases c <;> cases hp
  exact .done

theorem Gateway.onTime_step {g g' : Gateway} (hstep : Gateway.step cfg g l = some g')
    (h : ∀ r ∈ g.requests, r.OnTime cfg.relay.totalRequest) :
    ∀ r ∈ g'.requests, r.OnTime cfg.relay.totalRequest := by
  cases Stepped.of_step hstep with
  | arrive =>
    intro r hr
    rcases List.mem_append.mp hr with hr | hr
    · exact h r hr
    · cases List.mem_singleton.mp hr
      exact settleAuth_onTime _ _ _
  | auth => exact forall_mem_set h _ (settleAuth_onTime _ _ _)
  | cancelAuth => exact forall_mem_set h _ fun pc hp => by cases hp; exact .done
  | body hr hp ha => exact forall_mem_set h _ fun pc hp => by cases hp; exact ha.onTime
  | event hr hp hres =>
    exact forall_mem_set h _ fun pc hp' => by
      cases hp'
      exact hres.onTime (h _ (List.mem_of_getElem? hr) _ hp)
  | task => exact h

/-- **The deadline and what it covers.** In every reachable state, a request that was admitted and
has not ended is suspended under a timer that fires by the deadline, which is `total_request` after
its admission, exactly when it waits for its slot, for the answer, for a chunk or at the `yield`. -/
theorem Gateway.deadline_covers_iff (cfg : GatewayConfig) (conn : Conn) (n : Nat) (ls : List Label)
    (g : Gateway) (h : Run (Gateway.step cfg) (Gateway.init conn n) ls g) :
    ∀ r ∈ g.requests, ∀ pc f, r.phase = .serving pc → pc.frame? = some f →
      (pc.timer.firesBy (f.t0 + cfg.relay.totalRequest) ↔ pc.timed = true) := by
  have hinit : ∀ r ∈ (Gateway.init conn n).requests, r.OnTime cfg.relay.totalRequest := by
    simp [Gateway.init]
  have hall := h.invariant (I := fun g => ∀ r ∈ g.requests, r.OnTime cfg.relay.totalRequest)
    (fun g l g' hi hs => Gateway.onTime_step hs hi) hinit
  intro r hr pc f hp hf
  have hi := hall r hr pc hp
  rw [← hi.deadline f hf]
  refine ⟨fun ht => ?_, hi.fires f hf⟩
  cases pc <;> first | rfl | exact ht.elim

/-- The stream of a request that waits for its next chunk. -/
def Request.pulling? (r : Request) : Option Gen :=
  match r.phase with
  | .serving (.pulling g) => some g
  | _ => none

/-- The response of a request that waits for an error body. -/
def Request.reading? (r : Request) : Option (Holding × UpstreamResponse) :=
  match r.phase with
  | .serving (.reading h resp) => some (h, resp)
  | _ => none

theorem Request.pulling?_eq_some {r : Request} (h : r.pulling? = some g) :
    r.phase = .serving (.pulling g) := by
  unfold Request.pulling? at h
  split at h <;> cases h
  assumption

theorem Request.reading?_eq_some {r : Request} (h : r.reading? = some (w, resp)) :
    r.phase = .serving (.reading w resp) := by
  unfold Request.reading? at h
  split at h <;> cases h
  assumption

/-- The request of the sample run waits for its chunk under the deadline. -/
theorem Gateway.deadline_covers_pulling :
    ∃ g, Run (Gateway.step Sample.cfg) (Gateway.init Sample.conn 1)
        (Sample.stream ++ [.event 0 (Sample.clockAt 4) .started]) g ∧
      ∃ r ∈ g.requests, ∃ w, r.phase = .serving (.pulling w) ∧
        (Timer.at w.deadline).firesBy (w.t0 + 1800) := by
  have hrun : ((Sample.stream ++ [Label.event 0 (Sample.clockAt 4) .started]).foldlM
    (Gateway.step Sample.cfg) (Gateway.init Sample.conn 1)).any
    (fun g => g.requests.any (·.pulling?.isSome)) := by decide +kernel
  obtain ⟨g, h, hp⟩ := Run.exists_of_any hrun
  obtain ⟨r, hr, hp⟩ := List.any_eq_true.mp hp
  obtain ⟨w, hw⟩ := Option.isSome_iff_exists.mp hp
  have hphase := Request.pulling?_eq_some hw
  exact ⟨g, h, r, hr, w, hphase,
    (Gateway.deadline_covers_iff _ _ _ _ _ h r hr _ _ hphase rfl).mpr rfl⟩

/-- A streaming request whose upstream answers with an error status waits for the body under no
timer at all. -/
theorem Gateway.deadline_misses_error_body : ¬ ∀ (cfg : GatewayConfig) (conn : Conn) (n : Nat)
    (ls : List Label) (g : Gateway), Run (Gateway.step cfg) (Gateway.init conn n) ls g →
      ∀ r ∈ g.requests, ∀ pc f, r.phase = .serving pc → pc.frame? = some f →
        pc.timer.firesBy (f.t0 + cfg.relay.totalRequest) := by
  intro hall
  have hrun : ((Sample.acquire 0 (Sample.chat true) ++ [Label.event 0 (Sample.clockAt 3)
      (.response { status := 500, contentType := none })]).foldlM
    (Gateway.step Sample.cfg) (Gateway.init Sample.conn 1)).any
      (fun g => g.requests.any (·.reading?.isSome)) := by decide +kernel
  obtain ⟨g, h, hp⟩ := Run.exists_of_any hrun
  obtain ⟨r, hr, hp⟩ := List.any_eq_true.mp hp
  obtain ⟨⟨w, resp⟩, hw⟩ := Option.isSome_iff_exists.mp hp
  exact hall _ _ _ _ _ h r hr _ _ (Request.reading?_eq_some hw) rfl

end EasyModelGate
