import EasyModelGate.Lib.Pool
import EasyModelGate.Verify.Slots

/-! # How much runs at once

The gateway as a pool of tickets: whatever the server drops and whoever is cancelled, every request
of the upstream holds a slot, and there are no more slots than at the start. Two steps lose a slot;
the requests that they end are counted, so that the slots add up in every run. -/

namespace EasyModelGate

/-! ## Requests and tickets -/

namespace Request

/-- What has become of the slot of a request. -/
def ticket (r : Request) : Ticket :=
  if r.acquired = 0 then .none
  else if 0 < r.released then .returned
  else if r.ended then .lost
  else .held

/-- It was dropped unread, or cancelled while its stream was being closed. -/
def abandoned (r : Request) : Bool :=
  match r.phase with
  | .serving (.done (.dropped _)) => true
  | .serving (.done (.streamed (some (.py .cancelledError)))) => true
  | _ => false

/-- How often a request has acquired and released, by where it is. -/
inductive SlotUse (r : Request) : Prop
  | waiting (hp : r.phase.beforeSlot = true) (ha : r.acquired = 0) (hr : r.released = 0)
  | holding (hp : r.phase.holds = true) (ha : r.acquired = 1) (hr : r.released = 0)
  | finished (he : r.ended = true) (ha : r.acquired ≤ 1) (hr : r.released = r.acquired)
  | gone (he : r.ended = true) (hl : r.abandoned = true) (ha : r.acquired = 1) (hr : r.released = 0)

variable {r : Request}

theorem ticket_of_waiting (ha : r.acquired = 0) : r.ticket = .none := if_pos ha

theorem ticket_of_holding (hp : r.phase.holds = true) (ha : r.acquired = 1) (hr : r.released = 0) :
    r.ticket = .held := by
  simp [ticket, ha, hr, ended_of_holds hp]

theorem ticket_of_returned (ha : r.acquired = 1) (hr : r.released = 1) : r.ticket = .returned := by
  simp [ticket, ha, hr]

theorem ticket_of_lost (he : r.ended = true) (ha : r.acquired = 1) (hr : r.released = 0) :
    r.ticket = .lost := by
  simp [ticket, ha, hr, he]

theorem SlotUse.of_beforeSlot (h : r.SlotUse) (hb : r.phase.beforeSlot = true) :
    r.acquired = 0 ∧ r.released = 0 := by
  have hholds : r.phase.holds = false := by
    cases hp : r.phase with
    | serving pc =>
      rw [hp] at hb
      cases pc <;> first | rfl | exact Bool.noConfusion hb
    | authenticating | reading => rfl
  have hended : r.ended = false := by
    unfold Request.ended
    split
    · rename_i pc hp
      rw [hp] at hb
      cases pc <;> first | rfl | exact Bool.noConfusion hb
    · rfl
  cases h with
  | waiting _ ha hr => exact ⟨ha, hr⟩
  | holding hp => exact absurd (hholds.symm.trans hp) Bool.false_ne_true
  | finished he | gone he => exact absurd (hended.symm.trans he) Bool.false_ne_true

theorem SlotUse.of_holds (h : r.SlotUse) (hh : r.phase.holds = true) :
    r.acquired = 1 ∧ r.released = 0 := by
  cases h with
  | waiting hb =>
    cases hp : r.phase with
    | serving pc =>
      rw [hp] at hh hb
      cases pc <;> first | exact Bool.noConfusion hh | exact Bool.noConfusion hb
    | authenticating | reading => rw [hp] at hh; exact Bool.noConfusion hh
  | holding _ ha hr => exact ⟨ha, hr⟩
  | finished he | gone he => exact absurd ((ended_of_holds hh).symm.trans he) Bool.false_ne_true

theorem SlotUse.once (h : r.SlotUse) : r.released ≤ r.acquired ∧ r.acquired ≤ 1 := by
  cases h <;> omega

theorem SlotUse.held_of_inFlight (h : r.SlotUse) (hf : r.inFlight = true) : r.ticket = .held := by
  have hh := holds_of_inFlight hf
  obtain ⟨ha, hr⟩ := h.of_holds hh
  exact ticket_of_holding hh ha hr

theorem SlotUse.abandoned_of_lost (h : r.SlotUse) (ht : r.ticket = .lost) : r.abandoned = true := by
  cases h with
  | waiting _ ha => rw [ticket_of_waiting ha] at ht; cases ht
  | holding hp ha hr => rw [ticket_of_holding hp ha hr] at ht; cases ht
  | finished _ ha hr =>
    obtain ha | ha : r.acquired = 0 ∨ r.acquired = 1 := by omega
    · rw [ticket_of_waiting ha] at ht; cases ht
    · rw [ticket_of_returned ha (hr.trans ha)] at ht; cases ht
  | gone _ hl => exact hl

end Request

/-! ## The gateway as a pool -/

namespace Gateway

def pool (g : Gateway) : Pool := ⟨g.free, g.requests.map Request.ticket⟩

variable {g g' : Gateway} {i : Nat} {r r' : Request}

theorem tickets_at (hr : g.requests[i]? = some r) : g.pool.tickets[i]? = some r.ticket := by
  unfold pool
  rw [List.getElem?_map, hr]
  rfl

theorem pool_set (g' : Gateway) (hreq : g'.requests = g.requests.set i r') :
    g'.pool = ⟨g'.free, g.pool.tickets.set i r'.ticket⟩ := by
  unfold pool
  rw [hreq, List.map_set]

/-- A request that moves without its ticket. -/
theorem pool_same (hr : g.requests[i]? = some r) (hreq : g'.requests = g.requests.set i r')
    (ht : r'.ticket = r.ticket) (hfree : g'.free = g.free) : g.pool.Moves g'.pool := by
  have htickets : g.pool.tickets.set i r'.ticket = g.pool.tickets := by
    apply List.ext_getElem?
    intro j
    rw [ht, List.getElem?_set]
    split
    · subst j
      rw [tickets_at hr, if_pos (List.getElem?_eq_some_iff.mp (tickets_at hr)).1]
    · rfl
  rw [pool_set g' hreq, htickets, hfree]
  exact .refl

theorem pool_take (hr : g.requests[i]? = some r) (ht : r.ticket = .none) (hfree : 0 < g.free) :
    g.pool.Moves ⟨g.free - 1, g.pool.tickets.set i .held⟩ :=
  .single (.take (ht ▸ tickets_at hr) hfree)

theorem pool_giveBack (hr : g.requests[i]? = some r) (ht : r.ticket = .held) :
    g.pool.Moves ⟨g.free + 1, g.pool.tickets.set i .returned⟩ :=
  .single (.giveBack (ht ▸ tickets_at hr))

theorem pool_lose (hr : g.requests[i]? = some r) (ht : r.ticket = .held) :
    g.pool.Moves ⟨g.free, g.pool.tickets.set i .lost⟩ :=
  .single (.lose (ht ▸ tickets_at hr))

/-- A slot that is acquired and released at once. -/
theorem pool_touch (hr : g.requests[i]? = some r) (ht : r.ticket = .none) (hfree : 0 < g.free) :
    g.pool.Moves ⟨g.free, g.pool.tickets.set i .returned⟩ := by
  have hi : (g.pool.tickets.set i .held)[i]? = some .held :=
    List.getElem?_set_self (List.getElem?_eq_some_iff.mp (tickets_at hr)).1
  have hmove := (pool_take hr ht hfree).tail (.giveBack hi)
  rwa [List.set_set, Nat.sub_add_cancel hfree] at hmove

/-! ## One step -/

/-- What an event does about a slot: the slots that it takes and gives back, and where the request
is then. -/
inductive SlotStep (pc : Pc) : Pc → Nat → Nat → Prop
  | givesUp (hp : pc.isQueueing = true) (hd : pc'.isDone = true) : SlotStep pc pc' 0 0
  | acquires (hp : pc.isQueueing = true) (hh : pc'.holds = true) : SlotStep pc pc' 1 0
  /-- The request of the upstream could not be built. -/
  | touches (hp : pc.isQueueing = true) (hd : pc'.isDone = true) : SlotStep pc pc' 1 1
  | keeps (hp : pc.holds = true) (hh : pc'.holds = true) : SlotStep pc pc' 0 0
  | returns (hp : pc.holds = true) (hd : pc'.isDone = true) : SlotStep pc pc' 0 1
  | leaves (hp : pc.holds = true) (hd : pc'.isDone = true)
    (hl : ∀ r : Request, r.phase = .serving pc' → r.abandoned = true) : SlotStep pc pc' 0 0

theorem slotStep (h : Resumed env clk pc ev pc' effects) :
    SlotStep pc pc' ev.takes (releases effects) := by
  cases h with
  | refused => exact .touches rfl rfl
  | sent => exact .acquires rfl rfl
  | busy | queueCancelled => exact .givesUp rfl rfl
  | whole | errorBody =>
    unfold respondedWith
    split <;> exact .returns rfl rfl
  | unreadable | sendCancelled => exact .returns rfl rfl
  | sendFailed hev he =>
    cases ev <;> first | exact .returns rfl rfl | cases hev
  | readFailed hev he | closeFailed hev he =>
    cases ev <;> first | exact .returns rfl rfl | cases hev
  | finalized hev => rcases hev with rfl | rfl | rfl <;> exact .returns rfl rfl
  | pullFailed hev he =>
    cases ev <;> first | exact .keeps rfl rfl | cases he
  | closedAtYield hev => rcases hev with rfl | rfl <;> exact .keeps rfl rfl
  | dropped | finalizingCancelled =>
    refine .leaves rfl rfl fun r hr => ?_
    rw [Request.abandoned, hr]
  | _ => exact .keeps rfl rfl

/-- **One event, as moves of the pool.** -/
theorem SlotStep.moves (h : SlotStep pc pc' took given) (hu : r.SlotUse)
    (hr : g.requests[i]? = some r) (hp : r.phase = .serving pc) (hp' : r'.phase = .serving pc')
    (hreq : g'.requests = g.requests.set i r') (hfree : g'.free = g.free - took + given)
    (hfits : took ≤ g.free) (ha : r'.acquired = r.acquired + took)
    (hrel : r'.released = r.released + given) : r'.SlotUse ∧ g.pool.Moves g'.pool := by
  have hholds (hh : pc'.holds = true) : r'.phase.holds = true := by rw [hp']; exact hh
  have hended (hd : pc'.isDone = true) : r'.ended = true := by rw [Request.ended, hp']; exact hd
  have hwaiting (hq : pc.isQueueing = true) : r.acquired = 0 ∧ r.released = 0 := by
    refine hu.of_beforeSlot ?_
    rw [hp]
    exact hq
  have hholding (hh : pc.holds = true) : r.acquired = 1 ∧ r.released = 0 := by
    refine hu.of_holds ?_
    rw [hp]
    exact hh
  cases h with
  | givesUp hq hd =>
    obtain ⟨ha₀, hrel₀⟩ := hwaiting hq
    have ha' : r'.acquired = 0 := by omega
    refine ⟨.finished (hended hd) (by omega) (by omega), pool_same hr hreq ?_ (by omega)⟩
    rw [Request.ticket_of_waiting ha', Request.ticket_of_waiting ha₀]
  | acquires hq hh =>
    obtain ⟨ha₀, hrel₀⟩ := hwaiting hq
    have ha' : r'.acquired = 1 := by omega
    have hrel' : r'.released = 0 := by omega
    refine ⟨.holding (hholds hh) ha' hrel', ?_⟩
    rw [pool_set g' hreq, Request.ticket_of_holding (hholds hh) ha' hrel', hfree]
    exact pool_take hr (Request.ticket_of_waiting ha₀) hfits
  | touches hq hd =>
    obtain ⟨ha₀, hrel₀⟩ := hwaiting hq
    have ha' : r'.acquired = 1 := by omega
    have hrel' : r'.released = 1 := by omega
    refine ⟨.finished (hended hd) (by omega) (by omega), ?_⟩
    rw [pool_set g' hreq, Request.ticket_of_returned ha' hrel', hfree, Nat.sub_add_cancel hfits]
    exact pool_touch hr (Request.ticket_of_waiting ha₀) hfits
  | keeps hh hh' =>
    obtain ⟨ha₀, hrel₀⟩ := hholding hh
    have ha' : r'.acquired = 1 := by omega
    have hrel' : r'.released = 0 := by omega
    refine ⟨.holding (hholds hh') ha' hrel', pool_same hr hreq ?_ (by omega)⟩
    rw [Request.ticket_of_holding (hholds hh') ha' hrel',
      Request.ticket_of_holding (by rw [hp]; exact hh) ha₀ hrel₀]
  | returns hh hd =>
    obtain ⟨ha₀, hrel₀⟩ := hholding hh
    have ha' : r'.acquired = 1 := by omega
    have hrel' : r'.released = 1 := by omega
    refine ⟨.finished (hended hd) (by omega) (by omega), ?_⟩
    rw [pool_set g' hreq, Request.ticket_of_returned ha' hrel', hfree]
    exact pool_giveBack hr (Request.ticket_of_holding (by rw [hp]; exact hh) ha₀ hrel₀)
  | leaves hh hd hl =>
    obtain ⟨ha₀, hrel₀⟩ := hholding hh
    have ha' : r'.acquired = 1 := by omega
    have hrel' : r'.released = 0 := by omega
    refine ⟨.gone (hended hd) (hl r' hp') ha' hrel', ?_⟩
    rw [pool_set g' hreq, Request.ticket_of_lost (hended hd) ha' hrel', hfree]
    exact pool_lose hr (Request.ticket_of_holding (by rw [hp]; exact hh) ha₀ hrel₀)

/-- A request that has not queued yet moves without its ticket. -/
theorem early_moves (h : ∀ r ∈ g.requests, r.SlotUse) (hr : g.requests[i]? = some r)
    (hb : r.phase.beforeSlot = true) (hreq : g'.requests = g.requests.set i r')
    (hfree : g'.free = g.free) (ha : r'.acquired = r.acquired) (hrel : r'.released = r.released)
    (hp : r'.phase.beforeSlot = true ∨ r'.ended = true) :
    (∀ r ∈ g'.requests, r.SlotUse) ∧ g.pool.Moves g'.pool := by
  obtain ⟨ha₀, hrel₀⟩ := (h r (List.mem_of_getElem? hr)).of_beforeSlot hb
  rw [ha₀] at ha
  rw [hrel₀] at hrel
  refine ⟨?_, pool_same hr hreq ?_ hfree⟩
  · rw [hreq]
    apply forall_mem_set h
    rcases hp with hb' | he
    · exact .waiting hb' ha hrel
    · exact .finished he (ha.trans_le zero_le_one) (hrel.trans ha.symm)
  · rw [Request.ticket_of_waiting ha, Request.ticket_of_waiting ha₀]

/-- **One step of the gateway** is some moves of the pool. -/
theorem step_moves (h : ∀ r ∈ g.requests, r.SlotUse) (hstep : Gateway.step cfg g l = some g') :
    (∀ r ∈ g'.requests, r.SlotUse) ∧ g.pool.Moves g'.pool := by
  cases Stepped.of_step hstep with
  | @arrive req nowMs =>
    set c := requireAuth cfg.hashKey cfg.keyPrefix (Request.header req) nowMs
    set r' := settleAuth { req, phase := .authenticating c nowMs } nowMs c with hr'
    obtain ⟨-, ha, hrel⟩ := settleAuth_slots { req, phase := .authenticating c nowMs } nowMs c
    have hp : r'.phase.beforeSlot = true ∨ r'.ended = true := by
      rw [hr']
      cases c <;> first | exact .inl rfl | exact .inr rfl
    constructor
    · intro x hx
      rcases List.mem_append.mp hx with hx | hx
      · exact h x hx
      · rw [List.mem_singleton.mp hx]
        rcases hp with hb | he
        · exact .waiting hb ha hrel
        · exact .finished he (ha.trans_le zero_le_one) (hrel.trans ha.symm)
    · refine .single ?_
      have hpool : (g.stepArrive cfg req nowMs).pool =
          { g.pool with tickets := g.pool.tickets ++ [.none] } := by
        simp only [pool, stepArrive, List.map_append, List.map_singleton]
        rw [Request.ticket_of_waiting ha]
      rw [hpool]
      exact .join
  | @auth i r c nowMs c' conn hr hp hc =>
    obtain ⟨-, ha, hrel⟩ := settleAuth_slots r nowMs c'
    refine early_moves h hr (by rw [hp]; rfl) rfl rfl ha hrel ?_
    cases c' <;> first | exact .inl rfl | exact .inr rfl
  | @cancelAuth i r c nowMs hr hp =>
    exact early_moves h hr (by rw [hp]; rfl) rfl rfl rfl rfl (.inr rfl)
  | @body i r auth clk pc effects limiter hr hp hadm =>
    obtain ⟨-, heff, hwhere⟩ := hadm.slots
    refine early_moves h hr (by rw [hp]; rfl) rfl ?_ rfl ?_ hwhere
    · simp [serve, heff]
    · simp [Request.serve, heff]
  | @event i r pc clk ev pc' effects hr hp hres ht =>
    have hevent : (r.serve pc' effects ev.takes).SlotUse ∧
        g.pool.Moves (g.serve i r pc' effects ev.takes).pool :=
      (slotStep hres).moves (h r (List.mem_of_getElem? hr)) hr hp rfl rfl rfl ht rfl rfl
    obtain ⟨hu, hmoves⟩ := hevent
    exact ⟨forall_mem_set h i hu, hmoves⟩
  | task ht hc => exact ⟨h, .refl⟩

/-! ## Every run -/

/-- The slots of a gateway that was started with `n`. -/
structure SlotsAccounted (n : Nat) (g : Gateway) : Prop where
  /-- The free slots, those in use, and those of the requests that went away with one. -/
  accounted : g.free + g.requests.countP (·.ticket = .held) +
    g.requests.countP (·.ticket = .lost) = n
  once : ∀ r ∈ g.requests, r.released ≤ r.acquired ∧ r.acquired ≤ 1
  covered : ∀ r ∈ g.requests, r.inFlight = true → r.ticket = .held
  bounded : g.requests.countP Request.inFlight ≤ n
  lost : ∀ r ∈ g.requests, r.ticket = .lost → r.abandoned = true

theorem pool_count (g : Gateway) (t : Ticket) :
    g.pool.count t = g.requests.countP (·.ticket = t) := by
  unfold pool Pool.count
  rw [List.countP_map]
  rfl

theorem SlotsAccounted.of_moves (hu : ∀ r ∈ g.requests, r.SlotUse)
    (hm : Pool.Moves ⟨n, []⟩ g.pool) :
    g.SlotsAccounted n := by
  have hsum : g.free + g.requests.countP (·.ticket = .held) +
      g.requests.countP (·.ticket = .lost) = n := by
    rw [← pool_count, ← pool_count]
    exact g.pool.total_eq.symm.trans hm.total
  have hcovered : ∀ r ∈ g.requests, r.inFlight = true → r.ticket = .held :=
    fun r hr => (hu r hr).held_of_inFlight
  have hfew : g.requests.countP Request.inFlight ≤ g.requests.countP (·.ticket = .held) :=
    List.countP_mono_left fun r hr hf => decide_eq_true (hcovered r hr hf)
  exact {
    accounted := hsum
    once := fun r hr => (hu r hr).once
    covered := hcovered
    bounded := by omega
    lost := fun r hr => (hu r hr).abandoned_of_lost }

/-- **Every slot is accounted for**, in every run: whatever the server drops and whoever is
cancelled, no more requests of the upstream run at once than there are slots, and the slots that are
neither free nor in use went away with the requests that were abandoned. -/
theorem slots_accounted (cfg : GatewayConfig) (conn : Conn) (n drawn : Nat)
    (ls : List Label) (g : Gateway) (h : Run (Gateway.step cfg) (Gateway.init conn n drawn) ls g) :
    g.SlotsAccounted n := by
  have hinit : (∀ r ∈ (Gateway.init conn n drawn).requests, r.SlotUse) ∧
      Pool.Moves ⟨n, []⟩ (Gateway.init conn n drawn).pool :=
      ⟨fun _ hr => absurd hr List.not_mem_nil, .refl⟩
  have hinv := h.invariant (I := fun g => (∀ r ∈ g.requests, r.SlotUse) ∧ Pool.Moves ⟨n, []⟩ g.pool)
    (fun g l g' hi hs => by
      obtain ⟨hu, hm⟩ := step_moves hi.1 hs
      exact ⟨hu, hi.2.trans hm⟩) hinit
  exact .of_moves hinv.1 hinv.2

/-- A stream that the server never reads: its slot is the only one, and it is lost. -/
theorem slots_accounted_dropped : ∃ g, Run (Gateway.step Sample.cfg) (Gateway.init Sample.conn 1)
    (Sample.stream ++ [.event 0 (Sample.clockAt 4) (.dropped true)]) g ∧ g.SlotsAccounted 1 ∧
      g.requests.countP (·.ticket = .lost) = 1 := by
  have hrun : ((Sample.stream ++ [Label.event 0 (Sample.clockAt 4) (.dropped true)]).foldlM
    (Gateway.step Sample.cfg) (Gateway.init Sample.conn 1)).any
      (fun g => g.requests.countP (·.ticket = .lost) = 1) := by decide +kernel
  obtain ⟨g, h, hp⟩ := Run.exists_of_any hrun
  exact ⟨g, h, slots_accounted _ _ _ _ _ _ h, of_decide_eq_true hp⟩

end Gateway
end EasyModelGate
