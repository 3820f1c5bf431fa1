import EasyModelGate.Verify.Gateway

/-! # Slot conservation

What one resumption does to the slot of its request (`Resumed.slots`), and from it what every run
of the gateway does to the semaphore (`Gateway.slots_conserved`). Two steps lose a slot: the server
drops a streaming response that it has not begun to read, and a cancellation hits the `aclose` in
the `finally` of `relay_gen`. -/

namespace EasyModelGate

/-! ## The property -/

namespace Request

/-- It has acquired a slot and not released it. -/
def holdsSlot (r : Request) : Bool := r.released < r.acquired

/-- It has an upstream chat call in flight. -/
def inFlight (r : Request) : Bool :=
  match r.phase with
  | .serving pc => pc.inFlight
  | _ => false

end Request

namespace Gateway

/-- How many slots the live requests hold. -/
def slotsHeld (g : Gateway) : Nat := (g.requests.map fun r => (!r.ended && r.holdsSlot).toNat).sum

structure SlotsConserved (n : Nat) (g : Gateway) : Prop where
  conserved : g.free + g.slotsHeld = n
  covered : ∀ r ∈ g.requests, r.inFlight → r.holdsSlot
  returned : ∀ r ∈ g.requests, r.ended → 0 < r.acquired → r.released = 1

end Gateway

/-- The steps that end a request without releasing its slot. -/
def Pc.leaks : Pc → Event → Bool
  | .created _, .dropped _ => true
  | .finalizing .., .cancelled => true
  | _, _ => false

/-- The step does not drop an unread stream, nor cancel the closing of one. -/
def Gateway.keepsSlots (g : Gateway) : Label → Bool
  | .event i _ ev =>
    match g.requests[i]? with
    | some r =>
      match r.phase with
      | .serving pc => !pc.leaks ev
      | _ => true
    | none => true
  | _ => true

/-! ## One step -/

def Pc.isQueueing : Pc → Bool
  | .queueing .. => true
  | _ => false

@[simp] theorem releases_nil : releases [] = 0 := rfl

/-- **One resumption and its slot**: an event that takes a slot finds the request queueing, and the
slot is kept or given back. -/
theorem Resumed.slots (h : Resumed env clk pc ev pc' effects) (hl : pc.leaks ev = false) :
    pc.holds.toNat + ev.takes = pc'.holds.toNat + releases effects ∧
      (ev.takes = 1 → pc.isQueueing) ∧ pc'.isQueueing = false := by
  cases h with
  | refused | sent => exact ⟨rfl, fun _ => rfl, rfl⟩
  | whole | errorBody =>
    unfold respondedWith
    split <;> exact ⟨rfl, nofun, rfl⟩
  | sendFailed hev he =>
    cases ev <;> first | exact ⟨rfl, nofun, rfl⟩ | cases hev
  | readFailed hev he | closeFailed hev he =>
    cases ev <;> first | exact ⟨rfl, nofun, rfl⟩ | cases hev
  | pullFailed hev he =>
    cases ev <;> first | exact ⟨rfl, nofun, rfl⟩ | cases he
  | closedAtYield hev => rcases hev with rfl | rfl <;> exact ⟨rfl, nofun, rfl⟩
  | finalized hev => rcases hev with rfl | rfl | rfl <;> exact ⟨rfl, nofun, rfl⟩
  | dropped | finalizingCancelled => cases hl
  | _ => exact ⟨rfl, nofun, rfl⟩

theorem Admission.slots (h : Admission env req a limiter pc effects limiter') :
    pc.holds = false ∧ releases effects = 0 ∧ (pc.isQueueing ∨ pc.isDone) := by
  cases h with
  | failed | refused => exact ⟨rfl, rfl, .inr rfl⟩
  | admitted => exact ⟨rfl, rfl, .inl rfl⟩

/-! ## The invariant -/

/-- Between the acquisition and the release of a slot, as the code means it. -/
def Phase.holds : Phase → Bool
  | .serving pc => pc.holds
  | _ => false

/-- Before `slots.acquire` returns. -/
def Phase.beforeSlot : Phase → Bool
  | .serving pc => pc.isQueueing
  | _ => true

structure Request.SlotInv (r : Request) : Prop where
  owed : r.acquired = r.released + r.phase.holds.toNat
  once : r.acquired ≤ 1
  fresh : r.phase.beforeSlot → r.acquired = 0

structure Gateway.SlotInv (n : Nat) (g : Gateway) : Prop where
  requests : ∀ r ∈ g.requests, r.SlotInv
  total : g.free + (g.requests.map (·.phase.holds.toNat)).sum = n

theorem Request.SlotInv.holdsSlot {r : Request} (h : r.SlotInv) : r.holdsSlot = r.phase.holds := by
  have := h.owed
  unfold Request.holdsSlot
  cases hh : r.phase.holds <;> simp only [hh, Bool.toNat_false, Bool.toNat_true] at this <;>
    simp <;> omega

theorem Request.ended_of_holds {r : Request} (h : r.phase.holds = true) : r.ended = false := by
  unfold Request.ended
  split <;> rename_i pc hp
  · rw [hp] at h
    cases pc <;> first | rfl | cases h
  · rfl

theorem Request.holds_of_inFlight {r : Request} (h : r.inFlight = true) : r.phase.holds = true := by
  unfold Request.inFlight at h
  split at h <;> rename_i pc hp
  · rw [hp]
    cases pc <;> first | rfl | cases h
  · cases h

theorem Gateway.SlotInv.conserved {g : Gateway} (h : g.SlotInv n) : g.SlotsConserved n where
  conserved := by
    rw [← h.total]
    unfold Gateway.slotsHeld
    congr 2
    refine List.map_congr_left fun r hr => ?_
    rw [(h.requests r hr).holdsSlot]
    cases hh : r.phase.holds with
    | false => simp
    | true => simp [Request.ended_of_holds hh]
  covered r hr hf := by
    rw [(h.requests r hr).holdsSlot]
    exact Request.holds_of_inFlight hf
  returned r hr he ha := by
    have hi := h.requests r hr
    have hh : r.phase.holds = false := by
      cases hh : r.phase.holds with
      | false => rfl
      | true => rw [Request.ended_of_holds hh] at he; cases he
    have := hi.owed
    have := hi.once
    rw [hh, Bool.toNat_false] at *
    omega

/-- Request `i` moves to `r'`, taking and giving back slots by the books. -/
theorem Gateway.SlotInv.move {g : Gateway} (h : g.SlotInv n) {r r' : Request} {g' : Gateway}
    (hr : g.requests[i]? = some r) (hr' : r'.SlotInv) (took given : Nat)
    (hslots : r.phase.holds.toNat + took = r'.phase.holds.toNat + given) (ht : took ≤ g.free)
    (hreq : g'.requests = g.requests.set i r') (hfree : g'.free = g.free - took + given) :
    g'.SlotInv n where
  requests := hreq ▸ forall_mem_set h.requests i hr'
  total := by
    have hsum := sum_map_set (fun r => r.phase.holds.toNat) hr r'
    have := h.total
    rw [hreq, hfree]
    omega

theorem settleAuth_slots (r : Request) (nowMs : Int) (c : Db AuthContext) :
    (settleAuth r nowMs c).phase.holds = false ∧ (settleAuth r nowMs c).acquired = r.acquired ∧
      (settleAuth r nowMs c).released = r.released := by
  cases c <;> exact ⟨rfl, rfl, rfl⟩

theorem Request.SlotInv.unslotted {r : Request} (h : r.SlotInv) (hb : r.phase.beforeSlot = true) :
    r.acquired = 0 ∧ r.released = 0 := by
  have := h.owed
  have := h.fresh hb
  omega

/-- A request that has never had a slot. -/
theorem Request.SlotInv.none {r : Request} (ha : r.acquired = 0) (hr : r.released = 0)
    (hh : r.phase.holds = false) : r.SlotInv :=
  ⟨by rw [ha, hr, hh]; rfl, by omega, fun _ => ha⟩

theorem Gateway.SlotInv.step {g g' : Gateway} (h : g.SlotInv n)
    (hstep : Gateway.step cfg g l = some g') (hk : g.keepsSlots l = true) : g'.SlotInv n := by
  cases Stepped.of_step hstep with
  | @arrive req nowMs =>
    obtain ⟨hh, ha, hrel⟩ := settleAuth_slots
      { req
        phase := .authenticating
          (requireAuth cfg.hashKey cfg.keyPrefix (Request.header req) nowMs) nowMs }
      nowMs (requireAuth cfg.hashKey cfg.keyPrefix (Request.header req) nowMs)
    unfold Gateway.stepArrive
    refine ⟨fun r hr => ?_, ?_⟩
    · rcases List.mem_append.mp hr with hr | hr
      · exact h.requests r hr
      · cases List.mem_singleton.mp hr
        exact .none ha hrel hh
    · simpa [hh] using h.total
  | @auth i r c nowMs c' conn hr hp hc =>
    obtain ⟨ha, hrel⟩ := (h.requests r (List.mem_of_getElem? hr)).unslotted (by rw [hp]; rfl)
    obtain ⟨hh, ha', hrel'⟩ := settleAuth_slots r nowMs c'
    refine h.move hr (.none (ha'.trans ha) (hrel'.trans hrel) hh) 0 0 ?_ (Nat.zero_le _) rfl rfl
    rw [hh, hp]
    rfl
  | @cancelAuth i r c nowMs hr hp =>
    obtain ⟨ha, hrel⟩ := (h.requests r (List.mem_of_getElem? hr)).unslotted (by rw [hp]; rfl)
    have hnone : (r.serve (.done (.raised (.py .cancelledError))) [] 0).SlotInv := .none ha hrel rfl
    refine h.move hr hnone 0 0 ?_ (Nat.zero_le _) rfl rfl
    rw [hp]
    rfl
  | @body i r auth clk pc effects limiter hr hp hadm =>
    obtain ⟨ha, hrel⟩ := (h.requests r (List.mem_of_getElem? hr)).unslotted (by rw [hp]; rfl)
    obtain ⟨hh, heff, -⟩ := hadm.slots
    have hnone : (r.serve pc effects 0).SlotInv := .none ha (by simp [Request.serve, hrel, heff]) hh
    refine h.move hr hnone 0 0 ?_ (Nat.zero_le _) rfl (by simp [Gateway.serve, heff])
    simp [Request.serve, hp, Phase.holds, hh]
  | @event i r pc clk ev pc' effects hr hp hres ht =>
    have hi := h.requests r (List.mem_of_getElem? hr)
    have hl : pc.leaks ev = false := by simpa [Gateway.keepsSlots, hr, hp] using hk
    obtain ⟨hslots, htake, hq⟩ := hres.slots hl
    have howed := hi.owed
    have honce := hi.once
    rw [hp] at howed
    refine h.move hr ?_ ev.takes (releases effects) ?_ ht rfl rfl
    · refine ⟨?_, ?_, fun hb => by simp [Request.serve, Phase.beforeSlot, hq] at hb⟩
      · simp only [Request.serve, Phase.holds] at howed ⊢
        omega
      · simp only [Request.serve]
        by_cases h1 : ev.takes = 1
        · have := hi.fresh (by rw [hp]; exact htake h1)
          omega
        · have : ev.takes = 0 := by cases ev <;> first | rfl | exact absurd rfl h1
          omega
    · rw [hp]
      exact hslots
  | task ht hc => exact ⟨h.requests, h.total⟩

/-- **Slot conservation.** In every run in which the server starts to read every streaming response
and no `aclose` of `relay_gen` is cancelled, the free slots and those of the live requests are all
slots, every upstream call holds one, and a request that has ended has released what it acquired
exactly once. -/
theorem Gateway.slots_conserved (cfg : GatewayConfig) (conn : Conn) (n : Nat) (ls : List Label)
    (g : Gateway)
    (h : Run (restrict (Gateway.step cfg) fun g l => g.keepsSlots l = true) (Gateway.init conn n)
      ls g) : g.SlotsConserved n := by
  have hinit : (Gateway.init conn n).SlotInv n := ⟨by simp [Gateway.init], by simp [Gateway.init]⟩
  refine (h.invariant (I := Gateway.SlotInv n) (fun g l g' hi hs => ?_) hinit).conserved
  obtain ⟨hk, hs⟩ := restrict_eq_some.mp hs
  exact hi.step hs hk

/-- A stream that is relayed to its end gives its slot back. -/
theorem Gateway.slots_conserved_relayed :
    ∃ g, Run (restrict (Gateway.step Sample.cfg) fun g l => g.keepsSlots l = true)
      (Gateway.init Sample.conn 1) Sample.relayed g ∧ g.SlotsConserved 1 := by
  have hrun : (Sample.relayed.foldlM (restrict (Gateway.step Sample.cfg) fun g l =>
    g.keepsSlots l = true) (Gateway.init Sample.conn 1)).any (fun _ => true) := by decide +kernel
  obtain ⟨g, h, -⟩ := Run.exists_of_any hrun
  exact ⟨g, h, Gateway.slots_conserved _ _ _ _ _ h⟩

/-- The only slot is lost when the stream of its request is dropped unread. -/
theorem Gateway.slot_lost : ¬ ∀ (cfg : GatewayConfig) (conn : Conn) (n : Nat) (ls : List Label)
    (g : Gateway), Run (Gateway.step cfg) (Gateway.init conn n) ls g → g.SlotsConserved n := by
  intro hall
  have hrun : ((Sample.stream ++ [Label.event 0 (Sample.clockAt 4) (.dropped true)]).foldlM
    (Gateway.step Sample.cfg) (Gateway.init Sample.conn 1)).any
      (fun g => g.free + g.slotsHeld = 0) := by decide +kernel
  obtain ⟨g, h, hp⟩ := Run.exists_of_any hrun
  have := (hall _ _ _ _ _ h).conserved
  simp only [decide_eq_true_eq] at hp
  omega

end EasyModelGate
