import EasyModelGate.Verify.Audit
import EasyModelGate.Verify.Books

/-! # No request is logged twice, and no record that was committed is lost

A request that ends hands at most one record to a detached task, and only that task inserts it. What
the gateway sees in the log is what its tasks have inserted, one row each, and what a task has
committed is in the file. -/

namespace EasyModelGate

/-! ## The property -/

/-- The requests of which the log tells, row by row. -/
def Tables.requestIds (t : Tables) : List Uuid := t.requestLogs.rows.map (·.val.requestId)

namespace Task

/-- The request whose record the task was given. -/
def logs? (t : Task) : Option Uuid :=
  match t.purpose with
  | .log record _ => some record.requestId
  | .touch .. => none

/-- Its first statement has run and did not fail. -/
def inserted (t : Task) : Bool := t.steps = 1 && !t.coro.ended || 2 ≤ t.steps

/-- It has come to its end without an exception. -/
def returned (t : Task) : Bool :=
  match t.coro with
  | .ret _ => true
  | _ => false

/-- The request whose record the task was given, if the task is such. -/
def logsIf (p : Task → Bool) (t : Task) : Option Uuid := if p t then t.logs? else none

end Task

namespace Gateway

/-- The requests that have handed over a record. -/
def handed (g : Gateway) : List Uuid := g.tasks.filterMap Task.logs?

/-- Those among them whose tasks are such. -/
def handedTo (p : Task → Bool) (g : Gateway) : List Uuid := g.tasks.filterMap (Task.logsIf p)

/-- Each record was handed over by a request of its own, that has ended. -/
structure HandedOver (g : Gateway) : Prop where
  once : g.handed.Nodup
  ended : ∀ id ∈ g.handed, ∃ i r o, g.requests[i]? = some r ∧ r.phase = .serving (.done o) ∧
    id = g.drawn + i

/-- The log since `t₀` accounts for what the tasks have done. -/
structure Accounted (t₀ : Tables) (g : Gateway) : Prop where
  /-- There is one row for each record that has been inserted. -/
  view : g.conn.view.requestIds.Perm (t₀.requestIds ++ g.handedTo Task.inserted)
  /-- What a task has committed is durable. -/
  kept : (t₀.requestIds ++ g.handedTo Task.returned).Subperm g.conn.durable.requestIds
  durable : g.conn.durable.requestIds.Subperm (t₀.requestIds ++ g.handedTo Task.inserted)
  handed : g.HandedOver

end Gateway

/-! ## The log -/

theorem Tables.SameBooks.requestIds {t t' : Tables} (h : t.SameBooks t') :
    t'.requestIds = t.requestIds := by
  unfold Tables.requestIds
  rw [h.requestLogs]

/-- A record that is inserted. -/
theorem requestIds_insert {record : RequestLog Json} {t t' : Tables}
    (hrun : (Dml.insertRequestLog record.clipped).run t = .ok (cursor, t')) :
    t'.requestIds = t.requestIds ++ [record.requestId] := by
  simp only [Dml.run] at hrun
  split at hrun <;> cases hrun
  rename_i values hbind
  obtain ⟨-, hid, -⟩ := RequestLog.bind_eq_ok hbind
  have hid : values.requestId = record.requestId := hid
  unfold Tables.requestIds
  rw [Table.rows_insert, List.map_append, List.map_singleton, RequestLog.stored, hid]

/-- A charge leaves the log alone. -/
theorem requestIds_charge {n : Int} {k : Int} {t t' : Tables}
    (hrun : (Dml.addTokenUsed n k).run t = .ok (cursor, t')) :
    t'.requestIds = t.requestIds := by
  unfold Tables.requestIds
  rw [Dml.run_requestLogs rfl hrun]

/-! ## The tasks -/

namespace Task

variable {t : Task} {c c' : Conn} {coro : Db Unit}

theorem logsIf_of_touch {p : Task → Bool} (h : t.purpose = .touch keyId nowMs) :
    t.logsIf p = none := by
  unfold logsIf logs?
  rw [h]
  exact ite_self _

theorem logsIf_of_log {p : Task → Bool} (h : t.purpose = .log record keyId) :
    t.logsIf p = if p t then some record.requestId else none := by
  unfold logsIf logs?
  rw [h]

theorem logsIf_spawn {p : Task → Bool} {purpose : Purpose} (hp : p (spawn purpose) = false) :
    (spawn purpose).logsIf p = none := by
  unfold logsIf
  rw [hp]
  rfl

/-- Whether the record is inserted, after another statement. -/
theorem inserted_step (hn : 0 < t.steps) (hlive : t.coro.ended = false) (coro : Db Unit) :
    Task.inserted { t with coro, steps := t.steps + 1 } = t.inserted := by
  unfold inserted
  rw [hlive]
  rcases hsteps : t.steps with _ | _ | n
  · omega
  · simp
  · simp

/-- A record whose task has come to its end was inserted. -/
theorem Scripted.inserted_of_returned (h : t.Scripted) (hp : t.purpose = .log record keyId)
    (hr : t.returned = true) :
    t.inserted = true := by
  obtain ⟨purpose, coro, steps⟩ := t
  cases hp
  rcases (show Purpose.Scripted steps coro (.log record keyId) from h) with ⟨e, rfl⟩ | hfollows
  · cases hr
  · have hended : coro.ended = true := by
      cases coro with
      | ret => rfl
      | raise | await => cases hr
    have hlength := List.drop_eq_nil_iff.mp (hfollows.ended_iff.mp hended)
    have htwo : 2 ≤ (Purpose.log record keyId).stmts.length := by
      simp only [Purpose.stmts, persistStmts, List.length_cons, List.length_append, List.length_nil]
      omega
    simp only [inserted, Bool.or_eq_true, decide_eq_true_eq]
    exact .inr (htwo.trans hlength)

@[simp] theorem inserted_spawn (purpose : Purpose) : (spawn purpose).inserted = false := rfl

/-- A task that has not come to its end has not returned. -/
theorem returned_of_live (hlive : t.coro.ended = false) : t.returned = false := by
  unfold returned
  cases hc : t.coro with
  | ret =>
    rw [hc] at hlive
    cases hlive
  | raise | await => rfl

@[simp] theorem returned_spawn (purpose : Purpose) : (spawn purpose).returned = false := by
  cases purpose <;> rfl

end Task

/-- The books of a log that tells, since `t₀`, of `returned` at least and of `inserted` at most. -/
abbrev Tables.Between (t₀ : Tables) (returned inserted : List Uuid) (t : Tables) : Prop :=
  (t₀.requestIds ++ returned).Subperm t.requestIds ∧
    t.requestIds.Subperm (t₀.requestIds ++ inserted)

/-- The books of a log that tells, since `t₀`, of `inserted`. -/
abbrev Tables.Tells (t₀ : Tables) (inserted : List Uuid) (t : Tables) : Prop :=
  t.requestIds.Perm (t₀.requestIds ++ inserted)

section
variable {t₀ : Tables} {returned returned' inserted inserted' : List Uuid}

theorem Tables.kept_between (h : returned.Subperm inserted) :
    Tables.Kept (t₀.Between returned inserted) (t₀.Tells inserted) where
  durable _ _ hbooks ht := by rwa [Tables.Between, hbooks.requestIds]
  view _ _ hbooks ht := by rwa [Tables.Tells, hbooks.requestIds]
  commit _ ht := ⟨((List.Subperm.refl _).append h).trans ht.symm.subperm, ht.subperm⟩

theorem Tables.Between.mono (hreturned : returned'.Subperm returned)
    (hinserted : inserted.Subperm inserted') {t : Tables} (h : t₀.Between returned inserted t) :
    t₀.Between returned' inserted' t :=
  ⟨((List.Subperm.refl _).append hreturned).trans h.1,
    h.2.trans ((List.Subperm.refl _).append hinserted)⟩

end

/-! ## The gateway -/

namespace Gateway

variable {t₀ : Tables} {g g' : Gateway}

/-- The books follow the tasks. -/
structure Booked (t₀ : Tables) (g : Gateway) : Prop where
  conn : g.conn.Books (t₀.Between (g.handedTo Task.returned) (g.handedTo Task.inserted))
    (t₀.Tells (g.handedTo Task.inserted))
  tasks : ∀ task ∈ g.tasks, task.Scripted

theorem handedTo_sublist (h : ∀ task ∈ g.tasks, task.Scripted) :
    (g.handedTo Task.returned).Sublist (g.handedTo Task.inserted) := by
  apply filterMap_sublist
  intro task htask id hid
  cases hp : task.purpose with
  | touch => cases (Task.logsIf_of_touch hp).symm.trans hid
  | log record keyId =>
    rw [Task.logsIf_of_log hp] at hid ⊢
    split at hid <;> cases hid
    exact if_pos ((h task htask).inserted_of_returned hp ‹_›)

theorem Booked.kept (h : g.Booked t₀) :
    Tables.Kept (t₀.Between (g.handedTo Task.returned) (g.handedTo Task.inserted))
      (t₀.Tells (g.handedTo Task.inserted)) :=
  Tables.kept_between (handedTo_sublist h.tasks).subperm

/-- **One statement of a task.** -/
theorem Booked.task {j : Nat} {t : Task} {conn : Conn} {coro : Db Unit} (h : g.Booked t₀)
    (ht : g.tasks[j]? = some t) (hadv : t.coro.advance Conn.handler g.conn = some (coro, conn)) :
    Booked t₀ { g with conn, tasks := g.tasks.set j { t with coro, steps := t.steps + 1 } } := by
  obtain ⟨hscripted, hlive, hmoved⟩ := (h.tasks t (List.mem_of_getElem? ht)).step hadv
  refine ⟨?_, forall_mem_set h.tasks j hscripted⟩
  have hsame {p : Task → Bool}
      (hp : Task.logsIf p { t with coro, steps := t.steps + 1 } = t.logsIf p) :
      handedTo p { g with conn, tasks := g.tasks.set j { t with coro, steps := t.steps + 1 } } =
      g.handedTo p :=
    filterMap_set_same ht hp
  have hreturned (hcoro : coro.ended = false ∨ ∃ e, coro = .raise e) :
      Task.returned { t with coro, steps := t.steps + 1 } = t.returned := by
    rw [Task.returned_of_live hlive]
    rcases hcoro with hcoro | ⟨e, rfl⟩
    · exact Task.returned_of_live hcoro
    · rfl
  have hif {p : Task → Bool} {record : RequestLog Json} {keyId : Option Nat}
      (hp : t.purpose = .log record keyId) (hpt : p { t with coro, steps := t.steps + 1 } = p t) :
      Task.logsIf p { t with coro, steps := t.steps + 1 } = t.logsIf p := by
    rw [Task.logsIf_of_log hp, Task.logsIf_of_log (t := { t with coro, steps := t.steps + 1 }) hp,
      hpt]
  cases hmoved with
  | touched hp hs =>
    have htouch (p : Task → Bool) : Task.logsIf p { t with coro, steps := t.steps + 1 } =
      t.logsIf p := by
      rw [Task.logsIf_of_touch hp,
        Task.logsIf_of_touch (t := { t with coro, steps := t.steps + 1 }) hp]
    rw [hsame (htouch _), hsame (htouch _)]
    exact h.conn.plain h.kept hs
  | @inserted record keyId r _ hp hn hok hgoes =>
    have hnone : t.logsIf Task.inserted = none := by
      rw [Task.logsIf_of_log hp, Task.inserted, hn]
      rfl
    have hsome : Task.logsIf Task.inserted { t with coro, steps := t.steps + 1 } =
      some record.requestId := by
      rw [Task.logsIf_of_log (t := { t with coro, steps := t.steps + 1 }) hp,
        Task.inserted, hn, hgoes]
      rfl
    have hperm := filterMap_set_perm (y := { t with coro, steps := t.steps + 1 }) ht hnone
    rw [hsome] at hperm
    rw [hsame (hif hp (hreturned (.inl hgoes)))]
    refine (h.conn.ran hok fun _ _ _ hrun => ?_).mono (fun _ ht => ht.mono (.refl _) ?_) fun _ => id
    · have hview := h.conn.view.append_right [record.requestId]
      rw [List.append_assoc] at hview
      rw [Tables.Tells, requestIds_insert hrun]
      exact hview.trans (hperm.symm.append_left _)
    · exact (List.sublist_append_left _ _).subperm.trans hperm.symm.subperm
  | @charged record keyId k n r _ hp hn hcharge hok hgoes =>
    have hinserted := Task.inserted_step (hn ▸ Nat.one_pos) hlive coro
    rw [hsame (hif hp (hreturned (.inl hgoes))), hsame (hif hp hinserted)]
    refine h.conn.ran hok fun _ _ _ hrun => ?_
    rw [Tables.Tells, requestIds_charge hrun]
    exact h.conn.view
  | @committed record keyId hp hn =>
    have hinserted := Task.inserted_step hn hlive (.ret ())
    have hconn := h.conn
    rw [← hsame (hif hp hinserted)] at hconn
    exact .committed (Tables.kept_between
      (handedTo_sublist (forall_mem_set h.tasks j hscripted)).subperm) hconn
  | @failed record keyId d e e' hp hn he =>
    have hinserted : Task.inserted { t with coro := .raise e', steps := t.steps + 1 } =
      t.inserted := by
      rcases Nat.eq_zero_or_pos t.steps with hzero | hpos
      · rw [Task.inserted, Task.inserted, hzero]
        rfl
      · exact Task.inserted_step hpos hlive _
    rw [hsame (hif hp (hreturned (.inr ⟨e', rfl⟩))), hsame (hif hp hinserted)]
    exact h.conn.failed he

end Gateway

/-! ## What is handed over -/

/-- At most one record. -/
theorem Resumed.spawned_le (h : Resumed env clk pc ev pc' effects) :
    (spawned effects).length ≤ 1 := by
  cases h <;> first | exact Nat.zero_le 1 | exact Nat.le_refl 1

theorem Admission.spawned_le (h : Admission env req a limiter pc effects limiter') :
    (spawned effects).length ≤ 1 := by
  cases h <;> first | exact Nat.zero_le 1 | exact Nat.le_refl 1

/-- What the effects of a stretch hand over, when each of their records is that of `id`. -/
theorem handed_spawned {effects : List Effect} {id : Uuid} {ended : Prop}
    (hle : (spawned effects).length ≤ 1)
    (h : ∀ record keyId, .persist record keyId ∈ effects → ended ∧ record.requestId = id) :
    (spawned effects).filterMap Task.logs? = [] ∨
    ended ∧ (spawned effects).filterMap Task.logs? = [id] := by
  cases hs : spawned effects with
  | nil => exact .inl rfl
  | cons task rest =>
    obtain ⟨record, keyId, hmem, rfl⟩ := mem_spawned (hs ▸ List.mem_cons_self)
    obtain ⟨hended, rfl⟩ := h record keyId hmem
    rw [hs, List.length_cons] at hle
    have hrest : rest = [] := List.eq_nil_of_length_eq_zero (by omega)
    subst hrest
    exact .inr ⟨hended, rfl⟩

theorem handed_authSpawned (nowMs : Int) (c : Db AuthContext) :
    (authSpawned nowMs c).filterMap Task.logs? = [] := by
  cases c <;> rfl

theorem authSpawned_eq (nowMs : Int) (c : Db AuthContext) :
    ∃ new : List Purpose, authSpawned nowMs c = new.map spawn := by
  cases c with
  | ret auth => exact ⟨[.touch auth.apiKeyId nowMs], rfl⟩
  | raise | await => exact ⟨[], rfl⟩

namespace Gateway

variable {t₀ : Tables} {cfg : GatewayConfig} {g g' : Gateway} {l : Label} {new : List Purpose}

/-- A task that has just been spawned has inserted nothing. -/
theorem handedTo_spawned {p : Task → Bool} (hp : ∀ purpose, p (spawn purpose) = false)
    (htasks : g'.tasks = g.tasks ++ new.map spawn) : g'.handedTo p = g.handedTo p := by
  have hnone : (new.map spawn).filterMap (Task.logsIf p) = [] := by
    rw [List.filterMap_eq_nil_iff]
    intro task htask
    obtain ⟨purpose, -, rfl⟩ := List.mem_map.mp htask
    exact Task.logsIf_spawn (hp purpose)
  unfold handedTo
  rw [htasks, List.filterMap_append, hnone, List.append_nil]

/-- A step that leaves the books alone. -/
theorem Booked.quiet (h : g.Booked t₀) (htasks : g'.tasks = g.tasks ++ new.map spawn)
    (hconn : g'.conn.Books (t₀.Between (g.handedTo Task.returned) (g.handedTo Task.inserted))
      (t₀.Tells (g.handedTo Task.inserted))) : g'.Booked t₀ := by
  refine ⟨?_, ?_⟩
  · rwa [handedTo_spawned Task.returned_spawn htasks, handedTo_spawned Task.inserted_spawn htasks]
  · rw [htasks]
    refine List.forall_mem_append.mpr ⟨h.tasks, fun task htask => ?_⟩
    obtain ⟨purpose, -, rfl⟩ := List.mem_map.mp htask
    exact spawn_scripted purpose

/-- **One step of the chat requests.** -/
theorem Booked.step {pieces : List (Nat × Bytes)} (h : g.Booked t₀)
    (haudited : g.Audited cfg t₀ pieces) (hstep : Gateway.step cfg g l = some g') :
    g'.Booked t₀ := by
  cases Stepped.of_step hstep with
  | @arrive req nowMs =>
    obtain ⟨new, hnew⟩ :=
      authSpawned_eq nowMs (requireAuth cfg.hashKey cfg.keyPrefix (Request.header req) nowMs)
    exact h.quiet (congrArg _ hnew) h.conn
  | @auth i r c nowMs c' conn hr hp hc =>
    obtain ⟨new, hnew⟩ := authSpawned_eq nowMs c'
    cases haudited.requests i r hr with
    | reading hp' | live hp' | done hp' => cases hp.symm.trans hp'
    | authenticating hp' hreads =>
      cases hp.symm.trans hp'
      obtain ⟨s, -, hs, rfl, -⟩ := Coro.All.advance hreads hc
      exact h.quiet (congrArg _ hnew) (h.conn.plain h.kept (hs.mono fun _ hd => hd.elim))
  | cancelAuth => exact h.quiet (show _ = g.tasks ++ [].map spawn from rfl) h.conn
  | @body i r auth clk pc effects limiter =>
    obtain ⟨new, hnew⟩ := spawned_eq effects
    exact h.quiet (congrArg _ hnew) h.conn
  | @event i r pc clk ev pc' effects =>
    obtain ⟨new, hnew⟩ := spawned_eq effects
    exact h.quiet (congrArg _ hnew) h.conn
  | task ht hc => exact h.task ht hc

/-- A step that hands nothing over. -/
theorem HandedOver.same (h : g.HandedOver) (hstep : Gateway.step cfg g l = some g')
    (hsame : g'.handed = g.handed) :
    g'.HandedOver := by
  refine ⟨hsame ▸ h.once, fun id hid => ?_⟩
  obtain ⟨i, r, o, hr, hp, rfl⟩ := h.ended id (hsame ▸ hid)
  exact ⟨i, r, o, (done_kept hstep hr hp).1, hp, by rw [step_drawn hstep]⟩

/-- Request `i` comes to its end, and hands its record over. -/
theorem HandedOver.ends {i : Nat} {r r' : Request} {o : Outcome} (h : g.HandedOver)
    (hstep : Gateway.step cfg g l = some g') (hr : g.requests[i]? = some r)
    (hlive : ∀ o, r.phase ≠ .serving (.done o)) (hr' : g'.requests[i]? = some r')
    (hp' : r'.phase = .serving (.done o)) (hnew : g'.handed = g.handed ++ [g.drawn + i]) :
    g'.HandedOver := by
  have hfresh : g.drawn + i ∉ g.handed := by
    intro hmem
    obtain ⟨j, r₁, o₁, hr₁, hp₁, hij⟩ := h.ended _ hmem
    cases Nat.add_left_cancel hij
    cases hr.symm.trans hr₁
    exact hlive o₁ hp₁
  refine ⟨?_, fun id hid => ?_⟩
  · rw [hnew]
    exact List.concat_eq_append ▸ h.once.concat hfresh
  · rw [hnew] at hid
    rcases List.mem_append.mp hid with hid | hid
    · obtain ⟨j, r₁, o₁, hr₁, hp₁, rfl⟩ := h.ended id hid
      exact ⟨j, r₁, o₁, (done_kept hstep hr₁ hp₁).1, hp₁, by rw [step_drawn hstep]⟩
    · exact ⟨i, r', o, hr', hp', by rw [step_drawn hstep, List.mem_singleton.mp hid]⟩

/-- Request `i` moves on, and hands over what it may. -/
theorem HandedOver.serve {i : Nat} {r : Request} {pc : Pc} {effects : List Effect} {took : Nat}
    (h : g.HandedOver) (hstep : Gateway.step cfg g l = some g') (hr : g.requests[i]? = some r)
    (hlive : ∀ o, r.phase ≠ .serving (.done o)) (hle : (spawned effects).length ≤ 1)
    (hids : ∀ record keyId, .persist record keyId ∈ effects → (∃ o, pc = .done o) ∧
      record.requestId = g.drawn + i)
    (hrequests : g'.requests = g.requests.set i (r.serve pc effects took))
    (htasks : g'.tasks = g.tasks ++ spawned effects) :
    g'.HandedOver := by
  have hhanded : g'.handed = g.handed ++ (spawned effects).filterMap Task.logs? := by
    unfold handed
    rw [htasks, List.filterMap_append]
  rcases handed_spawned hle hids with hnone | ⟨⟨o, rfl⟩, hsome⟩
  · rw [hnone, List.append_nil] at hhanded
    exact h.same hstep hhanded
  · rw [hsome] at hhanded
    have hr' : g'.requests[i]? = some (r.serve (.done o) effects took) := by
      rw [hrequests]
      exact getElem?_serve hr _ _ _
    exact h.ends hstep hr hlive hr' rfl hhanded

/-- A stretch of `require_auth` hands nothing over. -/
theorem handed_auth {nowMs : Int} {c : Db AuthContext}
    (htasks : g'.tasks = g.tasks ++ authSpawned nowMs c) :
    g'.handed = g.handed := by
  unfold handed
  rw [htasks, List.filterMap_append, handed_authSpawned, List.append_nil]

/-- **One step of the chat requests**, and what they hand over. -/
theorem HandedOver.step {pieces : List (Nat × Bytes)} {t₁ : Tables} (h : g.HandedOver)
    (haudited : g.Audited cfg t₁ pieces) (hstep : Gateway.step cfg g l = some g') :
    g'.HandedOver := by
  cases l with
  | arrive req nowMs =>
    have hstepped := hstep
    cases hstepped
    exact h.same hstep (handed_auth rfl)
  | auth i =>
    obtain ⟨r, c, nowMs, c', conn, -, -, -, rfl⟩ := step_auth_iff.mp hstep
    exact h.same hstep (handed_auth rfl)
  | cancelAuth i =>
    obtain ⟨r, c, nowMs, hr, hp, rfl⟩ := step_cancelAuth_iff.mp hstep
    have hle : (spawned []).length ≤ 1 := Nat.zero_le 1
    refine h.serve hstep hr ?_ hle (fun _ _ hmem => absurd hmem List.not_mem_nil) rfl rfl
    intro o hdone
    cases hp.symm.trans hdone
  | body i clk =>
    obtain ⟨r, auth, hr, hp, rfl⟩ := step_body_iff.mp hstep
    have hadmission :=
      @Admission.of_forwardChat cfg.relay r.req { requestId := g.drawn + i, auth, clk }
        g.limiter _ _ _ rfl
    refine h.serve hstep hr (fun o hdone => ?_) hadmission.spawned_le
      (fun record keyId hmem => ?_) rfl rfl
    · cases hp.symm.trans hdone
    · obtain ⟨o, hdone, htells⟩ := hadmission.tells.1 record keyId hmem
      exact ⟨⟨o, hdone⟩, htells.requestId⟩
  | event i clk ev =>
    obtain ⟨r, pc, pc', effects, hr, hp, hresume, ht, rfl⟩ := step_event_iff.mp hstep
    have hresumed := Resumed.of_resume hresume
    obtain ⟨auth, -, hpersist, -⟩ := haudited.event hr hp hresume
    refine h.serve hstep hr (fun o hdone => ?_) hresumed.spawned_le
      (fun record keyId hmem => ?_) rfl rfl
    · cases hp.symm.trans hdone
      cases hresumed
    · obtain ⟨o, hdone, htells⟩ := hpersist record keyId hmem
      exact ⟨⟨o, hdone⟩, htells.requestId⟩
  | task j =>
    obtain ⟨task, coro, conn, ht, -, rfl⟩ := step_task_iff.mp hstep
    exact h.same hstep (filterMap_set_same ht rfl)

end Gateway

/-! ## The system -/

namespace System

variable {cfg : SystemConfig} {s s' : System} {t₀ : Tables}

/-- The books of the whole gateway. -/
structure Booked (t₀ : Tables) (s : System) : Prop where
  gateway : s.gateway.Booked t₀
  handed : s.gateway.HandedOver

/-- **One step of the whole gateway.** -/
theorem Booked.step {pieces : List (Nat × Bytes)} (h : s.Booked t₀)
    (haudited : s.Audited cfg t₀ pieces) (hstep : System.step cfg s l = some s') :
    s'.Booked t₀ := by
  have hbeside (hl : ∀ l', l ≠ .chat l') : s'.Booked t₀ := by
    obtain ⟨hconn, -, nowMs, c, hgateway⟩ :=
      haudited.beside.step (Conn.Books.stable h.gateway.kept) (serve_plain _)
      (Cli.Command.coro_plain _) h.gateway.conn hl hstep
    have htasks := congrArg Gateway.tasks hgateway
    obtain ⟨new, hnew⟩ := authSpawned_eq nowMs c
    refine ⟨h.gateway.quiet (htasks.trans (congrArg _ hnew)) hconn, ?_⟩
    have hhanded : s'.gateway.handed = s.gateway.handed := Gateway.handed_auth htasks
    refine ⟨hhanded ▸ h.handed.once, fun id hid => ?_⟩
    rw [hhanded] at hid
    rw [hgateway]
    exact h.handed.ended id hid
  cases l with
  | chat l =>
    obtain ⟨g, hg, rfl⟩ := Option.map_eq_some_iff.mp hstep
    exact ⟨h.gateway.step haudited.gateway hg, h.handed.step haudited.gateway hg⟩
  | models | admin | cli => exact hbeside fun _ => by nofun

theorem Booked.init (t₀ : Tables) (slots drawn : Nat) :
    (System.init { durable := t₀ } slots drawn).Booked t₀ where
  gateway := by
    have hrows : t₀.requestIds.Perm (t₀.requestIds ++ []) := by rw [List.append_nil]
    exact ⟨.init ⟨hrows.symm.subperm, hrows.subperm⟩ hrows, fun _ ht => absurd ht List.not_mem_nil⟩
  handed := ⟨List.nodup_nil, fun _ hid => absurd hid List.not_mem_nil⟩

/-- **Every request is logged at most once, and no record that was committed is lost**: whatever
happens, and in whatever order, the log that the gateway sees has one row for each record that its
tasks have inserted, the file has one for each that they have committed and none besides those
inserted, and no request hands over two records. -/
theorem log_accounted (cfg : SystemConfig) (t₀ : Tables) (slots drawn : Nat)
    (ls : List Label) (s : System)
    (h : Run (System.step cfg) (System.init { durable := t₀ } slots drawn) ls s) :
    s.gateway.Accounted t₀ := by
  have hbooked : s.Booked t₀ := by
    induction h with
    | nil => exact .init t₀ slots drawn
    | snoc hrun hstep ih => exact ih.step (Audited.run cfg t₀ slots drawn hrun) hstep
  exact ⟨hbooked.gateway.conn.view, hbooked.gateway.conn.durable.1, hbooked.gateway.conn.durable.2,
    hbooked.handed⟩

/-- The record of a stream that was relayed. -/
theorem log_accounted_served : ∃ s, Run (System.step Sample.system) (System.init {} 1 0)
      (Sample.issued ++ Sample.served) s ∧
    s.gateway.conn.durable.requestLogs.rows.length = 1 ∧ s.gateway.Accounted {} := by
  obtain ⟨s, s', h, h', hlogged, -⟩ := Sample.exists_served
  have hrun := h.append h'
  exact ⟨s', hrun, hlogged, log_accounted Sample.system {} 1 0 _ s' hrun⟩

end System
end EasyModelGate
