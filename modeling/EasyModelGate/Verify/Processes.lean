import EasyModelGate.Lib.Run
import EasyModelGate.Processes
import EasyModelGate.Verify.Services

/-! # The steps of calls from several processes -/

namespace EasyModelGate

/-- It has returned. -/
def Call.returned (call : Call ι α) : Option ι :=
  match call.coro with
  | .ret _ => some call.op
  | _ => none

/-- The calls that have returned. -/
def Processes.returned (g : Processes ι α) : List ι := g.calls.filterMap Call.returned

/-- The call is about to write. -/
def Call.writes (call : Call ι α) : Bool :=
  match call.coro.next? with
  | some (.dml _) => true
  | _ => false

namespace Db

variable {t t' : Tables} {c' : Db α}

theorem atomic_query {q : Query} {f : q.Res → Db α} (hf : ∀ r, (f r).next? ≠ some .commit)
    (h : Db.atomic (Db.query q >>= f) t = some (c', t')) :
    t' = t ∧ ((∃ r, q.exec t = .ok r ∧ c' = f r) ∨ ∃ e, q.exec t = .error e ∧
      c' = .raise (.py e)) := by
  have hadvance := Coro.advance_perform (h := Conn.handler) (Stmt.query q) f (.settled t)
  rw [Conn.handler_query] at hadvance
  unfold Db.atomic at h
  change ((Coro.perform (Stmt.query q) >>= f).advance Conn.handler (.settled t)).bind _ = _ at h
  rw [hadvance, Option.bind_some] at h
  cases hq : q.exec t with
  | error e =>
    rw [hq] at h
    cases h
    exact ⟨rfl, .inr ⟨e, rfl, rfl⟩⟩
  | ok r =>
    rw [hq] at h
    refine ⟨?_, .inl ⟨r, rfl, ?_⟩⟩
    all_goals
      have hr := hf r
      simp only [Except.mapError] at h
      cases hc : f r with
      | ret | raise =>
        rw [hc] at h
        cases h
        rfl
      | await op k =>
        cases op with
        | commit => exact absurd (by rw [hc]; rfl) hr
        | query | dml =>
          rw [hc] at h
          cases h
          rfl

theorem atomic_executeCommit {d : Dml} {f : Cursor → Db α}
    (h : Db.atomic (Db.executeCommit d >>= f) t = some (c', t')) :
    (∃ cur, d.effect t = (.ok cur, t') ∧ c' = f cur) ∨
      ∃ e, d.effect t = (.error e, t) ∧ t' = t ∧ c' = .raise (.py e) := by
  have hadvance := Coro.advance_perform (h := Conn.handler) (Stmt.dml d)
    (fun cur => (do Db.commit; return cur) >>= f) (.settled t)
  unfold Db.atomic Db.executeCommit at h
  rw [Coro.bind_assoc] at h
  change ((Coro.perform (Stmt.dml d) >>= fun cur => (do Db.commit; return cur) >>= f).advance
    Conn.handler (.settled t)).bind _ = _ at h
  rw [hadvance, Option.bind_some] at h
  rcases Conn.handler_dml d t with ⟨e, c, he, hc, hdurable⟩ | ⟨cur, t₁, c, he, hc, hcommitted⟩
  · rw [hc] at h
    cases h
    exact .inr ⟨e, he, hdurable, rfl⟩
  · rw [hc] at h
    cases h
    have hdurable : c.committed.durable = t₁ := by rw [hcommitted]; rfl
    exact .inl ⟨cur, he.trans (by rw [← hdurable]; rfl), rfl⟩

end Db

/-- A call that takes a step has not returned. -/
theorem Call.returned_of_atomic {call : Call ι α} {t : Tables} (h : call.coro.atomic t = some p) :
    call.returned = none := by
  unfold Call.returned
  cases hc : call.coro with
  | ret =>
    rw [hc] at h
    cases h
  | raise | await => rfl

namespace Processes

variable {coro : ι → Db α} {g g' : Processes ι α}

/-- What a step is. -/
inductive Step (coro : ι → Db α) (g : Processes ι α) : Label ι → Processes ι α → Prop
  | call {op} : Step coro g (.call op)
      { g with calls := g.calls ++ [{ op, coro := coro op, made := g.tables, seen := g.tables }] }
  | step {j call c tables} (hj : g.calls[j]? = some call)
    (hc : call.coro.atomic g.tables = some (c, tables)) :
    Step coro g (.step j)
      { tables, calls := g.calls.set j { call with coro := c, seen := g.tables } }

theorem Step.of_step {label : Label ι} (h : g.step coro label = some g') :
    Step coro g label g' := by
  cases label with
  | call op =>
    cases h
    exact .call
  | step j =>
    obtain ⟨call, hj, h⟩ := Option.bind_eq_some_iff.mp h
    obtain ⟨⟨c, tables⟩, hc, h⟩ := Option.bind_eq_some_iff.mp h
    cases h
    exact .step hj hc

/-- The calls of a run are those that its labels have made. -/
theorem made_of_run {t₀ : Tables} {ls : List (Label ι)}
    (h : Run (step coro) { tables := t₀ } ls g) :
    ∀ call ∈ g.calls, .call call.op ∈ ls := by
  refine h.history (I := fun ls g => ∀ call ∈ g.calls, .call call.op ∈ ls) ?_
    (fun _ h => absurd h List.not_mem_nil)
  intro ls g label g' hcalls hstep
  have hcalls : ∀ call ∈ g.calls, .call call.op ∈ ls ++ [label] :=
    fun call hcall => List.mem_append_left _ (hcalls call hcall)
  cases Step.of_step hstep with
  | call =>
    intro call hcall
    rcases List.mem_append.mp hcall with hcall | hcall
    · exact hcalls call hcall
    · rw [List.mem_singleton.mp hcall]
      exact List.mem_append_right _ (List.mem_singleton_self _)
  | @step j call c tables hj hc =>
    have hcall := hcalls call (List.mem_of_getElem? hj)
    exact forall_mem_set hcalls j hcall

theorem made_of_returned {t₀ : Tables} {ls : List (Label ι)}
    (h : Run (step coro) { tables := t₀ } ls g) (hop : op ∈ g.returned) : .call op ∈ ls := by
  obtain ⟨call, hcall, hop⟩ := List.mem_filterMap.mp hop
  unfold Call.returned at hop
  split at hop <;> cases hop
  exact made_of_run h call hcall

end Processes
end EasyModelGate
