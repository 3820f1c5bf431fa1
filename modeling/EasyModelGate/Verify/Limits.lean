import EasyModelGate.Verify.Gateway
import EasyModelGate.Verify.Processes

/-! # Interleaved `set_key_limits` calls

A call reads the row and writes both limits back, the kept one as it has read it. The limits stay
the outcome of the calls one after another as long as no call writes a kept limit that has changed
since it was read. -/

namespace EasyModelGate

/-- What one call of `set_key_limits` asks for. -/
structure LimitsOp where
  rpm : LimitUpdate
  tokenLimit : LimitUpdate
  deriving DecidableEq

abbrev KeyLimits := Option Int × Option Int

namespace LimitsOp

def coro (keyId : Int) (op : LimitsOp) : Db KeyLimits :=
  KeyService.setKeyLimits keyId op.rpm op.tokenLimit

/-- The call on its own. -/
def apply (op : LimitsOp) (l : KeyLimits) : KeyLimits := (op.rpm.apply l.1, op.tokenLimit.apply l.2)

/-- What a call goes on with when it has read the limits `l`. -/
def write (keyId : Int) (op : LimitsOp) (l : KeyLimits) : Db KeyLimits := do
  let _ ← Db.executeCommit (.setKeyLimitsById keyId (op.apply l).1 (op.apply l).2)
  return op.apply l

/-- The call keeps the limits in which `l` and `l'` differ. -/
def agree (op : LimitsOp) (l l' : Option KeyLimits) : Bool :=
  (op.rpm ≠ .keep || l.map Prod.fst = l'.map Prod.fst) &&
    (op.tokenLimit ≠ .keep || l.map Prod.snd = l'.map Prod.snd)

end LimitsOp

/-- What a call goes on with when it has read the row. -/
def LimitsOp.goOn (keyId : Int) (op : LimitsOp) : Option (Row ApiKey) → Db KeyLimits
  | none => .raise (.keyNotFound keyId)
  | some row => op.write keyId (row.val.rpmLimit, row.val.tokenLimit)

/-- The limits of the key. -/
def Tables.limits (t : Tables) (keyId : Int) : Option KeyLimits :=
  (t.keyById keyId).map fun row => (row.val.rpmLimit, row.val.tokenLimit)

/-- `set_key_limits` calls on one key. -/
abbrev LimitsCalls := Processes LimitsOp KeyLimits

namespace LimitsCalls

/-- A call writes a kept limit only if it still is what the call has read. -/
def fresh (keyId : Int) (g : LimitsCalls) : Processes.Label LimitsOp → Bool
  | .call _ => true
  | .step j => g.calls[j]?.all fun call =>
      !call.writes || call.op.agree (call.seen.limits keyId) (g.tables.limits keyId)

/-- The outcome of the returned calls: they are as if made one after another in some order, and a
limit that one of them has set and all others keep is the one that it has set. -/
structure Serial (keyId : Int) (t₀ : Tables) (g : LimitsCalls) : Prop where
  order : ∃ ops : List LimitsOp, ops.Perm g.returned ∧
    g.tables.limits keyId = (t₀.limits keyId).map fun l => ops.foldl (fun l op => op.apply l) l
  rpm : ∀ op ∈ g.returned, op.rpm ≠ .keep → (∀ op' ∈ g.returned.erase op, op'.rpm = .keep) →
    ∀ l ∈ g.tables.limits keyId, l.1 = op.rpm.apply none
  tokenLimit : ∀ op ∈ g.returned, op.tokenLimit ≠ .keep →
    (∀ op' ∈ g.returned.erase op, op'.tokenLimit = .keep) →
    ∀ l ∈ g.tables.limits keyId, l.2 = op.tokenLimit.apply none

/-- A step of a call leaves the limits that the call keeps. -/
def Untouched (keyId : Int) (g g' : LimitsCalls) : Processes.Label LimitsOp → Prop
  | .call _ => g'.tables = g.tables
  | .step j => ∀ call, g.calls[j]? = some call →
    call.op.agree (g.tables.limits keyId) (g'.tables.limits keyId) = true

/-! ## The steps of a call -/

/-- How far a call is. -/
inductive At (keyId : Int) (call : Call LimitsOp KeyLimits) : Prop
  | start (h : call.coro = call.op.coro keyId)
  | read {l : KeyLimits} (hseen : call.seen.limits keyId = some l)
    (h : call.coro = call.op.write keyId l)
  | returned {l : KeyLimits} (h : call.coro = .ret l)
  | raised {e : Exn} (h : call.coro = .raise e)

/-- What a step of a call does: it writes the kept limits as it has read them and returns, or leaves
the limits. -/
inductive Moves (keyId : Int) (call : Call LimitsOp KeyLimits) (t t' : Tables)
    (c' : Db KeyLimits) : Prop
  | wrote {l : KeyLimits} (hwrites : call.writes = true) (hseen : call.seen.limits keyId = some l)
    (ht : t'.limits keyId = (t.limits keyId).map fun _ => call.op.apply l)
    (hc : c' = .ret (call.op.apply l))
  | kept (ht : t'.limits keyId = t.limits keyId) (hret : ∀ l, c' ≠ .ret l)

end LimitsCalls

/-- An UPDATE of the limits. -/
theorem limits_setKeyLimitsById {t : Tables} {keyId : Int} {rpm tokenLimit : Option Int}
    (h : (Dml.setKeyLimitsById keyId rpm tokenLimit).effect t = (.ok cur, t')) :
    t'.limits keyId = (t.limits keyId).map fun _ => (rpm, tokenLimit) := by
  obtain ⟨-, hrun⟩ := Dml.effect_ok h
  cases hrun
  unfold Tables.limits Tables.keyById Tables.rowId
  by_cases hid : 0 ≤ keyId
  · rw [if_pos hid, Option.bind_some, Option.bind_some]
    change ((t.apiKeys.update _ _).get? keyId.toNat).map _ = _
    rw [Table.get?_update]
    cases hrow : t.apiKeys.get? keyId.toNat with
    | none => rfl
    | some row =>
      have hrowId := (Table.get?_eq_some.mp hrow).2
      rw [Option.map_some, if_pos (decide_eq_true (by omega))]
      rfl
  · rw [if_neg hid]
    rfl

theorem setKeyLimits_eq (keyId : Int) (op : LimitsOp) :
    op.coro keyId = Db.query (.keyById keyId) >>= op.goOn keyId := by
  unfold LimitsOp.coro KeyService.setKeyLimits KeyService.getKey
  rw [Coro.bind_assoc]
  apply congrArg (Db.query (.keyById keyId) >>= ·)
  funext r
  cases r with
  | none => rfl
  | some row => exact Coro.bind_assoc _ _ _

namespace LimitsCalls

variable {keyId : Int} {call : Call LimitsOp KeyLimits} {t t' : Tables} {c' : Db KeyLimits}

theorem At.moves (h : At keyId call) (hs : call.coro.atomic t = some (c', t')) :
    Moves keyId call t t' c' ∧ At keyId { call with coro := c', seen := t } := by
  cases h with
  | start h =>
    rw [h, setKeyLimits_eq] at hs
    have hnext : ∀ r, Coro.next? (call.op.goOn keyId r) ≠ some Stmt.commit := by
      intro r
      cases r <;> exact nofun
    rcases Db.atomic_query hnext hs with ⟨rfl, ⟨r, hr, rfl⟩ | ⟨e, he, rfl⟩⟩
    · refine ⟨.kept rfl fun l => ?_, ?_⟩
      · cases r <;> exact nofun
      · cases r with
        | none => exact .raised rfl
        | some row =>
          obtain ⟨-, -, hrow⟩ := Except.bind_eq_ok hr
          refine .read ?_ rfl
          rw [Tables.limits, Except.ok.inj hrow]
          rfl
    · exact ⟨.kept rfl fun _ => by simp, .raised rfl⟩
  | read hseen h =>
    rw [h] at hs
    rcases Db.atomic_executeCommit hs with ⟨cur, he, rfl⟩ | ⟨e, he, rfl, rfl⟩
    · refine ⟨.wrote ?_ hseen (limits_setKeyLimitsById he) rfl, .returned rfl⟩
      rw [Call.writes, h]
      rfl
    · exact ⟨.kept rfl fun _ => by simp, .raised rfl⟩
  | returned h | raised h =>
    rw [h] at hs
    cases hs

theorem apply_eq_of_keep {u : LimitUpdate} {c c' : Option Int} (h : u = .keep → c = c') :
    u.apply c = u.apply c' := by
  cases u with
  | keep => exact h rfl
  | clear | set => rfl

theorem agree_iff {op : LimitsOp} {l l' : KeyLimits} : op.agree (some l) (some l') = true ↔
    (op.rpm = .keep → l.1 = l'.1) ∧ (op.tokenLimit = .keep → l.2 = l'.2) := by
  simp only [LimitsOp.agree, Bool.and_eq_true, Bool.or_eq_true, decide_eq_true_eq, Option.map_some,
    Option.some.injEq, ← imp_iff_not_or, ne_eq]

/-- Of what a call has read only the kept limits matter. -/
theorem apply_eq_of_agree {op : LimitsOp} {l l' : KeyLimits}
    (h : op.agree (some l) (some l') = true) :
    op.apply l = op.apply l' := by
  obtain ⟨hrpm, htoken⟩ := agree_iff.mp h
  exact congrArg₂ Prod.mk (apply_eq_of_keep hrpm) (apply_eq_of_keep htoken)

/-- A call on its own leaves what it keeps. -/
theorem agree_apply (op : LimitsOp) (l : KeyLimits) :
    op.agree (some l) (some (op.apply l)) = true := by
  apply agree_iff.mpr
  constructor <;> intro h <;> simp [LimitsOp.apply, h, LimitUpdate.apply]

theorem agree_self (op : LimitsOp) (l : Option KeyLimits) : op.agree l l = true := by
  simp [LimitsOp.agree]

theorem foldl_keep {π : LimitsOp → LimitUpdate} {ops : List LimitsOp} (h : ∀ op ∈ ops, π op = .keep)
    (c : Option Int) : ops.foldl (fun c op => (π op).apply c) c = c := by
  induction ops with
  | nil => rfl
  | cons op ops ih =>
    rw [List.foldl_cons, h op List.mem_cons_self]
    exact ih fun op' h' => h op' (List.mem_cons_of_mem _ h')

/-- The one call that sets a limit decides it. -/
theorem foldl_alone {π : LimitsOp → LimitUpdate} {ops : List LimitsOp} {op : LimitsOp}
    (hop : op ∈ ops) (hset : π op ≠ .keep) (hothers : ∀ op' ∈ ops.erase op, π op' = .keep)
    (c : Option Int) :
    ops.foldl (fun c op => (π op).apply c) c = (π op).apply none := by
  induction ops generalizing c with
  | nil => cases hop
  | cons a ops ih =>
    by_cases ha : a = op
    · subst ha
      rw [List.erase_cons_head] at hothers
      rw [List.foldl_cons, foldl_keep hothers]
      cases hu : π a with
      | keep => exact absurd hu hset
      | clear | set => rfl
    · rw [List.erase_cons_tail (by simpa using ha)] at hothers
      have hkeep := hothers a List.mem_cons_self
      rw [List.foldl_cons, hkeep]
      apply ih
      · exact (List.mem_cons.mp hop).resolve_left (Ne.symm ha)
      · exact fun op' h' => hothers op' (List.mem_cons_of_mem _ h')

/-! ## The invariant -/

/-- The calls are where they can be, and the limits are what the returned ones make of them in the
order in which they wrote. -/
structure Inv (keyId : Int) (t₀ : Tables) (ops : List LimitsOp) (g : LimitsCalls) : Prop where
  calls : ∀ call ∈ g.calls, At keyId call
  perm : ops.Perm g.returned
  limits : g.tables.limits keyId = (t₀.limits keyId).map fun l =>
    ops.foldl (fun l op => op.apply l) l

variable {t₀ : Tables} {ops : List LimitsOp} {g g' : LimitsCalls} {label : Processes.Label LimitsOp}

/-- A fresh write is the call on its own. -/
theorem Moves.limits (h : Moves keyId call t t' c')
    (hfresh : (!call.writes || call.op.agree (call.seen.limits keyId) (t.limits keyId)) = true) :
    (∃ l, c' = .ret l) ∧ t'.limits keyId = (t.limits keyId).map call.op.apply ∨
      (∀ l, c' ≠ .ret l) ∧ t'.limits keyId = t.limits keyId := by
  cases h with
  | kept ht hret => exact .inr ⟨hret, ht⟩
  | @wrote l hwrites hseen ht hc =>
    refine .inl ⟨⟨_, hc⟩, ht.trans ?_⟩
    rw [hwrites, Bool.not_true, Bool.false_or, hseen] at hfresh
    cases hl : t.limits keyId with
    | none => rfl
    | some l' =>
      rw [hl] at hfresh
      exact congrArg some (apply_eq_of_agree hfresh)

namespace Inv

theorem init (keyId : Int) (t₀ : Tables) : Inv keyId t₀ [] { tables := t₀ } := by
  refine ⟨fun _ h => absurd h List.not_mem_nil, .refl _, ?_⟩
  cases h : t₀.limits keyId <;> simp

theorem made (h : Inv keyId t₀ ops g) (op : LimitsOp) : Inv keyId t₀ ops
    { g with
      calls := g.calls ++ [{ op, coro := op.coro keyId, made := g.tables, seen := g.tables }]
        } := by
  refine ⟨fun c hc => ?_, ?_, h.limits⟩
  · rcases List.mem_append.mp hc with hc | hc
    · exact h.calls c hc
    · rw [List.mem_singleton.mp hc]
      exact .start rfl
  · have hreturned :
        Call.returned (⟨op, op.coro keyId, g.tables, g.tables⟩ :
          Call LimitsOp KeyLimits) = none := by
      rw [Call.returned, setKeyLimits_eq]
      rfl
    rw [Processes.returned, List.filterMap_append, List.filterMap_cons_none hreturned,
      List.filterMap_nil, List.append_nil]
    exact h.perm

theorem step (h : Inv keyId t₀ ops g) (hfresh : g.fresh keyId label = true)
    (hs : Processes.step (LimitsOp.coro keyId) g label = some g') :
    ∃ ops', Inv keyId t₀ ops' g' := by
  cases Processes.Step.of_step hs with
  | call => exact ⟨ops, h.made _⟩
  | @step j call c tables hj hc =>
    have hcall := h.calls call (List.mem_of_getElem? hj)
    obtain ⟨hmoves, hat⟩ := hcall.moves hc
    have hfresh :
        (!call.writes || call.op.agree (call.seen.limits keyId)
          (g.tables.limits keyId)) = true := by
      simpa [fresh, hj] using hfresh
    have hcalls := forall_mem_set h.calls j hat
    have hnot := Call.returned_of_atomic hc
    have hperm := filterMap_set_perm (f := Call.returned)
      (y := { call with coro := c, seen := g.tables }) hj hnot
    rcases hmoves.limits hfresh with ⟨⟨l, rfl⟩, hlimits⟩ | ⟨hret, hlimits⟩
    · refine ⟨ops ++ [call.op], hcalls, (h.perm.append_right _).trans hperm.symm, ?_⟩
      rw [hlimits, h.limits, Option.map_map]
      congr 1
      funext l
      rw [List.foldl_append]
      rfl
    · refine ⟨ops, hcalls, h.perm.trans ?_, hlimits.trans h.limits⟩
      have hc' : Call.returned { call with coro := c, seen := g.tables } = none := by
        cases c with
        | ret l => exact absurd rfl (hret l)
        | raise | await => rfl
      rw [hc', Option.toList_none, List.append_nil] at hperm
      exact hperm.symm

end Inv

theorem Inv.serial (h : Inv keyId t₀ ops g) : Serial keyId t₀ g := by
  have hothers {op : LimitsOp} {π : LimitsOp → LimitUpdate}
      (hop : ∀ op' ∈ g.returned.erase op, π op' = .keep) :
      ∀ op' ∈ ops.erase op, π op' = .keep := fun op' h' => hop op' ((h.perm.erase op).mem_iff.mp h')
  refine ⟨⟨ops, h.perm, h.limits⟩, fun op hop hset hkeep l hl => ?_,
    fun op hop hset hkeep l hl => ?_⟩
  all_goals
    rw [h.limits] at hl
    obtain ⟨l₀, -, rfl⟩ := Option.map_eq_some_iff.mp hl
  · rw [← foldl_alone (h.perm.mem_iff.mpr hop) hset (hothers hkeep) l₀.1]
    exact (List.foldl_hom Prod.fst fun _ _ => rfl).symm
  · rw [← foldl_alone (h.perm.mem_iff.mpr hop) hset (hothers hkeep) l₀.2]
    exact (List.foldl_hom Prod.snd fun _ _ => rfl).symm

/-- A fresh step leaves what its call keeps. -/
theorem Inv.untouched (h : Inv keyId t₀ ops g) (hfresh : g.fresh keyId label = true)
    (hs : Processes.step (LimitsOp.coro keyId) g label = some g') : Untouched keyId g g' label := by
  cases Processes.Step.of_step hs with
  | call => exact rfl
  | @step j call c tables hj hc =>
    intro call' hj'
    cases hj.symm.trans hj'
    obtain ⟨hmoves, -⟩ := (h.calls call (List.mem_of_getElem? hj)).moves hc
    have hfresh :
        (!call.writes || call.op.agree (call.seen.limits keyId)
          (g.tables.limits keyId)) = true := by
      simpa [fresh, hj] using hfresh
    change call.op.agree _ (tables.limits keyId) = true
    rcases hmoves.limits hfresh with ⟨-, hlimits⟩ | ⟨-, hlimits⟩ <;> rw [hlimits]
    · cases g.tables.limits keyId with
      | none => exact agree_self _ _
      | some l => exact agree_apply _ _
    · exact agree_self _ _

/-- **KEEP keeps** in every run without a stale write. -/
theorem kept_of_fresh (keyId : Int) (t₀ : Tables) (ls : List (Processes.Label LimitsOp))
    (g : LimitsCalls)
    (hrun : Run (restrict (Processes.step (LimitsOp.coro keyId)) fun g l => fresh keyId g l = true)
      { tables := t₀ } ls g) :
    Serial keyId t₀ g ∧ ∀ label g', fresh keyId g label = true →
      Processes.step (LimitsOp.coro keyId) g label = some g' → Untouched keyId g g' label := by
  have hinv : ∃ ops, Inv keyId t₀ ops g := by
    refine hrun.invariant (I := fun g => ∃ ops, Inv keyId t₀ ops g) ?_ ⟨[], .init keyId t₀⟩
    rintro g label g' ⟨ops, h⟩ hstep
    obtain ⟨hfresh, hstep⟩ := restrict_eq_some.mp hstep
    exact h.step hfresh hstep
  obtain ⟨ops, h⟩ := hinv
  exact ⟨h.serial, fun label g' => h.untouched⟩

end LimitsCalls

namespace Sample

/-- One call sets the rpm limit, the other the token limit. -/
def rpmCall : LimitsOp := ⟨.set 9, .keep⟩
def tokenCall : LimitsOp := ⟨.keep, .set 77⟩

open Processes.Label in
/-- One after the other. -/
def inTurn : List (Processes.Label LimitsOp) :=
  [call rpmCall, call tokenCall, step 0, step 0, step 1, step 1]

open Processes.Label in
/-- Both read before one writes. -/
def bothRead : List (Processes.Label LimitsOp) :=
  [call rpmCall, call tokenCall, step 0, step 1, step 0, step 1]

end Sample

open Sample in
theorem LimitsCalls.kept_of_fresh_inTurn : ∃ g,
    Run (restrict (Processes.step (LimitsOp.coro 1)) fun g l => fresh 1 g l = true)
      { tables := tables none } inTurn g ∧
      g.tables.limits 1 = some (some 9, some 77) ∧ Serial 1 (tables none) g := by
  have hfold :
      (inTurn.foldlM (restrict (Processes.step (LimitsOp.coro 1)) fun g l => fresh 1 g l = true)
      { tables := tables none }).any (fun g => g.tables.limits 1 = some (some 9, some 77)) := by
      decide +kernel
  obtain ⟨g, hrun, hg⟩ := Run.exists_of_any hfold
  exact ⟨g, hrun, of_decide_eq_true hg, (kept_of_fresh 1 _ _ g hrun).1⟩

open Sample in
/-- The second write puts back the rpm limit that it has read: the first call's update is lost. -/
theorem LimitsCalls.update_lost :
    ¬ ∀ (keyId : Int) (t₀ : Tables) (ls : List (Processes.Label LimitsOp))
    (g : LimitsCalls), Run (Processes.step (LimitsOp.coro keyId)) { tables := t₀ } ls g →
      Serial keyId t₀ g ∧ ∀ label g', Processes.step (LimitsOp.coro keyId) g label = some g' →
        Untouched keyId g g' label := by
  intro hall
  have hfold : (bothRead.foldlM (Processes.step (LimitsOp.coro 1)) { tables := tables none }).any
    (fun g =>
      g.tables.limits 1 = some (none, some 77) ∧ g.returned = [rpmCall, tokenCall]) := by
        decide +kernel
  obtain ⟨g, hrun, hg⟩ := Run.exists_of_any hfold
  obtain ⟨hlimits, hreturned⟩ := of_decide_eq_true hg
  have hrpm := (hall _ _ _ _ hrun).1.rpm rpmCall (by simp [hreturned]) (by decide)
    (by rw [hreturned]; decide) _ hlimits
  cases hrpm

end EasyModelGate
