import EasyModelGate.Services.AdminAuthService
import EasyModelGate.Verify.Json
import EasyModelGate.Verify.Processes

/-! # Interleaved `initialize_admin` calls

A call reads the row, hashes and upserts. The first credential stays the stored one as long as the
row that a call reads is missing or decodes to a dict, and is as the call has read it when it
writes. -/

namespace EasyModelGate

open AdminAuthService

/-- One call of `initialize_admin`, with the salt and the clock reading that it draws. -/
structure InitOp where
  password : Str
  salt : Bytes
  nowMs : Int
  deriving DecidableEq

namespace InitOp

variable (lib : AdminAuthLib) (op : InitOp)

def coro : Db Unit := initializeAdmin lib op.password op.salt op.nowMs

/-- The credential that the call stores. -/
def metadata : Except PyExn Metadata := hashPassword lib op.password op.salt op.nowMs

end InitOp

/-- The text of the row. -/
def Tables.credential (t : Tables) : Option Str :=
  (t.settings.find? (·.1 = settingsKey)).map Prod.snd

/-- Whether the row, if there is one, decodes to a dict. -/
def AdminAuthLib.reads (lib : AdminAuthLib) : Option Str → Bool
  | none => true
  | some raw =>
    match lib.loads raw with
    | .ok (.obj _) => true
    | _ => false

abbrev InitCalls := Processes InitOp Unit

namespace InitCalls

variable (lib : AdminAuthLib)

/-- No empty password is offered once there is a row; what a call reads is missing or a dict; what
it writes over is what it has read. -/
def guarded (g : InitCalls) : Processes.Label InitOp → Bool
  | .call op => op.password ≠ [] || g.tables.credential.isNone
  | .step j => g.calls[j]?.all fun call =>
    if call.writes then g.tables.credential = call.seen.credential
        else lib.reads g.tables.credential

/-- **The first credential stays.** -/
structure NeverOverwritten (g : InitCalls) : Prop where
  once : g.returned.length ≤ 1
  refused : ∀ call ∈ g.calls, call.made.credential.isSome → call.coro.ended = true →
    call.coro = .raise .adminAlreadyInitialized
  stored : ∀ op ∈ g.returned, ∃ metadata text, op.metadata lib = .ok metadata ∧
    lib.dumps (.obj metadata) = .ok text ∧ g.tables.credential = some text
  accepted : ∀ op ∈ g.returned,
    ((verifyAdminPassword lib op.password).run Conn.handler (.settled g.tables)).1 = .ok true

/-! ## The steps of a call -/

variable {lib}

/-- What a call goes on with when it has read the row. -/
def goOn (lib : AdminAuthLib) (op : InitOp) (raw : Option Str) : Db Unit := do
  let metadata ← Db.lift ((decodeAuth lib raw).mapError Exn.py)
  if metadata.isSome then .raise .adminAlreadyInitialized
      else storeCredential lib op.password op.salt op.nowMs

theorem coro_empty {op : InitOp} (h : op.password = []) :
    op.coro lib = .raise .emptyPassword := if_pos h

theorem coro_eq {op : InitOp} (h : op.password ≠ []) :
    op.coro lib = Db.query (.setting settingsKey) >>= goOn lib op := by
  unfold InitOp.coro initializeAdmin isAdminInitialized getAdminAuth
  rw [if_neg h, Coro.bind_assoc, Coro.bind_assoc]
  rfl

/-- The hashing awaits nothing: it fails, or only the write is left. -/
theorem storeCredential_cases (op : InitOp) :
    (∃ e, storeCredential lib op.password op.salt op.nowMs = .raise e) ∨
      ∃ metadata text, op.metadata lib = .ok metadata ∧ lib.dumps (.obj metadata) = .ok text ∧
        storeCredential lib op.password op.salt op.nowMs = Dao.setSetting settingsKey text := by
  unfold storeCredential InitOp.metadata
  cases hhash : hashPassword lib op.password op.salt op.nowMs with
  | error e => exact .inl ⟨.py e, rfl⟩
  | ok metadata =>
    cases hdumps : lib.dumps (.obj metadata) with
    | error e => exact .inl ⟨.py e, by simp [Except.mapError, Db.lift, hdumps]⟩
    | ok text =>
      exact .inr ⟨metadata, text, rfl, hdumps, by simp [Except.mapError, Db.lift, hdumps]⟩

theorem reads_iff {raw : Str} : lib.reads (some raw) = true ↔
    ∃ items, lib.loads raw = .ok (.obj items) := by
  simp only [AdminAuthLib.reads]
  cases lib.loads raw with
  | error e => simp
  | ok v => cases v <;> simp

/-- What has been read is refused, or gone on with. -/
theorem goOn_cases (op : InitOp) (raw : Option Str) : (∃ e, goOn lib op raw = .raise e) ∨
    goOn lib op raw = storeCredential lib op.password op.salt op.nowMs := by
  unfold goOn
  cases decodeAuth lib raw with
  | error e => exact .inl ⟨.py e, rfl⟩
  | ok metadata =>
    cases metadata with
    | none => exact .inr rfl
    | some metadata => exact .inl ⟨.adminAlreadyInitialized, rfl⟩

theorem goOn_next (op : InitOp) (raw : Option Str) : (goOn lib op raw).next? ≠ some .commit := by
  rcases goOn_cases op raw with ⟨e, h⟩ | h <;> rw [h]
  · exact nofun
  · rcases storeCredential_cases op with ⟨e, h⟩ | ⟨_, _, -, -, h⟩ <;> rw [h]
    · exact nofun
    · intro hnext
      cases hnext

/-- A row that decodes to a dict. -/
theorem goOn_some {raw : Str} (h : lib.reads (some raw) = true) (op : InitOp) :
    goOn lib op (some raw) = .raise .adminAlreadyInitialized := by
  obtain ⟨items, hloads⟩ := reads_iff.mp h
  simp only [goOn, decodeAuth, hloads]
  rfl

/-- How far a call is. -/
inductive At (lib : AdminAuthLib) (call : Call InitOp Unit) : Prop
  | start (hop : call.op.password ≠ []) (h : call.coro = call.op.coro lib)
  | read {metadata text} (hmade : call.made.credential = none) (hseen : call.seen.credential = none)
    (hmetadata : call.op.metadata lib = .ok metadata)
    (hdumps : lib.dumps (.obj metadata) = .ok text)
    (h : call.coro = Dao.setSetting settingsKey text)
  | returned (hmade : call.made.credential = none) (h : call.coro = .ret ())
  | raised {e} (hmade : call.made.credential.isSome → e = .adminAlreadyInitialized)
    (h : call.coro = .raise e)

/-- A failure of a call that found no row when it was made. -/
theorem At.failed {call : Call InitOp Unit} {e : Exn} (hmade : call.made.credential = none)
    (h : call.coro = .raise e) : At lib call := by
  refine .raised (fun hsome => ?_) h
  rw [hmade] at hsome
  cases hsome

/-- What a step of a call does: it stores its credential over what it has read and returns, or
leaves the tables. -/
inductive Moves (lib : AdminAuthLib) (call : Call InitOp Unit) (t t' : Tables) (c' : Db Unit) : Prop
  | stored {metadata text} (hwrites : call.writes = true) (hseen : call.seen.credential = none)
    (hmetadata : call.op.metadata lib = .ok metadata)
    (hdumps : lib.dumps (.obj metadata) = .ok text) (ht : t'.credential = some text)
    (hc : c' = .ret ())
  | kept (ht : t' = t) (hret : c' ≠ .ret ())

theorem credential_upsert {t t' : Tables} {text : Str}
    (h : (Dml.upsertSetting settingsKey text).effect t = (.ok cur, t')) :
    t'.credential = some text := by
  obtain ⟨-, hrun⟩ := Dml.effect_ok h
  cases hrun
  simp only [Tables.credential, List.find?_cons_of_pos, decide_true, Option.map_some]

variable {call : Call InitOp Unit} {t t' : Tables} {c' : Db Unit}

/-- A call that starts reads the row. -/
theorem moves_start (hop : call.op.password ≠ []) (h : call.coro = call.op.coro lib)
    (hmade : call.made.credential.isSome → t.credential.isSome)
    (hreads : lib.reads t.credential = true) (hs : call.coro.atomic t = some (c', t')) :
    Moves lib call t t' c' ∧ At lib { call with coro := c', seen := t } := by
  rw [h, coro_eq hop] at hs
  rcases Db.atomic_query (goOn_next _) hs with ⟨rfl, ⟨raw, hraw, rfl⟩ | ⟨e, he, -⟩⟩
  · cases hraw
    change Moves lib call t' t' (goOn lib call.op t'.credential) ∧
      At lib { call with coro := goOn lib call.op t'.credential, seen := t' }
    cases hrow : t'.credential with
    | some raw =>
      rw [hrow] at hreads
      rw [goOn_some hreads]
      exact ⟨.kept rfl nofun, .raised (fun _ => rfl) rfl⟩
    | none =>
      have hmade : call.made.credential = none := by
        rw [hrow] at hmade
        exact Option.not_isSome_iff_eq_none.mp fun h => absurd (hmade h) Bool.false_ne_true
      change Moves lib call t' t' (storeCredential lib call.op.password call.op.salt
        call.op.nowMs) ∧
        At lib { call with
          coro := storeCredential lib call.op.password call.op.salt call.op.nowMs, seen := t' }
      rcases storeCredential_cases call.op with
        ⟨e, hstore⟩ | ⟨metadata, text, hmetadata, hdumps, hstore⟩ <;>
        rw [hstore]
      · exact ⟨.kept rfl nofun, .failed hmade rfl⟩
      · exact ⟨.kept rfl nofun, .read hmade hrow hmetadata hdumps rfl⟩
  · cases he

theorem At.moves (h : At lib call) (hmade : call.made.credential.isSome → t.credential.isSome)
    (hreads : call.writes = false → lib.reads t.credential = true)
    (hs : call.coro.atomic t = some (c', t')) :
    Moves lib call t t' c' ∧ At lib { call with coro := c', seen := t } := by
  cases h with
  | start hop h =>
    refine moves_start hop h hmade (hreads ?_) hs
    rw [Call.writes, h, coro_eq hop]
    rfl
  | @read metadata text hnone hseen hmetadata hdumps h =>
    rw [h] at hs
    rcases Db.atomic_executeCommit hs with ⟨cur, he, rfl⟩ | ⟨e, he, rfl, rfl⟩
    · refine ⟨.stored ?_ hseen hmetadata hdumps (credential_upsert he) rfl, .returned hnone rfl⟩
      rw [Call.writes, h]
      rfl
    · exact ⟨.kept rfl nofun, .failed hnone rfl⟩
  | returned _ h | raised _ h =>
    rw [h] at hs
    cases hs

/-! ## The invariant -/

/-- The calls are where they can be, a row stays, and the one call that has returned has stored
it. -/
structure Inv (lib : AdminAuthLib) (g : InitCalls) : Prop where
  calls : ∀ call ∈ g.calls, At lib call
  grown : ∀ call ∈ g.calls, call.made.credential.isSome → g.tables.credential.isSome
  once : g.returned.length ≤ 1
  stored : ∀ op ∈ g.returned, ∃ metadata text, op.metadata lib = .ok metadata ∧
    lib.dumps (.obj metadata) = .ok text ∧ g.tables.credential = some text

namespace Inv

variable {g g' : InitCalls} {label : Processes.Label InitOp}

theorem init (lib : AdminAuthLib) (t₀ : Tables) : Inv lib { tables := t₀ } where
  calls _ h := absurd h List.not_mem_nil
  grown _ h := absurd h List.not_mem_nil
  once := Nat.zero_le 1
  stored _ h := absurd h List.not_mem_nil

/-- A call that has just been made. -/
theorem made (h : Inv lib g) {op : InitOp} (hop : op.password ≠ [] ∨ g.tables.credential = none) :
    Inv lib
    { g with
      calls := g.calls ++ [{ op, coro := op.coro lib, made := g.tables, seen := g.tables }] } := by
  have hreturned :
      Call.returned (⟨op, op.coro lib, g.tables, g.tables⟩ : Call InitOp Unit) = none := by
    by_cases hempty : op.password = []
    · rw [Call.returned, coro_empty hempty]
    · rw [Call.returned, coro_eq hempty]
      rfl
  have hsame :
      Processes.returned { g with calls := g.calls ++ [⟨op, op.coro lib, g.tables, g.tables⟩] } =
      g.returned := by
    rw [Processes.returned, List.filterMap_append, List.filterMap_cons_none hreturned,
      List.filterMap_nil, List.append_nil]
    rfl
  refine ⟨fun c hc => ?_, fun c hc => ?_, hsame ▸ h.once, hsame ▸ h.stored⟩ <;>
    rcases List.mem_append.mp hc with hc | hc
  · exact h.calls c hc
  · rw [List.mem_singleton.mp hc]
    by_cases hempty : op.password = []
    · exact .failed (hop.resolve_left (not_not_intro hempty)) (coro_empty hempty)
    · exact .start hempty rfl
  · exact h.grown c hc
  · rw [List.mem_singleton.mp hc]
    exact id

theorem step (h : Inv lib g) (hguarded : guarded lib g label = true)
    (hs : Processes.step (InitOp.coro lib) g label = some g') : Inv lib g' := by
  cases Processes.Step.of_step hs with
  | call =>
    apply h.made
    simpa [guarded] using hguarded
  | @step j call c tables hj hc =>
    have hmem := List.mem_of_getElem? hj
    have hguarded : (if call.writes then decide (g.tables.credential = call.seen.credential)
        else lib.reads g.tables.credential) = true := by simpa [guarded, hj] using hguarded
    obtain ⟨hmoves, hat⟩ := (h.calls call hmem).moves (h.grown call hmem)
      (fun hw => by simpa [hw] using hguarded) hc
    have hcalls := forall_mem_set h.calls j hat
    have hperm := filterMap_set_perm (f := Call.returned)
      (y := { call with coro := c, seen := g.tables }) hj (Call.returned_of_atomic hc)
    cases hmoves with
    | kept ht hret =>
      subst ht
      have hc' : Call.returned { call with coro := c, seen := g.tables } = none := by
        cases c with
        | ret => exact absurd rfl hret
        | raise | await => rfl
      rw [hc', Option.toList_none, List.append_nil] at hperm
      refine ⟨hcalls, forall_mem_set h.grown j (h.grown call hmem), ?_, fun op hop => ?_⟩
      · exact hperm.length_eq.trans_le h.once
      · exact h.stored op (hperm.mem_iff.mp hop)
    | @stored metadata text hwrites hseen hmetadata hdumps ht hc' =>
      subst hc'
      rw [hwrites, if_pos rfl, decide_eq_true_eq, hseen] at hguarded
      have hnone : g.returned = [] := by
        cases hreturned : g.returned with
        | nil => rfl
        | cons op ops =>
          obtain ⟨_, _, -, -, hrow⟩ := h.stored op (by simp [hreturned])
          cases hguarded.symm.trans hrow
      change (List.filterMap Call.returned _).Perm (g.returned ++ [call.op]) at hperm
      rw [hnone, List.nil_append] at hperm
      refine ⟨hcalls, fun _ _ _ => by simp [ht], ?_, fun op hop => ?_⟩
      · exact hperm.length_eq.le
      · rw [List.mem_singleton.mp (hperm.mem_iff.mp hop)]
        exact ⟨metadata, text, hmetadata, hdumps, ht⟩

/-- A call that found a row when it was made has been refused, if it has ended. -/
theorem refused (h : Inv lib g) {call : Call InitOp Unit} (hcall : call ∈ g.calls)
    (hmade : call.made.credential.isSome) (hended : call.coro.ended = true) :
    call.coro = .raise .adminAlreadyInitialized := by
  cases h.calls call hcall with
  | start hop hc =>
    rw [hc, coro_eq hop] at hended
    cases hended
  | read hnone | returned hnone =>
    rw [hnone] at hmade
    cases hmade
  | raised he hc => rw [hc, he hmade]

end Inv

/-! ## Checking the password -/

end InitCalls

theorem hexDigit_of_hexDigit : ∀ n < 16, Json.Parser.hexDigit? (Json.hexDigit n) = some n := by
  decide

theorem hexDigit_not_space : ∀ n < 16, ¬ ((Json.hexDigit n).val = 0x20 ∨
    9 ≤ (Json.hexDigit n).val ∧ (Json.hexDigit n).val ≤ 13) := by decide

theorem Bytes.fromHex_hex (s : Bytes) : Bytes.fromHex (Bytes.hex s) = .ok s := by
  induction s with
  | nil => rfl
  | cons b s ih =>
    have hlow : b.toNat % 16 < 16 := Nat.mod_lt _ (by decide)
    have hhigh : b.toNat / 16 < 16 := Nat.div_lt_of_lt_mul b.toNat_lt
    change fromHex (Json.hexDigit (b.toNat / 16) :: Json.hexDigit (b.toNat % 16) :: Bytes.hex s) = _
    rw [fromHex, if_neg (hexDigit_not_space _ hhigh), hexDigit_of_hexDigit _ hhigh,
      hexDigit_of_hexDigit _ hlow]
    simp only [ih, Nat.div_add_mod', UInt8.ofNat_toNat]
    rfl

namespace InitCalls

/-- `scrypt` derives keys of the length that it is asked for. -/
def DerivesLength (lib : AdminAuthLib) (op : InitOp) : Prop :=
  ∀ password dk, lib.scrypt password op.salt scryptN scryptR scryptP dklen = .ok dk →
    dk.length = dklen

/-- `json` takes back what it has written of the call's credential. -/
def TakesBack (lib : AdminAuthLib) (op : InitOp) : Prop :=
  ∀ metadata text, op.metadata lib = .ok metadata → lib.dumps (.obj metadata) = .ok text →
    lib.loads text = .ok (.obj metadata)

/-- Deriving again what has been derived. -/
theorem derive_metadata {op : InitOp} {metadata : Metadata} (hlength : DerivesLength lib op)
    (h : op.metadata lib = .ok metadata) : (∃ dk, derive lib op.password metadata = .ok (dk, dk)) ∧
      (Json.lookup (str "algorithm") metadata).bind Json.asStr? = some algorithm := by
  obtain ⟨password, hencode, h⟩ := Except.bind_eq_ok h
  obtain ⟨dk, hscrypt, h⟩ := Except.bind_eq_ok h
  cases h
  refine ⟨⟨dk, ?_⟩, rfl⟩
  change (do
    let salt ← Bytes.fromHex (Bytes.hex op.salt)
    let expected ← Bytes.fromHex (Bytes.hex dk)
    let password ← op.password.encodeUtf8
    return (← lib.scrypt password salt scryptN scryptR scryptP expected.length, expected) :
      Except PyExn _) = _
  rw [Bytes.fromHex_hex, Bytes.fromHex_hex, hencode]
  change (do return (← lib.scrypt password op.salt scryptN scryptR scryptP dk.length, dk) :
    Except PyExn _) = _
  rw [hlength password dk hscrypt, hscrypt]
  rfl

theorem verify_metadata {op : InitOp} {metadata : Metadata} (hlength : DerivesLength lib op)
    (h : op.metadata lib = .ok metadata) :
    verifyPasswordAgainst lib op.password metadata = .ok true := by
  obtain ⟨⟨dk, hderive⟩, halgorithm⟩ := derive_metadata hlength h
  simp [verifyPasswordAgainst, halgorithm, hderive]

theorem verify_stored {op : InitOp} {t : Tables} {metadata : Metadata} {text : Str}
    (hlength : DerivesLength lib op) (hback : TakesBack lib op)
    (hmetadata : op.metadata lib = .ok metadata) (hdumps : lib.dumps (.obj metadata) = .ok text)
    (hrow : t.credential = some text) :
    ((verifyAdminPassword lib op.password).run Conn.handler (.settled t)).1 = .ok true := by
  have hdecode : decodeAuth lib t.credential = .ok (some metadata) := by
    rw [hrow]
    simp only [decodeAuth, hback metadata text hmetadata hdumps]
  have hauth : (getAdminAuth lib).run Conn.handler (.settled t) =
      (.ok (some metadata), .settled t) := by
    unfold getAdminAuth Dao.getSetting Db.query
    rw [Coro.run_bind, Coro.run_perform, Conn.handler_query]
    change (Db.lift ((decodeAuth lib t.credential).mapError Exn.py)).run _ _ = _
    rw [hdecode]
    rfl
  unfold verifyAdminPassword
  rw [Coro.run_bind, hauth]
  change
    ((Db.lift ((verifyPasswordAgainst lib op.password metadata).mapError Exn.py)).run _ _).1 = _
  rw [verify_metadata hlength hmetadata]
  rfl

/-- **No overwriting** in every run whose steps are guarded. -/
theorem neverOverwritten_of_guarded (lib : AdminAuthLib) (t₀ : Tables)
    (ls : List (Processes.Label InitOp)) (g : InitCalls)
    (hlength : ∀ op, .call op ∈ ls → DerivesLength lib op)
    (hback : ∀ op, .call op ∈ ls → TakesBack lib op)
    (hrun : Run (restrict (Processes.step (InitOp.coro lib)) fun g l => guarded lib g l = true)
      { tables := t₀ } ls g) : NeverOverwritten lib g := by
  have h : Inv lib g := by
    refine hrun.invariant ?_ (.init lib t₀)
    intro g label g' h hstep
    obtain ⟨hguarded, hstep⟩ := restrict_eq_some.mp hstep
    exact h.step hguarded hstep
  refine ⟨h.once, fun call hcall => h.refused hcall, h.stored, fun op hop => ?_⟩
  obtain ⟨metadata, text, hmetadata, hdumps, hrow⟩ := h.stored op hop
  have hmade := Processes.made_of_returned hrun.of_restrict hop
  exact verify_stored (hlength op hmade) (hback op hmade) hmetadata hdumps hrow

/-- Whether the call's credential is taken back. -/
def takesBack (lib : AdminAuthLib) (op : InitOp) : Bool :=
  match op.metadata lib with
  | .error _ => true
  | .ok metadata =>
    match lib.dumps (.obj metadata) with
    | .error _ => true
    | .ok text =>
      match lib.loads text with
      | .error _ => false
      | .ok v => v.same (.obj metadata)

theorem takesBack_spec {op : InitOp} (h : takesBack lib op = true) : TakesBack lib op := by
  intro metadata text hmetadata hdumps
  simp only [takesBack, hmetadata, hdumps] at h
  cases hloads : lib.loads text with
  | error e =>
    rw [hloads] at h
    cases h
  | ok v =>
    rw [hloads] at h
    rw [Json.eq_of_same h]

end InitCalls

namespace Sample

/-- The keys that scrypt derives for the calls below. -/
def derived1 : Bytes :=
  [0x1f, 0xa7, 0x39, 0xef, 0x78, 0x51, 0x78, 0xe7, 0xef, 0x92, 0xb4, 0x62, 0xfc, 0x0e, 0xbb, 0x20,
    0xbd, 0x04, 0x92, 0x18, 0x82, 0x97, 0x83, 0x13, 0x65, 0x0e, 0x01, 0xae, 0x53, 0x88, 0xda, 0x34]

def derived2 : Bytes :=
  [0x62, 0xcb, 0x58, 0x5f, 0x92, 0x6c, 0xbe, 0x66, 0x10, 0xd4, 0xb6, 0xc5, 0xc3, 0x75, 0x3c, 0xa3,
    0xe4, 0xa8, 0x80, 0xbf, 0xea, 0x2f, 0x64, 0xdb, 0xd5, 0xe9, 0xef, 0xea, 0xcc, 0x64, 0xcd, 0x71]

def initOp1 : InitOp := ⟨str "pw", List.replicate 16 0, 1000⟩
def initOp2 : InitOp := ⟨str "qw", List.replicate 16 1, 2000⟩

/-- scrypt on the two passwords. -/
def scrypt (password salt : Bytes) (n r p : Int) (dklen : Nat) : Except PyExn Bytes :=
  if (n, r, p, dklen) = (scryptN, scryptR, scryptP, AdminAuthService.dklen) then
    if password = bytes "pw" ∧ salt = initOp1.salt then .ok derived1
    else if password = bytes "qw" ∧ salt = initOp2.salt then .ok derived2
    else .error .valueError
  else .error .valueError

/-- `json.loads` of text without numbers of too many digits. -/
def loadsText (text : Str) : Except JsonFault Json :=
  match (do Json.Parser.finish (← text.foldlM (Json.Parser.step 100) {}) : Except PyExn Json) with
  | .ok v => .ok v
  | .error .valueError => .error .decodeError
  | .error e => .error (.other e)

def authLib : AdminAuthLib where
  scrypt := scrypt
  loads := loadsText
  dumps := Json.dumpsAt (fun _ => []) 100 0

theorem derivesLength (op : InitOp) : InitCalls.DerivesLength authLib op := by
  intro password dk h
  change scrypt password op.salt scryptN scryptR scryptP AdminAuthService.dklen = .ok dk at h
  unfold scrypt at h
  rw [if_pos rfl] at h
  split at h
  · cases h
    rfl
  · split at h <;> cases h
    rfl

theorem takesBack_ops : ∀ op ∈ [initOp1, initOp2], InitCalls.takesBack authLib op = true := by
  decide +kernel

open Processes.Label in
/-- The second call is made after the first. -/
def initInTurn : List (Processes.Label InitOp) :=
  [call initOp1, step 0, step 0, call initOp2, step 1]

open Processes.Label in
/-- Both calls read the missing row before one writes. -/
def initBothRead : List (Processes.Label InitOp) :=
  [call initOp1, call initOp2, step 0, step 1, step 0, step 1]

/-- The label makes no call but the two. -/
def oneOfBoth : Processes.Label InitOp → Bool
  | .call op => op ∈ [initOp1, initOp2]
  | .step _ => true

theorem takesBack_of_call {ls : List (Processes.Label InitOp)}
    (h : ls.all oneOfBoth = true) (op : InitOp) (hop : .call op ∈ ls) :
    InitCalls.TakesBack authLib op :=
  InitCalls.takesBack_spec (takesBack_ops op (of_decide_eq_true (List.all_eq_true.mp h _ hop)))

end Sample

open Sample in
theorem InitCalls.neverOverwritten_of_guarded_inTurn : ∃ g,
    Run (restrict (Processes.step (InitOp.coro authLib)) fun g l => guarded authLib g l = true)
      { tables := {} } initInTurn g ∧ g.returned = [initOp1] ∧ NeverOverwritten authLib g := by
  have hfold : (initInTurn.foldlM (restrict (Processes.step (InitOp.coro authLib)) fun g l =>
      guarded authLib g l = true) { tables := {} }).any (fun g => g.returned = [initOp1]) := by
        decide +kernel
  obtain ⟨g, hrun, hg⟩ := Run.exists_of_any hfold
  exact ⟨g, hrun, of_decide_eq_true hg, neverOverwritten_of_guarded authLib {} initInTurn g
    (fun op _ => derivesLength op) (takesBack_of_call (by decide)) hrun⟩

open Sample in
/-- Two calls find no row: both store their credential, the second over the first. -/
theorem InitCalls.credential_overwritten : ¬ ∀ (lib : AdminAuthLib) (t₀ : Tables)
    (ls : List (Processes.Label InitOp)) (g : InitCalls),
    (∀ op, .call op ∈ ls → DerivesLength lib op) →
      (∀ op, .call op ∈ ls → TakesBack lib op) → Run (Processes.step (InitOp.coro lib))
        { tables := t₀ } ls g →
        NeverOverwritten lib g := by
  intro hall
  have hfold : (initBothRead.foldlM (Processes.step (InitOp.coro authLib)) { tables := {} }).any
    (fun g =>
      g.returned = [initOp1, initOp2]) := by decide +kernel
  obtain ⟨g, hrun, hg⟩ := Run.exists_of_any hfold
  have honce :=
    (hall authLib {} initBothRead g (fun op _ => derivesLength op)
      (takesBack_of_call (by decide)) hrun).once
  rw [of_decide_eq_true hg] at honce
  exact absurd honce (by decide)

end EasyModelGate
