import EasyModelGate.Verify.Gateway
import EasyModelGate.Verify.Sse

/-! # Byte transparency of the stream

`relay_gen` driven to its end by an upstream that delivers chunks and then ends, and a client that
takes every chunk: the chunks come out as they went in exactly when the scanner survives them. -/

namespace EasyModelGate

/-- What a resumption yields. -/
def Pc.yields : Pc → List Bytes
  | .yielded _ chunk => [chunk]
  | _ => []

/-- The ways in which `aclose` ends without a cancellation. -/
inductive Aclose
  | closed
  | httpTimeout
  | httpError

def Aclose.event : Aclose → Event
  | .closed => .closed
  | .httpTimeout => .httpTimeout
  | .httpError => .httpError

/-- How the environment resolves a suspension of `relay_gen` while the upstream still has
`chunks` to deliver: no timer fires, nothing is cancelled. -/
def nextEvent (aclose : Aclose) : Pc → List Bytes → Option (Event × List Bytes)
  | .created _, chunks => some (.started, chunks)
  | .pulling _, chunk :: chunks => some (.chunk chunk, chunks)
  | .pulling _, [] => some (.eof, [])
  | .yielded .., chunks => some (.resumed, chunks)
  | .finalizing .., chunks => some (aclose.event, chunks)
  | _, _ => none

/-- What the loop does with one chunk. -/
theorem resume_chunk (env : RelayEnv) (clk : Clock) (g : Gen) (chunk : Bytes) :
    match g.scanner.feed env.json chunk with
    | .error (e, scanner) =>
      resume env clk (.pulling g) (.chunk chunk) = some (Gen.fail { g with scanner } clk e, [])
    | .ok (_, scanner) => ∃ g' : Gen, g'.scanner = scanner ∧
      resume env clk (.pulling g) (.chunk chunk) = some (.yielded g' chunk, []) := by
  simp only [resume, Gen.onChunk]
  cases hf : g.scanner.feed env.json chunk with
  | error es => rfl
  | ok r => exact ⟨_, rfl, rfl⟩

section
variable (env : RelayEnv) (aclose : Aclose) (clk : Nat → Clock)

/-- At most `turns` resumptions: what they yield, and where they end. The clocks may show
anything. -/
def drive : Nat → Pc → List Bytes → List Bytes × Pc
  | 0, pc, _ => ([], pc)
  | turns + 1, pc, chunks =>
    match nextEvent aclose pc chunks with
    | none => ([], pc)
    | some (ev, chunks) =>
      match resume env (clk turns) pc ev with
      | none => ([], pc)
      | some (pc, _) =>
        let (ys, last) := drive turns pc chunks
        (pc.yields ++ ys, last)

variable {env aclose clk}

theorem drive_step {turns : Nat} {effects : List Effect}
    (hn : nextEvent aclose pc chunks = some (ev, chunks'))
    (hr : resume env (clk turns) pc ev = some (pc', effects)) :
    drive env aclose clk (turns + 1) pc chunks =
      (pc'.yields ++ (drive env aclose clk turns pc' chunks').1,
        (drive env aclose clk turns pc' chunks').2) := by
  rw [drive, hn]
  dsimp only
  rw [hr]

theorem drive_done (turns : Nat) (o : Outcome) (chunks : List Bytes) :
    drive env aclose clk turns (.done o) chunks = ([], .done o) := by
  cases turns <;> rfl

theorem drive_finalizing (turns : Nat) (g : Gen) (errorType : Option Str) (pending : Option Exn)
    (tUpEnd : ℚ) (chunks : List Bytes) :
    drive env aclose clk (turns + 1) (.finalizing g errorType pending tUpEnd) chunks =
      ([], .done (.streamed pending)) := by
  have hr : resume env (clk turns) (.finalizing g errorType pending tUpEnd) aclose.event =
      some (.done (.streamed pending), (g.finalize (clk turns) errorType tUpEnd {}).2.effects) := by
    cases aclose <;> rfl
  rw [drive_step rfl hr, drive_done]
  rfl

variable (env aclose clk)

/-- The loop of `relay_gen`: all chunks come out, or the scanner raises before one of them. -/
theorem drive_pulling (turns : Nat) (g : Gen) (chunks : List Bytes) :
    match g.scanner.feedAll env.json chunks with
    | .ok _ => drive env aclose clk (turns + (2 * chunks.length + 2)) (.pulling g) chunks =
        (chunks, .done (.streamed none))
    | .error _ =>
      (drive env aclose clk (turns + (2 * chunks.length + 2)) (.pulling g) chunks).1.length
        < chunks.length := by
  induction chunks generalizing g with
  | nil =>
    show drive env aclose clk (turns + 1 + 1) (.pulling g) [] = _
    rw [drive_step rfl rfl, drive_finalizing]
    rfl
  | cons chunk chunks ih =>
    have hturns : turns + (2 * (chunk :: chunks).length + 2) =
        turns + (2 * chunks.length + 2) + 1 + 1 := by simp only [List.length_cons]; omega
    have hpull := resume_chunk env (clk (turns + (2 * chunks.length + 2) + 1)) g chunk
    rw [hturns]
    cases hf : g.scanner.feed env.json chunk with
    | error es =>
      obtain ⟨e, scanner⟩ := es
      have hlen : 0 < (chunk :: chunks).length := Nat.succ_pos _
      rw [hf] at hpull
      simp only [SseScanner.feedAll, hf, bind, Except.bind]
      rw [drive_step rfl hpull, Gen.fail, drive_finalizing]
      exact hlen
    | ok r =>
      obtain ⟨events, scanner⟩ := r
      rw [hf] at hpull
      obtain ⟨g', hscanner, hpull⟩ := hpull
      have ih := ih g'
      simp only [SseScanner.feedAll, hf, bind, Except.bind, hscanner] at ih ⊢
      rw [drive_step rfl hpull, drive_step rfl rfl]
      split at ih <;> rename_i hrest <;> simp only [hrest, pure, Except.pure, Pc.yields]
      · rw [ih]
        rfl
      · simpa using ih

/-- **Transparency.** For all chunks of a response with status 200, `relay_gen` yields exactly them
and ends without raising, exactly when every line of their concatenation before the scanner's carry
is harmless. -/
theorem relay_transparent_iff (h : Holding) (chunks : List Bytes) (turns : Nat) :
    drive env aclose clk (turns + (2 * chunks.length + 3)) (.created { h with }) chunks =
        (chunks, .done (.streamed none)) ↔
      ∀ l ∈ Bytes.split 10 (SseScanner.beforeCarry chunks.flatten),
        SseScanner.HarmlessLine env.json l := by
  have hstart : drive env aclose clk (turns + (2 * chunks.length + 3))
      (.created { h with }) chunks =
      drive env aclose clk (turns + (2 * chunks.length + 2)) (.pulling { h with }) chunks := rfl
  have hloop := drive_pulling env aclose clk turns { h with } chunks
  rw [← SseScanner.feedAll_ok_iff env.json chunks, hstart]
  cases hf : SseScanner.feedAll env.json {} chunks with
  | ok r =>
    rw [hf] at hloop
    exact ⟨fun _ => ⟨r, rfl⟩, fun _ => hloop⟩
  | error es =>
    rw [hf] at hloop
    refine ⟨fun heq => ?_, fun ⟨_, hr⟩ => nomatch hr⟩
    rw [heq] at hloop
    exact absurd hloop (Nat.lt_irrefl _)

end

namespace Sample

/-- The frame of the streaming request of `Sample.stream`. -/
def holding : Holding where
  auth := Auth.context ⟨1, key none⟩ ⟨1, user⟩
  stream := true
  t0 := 1
  deadline := 1801
  payload := []
  headers := []
  record := baseRecord relay (chat true)
    ⟨0, Auth.context ⟨1, key none⟩ ⟨1, user⟩, clockAt 1⟩ [] 0
  queueWaitMs := 0
  tUp := 2

end Sample

/-- An event whose data is a JSON array, not an object, ends the stream before it is relayed. -/
theorem relay_aborted : ¬ ∀ (env : RelayEnv) (aclose : Aclose) (clk : Nat → Clock) (h : Holding)
    (chunks : List Bytes), drive env aclose clk (2 * chunks.length + 3)
      (.created { h with }) chunks =
      (chunks, .done (.streamed none)) := by
  intro hall
  have h := congrArg Prod.fst (hall Sample.relay .closed (fun _ => Sample.clockAt 3) Sample.holding
    [bytes "data: [\"finish_reason\"]\n\n"])
  have hnone : (drive Sample.relay .closed (fun _ => Sample.clockAt 3) 5
      (.created { Sample.holding with }) [bytes "data: [\"finish_reason\"]\n\n"]).1 = [] := by
    decide +kernel
  exact absurd (hnone.symm.trans h) (by decide)

/-! ## A complete answer -/

/-- The response that `forward_chat` has returned. -/
def Outcome.returned? : Outcome → Option Response
  | .responded r => some r
  | _ => none

/-- A complete answer comes back as it is. -/
def Relayed (env : RelayEnv) (clk : Clock) (h : Holding) (timer : Timer)
    (resp : UpstreamResponse) : Prop :=
  ∃ o effects r, resume env clk (.sending h timer) (.response resp) = some (.done o, effects) ∧
    o.returned? = some r ∧ r.statusCode = resp.status ∧
    ∃ mediaType, r.body = .raw resp.content mediaType

/-- The media type can be encoded, and the body of a success is no JSON that trips the look at its
usage and its first finish reason. -/
def HarmlessAnswer (json : JsonCodec) (resp : UpstreamResponse) : Prop :=
  resp.mediaType.isLatin1 = true ∧ (isSuccess resp.status = true →
    (∃ obj, json.loads resp.content = .ok obj ∧ SseScanner.readable obj) ∨
      json.loads resp.content = .error .valueError)

theorem parseContent_ok_iff (env : RelayEnv) (content : Bytes) :
    (∃ parsed, parseContent env content = .ok parsed) ↔
      (∃ obj, env.json.loads content = .ok obj ∧ SseScanner.readable obj) ∨
        env.json.loads content = .error .valueError := by
  unfold parseContent
  cases hl : env.json.loads content with
  | error e =>
    cases e <;> simp
  | ok obj =>
    simp only [Except.ok.injEq, exists_eq_left', reduceCtorEq, or_false,
      ← SseScanner.firstFinishReason_ok_iff]
    cases hu : obj.get (str "usage") with
    | error e =>
      refine iff_of_false (fun ⟨_, h⟩ => by cases h) ?_
      rintro ⟨fr, h⟩
      cases obj <;> cases hu <;> cases h
    | ok usage =>
      cases hf : firstFinishReason obj with
      | error e => exact iff_of_false (fun ⟨_, h⟩ => by cases h) fun ⟨_, h⟩ => by cases h
      | ok fr => exact iff_of_true ⟨_, rfl⟩ ⟨_, rfl⟩

/-- Only the body of a success is looked at. -/
theorem parsedContent_ok_iff (env : RelayEnv) (resp : UpstreamResponse) :
    (∃ parsed, parsedContent env resp = .ok parsed) ↔ (isSuccess resp.status = true →
      (∃ obj, env.json.loads resp.content = .ok obj ∧ SseScanner.readable obj) ∨
        env.json.loads resp.content = .error .valueError) := by
  rw [← parseContent_ok_iff env, parsedContent]
  cases isSuccess resp.status <;> simp

section
variable {env : RelayEnv} {clk : Clock} {h : Holding} {timer : Timer} {resp : UpstreamResponse}
  {content : Option Json × Option Str}

/-- What comes back has been parsed, and its media type encoded. -/
theorem Relayed.parsed (hs : h.stream = false) (hrelayed : Relayed env clk h timer resp) :
    resp.mediaType.isLatin1 = true ∧ ∃ parsed, parsedContent env resp = .ok parsed := by
  obtain ⟨o, effects, r, hresume, hreturned, -⟩ := hrelayed
  replace hresume : some (afterSend env h clk (.ok resp)).resume = some (.done o, effects) :=
    hresume
  rw [afterSend_whole env hs] at hresume
  cases hparsed : parsedContent env resp with
  | error e =>
    rw [hparsed] at hresume
    cases hresume
    cases hreturned
  | ok parsed =>
    rw [hparsed] at hresume
    cases hresume
    unfold respondedWith at hreturned
    split at hreturned
    · exact ⟨‹_›, parsed, rfl⟩
    · cases hreturned

theorem Relayed.of_parsed (hs : h.stream = false) (hmedia : resp.mediaType.isLatin1 = true)
    (hparsed : parsedContent env resp = .ok content) : Relayed env clk h timer resp := by
  have hresume : resume env clk (.sending h timer)
      (.response resp) = some (afterSend env h clk (.ok resp)).resume := rfl
  rw [afterSend_whole env hs, hparsed] at hresume
  rw [respondedWith, if_pos hmedia] at hresume
  exact ⟨_, _, _, hresume, rfl, rfl, resp.mediaType, rfl⟩

end

/-- **Transparency of a complete answer**, with any status and any body. -/
theorem answer_transparent_iff (env : RelayEnv) (clk : Clock) (h : Holding) (timer : Timer)
    (resp : UpstreamResponse) (hs : h.stream = false) :
    Relayed env clk h timer resp ↔ HarmlessAnswer env.json resp := by
  unfold HarmlessAnswer
  rw [← parsedContent_ok_iff]
  exact ⟨Relayed.parsed hs, fun ⟨hmedia, _, hparsed⟩ => .of_parsed hs hmedia hparsed⟩

namespace Sample

/-- The same request, not streaming. -/
def wholeHolding : Holding := { holding with stream := false }

end Sample

theorem answer_transparent_empty :
    Relayed Sample.relay (Sample.clockAt 3) Sample.wholeHolding (.at 1801)
    { status := 200, contentType := none, content := bytes "\x7b\x7d" } := by
  apply (answer_transparent_iff _ _ _ _ _ rfl).mpr
  have hloads : (Sample.relay.json.loads (bytes "\x7b\x7d")).toOption.any
      (fun v => v.isDict && !v.truthy) = true := by
    decide +kernel
  refine ⟨by decide, fun _ => ?_⟩
  cases hobj : Sample.relay.json.loads (bytes "\x7b\x7d") with
  | error e =>
    rw [hobj] at hloads
    exact absurd hloads Bool.false_ne_true
  | ok obj =>
    rw [hobj] at hloads
    rcases obj with _ | _ | _ | _ | _ | _ | _ | ⟨item, items⟩ <;>
      try exact absurd hloads Bool.false_ne_true
    exact .inl ⟨_, rfl, [], rfl, .inl rfl⟩

/-- A success whose body is a JSON array is answered with an internal error. -/
theorem answer_replaced : ¬ ∀ (env : RelayEnv) (clk : Clock) (h : Holding) (timer : Timer)
    (resp : UpstreamResponse), h.stream = false → Relayed env clk h timer resp := by
  intro hall
  have hloads : (Sample.relay.json.loads (bytes "[]")).toOption.any
      (fun v => !v.isDict) = true := by
    decide +kernel
  have hrelayed := hall Sample.relay (Sample.clockAt 3) Sample.wholeHolding (.at 1801)
    { status := 200, contentType := none, content := bytes "[]" } rfl
  have hbody := (parsedContent_ok_iff _ _).mp (hrelayed.parsed rfl).2
  rcases hbody (by decide) with ⟨_, hobj, items, rfl, -⟩ | herror
  · rw [hobj] at hloads
    exact absurd hloads Bool.false_ne_true
  · rw [herror] at hloads
    exact absurd hloads Bool.false_ne_true

end EasyModelGate
