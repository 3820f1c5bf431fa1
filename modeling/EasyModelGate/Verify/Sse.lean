import EasyModelGate.Proxy.Sse

/-! # The scanner does not see chunk boundaries

`feed` is the framing of `Lib/Framing` followed by the processing of each event
(`feed_eq`), so feeding chunks is feeding their concatenation (`feedAll_eq`). What the events
contribute is what the lines of the stream before the carry contribute (`processAll_lines`), and
a line is harmful independently of the scanner's state (`processLine_error_iff`). -/

namespace EasyModelGate
namespace SseScanner

/-- No delimiter hides inside the other one: the inner bytes of `\r\n\r\n` are `\n\r`. -/
def delimiters : Framing.Delimiters UInt8 where
  all := [lfLf, crlfCrlf]
  ne_nil := by decide
  interior := by
    have short : ∀ δ' ∈ [lfLf, crlfCrlf], δ'.length ≤ 4 := by decide
    intro δ hδ δ' hδ' k hk hlt
    have hk4 : k < 4 := by have := short δ' hδ'; omega
    have all : ∀ δ ∈ [lfLf, crlfCrlf], ∀ δ' ∈ [lfLf, crlfCrlf], ∀ k < 4, 0 < k →
        k + δ.length < δ'.length → ¬ δ <+: δ'.drop k := by decide
    exact all δ hδ δ' hδ' k hk4 hk hlt

theorem mem_delimiters : δ ∈ delimiters.all ↔ δ = lfLf ∨ δ = crlfCrlf := by
  simp [delimiters]

theorem findCut_eq (carry : Bytes) : findCut carry = Framing.leftmost delimiters.all carry := by
  have h2 : lfLf.length = 2 := by decide
  have h4 : crlfCrlf.length = 4 := by decide
  cases hlf : Framing.find lfLf carry <;> cases hcr : Framing.find crlfCrlf carry <;>
    simp [findCut, Framing.leftmost, delimiters, hlf, hcr, h2, h4]

/-- The complete events of a stream, and the tail that `feed` keeps. -/
abbrev eventsOf (s : Bytes) : List Bytes := (Framing.pieces delimiters s).1
abbrev carryOf (s : Bytes) : Bytes := (Framing.pieces delimiters s).2

/-- Everything but the carry. -/
def core (s : SseScanner) : SseScanner := { s with carry := [] }

@[simp] theorem core_core (s : SseScanner) : s.core.core = s.core := rfl

/-- The result without the carry that an exception happens to leave behind. -/
def settle (r : Result α) : Result α := r.mapError (Prod.map id core)

@[simp] theorem settle_ok (a : α) : settle (.ok a : Result α) = .ok a := rfl
@[simp] theorem settle_error (e : PyExn) (s : SseScanner) :
    settle (.error (e, s) : Result α) = .error (e, s.core) := rfl

theorem settle_bind (r : Result α) (k : α → Result β) :
    settle (r >>= k) = settle r >>= fun a => settle (k a) := by
  cases r <;> rfl

/-- `r` with `c` put back as the carry. -/
def putCarry (c : Bytes) (r : Result SseScanner) : Result SseScanner :=
  (r.map fun s => { s with carry := c }).mapError (Prod.map id fun s => { s with carry := c })

theorem putCarry_bind {c : Bytes} {r : Result SseScanner} {k : SseScanner → Result SseScanner}
    (hk : ∀ s : SseScanner, k { s with carry := c } = putCarry c (k s)) :
    putCarry c r >>= k = putCarry c (r >>= k) := by
  cases r with
  | error => rfl
  | ok s => exact hk s

section
variable (json : JsonCodec)

/-! ## Lines and events leave the carry alone -/

theorem extractUsage_putCarry (s : SseScanner) (c body : Bytes) :
    extractUsage json { s with carry := c } body = putCarry c (extractUsage json s body) := by
  unfold extractUsage
  split <;> [skip; rfl]
  split <;> [skip; rfl; rfl]
  split <;> [skip; rfl]
  split <;> rfl

theorem extractFinishReason_putCarry (s : SseScanner) (c body : Bytes) :
    extractFinishReason json { s with carry := c } body =
      putCarry c (extractFinishReason json s body) := by
  unfold extractFinishReason
  split <;> [skip; rfl]
  split <;> [skip; rfl; rfl]
  split <;> [skip; rfl]
  split <;> rfl

theorem extract_putCarry (s : SseScanner) (c body : Bytes) :
    extract json { s with carry := c } body = putCarry c (extract json s body) := by
  unfold extract
  rw [extractUsage_putCarry]
  exact putCarry_bind fun s => extractFinishReason_putCarry json s c body

theorem processLine_putCarry (s : SseScanner) (c line : Bytes) :
    processLine json { s with carry := c } line = putCarry c (processLine json s line) := by
  unfold processLine
  dsimp only
  split
  · rfl
  split
  · rfl
  split
  · rfl
  exact extract_putCarry json { s with dataEvents := s.dataEvents + 1 } c _

theorem foldlM_putCarry {f : SseScanner → Bytes → Result SseScanner}
    (hf : ∀ (s : SseScanner) c x, f { s with carry := c } x = putCarry c (f s x))
    (s : SseScanner) (c : Bytes) (xs : List Bytes) :
    xs.foldlM f { s with carry := c } = putCarry c (xs.foldlM f s) := by
  induction xs generalizing s with
  | nil => rfl
  | cons x xs ih =>
    rw [List.foldlM_cons, List.foldlM_cons, hf]
    exact putCarry_bind ih

theorem process_putCarry (s : SseScanner) (c event : Bytes) :
    process json { s with carry := c } event = putCarry c (process json s event) :=
  foldlM_putCarry (processLine_putCarry json) s c _

/-- The processing of complete events, one after the other. -/
def processAll (s : SseScanner) (events : List Bytes) : Result SseScanner :=
  events.foldlM (process json) s

theorem processAll_putCarry (s : SseScanner) (c : Bytes) (events : List Bytes) :
    processAll json { s with carry := c } events = putCarry c (processAll json s events) :=
  foldlM_putCarry (process_putCarry json) s c events

/-! ## `feed` frames and then processes -/

/-- What feeding the stream `carry` amounts to. -/
def scan (s : SseScanner) (carry : Bytes) : Result (List Bytes × SseScanner) := do
  let s ← processAll json s (eventsOf carry)
  return (eventsOf carry, { s with carry := carryOf carry })

theorem scan_of_none {t : Bytes} (h : Framing.leftmost delimiters.all t = none)
    (s : SseScanner) : scan json s t = .ok ([], { s with carry := t }) := by
  simp only [scan, eventsOf, carryOf, Framing.pieces_of_none h]
  rfl

theorem scan_of_some {t : Bytes} {p : ℕ ×ₗ ℕ} (h : Framing.leftmost delimiters.all t = some p)
    (s : SseScanner) :
    scan json s t = do
      let s ← process json s (t.take (ofLex p).1)
      let (events, s) ← scan json s (t.drop ((ofLex p).1 + (ofLex p).2))
      return (t.take (ofLex p).1 :: events, s) := by
  simp only [scan, eventsOf, carryOf, Framing.pieces_of_some h, processAll, List.foldlM_cons,
    bind_assoc, pure_bind]

/-- The carry that the scanner starts from is overwritten. -/
theorem scan_putCarry (s : SseScanner) (c t : Bytes) :
    settle (scan json { s with carry := c } t) = settle (scan json s t) := by
  rw [scan, scan, processAll_putCarry]
  cases processAll json s (eventsOf t) <;> rfl

theorem drain_eq (turns : Nat) (s : SseScanner) (events : List Bytes)
    (h : s.carry.length < turns) :
    settle (drain json turns s events) =
      settle (do let (es, s) ← scan json s s.carry; return (events ++ es, s)) := by
  induction turns generalizing s events with
  | zero => omega
  | succ turns ih =>
    rw [drain, findCut_eq]
    cases hcut : Framing.leftmost delimiters.all s.carry with
    | none =>
      rw [scan_of_none json hcut]
      simp [pure, Except.pure, bind, Except.bind]
    | some p =>
      have hb := Framing.occurrences_bound (Framing.leftmost_eq_some.mp hcut).1
      rw [scan_of_some json hcut]
      dsimp only
      rw [process_putCarry]
      cases process json s (s.carry.take (ofLex p).1) with
      | error e => rfl
      | ok s' =>
        -- the loop goes on with what follows the delimiter
        refine (ih { s' with carry := s.carry.drop ((ofLex p).1 + (ofLex p).2) } _
          (by simp only [List.length_drop]; omega)).trans ?_
        rw [settle_bind, scan_putCarry, ← settle_bind]
        simp only [bind_assoc, pure_bind, List.append_assoc, List.singleton_append]
        rfl

/-- **`feed` frames the carry and the chunk, and processes the events in order.** -/
theorem feed_eq (s : SseScanner) (chunk : Bytes) :
    settle (feed json s chunk) = settle (scan json s (s.carry ++ chunk)) := by
  refine (drain_eq json _ { s with carry := s.carry ++ chunk } [] (Nat.lt_succ_self _)).trans ?_
  rw [settle_bind, scan_putCarry, ← settle_bind]
  exact congrArg settle (bind_pure _)

theorem scan_append (s : SseScanner) (t u : Bytes) :
    settle (scan json s (t ++ u)) = settle (do
      let (es, s) ← scan json s t
      let (later, s) ← scan json s (s.carry ++ u)
      return (es ++ later, s)) := by
  have happ := Framing.pieces_append delimiters t u
  have hev : eventsOf (t ++ u) = eventsOf t ++ eventsOf (carryOf t ++ u) := by rw [eventsOf, happ]
  have hcarry : carryOf (t ++ u) = carryOf (carryOf t ++ u) := by rw [carryOf, happ]
  rw [scan, hev, hcarry, processAll, List.foldlM_append, ← processAll, scan]
  cases processAll json s (eventsOf t) with
  | error e => rfl
  | ok s' =>
    symm
    change settle (scan json { s' with carry := carryOf t } (carryOf t ++ u) >>= fun r =>
      pure (eventsOf t ++ r.1, r.2)) = _
    rw [settle_bind, scan_putCarry, ← settle_bind, scan, bind_assoc]
    rfl

/-- **Chunking does not matter**: feeding the chunks is feeding their concatenation. -/
theorem feedAll_eq (s : SseScanner) (chunks : List Bytes)
    (h : Framing.leftmost delimiters.all s.carry = none) :
    settle (feedAll json s chunks) = settle (scan json s (s.carry ++ chunks.flatten)) := by
  induction chunks generalizing s with
  | nil => simp [feedAll, scan_of_none json h]
  | cons chunk chunks ih =>
    rw [List.flatten_cons, ← List.append_assoc, scan_append, feedAll, settle_bind, feed_eq,
      settle_bind]
    cases hscan : scan json s (s.carry ++ chunk) with
    | error e => rfl
    | ok r =>
      obtain ⟨events, s'⟩ := r
      have hs' : Framing.leftmost delimiters.all s'.carry = none := by
        rw [scan] at hscan
        cases hp : processAll json s (eventsOf (s.carry ++ chunk)) with
        | error e => rw [hp] at hscan; cases hscan
        | ok s'' =>
          rw [hp] at hscan
          cases hscan
          exact Framing.leftmost_pieces_snd delimiters _
      change settle (feedAll json s' chunks >>= fun r => pure (events ++ r.1, r.2)) =
        settle (scan json s' (s'.carry ++ chunks.flatten) >>= fun r => pure (events ++ r.1, r.2))
      rw [settle_bind, ih s' hs', ← settle_bind]

/-! ## Events and lines -/

theorem processLine_nil (s : SseScanner) : processLine json s [] = .ok s := by
  have h : ¬ bytes "data:" <+: [] := by decide
  simp [processLine, h]

theorem processLine_concat_cr (s : SseScanner) (line : Bytes) :
    processLine json s (line ++ [13]) = processLine json s line := by
  simp only [processLine, Bytes.rstrip_concat]

theorem foldlM_split_lf (s : SseScanner) (x y : Bytes) :
    (Bytes.split 10 (x ++ 10 :: y)).foldlM (processLine json) s =
      process json s x >>= fun s => (Bytes.split 10 y).foldlM (processLine json) s := by
  rw [Bytes.split_append_cons, List.foldlM_append]
  rfl

theorem process_concat_cr (s : SseScanner) (x : Bytes) :
    process json s (x ++ [13]) = process json s x := by
  obtain ⟨init, last, h1, h2⟩ := Bytes.split_concat (b := 10) (c := 13) (by decide) x
  rw [process, process, h1, h2]
  simp only [List.foldlM_append, List.foldlM_cons, List.foldlM_nil, processLine_concat_cr]

theorem process_nil (s : SseScanner) : process json s [] = .ok s := by
  change processLine json s [] >>= pure = _
  rw [processLine_nil]
  rfl

/-- The lines of an event and its delimiter are the lines of the event, up to empty ones. -/
theorem foldlM_split_event {δ : Bytes} (hδ : δ ∈ delimiters.all) (s : SseScanner) (x y : Bytes) :
    (Bytes.split 10 (x ++ δ ++ y)).foldlM (processLine json) s =
      process json s x >>= fun s => (Bytes.split 10 y).foldlM (processLine json) s := by
  rcases mem_delimiters.mp hδ with rfl | rfl
  · have h : x ++ lfLf ++ y = x ++ 10 :: ([] ++ 10 :: y) := by
      simp [show lfLf = [10, 10] by decide]
    simp only [h, foldlM_split_lf, process_nil]
    rfl
  · have h : x ++ crlfCrlf ++ y = (x ++ [13]) ++ 10 :: (([] ++ [13]) ++ 10 :: y) := by
      simp [show crlfCrlf = [13, 10, 13, 10] by decide]
    simp only [h, foldlM_split_lf, process_concat_cr, process_nil]
    rfl

theorem processAll_lines (s : SseScanner) (events seps : List Bytes)
    (hlen : seps.length = events.length) (hmem : ∀ δ ∈ seps, δ ∈ delimiters.all) :
    processAll json s events =
      (Bytes.split 10 (List.zipWith (· ++ ·) events seps).flatten).foldlM (processLine json) s := by
  induction events generalizing s seps with
  | nil => rw [List.zipWith_nil_left]; exact (process_nil json s).symm
  | cons e events ih =>
    rcases seps with _ | ⟨δ, seps⟩
    · simp at hlen
    · rw [List.zipWith_cons_cons, List.flatten_cons, foldlM_split_event json (hmem δ (by simp)),
        processAll, List.foldlM_cons]
      congr 1; funext s'
      exact ih s' seps (by simpa using hlen) fun δ' h => hmem δ' (by simp [h])

/-- The `data:` lines of a stretch of the stream. -/
def dataLines (s : Bytes) : List Bytes :=
  (Bytes.split 10 s).filter fun line => decide (bytes "data:" <+: Bytes.rstrip 13 line)

theorem foldlM_dataLines (s : SseScanner) (x : Bytes) :
    (dataLines x).foldlM (processLine json) s = (Bytes.split 10 x).foldlM (processLine json) s := by
  rw [dataLines, List.foldlM_filter]
  congr 1
  funext s line
  split
  · rfl
  · rename_i h
    exact (if_pos (by simpa using h)).symm

/-! ## Which lines raise

Whether a line raises depends on the line alone. -/

/-- `choices[0].get` works on the value of `choices or [{}]`. -/
def readableChoices (choices : Json) : Prop :=
  choices.truthy = false ∨ ∃ first rest, choices = .arr (.obj first :: rest)

/-- An object whose `choices`, if truthy, is a list that starts with an object. -/
def readable (obj : Json) : Prop :=
  ∃ items, obj = .obj items ∧ readableChoices ((Json.lookup (str "choices") items).getD .null)

theorem firstFinishReason_ok_iff (obj : Json) :
    (∃ fr, firstFinishReason obj = .ok fr) ↔ readable obj := by
  cases obj with
  | obj items =>
    simp only [firstFinishReason, Json.get, readable, Json.obj.injEq, exists_eq_left',
      readableChoices, bind, Except.bind]
    generalize (Json.lookup (str "choices") items).getD .null = choices
    cases ht : choices.truthy with
    | false => simp [Json.item0]
    | true =>
      simp only [if_true, reduceCtorEq, false_or]
      cases choices with
      | arr xs =>
        rcases xs with _ | ⟨x, xs⟩
        · simp [Json.item0]
        · cases x <;> simp [Json.item0]
      | str s => cases s <;> simp [Json.item0]
      | _ => simp [Json.item0]
  | _ => simp [firstFinishReason, Json.get, readable, bind, Except.bind]

/-- A body that `_extract` survives: `json.loads` raises nothing but `ValueError` where it is
called, and what the `finish_reason` half decodes is `readable`. -/
structure HarmlessBody (body : Bytes) : Prop where
  usage : Bytes.contains (bytes "\"usage\"") body → ∀ e, json.loads body = .error e →
    e = .valueError
  finishReason : Bytes.contains (bytes "\"finish_reason\"") body →
    ¬ Bytes.contains (bytes "\"finish_reason\":null") body →
    (∀ e, json.loads body = .error e → e = .valueError) ∧
      ∀ obj, json.loads body = .ok obj → readable obj

/-- A line that `_process` survives. -/
def HarmlessLine (rawLine : Bytes) : Prop :=
  let line := Bytes.rstrip 13 rawLine
  let body := Bytes.strip (line.drop (bytes "data:").length)
  bytes "data:" <+: line → body ≠ [] → body ≠ bytes "[DONE]" → HarmlessBody json body

theorem extractUsage_ok_iff (s : SseScanner) (body : Bytes) :
    (∃ s', extractUsage json s body = .ok s') ↔
      (Bytes.contains (bytes "\"usage\"") body →
        ∀ e, json.loads body = .error e → e = .valueError) := by
  unfold extractUsage
  split
  · rename_i hc
    simp only [hc, true_implies]
    cases json.loads body with
    | ok obj => cases obj <;> dsimp only <;> (try split) <;> simp
    | error e => cases e <;> simp
  · simp_all

theorem extractFinishReason_ok_iff (s : SseScanner) (body : Bytes) :
    (∃ s', extractFinishReason json s body = .ok s') ↔
      (Bytes.contains (bytes "\"finish_reason\"") body →
        ¬ Bytes.contains (bytes "\"finish_reason\":null") body →
        (∀ e, json.loads body = .error e → e = .valueError) ∧
          ∀ obj, json.loads body = .ok obj → readable obj) := by
  unfold extractFinishReason
  split
  · rename_i hc
    simp only [hc.1, hc.2, true_implies]
    cases json.loads body with
    | ok obj =>
      simp only [reduceCtorEq, false_implies, implies_true, true_and, Except.ok.injEq,
        forall_eq', ← firstFinishReason_ok_iff]
      cases firstFinishReason obj with
      | ok fr => dsimp only; split <;> simp
      | error e => simp
    | error e => cases e <;> simp
  · rename_i hc
    simp only [not_and, not_not] at hc
    simp only [Except.ok.injEq, exists_eq', true_iff]
    exact fun h1 h2 => absurd (hc h1) h2

theorem extract_ok_iff (s : SseScanner) (body : Bytes) :
    (∃ s', extract json s body = .ok s') ↔ HarmlessBody json body := by
  unfold extract
  constructor
  · rintro ⟨s', h⟩
    cases hu : extractUsage json s body with
    | error e => rw [hu] at h; cases h
    | ok s₁ =>
      rw [hu] at h
      exact ⟨(extractUsage_ok_iff json s body).mp ⟨_, hu⟩,
        (extractFinishReason_ok_iff json s₁ body).mp ⟨_, h⟩⟩
  · rintro ⟨hu, hf⟩
    obtain ⟨s₁, h₁⟩ := (extractUsage_ok_iff json s body).mpr hu
    obtain ⟨s₂, h₂⟩ := (extractFinishReason_ok_iff json s₁ body).mpr hf
    exact ⟨s₂, by rw [h₁]; exact h₂⟩

theorem processLine_ok_iff (s : SseScanner) (rawLine : Bytes) :
    (∃ s', processLine json s rawLine = .ok s') ↔ HarmlessLine json rawLine := by
  unfold processLine HarmlessLine
  dsimp only
  split
  · simp_all
  split
  · simp_all
  split
  · simp_all
  rename_i h1 h2 h3
  rw [extract_ok_iff]
  simp only [not_not] at h1
  simp [h1, h2, h3]

theorem foldlM_lines_ok_iff (s : SseScanner) (lines : List Bytes) :
    (∃ s', lines.foldlM (processLine json) s = .ok s') ↔ ∀ l ∈ lines, HarmlessLine json l := by
  induction lines generalizing s with
  | nil => simp [pure, Except.pure]
  | cons l lines ih =>
    rw [List.foldlM_cons, List.forall_mem_cons, ← processLine_ok_iff json s l]
    cases processLine json s l with
    | error e => simp [bind, Except.bind]
    | ok s₁ => exact (ih s₁).trans (by simp)

/-! ## Feeding as a whole -/

/-- What a caller sees of a result: the exception, or the value. -/
def raised (r : Result α) : Except PyExn α := r.mapError Prod.fst

theorem raised_settle (r : Result α) : raised (settle r) = raised r := by cases r <;> rfl

theorem raised_eq {r r' : Result α} (h : settle r = settle r') : raised r = raised r' := by
  rw [← raised_settle r, h, raised_settle]

theorem scan_of_feed {s s' : SseScanner} {chunk : Bytes} {events : List Bytes}
    (h : feed json s chunk = .ok (events, s')) :
    scan json s (s.carry ++ chunk) = .ok (events, s') := by
  have := feed_eq json s chunk
  rw [h] at this
  cases hs : scan json s (s.carry ++ chunk) with
  | error e => rw [hs] at this; cases this
  | ok r => rw [hs] at this; cases this; rfl

theorem scan_eq_ok {s s' : SseScanner} {t : Bytes} {events : List Bytes}
    (h : scan json s t = .ok (events, s')) :
    events = eventsOf t ∧ s'.carry = carryOf t ∧
      ∃ s'', processAll json s (eventsOf t) = .ok s'' ∧ s''.core = s'.core := by
  rw [scan] at h
  cases hp : processAll json s (eventsOf t) with
  | error e => rw [hp] at h; cases h
  | ok s'' => rw [hp] at h; cases h; exact ⟨rfl, rfl, s'', rfl, rfl⟩

/-- **The scanner does not see chunk boundaries.** Feeding chunks to a fresh scanner raises what
feeding their concatenation raises, and otherwise gives the same events and the same scanner. The
events, each followed by a delimiter, and the carry spell the stream; neither contains a
delimiter; and counters and extracted values are those of the `data:` lines before the carry. -/
theorem feedAll_chunk_independent (chunks : List Bytes) :
    raised (feedAll json {} chunks) = raised (feed json {} chunks.flatten) ∧
    ∀ events s, feed json {} chunks.flatten = .ok (events, s) →
      (∀ e ∈ s.carry :: events, ¬ lfLf <:+: e ∧ ¬ crlfCrlf <:+: e) ∧
      ∃ seps : List Bytes, seps.length = events.length ∧ (∀ δ ∈ seps, δ = lfLf ∨ δ = crlfCrlf) ∧
        (List.zipWith (· ++ ·) events seps).flatten ++ s.carry = chunks.flatten ∧
        (dataLines (List.zipWith (· ++ ·) events seps).flatten).foldlM (processLine json) {} =
          .ok { s with carry := [] } := by
  refine ⟨raised_eq ((feedAll_eq json {} chunks (by decide)).trans (feed_eq json {} _).symm), ?_⟩
  intro events s h
  obtain ⟨rfl, hcarry, s'', hs'', hcore⟩ := scan_eq_ok json (scan_of_feed json h)
  change s.carry = carryOf chunks.flatten at hcarry
  obtain ⟨seps, hlen, hmem, hspell⟩ := Framing.pieces_spell delimiters chunks.flatten
  refine ⟨?_, seps, hlen, fun δ hδ => mem_delimiters.mp (hmem δ hδ), hcarry ▸ hspell, ?_⟩
  · have hfree : ∀ e ∈ s.carry :: eventsOf chunks.flatten, ∀ δ ∈ delimiters.all, ¬ δ <:+: e := by
      rintro e (_ | ⟨_, he⟩)
      · rw [hcarry]; exact Framing.rest_no_delimiter _
      · exact Framing.piece_no_delimiter _ e he
    exact fun e he =>
      ⟨hfree e he _ (mem_delimiters.mpr (.inl rfl)), hfree e he _ (mem_delimiters.mpr (.inr rfl))⟩
  · have hlines := processAll_lines json {} _ seps hlen hmem
    have hfresh := processAll_putCarry json {} [] (eventsOf chunks.flatten)
    rw [foldlM_dataLines]
    refine hlines.symm.trans (hfresh.trans ?_)
    rw [show processAll json {} (eventsOf chunks.flatten) = .ok s'' from hs'']
    exact congrArg Except.ok hcore

/-- The part of a stream up to the end of its last complete delimiter. -/
def beforeCarry (s : Bytes) : Bytes := s.take (s.length - (carryOf s).length)

theorem processAll_beforeCarry (t : Bytes) :
    processAll json {} (eventsOf t) = (Bytes.split 10 (beforeCarry t)).foldlM (processLine json)
      {} := by
  obtain ⟨seps, hlen, hmem, hspell⟩ := Framing.pieces_spell delimiters t
  have hbefore : beforeCarry t = (List.zipWith (· ++ ·) (eventsOf t) seps).flatten := by
    have hl : (List.zipWith (· ++ ·) (eventsOf t) seps).flatten.length + (carryOf t).length =
        t.length := by
      rw [← List.length_append]
      exact congrArg List.length hspell
    have ha : t.length - (carryOf t).length =
        (List.zipWith (· ++ ·) (eventsOf t) seps).flatten.length := by omega
    rw [beforeCarry, ha]
    exact (congrArg (List.take _) hspell.symm).trans List.take_left
  rw [hbefore]
  exact processAll_lines json {} _ seps hlen hmem

/-- The chunks of a stream are processed as the lines before its carry. -/
theorem feedAll_cases (chunks : List Bytes) :
    (∃ events s s', feedAll json {} chunks = .ok (events, s) ∧ s'.core = s.core ∧
        (Bytes.split 10 (beforeCarry chunks.flatten)).foldlM (processLine json) {} = .ok s') ∨
      ∃ e e', feedAll json {} chunks = .error e ∧
        (Bytes.split 10 (beforeCarry chunks.flatten)).foldlM (processLine json) {} = .error e' := by
  have hsettle := feedAll_eq json {} chunks (by decide)
  rw [← processAll_beforeCarry]
  change settle _ = settle (scan json {} chunks.flatten) at hsettle
  rw [scan] at hsettle
  cases hf : feedAll json {} chunks with
  | error e =>
    cases hp : processAll json {} (eventsOf chunks.flatten) with
    | error e' => exact .inr ⟨e, e', rfl, rfl⟩
    | ok s' =>
      rw [hf, hp] at hsettle
      cases hsettle
  | ok r =>
    cases hp : processAll json {} (eventsOf chunks.flatten) with
    | error e' =>
      rw [hf, hp] at hsettle
      cases hsettle
    | ok s' =>
      rw [hf, hp] at hsettle
      have hcore := congrArg (fun r => r.map Prod.snd) hsettle
      exact .inl ⟨r.1, r.2, s', rfl, (congrArg core (Except.ok.inj hcore)).symm, rfl⟩

theorem feedAll_ok_iff (chunks : List Bytes) :
    (∃ r, feedAll json {} chunks = .ok r) ↔
      ∀ l ∈ Bytes.split 10 (beforeCarry chunks.flatten), HarmlessLine json l := by
  rw [← foldlM_lines_ok_iff json {}]
  rcases feedAll_cases json chunks with ⟨events, s, s', hf, -, hp⟩ | ⟨e, e', hf, hp⟩ <;>
    rw [hf, hp] <;> simp

/-! ## What the scanner counts -/

/-- The body of a `data:` line. -/
def lineBody (rawLine : Bytes) : Option Bytes :=
  let line := Bytes.rstrip 13 rawLine
  if bytes "data:" <+: line then some (Bytes.strip (line.drop (bytes "data:").length)) else none

def isDone (rawLine : Bytes) : Bool := lineBody rawLine = some (bytes "[DONE]")

/-- A data line other than `[DONE]`. -/
def isData (rawLine : Bytes) : Bool :=
  (lineBody rawLine).any fun body => body ≠ [] && body ≠ bytes "[DONE]"

/-- The stream has completed an event with the line `[DONE]`. -/
def completedDone (stream : Bytes) : Bool := (Bytes.split 10 (beforeCarry stream)).any isDone

/-- How many data lines other than `[DONE]` the completed events of the stream have. -/
def completedData (stream : Bytes) : Nat := (Bytes.split 10 (beforeCarry stream)).countP isData

theorem extract_counts {s s' : SseScanner} {body : Bytes} (h : extract json s body = .ok s') :
    s'.sawDone = s.sawDone ∧ s'.dataEvents = s.dataEvents := by
  obtain ⟨s₁, h₁, h⟩ : ∃ s₁, extractUsage json s body = .ok s₁ ∧
    extractFinishReason json s₁ body = .ok s' := by
    unfold extract at h
    cases hu : extractUsage json s body with
    | error e =>
      rw [hu] at h
      cases h
    | ok s₁ =>
      rw [hu] at h
      exact ⟨s₁, rfl, h⟩
  have husage : s₁.sawDone = s.sawDone ∧ s₁.dataEvents = s.dataEvents := by
    unfold extractUsage at h₁
    repeat' split at h₁
    all_goals cases h₁
    all_goals exact ⟨rfl, rfl⟩
  have hfinish : s'.sawDone = s₁.sawDone ∧ s'.dataEvents = s₁.dataEvents := by
    unfold extractFinishReason at h
    repeat' split at h
    all_goals cases h
    all_goals exact ⟨rfl, rfl⟩
  exact ⟨hfinish.1.trans husage.1, hfinish.2.trans husage.2⟩

theorem processLine_counts {s s' : SseScanner} {rawLine : Bytes}
    (h : processLine json s rawLine = .ok s') :
    s'.sawDone = (s.sawDone || isDone rawLine) ∧
    s'.dataEvents = s.dataEvents + if isData rawLine then 1 else 0 := by
  unfold processLine at h
  unfold isDone isData lineBody
  dsimp only at h ⊢
  split at h
  · rename_i hdata
    cases h
    simp [hdata]
  rename_i hdata
  rw [not_not] at hdata
  rw [if_pos hdata]
  split at h
  · rename_i hempty
    cases h
    have hne : ¬ ([] : Bytes) = bytes "[DONE]" := by decide
    simp [hempty, hne]
  split at h
  · rename_i hdone
    cases h
    simp [hdone]
  · rename_i hempty hdone
    obtain ⟨hsaw, hevents⟩ := extract_counts json h
    simp [hempty, hdone, hsaw, hevents]

theorem foldlM_counts {s s' : SseScanner} {lines : List Bytes}
    (h : lines.foldlM (processLine json) s = .ok s') :
    s'.sawDone = (s.sawDone || lines.any isDone) ∧
    s'.dataEvents = s.dataEvents + lines.countP isData := by
  induction lines generalizing s with
  | nil =>
    cases h
    simp
  | cons line lines ih =>
    rw [List.foldlM_cons] at h
    cases hline : processLine json s line with
    | error e =>
      rw [hline] at h
      cases h
    | ok s₁ =>
      rw [hline] at h
      obtain ⟨hdone, hdata⟩ := processLine_counts json hline
      obtain ⟨hdones, hdatas⟩ := ih h
      rw [hdones, hdatas, hdone, hdata, List.any_cons, Bool.or_assoc, List.countP_cons]
      exact ⟨rfl, by omega⟩

/-- **What the scanner has seen of a stream.** -/
theorem feedAll_counts {chunks events : List Bytes} {s : SseScanner}
    (h : feedAll json {} chunks = .ok (events, s)) :
    s.sawDone = completedDone chunks.flatten ∧ s.dataEvents = completedData chunks.flatten := by
  rcases feedAll_cases json chunks with ⟨events', s₁, s', hf, hcore, hp⟩ | ⟨e, e', hf, -⟩
  · rw [hf] at h
    cases h
    obtain ⟨hdone, hdata⟩ := foldlM_counts json hp
    have hdone' : s'.sawDone = s.sawDone := by
      change s'.core.sawDone = s.core.sawDone
      rw [hcore]
    have hdata' : s'.dataEvents = s.dataEvents := by
      change s'.core.dataEvents = s.core.dataEvents
      rw [hcore]
    rw [← hdone', ← hdata', hdone, hdata]
    exact ⟨Bool.false_or _, Nat.zero_add _⟩
  · rw [hf] at h
    cases h

theorem feedAll_concat (s : SseScanner) (chunks : List Bytes) (chunk : Bytes) :
    feedAll json s (chunks ++ [chunk]) = do
      let (events, s) ← feedAll json s chunks
      let (later, s) ← feed json s chunk
      return (events ++ later, s) := by
  induction chunks generalizing s with
  | nil =>
    simp only [List.nil_append, feedAll, bind, Except.bind, pure, Except.pure]
    cases feed json s chunk with
    | error e => rfl
    | ok r => simp
  | cons c chunks ih =>
    simp only [List.cons_append, feedAll, ih, bind, Except.bind, pure, Except.pure]
    cases feed json s c with
    | error e => rfl
    | ok r =>
      dsimp only
      cases feedAll json r.2 chunks with
      | error e => rfl
      | ok r' =>
        dsimp only
        cases feed json r'.2 chunk with
        | error e => rfl
        | ok r'' => simp

end
end SseScanner
end EasyModelGate
