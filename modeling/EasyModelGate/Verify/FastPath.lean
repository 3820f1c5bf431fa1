import EasyModelGate.Verify.Gateway
import EasyModelGate.Verify.Sse

/-! # The scanner's fast path

`_extract` decodes an event only where some byte patterns stand in it. Where the object has
something to read, the patterns decide whether it is read as the branch of `forward_chat` that does
not stream reads it. -/

namespace EasyModelGate

/-- `choices`, if present, is a list of objects. -/
def listsChoices (items : List (Str × Json)) : Bool :=
  match Json.lookup (str "choices") items with
  | none => true
  | some (.arr xs) => xs.all Json.isDict
  | some _ => false

/-- The `usage` of the object, when it is an object. -/
def usage? (items : List (Str × Json)) : Option Json :=
  (Json.lookup (str "usage") items).filter Json.isDict

/-- The finish reason of the first choice, when it is a string. -/
def finishReason? (items : List (Str × Json)) : Option Str :=
  (firstFinishReason (.obj items)).toOption.bind Json.asStr?

/-- The scanner takes from the event what the other branch reads from the same bytes, and keeps the
rest of its state. -/
def SameReading (env : RelayEnv) (body : Bytes) : Prop :=
  ∃ usage fr, parseContent env body = .ok (usage, fr) ∧ ∀ s : SseScanner,
    SseScanner.extract env.json s body =
      .ok { s with usage := usage.or s.usage, finishReason := fr.or s.finishReason }

def usagePattern (body : Bytes) : Bool := Bytes.contains (bytes "\"usage\"") body

/-- The key stands somewhere, and nowhere with a bare `null`. -/
def finishReasonPattern (body : Bytes) : Bool :=
  Bytes.contains (bytes "\"finish_reason\"") body &&
    !Bytes.contains (bytes "\"finish_reason\":null") body

/-- The patterns are there for what the object has to say. -/
structure Patterned (body : Bytes) (items : List (Str × Json)) : Prop where
  usage : (usage? items).isSome → usagePattern body = true
  finishReason : (finishReason? items).isSome → finishReasonPattern body = true

section
variable {env : RelayEnv} {body : Bytes} {items : List (Str × Json)}

theorem readable_of_listsChoices (h : listsChoices items = true) :
    SseScanner.readable (.obj items) := by
  refine ⟨items, rfl, ?_⟩
  unfold listsChoices at h
  split at h
  · rename_i hnone
    rw [hnone]
    exact .inl rfl
  · rename_i xs hsome
    rw [hsome]
    cases xs with
    | nil => exact .inl rfl
    | cons x xs =>
      rw [List.all_cons, Bool.and_eq_true] at h
      cases x with
      | obj first => exact .inr ⟨first, xs, rfl⟩
      | _ => exact absurd h.1 Bool.false_ne_true
  · exact absurd h Bool.false_ne_true

/-- What the branch that does not stream reads. -/
theorem parseContent_obj (hloads : env.json.loads body = .ok (.obj items))
    (hchoices : listsChoices items = true) :
    parseContent env body = .ok (usage? items, finishReason? items) := by
  obtain ⟨fr, hfr⟩ :=
    (SseScanner.firstFinishReason_ok_iff _).mpr (readable_of_listsChoices hchoices)
  unfold parseContent usage? finishReason?
  rw [hloads, hfr]
  simp only [Json.get, hfr, bind, Except.bind, pure, Except.pure, Except.toOption]
  cases Json.lookup (str "usage") items with
  | none => rfl
  | some u => cases hu : u.isDict <;> simp [Option.filter, hu]

theorem extractUsage_obj (s : SseScanner) (hloads : env.json.loads body = .ok (.obj items)) :
    SseScanner.extractUsage env.json s body =
      .ok { s with usage := (if usagePattern body then usage? items else none).or s.usage } := by
  unfold SseScanner.extractUsage usage? usagePattern
  split
  · rw [hloads]
    dsimp only
    cases hu : Json.lookup (str "usage") items with
    | none => rfl
    | some u => cases u <;> rfl
  · rfl

theorem extractFinishReason_obj (s : SseScanner) (hloads : env.json.loads body = .ok (.obj items))
    (hchoices : listsChoices items = true) :
    SseScanner.extractFinishReason env.json s body = .ok { s with
      finishReason := (if finishReasonPattern body then finishReason? items else none).or
        s.finishReason } := by
  obtain ⟨fr, hfr⟩ :=
    (SseScanner.firstFinishReason_ok_iff _).mpr (readable_of_listsChoices hchoices)
  have hpattern : (Bytes.contains (bytes "\"finish_reason\"") body = true ∧
      ¬ Bytes.contains (bytes "\"finish_reason\":null") body = true) ↔
      finishReasonPattern body = true := by
    rw [finishReasonPattern, Bool.and_eq_true, Bool.not_eq_true', Bool.not_eq_true]
  unfold SseScanner.extractFinishReason finishReason?
  simp only [hpattern]
  split
  · rw [hloads, hfr]
    dsimp only
    rw [hfr]
    cases hstr : fr.asStr? <;> simp [hstr, Except.toOption]
  · rfl

/-- What the scanner reads of the object where the patterns are. -/
theorem extract_obj (s : SseScanner) (hloads : env.json.loads body = .ok (.obj items))
    (hchoices : listsChoices items = true) :
    SseScanner.extract env.json s body = .ok { s with
      usage := (if usagePattern body then usage? items else none).or s.usage
      finishReason := (if finishReasonPattern body then finishReason? items else none).or
        s.finishReason } := by
  unfold SseScanner.extract
  rw [extractUsage_obj s hloads]
  exact extractFinishReason_obj _ hloads hchoices

/-- An empty scanner shows what was read. -/
theorem patterned_of_sameReading (hloads : env.json.loads body = .ok (.obj items))
    (hchoices : listsChoices items = true) (h : SameReading env body) : Patterned body items := by
  obtain ⟨usage, fr, hparse, hsame⟩ := h
  cases (parseContent_obj hloads hchoices).symm.trans hparse
  have hempty := (extract_obj {} hloads hchoices).symm.trans (hsame {})
  simp only [Except.ok.injEq, SseScanner.mk.injEq, Option.or_none, true_and] at hempty
  obtain ⟨husage, hfr⟩ := hempty
  constructor
  · intro hsome
    by_contra hc
    rw [if_neg hc] at husage
    rw [← husage] at hsome
    cases hsome
  · intro hsome
    by_contra hc
    rw [if_neg hc] at hfr
    rw [← hfr] at hsome
    cases hsome

end

/-- **The fast path.** For every text that decodes to an object with a list of objects for its
choices, the scanner reads what the branch that does not stream reads exactly when the patterns are
there. -/
theorem fastPath_iff (env : RelayEnv) (body : Bytes) (items : List (Str × Json))
    (hloads : env.json.loads body = .ok (.obj items)) (hchoices : listsChoices items = true) :
    SameReading env body ↔ Patterned body items := by
  have hread {α : Type} {pattern : Bool} {x : Option α} (hx : x.isSome → pattern = true) :
      (if pattern then x else none) = x := by
    split
    · rfl
    · rename_i hc
      exact (Option.not_isSome_iff_eq_none.mp fun hsome => hc (hx hsome)).symm
  refine ⟨patterned_of_sameReading hloads hchoices, fun h => ?_⟩
  refine ⟨_, _, parseContent_obj hloads hchoices, fun s => (extract_obj s hloads hchoices).trans ?_⟩
  rw [hread h.usage, hread h.finishReason]

namespace Sample

/-- The last chunk of a stream, as llama.cpp prints it. -/
def lastChunk : Bytes :=
  bytes "\x7b\"choices\":[\x7b\"finish_reason\":\"stop\"\x7d]" ++
    bytes ",\"usage\":\x7b\"total_tokens\":5\x7d\x7d"

/-- A chunk of two choices, of which the first has ended. -/
def twoChoices : Bytes :=
  bytes "\x7b\"choices\":[\x7b\"finish_reason\":\"stop\"\x7d,\x7b\"finish_reason\":null\x7d]\x7d"

/-- What a text decodes to, if it is an object. -/
def decoded (body : Bytes) : Option (List (Str × Json)) :=
  (relay.json.loads body).toOption.bind fun
    | .obj items => some items
    | _ => none

theorem loads_of_decoded {body : Bytes} {items : List (Str × Json)}
    (h : decoded body = some items) :
    relay.json.loads body = .ok (.obj items) := by
  unfold decoded at h
  cases hl : relay.json.loads body with
  | error e => rw [hl] at h; cases h
  | ok v =>
    rw [hl] at h
    cases v <;> cases h
    rfl

end Sample

theorem fastPath_lastChunk : SameReading Sample.relay Sample.lastChunk := by
  have htest : (Sample.decoded Sample.lastChunk).any (fun items => listsChoices items) = true := by
    decide +kernel
  obtain ⟨items, hitems, hchoices⟩ := (Option.any_eq_true ..).mp htest
  apply (fastPath_iff _ _ items (Sample.loads_of_decoded hitems) hchoices).mpr
  exact ⟨fun _ => by decide +kernel, fun _ => by decide +kernel⟩

/-- The first choice has ended, and the scanner does not see it. -/
theorem finishReason_skipped : ¬ ∀ (env : RelayEnv) (body : Bytes) (items : List (Str × Json)),
    env.json.loads body = .ok (.obj items) → listsChoices items = true → SameReading env body := by
  intro hall
  have htest : (Sample.decoded Sample.twoChoices).any (fun items =>
      listsChoices items && (finishReason? items).isSome) = true := by decide +kernel
  obtain ⟨items, hitems, htest⟩ := (Option.any_eq_true ..).mp htest
  rw [Bool.and_eq_true] at htest
  have hloads := Sample.loads_of_decoded hitems
  have hpatterned := patterned_of_sameReading hloads htest.1 (hall _ _ items hloads htest.1)
  have hpattern : finishReasonPattern Sample.twoChoices = false := by decide +kernel
  rw [hpatterned.finishReason htest.2] at hpattern
  exact absurd hpattern.symm Bool.false_ne_true

end EasyModelGate
