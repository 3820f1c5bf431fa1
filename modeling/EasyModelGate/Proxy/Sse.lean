import EasyModelGate.Python.Json

/-! # `proxy/sse.py`: the read-only incremental SSE scanner

An exception leaves the scanner as it was when it was raised: `relay_gen` still reads it then, so
the error carries the state. -/

namespace EasyModelGate

/-- `choices = obj.get("choices") or [{}]` and then `choices[0].get("finish_reason")`, which the
scanner and the non-streaming branch of `forward_chat` share word for word. -/
def firstFinishReason (obj : Json) : Except PyExn Json := do
  let choices ← obj.get (str "choices")
  let choices := if choices.truthy then choices else .arr [.obj []]
  (← choices.item0).get (str "finish_reason")

structure SseScanner where
  carry : Bytes := []
  dataEvents : Nat := 0
  sawDone : Bool := false
  /-- A `dict` or `None`. -/
  usage : Option Json := none
  finishReason : Option Str := none

namespace SseScanner

abbrev Result (α : Type) := Except (PyExn × SseScanner) α

/-- The two event delimiters. -/
def lfLf : Bytes := bytes "\n\n"
def crlfCrlf : Bytes := bytes "\r\n\r\n"

/-- `_find_cut`: start and length of the earliest delimiter. -/
def findCut (carry : Bytes) : Option (ℕ ×ₗ ℕ) :=
  let candidates : List (ℕ ×ₗ ℕ) :=
    ((Framing.find lfLf carry).map fun i => toLex (i, 2)).toList ++
      ((Framing.find crlfCrlf carry).map fun i => toLex (i, 4)).toList
  candidates.min?

section
variable (json : JsonCodec)

/-- The first half of `_extract`: only a `ValueError` of `json.loads` is caught. -/
def extractUsage (s : SseScanner) (body : Bytes) : Result SseScanner :=
  if Bytes.contains (bytes "\"usage\"") body then
    match json.loads body with
    | .ok obj =>
      match obj with
      | .obj items =>
        match Json.lookup (str "usage") items with
        | some (.obj usage) => .ok { s with usage := some (.obj usage) }
        | _ => .ok s
      | _ => .ok s
    | .error .valueError => .ok s
    | .error e => .error (e, s)
  else .ok s

/-- The second half of `_extract`: here nothing asks whether `obj` is a `dict`. -/
def extractFinishReason (s : SseScanner) (body : Bytes) : Result SseScanner :=
  if Bytes.contains (bytes "\"finish_reason\"") body ∧
      ¬ Bytes.contains (bytes "\"finish_reason\":null") body then
    match json.loads body with
    | .ok obj =>
      match firstFinishReason obj with
      | .ok fr =>
        match fr.asStr? with
        | some fr => .ok { s with finishReason := some fr }
        | none => .ok s
      | .error e => .error (e, s)
    | .error .valueError => .ok s
    | .error e => .error (e, s)
  else .ok s

def extract (s : SseScanner) (body : Bytes) : Result SseScanner := do
  extractFinishReason json (← extractUsage json s body) body

/-- What `_process` does with one line of an event. -/
def processLine (s : SseScanner) (rawLine : Bytes) : Result SseScanner :=
  let line := Bytes.rstrip 13 rawLine
  if ¬ bytes "data:" <+: line then .ok s
  else
    let body := Bytes.strip (line.drop (bytes "data:").length)
    if body = [] then .ok s
    else if body = bytes "[DONE]" then .ok { s with sawDone := true }
    else extract json { s with dataEvents := s.dataEvents + 1 } body

/-- `_process` (its local `saw_data` has no effect). -/
def process (s : SseScanner) (event : Bytes) : Result SseScanner :=
  (Bytes.split 10 event).foldlM (processLine json) s

/-- The `while True` loop of `feed`, given as many turns as it can need. -/
def drain : Nat → SseScanner → List Bytes → Result (List Bytes × SseScanner)
  | 0, s, events => .ok (events, s)
  | turns + 1, s, events =>
    match findCut s.carry with
    | none => .ok (events, s)
    | some cut => do
      let idx := (ofLex cut).1
      let dlen := (ofLex cut).2
      let event := s.carry.take idx
      let s ← process json { s with carry := s.carry.drop (idx + dlen) } event
      drain turns s (events ++ [event])

/-- `feed`: the complete events of this call; the tail stays in `carry`. -/
def feed (s : SseScanner) (chunk : Bytes) : Result (List Bytes × SseScanner) :=
  let carry := s.carry ++ chunk
  drain json (carry.length + 1) { s with carry := carry } []

/-- Feeding chunks one after the other, up to the first exception. -/
def feedAll (s : SseScanner) : List Bytes → Result (List Bytes × SseScanner)
  | [] => .ok ([], s)
  | chunk :: chunks => do
    let (events, s) ← feed json s chunk
    let (later, s) ← feedAll s chunks
    return (events ++ later, s)

end
end SseScanner
end EasyModelGate
