import EasyModelGate.Verify.Gateway
import EasyModelGate.Verify.Json
import EasyModelGate.Verify.Persist

/-! # The payload that goes upstream

The client's object is decoded, injected into and encoded again. `json.loads` accepts escapes of
lone surrogates, `json.dumps` with `ensure_ascii=False` writes them out as they are, and UTF-8 has
no room for them. -/

namespace EasyModelGate
namespace Json

mutual
/-- Every string in the value is valid Unicode text. -/
def valid : Json → Bool
  | .str s => Str.valid s
  | .arr xs => validElems xs
  | .obj items => validItems items
  | _ => true

def validElems : List Json → Bool
  | [] => true
  | x :: xs => x.valid && validElems xs

def validItems : List (Str × Json) → Bool
  | [] => true
  | (k, v) :: items => Str.valid k && v.valid && validItems items
end

theorem validItems_append (items items' : List (Str × Json)) :
    validItems (items ++ items') = (validItems items && validItems items') := by
  induction items with
  | nil => rfl
  | cons item items ih =>
    obtain ⟨k, v⟩ := item
    simp only [List.cons_append, validItems, ih, Bool.and_assoc]

end Json

/-- `dumps` writes the characters of strings out, at most with escapes for ASCII ones. -/
def JsonCodec.Verbatim (json : JsonCodec) : Prop :=
  ∀ v text, json.dumps v = .ok text → text.valid = true → v.valid = true

/-- `loads` takes back what `dumps` makes of the value. -/
def JsonCodec.TakesBack (json : JsonCodec) (v : Json) : Prop :=
  ∃ text content, json.dumps v = .ok text ∧ text.encodeUtf8 = .ok content ∧
    json.loads content = .ok v

/-! ## The standard library's `dumps` is verbatim -/

namespace Json

theorem valid_escapeChar (c : CodePoint) (h : Str.valid (escapeChar c) = true) :
    Str.isSurrogate c = false := by
  cases hc : Str.isSurrogate c with
  | false => rfl
  | true =>
    simp only [Str.isSurrogate, decide_eq_true_eq] at hc
    have hne (d : CodePoint) (hd : d.val < 0xD800) : c ≠ d := by
      rintro rfl
      omega
    have hplain : escapeChar c = [c] := by
      unfold escapeChar
      rw [if_neg (hne _ (by decide)), if_neg (hne _ (by decide)), if_neg (hne _ (by decide)),
        if_neg (hne _ (by decide)), if_neg (hne _ (by decide)), if_neg (hne _ (by decide)),
        if_neg (hne _ (by decide)), if_neg (by omega)]
    rw [hplain] at h
    simp [Str.valid, Str.isSurrogate, hc] at h

theorem valid_of_dumpsStr {s : Str} (h : Str.valid (dumpsStr s) = true) : Str.valid s = true := by
  simp only [dumpsStr, Str.valid_append, Bool.and_eq_true] at h
  simp only [Str.valid, List.all_eq_true, Bool.not_eq_true']
  intro c hc
  apply valid_escapeChar c
  have hflat := h.1.2
  simp only [Str.valid, List.all_eq_true] at hflat ⊢
  exact fun d hd => hflat d (List.mem_flatMap.mpr ⟨c, hc, hd⟩)

mutual
theorem valid_of_dumpsAt (floatRepr : ℚ → Str) (limit : Nat) :
    ∀ (v : Json) (depth : Nat) (text : Str),
    dumpsAt floatRepr limit depth v = .ok text → Str.valid text = true → v.valid = true
  | .null, _, _, _, _ | .bool _, _, _, _, _ | .int _, _, _, _, _ | .float _, _, _, _, _ => rfl
  | .str s, depth, text, h, hv => by
    cases h
    exact valid_of_dumpsStr hv
  | .arr xs, depth, text, h, hv => by
    simp only [dumpsAt, bind, Except.bind] at h
    split at h
    · cases h
    obtain ⟨elems, helems, h⟩ := Except.bind_eq_ok h
    cases h
    simp only [Str.valid_append, Bool.and_eq_true] at hv
    exact validElems_of_dumpsElems floatRepr limit xs _ _ helems hv.1.2
  | .obj items, depth, text, h, hv => by
    simp only [dumpsAt, bind, Except.bind] at h
    split at h
    · cases h
    obtain ⟨members, hmembers, h⟩ := Except.bind_eq_ok h
    cases h
    simp only [Str.valid_append, Bool.and_eq_true] at hv
    exact validItems_of_dumpsItems floatRepr limit items _ _ hmembers hv.1.2

theorem validElems_of_dumpsElems (floatRepr : ℚ → Str) (limit : Nat) :
    ∀ (xs : List Json) (depth : Nat) (text : Str),
    dumpsElems floatRepr limit depth xs = .ok text → Str.valid text = true → validElems xs = true
  | [], _, _, _, _ => rfl
  | x :: xs, depth, text, h, hv => by
    obtain ⟨first, hfirst, h⟩ := Except.bind_eq_ok h
    obtain ⟨rest, hrest, h⟩ := Except.bind_eq_ok h
    cases h
    simp only [Str.valid_append, Bool.and_eq_true] at hv
    exact Bool.and_eq_true_iff.mpr ⟨valid_of_dumpsAt floatRepr limit x _ _ hfirst hv.1.1,
      validElems_of_dumpsElems floatRepr limit xs _ _ hrest hv.2⟩

theorem validItems_of_dumpsItems (floatRepr : ℚ → Str) (limit : Nat) :
    ∀ (items : List (Str × Json)) (depth : Nat) (text : Str),
    dumpsItems floatRepr limit depth items = .ok text → Str.valid text = true →
    validItems items = true
  | [], _, _, _, _ => rfl
  | (k, v) :: items, depth, text, h, hv => by
    obtain ⟨first, hfirst, h⟩ := Except.bind_eq_ok h
    obtain ⟨rest, hrest, h⟩ := Except.bind_eq_ok h
    cases h
    simp only [Str.valid_append, Bool.and_eq_true] at hv
    obtain ⟨⟨⟨⟨hk, -⟩, hfirst'⟩, -⟩, hrest'⟩ := hv
    simp only [validItems, Bool.and_eq_true]
    exact ⟨⟨valid_of_dumpsStr hk, valid_of_dumpsAt floatRepr limit v _ _ hfirst hfirst'⟩,
      validItems_of_dumpsItems floatRepr limit items _ _ hrest hrest'⟩
end

theorem verbatim_codec (limit : Nat) (floatRepr : ℚ → Str) : (codec limit floatRepr).Verbatim :=
  fun v text h hv => valid_of_dumpsAt floatRepr limit v 0 text h hv

end Json

/-! ## The payload -/

/-- The one key that may be added. -/
def streamOptions : Str × Json := (str "stream_options", .obj [(str "include_usage", .bool true)])

/-- The request is admitted, and its payload decodes to the client's items, with `stream_options`
when the stream is `true` and they are missing. -/
def PayloadPreserved (env : RelayEnv) (req : ChatRequest) (a : Arrival)
    (limiter : FixedWindowRpmLimiter) (items : List (Str × Json)) : Prop :=
  ∃ f since timer limiter' decoded,
    forwardChat env req a limiter = ((.queueing f since timer, []), limiter') ∧
      env.json.loads f.payload = .ok (.obj decoded) ∧
      (Json.lookup (str "stream") items = some (.bool true) ∧
        Json.lookup (str "stream_options") items = none →
        decoded = items ++ [streamOptions]) ∧
      (¬ (Json.lookup (str "stream") items = some (.bool true) ∧
        Json.lookup (str "stream_options") items = none) →
        decoded = items)

theorem isStream_iff {items : List (Str × Json)} :
    isStream items = true ↔ Json.lookup (str "stream") items = some (.bool true) := by
  unfold isStream
  split
  · rename_i h
    exact iff_of_true rfl h
  · rename_i h
    exact iff_of_false Bool.false_ne_true h

theorem maybeInjectUsage_cases (items : List (Str × Json)) :
    (Json.lookup (str "stream") items = some (.bool true) ∧
      Json.lookup (str "stream_options") items = none) ∧
        maybeInjectUsage items = items ++ [streamOptions] ∨
      ¬ (Json.lookup (str "stream") items = some (.bool true) ∧
        Json.lookup (str "stream_options") items = none) ∧
        maybeInjectUsage items = items := by
  have hiff : (isStream items = true ∧ (Json.lookup (str "stream_options") items).isNone = true) ↔
      Json.lookup (str "stream") items = some (.bool true) ∧
      Json.lookup (str "stream_options") items = none := by
    rw [isStream_iff, Option.isNone_iff_eq_none]
  unfold maybeInjectUsage
  split
  · rename_i h
    exact .inl ⟨hiff.mp h, rfl⟩
  · rename_i h
    exact .inr ⟨mt hiff.mpr h, rfl⟩

theorem valid_inject (items : List (Str × Json)) :
    (Json.obj (maybeInjectUsage items)).valid = (Json.obj items).valid := by
  rcases maybeInjectUsage_cases items with ⟨-, h⟩ | ⟨-, h⟩ <;> rw [h]
  have hadded : Json.validItems [streamOptions] = true := by
    simp [Json.validItems, Json.valid, streamOptions]
  change Json.validItems (items ++ [streamOptions]) = _
  rw [Json.validItems_append, hadded, Bool.and_true]
  rfl

/-- What can be encoded is valid. -/
theorem valid_of_encodeBody {json : JsonCodec} {items : List (Str × Json)} {content : Bytes}
    (hv : json.Verbatim) (h : encodeBody json items = .ok content) :
    (Json.obj items).valid = true := by
  obtain ⟨text, htext, hencode⟩ := Except.bind_eq_ok h
  apply hv _ _ htext
  unfold Str.encodeUtf8 at hencode
  split at hencode
  · assumption
  · cases hencode

theorem encodeBody_of_takesBack {json : JsonCodec} {items : List (Str × Json)}
    (h : json.TakesBack (.obj items)) :
    ∃ content, encodeBody json items = .ok content := by
  obtain ⟨text, content, htext, hencode, -⟩ := h
  refine ⟨content, ?_⟩
  rw [encodeBody, htext]
  exact hencode

section
variable {env : RelayEnv} {req : ChatRequest} {a : Arrival} {limiter : FixedWindowRpmLimiter}
  {items : List (Str × Json)}

/-- The client's items have been encoded, for their size. -/
theorem PayloadPreserved.encodes (hread : readBody req = .ok items)
    (h : PayloadPreserved env req a limiter items) :
    ∃ raw, encodeBody env.json items = .ok raw := by
  obtain ⟨f, since, timer, limiter', decoded, hf, -⟩ := h
  have hcases := Admission.of_forwardChat hf
  cases hcases with
  | admitted hb hraw =>
    cases hread.symm.trans hb
    exact ⟨_, hraw⟩

/-- A request that can be encoded, and that the limits let pass, is admitted with its payload. -/
theorem forwardChat_admits (hread : readBody req = .ok items)
    (hadmitted : (checkLimits env a.auth a.clk limiter).1 = none)
    (hraw : encodeBody env.json items = .ok raw)
    (hpayload : encodeBody env.json (maybeInjectUsage items) = .ok payload) :
    ∃ f since timer limiter', forwardChat env req a limiter =
      ((.queueing f since timer, []), limiter') ∧
      f.payload = payload := by
  obtain ⟨pc, effects, limiter', hf⟩ :
    ∃ pc effects limiter', forwardChat env req a limiter = ((pc, effects), limiter') :=
    ⟨_, _, _, rfl⟩
  have hcases := Admission.of_forwardChat hf
  cases hcases with
  | failed hfailed =>
    have hno := hfailed items hread
    rw [encodable, hraw, hpayload] at hno
    simp [Except.isOk, Except.toBool] at hno
  | refused hb hraw' hl =>
    rw [hl] at hadmitted
    cases hadmitted
  | admitted hb hraw' hl hpay hauth hstream ht0 hdl hpayload' =>
    cases hread.symm.trans hb
    cases hpayload.symm.trans hpay
    exact ⟨_, _, _, _, hf, hpayload'⟩

end

/-- **The payload is the client's object**, and nothing else, exactly when its strings are text. The
standard library is assumed to take back what it has written of a valid value. -/
theorem payload_preserved_iff (env : RelayEnv) (req : ChatRequest) (a : Arrival)
    (limiter : FixedWindowRpmLimiter) (items : List (Str × Json)) (hread : readBody req = .ok items)
    (hadmitted : (checkLimits env a.auth a.clk limiter).1 = none) (hverbatim : env.json.Verbatim)
    (hinverse : ∀ v ∈ [Json.obj items, .obj (items ++ [streamOptions])], v.valid = true →
      env.json.TakesBack v) :
    PayloadPreserved env req a limiter items ↔ (Json.obj items).valid = true := by
  constructor
  · intro hpreserved
    obtain ⟨raw, hraw⟩ := hpreserved.encodes hread
    exact valid_of_encodeBody hverbatim hraw
  · intro hvalid
    have hsecond : env.json.TakesBack (.obj (maybeInjectUsage items)) := by
      apply hinverse _ _ ((valid_inject items).trans hvalid)
      rcases maybeInjectUsage_cases items with ⟨-, h⟩ | ⟨-, h⟩ <;> rw [h]
      · exact List.mem_cons_of_mem _ (List.mem_singleton_self _)
      · exact List.mem_cons_self
    obtain ⟨raw, hraw⟩ := encodeBody_of_takesBack (hinverse _ List.mem_cons_self hvalid)
    obtain ⟨text, payload, htext, hencode, hloads⟩ := hsecond
    have hpayload : encodeBody env.json (maybeInjectUsage items) = .ok payload := by
      rw [encodeBody, htext]
      exact hencode
    obtain ⟨f, since, timer, limiter', hf, rfl⟩ := forwardChat_admits hread hadmitted hraw hpayload
    refine ⟨f, since, timer, limiter', maybeInjectUsage items, hf, hloads, fun hinject => ?_,
      fun hinject => ?_⟩
    · rcases maybeInjectUsage_cases items with ⟨-, h⟩ | ⟨hno, -⟩
      · exact h
      · exact absurd hinject hno
    · rcases maybeInjectUsage_cases items with ⟨hyes, -⟩ | ⟨-, h⟩
      · exact absurd hyes hinject
      · exact h

/-- Whether a value is taken back. -/
def JsonCodec.takesBack (json : JsonCodec) (v : Json) : Bool :=
  ((do (← json.dumps v).encodeUtf8 : Except PyExn Bytes).bind json.loads).toOption.any v.same

theorem JsonCodec.takesBack_spec {json : JsonCodec} {v : Json} (h : json.takesBack v = true) :
    json.TakesBack v := by
  unfold takesBack at h
  cases hdumps : json.dumps v with
  | error e => rw [hdumps] at h; exact absurd h Bool.false_ne_true
  | ok text =>
    cases hencode : text.encodeUtf8 with
    | error e =>
      simp only [hdumps, bind, Except.bind, hencode] at h
      exact absurd h Bool.false_ne_true
    | ok content =>
      simp only [hdumps, bind, Except.bind, hencode] at h
      refine ⟨text, content, hdumps, hencode, ?_⟩
      cases hloads : json.loads content with
      | error e => rw [hloads] at h; exact absurd h Bool.false_ne_true
      | ok w =>
        rw [hloads] at h
        rw [Json.eq_of_same h]

namespace Sample

def arrival : Arrival := ⟨0, Auth.context ⟨1, key none⟩ ⟨1, user⟩, clockAt 1⟩

/-- The client's items, if the body passes. -/
def itemsOf (req : ChatRequest) : List (Str × Json) := (readBody req).toOption.getD []

theorem readBody_itemsOf {req : ChatRequest} (h : (readBody req).isOk = true) :
    readBody req = .ok (itemsOf req) := by
  unfold itemsOf
  cases hread : readBody req with
  | error e => rw [hread] at h; exact absurd h Bool.false_ne_true
  | ok items => rfl

/-- A body with the escape of a lone surrogate. -/
def surrogateText : Bytes := bytes "\x7b\"messages\": [\x7b\"content\": \"\\ud800\"\x7d]\x7d"

def surrogateChat : ChatRequest := { chat true with body := relay.json.loads surrogateText }

theorem surrogateChat_body : surrogateChat.body = relay.json.loads surrogateText := by
  simp only [surrogateChat]

end Sample

open Sample in
theorem payload_preserved_stream : PayloadPreserved relay (chat true) arrival {}
      (itemsOf (chat true)) := by
  refine (payload_preserved_iff _ _ _ _ _ (readBody_itemsOf (by decide +kernel)) (by decide +kernel)
    (Json.verbatim_codec _ _) ?_).mpr (by decide +kernel)
  intro v hv _
  rcases List.mem_cons.mp hv with rfl | hv
  · exact JsonCodec.takesBack_spec (by decide +kernel)
  · rw [List.mem_singleton.mp hv]
    exact JsonCodec.takesBack_spec (by decide +kernel)

open Sample in
/-- A lone surrogate is decoded and cannot be encoded. -/
theorem payload_unencodable : ¬ ∀ (env : RelayEnv) (text : Bytes) (req : ChatRequest) (a : Arrival)
    (limiter : FixedWindowRpmLimiter) (items : List (Str × Json)), req.body = env.json.loads text →
    readBody req = .ok items → (checkLimits env a.auth a.clk limiter).1 = none → env.json.Verbatim →
    (∀ v ∈ [Json.obj items, .obj (items ++ [streamOptions])], v.valid = true →
      env.json.TakesBack v) →
    PayloadPreserved env req a limiter items := by
  intro hall
  have hread : readBody surrogateChat = .ok (itemsOf surrogateChat) :=
    readBody_itemsOf (by decide +kernel)
  have hadmitted : (checkLimits relay arrival.auth arrival.clk {}).1 = none := by decide +kernel
  have hinverse : ∀ v ∈ [Json.obj (itemsOf surrogateChat),
        .obj (itemsOf surrogateChat ++ [streamOptions])],
      v.valid = true → relay.json.TakesBack v := by
    intro v hv hvalid
    rcases List.mem_cons.mp hv with rfl | hv
    · exact absurd hvalid (by decide +kernel)
    · rw [List.mem_singleton.mp hv] at hvalid
      exact absurd hvalid (by decide +kernel)
  have hpreserved := hall relay surrogateText surrogateChat arrival {} _ surrogateChat_body
    hread hadmitted (Json.verbatim_codec _ _) hinverse
  obtain ⟨raw, hraw⟩ := hpreserved.encodes hread
  exact absurd (valid_of_encodeBody (Json.verbatim_codec _ _) hraw) (by decide +kernel)

end EasyModelGate
