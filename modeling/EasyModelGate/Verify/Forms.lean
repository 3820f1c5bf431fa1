import EasyModelGate.Verify.Javascript
import EasyModelGate.Web.Forms

/-! # What the forms of keys send

A limit is sent if its input is not disabled; its box, which names no control, adds nothing. -/

namespace EasyModelGate

/-! ## The states of a limit -/

namespace LimitField

/-- A state that the page can reach. -/
def Reached (f : LimitField) : Prop := ∃ limit events, f = List.foldl step (rendered limit) events

/-- A checked box disables its input and empties it. -/
structure Synced (f : LimitField) : Prop where
  disabled : f.disabled = f.unlimited
  emptied : f.unlimited = true → f.value = []

theorem Synced.step {f : LimitField} (h : f.Synced) (e : FieldEvent) : (f.step e).Synced := by
  cases e with
  | toggle =>
    refine ⟨rfl, fun hbox => ?_⟩
    have hoff : f.unlimited = false := by simpa [LimitField.step] using hbox
    simp [LimitField.step, hoff]
  | enter text =>
    cases hdisabled : f.disabled with
    | true =>
      have hstep : f.step (.enter text) = f := if_pos hdisabled
      rwa [hstep]
    | false =>
      have hstep : f.step (.enter text) = { f with value := sanitizeNumber text } :=
        if_neg (Bool.eq_false_iff.mp hdisabled)
      rw [hstep]
      refine ⟨h.disabled, fun hbox => ?_⟩
      cases hdisabled.symm.trans (h.disabled.trans hbox)

theorem synced_rendered (limit : Option Int) : (rendered limit).Synced := by
  refine ⟨rfl, fun hbox => ?_⟩
  cases limit with
  | none => rfl
  | some n => cases hbox

theorem Reached.synced {f : LimitField} (h : f.Reached) : f.Synced := by
  obtain ⟨limit, events, rfl⟩ := h
  induction events using List.reverseRecOn with
  | nil => exact synced_rendered limit
  | append_singleton events e ih =>
    rw [List.foldl_append]
    exact ih.step e

/-- What the form shows: no limit, or a positive integer that has been typed. -/
def Shows (f : LimitField) : Option Int → Prop
  | none => f.unlimited = true
  | some n => f.unlimited = false ∧ numberValue? f.value = some (n : ℚ) ∧ 0 < n

end LimitField

/-! ## The bodies -/

namespace JsObject

theorem set_fresh {data : JsObject} {key : Str} (hfresh : key ∉ data.map Prod.fst) (v : JsValue) :
    data.set key v = data ++ [(key, v)] := by
  have hany : ¬ (data.any (·.1 = key)) = true := by
    rw [List.any_eq_true]
    rintro ⟨p, hp, hkey⟩
    exact hfresh (List.mem_map.mpr ⟨p, hp, of_decide_eq_true hkey⟩)
  rw [set, if_neg hany]

/-- A conversion of the values of one key, of which there is one at most. -/
theorem convert_eq {data : JsObject} (hnodup : (data.map Prod.fst).Nodup) (key : String) :
    data.convert key = data.map fun p => if p.1 = str key ∧ p.2.truthy then
      (p.1, .num p.2.parseInt) else p := by
  unfold convert get?
  cases hfind : data.find? (·.1 = str key) with
  | none =>
    have hkeys : ∀ p ∈ data, p.1 ≠ str key := by simpa using hfind
    refine (List.map_id _).symm.trans (List.map_congr_left fun p hp => ?_)
    rw [if_neg fun h => hkeys p hp h.1]
    rfl
  | some p =>
    have hp := List.mem_of_find?_eq_some hfind
    have hkey : p.1 = str key := by simpa using List.find?_some hfind
    have hunique : ∀ p' ∈ data, p'.1 = str key → p' = p := fun p' hp' hkey' =>
      List.inj_on_of_nodup_map hnodup hp' hp (hkey'.trans hkey.symm)
    dsimp only [Option.map_some]
    split
    · rename_i htruthy
      rw [set, if_pos (List.any_eq_true.mpr ⟨p, hp, decide_eq_true hkey⟩)]
      refine List.map_congr_left fun p' hp' => ?_
      by_cases hkey' : p'.1 = str key
      · cases hunique p' hp' hkey'
        rw [if_pos hkey', if_pos ⟨hkey', htruthy⟩, hkey']
      · rw [if_neg hkey', if_neg fun h => hkey' h.1]
    · rename_i htruthy
      refine (List.map_id _).symm.trans (List.map_congr_left fun p' hp' => ?_)
      rw [if_neg fun h : p'.1 = str key ∧ p'.2.truthy = true => htruthy (hunique p' hp' h.1 ▸ h.2)]
      rfl

end JsObject

/-- What the server receives of a text that is converted unless it is empty. -/
def sent (text : Str) : Json := if text = [] then .str []
      else (JsValue.num (Js.parseInt text)).received

namespace Form

/-- The forms of keys: their boxes name no control, and nothing else is linked or omitted. -/
structure Unlinked (form : Form) : Prop where
  nodup : (form.map Control.name).Nodup
  omits : ∀ c ∈ form, c.omitIfEmpty = none
  linked : ∀ c ∈ form, ∀ l, c.linkedInput = some l → c.type = .checkbox ∧ l ≠ [] ∧
    form.byName l = none

/-- The controls that have an entry in the data. -/
def sending (form : Form) : List Control :=
  form.filter fun c => (!c.disabled && (c.type ≠ .checkbox || c.checked)) && c.linkedInput.isNone

variable {form : Form}

theorem Unlinked.byName (h : form.Unlinked) {c : Control} (hc : c ∈ form) :
    form.byName c.name = some c := by
  cases hfind : form.byName c.name with
  | none => exact absurd (List.find?_eq_none.mp hfind c hc) (by simp)
  | some c' =>
    have hname : c'.name = c.name := by simpa using List.find?_some hfind
    rw [List.inj_on_of_nodup_map h.nodup (List.mem_of_find?_eq_some hfind) hc hname]

theorem Unlinked.getFormData (h : form.Unlinked) :
    form.getFormData = form.sending.map fun c => (c.name, .str c.value) := by
  have hloop : ∀ cs : List Control, cs.Sublist form →
      (cs.map fun c => (c.name, c.value)).foldl form.addEntry [] =
      (cs.filter (·.linkedInput.isNone)).map fun c => (c.name, .str c.value) := fun cs => by
    induction cs using List.reverseRecOn with
    | nil => exact fun _ => rfl
    | append_singleton cs c ih =>
      intro hsub
      have hc : c ∈ form := hsub.subset (List.mem_append_right _ (List.mem_singleton_self c))
      have hnodup : ((cs ++ [c]).map Control.name).Nodup := h.nodup.sublist (hsub.map _)
      have hfresh : c.name ∉ ((cs.filter (·.linkedInput.isNone)).map fun c =>
            (c.name, JsValue.str c.value)).map Prod.fst := by
        rw [List.map_map]
        intro hmem
        obtain ⟨c', hc', hname⟩ := List.mem_map.mp hmem
        rw [List.map_append, List.map_singleton] at hnodup
        exact (List.nodup_append.mp hnodup).2.2
          _ (List.mem_map_of_mem (List.mem_of_mem_filter hc')) _ (List.mem_singleton_self _) hname
      rw [List.map_append, List.foldl_append, ih ((List.sublist_append_left cs [c]).trans hsub),
        List.filter_append, List.map_append]
      change form.addEntry _ (c.name, c.value) = _
      rw [addEntry, h.byName hc]
      dsimp only
      rw [if_neg (by simp [h.omits c hc])]
      cases hlinked : c.linkedInput with
      | none =>
        simp only [Option.filter_none, JsObject.set_fresh hfresh]
        simp [hlinked]
      | some l =>
        obtain ⟨htype, hne, hnone⟩ := h.linked c hc l hlinked
        simp [Option.filter_some, hlinked, htype, hne, hnone]
  have hsending :
      form.sending = (form.filter fun c => !c.disabled && (c.type ≠ .checkbox || c.checked)).filter
      (·.linkedInput.isNone) := by
    rw [List.filter_filter, sending]
    simp only [Bool.and_comm]
  rw [hsending]
  exact hloop _ List.filter_sublist

theorem Unlinked.converted (h : form.Unlinked) {keys : List String} (hkeys : (keys.map str).Nodup) :
    keys.foldl JsObject.convert form.getFormData = form.sending.map fun c =>
      (c.name, if c.name ∈ keys.map str ∧ c.value ≠ [] then .num (Js.parseInt c.value)
          else .str c.value) := by
  have hnames : (form.sending.map Control.name).Nodup := h.nodup.sublist (List.filter_sublist.map _)
  induction keys using List.reverseRecOn with
  | nil => simpa using h.getFormData
  | append_singleton keys key ih =>
    rw [List.map_append, List.map_singleton] at hkeys
    obtain ⟨hdone, -, hnew⟩ := List.nodup_append.mp hkeys
    have hfresh : str key ∉ keys.map str :=
      fun hmem => hnew _ hmem _ (List.mem_singleton_self _) rfl
    rw [List.foldl_append, ih hdone, List.foldl_cons, List.foldl_nil,
      JsObject.convert_eq (by rw [List.map_map]; exact hnames), List.map_map]
    refine List.map_congr_left fun c _ => ?_
    dsimp only [Function.comp]
    by_cases hkey : c.name = str key
    · simp only [hkey, hfresh, false_and, if_false, JsValue.truthy, JsValue.parseInt]
      simp only [List.map_append, List.map_singleton, List.mem_append, List.mem_singleton,
        or_true, true_and, decide_eq_true_eq]
      split <;> rfl
    · simp [hkey]

/-- What the server receives of the form, when the values of some keys are converted. -/
theorem Unlinked.received (h : form.Unlinked) (keys : List String) (hkeys : (keys.map str).Nodup) :
    (keys.foldl JsObject.convert form.getFormData).received =
      .obj (form.sending.map fun c => (c.name, if c.name ∈ keys.map str then sent c.value
        else .str c.value)) := by
  rw [h.converted hkeys, JsObject.received, List.map_map]
  refine congrArg Json.obj (List.map_congr_left fun c _ => ?_)
  dsimp only [Function.comp]
  by_cases hkey : c.name ∈ keys.map str
  · by_cases hempty : c.value = []
    · simp [hempty, sent, JsValue.received]
    · simp only [hkey, hempty, sent, if_true, if_false, ne_eq, not_false_eq_true, and_self]
  · simp [hkey, JsValue.received]

end Form

namespace LimitField

/-- The member of a body that a limit becomes. -/
def member (f : LimitField) : Option Json := if f.disabled then none else some (sent f.value)

def members (f : LimitField) (name : String) : List (Str × Json) :=
  f.member.toList.map fun v => (str name, v)

end LimitField

theorem saveLimitsBody_eq (rpm tokenLimit : LimitField) :
    saveLimitsBody (keyLimitsForm rpm tokenLimit) =
      .obj (rpm.members "rpm" ++ tokenLimit.members "token_limit") := by
  have hunlinked : (keyLimitsForm rpm tokenLimit).Unlinked := by
    refine ⟨?_, fun c hc => ?_, fun c hc l hl => ?_⟩
    · change List.Nodup [str "rpm", str "rpm" ++ str "_unlimited", str "token_limit",
        str "token_limit" ++ str "_unlimited"]
      decide
    all_goals
      simp only [keyLimitsForm, LimitField.controls, List.cons_append, List.nil_append,
        List.mem_cons, List.not_mem_nil, or_false] at hc
    · rcases hc with rfl | rfl | rfl | rfl <;> rfl
    · rcases hc with rfl | rfl | rfl | rfl <;> cases hl <;> exact ⟨rfl, by decide, rfl⟩
  have hbody : saveLimitsBody (keyLimitsForm rpm tokenLimit) =
      (["rpm", "token_limit"].foldl JsObject.convert
    (keyLimitsForm rpm tokenLimit).getFormData).received := rfl
  rw [hbody, hunlinked.received _ (by decide)]
  obtain ⟨rv, rd, ru⟩ := rpm
  obtain ⟨tv, td, tu⟩ := tokenLimit
  cases rd <;> cases ru <;> cases td <;> cases tu <;> rfl

/-- The members of the optional fields. -/
def CreateKeyState.members (s : CreateKeyState) : List (Str × Json) :=
  s.rpm.members "rpm" ++ s.tokenLimit.members "token_limit" ++
    [(str "expires_in_days", sent s.expiresInDays)]

theorem createKeyBody_eq (s : CreateKeyState) : createKeyBody (createKeyForm s) =
    .obj ([(str "user_id", sent s.option), (str "name", .str s.name)] ++ s.members) := by
  have hunlinked : (createKeyForm s).Unlinked := by
    refine ⟨?_, fun c hc => ?_, fun c hc l hl => ?_⟩
    · change List.Nodup [str "user_id", str "name", str "rpm", str "rpm" ++ str "_unlimited",
        str "token_limit", str "token_limit" ++ str "_unlimited", str "expires_in_days"]
      decide
    all_goals
      simp only [createKeyForm, LimitField.controls, List.cons_append, List.nil_append,
        List.mem_cons, List.not_mem_nil, or_false] at hc
    · rcases hc with rfl | rfl | rfl | rfl | rfl | rfl | rfl <;> rfl
    · rcases hc with rfl | rfl | rfl | rfl | rfl | rfl | rfl <;> cases hl <;>
        exact ⟨rfl, by decide, rfl⟩
  have hbody : createKeyBody (createKeyForm s) =
      (["user_id", "rpm", "token_limit", "expires_in_days"].foldl
    JsObject.convert (createKeyForm s).getFormData).received := rfl
  rw [hbody, hunlinked.received _ (by decide)]
  unfold CreateKeyState.members createKeyForm
  generalize s.option = option
  obtain ⟨user, name, ⟨rv, rd, ru⟩, ⟨tv, td, tu⟩, days, -⟩ := s
  cases rd <;> cases ru <;> cases td <;> cases tu <;> rfl

end EasyModelGate
