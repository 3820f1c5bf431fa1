import EasyModelGate.Db.Sql
import EasyModelGate.Web.Javascript

/-! # The forms of `web/static/keys.js`, and `getFormData` of `web/static/admin.js`

A form is its controls in tree order. The handlers of the two forms are what they send. -/

namespace EasyModelGate

inductive ControlType
  | select | text | number | checkbox
  deriving DecidableEq

structure Control where
  type : ControlType
  id : Str := []
  name : Str
  /-- That of the chosen option; a checkbox without a value attribute has `on`. -/
  value : Str := []
  checked : Bool := false
  disabled : Bool := false
  /-- `dataset.linkedInput` -/
  linkedInput : Option Str := none
  /-- `dataset.omitIfEmpty` -/
  omitIfEmpty : Option Str := none

abbrev Form := List Control

namespace Form

/-- `new FormData(form).entries()`: disabled controls and unchecked boxes are left out. -/
def entries (form : Form) : List (Str × Str) :=
  (form.filter fun c => !c.disabled && (c.type ≠ .checkbox || c.checked)).map fun c =>
    (c.name, c.value)

/-- `form.querySelector('[name="…"]')` -/
def byName (form : Form) (name : Str) : Option Control := form.find? (·.name = name)

/-- One entry in the loop of `getFormData`. -/
def addEntry (form : Form) (data : JsObject) (entry : Str × Str) : JsObject :=
  match form.byName entry.1 with
  | none => data.set entry.1 (.str entry.2)
  | some input =>
    if input.omitIfEmpty = some (str "true") ∧ entry.2 = [] then data
    else match input.linkedInput.filter fun linked => input.type = .checkbox ∧ linked ≠ [] with
      | none => data.set entry.1 (.str entry.2)
      | some linkedInput =>
        match form.byName linkedInput with
        | none => data
        | some linked =>
          let n := JsValue.num (Js.parseInt linked.value)
          data.set entry.1 (if input.checked then .null else if n.truthy then n else .null)

def getFormData (form : Form) : JsObject := form.entries.foldl form.addEntry []

end Form

/-! ## A limit: its input and its checkbox -/

/-- The value of a valid floating-point number of HTML, which has no spaces, no plus sign and no dot
without a digit after it. -/
def numberValue? (s : Str) : Option ℚ :=
  let dangling := (s.zip (s.drop 1 ++ [0x20])).any fun p => p.1 = 0x2E &&
    !(0x30 ≤ p.2.val && p.2.val ≤ 0x39)
  if s.any Js.isSpace ∨ s.head? = some 0x2B ∨ dangling then none
    else (numericLiteral s).map Prod.fst

/-- What a number input makes of a text. -/
def sanitizeNumber (s : Str) : Str := if (numberValue? s).isSome then s else []

/-- The input of a limit and its box. -/
structure LimitField where
  value : Str
  disabled : Bool
  unlimited : Bool

inductive FieldEvent
  /-- The box is clicked. -/
  | toggle
  /-- The input, if it is not disabled, gets a text. -/
  | enter (text : Str)

namespace LimitField

/-- As it is rendered for the limit of a key, after the initial sync: a limit of 0 is not shown. -/
def rendered (limit : Option Int) : LimitField where
  value := ((limit.filter (· ≠ 0)).map fun n => Js.toString (PyFloat.round n)).getD []
  disabled := limit.isNone
  unlimited := limit.isNone

/-- The `change` listeners, and typing. -/
def step (f : LimitField) : FieldEvent → LimitField
  | .toggle =>
    { value := if f.unlimited then f.value else [], disabled := !f.unlimited,
      unlimited := !f.unlimited }
  | .enter text => if f.disabled then f else { f with value := sanitizeNumber text }

/-- The two controls. The box names the input by its id. -/
def controls (id name : String) (f : LimitField) : List Control := [
  { type := .number, id := str id, name := str name, value := f.value, disabled := f.disabled },
  { type := .checkbox, name := str name ++ str "_unlimited", value := str "on",
    checked := f.unlimited
    linkedInput := some (str id) }]

end LimitField

/-! ## The two forms -/

/-- `#key-limits-form` -/
def keyLimitsForm (rpm tokenLimit : LimitField) : Form :=
  rpm.controls "edit-rpm" "rpm" ++ tokenLimit.controls "edit-token-limit" "token_limit"

/-- The state of `#create-key-form`. -/
structure CreateKeyState where
  /-- The id of the chosen user. -/
  user : Nat
  name : Str
  rpm : LimitField
  tokenLimit : LimitField
  expiresInDays : Str
  /-- The texts of a form are scalar values. -/
  name_valid : name.valid = true

/-- The value of the chosen option: the options have the ids of the users. -/
def CreateKeyState.option (s : CreateKeyState) : Str := Js.toString (PyFloat.round s.user)

/-- `#create-key-form` -/
def createKeyForm (s : CreateKeyState) : Form :=
  [{ type := .select, id := str "create-key-user", name := str "user_id", value := s.option },
    { type := .text, id := str "create-key-name", name := str "name", value := s.name }] ++
  s.rpm.controls "create-key-rpm" "rpm" ++ s.tokenLimit.controls "create-key-token-limit"
    "token_limit" ++
  [{ type := .number, id := str "create-key-expires", name := str "expires_in_days",
     value := s.expiresInDays }]

/-- The body that `handleManageKeyAction` sends for `save-limits`. -/
def saveLimitsBody (form : Form) : Json :=
  ((form.getFormData.convert "rpm").convert "token_limit").received

/-- The body that `handleCreateKeyAction` sends. -/
def createKeyBody (form : Form) : Json :=
  ((((form.getFormData.convert "user_id").convert "rpm").convert "token_limit").convert
    "expires_in_days").received

end EasyModelGate
