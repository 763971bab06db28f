import Flowsheet.Value.Parts
import Flowsheet.Value.Reader
import Flowsheet.Web.Half

/-! Reading the bodies of requests. A body that does not have the form asked for is refused with a
list of its problems, each with the part of the body that is wrong. -/

namespace Flowsheet.Web

open Document

/-! Refusals. -/

def flawCode : Flaw → String
  | .missing => "missing"
  | .notText => "string_type"
  | .brokenText => "string_unicode"
  | .emptyText => "string_too_short"
  | .notNumber => "float_type"
  | .unreadableNumber => "float_parsing"
  | .notBool => "bool_type"
  | .unreadableBool => "bool_parsing"
  | .notList => "list_type"
  | .notObject => "dict_type"
  | .notRecord _ => "model_attributes_type"
  | .unknownKind => "enum"

/-- Records are not called by their names here. -/
def flawMessage : Flaw → String
  | .notRecord _ => "Input should be a valid dictionary or object to extract fields from"
  | flaw => flaw.message

def markValue : Mark → Value
  | .field name => .text name
  | .item index => .int index

/-- What is wrong: of a field that is missing, the object that should have it. -/
def culprit (v : Value) (p : Problem) : Value :=
  partAt v (if p.flaw = .missing then p.path.dropLast else p.path)

def complaint (code message : String) (place : List Value) (input : Value) : Value :=
  .object [("type", .text code), ("loc", .list (.text "body" :: place)), ("msg", .text message),
    ("input", input)]

def unprocessable (complaints : List Value) : Reply :=
  .detail 422 (.list complaints)

def refusal (v : Value) (problems : List Problem) : Reply :=
  unprocessable (problems.map fun p =>
    complaint (flawCode p.flaw) (flawMessage p.flaw) (p.path.map markValue) (culprit v p))

/-! JSON. -/

def unparsed : Reply := .detail 400 (.text "There was an error parsing the body")

def unreadable : Value.Refusal → Reply
  | .malformed offset =>
    unprocessable [complaint "json_invalid" "JSON decode error" [.int offset] (.object [])]
  | .longInteger _ | .tooDeep => unparsed

section

variable (server : Server)

def readJson (text : String) : Except Reply Value :=
  match Text.decoded? server.standIns.char text.toList with
  | some cs => (Value.readWithin server.standIns.char server.deepest cs).mapError unreadable
  | none => .error unparsed

/-- The value of a body, if there is any. A form is nothing but a text. -/
def Body.read : Body → Except Reply (Option Value)
  | .absent | .json "" | .form [] => .ok none
  | .value v => if v.isShort then .ok (some v) else .error unparsed
  | .json text => (readJson server text).map some
  | .form fields => .ok (some (.text (formLine fields)))

def checkedBody {α : Type} (check : Value → Checked α) (v : Value) : Except Reply α := do
  let _ ← (check (screened server v)).toExcept.mapError (refusal v)
  (check v).toExcept.mapError (refusal v)

def missing (path : List Mark) : Reply := refusal .null [⟨path, .missing⟩]

def Body.required {α : Type} (body : Body) (check : Value → Checked α) : Except Reply α := do
  match ← body.read server with
  | some v => checkedBody server check v
  | none => throw (missing [])

/-- Null is as good as no body. -/
def Body.optional {α : Type} (body : Body) (check : Value → Checked α) :
    Except Reply (Option α) := do
  match ← body.read server with
  | some v => checkedBody server (Document.orNull check) v
  | none => return none

end

/-- An edge to be, which has no id yet. -/
structure Connection where
  source : String
  target : String
  handle : Option String

def connection : Value → Checked Connection :=
  record "Connection" fun es =>
    Connection.mk <$> required es ["source"] filledText <*> required es ["target"] filledText
      <*> defaulting es ["sourceHandle", "source_handle"] none (Document.orNull text)

/-- The variables that a simulation is to begin with. -/
def seed : Value → Checked Entries :=
  record "Seed" fun es =>
    (fun given => given.getD []) <$>
      defaulting es ["variables"] none (Document.orNull entries)

/-! Forms. -/

/-- A field of the form. An empty one counts as missing. -/
def Body.field? (body : Body) (name : String) : Option String :=
  match body with
  | .form fields => (lastValue? fields name).filter (· ≠ "")
  | _ => none

def Body.field (body : Body) (name : String) : Except Reply String :=
  match body.field? name with
  | some s => .ok s
  | none => .error (missing [.field name])

end Flowsheet.Web
