import Flowsheet.Node.Kind

/-! What can be wrong with a value that should have a given form, and where in the value it is. All
problems of a value are found, in the order of its parts. -/

namespace Flowsheet.Document

inductive Mark where
  | field (name : String)
  | item (index : Nat)
deriving DecidableEq, Repr

inductive Flaw where
  | missing
  | notText
  | brokenText
  | emptyText
  | notNumber
  | unreadableNumber
  | notBool
  | unreadableBool
  | notList
  | notObject
  | notRecord (name : String)
  | unknownKind
deriving DecidableEq, Repr

structure Problem where
  path : List Mark
  flaw : Flaw
deriving DecidableEq, Repr

def Mark.text : Mark → String
  | .field name => name
  | .item index => toString index

/-- The words of all kinds, quoted and in order, with the last one set apart. -/
def kindList : String :=
  let quoted := Kind.all.map fun kind => s!"'{kind.tag}'"
  ", ".intercalate quoted.dropLast ++ " or " ++ quoted.getLast?.getD ""

def Flaw.message : Flaw → String
  | .missing => "Field required"
  | .notText => "Input should be a valid string"
  | .brokenText =>
    "Input should be a valid string, unable to parse raw data as a unicode string"
  | .emptyText => "String should have at least 1 character"
  | .notNumber => "Input should be a valid number"
  | .unreadableNumber => "Input should be a valid number, unable to parse string as a number"
  | .notBool => "Input should be a valid boolean"
  | .unreadableBool => "Input should be a valid boolean, unable to interpret input"
  | .notList => "Input should be a valid list"
  | .notObject => "Input should be a valid dictionary"
  | .notRecord name => s!"Input should be a valid dictionary or instance of {name}"
  | .unknownKind => "Input should be " ++ kindList

/-- The place and the flaw. A value that is wrong as a whole is named. -/
def Problem.text (what : String) (p : Problem) : String :=
  let place := if p.path.isEmpty then what else ".".intercalate (p.path.map Mark.text)
  s!"{place}: {p.flaw.message}"

def problemText (what : String) (problems : List Problem) : String :=
  s!"Invalid {what}: " ++ "; ".intercalate (problems.map (Problem.text what))

/-- A checked value, or all that is wrong with it. -/
inductive Checked (α : Type) where
  | valid (x : α)
  | invalid (problems : List Problem)

namespace Checked

variable {α β : Type}

def map (f : α → β) : Checked α → Checked β
  | .valid x => .valid (f x)
  | .invalid ps => .invalid ps

/-- Both parts are checked whatever the first one shows. -/
def seq (f : Checked (α → β)) (x : Checked α) : Checked β :=
  match f, x with
  | .valid f, .valid x => .valid (f x)
  | .valid _, .invalid qs => .invalid qs
  | .invalid ps, .valid _ => .invalid ps
  | .invalid ps, .invalid qs => .invalid (ps ++ qs)

instance : Applicative Checked where
  pure := .valid
  map := map
  seq f x := f.seq (x ())

def flaw (f : Flaw) : Checked α := .invalid [⟨[], f⟩]

def under (mark : Mark) : Checked α → Checked α
  | .valid x => .valid x
  | .invalid ps => .invalid (ps.map fun p => { p with path := mark :: p.path })

def toExcept : Checked α → Except (List Problem) α
  | .valid x => .ok x
  | .invalid ps => .error ps

end Checked

end Flowsheet.Document
