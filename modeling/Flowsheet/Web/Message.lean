import Flowsheet.Text.StandIn
import Flowsheet.Value.Basic
import Flowsheet.Web.Address

/-! Requests and replies, and what the server between them is told. -/

namespace Flowsheet.Web

/-- Where the server is reached, how many lists and objects may be inside each other, what stands
for half a character, and whether the characters of a text or a key are looked at even where any
will do. -/
structure Server where
  address : String
  deepest : Nat
  standIns : Text.StandIns
  readsAll : Bool

inductive Method where
  | get
  | post
  | put
  | other
deriving DecidableEq, Repr

/-- The body of a request: a JSON value, a text that is said to be JSON, or the fields of a form. -/
inductive Body where
  | absent
  | value (v : Value)
  | json (text : String)
  | form (fields : Fields)

structure Request where
  method : Method
  path : String
  query : Fields
  body : Body

inductive Content where
  | nothing
  | value (v : Value)
  | page (text : String)

structure Reply where
  status : Nat
  location : Option String
  content : Content

namespace Reply

def value (v : Value) : Reply := ⟨200, none, .value v⟩

def page (text : String) : Reply := ⟨200, none, .page text⟩

/-- A refusal that says why. -/
def detail (status : Nat) (v : Value) : Reply := ⟨status, none, .value (.object [("detail", v)])⟩

def seeOther (location : String) : Reply := ⟨303, some location, .nothing⟩

def movedTo (address : String) : Reply := ⟨307, some address, .nothing⟩

def notFound : Reply := detail 404 (.text "Not Found")

def methodNotAllowed : Reply := detail 405 (.text "Method Not Allowed")

end Reply

end Flowsheet.Web
