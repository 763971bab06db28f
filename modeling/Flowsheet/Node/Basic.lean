import Flowsheet.Node.Payload
import Flowsheet.Text.Quoted

/-! Nodes: an identifier, a kind, a payload of the shape of the kind and a place on the canvas. -/

namespace Flowsheet

structure Position where
  x : Double
  y : Double
deriving DecidableEq, Repr

def Position.origin : Position := ⟨.zero, .zero⟩

structure Node where
  id : String
  kind : Kind
  payload : Payload
  position : Position

inductive Node.Fault where
  | emptyId
  | wrongShape (kind : Kind) (shape : Shape)
deriving DecidableEq, Repr

def Node.Fault.message : Node.Fault → String
  | .emptyId => "A node requires a non-empty id"
  | .wrongShape kind shape =>
    s!"Node kind {Text.quoted kind.tag} expects {kind.shape.name}, got {shape.name}"

namespace Node

/-- A new node, with the empty payload of its kind if none is given. -/
def make (id : String) (kind : Kind) (payload : Option Payload) (position : Position) :
    Except Fault Node :=
  let content := payload.getD (.empty kind.shape)
  if id = "" then .error .emptyId
  else if content.shape = kind.shape then .ok ⟨id, kind, content, position⟩
  else .error (.wrongShape kind content.shape)

def same (m n : Node) : Bool :=
  m.id == n.id && m.kind == n.kind && m.payload.same n.payload &&
    m.position.x.equal n.position.x && m.position.y.equal n.position.y

end Node

end Flowsheet
