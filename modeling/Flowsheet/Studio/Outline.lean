import Flowsheet.Studio.Basic

/-! Outlines of graphs, as one writes them down: nodes with their captions, and edges. -/

namespace Flowsheet.Studio

structure NodeOutline where
  id : String
  kind : Kind
  label : String
  subLabel : String
  body : Body
  x : Int
  y : Int

/-- An edge from one node to another, and the handle that it leaves by. -/
structure EdgeOutline where
  source : String
  target : String
  handle : Option String

def NodeOutline.payload (n : NodeOutline) : Payload :=
  .ofBody n.body n.label n.subLabel

def NodeOutline.position (n : NodeOutline) : Position :=
  ⟨.ofInt n.x, .ofInt n.y⟩

structure Outline where
  nodes : List NodeOutline
  edges : List EdgeOutline

/-- Adds the nodes and then the edges to the graph of a process. -/
def draw (process : String) (outline : Outline) : Action Unit := do
  for n in outline.nodes do
    let _ ← addNode process n.kind (some n.payload) (some n.id) n.position
  for e in outline.edges do
    let _ ← connect process e.source e.target e.handle

/-- A number with two decimal places. -/
def hundredths (n : Nat) : Double :=
  Decimal.toDouble false ⟨n, -2⟩

/-- The placeholder of a variable. -/
def placeholder (name : String) : String :=
  "\x7b\x7b" ++ name ++ "\x7d\x7d"

end Flowsheet.Studio
