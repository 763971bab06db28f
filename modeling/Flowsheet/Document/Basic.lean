import Flowsheet.Document.Data

/-! Documents, the saved form of graphs: a list of node rows and a list of edge rows. A document is
checked as a whole before any of its nodes is made. -/

namespace Flowsheet.Document

inductive Fault where
  | invalid (what : String) (problems : List Problem)
  | data (fault : DataFault)
  | node (id : String) (fault : DataFault)
  | graph (fault : Graph.Fault)
deriving DecidableEq, Repr

/-- A fault of node data is told with the node. That a number is too long is told without it. -/
def DataFault.ofNode (id : String) : DataFault → Fault
  | .longCaption => .data .longCaption
  | fault => .node id fault

/-- The document is to blame. -/
def Fault.isMalformed : Fault → Bool
  | .data .longCaption => false
  | _ => true

def Fault.message : Fault → String
  | .invalid what problems => problemText what problems
  | .data fault => fault.message
  | .node id fault => s!"Node {Text.quoted id}: {fault.message}"
  | .graph fault => fault.message

def checkedAs {α : Type} (what : String) : Checked α → Except Fault α
  | .valid x => .ok x
  | .invalid problems => .error (.invalid what problems)

def NodeRow.toNode (row : NodeRow) : Except Fault Node := do
  let payload ← (loadPayload row.kind (row.data.getD [])).mapError (DataFault.ofNode row.id)
  return ⟨row.id, row.kind, payload, row.position.getD .origin⟩

def loadNode (row : Value) : Except Fault Node := do
  (← checkedAs "node" (nodeRow row)).toNode

def loadEdge (row : Value) : Except Fault Edge :=
  checkedAs "edge" (edgeRow row)

def addRow (g : Graph) (row : NodeRow) : Except Fault Graph := do
  (g.addNode (← row.toNode)).mapError .graph

/-- An edge whose handle names no row is kept as it is. -/
def addEdgeRow (g : Graph) (edge : Edge) : Except Fault Graph :=
  (g.addEdge edge false).mapError .graph

def Rows.toGraph (rows : Rows) : Except Fault Graph := do
  rows.edges.foldlM addEdgeRow (← rows.nodes.foldlM addRow .empty)

/-- No document at all is the empty graph. -/
def loadGraph : Value → Except Fault Graph
  | .null => .ok .empty
  | document => do (← checkedAs "workflow document" (rows document)).toGraph

/-! Writing. -/

def dumpPosition (p : Position) : Value :=
  .object [("x", .double p.x), ("y", .double p.y)]

def dumpNode (node : Node) : Value :=
  .object [("id", .text node.id), ("type", .text node.kind.tag),
    ("position", dumpPosition node.position), ("data", .object (dumpPayload node.payload))]

def dumpEdge (edge : Edge) : Value :=
  .object ([("id", .text edge.id), ("source", .text edge.source), ("target", .text edge.target)] ++
    textEntry "sourceHandle" edge.handle)

def dumpGraph (g : Graph) : Value :=
  .object [("nodes", .list (g.nodes.map dumpNode)), ("edges", .list (g.edges.map dumpEdge))]

def empty : Value := dumpGraph .empty

end Flowsheet.Document
