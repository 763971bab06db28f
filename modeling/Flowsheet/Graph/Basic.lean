import Flowsheet.Catalog.Basic
import Flowsheet.Node.Basic
import Flowsheet.Node.Handle

/-! Graphs of typed nodes and the edges between them. Both are kept in catalogs, in the order in
which they were added, and every edit leaves an unchanged graph if it fails. -/

namespace Flowsheet

structure Edge where
  id : String
  source : String
  target : String
  handle : Option String
deriving DecidableEq, Repr

structure Graph where
  nodeCatalog : Catalog Node
  edgeCatalog : Catalog Edge

namespace Graph

inductive Fault where
  | duplicateNode (id : String)
  | duplicateEdge (id : String)
  | missingNode (id : String)
  | missingEdge (id : String)
  | danglingEnd (edge node : String)
  | invalidHandle (node handle : String)
  | wrongShape (node : String) (kind : Kind)
  | longIndex (digits : Nat)
deriving DecidableEq, Repr

def Fault.message : Fault → String
  | .duplicateNode id => s!"Record with id {Text.quoted id} already exists"
  | .duplicateEdge id => s!"Edge with id {Text.quoted id} already exists"
  | .missingNode id => s!"Node {Text.quoted id} not found"
  | .missingEdge id => s!"Edge {Text.quoted id} not found"
  | .danglingEnd edge node =>
    s!"Edge {Text.quoted edge} references unknown node {Text.quoted node}"
  | .invalidHandle node handle =>
    s!"Node {Text.quoted node} has no output row for handle {Text.quoted handle}"
  | .wrongShape node kind =>
    s!"Node {Text.quoted node} of kind {Text.quoted kind.tag} expects {kind.shape.name}"
  | .longIndex digits => Text.longNumberMessage s!": value has {digits} digits"

/-- A record that its catalog refuses. A catalog does not know what its records are, so that a refused
edge is told as a node would be. -/
def Fault.asNode : Catalog.Fault → Fault
  | .duplicate id => .duplicateNode id
  | .missing id => .missingNode id

def empty : Graph := ⟨.empty, .empty⟩

/-! Queries. -/

def nodes (g : Graph) : List Node := g.nodeCatalog.records

def edges (g : Graph) : List Edge := g.edgeCatalog.records

def node? (g : Graph) (id : String) : Option Node := g.nodeCatalog.find? id

def edge? (g : Graph) (id : String) : Option Edge := g.edgeCatalog.find? id

def contains (g : Graph) (id : String) : Bool := g.nodeCatalog.contains id

def hasEdge (g : Graph) (id : String) : Bool := g.edgeCatalog.contains id

def findNode (g : Graph) (id : String) : Except Fault Node :=
  match g.node? id with
  | some node => .ok node
  | none => .error (.missingNode id)

def findEdge (g : Graph) (id : String) : Except Fault Edge :=
  match g.edge? id with
  | some edge => .ok edge
  | none => .error (.missingEdge id)

def nodeIds (g : Graph) : List String := g.nodes.map Node.id

def edgeIds (g : Graph) : List String := g.edges.map Edge.id

def outgoing (g : Graph) (id : String) : List Edge :=
  g.edges.filter (·.source = id)

def incoming (g : Graph) (id : String) : List Edge :=
  g.edges.filter (·.target = id)

def ofKind (g : Graph) (kind : Kind) : List Node :=
  g.nodes.filter (·.kind = kind)

def startNode? (g : Graph) : Option Node :=
  (g.ofKind .start).head?

/-- Whether a handle names a row that the payload has. Free text names none and always resolves. -/
def handleResolves (payload : Payload) (handle : Option String) : Except Fault Bool :=
  match RowHandle.read? handle with
  | .error digits => .error (.longIndex digits)
  | .ok none => .ok true
  | .ok (some row) => .ok (row.index < payload.rowCount row.kind)

def edgeResolves (g : Graph) (edge : Edge) : Except Fault Bool := do
  handleResolves (← g.findNode edge.source).payload edge.handle

/-- The edges whose handle names a row that their source does not have. -/
def dangling (g : Graph) : Except Fault (List Edge) :=
  return ((← g.edges.mapM fun edge => return (edge, ← g.edgeResolves edge)).filter (!·.2)).map (·.1)

/-! Edits. -/

def addNode (g : Graph) (node : Node) : Except Fault Graph := do
  let nodeCatalog ← (g.nodeCatalog.add node.id node).mapError .asNode
  return { g with nodeCatalog }

/-- Without the edge, if an end of it is the node. -/
def discardAt (id : String) (edges : Catalog Edge) (edge : Edge) : Catalog Edge :=
  if edge.source = id ∨ edge.target = id then edges.discard edge.id else edges

/-- Without the node and the edges at it. -/
def removeNode (g : Graph) (id : String) : Graph :=
  if g.contains id then
    ⟨g.nodeCatalog.discard id, g.edges.foldl (discardAt id) g.edgeCatalog⟩
  else g

def replaceNode (g : Graph) (id : String) (node : Node) : Except Fault Graph := do
  let nodeCatalog ← (g.nodeCatalog.replace id node).mapError .asNode
  return { g with nodeCatalog }

def updatePayload (g : Graph) (id : String) (payload : Payload) : Except Fault (Graph × Node) := do
  let node ← g.findNode id
  if payload.shape = node.kind.shape then
    let updated := { node with payload := payload }
    return (← g.replaceNode id updated, updated)
  else throw (.wrongShape id node.kind)

def moveNode (g : Graph) (id : String) (position : Position) : Except Fault (Graph × Node) := do
  let updated := { ← g.findNode id with position := position }
  return (← g.replaceNode id updated, updated)

/-- That a handle does not name a row which the node lacks. -/
def requireRow (node : Node) (handle : Option String) : Except Fault Unit := do
  if !(← handleResolves node.payload handle) then
    throw (.invalidHandle node.id (handle.getD ""))

/-- With the edge under its id, whatever its ends are. -/
def storeEdge (g : Graph) (edge : Edge) : Except Fault Graph := do
  let edgeCatalog ← (g.edgeCatalog.add edge.id edge).mapError .asNode
  return { g with edgeCatalog }

/-- With the edge added last. Its ends have to be there and its id has to be new; that its handle
names an existing row is asked for only if `check` is set. -/
def addEdge (g : Graph) (edge : Edge) (check : Bool) : Except Fault Graph :=
  match g.node? edge.source with
  | none => .error (.danglingEnd edge.id edge.source)
  | some source =>
    if !g.contains edge.target then .error (.danglingEnd edge.id edge.target)
    else if g.hasEdge edge.id then .error (.duplicateEdge edge.id)
    else do
      if check then requireRow source edge.handle
      g.storeEdge edge

/-- The id of an edge that is given none. -/
def baseEdgeId (source target : String) (handle : Option String) : String :=
  match handle with
  | some h => if h = "" then s!"e-{source}-{target}" else s!"e-{source}-{target}-{h}"
  | none => s!"e-{source}-{target}"

def candidateEdgeId (base : String) : Nat → String
  | 0 => base
  | n + 1 => s!"{base}-{n + 1}"

/-- The first unused candidate. One more candidate than there are edges is enough to find it. -/
def freshEdgeId (g : Graph) (base : String) : String :=
  let free := (List.range (g.edges.length + 1)).find? fun n => !g.hasEdge (candidateEdgeId base n)
  candidateEdgeId base (free.getD 0)

/-- With a new edge under an id of its own. -/
def connect (g : Graph) (source target : String) (handle : Option String) :
    Except Fault (Graph × Edge) := do
  let edge := ⟨g.freshEdgeId (baseEdgeId source target handle), source, target, handle⟩
  return (← g.addEdge edge true, edge)

def removeEdge (g : Graph) (id : String) : Graph :=
  { g with edgeCatalog := g.edgeCatalog.discard id }

/-- A second graph with the same records, taken over one by one. -/
def copy (g : Graph) : Except Fault Graph := do
  g.edges.foldlM storeEdge (← g.nodes.foldlM addNode empty)

/-- Equality by value, in order. -/
def same (g h : Graph) : Bool :=
  sameAll Node.same g.nodes h.nodes && g.edges == h.edges

end Graph

end Flowsheet
