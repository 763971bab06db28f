import Flowsheet.Catalog.Archive
import Flowsheet.Catalog.Record
import Flowsheet.Simulation.Step

/-! The studio: catalogs, an archive of documents, and for each process the graph being edited and
its simulation. A graph is taken from the archive when it is first asked for, and goes back there
only when it is saved. Graphs lie on numbered sheets. An edit is written over its sheet, so that a
simulation that plays the sheet sees it. -/

namespace Flowsheet

open Simulation

/-- A simulation: the number of the sheet that it plays, and the options that it was given last. -/
structure Preview where
  sheet : Nat
  options : Options
  session : Session

structure Studio where
  products : Catalog Product
  tasks : Catalog ShopTask
  processes : Catalog Workflow
  archive : Archive
  options : Options
  sheets : List Graph
  /-- The number of the sheet that is being edited for a process. -/
  opened : Table Nat
  previews : Table Preview
  /-- How many identifiers have been made up. -/
  identifiers : Nat
deriving Inhabited

namespace Studio

inductive Fault where
  | missingProcess (id : String)
  | negativeRate
  | badLimit
  | catalog (fault : Catalog.Fault)
  | node (fault : Node.Fault)
  | graph (fault : Graph.Fault)
  | document (fault : Document.Fault)
deriving DecidableEq, Repr

def Fault.message : Fault → String
  | .missingProcess id => s!"Process {Text.quoted id} does not exist"
  | .negativeRate => "Piecework rates cannot be negative"
  | .badLimit => Options.badLimitMessage
  | .catalog fault => fault.message
  | .node fault => fault.message
  | .graph fault => fault.message
  | .document fault => fault.message

def empty : Studio := ⟨.empty, .empty, .empty, .empty, .unlimited, [], .empty, .empty, 0⟩

/-- What the studio does. A failing action keeps what it changed before it failed. -/
abbrev Action := ExceptT Fault (StateM Studio)

/-- The outcome of a part of the studio, its fault taken as one of the studio's. -/
def attempt {ε α : Type} (wrap : ε → Fault) : Except ε α → Action α
  | .ok x => return x
  | .error fault => throw (wrap fault)

/-- A new studio over the catalogs and the archive of this one. -/
def reopened (s : Studio) : Studio :=
  { s with options := .unlimited, sheets := [], opened := .empty, previews := .empty }

/-! Identifiers. -/

def hex (width n : Nat) : String :=
  String.ofList (Text.hexDigits width n)

def nextNumber : Action Nat :=
  modifyGet fun s => (s.identifiers + 1, { s with identifiers := s.identifiers + 1 })

/-- The identifier given, or a new one. -/
def identifier (given : Option String) (fresh : Nat → String) : Action String :=
  match given.filter (· ≠ "") with
  | some id => return id
  | none => return fresh (← nextNumber)

def recordId (n : Nat) : String :=
  s!"{hex 8 n}-0000-0000-0000-{hex 12 n}"

def nodeId (kind : Kind) (n : Nat) : String :=
  s!"{kind.tag}-{hex 8 n}"

/-! Catalogs. -/

def addProduct (name unit : String) (id : Option String) (isInput isOutput : Bool) :
    Action Product := do
  let product := ⟨← identifier id recordId, name, unit, isInput, isOutput⟩
  let products ← attempt .catalog ((← get).products.add product.id product)
  modify fun s => { s with products }
  return product

def addTask (name : String) (id : Option String) (description : String) (rate : Amount) :
    Action ShopTask := do
  if rate.isNegative then throw .negativeRate
  let task := ⟨← identifier id recordId, name, description, rate⟩
  let tasks ← attempt .catalog ((← get).tasks.add task.id task)
  modify fun s => { s with tasks }
  return task

def addProcess (name description : String) (id : Option String) : Action Workflow := do
  let process := ⟨← identifier id recordId, name, description⟩
  let processes ← attempt .catalog ((← get).processes.add process.id process)
  modify fun s => { s with processes }
  return process

/-- The name of a product; one that is not in the catalog is called by its id. -/
def productName (s : Studio) (id : String) : String :=
  ((s.products.find? id).map Product.name).getD id

/-! Sheets. -/

def sheet (s : Studio) (n : Nat) : Graph := s.sheets.getD n .empty

/-- With the graph on a new sheet, which is now the one of the process. -/
def laidOut (s : Studio) (process : String) (g : Graph) : Studio :=
  { s with sheets := s.sheets ++ [g], opened := s.opened.set process s.sheets.length }

/-- With the graph written over a sheet. -/
def written (s : Studio) (n : Nat) (g : Graph) : Studio :=
  { s with sheets := s.sheets.set n g }

def archived (s : Studio) (process : String) (g : Graph) : Studio :=
  { s with archive := s.archive.save process g }

def previewing (s : Studio) (process : String) (preview : Preview) : Studio :=
  { s with previews := s.previews.set process preview }

def withoutPreview (s : Studio) (process : String) : Studio :=
  { s with previews := s.previews.erase process }

/-- With the options given to all simulations. -/
def adjusted (s : Studio) (options : Options) : Studio :=
  { s with options, previews := s.previews.map fun preview => { preview with options } }

/-! Graphs. -/

def requireProcess (process : String) : Action Unit := do
  if !(← get).processes.contains process then throw (.missingProcess process)

/-- The number of the sheet of a process. -/
def sheetOf (process : String) : Action Nat := do
  requireProcess process
  let s ← get
  match s.opened.get? process with
  | some n => return n
  | none =>
    let g ← attempt .document (s.archive.loadGraph process)
    modify (·.laidOut process g)
    return s.sheets.length

def graph (process : String) : Action Graph := do
  let n ← sheetOf process
  return (← get).sheet n

def edit {α : Type} (process : String) (change : Graph → Except Graph.Fault (Graph × α)) :
    Action α := do
  let n ← sheetOf process
  let (g, x) ← attempt .graph (change ((← get).sheet n))
  modify (·.written n g)
  return x

def addNode (process : String) (kind : Kind) (payload : Option Payload) (id : Option String)
    (position : Position) : Action Node := do
  let node ← attempt .node (Node.make (← identifier id (nodeId kind)) kind payload position)
  edit process fun g => return (← g.addNode node, node)

def connect (process source target : String) (handle : Option String) : Action Edge :=
  edit process fun g => g.connect source target handle

def updatePayload (process id : String) (payload : Payload) : Action Node :=
  edit process fun g => g.updatePayload id payload

def removeNode (process id : String) : Action Unit :=
  edit process fun g => return (g.removeNode id, ())

/-- Lays a graph in the place of the one being edited, and ends its simulation. -/
def install (process : String) (load : Except Document.Fault Graph) : Action Graph := do
  requireProcess process
  let g ← attempt .document load
  modify fun s => (s.laidOut process g).withoutPreview process
  return g

def replaceWorkflow (process : String) (document : Value) : Action Graph :=
  install process (Document.loadGraph document)

/-- Writes the graph to the archive. -/
def save (process : String) : Action Value := do
  let g ← graph process
  modify (·.archived process g)
  return Document.dumpGraph g

def document (process : String) : Action Value :=
  return Document.dumpGraph (← graph process)

/-! Simulations. -/

def session (s : Studio) (process : String) : Session :=
  ((s.previews.get? process).map Preview.session).getD .idle

def start (process : String) (seed : List (String × Value)) : Action Session := do
  let n ← sheetOf process
  let s ← get
  let (session, _) := Simulation.start (s.sheet n) seed
  modify (·.previewing process ⟨n, s.options, session⟩)
  return session

/-- A step of the simulation of the process, on what its sheet is now. -/
def step (process : String) : Action Session := do
  let s ← get
  match s.previews.get? process with
  | none => return .idle
  | some preview =>
    let (session, _) ← attempt .graph
      (Simulation.step preview.options (s.sheet preview.sheet) preview.session)
    modify (·.previewing process { preview with session })
    return session

def stop (process : String) : Action Session := do
  modify (·.withoutPreview process)
  return .idle

/-- The limit holds for new and for running simulations. -/
def setHistoryLimit (limit : Option Int) : Action Options :=
  match Options.ofLimit? limit with
  | none => throw .badLimit
  | some options => do
    modify (·.adjusted options)
    return options

end Studio

end Flowsheet
