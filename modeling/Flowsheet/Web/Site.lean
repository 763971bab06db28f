import Flowsheet.Studio.Demo
import Flowsheet.Text.TypedInteger
import Flowsheet.Value.Parts
import Flowsheet.Value.Visible
import Flowsheet.Web.Body
import Flowsheet.Web.Page
import Flowsheet.Web.Route

/-! The web interface of a studio. The body of a request is read before anything is done, so that a
body that is refused has no effect. -/

namespace Flowsheet.Web

open Studio

variable (server : Server)

/-! Faults that are replied to. -/

def isMissing : Studio.Fault → Bool
  | .missingProcess _ | .catalog (.missing _) => true
  | .graph (.missingNode _) | .graph (.missingEdge _) => true
  | _ => false

/-- A graph or a catalog does not take what it is given. -/
def isConflict : Studio.Fault → Bool
  | .graph (.wrongShape ..) | .graph (.longIndex _) => false
  | .graph _ | .catalog _ => true
  | _ => false

def missingStatus? (fault : Studio.Fault) : Option Nat :=
  if isMissing fault then some 404 else none

def putStatus? : Studio.Fault → Option Nat
  | .document fault => if fault.isMalformed then some 422 else none
  | fault => missingStatus? fault

def edgeStatus? (fault : Studio.Fault) : Option Nat :=
  (missingStatus? fault).or (if isConflict fault then some 409 else none)

def optionsStatus? : Studio.Fault → Option Nat
  | .badLimit => some 400
  | _ => none

/-- Replies to a fault for which there is a status. -/
def replied {α : Type} (status? : Studio.Fault → Option Nat) (fault : Studio.Fault) :
    Action (Except Reply α) :=
  match status? fault with
  | some status => return .error (.detail status (.text fault.message))
  | none => throw fault

/-- What an action answers, or the reply to its fault. -/
def caught {α : Type} (status? : Studio.Fault → Option Nat) (action : Action α) :
    Action (Except Reply α) :=
  tryCatch (return .ok (← action)) (replied status?)

/-- Goes on with what was read, or refuses the request. -/
def reading {α : Type} (read : Except Reply α) (use : α → Action Reply) : Action Reply :=
  match read with
  | .ok x => use x
  | .error reply => return reply

/-! Pages and forms. -/

def selection? (id : String) : Action (Option Selection) :=
  tryCatch (do
    let process ← attempt .catalog ((← get).processes.get id)
    let g ← graph id
    return some ⟨process, g.nodes, (← get).session id⟩)
  fun fault => if isMissing fault then return none else throw fault

/-- The page about the process asked for. If none is asked for, it is about the first one. -/
def overview (query : Fields) : Action Reply := do
  let s ← get
  let first := s.processes.records.head?.map Workflow.id
  let selection ← match ((lastValue? query "process").or first).filter (· ≠ "") with
    | some id => selection? id
    | none => pure none
  return .page (Page.text ⟨s.processes.records, selection, s.options, s.productName⟩)

/-- Makes an empty process. One without a name is called like all the others. -/
def newProcess (body : Body) : Action Reply :=
  reading (body.field "name") fun given => do
    let name := if Text.trim given = "" then "Proceso" else Text.trim given
    let process ← addProcess name ((body.field? "description").getD "") none
    let _ ← save process.id
    return .seeOther (pageOf process.id)

/-- What a button of the page does. -/
def press (process : String) : String → Action Unit
  | "start" => discard (start process [])
  | "step" => discard (step process)
  | "stop" => discard (stop process)
  | _ => return

def control (process : String) (body : Body) : Action Reply :=
  reading (body.field "action") fun button =>
    tryCatch (do
      press process button
      return .seeOther (pageOf process))
    fun fault => if isMissing fault then return .seeOther "/" else throw fault

/-- The limit that was typed, if any. -/
def typedLimit (typed : String) : Except Reply (Option Int) :=
  if Text.trim typed = "" then .ok none
  else match Text.typedInteger? typed with
    | some n => .ok (some n)
    | none =>
      .error (.detail 400
        (.text s!"History limit must be a whole number, got {Text.quoted typed}"))

def setOptions (body : Body) : Action Reply :=
  reading (typedLimit ((body.field? "history_limit").getD "")) fun limit => do
    reading (← caught optionsStatus? (setHistoryLimit limit)) fun _ => return .seeOther "/"

/-! Documents. -/

def listProcesses : Action Reply := do
  return .value (.list ((← get).processes.records.map fun process =>
    .object [("id", .text process.id), ("name", .text process.name),
      ("description", .text process.description)]))

def getWorkflow (process : String) : Action Reply := do
  reading (← caught missingStatus? (document process)) fun v => return .value v

/-- A fault of what is stored is not the fault of what was sent, and nobody replies to it. -/
def putWorkflow (process : String) (body : Body) : Action Reply :=
  reading (body.required server Document.rows) fun rows => do
    reading (← caught putStatus? (install process (graphOf server rows))) fun _ =>
      return .value (← save process)

def addEdge (process : String) (body : Body) : Action Reply :=
  reading (body.required server connection) fun c => do
    reading (← caught edgeStatus? (connect process c.source c.target c.handle)) fun edge =>
      return .value (Document.dumpEdge edge)

def startSeeded (process : String) (body : Body) : Action Reply :=
  reading (body.optional server seed) fun given => do
    reading (← caught missingStatus? (start process (given.getD []))) fun session =>
      return .value session.toValue

/-! Requests. -/

/-- What is done for a request on a route, if the method is one of those of the route. -/
def respond? (request : Request) : Route → Option (Action Reply)
  | .overview => match request.method with
    | .get => some (overview request.query)
    | _ => none
  | .newProcess => match request.method with
    | .post => some (newProcess request.body)
    | _ => none
  | .control process => match request.method with
    | .post => some (control process request.body)
    | _ => none
  | .options => match request.method with
    | .post => some (setOptions request.body)
    | _ => none
  | .processes => match request.method with
    | .get => some listProcesses
    | _ => none
  | .workflow process => match request.method with
    | .get => some (getWorkflow process)
    | .put => some (putWorkflow server process request.body)
    | _ => none
  | .edges process => match request.method with
    | .post => some (addEdge server process request.body)
    | _ => none
  | .session process => match request.method with
    | .get => some (return .value ((← get).session process).toValue)
    | _ => none
  | .start process => match request.method with
    | .post => some (startSeeded server process request.body)
    | _ => none
  | .step process => match request.method with
    | .post => some (return .value (← step process).toValue)
    | _ => none
  | .stop process => match request.method with
    | .post => some (return .value (← stop process).toValue)
    | _ => none

def addressOf (path : String) (query : Fields) : String :=
  server.address ++ pathText path ++ (if query.isEmpty then "" else "?" ++ formLine query)

/-- A path that leads nowhere, unless the one that may have been meant does. -/
def astray (request : Request) : Reply :=
  let path := meantPath request.path
  if (Route.ofPath? path).isSome then .movedTo (addressOf server path request.query) else .notFound

def act (request : Request) : Action Reply :=
  match Route.ofPath? request.path with
  | none => return astray server request
  | some route => (respond? server request route).getD (return .methodNotAllowed)

/-- Why a reply cannot be written. -/
inductive Obstacle where
  | infinite
  | half
deriving DecidableEq, Repr

/-- What comes of a request: a reply, a fault that no reply is made of, or a reply that cannot be
written. -/
inductive Outcome where
  | reply (r : Reply)
  | failed (fault : Studio.Fault)
  | unwritable (obstacle : Obstacle)

/-- Without its private entries. -/
def Reply.visible (r : Reply) : Reply :=
  match r.content with
  | .value v => { r with content := .value v.visible }
  | _ => r

/-- Numbers are written before the text as a whole is. -/
def Content.obstacle? : Content → Option Obstacle
  | .nothing => none
  | .value v =>
    if !v.isFinite then some .infinite
    else if !v.isWhole server.standIns then some .half
    else none
  | .page text => if server.standIns.areAbsent text then none else some .half

def infiniteMessage : String := "Out of range float values are not JSON compliant"

/-- What comes of a reply. -/
def Reply.sent (r : Reply) : Outcome :=
  (r.visible.content.obstacle? server).elim (.reply r.visible) .unwritable

def handle (request : Request) (s : Studio) : Outcome × Studio :=
  match ((act server request).run s : Except Studio.Fault Reply × Studio) with
  | (.ok r, t) => (r.sent server, t)
  | (.error fault, t) => (.failed fault, t)

/-- A studio with the process that a new one shows. -/
def opened : Studio :=
  (ensureDemo.run .empty : Except Studio.Fault Unit × Studio).2

end Flowsheet.Web
