import Flowsheet.Catalog.Record
import Flowsheet.Graph.Basic
import Flowsheet.Simulation.Session
import Flowsheet.Value.Display
import Flowsheet.Web.Markup

/-! The page of the studio: its processes, one of them with its simulation and its nodes, and the
options. -/

namespace Flowsheet.Web

open Simulation

/-- The process that the page is about. -/
structure Selection where
  process : Workflow
  nodes : List Node
  session : Session

structure Page where
  processes : List Workflow
  selection : Option Selection
  options : Options
  productName : String → String

namespace Page

def head : List String :=
  ["<!DOCTYPE html>",
   "<html lang=\"es\">",
   "<head>",
   "  <meta charset=\"utf-8\">",
   "  <title>Process Studio</title>",
   "</head>",
   "<body>",
   "  <h1>Process Studio</h1>",
   ""]

def isSelected (page : Page) (process : Workflow) : Bool :=
  page.selection.any (·.process.id == process.id)

def processItem (page : Page) (process : Workflow) : List String :=
  let id := escaped process.id
  ["      <li>",
   s!"        <a href=\"/?process={id}\">{escaped process.name}</a>",
   indented 8 (wordIf (page.isSelected process) "<strong>(seleccionado)</strong>"),
   "      </li>"]

def noProcess : List String :=
  ["      <li>Sin procesos definidos</li>"]

def processItems (page : Page) : List (List String) :=
  if page.processes.isEmpty then [noProcess] else page.processes.map page.processItem

def processSection (page : Page) : List String :=
  ["  <section>",
   "    <h2>Procesos</h2>",
   "    <ul>"] ++
  parts 6 page.processItems ++
  ["    </ul>",
   "    <form method=\"post\" action=\"/processes\">",
   "      <input name=\"name\" placeholder=\"Nombre del proceso\" required>",
   "      <input name=\"description\" placeholder=\"Descripción\">",
   "      <button type=\"submit\">Crear</button>",
   "    </form>",
   "  </section>",
   ""]

/-- A simulation can be stopped while it runs and started while it does not. -/
def buttons (session : Session) : List String :=
  if session.isRunning then
    let ended := wordIf session.isTerminal "disabled"
    [s!"      <button name=\"action\" value=\"step\" {ended}>Paso</button>",
     "      <button name=\"action\" value=\"stop\">Detener</button>"]
  else ["      <button name=\"action\" value=\"start\">Simular</button>"]

def entry (term definition : String) : String :=
  s!"<dt>{term}</dt><dd>{escaped definition}</dd>"

/-- An entry for what is there and not empty. -/
def entryOf (term : String) (definition : Option String) : String :=
  (definition.filter (· ≠ "")).elim "" (entry term)

def variableRow (name : String) (value : Value) : List String :=
  [s!"        <tr><td>{escaped name}</td><td>{escaped value.plain}</td></tr>"]

def progress (session : Session) : List String :=
  let history := " → ".intercalate session.history
  ["    <h3>Simulación en vivo</h3>",
   "    <dl>",
   indented 6 (entry "Estado" session.phase.tag),
   indented 6 (entry "Paso" (toString session.stepCount)),
   indented 6 (entry "Nodo activo" ((session.activeNode.filter (· ≠ "")).getD "-")),
   indented 6 (entryOf "Fin" session.endNode),
   indented 6 (entryOf "Error" session.lastError),
   "    </dl>",
   "    <table>",
   "      <thead><tr><th>Variable</th><th>Valor</th></tr></thead>",
   "      <tbody>"] ++
  parts 8 (session.vars.entries.map fun (name, value) => variableRow name value) ++
  ["      </tbody>",
   "    </table>",
   s!"    <p>Recorrido: {escaped history}</p>"]

def itemText (page : Page) (item : Item) : String :=
  escaped (page.productName item.product) ++ " "

def subproductText (page : Page) (s : Subproduct) : String :=
  escaped (page.productName s.product) ++ wordIf s.isVariable s!" ({escaped s.unit})" ++ " "

def nodeRow (page : Page) (session : Session) (node : Node) : List String :=
  let bold := wordIf (session.activeNode = some node.id) "style=\"font-weight: bold\""
  [s!"        <tr {bold}>",
   s!"          <td>{escaped node.id}</td>",
   s!"          <td>{escaped node.kind.tag}</td>",
   s!"          <td>{escaped node.payload.label}</td>",
   "          <td>",
   indented 12 (String.join (node.payload.items.map page.itemText)),
   indented 12 (String.join (node.payload.subproducts.map page.subproductText)),
   "          </td>",
   "        </tr>"]

def selectionSection (page : Page) (selection : Selection) : List String :=
  let process := selection.process
  let session := selection.session
  let id := escaped process.id
  ["  <section>",
   s!"    <h2>{escaped process.name}</h2>",
   s!"    <p>{escaped process.description}</p>",
   s!"    <form method=\"post\" action=\"/processes/{id}/simulation\">"] ++
  parts 6 [buttons session] ++
  ["    </form>",
   ""] ++
  partIf 4 session.isRunning (progress session) ++
  ["",
   "    <h3>Nodos</h3>",
   "    <table>",
   "      <thead><tr><th>Id</th><th>Tipo</th><th>Etiqueta</th><th>Productos</th></tr></thead>",
   "      <tbody>"] ++
  parts 8 (selection.nodes.map (page.nodeRow session)) ++
  ["      </tbody>",
   "    </table>",
   "  </section>"]

def optionsSection (options : Options) : List String :=
  let limit := (options.historyLimit.map toString).getD ""
  ["",
   "  <section>",
   "    <h2>Opciones de simulación</h2>",
   "    <form method=\"post\" action=\"/simulation/options\">",
   "      <label>Límite de historial",
   s!"        <input name=\"history_limit\" value=\"{limit}\" placeholder=\"sin límite\">",
   "      </label>",
   "      <button type=\"submit\">Guardar</button>",
   "    </form>",
   "  </section>",
   "</body>",
   "</html>"]

/-- The page as it is sent. A line break inside a name makes two lines of one. -/
def text (page : Page) : String :=
  "\n".intercalate <|
    head ++ page.processSection ++ parts 2 (page.selection.toList.map page.selectionSection) ++
      optionsSection page.options

end Page

end Flowsheet.Web
