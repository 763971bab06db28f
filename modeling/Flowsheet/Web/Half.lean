import Flowsheet.Document.Basic
import Flowsheet.Web.Message

/-! Half a character in what is checked. A check fails on it where the characters of a text are
looked at. So a value is checked twice, and so is what a document says: the first time, something
else is in the place of each text that has half a character in it. -/

namespace Flowsheet.Web

open Document
open scoped NativePower

def part? (v : Value) (mark : Mark) : Option Value :=
  match v, mark with
  | .object es, .field name => es.lookup name
  | .list items, .item index => items[index]?
  | _, _ => none

def partAt (v : Value) (path : List Mark) : Value :=
  (path.foldlM part? v).getD .null

variable (server : Server)

/-- All doubles that are finite are below two to this power. -/
abbrev doubleWidth : Nat := 1024

/-- What a text with half a character in it counts as. A text of nothing passes where no text is
looked at, and a whole number beyond all doubles passes where any value will do. -/
def unread : Value := if server.readsAll then .int (.ofNat (2 ^ doubleWidth)) else .text ""

/-- The keys with half a character in them, if keys are looked at. -/
def brokenKeys : Value → List String
  | .object es =>
    if server.readsAll then (es.map Prod.fst).filter (!server.standIns.areAbsent ·) else []
  | _ => []

/-- Fields that take an object whatever its keys are. -/
def openFields : List String := ["data", "values", "variables"]

mutual

def screened : Value → Value
  | .text s => if server.standIns.areAbsent s then .text s else unread server
  | .list items => .list (screenedItems items)
  | .object es => .object (screenedEntries es)
  | v => v

def screenedItems : List Value → List Value
  | [] => []
  | v :: rest => screened v :: screenedItems rest

def screenedEntries : Entries → Entries
  | [] => []
  | (key, v) :: rest =>
    let isRefused := openFields.contains key && !(brokenKeys server v).isEmpty
    (key, if isRefused then unread server else screened v) :: screenedEntries rest

end

/-- The problem of a screened value, as it is told of the value itself. -/
def retold (v : Value) (p : Problem) : List Problem :=
  match p.flaw, partAt v p.path with
  | .notList, _ | .notRecord _, _ => [p]
  | .notObject, part => match brokenKeys server part with
    | [] => [p]
    | keys => keys.map fun key => ⟨p.path ++ [.field key, .field "[key]"], .brokenText⟩
  | _, .text s => if server.standIns.areAbsent s then [p] else [{ p with flaw := .brokenText }]
  | _, _ => [p]

def screenedData (row : NodeRow) : Entries :=
  screenedEntries server (row.data.getD [])

def screenedRows (rows : Rows) : Rows :=
  { rows with
    nodes := rows.nodes.map fun row => { row with data := some (screenedData server row) } }

/-- The data of the first node that has no payload. -/
def faultyData (rows : Rows) : Entries :=
  let faulty := rows.nodes.find? fun row => !(loadPayload row.kind (screenedData server row)).isOk
  (faulty.bind NodeRow.data).getD []

def retoldFault (rows : Rows) : Document.Fault → Document.Fault
  | .node id (.invalid key problems) =>
    let v := ((faultyData server rows).lookup key).getD .null
    .node id (.invalid key (problems.flatMap (retold server v)))
  | fault => fault

def graphOf (rows : Rows) : Except Document.Fault Graph := do
  let _ ← (screenedRows server rows).toGraph.mapError (retoldFault server rows)
  rows.toGraph

end Flowsheet.Web
