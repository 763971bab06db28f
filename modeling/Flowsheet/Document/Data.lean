import Flowsheet.Document.Row
import Flowsheet.Value.Display

/-! The data object of a node and the payload that it stands for. Entries that belong to the kind
become fields, entries that a renderer leaves behind are dropped, and all others are kept as they
are. The first entry that has no reading is reported. -/

namespace Flowsheet.Document

/-- Keys that a renderer adds while it draws. -/
def transientKeys : List String :=
  ["simActive", "activeStep", "simValues", "inventory", "tasks", "onDelete"]

/-- Why data are refused. A caption with a number that is too long is not thought of as malformed. -/
inductive DataFault where
  | invalid (key : String) (problems : List Problem)
  | subproduct (fault : Subproduct.Fault)
  | longCaption
deriving DecidableEq, Repr

def DataFault.message : DataFault → String
  | .invalid key problems => problemText s!"field {Text.quoted key}" problems
  | .subproduct fault => fault.message
  | .longCaption => Text.longNumberMessage ""

/-- What one entry says. -/
inductive DataField where
  | label (s : String)
  | subLabel (s : String)
  | description (s : String)
  | location (s : String)
  | items (items : List Item)
  | subproducts (subproducts : List Subproduct)
  | pieceworkRate (rate : Option Double)
  | branches (branches : List String)
  | expression (template : Option String)
  | resultName (name : Option String)
  | values (values : Entries)
  | task (id : Option String)
  | rate (rate : Option Double)
  | transient
  | other (key : String) (value : Value)

/-- A caption is any value, shown as text. -/
def caption : Value → Except DataFault String
  | .null => .ok ""
  | v => match v.plain? with
    | some s => .ok s
    | none => .error .longCaption

/-- The reading of an entry that every shape has. -/
def captionField? (key : String) (v : Value) : Option (Except DataFault DataField) :=
  match key with
  | "label" => some ((caption v).map .label)
  | "subLabel" => some ((caption v).map .subLabel)
  | "description" => some ((caption v).map .description)
  | "location" => some ((caption v).map .location)
  | _ => none

def reading {α : Type} (key : String) (field : α → DataField) (checked : Checked α) :
    Except DataFault DataField :=
  match checked with
  | .valid x => .ok (field x)
  | .invalid problems => .error (.invalid key problems)

def SubproductRow.toSubproduct (row : SubproductRow) : Except DataFault Subproduct :=
  (Subproduct.make row.product row.ratio row.isVariable (row.unit.getD "")).mapError .subproduct

def readSubproducts (key : String) (v : Value) : Except DataFault DataField :=
  match listOf subproductRow v with
  | .invalid problems => .error (.invalid key problems)
  | .valid rows => (rows.mapM SubproductRow.toSubproduct).map .subproducts

/-- The reading of an entry that belongs to the shape. -/
def shapeField? (shape : Shape) (key : String) (v : Value) : Option (Except DataFault DataField) :=
  match shape, key with
  | .items, "items" | .process, "items" => some (reading key .items (listOf itemRow v))
  | .process, "subproducts" => some (readSubproducts key v)
  | .process, "pieceworkRate" => some (reading key .pieceworkRate (orNull number v))
  | .decision, "branches" => some (reading key .branches (listOf text v))
  | .math, "expression" => some (reading key .expression (orNull text v))
  | .math, "resultVar" => some (reading key .resultName (orNull text v))
  | .display, "values" => some (reading key .values (entries v))
  | .piecework, "taskId" => some (reading key .task (orNull text v))
  | .piecework, "rate" => some (reading key .rate (orNull number v))
  | _, _ => none

/-- The reading of an entry that is understood. -/
def fieldOf? (shape : Shape) (key : String) (v : Value) : Option (Except DataFault DataField) :=
  (captionField? key v).or (shapeField? shape key v)

def readEntry (shape : Shape) (entry : String × Value) : Except DataFault DataField :=
  let (key, v) := entry
  if transientKeys.contains key then .ok .transient
  else (fieldOf? shape key v).getD (.ok (.other key v))

def setBody (body : Body) (field : DataField) : Body :=
  match field, body with
  | .items xs, .items _ => .items xs
  | .items xs, .process _ ss r => .process xs ss r
  | .subproducts ss, .process xs _ r => .process xs ss r
  | .pieceworkRate r, .process xs ss _ => .process xs ss r
  | .branches bs, .decision _ => .decision bs
  | .expression e, .math _ r => .math e r
  | .resultName r, .math e _ => .math e r
  | .values vs, .display _ => .display (.ofEntries vs)
  | .task t, .piecework _ r => .piecework t r
  | .rate r, .piecework t _ => .piecework t r
  | _, b => b

def setField (p : Payload) (field : DataField) : Payload :=
  match field with
  | .label s => { p with label := s }
  | .subLabel s => { p with subLabel := s }
  | .description s => { p with description := s }
  | .location s => { p with location := s }
  | .other key v => { p with extra := p.extra.set key v }
  | field => { p with body := setBody p.body field }

def loadPayload (kind : Kind) (data : Entries) : Except DataFault Payload := do
  return (← data.mapM (readEntry kind.shape)).foldl setField (.empty kind.shape)

/-! Writing. -/

def numberEntry (key : String) (x : Option Double) : Entries :=
  (x.map fun x => (key, .double x)).toList

def textEntry (key : String) (s : Option String) : Entries :=
  (s.map fun s => (key, .text s)).toList

def filledEntry (key : String) (s : String) : Entries :=
  if s = "" then [] else [(key, .text s)]

def rowsEntry {α : Type} (key : String) (dump : α → Value) (rows : List α) : Entries :=
  if rows.isEmpty then [] else [(key, .list (rows.map dump))]

def dumpItem (item : Item) : Value :=
  .object (("id", .text item.product) :: numberEntry "yield" item.yieldRatio)

def dumpSubproduct (s : Subproduct) : Value :=
  .object (("productId", .text s.product) :: match s.quantity with
    | .fixed ratio => [("ratio", .double ratio)]
    | .variable => ("isVariable", .bool true) :: filledEntry "unit" s.unit)

def bodyEntries : Body → Entries
  | .basic => []
  | .items items => rowsEntry "items" dumpItem items
  | .process items subproducts rate =>
    rowsEntry "items" dumpItem items ++ rowsEntry "subproducts" dumpSubproduct subproducts ++
      numberEntry "pieceworkRate" rate
  | .decision branches => [("branches", .list (branches.map .text))]
  | .math expression resultName =>
    textEntry "expression" expression ++ textEntry "resultVar" resultName
  | .display values => [("values", .object values.entries)]
  | .piecework task rate => textEntry "taskId" task ++ numberEntry "rate" rate

/-- The entries that are understood, in the order in which they are written. -/
def knownEntries (p : Payload) : Entries :=
  filledEntry "label" p.label ++ filledEntry "subLabel" p.subLabel ++
    filledEntry "description" p.description ++ filledEntry "location" p.location ++
    bodyEntries p.body

def dumpPayload (p : Payload) : Entries :=
  (p.extra.setAll (knownEntries p)).entries

end Flowsheet.Document
