import Flowsheet.Document.Field
import Flowsheet.Graph.Basic

/-! The rows that a document is made of, as they stand in it. A row may have further entries. -/

namespace Flowsheet.Document

def position : Value → Checked Position :=
  record "Position" fun es =>
    Position.mk <$> defaulting es ["x"] .zero number <*> defaulting es ["y"] .zero number

/-- A node whose data has not been read yet. -/
structure NodeRow where
  id : String
  kind : Kind
  position : Option Position
  data : Option Entries

def nodeRow : Value → Checked NodeRow :=
  record "NodeDocument" fun es =>
    NodeRow.mk <$> required es ["id"] filledText <*> required es ["type"] kind
      <*> defaulting es ["position"] none (orNull Document.position)
      <*> defaulting es ["data"] none (orNull entries)

def edgeRow : Value → Checked Edge :=
  record "EdgeDocument" fun es =>
    Edge.mk <$> required es ["id"] filledText <*> required es ["source"] filledText
      <*> required es ["target"] filledText
      <*> defaulting es ["sourceHandle", "source_handle"] none (orNull text)

structure Rows where
  nodes : List NodeRow
  edges : List Edge

def rowsOrNull {α : Type} (check : Value → Checked α) : Value → Checked (List α)
  | .null => .valid []
  | v => listOf check v

def rows : Value → Checked Rows :=
  record "WorkflowDocument" fun es =>
    Rows.mk <$> defaulting es ["nodes"] [] (rowsOrNull nodeRow)
      <*> defaulting es ["edges"] [] (rowsOrNull edgeRow)

def itemRow : Value → Checked Item :=
  record "ItemRow" fun es =>
    Item.mk <$> required es ["id"] filledText
      <*> defaulting es ["yield", "yield_ratio"] none (orNull number)

/-- A subproduct whose quantity has not been made out yet. -/
structure SubproductRow where
  product : String
  ratio : Option Double
  isVariable : Bool
  unit : Option String

def subproductRow : Value → Checked SubproductRow :=
  record "SubproductRow" fun es =>
    SubproductRow.mk <$> required es ["productId", "product_id"] filledText
      <*> defaulting es ["ratio"] none (orNull number)
      <*> defaulting es ["isVariable", "is_variable"] false bool
      <*> defaulting es ["unit"] none (orNull text)

end Flowsheet.Document
