import Flowsheet.Proofs.Document.Caption
import Flowsheet.Proofs.Value.Reading

/-! Which documents become graphs. A document that does not have the form of one is refused before
any node is made, and otherwise for the first of its nodes that is at fault, or else for the first
of its edges. A document without a fault becomes the graph of its rows. -/

namespace Flowsheet.Document

variable {g h : Graph} {document : Value} {content : Rows} {row : NodeRow} {edge : Edge}
  {fault : Fault} {nodes : List NodeRow} {edges : List Edge}

/-- The rows of a document. No document at all has none. -/
def Writes (document : Value) (content : Rows) : Prop :=
  document = .null ∧ content = ⟨[], []⟩ ∨ Form.Record Form.RowsFields document content

/-- Each entry of the data is as the kind of the node asks for. -/
def NodeRow.DataFits (row : NodeRow) : Prop :=
  ∀ entry ∈ row.data.getD [], Form.Entry row.kind.shape entry.1 entry.2

namespace Rows

def nodeIds (content : Rows) : List String := content.nodes.map NodeRow.id

def edgeIds (content : Rows) : List String := content.edges.map Edge.id

structure Fitting (content : Rows) : Prop where
  data_fits : ∀ row ∈ content.nodes, row.DataFits
  nodeIds_nodup : content.nodeIds.Nodup
  source_mem : ∀ edge ∈ content.edges, edge.source ∈ content.nodeIds
  target_mem : ∀ edge ∈ content.edges, edge.target ∈ content.nodeIds
  edgeIds_nodup : content.edgeIds.Nodup

end Rows

/-- What is wrong with a node row after rows with these ids. -/
inductive NodeFault (ids : List String) (row : NodeRow) : Fault → Prop
  | data {fault : DataFault} (hd : ¬ row.DataFits)
      (hf : loadPayload row.kind (row.data.getD []) = .error fault) :
      NodeFault ids row (fault.ofNode row.id)
  | duplicate (hd : row.DataFits) (hid : row.id ∈ ids) :
      NodeFault ids row (.graph (.duplicateNode row.id))

/-- What is wrong with an edge row after rows with these ids. -/
inductive EdgeFault (nodeIds edgeIds : List String) (edge : Edge) : Fault → Prop
  | source (hs : edge.source ∉ nodeIds) :
      EdgeFault nodeIds edgeIds edge (.graph (.danglingEnd edge.id edge.source))
  | target (hs : edge.source ∈ nodeIds) (ht : edge.target ∉ nodeIds) :
      EdgeFault nodeIds edgeIds edge (.graph (.danglingEnd edge.id edge.target))
  | duplicate (hs : edge.source ∈ nodeIds) (ht : edge.target ∈ nodeIds) (hid : edge.id ∈ edgeIds) :
      EdgeFault nodeIds edgeIds edge (.graph (.duplicateEdge edge.id))

/-- The rows before the first one at fault fit together, and edges come after all nodes. -/
inductive Rows.FirstFault (content : Rows) : Fault → Prop
  | node {before after : List NodeRow} {row : NodeRow} {fault : Fault}
      (hsplit : content.nodes = before ++ row :: after) (hbefore : Rows.Fitting ⟨before, []⟩)
      (hrow : NodeFault (before.map NodeRow.id) row fault) : FirstFault content fault
  | edge {before after : List Edge} {edge : Edge} {fault : Fault}
      (hsplit : content.edges = before ++ edge :: after)
      (hbefore : Rows.Fitting ⟨content.nodes, before⟩)
      (hedge : EdgeFault content.nodeIds (before.map Edge.id) edge fault) : FirstFault content fault

inductive FirstFault (document : Value) : Fault → Prop
  | form {problems : List Problem} (hw : ∀ content, ¬ Writes document content)
      (hp : rows document = .invalid problems) :
      FirstFault document (.invalid "workflow document" problems)
  | row {content : Rows} {fault : Fault} (hw : Writes document content)
      (hf : content.FirstFault fault) : FirstFault document fault

namespace Rows

end Rows

theorem NodeFault.isMalformed {ids : List String} (hf : NodeFault ids row fault)
    (hs : ∀ entry ∈ row.data.getD [], entry.2.isShort = true) : fault.isMalformed = true := by
  cases hf with
  | @data fault _ hload =>
    have hshort := ne_longCaption_of_isShort hs (loadPayload_eq_error_iff.mp hload)
    cases fault with
    | longCaption => exact absurd rfl hshort
    | invalid | subproduct => rfl
  | duplicate => rfl

theorem FirstFault.isMalformed (hf : FirstFault document fault) (hd : document.isShort = true) :
    fault.isMalformed = true := by
  cases hf with
  | form => rfl
  | @row content _ hw hf =>
    cases hf with
    | node hsplit _ hrow =>
      refine hrow.isMalformed ?_
      rcases hw with ⟨-, rfl⟩ | hw
      · simp at hsplit
      · exact isShort_rows hw hd _ (by simp [hsplit])
    | edge _ _ hedge => cases hedge <;> rfl

-- The second node has the id of the first one, and yet the missing target is what is reported.
example : loadGraph (.object [
    ("nodes", .list [.object [("id", .text "pulper"), ("type", .text "process")],
      .object [("id", .text "pulper"), ("type", .text "end")]]),
    ("edges", .list [.object [("id", .text "e1"), ("source", .text "pulper")]])]) =
      .error (.invalid "workflow document"
        [⟨[.field "edges", .item 0, .field "target"], .missing⟩]) := rfl

end Flowsheet.Document
