import Flowsheet.Proofs.Document.KeyOrder

/-! Captions of documents without long numbers. They can all be written out, so that the data of a
node are refused only for what is malformed in them. -/

namespace Flowsheet.Document

open Value

variable {shape : Shape} {key : String} {v document : Value} {es : Entries} {names : List String}
  {fault : DataFault} {row : NodeRow} {content : Rows}

theorem reading_ne_longCaption {α : Type} {make : α → DataField} {checked : Checked α}
    (hr : reading key make checked = .error fault) : fault ≠ .longCaption := by
  cases checked with
  | valid x => cases hr
  | invalid problems =>
    cases hr
    exact nofun

theorem readSubproducts_ne_longCaption (hr : readSubproducts key v = .error fault) :
    fault ≠ .longCaption := by
  unfold readSubproducts at hr
  split at hr
  · cases hr
    exact nofun
  · obtain ⟨_, row, _, _, _, hrow⟩ := mapM_eq_error.mp (map_eq_error.mp hr)
    obtain ⟨made, -, rfl⟩ := mapError_eq_error.mp hrow
    exact nofun

/-- Only captions are written out. -/
theorem shapeField?_ne_longCaption (hr : shapeField? shape key v = some (.error fault)) :
    fault ≠ .longCaption := by
  unfold shapeField? at hr
  split at hr <;>
    first
    | exact reading_ne_longCaption (Option.some.inj hr)
    | exact readSubproducts_ne_longCaption (Option.some.inj hr)
    | cases hr

theorem captionField?_ne_error (hv : v.isShort = true) :
    captionField? key v ≠ some (.error fault) := by
  intro hr
  obtain ⟨field, hok⟩ := captionField?_ok_iff.mpr ⟨mem_captionKeys hr, hv⟩
  cases hr.symm.trans hok

theorem ne_longCaption_of_isShort (hes : ∀ entry ∈ es, entry.2.isShort = true)
    (hf : FirstRefused shape es fault) : fault ≠ .longCaption := by
  obtain ⟨rfl, -, hrefused⟩ := hf
  rcases fieldOf?_eq_some hrefused with hc | hs
  · exact absurd hc (captionField?_ne_error (hes _ (by simp)))
  · exact shapeField?_ne_longCaption hs

theorem isShort_of_fieldValue? (hes : ∀ entry ∈ es, entry.2.isShort = true)
    (hv : fieldValue? es names = some v) : v.isShort = true := by
  obtain ⟨name, -, hlookup⟩ := List.exists_of_findSome?_eq_some hv
  obtain ⟨before, after, rfl, -⟩ := List.lookup_eq_some_iff.mp hlookup
  exact hes (name, v) (by simp)

theorem isShort_data (hw : Form.Record Form.NodeFields v row) (hv : v.isShort = true) :
    ∀ entry ∈ row.data.getD [], entry.2.isShort = true := by
  obtain ⟨es, rfl, hrow⟩ := hw
  rcases hrow.data with ⟨-, hnone⟩ | ⟨v, hfield, hdata⟩
  · rw [hnone]
    exact List.forall_mem_nil _
  · have hshort := isShort_of_fieldValue? (isShort_object_iff.mp hv) hfield
    generalize row.data = data at hdata
    cases hdata with
    | null => exact List.forall_mem_nil _
    | given _ hobject =>
      rw [hobject] at hshort
      exact isShort_object_iff.mp hshort

theorem isShort_nodes {items : List Value} {rows : List NodeRow}
    (hw : List.Forall₂ (Form.Record Form.NodeFields) items rows)
    (hi : ∀ item ∈ items, item.isShort = true) :
    ∀ row ∈ rows, ∀ entry ∈ row.data.getD [], entry.2.isShort = true := by
  induction hw with
  | nil => exact List.forall_mem_nil _
  | cons hrow _ ih =>
    obtain ⟨hitem, hrest⟩ := List.forall_mem_cons.mp hi
    exact List.forall_mem_cons.mpr ⟨isShort_data hrow hitem, ih hrest⟩

theorem isShort_rows (hw : Form.Record Form.RowsFields document content)
    (hd : document.isShort = true) :
    ∀ row ∈ content.nodes, ∀ entry ∈ row.data.getD [], entry.2.isShort = true := by
  obtain ⟨es, rfl, hcontent⟩ := hw
  rcases hcontent.nodes with ⟨-, hnone⟩ | ⟨v, hfield, ⟨-, hnone⟩ | ⟨items, rfl, hitems⟩⟩
  · rw [hnone]
    exact List.forall_mem_nil _
  · rw [hnone]
    exact List.forall_mem_nil _
  · have hshort := isShort_of_fieldValue? (isShort_object_iff.mp hd) hfield
    exact isShort_nodes hitems (isShort_list_iff.mp hshort)

end Flowsheet.Document
