import Flowsheet.Proofs.Document.RoundTrip

/-! The document of a graph as a normal form. Reading it and writing it again changes nothing, and
the data of each node are the entries that are not understood, as they were given, followed by the
known ones in their fixed order. -/

namespace Flowsheet

namespace Document

variable {shape : Shape} {key : String} {v : Value} {p : Payload} {field : DataField}

instance (shape : Shape) (key : String) : Decidable (Unknown shape key) :=
  decidable_of_iff (key ∉ transientKeys ∧ key ∉ captionKeys ∧ key ∉ shapeKeys shape)
    ⟨fun ⟨ht, hc, hf⟩ => ⟨ht, hc, hf⟩, fun ⟨ht, hc, hf⟩ => ⟨ht, hc, hf⟩⟩

/-- The entries of the data that no field takes up and no renderer left. -/
def unknownEntries (shape : Shape) (data : Entries) : Entries :=
  data.filter fun entry => Unknown shape entry.1

def DataField.kept : DataField → Entries
  | .other key v => [(key, v)]
  | _ => []

theorem kept_of_key? (hk : field.key? = some key) : field.kept = [] := by
  cases field <;> first | rfl | cases hk

theorem kept_of_readEntry {entry : String × Value} (hf : readEntry shape entry = .ok field) :
    field.kept = if Unknown shape entry.1 then [entry] else [] := by
  split
  · next hk =>
    rw [readEntry_of_unknown hk] at hf
    cases hf
    rfl
  · next hk =>
    rcases readEntry_eq_ok hf with ⟨-, rfl⟩ | hr | ⟨hu, -⟩
    · rfl
    · exact kept_of_key? (key?_of_fieldOf? hr)
    · exact absurd hu hk

theorem extra_setField (p : Payload) (field : DataField) :
    (setField p field).extra = p.extra.setAll field.kept := by
  cases field <;> rfl

theorem extra_foldl_setField (fields : List DataField) (p : Payload) :
    (fields.foldl setField p).extra = p.extra.setAll (fields.flatMap DataField.kept) := by
  induction fields generalizing p with
  | nil => rfl
  | cons field fields ih =>
    rw [List.foldl_cons, ih, extra_setField, List.flatMap_cons, Table.setAll, Table.setAll,
      Table.setAll, List.foldl_append]

theorem flatMap_kept {data : Entries} {fields : List DataField}
    (hf : data.mapM (readEntry shape) = .ok fields) :
    fields.flatMap DataField.kept = unknownEntries shape data := by
  induction data generalizing fields with
  | nil =>
    cases hf
    rfl
  | cons entry data ih =>
    obtain ⟨field, rest, hfield, hrest, rfl⟩ := mapM_cons_eq_ok.mp hf
    rw [List.flatMap_cons, ih hrest, kept_of_readEntry hfield, unknownEntries, unknownEntries,
      List.filter_cons]
    by_cases hk : Unknown shape entry.1 <;> simp [hk]

theorem extra_loadPayload {kind : Kind} {data : Entries} (hp : loadPayload kind data = .ok p) :
    p.extra = .ofEntries (unknownEntries kind.shape data) := by
  obtain ⟨fields, hf, rfl⟩ := loadPayload_eq_ok hp
  rw [extra_foldl_setField, flatMap_kept hf]
  rfl

/-- If a key comes twice in the data, its last value stands at its first place. -/
theorem dumpPayload_loadPayload {kind : Kind} {data : Entries}
    (hp : loadPayload kind data = .ok p) :
    dumpPayload p =
      (Table.ofEntries (unknownEntries kind.shape data)).entries ++ knownEntries p := by
  rw [dumpPayload_eq_append (storable_loadPayload hp), extra_loadPayload hp]

theorem entries_ofEntries_unknown {data : Entries} (hd : (data.map Prod.fst).Nodup) :
    (Table.ofEntries (unknownEntries shape data)).entries = unknownEntries shape data := by
  rw [Table.ofEntries, Table.entries_setAll]
  · rfl
  · exact hd.sublist (List.filter_sublist.map _)

theorem not_transient_of_dumpPayload (hp : Storable p) {entry : String × Value}
    (he : entry ∈ dumpPayload p) : entry.1 ∉ transientKeys := by
  rw [dumpPayload_eq_append hp] at he
  rcases List.mem_append.mp he with he | he
  · exact (hp.extra_unknown entry.1 (List.mem_map_of_mem he)).not_transient
  · exact not_transient_of_understood
      ((keys_knownEntries p).subset (List.mem_map_of_mem he))

theorem dumpSubproduct_saved (s : Subproduct) : dumpSubproduct s.saved = dumpSubproduct s := by
  obtain ⟨product, quantity, unit⟩ := s
  cases quantity <;> rfl

theorem bodyEntries_saved (body : Body) : bodyEntries body.saved = bodyEntries body := by
  cases body with
  | process xs ss rate =>
    have hrows : rowsEntry "subproducts" dumpSubproduct (ss.map Subproduct.saved) =
        rowsEntry "subproducts" dumpSubproduct ss := by
      simp only [rowsEntry, List.isEmpty_map, List.map_map, Function.comp_def, dumpSubproduct_saved]
    simp only [Body.saved, bodyEntries, hrows]
  | _ => rfl

theorem dumpPayload_saved (p : Payload) : dumpPayload p.saved = dumpPayload p := by
  have hknown : knownEntries p.saved = knownEntries p := by
    simp only [knownEntries, Payload.saved, bodyEntries_saved]
  rw [dumpPayload, dumpPayload, hknown]
  rfl

theorem dumpGraph_saved {g : Graph} (hg : g.Keyed) : dumpGraph g.saved = dumpGraph g := by
  have hnode : ∀ n : Node, dumpNode n.saved = dumpNode n := fun n =>
    congrArg (fun data : Entries => Value.object [("id", .text n.id), ("type", .text n.kind.tag),
      ("position", dumpPosition n.position), ("data", .object data)]) (dumpPayload_saved n.payload)
  have hsaved := Graph.saved_holds hg
  rw [dumpGraph, dumpGraph, hsaved.nodes_eq, hsaved.edges_eq, List.map_map]
  simp only [Function.comp_def, hnode]

theorem valid_of_itemsFrom {α : Type} {check : Value → Checked α} {vs : List Value} {index : Nat}
    {xs : List α} (h : itemsFrom check index vs = .valid xs) :
    ∀ v ∈ vs, ∃ x, check v = .valid x := by
  induction vs generalizing index xs with
  | nil => simp
  | cons w vs ih =>
    obtain ⟨k, ys, hk, hys, rfl⟩ := Checked.seq_eq_valid h
    obtain ⟨y, hy, rfl⟩ := Checked.map_eq_valid hk
    intro v hv
    rcases List.mem_cons.mp hv with rfl | hv
    · exact ⟨y, Checked.under_eq_valid hy⟩
    · exact ih hys v hv

theorem checkedAs_eq_ok {α : Type} {what : String} {checked : Checked α} {x : α}
    (h : checkedAs what checked = .ok x) : checked = .valid x := by
  cases checked with
  | valid y => exact congrArg Checked.valid (Except.ok.inj h)
  | invalid problems => cases h

theorem required_text_ne_empty {es : Entries} {name text s : String}
    (hl : es.lookup name = some (.text text)) (h : required es [name] filledText = .valid s) :
    text ≠ "" := by
  rintro rfl
  simp [required, field?, namedField?, hl, filledText, Checked.flaw, Checked.under] at h

theorem id_of_edgeRow_dumpEdge {e d : Edge} (h : edgeRow (dumpEdge e) = .valid d) : e.id ≠ "" := by
  obtain ⟨es, hes, hrow⟩ := record_eq_valid h
  cases hes
  obtain ⟨k₃, handle, h₃, -, rfl⟩ := Checked.seq_eq_valid hrow
  obtain ⟨k₂, target, h₂, -, rfl⟩ := Checked.seq_eq_valid h₃
  obtain ⟨k₁, source, h₁, -, rfl⟩ := Checked.seq_eq_valid h₂
  obtain ⟨id, hid, rfl⟩ := Checked.map_eq_valid h₁
  exact required_text_ne_empty rfl hid

theorem ids_of_loadGraph_dumpGraph {g h : Graph} (hload : loadGraph (dumpGraph g) = .ok h) :
    ∀ e ∈ g.edges, e.id ≠ "" := by
  intro e he
  obtain ⟨content, hc, -⟩ := bind_eq_ok.mp hload
  obtain ⟨es, hes, hrows⟩ := record_eq_valid (checkedAs_eq_ok hc)
  cases hes
  obtain ⟨k, edges, -, hedges, rfl⟩ := Checked.seq_eq_valid hrows
  obtain ⟨d, hd⟩ := valid_of_itemsFrom (Checked.under_eq_valid hedges) (dumpEdge e)
    (List.mem_map_of_mem he)
  exact id_of_edgeRow_dumpEdge hd

/-- The entry of an object under a key. -/
def valueAt? (key : String) : Value → Option Value
  | .object es => es.lookup key
  | _ => none

/-- The node rows of a document, in their order. -/
def nodeRows (document : Value) : List Value :=
  match valueAt? "nodes" document with
  | some (.list rows) => rows
  | _ => []

theorem nodeRows_dumpGraph (g : Graph) : nodeRows (dumpGraph g) = g.nodes.map dumpNode := rfl

/-- What the data object of a node is like: the entries that nothing takes up, as they were given,
and then the known ones in their fixed order. -/
structure NormalData (n : Node) (data : Entries) : Prop where
  read : ∃ given, loadPayload n.kind given = .ok n.payload
  unknown_first : ∀ given, loadPayload n.kind given = .ok n.payload →
    data = (Table.ofEntries (unknownEntries n.kind.shape given)).entries ++
      knownEntries n.payload ∧
    ((given.map Prod.fst).Nodup →
      data = unknownEntries n.kind.shape given ++ knownEntries n.payload)
  known_order :
    ((knownEntries n.payload).map Prod.fst).Sublist (captionKeys ++ shapeKeys n.kind.shape)
  no_transient : ∀ entry ∈ data, entry.1 ∉ transientKeys

/-- The row has a data object, and the data object is as it should be. -/
def NormalRow (n : Node) (row : Value) : Prop :=
  ∃ data, valueAt? "data" row = some (.object data) ∧ NormalData n data

end Document

namespace Graph

open Document

variable {g : Graph}

/-- What the document of a graph is like. It is refused only for an edge under the empty id. -/
structure Normal (g : Graph) : Prop where
  accepted_iff : (∃ h, loadGraph (dumpGraph g) = .ok h) ↔ ∀ e ∈ g.edges, e.id ≠ ""
  settled : ∀ h, loadGraph (dumpGraph g) = .ok h → dumpGraph h = dumpGraph g
  rows : List.Forall₂ NormalRow g.nodes (nodeRows (dumpGraph g))

namespace Reachable

theorem data_read (hg : g.Reachable) {n : Node} (hn : n ∈ g.nodes) :
    ∃ data, loadPayload n.kind data = .ok n.payload := by
  obtain ⟨-, kind, data, hload⟩ := hg.read n hn
  have hshape : n.kind.shape = kind.shape :=
    (hg.sound.fitting.shape_eq n hn).symm.trans (shape_loadPayload hload)
  refine ⟨data, ?_⟩
  rw [loadPayload, hshape]
  exact hload

theorem dump_settled (hg : g.Reachable) (he : ∀ e ∈ g.edges, e.id ≠ "") :
    ∃ h, loadGraph (dumpGraph g) = .ok h ∧ dumpGraph h = dumpGraph g :=
  ⟨g.saved, loadGraph_dumpGraph hg.sound hg.storable he, dumpGraph_saved hg.sound.toKeyed⟩

theorem accepted_iff (hg : g.Reachable) :
    (∃ h, loadGraph (dumpGraph g) = .ok h) ↔ ∀ e ∈ g.edges, e.id ≠ "" := by
  constructor
  · rintro ⟨h, hload⟩
    exact ids_of_loadGraph_dumpGraph hload
  · intro he
    obtain ⟨h, hload, -⟩ := hg.dump_settled he
    exact ⟨h, hload⟩

theorem normalData (hg : g.Reachable) {n : Node} (hn : n ∈ g.nodes) :
    NormalData n (dumpPayload n.payload) where
  read := hg.data_read hn
  unknown_first given hload := by
    have hdump := dumpPayload_loadPayload hload
    refine ⟨hdump, fun hd => ?_⟩
    rw [hdump, entries_ofEntries_unknown hd]
  known_order := by
    rw [← hg.sound.fitting.shape_eq n hn]
    exact keys_knownEntries n.payload
  no_transient _ he := not_transient_of_dumpPayload (hg.storable n hn).2 he

theorem normal (hg : g.Reachable) : g.Normal where
  accepted_iff := hg.accepted_iff
  settled h hload := by
    obtain ⟨k, hk, hdump⟩ := hg.dump_settled (hg.accepted_iff.mp ⟨h, hload⟩)
    rw [Except.ok.inj (hload.symm.trans hk), hdump]
  rows := by
    rw [nodeRows_dumpGraph, List.forall₂_map_right_iff, List.forall₂_same]
    exact fun n hn => ⟨dumpPayload n.payload, rfl, hg.normalData hn⟩

end Reachable

/-- Washing is drawn as active, and has a color that no field takes up. -/
def washedDocument : Value :=
  .object [("nodes", .list [.object [("id", .text "wash"), ("type", .text "action"),
    ("data", .object [("label", .text "Lavar"), ("simActive", .bool true),
      ("color", .text "amber")])]])]

def washed : Graph :=
  ⟨⟨.ofEntries [("wash", ⟨"wash", .action,
    ⟨"Lavar", "", "", "", .ofEntries [("color", .text "amber")], .basic⟩, .origin⟩)]⟩, .empty⟩

theorem loadGraph_washedDocument : loadGraph washedDocument = .ok washed := rfl

theorem washed_normal :
    (washed.tryEdit (.connect "wash" "wash" none)).Reachable ∧
    (washed.tryEdit (.connect "wash" "wash" none)).Normal ∧
    (∃ h, loadGraph (dumpGraph (washed.tryEdit (.connect "wash" "wash" none))) = .ok h) ∧
    (nodeRows (dumpGraph (washed.tryEdit (.connect "wash" "wash" none)))).map (valueAt? "data") =
      [some (.object [("color", .text "amber"), ("label", .text "Lavar")])] := by
  have hr : (washed.tryEdit (.connect "wash" "wash" none)).Reachable :=
    .edited (.loaded loadGraph_washedDocument) trivial
  exact ⟨hr, hr.normal, hr.normal.accepted_iff.mpr (by decide), rfl⟩

/-- Nothing but the reading asks for the id of an edge. -/
theorem unnamed_edge_refused :
    (washed.tryEdit (.addEdge ⟨"", "wash", "wash", none⟩ true)).Reachable ∧
    (washed.edit (.addEdge ⟨"", "wash", "wash", none⟩ true)).isOk = true ∧
    loadGraph (dumpGraph (washed.tryEdit (.addEdge ⟨"", "wash", "wash", none⟩ true))) =
      .error (.invalid "workflow document"
        [⟨[.field "edges", .item 0, .field "id"], .emptyText⟩]) :=
  ⟨.edited (.loaded loadGraph_washedDocument) trivial, rfl, rfl⟩

end Graph

end Flowsheet
