import Flowsheet.Proofs.Document.Saved
import Flowsheet.Proofs.Graph.Integrity

/-! Writing a graph and reading it back. The rows of a reachable graph pass all checks, except that
an edge may have been added under the empty id; the graph that is read is the saved form of the one
that was written. -/

namespace Flowsheet

def Node.saved (n : Node) : Node := { n with payload := n.payload.saved }

def Graph.saved (g : Graph) : Graph := { g with nodeCatalog := g.nodeCatalog.map Node.saved }

theorem Graph.saved_holds {g : Graph} (hg : g.Keyed) :
    g.saved.Holds (g.nodes.map Node.saved) g.edges :=
  ⟨⟨hg.nodes_keyed.map fun _ => rfl, hg.edges_keyed⟩, Catalog.records_map _ _, rfl⟩

theorem Graph.saved_eq_self_iff {g : Graph} (hg : g.Keyed) :
    g.saved = g ↔
      ∀ n ∈ g.nodes, ∀ s ∈ n.payload.subproducts, ¬ s.isVariable = true → s.unit = "" := by
  have hnode : ∀ n : Node, n.saved = n ↔ n.payload.saved = n.payload := by
    intro n
    obtain ⟨id, kind, payload, position⟩ := n
    simp [Node.saved]
  have hnodes : g.saved = g ↔ g.nodes.map Node.saved = g.nodes := by
    have hsaved := saved_holds hg
    constructor
    · intro h
      rw [← hsaved.nodes_eq, h]
    · intro h
      rw [h] at hsaved
      exact hsaved.unique hg.holds
  simp only [hnodes, ← Payload.saved_eq_self_iff, ← hnode]
  constructor
  · intro h n hn
    exact List.map_eq_map_iff.mp (h.trans (List.map_id g.nodes).symm) n hn
  · intro h
    exact (List.map_congr_left h).trans (List.map_id g.nodes)

namespace Document

variable {g h : Graph}

theorem position_dumpPosition (p : Position) :
    orNull position (dumpPosition p) = .valid (some p) := rfl

theorem kind_tag (k : Kind) : kind (.text k.tag) = .valid k := by
  simp [kind, Kind.ofTag?_tag]

def savedNodeRow (n : Node) : NodeRow :=
  ⟨n.id, n.kind, some n.position, some (dumpPayload n.payload)⟩

theorem nodeRow_dumpNode {n : Node} (hid : n.id ≠ "") :
    nodeRow (dumpNode n) = .valid (savedNodeRow n) := by
  let es : Entries := [("id", .text n.id), ("type", .text n.kind.tag),
    ("position", dumpPosition n.position), ("data", .object (dumpPayload n.payload))]
  have h₁ : required es ["id"] filledText = .valid n.id :=
    required_of_lookup (lookup_head ..) (filledText_text hid)
  have h₂ : required es ["type"] kind = .valid n.kind :=
    required_of_lookup (by simp [es, lookup_cons_ite]) (kind_tag n.kind)
  have h₃ : defaulting es ["position"] none (orNull position) = .valid (some n.position) :=
    defaulting_of_lookup (by simp [es, lookup_cons_ite]) (position_dumpPosition n.position) _
  have h₄ : defaulting es ["data"] none (orNull entries) = .valid (some (dumpPayload n.payload)) :=
    defaulting_of_lookup (by simp [es, lookup_cons_ite])
      (show orNull entries (.object (dumpPayload n.payload)) = _ from rfl) _
  change NodeRow.mk <$> required es ["id"] filledText <*> required es ["type"] kind
    <*> defaulting es ["position"] none (orNull position)
    <*> defaulting es ["data"] none (orNull entries) = _
  rw [h₁, h₂, h₃, h₄]
  rfl

theorem edgeRow_dumpEdge {e : Edge} (hid : e.id ≠ "") (hs : e.source ≠ "") (ht : e.target ≠ "") :
    edgeRow (dumpEdge e) = .valid e := by
  let es : Entries :=
    [("id", .text e.id), ("source", .text e.source), ("target", .text e.target)] ++
    textEntry "sourceHandle" e.handle
  have h₁ : required es ["id"] filledText = .valid e.id :=
    required_of_lookup (lookup_head ..) (filledText_text hid)
  have h₂ : required es ["source"] filledText = .valid e.source :=
    required_of_lookup (by simp [es, lookup_cons_ite]) (filledText_text hs)
  have h₃ : required es ["target"] filledText = .valid e.target :=
    required_of_lookup (by simp [es, lookup_cons_ite]) (filledText_text ht)
  have h₄ : defaulting es ["sourceHandle", "source_handle"] none (orNull text) =
      .valid e.handle := by
    cases hh : e.handle with
    | none => exact defaulting_of_absent (by simp [es, hh, textEntry, lookup_cons_ite]) _ _
    | some handle =>
      exact defaulting_of_lookup (by simp [es, hh, textEntry, lookup_cons_ite])
        (orNull_text handle) _
  change Edge.mk <$> required es ["id"] filledText <*> required es ["source"] filledText
    <*> required es ["target"] filledText
    <*> defaulting es ["sourceHandle", "source_handle"] none (orNull text) = _
  rw [h₁, h₂, h₃, h₄]
  rfl

theorem rows_dumpGraph (hn : ∀ n ∈ g.nodes, n.id ≠ "") (he : ∀ e ∈ g.edges, e.id ≠ "")
    (hends : ∀ e ∈ g.edges, e.source ≠ "" ∧ e.target ≠ "") :
    rows (dumpGraph g) = .valid ⟨g.nodes.map savedNodeRow, g.edges⟩ := by
  let es : Entries :=
    [("nodes", .list (g.nodes.map dumpNode)), ("edges", .list (g.edges.map dumpEdge))]
  have hnodes : rowsOrNull nodeRow (.list (g.nodes.map dumpNode)) =
      .valid (g.nodes.map savedNodeRow) :=
    listOf_map fun n hm => nodeRow_dumpNode (hn n hm)
  have hedges : rowsOrNull edgeRow (.list (g.edges.map dumpEdge)) = .valid g.edges :=
    listOf_dump fun e hm => edgeRow_dumpEdge (he e hm) (hends e hm).1 (hends e hm).2
  have h₁ : defaulting es ["nodes"] [] (rowsOrNull nodeRow) = .valid (g.nodes.map savedNodeRow) :=
    defaulting_of_lookup (lookup_head ..) hnodes _
  have h₂ : defaulting es ["edges"] [] (rowsOrNull edgeRow) = .valid g.edges :=
    defaulting_of_lookup (by simp [es, lookup_cons_ite]) hedges _
  change Rows.mk <$> defaulting es ["nodes"] [] (rowsOrNull nodeRow)
    <*> defaulting es ["edges"] [] (rowsOrNull edgeRow) = _
  rw [h₁, h₂]
  rfl

theorem toNode_savedNodeRow {n : Node} (hp : Storable n.payload)
    (hs : n.payload.shape = n.kind.shape) : (savedNodeRow n).toNode = .ok n.saved := by
  have hload := loadPayload_dumpPayload hp hs
  rw [NodeRow.toNode, savedNodeRow]
  simp only [Option.getD_some, hload]
  rfl

theorem addRow_savedNodeRow (hg : g.Keyed) {n : Node} (hid : n.id ∉ g.nodeIds)
    (hp : Storable n.payload) (hs : n.payload.shape = n.kind.shape) :
    ∃ h, addRow g (savedNodeRow n) = .ok h ∧ h.Holds (g.nodes ++ [n.saved]) g.edges := by
  obtain ⟨h, ha, hh⟩ := Graph.addNode_of_not_mem hg (show n.saved.id ∉ g.nodeIds from hid)
  refine ⟨h, ?_, hh⟩
  rw [addRow, toNode_savedNodeRow hp hs, ok_bind]
  exact mapError_eq_ok.mpr ha

theorem foldlM_addRow {nodes : List Node} (hnd : (nodes.map Node.id).Nodup)
    (hp : ∀ n ∈ nodes, Storable n.payload) (hs : ∀ n ∈ nodes, n.payload.shape = n.kind.shape) :
    ∃ h, (nodes.map savedNodeRow).foldlM addRow .empty = .ok h ∧
      h.Holds (nodes.map Node.saved) [] := by
  have hfresh : (([] ++ nodes).map Node.id).Nodup := hnd
  rw [List.foldlM_map]
  refine foldlM_ok_of_nodup (P := fun k ns => Graph.Holds k (ns.map Node.saved) []) ?_
    Graph.holds_empty hfresh
  intro k held n hn hk hid
  have hids : k.nodeIds = held.map Node.id := by
    rw [Graph.nodeIds, hk.nodes_eq, List.map_map]
    rfl
  obtain ⟨h, ha, hh⟩ := addRow_savedNodeRow hk.toKeyed (hids.symm ▸ hid) (hp n hn) (hs n hn)
  rw [hk.nodes_eq, hk.edges_eq] at hh
  exact ⟨h, ha, by rwa [List.map_append]⟩

theorem foldlM_addEdgeRow {nodes : List Node} (hg : g.Holds nodes []) {edges : List Edge}
    (hnd : (edges.map Edge.id).Nodup)
    (hends : ∀ e ∈ edges, e.source ∈ nodes.map Node.id ∧ e.target ∈ nodes.map Node.id) :
    ∃ h, edges.foldlM addEdgeRow g = .ok h ∧ h.Holds nodes edges := by
  refine foldlM_ok_of_nodup (P := fun k es => Graph.Holds k nodes es) ?_ hg hnd
  intro k held e he hk hid
  obtain ⟨hsource, htarget⟩ := hends e he
  rw [← hk.nodes_eq] at hsource htarget
  rw [← hk.edges_eq] at hid
  obtain ⟨h, ha, hh⟩ := Graph.addEdge_of_mem hk.toKeyed hsource htarget hid
  rw [hk.nodes_eq, hk.edges_eq] at hh
  exact ⟨h, mapError_eq_ok.mpr ha, hh⟩

/-- The saved form of a graph is what is read from its document, if every record has an id. -/
theorem loadGraph_dumpGraph (hg : g.Sound) (hp : ∀ n ∈ g.nodes, n.id ≠ "" ∧ Storable n.payload)
    (he : ∀ e ∈ g.edges, e.id ≠ "") : loadGraph (dumpGraph g) = .ok g.saved := by
  have hfilled : ∀ id ∈ g.nodeIds, id ≠ "" := by
    intro id hid
    obtain ⟨n, hn, rfl⟩ := List.mem_map.mp hid
    exact (hp n hn).1
  have hrows : rows (dumpGraph g) = .valid ⟨g.nodes.map savedNodeRow, g.edges⟩ :=
    rows_dumpGraph (fun n hn => (hp n hn).1) he fun e hm =>
      ⟨hfilled _ (hg.fitting.source_mem e hm), hfilled _ (hg.fitting.target_mem e hm)⟩
  have hids : (g.nodes.map Node.saved).map Node.id = g.nodeIds := by
    rw [List.map_map]
    rfl
  obtain ⟨h, hnodes, hh⟩ :=
    foldlM_addRow hg.nodeIds_nodup (fun n hn => (hp n hn).2) hg.fitting.shape_eq
  obtain ⟨k, hedges, hk⟩ := foldlM_addEdgeRow hh hg.edgeIds_nodup fun e hm =>
    ⟨hids.symm ▸ hg.fitting.source_mem e hm, hids.symm ▸ hg.fitting.target_mem e hm⟩
  change (checkedAs "workflow document" (rows (dumpGraph g)) >>= Rows.toGraph) = _
  rw [hrows]
  change ((g.nodes.map savedNodeRow).foldlM addRow .empty >>= g.edges.foldlM addEdgeRow) = _
  rw [hnodes, ok_bind, hedges, hk.unique (Graph.saved_holds hg.toKeyed)]

/-- No record of the graph is refused when it is read again. -/
structure Filled (g : Graph) : Prop extends g.Keyed where
  nodes_filled : ∀ n ∈ g.nodes, n.id ≠ "" ∧ n.payload.Read
  edges_filled : ∀ e ∈ g.edges, e.id ≠ ""

theorem filled_empty : Filled .empty where
  toKeyed := Graph.holds_empty.toKeyed
  nodes_filled n hn := by cases hn
  edges_filled e he := by cases he

theorem filled_addRow {row : NodeRow} (hid : row.id ≠ "") (hr : addRow g row = .ok h)
    (hg : Filled g) : Filled h := by
  obtain ⟨node, hn, ha⟩ := bind_eq_ok.mp hr
  obtain ⟨payload, hp, rfl⟩ := NodeRow.toNode_eq_ok hn
  obtain ⟨-, hh⟩ := Graph.addNode_eq_ok hg.toKeyed (mapError_eq_ok.mp ha)
  refine ⟨hh.toKeyed, fun n hm => ?_, fun e he => hg.edges_filled e (hh.edges_eq ▸ he)⟩
  rw [hh.nodes_eq] at hm
  rcases List.mem_append.mp hm with hm | hm
  · exact hg.nodes_filled n hm
  · rw [List.mem_singleton.mp hm]
    exact ⟨hid, row.kind, _, hp⟩

theorem filled_addEdgeRow {edge : Edge} (hid : edge.id ≠ "") (hr : addEdgeRow g edge = .ok h)
    (hg : Filled g) : Filled h := by
  obtain ⟨-, -, -, hh⟩ := Graph.addEdge_eq_ok hg.toKeyed (mapError_eq_ok.mp hr)
  refine ⟨hh.toKeyed, fun n hn => hg.nodes_filled n (hh.nodes_eq ▸ hn), fun e hm => ?_⟩
  rw [hh.edges_eq] at hm
  rcases List.mem_append.mp hm with hm | hm
  · exact hg.edges_filled e hm
  · rw [List.mem_singleton.mp hm]
    exact hid

theorem filled_of_loadGraph {document : Value} (hg : loadGraph document = .ok g) : Filled g := by
  rcases loadGraph_eq_ok hg with rfl | ⟨content, hv, ht⟩
  · exact filled_empty
  · obtain ⟨hnodes, hedges⟩ := filled_of_rows hv
    obtain ⟨k, hk, he⟩ := bind_eq_ok.mp ht
    exact foldlM_keeps (fun hm => filled_addEdgeRow (hedges _ hm)) he
      (foldlM_keeps (fun hm => filled_addRow (hnodes _ hm)) hk filled_empty)

theorem storable_of_read {p : Payload} (hp : p.Read) : Storable p := by
  obtain ⟨kind, data, hload⟩ := hp
  exact storable_loadPayload hload

theorem read_empty (kind : Kind) : (Payload.empty kind.shape).Read := ⟨kind, [], rfl⟩

theorem read_change (hg : g.Keyed) {e : Graph.Edit} {nodes : List Node} {edges : List Edge}
    (hc : Graph.Change g e nodes edges) (he : e.Admissible)
    (hp : ∀ n ∈ g.nodes, n.id ≠ "" ∧ n.payload.Read) :
    ∀ n ∈ nodes, n.id ≠ "" ∧ n.payload.Read := by
  have hreplaced : ∀ {node : Node}, node.id ≠ "" ∧ node.payload.Read →
      ∀ n ∈ Graph.replaced g.nodes node, n.id ≠ "" ∧ n.payload.Read := by
    intro node hnode n hn
    rcases Graph.mem_of_mem_replaced hn with rfl | hn
    · exact hnode
    · exact hp n hn
  cases hc with
  | unchanged => exact hp
  | @addNode node hid =>
    obtain ⟨payload, hread, hmake⟩ := he
    obtain ⟨hne, heq, -⟩ := Node.make_eq_ok hmake
    intro n hn
    rcases List.mem_append.mp hn with hn | hn
    · exact hp n hn
    · rw [List.mem_singleton.mp hn]
      refine ⟨hne, ?_⟩
      rw [heq]
      cases payload with
      | none => exact read_empty node.kind
      | some p => exact hread p rfl
  | removeNode id => exact fun n hn => hp n (List.mem_filter.mp hn).1
  | updatePayload hnode => exact hreplaced ⟨(hp _ (hg.mem_of_node? hnode).1).1, he⟩
  | @moveNode id node position hnode =>
    exact hreplaced (hp node (hg.mem_of_node? hnode).1)
  | addEdge => exact hp
  | removeEdge => exact hp

end Document

namespace Graph.Reachable

variable {g : Graph}

theorem read (hg : g.Reachable) : ∀ n ∈ g.nodes, n.id ≠ "" ∧ n.payload.Read := by
  induction hg with
  | empty => exact Document.filled_empty.nodes_filled
  | loaded hg => exact (Document.filled_of_loadGraph hg).nodes_filled
  | @edited g e hg he ih =>
    obtain ⟨nodes, edges, hc, hh⟩ := change_tryEdit hg.sound.toKeyed e
    rw [hh.nodes_eq]
    exact Document.read_change hg.sound.toKeyed hc he ih

theorem storable (hg : g.Reachable) : ∀ n ∈ g.nodes, n.id ≠ "" ∧ Document.Storable n.payload :=
  fun n hn => ⟨(hg.read n hn).1, Document.storable_of_read (hg.read n hn).2⟩

end Graph.Reachable

namespace Document

/-- A graph comes back as it was exactly if no fixed share has a unit and no edge has the empty id.
If all edges have ids, nothing but those units is lost. -/
theorem reachable_round_trip {g : Graph} (hg : g.Reachable) :
    (loadGraph (dumpGraph g) = .ok g ↔
      (∀ n ∈ g.nodes, ∀ s ∈ n.payload.subproducts, ¬ s.isVariable = true → s.unit = "") ∧
        ∀ e ∈ g.edges, e.id ≠ "") ∧
    ((∀ e ∈ g.edges, e.id ≠ "") → loadGraph (dumpGraph g) = .ok g.saved) := by
  have hsaved : (∀ e ∈ g.edges, e.id ≠ "") → loadGraph (dumpGraph g) = .ok g.saved :=
    loadGraph_dumpGraph hg.sound hg.storable
  have hself := Graph.saved_eq_self_iff hg.sound.toKeyed
  refine ⟨⟨fun hload => ?_, fun hunits => ?_⟩, hsaved⟩
  · have hedges := (filled_of_loadGraph hload).edges_filled
    exact ⟨hself.mp (Except.ok.inj ((hsaved hedges).symm.trans hload)), hedges⟩
  · rw [hsaved hunits.2, hself.mpr hunits.1]

/-- A process node whose only subproduct has both a fixed share and a unit. -/
def weighedDocument : Value :=
  .object [("nodes", .list [.object [("id", .text "p"), ("type", .text "process"),
    ("data", .object [("subproducts", .list [.object [("productId", .text "pulp"),
      ("ratio", .double (.ofInt 1)), ("unit", .text "kg")]])])]])]

def weighed : Graph :=
  ⟨⟨.ofEntries [("p", ⟨"p", .process,
    ⟨"", "", "", "", .empty, .process [] [⟨"pulp", .fixed (.ofInt 1), "kg"⟩] none⟩, .origin⟩)]⟩,
    .empty⟩

theorem loadGraph_weighedDocument : loadGraph weighedDocument = .ok weighed := rfl

theorem weighed_round_trip : weighed.Reachable ∧ ¬ loadGraph (dumpGraph weighed) = .ok weighed := by
  have hr : weighed.Reachable := .loaded loadGraph_weighedDocument
  refine ⟨hr, fun hload => ?_⟩
  have hunits := ((reachable_round_trip hr).1.mp hload).1
  exact absurd (hunits _ List.mem_cons_self ⟨"pulp", .fixed (.ofInt 1), "kg"⟩ List.mem_cons_self
    (by simp [Subproduct.isVariable])) (by simp)

theorem unit_of_fixed_share_lost :
    ∃ g, loadGraph weighedDocument = .ok g ∧ loadGraph (dumpGraph g) ≠ .ok g := by
  refine ⟨weighed, loadGraph_weighedDocument, fun hload => ?_⟩
  have hsaved : loadGraph (dumpGraph weighed) = .ok weighed.saved := rfl
  have hunits := congrArg
    (fun g : Graph => g.nodes.map fun n => n.payload.subproducts.map Subproduct.unit)
    (Except.ok.inj (hload.symm.trans hsaved))
  change [["kg"]] = [[""]] at hunits
  exact absurd hunits (by decide)

end Document

end Flowsheet
