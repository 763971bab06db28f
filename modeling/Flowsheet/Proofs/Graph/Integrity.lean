import Flowsheet.Proofs.Document.Payload
import Flowsheet.Proofs.Graph.Sound

/-! Histories of graphs. A graph begins empty or as the reading of a document, and edits are tried
on it one after another. All graphs of a history are sound, and a node keeps its kind for as long as
it is there. -/

namespace Flowsheet

variable {g h : Graph} {id : String} {e : Graph.Edit}

theorem Node.make_eq_ok {kind : Kind} {payload : Option Payload} {position : Position} {node : Node}
    (hn : Node.make id kind payload position = .ok node) :
    id ≠ "" ∧ node = ⟨id, kind, payload.getD (.empty kind.shape), position⟩ ∧
      node.payload.shape = node.kind.shape := by
  unfold Node.make at hn
  dsimp only at hn
  split at hn
  · simp at hn
  · next hid =>
    split at hn
    · next hs =>
      cases hn
      exact ⟨hid, rfl, hs⟩
    · simp at hn

namespace Document

theorem NodeRow.toNode_eq_ok {row : NodeRow} {node : Node} (hn : row.toNode = .ok node) :
    ∃ payload, loadPayload row.kind (row.data.getD []) = .ok payload ∧
      node = ⟨row.id, row.kind, payload, row.position.getD .origin⟩ := by
  obtain ⟨payload, hp, he⟩ := bind_eq_ok.mp hn
  cases he
  exact ⟨payload, mapError_eq_ok.mp hp, rfl⟩

theorem loadGraph_eq_ok {document : Value} (hg : loadGraph document = .ok g) :
    g = .empty ∨ ∃ content, rows document = .valid content ∧ content.toGraph = .ok g := by
  unfold loadGraph at hg
  split at hg
  · exact .inl (Except.ok.inj hg).symm
  · obtain ⟨content, hc, ht⟩ := bind_eq_ok.mp hg
    unfold checkedAs at hc
    split at hc
    · next hv =>
      cases hc
      exact .inr ⟨content, hv, ht⟩
    · simp at hc

end Document

namespace Graph

theorem sound_empty : Graph.empty.Sound :=
  holds_empty.sound ⟨by simp, by simp, by simp⟩

namespace Fitting

variable {nodes : List Node} {edges : List Edge}

theorem append_node (hf : Fitting nodes edges) {node : Node}
    (hshape : node.payload.shape = node.kind.shape) : Fitting (nodes ++ [node]) edges where
  source_mem e he := by
    rw [List.map_append]
    exact List.mem_append_left _ (hf.source_mem e he)
  target_mem e he := by
    rw [List.map_append]
    exact List.mem_append_left _ (hf.target_mem e he)
  shape_eq n hn := by
    rcases List.mem_append.mp hn with hn | hn
    · exact hf.shape_eq n hn
    · rw [List.mem_singleton.mp hn]
      exact hshape

theorem append_edge (hf : Fitting nodes edges) {edge : Edge}
    (hsource : edge.source ∈ nodes.map Node.id) (htarget : edge.target ∈ nodes.map Node.id) :
    Fitting nodes (edges ++ [edge]) where
  source_mem e he := by
    rcases List.mem_append.mp he with he | he
    · exact hf.source_mem e he
    · rw [List.mem_singleton.mp he]
      exact hsource
  target_mem e he := by
    rcases List.mem_append.mp he with he | he
    · exact hf.target_mem e he
    · rw [List.mem_singleton.mp he]
      exact htarget
  shape_eq := hf.shape_eq

/-- An edge that is kept has neither end at the node, so both of its ends are kept. -/
theorem removeNode (hf : Fitting nodes edges) (id : String) :
    Fitting (nodes.filter (·.id ≠ id))
      (edges.filter fun e => ¬ (e.source = id ∨ e.target = id)) := by
  have hkept : ∀ x ∈ nodes.map Node.id, x ≠ id → x ∈ (nodes.filter (·.id ≠ id)).map Node.id := by
    intro x hx hne
    obtain ⟨n, hn, rfl⟩ := List.mem_map.mp hx
    exact List.mem_map_of_mem (List.mem_filter.mpr ⟨hn, by simpa using hne⟩)
  refine ⟨?_, ?_, ?_⟩
  · intro edge he
    obtain ⟨hm, hat⟩ := List.mem_filter.mp he
    exact hkept _ (hf.source_mem edge hm) fun heq => of_decide_eq_true hat (.inl heq)
  · intro edge he
    obtain ⟨hm, hat⟩ := List.mem_filter.mp he
    exact hkept _ (hf.target_mem edge hm) fun heq => of_decide_eq_true hat (.inr heq)
  · intro n hn
    exact hf.shape_eq n (List.mem_filter.mp hn).1

theorem replaced (hf : Fitting nodes edges) {node : Node}
    (hshape : node.payload.shape = node.kind.shape) : Fitting (replaced nodes node) edges where
  source_mem e he := by
    rw [map_id_replaced]
    exact hf.source_mem e he
  target_mem e he := by
    rw [map_id_replaced]
    exact hf.target_mem e he
  shape_eq n hn := by
    rcases mem_of_mem_replaced hn with rfl | hn
    · exact hshape
    · exact hf.shape_eq n hn

theorem removeEdge (hf : Fitting nodes edges) (id : String) :
    Fitting nodes (edges.filter (·.id ≠ id)) where
  source_mem e he := hf.source_mem e (List.mem_filter.mp he).1
  target_mem e he := hf.target_mem e (List.mem_filter.mp he).1
  shape_eq := hf.shape_eq

end Fitting

end Graph

namespace Document

theorem sound_addRow {row : NodeRow} (hr : addRow g row = .ok h) (hs : g.Sound) : h.Sound := by
  obtain ⟨node, hn, ha⟩ := bind_eq_ok.mp hr
  obtain ⟨payload, hp, rfl⟩ := NodeRow.toNode_eq_ok hn
  obtain ⟨-, hh⟩ := Graph.addNode_eq_ok hs.toKeyed (mapError_eq_ok.mp ha)
  exact hh.sound (hs.fitting.append_node (shape_loadPayload hp))

theorem sound_addEdgeRow {edge : Edge} (hr : addEdgeRow g edge = .ok h) (hs : g.Sound) :
    h.Sound := by
  obtain ⟨hsource, htarget, -, hh⟩ := Graph.addEdge_eq_ok hs.toKeyed (mapError_eq_ok.mp hr)
  exact hh.sound (hs.fitting.append_edge hsource htarget)

theorem sound_loadGraph {document : Value} (hg : loadGraph document = .ok g) : g.Sound := by
  rcases loadGraph_eq_ok hg with rfl | ⟨content, -, ht⟩
  · exact Graph.sound_empty
  · obtain ⟨h, hn, he⟩ := bind_eq_ok.mp ht
    exact foldlM_keeps (fun _ => sound_addEdgeRow) he
      (foldlM_keeps (fun _ => sound_addRow) hn Graph.sound_empty)

end Document

namespace Graph

/-- A node that is added was made by its constructor, whatever its payload holds. -/
def Edit.IsMade : Edit → Prop
  | .addNode node => ∃ payload : Option Payload,
      Node.make node.id node.kind payload node.position = .ok node
  | _ => True

theorem Edit.isMade_addNode_iff {node : Node} :
    (Edit.addNode node).IsMade ↔ node.id ≠ "" ∧ node.payload.shape = node.kind.shape := by
  constructor
  · rintro ⟨payload, hn⟩
    obtain ⟨hid, -, hshape⟩ := Node.make_eq_ok hn
    exact ⟨hid, hshape⟩
  · rintro ⟨hid, hshape⟩
    refine ⟨some node.payload, ?_⟩
    simp [Node.make, hid, hshape]

instance : DecidablePred Edit.IsMade
  | .addNode _ => decidable_of_iff _ Edit.isMade_addNode_iff.symm
  | .removeNode _ | .updatePayload .. | .moveNode .. | .addEdge .. | .connect .. | .removeEdge _
  | .copy => .isTrue trivial

inductive Built : Graph → Prop
  | empty : Built .empty
  | loaded {g : Graph} {document : Value} (hg : Document.loadGraph document = .ok g) : Built g
  | edited {g : Graph} {e : Edit} (hg : Built g) (he : e.IsMade) : Built (g.tryEdit e)

/-- Payloads were read from data, and nodes were made by their constructor, perhaps with the empty
payload of their kind. -/
def Edit.Admissible : Edit → Prop
  | .addNode node => ∃ payload : Option Payload, (∀ p ∈ payload, p.Read) ∧
      Node.make node.id node.kind payload node.position = .ok node
  | .updatePayload _ payload => payload.Read
  | _ => True

inductive Reachable : Graph → Prop
  | empty : Reachable .empty
  | loaded {g : Graph} {document : Value} (hg : Document.loadGraph document = .ok g) : Reachable g
  | edited {g : Graph} {e : Edit} (hg : Reachable g) (he : e.Admissible) : Reachable (g.tryEdit e)

theorem Edit.Admissible.isMade (he : e.Admissible) : e.IsMade := by
  cases e with
  | addNode node =>
    obtain ⟨payload, -, hn⟩ := he
    exact ⟨payload, hn⟩
  | _ => trivial

theorem Reachable.built (hg : g.Reachable) : g.Built := by
  induction hg with
  | empty => exact .empty
  | loaded hg => exact .loaded hg
  | edited _ he ih => exact .edited ih he.isMade

theorem Fitting.change (hg : g.Sound) (he : e.IsMade) {nodes : List Node} {edges : List Edge}
    (hc : Change g e nodes edges) : Fitting nodes edges := by
  cases hc with
  | unchanged => exact hg.fitting
  | addNode =>
    obtain ⟨payload, hn⟩ := he
    exact hg.fitting.append_node (Node.make_eq_ok hn).2.2
  | removeNode id => exact hg.fitting.removeNode id
  | updatePayload _ hshape => exact hg.fitting.replaced hshape
  | @moveNode id node position hnode =>
    exact hg.fitting.replaced (hg.fitting.shape_eq node (hg.mem_of_node? hnode).1)
  | addEdge _ hsource htarget => exact hg.fitting.append_edge hsource htarget
  | removeEdge id => exact hg.fitting.removeEdge id

theorem Sound.tryEdit (hg : g.Sound) (he : e.IsMade) : (g.tryEdit e).Sound := by
  obtain ⟨nodes, edges, hc, hh⟩ := change_tryEdit hg.toKeyed e
  exact hh.sound (.change hg he hc)

theorem Built.sound (hg : g.Built) : g.Sound := by
  induction hg with
  | empty => exact sound_empty
  | loaded hg => exact Document.sound_loadGraph hg
  | edited _ he ih => exact ih.tryEdit he

theorem Reachable.sound (hg : g.Reachable) : g.Sound :=
  hg.built.sound

theorem editAll_keeps {P : Graph → Prop} {edits : List Edit}
    (hstep : ∀ e ∈ edits, ∀ g, P g → P (g.tryEdit e)) (hg : P g) : P (g.editAll edits) := by
  induction edits generalizing g with
  | nil => exact hg
  | cons e edits ih =>
    exact ih (fun f hf => hstep f (List.mem_cons_of_mem _ hf)) (hstep e List.mem_cons_self g hg)

/-- Each edit has the property in the graph that those before it left. -/
def Along (P : Graph → Edit → Prop) (g : Graph) : List Edit → Prop
  | [] => True
  | e :: edits => P g e ∧ (g.tryEdit e).Along P edits

/-- What none of the edits changes at its turn is the same after all of them. -/
theorem Sound.editAll_eq {α : Type} {P : Graph → Edit → Prop} {f : Graph → α}
    (hstep : ∀ {g h : Graph} {e : Edit}, g.Sound → e.IsMade → P g e → g.edit e = .ok h →
      f h = f g) (hg : g.Sound) {edits : List Edit} (hm : ∀ e ∈ edits, e.IsMade)
    (ha : g.Along P edits) : f (g.editAll edits) = f g := by
  induction edits generalizing g with
  | nil => rfl
  | cons e edits ih =>
    obtain ⟨he, hrest⟩ := List.forall_mem_cons.mp hm
    have hfirst : f (g.tryEdit e) = f g := by
      cases hh : g.edit e with
      | error fault => rw [tryEdit_of_error hh]
      | ok h => rw [tryEdit_of_ok hh, hstep hg he ha.1 hh]
    exact (ih (hg.tryEdit he) hrest ha.2).trans hfirst

theorem Reachable.editAll (hg : g.Reachable) {edits : List Edit}
    (he : ∀ e ∈ edits, e.Admissible) : (g.editAll edits).Reachable :=
  editAll_keeps (fun e hm _ hk => hk.edited (he e hm)) hg

theorem Built.editAll (hg : g.Built) {edits : List Edit} (he : ∀ e ∈ edits, e.IsMade) :
    (g.editAll edits).Built :=
  editAll_keeps (fun e hm _ hk => hk.edited (he e hm)) hg

theorem Change.find?_kind (hg : g.Keyed) {nodes : List Node} {edges : List Edge}
    (hc : Change g e nodes edges) {node : Node} (hn : g.nodes.find? (·.id = id) = some node)
    (he : e ≠ .removeNode id) :
    ∃ last, nodes.find? (·.id = id) = some last ∧ last.kind = node.kind := by
  have hreplaced : ∀ {old new : Node}, old ∈ g.nodes → new.id = old.id → new.kind = old.kind →
      ∃ last, (replaced g.nodes new).find? (·.id = id) = some last ∧ last.kind = node.kind := by
    intro old new hold hid hkind
    refine ⟨if node.id = new.id then new else node, by rw [find?_replaced, hn]; rfl, ?_⟩
    split
    · next hsame =>
      have hfound := hg.node?_of_mem (List.mem_of_find?_eq_some hn)
      rw [hsame, hid, hg.node?_of_mem hold] at hfound
      rw [hkind, Option.some.inj hfound]
    · rfl
  cases hc with
  | unchanged => exact ⟨node, hn, rfl⟩
  | addNode => exact ⟨node, by rw [List.find?_append, hn, Option.some_or], rfl⟩
  | removeNode other =>
    have hne : id ≠ other := fun heq => he (heq ▸ rfl)
    refine ⟨node, ?_, rfl⟩
    rw [List.find?_filter, ← hn]
    congr 1
    funext n
    by_cases hid : n.id = id <;> simp [hid, hne]
  | updatePayload hnode => exact hreplaced (hg.mem_of_node? hnode).1 rfl rfl
  | moveNode hnode => exact hreplaced (hg.mem_of_node? hnode).1 rfl rfl
  | addEdge => exact ⟨node, hn, rfl⟩
  | removeEdge => exact ⟨node, hn, rfl⟩

theorem node?_kind_editAll (hg : g.Keyed) {node : Node} (hn : g.node? id = some node)
    {later : List Edit} (hl : .removeNode id ∉ later) :
    ∃ last, (g.editAll later).node? id = some last ∧ last.kind = node.kind := by
  induction later generalizing g node with
  | nil => exact ⟨node, hn, rfl⟩
  | cons e later ih =>
    obtain ⟨nodes, edges, hc, hh⟩ := change_tryEdit hg e
    rw [hg.node?_eq] at hn
    obtain ⟨next, hnext, hkind⟩ := hc.find?_kind hg hn (fun he => hl (he ▸ List.mem_cons_self))
    rw [← hh.nodes_eq, ← hh.toKeyed.node?_eq] at hnext
    obtain ⟨last, hlast, hk⟩ := ih hh.toKeyed hnext
      (fun hmem => hl (List.mem_cons_of_mem _ hmem))
    exact ⟨last, hlast, hk.trans hkind⟩

/-- What a user of a graph may rely on at every point of its history. -/
structure Integrity (g : Graph) : Prop where
  nodeIds_nodup : g.nodeIds.Nodup
  edgeIds_nodup : g.edgeIds.Nodup
  node_stored : ∀ entry ∈ g.nodeCatalog.table.entries, entry.1 = entry.2.id
  edge_stored : ∀ entry ∈ g.edgeCatalog.table.entries, entry.1 = entry.2.id
  source_present : ∀ e ∈ g.edges, ∃ n, g.node? e.source = some n
  target_present : ∀ e ∈ g.edges, ∃ n, g.node? e.target = some n
  shape_eq : ∀ n ∈ g.nodes, n.payload.shape = n.kind.shape
  ratio_iff : ∀ n ∈ g.nodes, ∀ s ∈ n.payload.subproducts,
    s.ratio?.isSome = true ↔ ¬ s.isVariable = true
  kind_kept : ∀ id node, g.node? id = some node → ∀ later, .removeNode id ∉ later →
    ∃ last, (g.editAll later).node? id = some last ∧ last.kind = node.kind

theorem Reachable.integrity (hg : g.Reachable) : g.Integrity where
  nodeIds_nodup := hg.sound.nodeIds_nodup
  edgeIds_nodup := hg.sound.edgeIds_nodup
  node_stored := hg.sound.nodes_keyed
  edge_stored := hg.sound.edges_keyed
  source_present e he := hg.sound.exists_node? (hg.sound.fitting.source_mem e he)
  target_present e he := hg.sound.exists_node? (hg.sound.fitting.target_mem e he)
  shape_eq := hg.sound.fitting.shape_eq
  ratio_iff _ _ s _ := by
    cases hq : s.quantity <;> simp [Subproduct.ratio?, Subproduct.isVariable, hq]
  kind_kept _ _ hn _ hl := node?_kind_editAll hg.sound.toKeyed hn hl

/-- The oil has a fixed share, and the cake has none. -/
def pressed : Payload :=
  ⟨"", "", "", "", .empty,
    .process [] [⟨"oil", .fixed (.ofInt 2), ""⟩, ⟨"cake", .variable, "kg"⟩] none⟩

theorem read_pressed : pressed.Read :=
  ⟨.process, [("subproducts", .list
    [.object [("productId", .text "oil"), ("ratio", .double (.ofInt 2))],
      .object [("productId", .text "cake"), ("isVariable", .bool true), ("unit", .text "kg")]])],
    rfl⟩

/-- A second node under the same id and an edge to nowhere are refused on the way. -/
def looped : Graph :=
  Graph.empty.editAll
    [.addNode ⟨"a", .start, .empty .items, .origin⟩,
      .addNode ⟨"a", .finish, .empty .items, .origin⟩,
      .addNode ⟨"press", .process, pressed, .origin⟩,
      .connect "a" "a" none, .connect "a" "b" none, .copy]

theorem looped_integrity :
    looped.Reachable ∧ looped.nodes.map Node.kind = [.start, .process] ∧
      looped.edges = [⟨"e-a-a", "a", "a", none⟩] ∧
      looped.nodes.map (fun n => n.payload.subproducts.map Subproduct.isVariable) =
        [[], [false, true]] ∧ looped.Integrity := by
  have hr : looped.Reachable := Reachable.empty.editAll (by
    intro e he
    simp only [List.mem_cons, List.not_mem_nil, or_false] at he
    rcases he with rfl | rfl | rfl | rfl | rfl | rfl
    · exact ⟨none, by simp, rfl⟩
    · exact ⟨none, by simp, rfl⟩
    · exact ⟨some pressed, fun _ hp => Option.some.inj hp ▸ read_pressed, rfl⟩
    · trivial
    · trivial
    · trivial)
  exact ⟨hr, by decide, by decide, by decide, hr.integrity⟩

end Graph

end Flowsheet
