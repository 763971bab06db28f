import Flowsheet.Graph.Edit
import Flowsheet.Proofs.Catalog.Keyed

/-! Graphs whose records fit together: each one is stored under its own id, edges have both of their
ends, and every payload has the shape of its kind. What an edit can do to the records of a graph is
listed once, and each item of the list keeps them fitting. -/

namespace Flowsheet.Graph

structure Keyed (g : Graph) : Prop where
  nodes_keyed : g.nodeCatalog.Keyed Node.id
  edges_keyed : g.edgeCatalog.Keyed Edge.id

/-- The graph has these records, in this order. -/
structure Holds (g : Graph) (nodes : List Node) (edges : List Edge) : Prop extends g.Keyed where
  nodes_eq : g.nodes = nodes
  edges_eq : g.edges = edges

structure Fitting (nodes : List Node) (edges : List Edge) : Prop where
  source_mem : ∀ e ∈ edges, e.source ∈ nodes.map Node.id
  target_mem : ∀ e ∈ edges, e.target ∈ nodes.map Node.id
  shape_eq : ∀ n ∈ nodes, n.payload.shape = n.kind.shape

structure Sound (g : Graph) : Prop extends g.Keyed where
  fitting : Fitting g.nodes g.edges

variable {g h : Graph} {id : String} {nodes : List Node} {edges : List Edge}

theorem Keyed.holds (hg : g.Keyed) : g.Holds g.nodes g.edges :=
  ⟨hg, rfl, rfl⟩

theorem Holds.unique (hg : g.Holds nodes edges) (hh : h.Holds nodes edges) : g = h := by
  have hnodes := hg.nodes_keyed.ext hh.nodes_keyed (hg.nodes_eq.trans hh.nodes_eq.symm)
  have hedges := hg.edges_keyed.ext hh.edges_keyed (hg.edges_eq.trans hh.edges_eq.symm)
  cases g
  cases h
  exact congrArg₂ Graph.mk hnodes hedges

theorem Holds.sound (hg : g.Holds nodes edges) (hf : Fitting nodes edges) : g.Sound :=
  ⟨hg.toKeyed, hg.nodes_eq.symm ▸ hg.edges_eq.symm ▸ hf⟩

theorem holds_empty : empty.Holds [] [] :=
  ⟨⟨Catalog.keyed_empty _, Catalog.keyed_empty _⟩, rfl, rfl⟩

namespace Keyed

theorem nodeIds_nodup (hg : g.Keyed) : g.nodeIds.Nodup := hg.nodes_keyed.nodup

theorem edgeIds_nodup (hg : g.Keyed) : g.edgeIds.Nodup := hg.edges_keyed.nodup

theorem node?_eq (hg : g.Keyed) (id : String) : g.node? id = g.nodes.find? (·.id = id) :=
  hg.nodes_keyed.find?_eq id

theorem contains_iff (hg : g.Keyed) : g.contains id = true ↔ id ∈ g.nodeIds :=
  hg.nodes_keyed.contains_iff

theorem hasEdge_iff (hg : g.Keyed) : g.hasEdge id = true ↔ id ∈ g.edgeIds :=
  hg.edges_keyed.contains_iff

theorem mem_of_node? (hg : g.Keyed) {n : Node} (hn : g.node? id = some n) :
    n ∈ g.nodes ∧ n.id = id :=
  hg.nodes_keyed.mem_of_find? hn

theorem mem_nodeIds_of_node? (hg : g.Keyed) {n : Node} (hn : g.node? id = some n) :
    id ∈ g.nodeIds := by
  obtain ⟨hmem, rfl⟩ := hg.mem_of_node? hn
  exact List.mem_map_of_mem hmem

theorem node?_of_mem (hg : g.Keyed) {n : Node} (hn : n ∈ g.nodes) : g.node? n.id = some n :=
  hg.nodes_keyed.find?_of_mem hn

theorem edge?_of_mem (hg : g.Keyed) {e : Edge} (he : e ∈ g.edges) : g.edge? e.id = some e :=
  hg.edges_keyed.find?_of_mem he

theorem exists_node? (hg : g.Keyed) (hid : id ∈ g.nodeIds) : ∃ n, g.node? id = some n := by
  obtain ⟨n, hn, rfl⟩ := List.mem_map.mp hid
  exact ⟨n, hg.node?_of_mem hn⟩

end Keyed

def replaced (nodes : List Node) (node : Node) : List Node :=
  nodes.map fun n => if n.id = node.id then node else n

theorem map_id_replaced (nodes : List Node) (node : Node) :
    (replaced nodes node).map Node.id = nodes.map Node.id := by
  rw [replaced, List.map_map]
  apply List.map_congr_left
  intro n _
  by_cases hid : n.id = node.id <;> simp [hid]

theorem Keyed.map_replaced {α : Type} {f : Node → α} {m n : Node} (hg : g.Keyed)
    (hn : g.node? id = some n) (hid : m.id = n.id) (hf : f m = f n) :
    (replaced g.nodes m).map f = g.nodes.map f := by
  obtain ⟨hmem, -⟩ := hg.mem_of_node? hn
  rw [replaced, List.map_map]
  refine List.map_congr_left fun old hold => ?_
  rw [Function.comp_apply]
  split
  · next heq =>
    have hsame := hg.node?_of_mem hold
    rw [heq, hid, hg.node?_of_mem hmem] at hsame
    rw [hf, Option.some.inj hsame]
  · rfl

theorem find?_replaced (nodes : List Node) (node : Node) (id : String) :
    (replaced nodes node).find? (·.id = id) =
      (nodes.find? (·.id = id)).map fun n => if n.id = node.id then node else n := by
  have hkeep : ∀ n : Node, (if n.id = node.id then node else n).id = n.id := by
    intro n
    by_cases hid : n.id = node.id <;> simp [hid]
  simp only [replaced, List.find?_map, Function.comp_def, hkeep]

theorem mem_of_mem_replaced {node n : Node} (hn : n ∈ replaced nodes node) :
    n = node ∨ n ∈ nodes := by
  obtain ⟨m, hm, rfl⟩ := List.mem_map.mp hn
  split
  · exact .inl rfl
  · exact .inr hm

theorem addNode_of_not_mem (hg : g.Keyed) {node : Node} (hid : node.id ∉ g.nodeIds) :
    ∃ h, g.addNode node = .ok h ∧ h.Holds (g.nodes ++ [node]) g.edges := by
  obtain ⟨c, ha, hkeyed, hrecords⟩ := hg.nodes_keyed.add_of_not_mem hid
  exact ⟨_, bind_eq_ok.mpr ⟨c, mapError_eq_ok.mpr ha, rfl⟩, ⟨hkeyed, hg.edges_keyed⟩, hrecords, rfl⟩

theorem addNode_eq_ok (hg : g.Keyed) {node : Node} (ha : g.addNode node = .ok h) :
    node.id ∉ g.nodeIds ∧ h.Holds (g.nodes ++ [node]) g.edges := by
  obtain ⟨c, hc, he⟩ := bind_eq_ok.mp ha
  cases he
  obtain ⟨hid, hkeyed, hrecords⟩ := hg.nodes_keyed.add_eq_ok (mapError_eq_ok.mp hc)
  exact ⟨hid, ⟨hkeyed, hg.edges_keyed⟩, hrecords, rfl⟩

theorem storeEdge_of_not_mem (hg : g.Keyed) {edge : Edge} (hid : edge.id ∉ g.edgeIds) :
    ∃ h, g.storeEdge edge = .ok h ∧ h.Holds g.nodes (g.edges ++ [edge]) := by
  obtain ⟨c, ha, hkeyed, hrecords⟩ := hg.edges_keyed.add_of_not_mem hid
  exact ⟨_, bind_eq_ok.mpr ⟨c, mapError_eq_ok.mpr ha, rfl⟩, ⟨hg.nodes_keyed, hkeyed⟩, rfl, hrecords⟩

theorem storeEdge_eq_ok (hg : g.Keyed) {edge : Edge} (ha : g.storeEdge edge = .ok h) :
    edge.id ∉ g.edgeIds ∧ h.Holds g.nodes (g.edges ++ [edge]) := by
  obtain ⟨c, hc, he⟩ := bind_eq_ok.mp ha
  cases he
  obtain ⟨hid, hkeyed, hrecords⟩ := hg.edges_keyed.add_eq_ok (mapError_eq_ok.mp hc)
  exact ⟨hid, ⟨hg.nodes_keyed, hkeyed⟩, rfl, hrecords⟩

theorem replaceNode_eq_ok (hg : g.Keyed) {node : Node} (hid : node.id = id)
    (hr : g.replaceNode id node = .ok h) : h.Holds (replaced g.nodes node) g.edges := by
  subst hid
  obtain ⟨c, hc, he⟩ := bind_eq_ok.mp hr
  cases he
  obtain ⟨hkeyed, hrecords⟩ := hg.nodes_keyed.replace_eq_ok (mapError_eq_ok.mp hc)
  exact ⟨⟨hkeyed, hg.edges_keyed⟩, hrecords, rfl⟩

theorem removeEdge_holds (hg : g.Keyed) (id : String) :
    (g.removeEdge id).Holds g.nodes (g.edges.filter (·.id ≠ id)) := by
  obtain ⟨hkeyed, hrecords⟩ := hg.edges_keyed.discard id
  exact ⟨⟨hg.nodes_keyed, hkeyed⟩, rfl, hrecords⟩

/-- Edges are discarded by their ids, so that of the others only one with the same id could go. -/
theorem foldl_discardAt {c : Catalog Edge} (hc : c.Keyed Edge.id) (id : String)
    (edges : List Edge) :
    (edges.foldl (discardAt id) c).Keyed Edge.id ∧
      (edges.foldl (discardAt id) c).records = c.records.filter fun e =>
        ∀ d ∈ edges, d.id = e.id → ¬ (d.source = id ∨ d.target = id) := by
  induction edges generalizing c with
  | nil => exact ⟨hc, by simp⟩
  | cons edge edges ih =>
    rw [List.foldl_cons, discardAt]
    split
    · next hat =>
      obtain ⟨hkeyed, hrecords⟩ := hc.discard edge.id
      obtain ⟨hk, hr⟩ := ih hkeyed
      refine ⟨hk, ?_⟩
      rw [hr, hrecords, List.filter_filter]
      refine List.filter_congr fun e _ => ?_
      by_cases hid : e.id = edge.id
      · have hgone : ¬ ∀ d ∈ edge :: edges, d.id = e.id → ¬ (d.source = id ∨ d.target = id) :=
          fun hall => hall edge List.mem_cons_self hid.symm hat
        rw [decide_eq_false hgone, decide_eq_false (not_not.mpr hid), Bool.and_false]
      · simp [hid, Ne.symm hid]
    · next hat =>
      obtain ⟨hk, hr⟩ := ih hc
      refine ⟨hk, ?_⟩
      rw [hr]
      refine List.filter_congr fun e _ => ?_
      simp only [List.forall_mem_cons, hat, not_false_eq_true, implies_true, true_and]

theorem removeNode_holds (hg : g.Keyed) (hid : id ∈ g.nodeIds) :
    (g.removeNode id).Holds (g.nodes.filter (·.id ≠ id))
      (g.edges.filter fun e => ¬ (e.source = id ∨ e.target = id)) := by
  obtain ⟨hnodes, hleft⟩ := hg.nodes_keyed.discard id
  obtain ⟨hedges, hkept⟩ := foldl_discardAt hg.edges_keyed id g.edges
  rw [removeNode, if_pos (hg.contains_iff.mpr hid)]
  refine ⟨⟨hnodes, hedges⟩, hleft, hkept.trans (List.filter_congr fun e he => ?_)⟩
  -- No other edge has the id of this one.
  have hsame : ∀ d ∈ g.edges, d.id = e.id → d = e := fun d hd heq =>
    Option.some.inj ((hg.edge?_of_mem hd).symm.trans (heq ▸ hg.edge?_of_mem he))
  refine decide_eq_decide.mpr ⟨fun hall => hall e he rfl, fun hat d hd heq => ?_⟩
  rw [hsame d hd heq]
  exact hat

theorem removeNode_of_not_mem (hg : g.Keyed) (hid : id ∉ g.nodeIds) : g.removeNode id = g :=
  if_neg fun hc => hid (hg.contains_iff.mp hc)

theorem findNode_eq_ok {node : Node} (hg : g.findNode id = .ok node) : g.node? id = some node := by
  unfold findNode at hg
  split at hg
  · next hn =>
    cases hg
    exact hn
  · cases hg

theorem updatePayload_eq_ok (hg : g.Keyed) {payload : Payload} {r : Graph × Node}
    (hu : g.updatePayload id payload = .ok r) :
    ∃ node, g.node? id = some node ∧ payload.shape = node.kind.shape ∧
      r.1.Holds (replaced g.nodes { node with payload }) g.edges := by
  obtain ⟨node, hf, hr⟩ := bind_eq_ok.mp hu
  have hnode := findNode_eq_ok hf
  dsimp only at hr
  split at hr
  · next hs =>
    obtain ⟨k, hk, he⟩ := bind_eq_ok.mp hr
    cases he
    exact ⟨node, hnode, hs, replaceNode_eq_ok hg (hg.mem_of_node? hnode).2 hk⟩
  · cases hr

theorem moveNode_eq_ok (hg : g.Keyed) {position : Position} {r : Graph × Node}
    (hm : g.moveNode id position = .ok r) :
    ∃ node, g.node? id = some node ∧
      r.1.Holds (replaced g.nodes { node with position }) g.edges := by
  obtain ⟨node, hf, hr⟩ := bind_eq_ok.mp hm
  have hnode := findNode_eq_ok hf
  obtain ⟨k, hk, he⟩ := bind_eq_ok.mp hr
  cases he
  exact ⟨node, hnode, replaceNode_eq_ok hg (hg.mem_of_node? hnode).2 hk⟩

theorem addEdge_eq_ok (hg : g.Keyed) {edge : Edge} {check : Bool}
    (ha : g.addEdge edge check = .ok h) :
    edge.source ∈ g.nodeIds ∧ edge.target ∈ g.nodeIds ∧ edge.id ∉ g.edgeIds ∧
      h.Holds g.nodes (g.edges ++ [edge]) := by
  unfold addEdge at ha
  split at ha
  · cases ha
  · next source hsource =>
    split at ha
    · cases ha
    · next htarget =>
      split at ha
      · cases ha
      · have hstore : g.storeEdge edge = .ok h := by
          cases check with
          | false => exact ha
          | true =>
            obtain ⟨_, _, hs⟩ := bind_eq_ok.mp ha
            exact hs
        have ht : g.contains edge.target = true := by simpa using htarget
        exact ⟨hg.mem_nodeIds_of_node? hsource, hg.contains_iff.mp ht, storeEdge_eq_ok hg hstore⟩

theorem addEdge_of_mem (hg : g.Keyed) {edge : Edge} (hs : edge.source ∈ g.nodeIds)
    (ht : edge.target ∈ g.nodeIds) (hid : edge.id ∉ g.edgeIds) :
    ∃ h, g.addEdge edge false = .ok h ∧ h.Holds g.nodes (g.edges ++ [edge]) := by
  obtain ⟨source, hsource⟩ := hg.exists_node? hs
  obtain ⟨h, hstore, hholds⟩ := storeEdge_of_not_mem hg hid
  have htarget := hg.contains_iff.mpr ht
  have hnew : ¬ g.hasEdge edge.id = true := fun hc => hid (hg.hasEdge_iff.mp hc)
  refine ⟨h, ?_, hholds⟩
  simp only [addEdge, hsource, htarget, Bool.not_true, Bool.false_eq_true, if_false, if_neg hnew]
  exact hstore

theorem connect_eq_ok {source target : String} {handle : Option String} {r : Graph × Edge}
    (hc : g.connect source target handle = .ok r) :
    r.2 = ⟨g.freshEdgeId (baseEdgeId source target handle), source, target, handle⟩ ∧
      g.addEdge r.2 true = .ok r.1 := by
  obtain ⟨k, ha, hr⟩ := bind_eq_ok.mp hc
  cases hr
  exact ⟨rfl, ha⟩

theorem foldlM_addNode (hg : g.Holds nodes edges) (more : List Node)
    (hnd : ((nodes ++ more).map Node.id).Nodup) :
    ∃ h, more.foldlM addNode g = .ok h ∧ h.Holds (nodes ++ more) edges := by
  refine foldlM_ok_of_nodup (P := fun k nodes => Holds k nodes edges) ?_ hg hnd
  intro k held node _ hk hid
  rw [← hk.nodes_eq] at hid
  obtain ⟨h, ha, hh⟩ := addNode_of_not_mem hk.toKeyed hid
  rw [hk.nodes_eq, hk.edges_eq] at hh
  exact ⟨h, ha, hh⟩

theorem foldlM_storeEdge (hg : g.Holds nodes edges) (more : List Edge)
    (hnd : ((edges ++ more).map Edge.id).Nodup) :
    ∃ h, more.foldlM storeEdge g = .ok h ∧ h.Holds nodes (edges ++ more) := by
  refine foldlM_ok_of_nodup (P := fun k edges => Holds k nodes edges) ?_ hg hnd
  intro k held edge _ hk hid
  rw [← hk.edges_eq] at hid
  obtain ⟨h, ha, hh⟩ := storeEdge_of_not_mem hk.toKeyed hid
  rw [hk.nodes_eq, hk.edges_eq] at hh
  exact ⟨h, ha, hh⟩

/-- The copy has the same records, and so it is the same graph. -/
theorem copy_eq (hg : g.Keyed) : g.copy = .ok g := by
  obtain ⟨h, hnodes, hh⟩ := foldlM_addNode holds_empty g.nodes hg.nodeIds_nodup
  obtain ⟨k, hedges, hk⟩ := foldlM_storeEdge hh g.edges hg.edgeIds_nodup
  rw [copy, hnodes, ok_bind, hedges, hk.unique hg.holds]

inductive Change (g : Graph) : Edit → List Node → List Edge → Prop
  | unchanged (e : Edit) : Change g e g.nodes g.edges
  | addNode {node : Node} (hid : node.id ∉ g.nodeIds) :
      Change g (.addNode node) (g.nodes ++ [node]) g.edges
  | removeNode (id : String) :
      Change g (.removeNode id) (g.nodes.filter (·.id ≠ id))
        (g.edges.filter fun e => ¬ (e.source = id ∨ e.target = id))
  | updatePayload {id : String} {node : Node} {payload : Payload}
      (hnode : g.node? id = some node) (hshape : payload.shape = node.kind.shape) :
      Change g (.updatePayload id payload) (replaced g.nodes { node with payload }) g.edges
  | moveNode {id : String} {node : Node} {position : Position} (hnode : g.node? id = some node) :
      Change g (.moveNode id position) (replaced g.nodes { node with position }) g.edges
  | addEdge {e : Edit} {edge : Edge} (check : Bool) (hs : edge.source ∈ g.nodeIds)
      (ht : edge.target ∈ g.nodeIds) (hid : edge.id ∉ g.edgeIds)
      (he : e = .addEdge edge check ∨ e = .connect edge.source edge.target edge.handle ∧
        edge.id = g.freshEdgeId (baseEdgeId edge.source edge.target edge.handle)) :
      Change g e g.nodes (g.edges ++ [edge])
  | removeEdge (id : String) :
      Change g (.removeEdge id) g.nodes (g.edges.filter (·.id ≠ id))

theorem change_of_edit (hg : g.Keyed) {e : Edit} (hh : g.edit e = .ok h) :
    ∃ nodes edges, Change g e nodes edges ∧ h.Holds nodes edges := by
  cases e with
  | addNode node =>
    obtain ⟨hid, hholds⟩ := addNode_eq_ok hg hh
    exact ⟨_, _, .addNode hid, hholds⟩
  | removeNode id =>
    cases hh
    by_cases hid : id ∈ g.nodeIds
    · exact ⟨_, _, .removeNode id, removeNode_holds hg hid⟩
    · rw [removeNode_of_not_mem hg hid]
      exact ⟨_, _, .unchanged _, hg.holds⟩
  | updatePayload id payload =>
    obtain ⟨r, hr, rfl⟩ := map_eq_ok.mp hh
    obtain ⟨node, hnode, hshape, hholds⟩ := updatePayload_eq_ok hg hr
    exact ⟨_, _, .updatePayload hnode hshape, hholds⟩
  | moveNode id position =>
    obtain ⟨r, hr, rfl⟩ := map_eq_ok.mp hh
    obtain ⟨node, hnode, hholds⟩ := moveNode_eq_ok hg hr
    exact ⟨_, _, .moveNode hnode, hholds⟩
  | addEdge edge check =>
    obtain ⟨hs, ht, hid, hholds⟩ := addEdge_eq_ok hg hh
    exact ⟨_, _, .addEdge check hs ht hid (.inl rfl), hholds⟩
  | connect source target handle =>
    obtain ⟨⟨k, edge⟩, hr, rfl⟩ := map_eq_ok.mp hh
    obtain ⟨rfl, ha⟩ := connect_eq_ok hr
    obtain ⟨hs, ht, hid, hholds⟩ := addEdge_eq_ok hg ha
    exact ⟨_, _, .addEdge true hs ht hid (.inr ⟨rfl, rfl⟩), hholds⟩
  | removeEdge id =>
    cases hh
    exact ⟨_, _, .removeEdge id, removeEdge_holds hg id⟩
  | copy =>
    obtain rfl := Except.ok.inj ((copy_eq hg).symm.trans hh)
    exact ⟨_, _, .unchanged _, hg.holds⟩

theorem change_tryEdit (hg : g.Keyed) (e : Edit) :
    ∃ nodes edges, Change g e nodes edges ∧ (g.tryEdit e).Holds nodes edges := by
  cases he : g.edit e with
  | error fault =>
    rw [tryEdit_of_error he]
    exact ⟨_, _, .unchanged e, hg.holds⟩
  | ok h =>
    rw [tryEdit_of_ok he]
    exact change_of_edit hg he

end Flowsheet.Graph
