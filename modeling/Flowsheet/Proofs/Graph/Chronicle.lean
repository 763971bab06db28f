import Flowsheet.Proofs.Graph.Integrity

/-! The content of a graph as its history tells it. A record is there if nothing came after it was
last added that takes it away. The records stand in the order of these additions, and a node has
what was set for it last. -/

namespace Flowsheet.Graph

/-- What an edit did to the graph. -/
inductive Event where
  | addedNode (node : Node)
  | removedNode (id : String)
  | updatedPayload (id : String) (payload : Payload)
  | movedNode (id : String) (position : Position)
  | addedEdge (edge : Edge)
  | removedEdge (id : String)

/-- What the edit does if it succeeds. A copy is no event. -/
def Edit.effect? (g : Graph) : Edit → Option Event
  | .addNode node => some (.addedNode node)
  | .removeNode id => some (.removedNode id)
  | .updatePayload id payload => some (.updatedPayload id payload)
  | .moveNode id position => some (.movedNode id position)
  | .addEdge edge _ => some (.addedEdge edge)
  | .connect source target handle =>
    (g.connect source target handle).toOption.map fun r => .addedEdge r.2
  | .removeEdge id => some (.removedEdge id)
  | .copy => none

def event? (g : Graph) (e : Edit) : Option Event :=
  match g.edit e with
  | .ok _ => e.effect? g
  | .error _ => none

def chronicle (g : Graph) : List Edit → List Event
  | [] => []
  | e :: edits => (g.event? e).toList ++ chronicle (g.tryEdit e) edits

namespace Event

def node? : Event → Option Node
  | .addedNode node => some node
  | _ => none

def edge? : Event → Option Edge
  | .addedEdge edge => some edge
  | _ => none

def payload? (id : String) : Event → Option Payload
  | .updatedPayload other payload => if other = id then some payload else none
  | _ => none

def position? (id : String) : Event → Option Position
  | .movedNode other position => if other = id then some position else none
  | _ => none

/-- An earlier addition of the node does not count any more. -/
def endsNode (id : String) : Event → Bool
  | .addedNode node => node.id = id
  | .removedNode other => other = id
  | _ => false

def endsEdge (edge : Edge) : Event → Bool
  | .addedEdge other => other.id = edge.id
  | .removedEdge id => id = edge.id
  | .removedNode id => edge.source = id ∨ edge.target = id
  | _ => false

end Event

/-- The node with the latest payload and the latest position that the events set for it. -/
def settled (events : List Event) (node : Node) : Node :=
  { node with
    payload := (events.filterMap (·.payload? node.id)).getLast?.getD node.payload
    position := (events.filterMap (·.position? node.id)).getLast?.getD node.position }

def standingNodes : List Event → List Node
  | [] => []
  | .addedNode node :: later =>
    if later.any (·.endsNode node.id) then standingNodes later
    else settled later node :: standingNodes later
  | _ :: later => standingNodes later

def standingEdges : List Event → List Edge
  | [] => []
  | .addedEdge edge :: later =>
    if later.any (·.endsEdge edge) then standingEdges later else edge :: standingEdges later
  | _ :: later => standingEdges later

variable {g h : Graph} {e : Edit} {event : Event} {node : Node}

theorem settled_nil (node : Node) : settled [] node = node := rfl

theorem settled_append (earlier later : List Event) (node : Node) :
    settled (earlier ++ later) node = settled later (settled earlier node) := by
  simp [settled, List.getLast?_append, Option.getD_or]

/-- What is left of a node after the event. -/
def Event.onNode (event : Event) (node : Node) : Option Node :=
  if event.endsNode node.id then none else some (settled [event] node)

theorem standingNodes_concat (events : List Event) (event : Event) :
    standingNodes (events ++ [event]) =
      (standingNodes events).filterMap event.onNode ++ event.node?.toList := by
  induction events with
  | nil => cases event <;> simp [standingNodes, Event.node?, settled_nil]
  | cons first later ih =>
    cases first with
    | addedNode node =>
      have hid : (settled later node).id = node.id := rfl
      by_cases hlater : later.any (·.endsNode node.id) = true
      · simp [standingNodes, List.any_append, hlater, ih]
      · by_cases hlast : event.endsNode node.id = true
        · simp [standingNodes, List.any_append, hlater, hlast, ih, Event.onNode, hid]
        · simp [standingNodes, List.any_append, hlater, hlast, ih, Event.onNode, hid,
            settled_append]
    | _ => simpa [standingNodes] using ih

theorem standingEdges_concat (events : List Event) (event : Event) :
    standingEdges (events ++ [event]) =
      (standingEdges events).filter (!event.endsEdge ·) ++ event.edge?.toList := by
  induction events with
  | nil => cases event <;> simp [standingEdges, Event.edge?]
  | cons first later ih =>
    cases first with
    | addedEdge edge =>
      by_cases hlater : later.any (·.endsEdge edge) = true
      · simp [standingEdges, List.any_append, hlater, ih]
      · by_cases hlast : event.endsEdge edge = true <;>
          simp [standingEdges, List.any_append, hlater, hlast, ih]
    | _ => simpa [standingEdges] using ih

section

variable (n : Node) (id : String)

theorem onNode_addedNode (node : Node) :
    (Event.addedNode node).onNode n = if node.id = n.id then none else some n := by
  by_cases hid : node.id = n.id <;>
    simp [Event.onNode, Event.endsNode, settled, Event.payload?, Event.position?, hid]

theorem onNode_removedNode :
    (Event.removedNode id).onNode n = if id = n.id then none else some n := by
  by_cases hid : id = n.id <;>
    simp [Event.onNode, Event.endsNode, settled, Event.payload?, Event.position?, hid]

theorem onNode_updatedPayload (payload : Payload) :
    (Event.updatedPayload id payload).onNode n =
      some (if id = n.id then { n with payload } else n) := by
  by_cases hid : id = n.id <;>
    simp [Event.onNode, Event.endsNode, settled, Event.payload?, Event.position?, hid]

theorem onNode_movedNode (position : Position) :
    (Event.movedNode id position).onNode n =
      some (if id = n.id then { n with position } else n) := by
  by_cases hid : id = n.id <;>
    simp [Event.onNode, Event.endsNode, settled, Event.payload?, Event.position?, hid]

theorem onNode_addedEdge (edge : Edge) : (Event.addedEdge edge).onNode n = some n := rfl

theorem onNode_removedEdge : (Event.removedEdge id).onNode n = some n := rfl

end

theorem replaced_eq_map (hg : g.Keyed) {id : String} (hnode : g.node? id = some node)
    (f : Node → Node) (hf : (f node).id = node.id) :
    replaced g.nodes (f node) = g.nodes.map fun n => if id = n.id then f n else n := by
  obtain ⟨-, rfl⟩ := hg.mem_of_node? hnode
  rw [replaced, hf]
  apply List.map_congr_left
  intro n hn
  by_cases hid : n.id = node.id
  · have hfound := hg.node?_of_mem hn
    rw [hid, hnode] at hfound
    simp [Option.some.inj hfound]
  · simp [hid, Ne.symm hid]

/-- The graph has the records that the event leaves, and the one that it adds. -/
def Shows (h : Graph) (event : Event) (g : Graph) : Prop :=
  h.Holds (g.nodes.filterMap event.onNode ++ event.node?.toList)
    (g.edges.filter (!event.endsEdge ·) ++ event.edge?.toList)

theorem shows_addedNode (hg : g.Keyed) (ha : g.addNode node = .ok h) :
    h.Shows (.addedNode node) g := by
  obtain ⟨hid, hholds⟩ := addNode_eq_ok hg ha
  have hkept : g.nodes.filterMap (Event.addedNode node).onNode = g.nodes := by
    have hsome : ∀ n ∈ g.nodes, (Event.addedNode node).onNode n = some n := by
      intro n hn
      have hne : node.id ≠ n.id := fun he => hid (he ▸ List.mem_map_of_mem hn)
      rw [onNode_addedNode, if_neg hne]
    rw [List.filterMap_congr hsome, List.filterMap_some]
  simpa [Shows, hkept, Event.node?, Event.edge?, Event.endsEdge] using hholds

theorem filterMap_removedNode (nodes : List Node) (id : String) :
    nodes.filterMap (Event.removedNode id).onNode = nodes.filter (·.id ≠ id) := by
  rw [← List.filterMap_eq_filter]
  apply List.filterMap_congr
  intro n _
  rw [onNode_removedNode]
  by_cases hid : id = n.id <;> simp [hid, Option.guard, eq_comm]

/-- Nothing is at a node that is not there, so that its removal leaves all edges. -/
theorem shows_removedNode (hg : g.Sound) (id : String) :
    (g.removeNode id).Shows (.removedNode id) g := by
  have hedges : g.edges.filter (!(Event.removedNode id).endsEdge ·) =
      g.edges.filter fun e => ¬ (e.source = id ∨ e.target = id) :=
    List.filter_congr fun e _ => by simp [Event.endsEdge]
  rw [Shows, filterMap_removedNode, hedges]
  by_cases hid : id ∈ g.nodeIds
  · simpa [Event.node?, Event.edge?] using removeNode_holds hg.toKeyed hid
  · have hnodes : g.nodes.filter (·.id ≠ id) = g.nodes := by
      apply List.filter_eq_self.mpr
      intro n hn
      have hne : n.id ≠ id := fun he => hid (he ▸ List.mem_map_of_mem hn)
      simpa using hne
    have hkept : (g.edges.filter fun e => ¬ (e.source = id ∨ e.target = id)) = g.edges := by
      apply List.filter_eq_self.mpr
      intro e he
      have hs : e.source ≠ id := fun heq => hid (heq ▸ hg.fitting.source_mem e he)
      have ht : e.target ≠ id := fun heq => hid (heq ▸ hg.fitting.target_mem e he)
      simp [hs, ht]
    rw [removeNode_of_not_mem hg.toKeyed hid, hnodes, hkept]
    simpa [Event.node?, Event.edge?] using hg.holds

theorem shows_updatedPayload (hg : g.Keyed) {id : String} {payload : Payload} {r : Graph × Node}
    (hu : g.updatePayload id payload = .ok r) : r.1.Shows (.updatedPayload id payload) g := by
  obtain ⟨node, hnode, -, hholds⟩ := updatePayload_eq_ok hg hu
  rw [replaced_eq_map hg hnode (fun n => { n with payload }) rfl] at hholds
  have honNode : (Event.updatedPayload id payload).onNode =
      some ∘ fun n => if id = n.id then { n with payload } else n :=
    funext fun n => onNode_updatedPayload n id payload
  simpa [Shows, honNode, List.filterMap_eq_map, Event.node?, Event.edge?, Event.endsEdge]
    using hholds

theorem shows_movedNode (hg : g.Keyed) {id : String} {position : Position} {r : Graph × Node}
    (hm : g.moveNode id position = .ok r) : r.1.Shows (.movedNode id position) g := by
  obtain ⟨node, hnode, hholds⟩ := moveNode_eq_ok hg hm
  rw [replaced_eq_map hg hnode (fun n => { n with position }) rfl] at hholds
  have honNode : (Event.movedNode id position).onNode =
      some ∘ fun n => if id = n.id then { n with position } else n :=
    funext fun n => onNode_movedNode n id position
  simpa [Shows, honNode, List.filterMap_eq_map, Event.node?, Event.edge?, Event.endsEdge]
    using hholds

theorem shows_addedEdge (hg : g.Keyed) {edge : Edge} {check : Bool}
    (ha : g.addEdge edge check = .ok h) : h.Shows (.addedEdge edge) g := by
  obtain ⟨-, -, hid, hholds⟩ := addEdge_eq_ok hg ha
  have hkept : g.edges.filter (!(Event.addedEdge edge).endsEdge ·) = g.edges := by
    apply List.filter_eq_self.mpr
    intro e he
    have hne : edge.id ≠ e.id := fun heq => hid (heq ▸ List.mem_map_of_mem he)
    simp [Event.endsEdge, hne]
  have honNode : (Event.addedEdge edge).onNode = some :=
    funext fun n => onNode_addedEdge n edge
  simpa [Shows, hkept, honNode, Event.node?, Event.edge?] using hholds

theorem shows_removedEdge (hg : g.Keyed) (id : String) :
    (g.removeEdge id).Shows (.removedEdge id) g := by
  have hleft : g.edges.filter (!(Event.removedEdge id).endsEdge ·) =
      g.edges.filter (·.id ≠ id) :=
    List.filter_congr fun e _ => by simp [Event.endsEdge, eq_comm]
  have honNode : (Event.removedEdge id).onNode = some :=
    funext fun n => onNode_removedEdge n id
  simpa [Shows, hleft, honNode, Event.node?, Event.edge?] using removeEdge_holds hg id

theorem shows_of_edit (hg : g.Sound) (hh : g.edit e = .ok h) (he : e.effect? g = some event) :
    h.Shows event g := by
  cases e with
  | addNode node =>
    cases he
    exact shows_addedNode hg.toKeyed hh
  | removeNode id =>
    cases he
    cases hh
    exact shows_removedNode hg id
  | updatePayload id payload =>
    cases he
    obtain ⟨r, hr, rfl⟩ := map_eq_ok.mp hh
    exact shows_updatedPayload hg.toKeyed hr
  | moveNode id position =>
    cases he
    obtain ⟨r, hr, rfl⟩ := map_eq_ok.mp hh
    exact shows_movedNode hg.toKeyed hr
  | addEdge edge check =>
    cases he
    exact shows_addedEdge hg.toKeyed hh
  | connect source target handle =>
    obtain ⟨r, hr, rfl⟩ := map_eq_ok.mp hh
    rw [Edit.effect?, hr] at he
    cases he
    exact shows_addedEdge hg.toKeyed (connect_eq_ok hr).2
  | removeEdge id =>
    cases he
    cases hh
    exact shows_removedEdge hg.toKeyed id
  | copy => cases he

theorem eq_of_edit (hg : g.Keyed) (hh : g.edit e = .ok h) (he : e.effect? g = none) : h = g := by
  cases e with
  | connect source target handle =>
    obtain ⟨r, hr, rfl⟩ := map_eq_ok.mp hh
    rw [Edit.effect?, hr] at he
    cases he
  | copy => exact Except.ok.inj (hh.symm.trans (copy_eq hg))
  | _ => cases he

/-- The records of the graph are those that the events leave standing. -/
def Told (g : Graph) (events : List Event) : Prop :=
  g.Holds (standingNodes events) (standingEdges events)

theorem Told.tryEdit {events : List Event} (ht : g.Told events) (hg : g.Sound) (e : Edit) :
    (g.tryEdit e).Told (events ++ (g.event? e).toList) := by
  cases hh : g.edit e with
  | error fault => simpa [event?, hh, Graph.tryEdit] using ht
  | ok h =>
    have hevent : g.event? e = e.effect? g := by simp [event?, hh]
    rw [tryEdit_of_ok hh, hevent]
    cases he : e.effect? g with
    | none => simpa [eq_of_edit hg.toKeyed hh he] using ht
    | some event =>
      have hshows := shows_of_edit hg hh he
      rw [Shows, ht.nodes_eq, ht.edges_eq] at hshows
      rw [Option.toList_some, Told, standingNodes_concat, standingEdges_concat]
      exact hshows

/-- A history is told edit by edit, each on the graph that those before it left. -/
theorem Told.editAll {events : List Event} {edits : List Edit} (ht : g.Told events)
    (hg : g.Sound) (hedits : ∀ e ∈ edits, e.IsMade) :
    (g.editAll edits).Told (events ++ g.chronicle edits) := by
  induction edits generalizing g events with
  | nil => simpa [chronicle, Graph.editAll] using ht
  | cons e edits ih =>
    obtain ⟨he, hrest⟩ := List.forall_mem_cons.mp hedits
    have hnext := ih (ht.tryEdit hg e) (hg.tryEdit he) hrest
    rw [List.append_assoc] at hnext
    exact hnext

/-- The edges of a list that satisfy a condition, in their order. -/
structure Selects (selected edges : List Edge) (p : Edge → Prop) : Prop where
  sublist : selected.Sublist edges
  mem_iff : ∀ e, e ∈ selected ↔ e ∈ edges ∧ p e

/-- What a graph shows is what its history left, and taking away what is not there does nothing. -/
structure Accounted (g : Graph) (events : List Event) : Prop where
  nodes_eq : g.nodes = standingNodes events
  edges_eq : g.edges = standingEdges events
  removeNode_absent : ∀ id, id ∉ g.nodeIds → g.removeNode id = g
  removeEdge_absent : ∀ id, id ∉ g.edgeIds → g.removeEdge id = g
  outgoing_selects : ∀ id, Selects (g.outgoing id) g.edges (·.source = id)
  incoming_selects : ∀ id, Selects (g.incoming id) g.edges (·.target = id)

theorem selects_filter (edges : List Edge) (p : Edge → Prop) [DecidablePred p] :
    Selects (edges.filter p) edges p :=
  ⟨List.filter_sublist, fun e => by simp⟩

theorem removeEdge_of_not_mem (hg : g.Keyed) {id : String} (hid : id ∉ g.edgeIds) :
    g.removeEdge id = g := by
  have hkept : g.edges.filter (·.id ≠ id) = g.edges := by
    apply List.filter_eq_self.mpr
    intro e he
    have hne : e.id ≠ id := fun heq => hid (heq ▸ List.mem_map_of_mem he)
    simpa using hne
  have hholds := removeEdge_holds hg id
  rw [hkept] at hholds
  exact hholds.unique hg.holds

theorem accounted_editAll {edits : List Edit} (hedits : ∀ e ∈ edits, e.IsMade) :
    (empty.editAll edits).Accounted (empty.chronicle edits) := by
  have hkeyed : (empty.editAll edits).Keyed := (Built.empty.editAll hedits).sound.toKeyed
  have hempty : empty.Told [] := holds_empty
  have htold := hempty.editAll sound_empty hedits
  constructor
  · exact htold.nodes_eq
  · exact htold.edges_eq
  · exact fun id hid => removeNode_of_not_mem hkeyed hid
  · exact fun id hid => removeEdge_of_not_mem hkeyed hid
  · exact fun id => selects_filter _ _
  · exact fun id => selects_filter _ _

/-- The bin is taken away with its edge and put back behind the lid, where it cannot be moved to the
front by adding it once more. The edge between them is made twice, the second time under a new id. -/
def reworked : List Edit :=
  [.addNode ⟨"bin", .start, .empty .items, .origin⟩,
    .addNode ⟨"lid", .finish, .empty .items, .origin⟩, .connect "bin" "lid" none,
    .removeNode "bin", .addNode ⟨"bin", .delay, .empty .basic, .origin⟩,
    .addNode ⟨"bin", .start, .empty .items, .origin⟩, .addEdge ⟨"x", "bin", "jar", none⟩ false,
    .connect "bin" "lid" none, .connect "bin" "lid" none, .removeEdge "e-bin-lid"]

theorem reworked_accounted : (∀ e ∈ reworked, e.IsMade) ∧
    (standingNodes (empty.chronicle reworked)).map (fun n => (n.id, n.kind)) =
      [("lid", .finish), ("bin", .delay)] ∧
    standingEdges (empty.chronicle reworked) = [⟨"e-bin-lid-1", "bin", "lid", none⟩] ∧
    (empty.editAll reworked).Accounted (empty.chronicle reworked) := by
  have hedits : ∀ e ∈ reworked, e.IsMade := by decide
  exact ⟨hedits, by decide, by decide, accounted_editAll hedits⟩

end Flowsheet.Graph
