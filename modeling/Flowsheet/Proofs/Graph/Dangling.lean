import Flowsheet.Proofs.Graph.Chronicle
import Flowsheet.Proofs.Graph.Connection

/-! Edges whose handle names a row that their source lacks. Edits that look at rows never make one,
so these edges come only from another payload, or from an edge that was added unchecked. -/

namespace Flowsheet.Graph

open RowHandle Text

variable {g h : Graph} {e : Edit} {edge : Edge} {edges : List Edge} {fault : Fault} {id : String}
  {payload : Payload}

/-- The source of the edge lacks the row that the handle names. -/
def Dangles (g : Graph) (edge : Edge) : Prop :=
  ∃ node, g.node? edge.source = some node ∧ node.payload.Lacks edge.handle

/-- The first handle that is not read has so many digits. -/
inductive FirstOverlong : List Edge → Nat → Prop
  | here {edge : Edge} {edges : List Edge} {kind : RowKind} {digits : List Char}
      (hn : Names edge.handle kind digits) (hl : longestRow < digits.length) :
      FirstOverlong (edge :: edges) digits.length
  | later {edge : Edge} {edges : List Edge} {digits : Nat} (hread : ¬ Overlong edge.handle)
      (hrest : FirstOverlong edges digits) : FirstOverlong (edge :: edges) digits

theorem exists_firstOverlong (hlong : ∃ edge ∈ edges, Overlong edge.handle) :
    ∃ digits, FirstOverlong edges digits := by
  induction edges with
  | nil => simp at hlong
  | cons edge edges ih =>
    by_cases hfirst : Overlong edge.handle
    · obtain ⟨kind, digits, hn, hl⟩ := hfirst
      exact ⟨_, .here hn hl⟩
    · have hlater : ∃ edge ∈ edges, Overlong edge.handle := by simpa [hfirst] using hlong
      obtain ⟨digits, hrest⟩ := ih hlater
      exact ⟨digits, .later hfirst hrest⟩

theorem edgeResolves_eq {node : Node} (hn : g.node? edge.source = some node) :
    g.edgeResolves edge = handleResolves node.payload edge.handle := by
  rw [edgeResolves, findNode, hn]
  rfl

theorem edgeResolves_eq_ok_iff (hg : g.Keyed) (hs : edge.source ∈ g.nodeIds) {resolves : Bool} :
    g.edgeResolves edge = .ok resolves ↔
      ¬ Overlong edge.handle ∧ (resolves = true ↔ ¬ g.Dangles edge) := by
  obtain ⟨node, hn⟩ := hg.exists_node? hs
  have hd : g.Dangles edge ↔ node.payload.Lacks edge.handle := by simp [Dangles, hn]
  rw [edgeResolves_eq hn, handleResolves_eq_ok_iff, hd]

theorem edgeResolves_eq_error_iff (hg : g.Keyed) (hs : edge.source ∈ g.nodeIds) :
    g.edgeResolves edge = .error fault ↔
      ∃ kind digits, Names edge.handle kind digits ∧ longestRow < digits.length ∧
        fault = .longIndex digits.length := by
  obtain ⟨node, hn⟩ := hg.exists_node? hs
  rw [edgeResolves_eq hn, handleResolves_eq_error_iff]

theorem selects_dangling (hg : g.Keyed) (hs : ∀ edge ∈ g.edges, edge.source ∈ g.nodeIds)
    (hread : ∀ edge ∈ g.edges, ¬ Overlong edge.handle) :
    ∃ dangling, g.dangling = .ok dangling ∧ Selects dangling g.edges g.Dangles := by
  classical
  have hresolves : ∀ edge ∈ g.edges, (do return (edge, ← g.edgeResolves edge)) =
      (.ok (edge, !decide (g.Dangles edge)) : Except Fault (Edge × Bool)) := by
    intro edge he
    have hr := (edgeResolves_eq_ok_iff hg (hs edge he)).mpr
      ⟨hread edge he, (by simp : (!decide (g.Dangles edge)) = true ↔ _)⟩
    rw [hr]
    rfl
  refine ⟨g.edges.filter (g.Dangles ·), ?_, selects_filter _ _⟩
  rw [dangling, mapM_eq_map hresolves]
  simp [List.filter_map, Function.comp_def, pure, Except.pure, bind, Except.bind]

theorem mapM_edgeResolves_of_firstOverlong (hg : g.Keyed) {digits : Nat}
    (hd : FirstOverlong edges digits) (hs : ∀ edge ∈ edges, edge.source ∈ g.nodeIds) :
    (edges.mapM fun edge => do return (edge, ← g.edgeResolves edge)) =
      (.error (.longIndex digits) : Except Fault (List (Edge × Bool))) := by
  classical
  induction hd with
  | here hn hl =>
    have hfirst := (edgeResolves_eq_error_iff hg (hs _ List.mem_cons_self)).mpr
      ⟨_, _, hn, hl, rfl⟩
    exact mapM_cons_eq_error.mpr (.inl (bind_eq_error.mpr (.inl hfirst)))
  | later hread _ ih =>
    obtain ⟨hfirst, hothers⟩ := List.forall_mem_cons.mp hs
    have hresolves : g.edgeResolves _ = .ok (decide _) :=
      (edgeResolves_eq_ok_iff hg hfirst).mpr ⟨hread, decide_eq_true_iff⟩
    exact mapM_cons_eq_error.mpr (.inr ⟨⟨_, bind_eq_ok.mpr ⟨_, hresolves, rfl⟩⟩, ih hothers⟩)

theorem dangling_of_firstOverlong (hg : g.Keyed) (hs : ∀ edge ∈ g.edges, edge.source ∈ g.nodeIds)
    {digits : Nat} (hd : FirstOverlong g.edges digits) :
    g.dangling = .error (.longIndex digits) := by
  rw [dangling, mapM_edgeResolves_of_firstOverlong hg hd hs]
  rfl

/-- The edit sets no payload and adds no edge unchecked. -/
def Edit.ChecksRows : Edit → Prop
  | .updatePayload .. | .addEdge _ false => False
  | _ => True

instance : DecidablePred Edit.ChecksRows
  | .updatePayload .. | .addEdge _ false => .isFalse fun h => h
  | .addNode _ | .removeNode _ | .moveNode .. | .addEdge _ true | .connect .. | .removeEdge _
  | .copy => .isTrue trivial

/-- Every edge leaves a row that its source has. -/
def RowsPresent (nodes : List Node) (edges : List Edge) : Prop :=
  ∀ edge ∈ edges, ∃ node ∈ nodes, node.id = edge.source ∧
    handleResolves node.payload edge.handle = .ok true

structure Anchored (g : Graph) : Prop extends g.Keyed where
  rows_present : RowsPresent g.nodes g.edges

theorem anchored_empty : empty.Anchored :=
  ⟨holds_empty.toKeyed, fun _ he => nomatch he⟩

theorem Holds.anchored {nodes : List Node} (hh : h.Holds nodes edges)
    (hr : RowsPresent nodes edges) : h.Anchored :=
  ⟨hh.toKeyed, hh.nodes_eq.symm ▸ hh.edges_eq.symm ▸ hr⟩

namespace RowsPresent

variable {nodes : List Node}

theorem append_node (hr : RowsPresent nodes edges) (node : Node) :
    RowsPresent (nodes ++ [node]) edges := by
  intro edge he
  obtain ⟨n, hn, hsource⟩ := hr edge he
  exact ⟨n, List.mem_append_left _ hn, hsource⟩

/-- A kept edge does not leave the node that goes. A later node under the same id meets none. -/
theorem removeNode (hr : RowsPresent nodes edges) (id : String) :
    RowsPresent (nodes.filter (·.id ≠ id))
      (edges.filter fun e => ¬ (e.source = id ∨ e.target = id)) := by
  intro edge he
  obtain ⟨hmem, hends⟩ := List.mem_filter.mp he
  obtain ⟨n, hn, hid, hresolves⟩ := hr edge hmem
  have hne : n.id ≠ id := fun heq => of_decide_eq_true hends (.inl (hid ▸ heq))
  exact ⟨n, List.mem_filter.mpr ⟨hn, by simpa using hne⟩, hid, hresolves⟩

theorem moved (hr : RowsPresent nodes edges) (node : Node) {moved : Node} (hid : moved.id = node.id)
    (hpayload : moved.payload = node.payload) (hunique : ∀ n ∈ nodes, n.id = node.id → n = node) :
    RowsPresent (replaced nodes moved) edges := by
  intro edge he
  obtain ⟨n, hn, hsource, hresolves⟩ := hr edge he
  refine ⟨_, List.mem_map_of_mem hn, ?_⟩
  split
  · next hsame =>
    obtain rfl := hunique n hn (hsame.trans hid)
    exact ⟨hid.trans hsource, hpayload ▸ hresolves⟩
  · exact ⟨hsource, hresolves⟩

theorem append_edge (hr : RowsPresent nodes edges) {node : Node} (hn : node ∈ nodes)
    (hid : node.id = edge.source) (hresolves : handleResolves node.payload edge.handle = .ok true) :
    RowsPresent nodes (edges ++ [edge]) := by
  intro other he
  rcases List.mem_append.mp he with he | he
  · exact hr other he
  · rw [List.mem_singleton.mp he]
    exact ⟨node, hn, hid, hresolves⟩

theorem removeEdge (hr : RowsPresent nodes edges) (id : String) :
    RowsPresent nodes (edges.filter (·.id ≠ id)) :=
  fun edge he => hr edge (List.mem_filter.mp he).1

end RowsPresent

namespace Anchored

theorem addEdge (hg : g.Anchored) (ha : g.addEdge edge true = .ok h) : h.Anchored := by
  obtain ⟨node, hnode, hresolves⟩ := resolves_of_addEdge ha
  obtain ⟨hn, hid⟩ := hg.mem_of_node? hnode
  obtain ⟨-, -, -, hholds⟩ := addEdge_eq_ok hg.toKeyed ha
  exact hholds.anchored (hg.rows_present.append_edge hn hid hresolves)

theorem moveNode (hg : g.Anchored) {position : Position} {r : Graph × Node}
    (hm : g.moveNode id position = .ok r) : r.1.Anchored := by
  obtain ⟨node, hnode, hholds⟩ := moveNode_eq_ok hg.toKeyed hm
  have hmem := (hg.mem_of_node? hnode).1
  have hunique : ∀ n ∈ g.nodes, n.id = node.id → n = node := fun n hn hid =>
    Option.some.inj ((hg.node?_of_mem hn).symm.trans (hid ▸ hg.node?_of_mem hmem))
  exact hholds.anchored (hg.rows_present.moved node rfl rfl hunique)

theorem edit (hg : g.Anchored) (he : e.ChecksRows) (hh : g.edit e = .ok h) : h.Anchored := by
  cases e with
  | addNode node =>
    obtain ⟨-, hholds⟩ := addNode_eq_ok hg.toKeyed hh
    exact hholds.anchored (hg.rows_present.append_node node)
  | removeNode id =>
    cases hh
    by_cases hid : id ∈ g.nodeIds
    · exact (removeNode_holds hg.toKeyed hid).anchored (hg.rows_present.removeNode id)
    · rw [removeNode_of_not_mem hg.toKeyed hid]
      exact hg
  | updatePayload id payload => exact he.elim
  | moveNode id position =>
    obtain ⟨r, hr, rfl⟩ := map_eq_ok.mp hh
    exact hg.moveNode hr
  | addEdge edge check =>
    cases check with
    | false => exact he.elim
    | true => exact hg.addEdge hh
  | connect source target handle =>
    obtain ⟨r, hr, rfl⟩ := map_eq_ok.mp hh
    exact hg.addEdge (connect_eq_ok hr).2
  | removeEdge id =>
    cases hh
    exact (removeEdge_holds hg.toKeyed id).anchored (hg.rows_present.removeEdge id)
  | copy =>
    obtain rfl := Except.ok.inj ((copy_eq hg.toKeyed).symm.trans hh)
    exact hg

theorem tryEdit (hg : g.Anchored) (he : e.ChecksRows) : (g.tryEdit e).Anchored := by
  cases hh : g.edit e with
  | error fault =>
    rw [tryEdit_of_error hh]
    exact hg
  | ok h =>
    rw [tryEdit_of_ok hh]
    exact hg.edit he hh

theorem editAll (hg : g.Anchored) {edits : List Edit} (he : ∀ e ∈ edits, e.ChecksRows) :
    (g.editAll edits).Anchored :=
  editAll_keeps (fun e hm _ hk => hk.tryEdit (he e hm)) hg

theorem dangling_eq (hg : g.Anchored) : g.dangling = .ok [] := by
  have hfree : ∀ edge ∈ g.edges, edge.source ∈ g.nodeIds ∧ ¬ Overlong edge.handle ∧
      ¬ g.Dangles edge := by
    intro edge he
    obtain ⟨node, hn, hid, hresolves⟩ := hg.rows_present edge he
    have hsource : edge.source ∈ g.nodeIds := hid ▸ List.mem_map_of_mem hn
    have hnode : g.node? edge.source = some node := hid ▸ hg.node?_of_mem hn
    rw [← edgeResolves_eq hnode] at hresolves
    obtain ⟨hread, hiff⟩ := (edgeResolves_eq_ok_iff hg.toKeyed hsource).mp hresolves
    exact ⟨hsource, hread, hiff.mp rfl⟩
  obtain ⟨dangling, hd, hselects⟩ := selects_dangling hg.toKeyed
    (fun edge he => (hfree edge he).1) fun edge he => (hfree edge he).2.1
  have hnone : dangling = [] := List.eq_nil_iff_forall_not_mem.mpr fun edge he =>
    have hmem := (hselects.mem_iff edge).mp he
    (hfree edge hmem.1).2.2 hmem.2
  rw [hd, hnone]

end Anchored

/-- What the graph `h` shows after the node of `g` was given the payload. Its own edges are looked at
anew and all others stay as they were, unless there is a handle that cannot be read. -/
structure Redangles (g h : Graph) (id : String) (payload : Payload) : Prop where
  edges_eq : h.edges = g.edges
  read : (∀ edge ∈ g.edges, ¬ Overlong edge.handle) → ∃ before after,
    g.dangling = .ok before ∧ h.dangling = .ok after ∧
      Selects after g.edges fun edge =>
        if edge.source = id then payload.Lacks edge.handle else edge ∈ before
  unread : (∃ edge ∈ g.edges, Overlong edge.handle) → ∃ digits, FirstOverlong g.edges digits ∧
    g.dangling = .error (.longIndex digits) ∧ h.dangling = .error (.longIndex digits)

theorem node?_updatePayload (hg : g.Keyed) {r : Graph × Node}
    (hu : g.updatePayload id payload = .ok r) : ∃ node, g.node? id = some node ∧
      r.1.Holds (replaced g.nodes { node with payload }) g.edges ∧
      ∀ other, r.1.node? other =
        if other = id then some { node with payload } else g.node? other := by
  obtain ⟨node, hnode, -, hholds⟩ := updatePayload_eq_ok hg hu
  refine ⟨node, hnode, hholds, fun other => ?_⟩
  obtain ⟨-, rfl⟩ := hg.mem_of_node? hnode
  rw [hholds.toKeyed.node?_eq, hholds.nodes_eq, find?_replaced, ← hg.node?_eq]
  by_cases hother : other = node.id
  · simp [hother, hnode]
  · rw [if_neg hother]
    cases hfound : g.node? other with
    | none => rfl
    | some n =>
      have hne : n.id ≠ node.id := fun heq => hother ((hg.mem_of_node? hfound).2 ▸ heq)
      simp [hne]

theorem dangles_updatePayload (hg : g.Keyed) {r : Graph × Node}
    (hu : g.updatePayload id payload = .ok r) : r.1.Dangles edge ↔
      if edge.source = id then payload.Lacks edge.handle else g.Dangles edge := by
  obtain ⟨node, -, -, hfind⟩ := node?_updatePayload hg hu
  rw [Dangles, hfind]
  by_cases hs : edge.source = id
  · simp [hs]
  · simp [hs, Dangles]

theorem redangles_updatePayload (hg : g.Sound) {r : Graph × Node}
    (hu : g.updatePayload id payload = .ok r) : Redangles g r.1 id payload := by
  obtain ⟨node, hnode, hholds, -⟩ := node?_updatePayload hg.toKeyed hu
  have hsource : ∀ edge ∈ r.1.edges, edge.source ∈ r.1.nodeIds := by
    rw [hholds.edges_eq, nodeIds, hholds.nodes_eq, map_id_replaced]
    exact hg.fitting.source_mem
  refine ⟨hholds.edges_eq, fun hread => ?_, fun hlong => ?_⟩
  · obtain ⟨before, hbefore, hold⟩ := selects_dangling hg.toKeyed hg.fitting.source_mem hread
    obtain ⟨after, hafter, hnew⟩ := selects_dangling hholds.toKeyed hsource
      (hholds.edges_eq.symm ▸ hread)
    rw [hholds.edges_eq] at hnew
    refine ⟨before, after, hbefore, hafter, hnew.sublist, fun edge => ?_⟩
    rw [hnew.mem_iff, dangles_updatePayload hg.toKeyed hu, hold.mem_iff]
    refine and_congr_right fun he => ?_
    by_cases hs : edge.source = id <;> simp [hs, he]
  · obtain ⟨digits, hfirst⟩ := exists_firstOverlong hlong
    exact ⟨digits, hfirst, dangling_of_firstOverlong hg.toKeyed hg.fitting.source_mem hfirst,
      dangling_of_firstOverlong hholds.toKeyed hsource (hholds.edges_eq.symm ▸ hfirst)⟩

/-- No edge dangles if all edits looked at rows, and which edges do after a payload was set depends
on that payload for the edges of its node alone. -/
structure DanglesByPayload (g : Graph) : Prop where
  dangling_checked : ∀ edits, (∀ e ∈ edits, Edit.ChecksRows e) → g = empty.editAll edits →
    g.dangling = .ok []
  redangles : ∀ id payload r, g.updatePayload id payload = .ok r → Redangles g r.1 id payload

theorem Built.danglesByPayload (hg : g.Built) : g.DanglesByPayload where
  dangling_checked edits he hedits := by
    rw [hedits]
    exact (anchored_empty.editAll he).dangling_eq
  redangles _ _ _ hu := redangles_updatePayload hg.sound hu

/-- A decision with these branches. -/
def fork (branches : List String) : Payload := .ofBody (.decision branches) "" ""

/-- The fork is put back with one branch less, so that its second branch cannot be left again. -/
def reforked : List Edit :=
  [.addNode ⟨"f", .decision, fork ["yes", "no"], .origin⟩, .connect "f" "f" (some "branch-1"),
    .removeNode "f", .addNode ⟨"f", .decision, fork ["yes"], .origin⟩,
    .connect "f" "f" (some "branch-1"), .connect "f" "f" (some "branch-0")]

theorem reforked_danglesByPayload :
    (∀ e ∈ reforked, e.ChecksRows) ∧ (empty.editAll reforked).Built ∧
      (empty.editAll reforked).edges = [⟨"e-f-f-branch-0", "f", "f", some "branch-0"⟩] ∧
      (empty.editAll reforked).dangling = .ok [] ∧
      ∃ r, (empty.editAll reforked).updatePayload "f" (fork []) = .ok r ∧
        r.1.dangling = .ok r.1.edges ∧ Redangles (empty.editAll reforked) r.1 "f" (fork []) := by
  have hchecks : ∀ e ∈ reforked, e.ChecksRows := by decide
  have hb : (empty.editAll reforked).Built := Built.empty.editAll (by decide)
  have hdangles := hb.danglesByPayload
  have hu : ∃ r, (empty.editAll reforked).updatePayload "f" (fork []) = .ok r ∧
      r.1.dangling = .ok r.1.edges := ⟨_, rfl, rfl⟩
  obtain ⟨r, hr, hd⟩ := hu
  exact ⟨hchecks, hb, by decide, hdangles.dangling_checked _ hchecks rfl, r, hr, hd,
    hdangles.redangles _ _ _ hr⟩

/-- An edge to a row that the process does not have was added unchecked. -/
def strained : Graph := lone.tryEdit (.addEdge ⟨"e", "p", "p", some farRow⟩ false)

theorem strained_dangling_stops : strained.Built ∧
    ∃ r, strained.updatePayload "p" (.empty .process) = .ok r ∧
      r.1.edges = [⟨"e", "p", "p", some farRow⟩] ∧ (Payload.empty .process).Lacks (some farRow) ∧
      r.1.dangling = .error (.longIndex (longestRow + 1)) := by
  have hb : strained.Built := built_lone.edited trivial
  have hu : ∃ r, strained.updatePayload "p" (.empty .process) = .ok r ∧
      r.1.edges = [⟨"e", "p", "p", some farRow⟩] ∧ r.1.nodeIds = ["p"] := ⟨_, rfl, rfl, rfl⟩
  obtain ⟨r, hr, hedges, hids⟩ := hu
  have hkeyed : r.1.Keyed := by
    obtain ⟨_, _, hholds, -⟩ := node?_updatePayload hb.sound.toKeyed hr
    exact hholds.toKeyed
  have hfirst : FirstOverlong r.1.edges (List.replicate (longestRow + 1) '9').length := by
    rw [hedges]
    exact .here names_farRow (by simp)
  rw [List.length_replicate] at hfirst
  have hsource : ∀ edge ∈ r.1.edges, edge.source ∈ r.1.nodeIds := by
    rw [hedges, hids]
    simp
  exact ⟨hb, r, hr, hedges, ⟨_, _, names_farRow, Nat.zero_le _⟩,
    dangling_of_firstOverlong hkeyed hsource hfirst⟩

end Flowsheet.Graph
