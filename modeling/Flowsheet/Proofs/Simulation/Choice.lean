import Flowsheet.Proofs.Graph.Connection
import Flowsheet.Proofs.Simulation.Control
import Flowsheet.Proofs.Simulation.Way

/-! Which edge a run follows from a node while the graph is edited. A new edge is followed only if it
is the first at the node or the first at its first branch, and nothing that is taken away matters but
the followed edge itself. -/

namespace Flowsheet

theorem find?_filter_of_keep {α : Type} {xs : List α} {keep p : α → Bool}
    (hk : ∀ x ∈ xs.find? p, keep x = true) : (xs.filter keep).find? p = xs.find? p := by
  induction xs with
  | nil => rfl
  | cons x xs ih =>
    by_cases hp : p x = true
    · have hx : keep x = true := hk x (List.find?_cons_of_pos hp)
      rw [List.filter_cons_of_pos hx, List.find?_cons_of_pos hp, List.find?_cons_of_pos hp]
    · rw [List.find?_cons_of_neg hp] at hk ⊢
      by_cases hx : keep x = true
      · rw [List.filter_cons_of_pos hx, List.find?_cons_of_neg hp, ih hk]
      · rw [List.filter_cons_of_neg hx, ih hk]

theorem head?_filter_of_keep {α : Type} {xs : List α} {keep : α → Bool}
    (hk : ∀ x ∈ xs.head?, keep x = true) : (xs.filter keep).head? = xs.head? := by
  cases xs with
  | nil => rfl
  | cons x xs => rw [List.filter_cons_of_pos (hk x rfl), List.head?_cons, List.head?_cons]

namespace Kind

/-- The edge that a node of the kind follows. -/
def pick (kind : Kind) (edges : List Edge) : Option Edge :=
  let branch := if kind.isBranching then edges.find? (·.handle = some firstBranch) else none
  branch.or edges.head?

/-- A later edge is followed instead of these: there are none, or it is the first at the branch. -/
def Prefers (kind : Kind) (edges : List Edge) (edge : Edge) : Prop :=
  edges = [] ∨ kind.isBranching = true ∧ edge.handle = some firstBranch ∧
    ∀ other ∈ edges, other.handle ≠ some firstBranch

variable {kind : Kind} {edges others : List Edge} {edge : Edge}

theorem pick_of_isBranching (hb : kind.isBranching = true) (edges : List Edge) :
    kind.pick edges = (edges.find? (·.handle = some firstBranch)).or edges.head? := by
  rw [pick, if_pos hb]

theorem pick_of_not_isBranching (hb : ¬ kind.isBranching = true) (edges : List Edge) :
    kind.pick edges = edges.head? := by
  rw [pick, if_neg hb, Option.none_or]

theorem pick_singleton (kind : Kind) (edge : Edge) : kind.pick [edge] = some edge := by
  by_cases hb : kind.isBranching = true
  · rw [pick_of_isBranching hb]
    by_cases he : edge.handle = some firstBranch <;> simp [he]
  · rw [pick_of_not_isBranching hb, List.head?_cons]

theorem pick_concat_of_prefers (hp : kind.Prefers edges edge) :
    kind.pick (edges ++ [edge]) = some edge := by
  rcases hp with rfl | ⟨hb, he, hothers⟩
  · exact kind.pick_singleton edge
  · have hnone : edges.find? (·.handle = some firstBranch) = none := by simpa using hothers
    simp [pick_of_isBranching hb, List.find?_append, hnone, he]

theorem pick_concat_of_not_prefers (hp : ¬ kind.Prefers edges edge) :
    kind.pick (edges ++ [edge]) = kind.pick edges := by
  obtain ⟨hne, hbranch⟩ := not_or.mp hp
  have hhead : (edges ++ [edge]).head? = edges.head? := List.head?_append_of_ne_nil _ hne
  by_cases hb : kind.isBranching = true
  · rw [pick_of_isBranching hb, pick_of_isBranching hb, hhead, List.find?_append]
    cases hf : edges.find? (·.handle = some firstBranch) with
    | some first => rfl
    | none =>
      have hothers : ∀ other ∈ edges, other.handle ≠ some firstBranch := by simpa using hf
      have he : edge.handle ≠ some firstBranch := fun he => hbranch ⟨hb, he, hothers⟩
      simp [he]
  · rw [pick_of_not_isBranching hb, pick_of_not_isBranching hb, hhead]

theorem pick_filter {keep : Edge → Bool} (hk : ∀ e ∈ kind.pick edges, keep e = true) :
    kind.pick (edges.filter keep) = kind.pick edges := by
  by_cases hb : kind.isBranching = true
  · rw [pick_of_isBranching hb] at hk
    rw [pick_of_isBranching hb, pick_of_isBranching hb]
    -- The first edge of the branch is the followed one, and without one it is the first of all.
    cases hf : edges.find? (·.handle = some firstBranch) with
    | some first =>
      rw [hf, Option.some_or] at hk
      rw [find?_filter_of_keep (by rwa [hf]), hf, Option.some_or, Option.some_or]
    | none =>
      rw [hf, Option.none_or] at hk
      rw [find?_filter_of_keep (by simp [hf]), hf, head?_filter_of_keep hk]
  · rw [pick_of_not_isBranching hb] at hk
    rw [pick_of_not_isBranching hb, pick_of_not_isBranching hb, head?_filter_of_keep hk]

/-- Where one edge alone leaves at the first branch, the order of the edges does not matter. -/
theorem pick_of_perm (hb : kind.isBranching = true) (hp : others.Perm edges)
    (hone : edges.filter (·.handle = some firstBranch) = [edge]) : kind.pick others = some edge := by
  have hfilter := hp.filter (·.handle = some firstBranch)
  rw [hone, List.perm_singleton] at hfilter
  rw [pick_of_isBranching hb, ← List.head?_filter, hfilter, List.head?_cons, Option.some_or]

end Kind

namespace Graph

open Simulation.Player (graded built_graded)

variable {g h : Graph} {id other : String} {node : Node} {edge : Edge} {check : Bool} {e : Edit}
  {nodes : List Node} {edges : List Edge}

theorem Keyed.selected?_eq (hg : g.Keyed) (id : String) :
    g.selected? id = ((g.node? id).map Node.kind).bind (Kind.pick · (g.outgoing id)) := by
  cases hn : g.node? id with
  | none => rw [selected?, hn]; rfl
  | some node =>
    obtain ⟨-, rfl⟩ := hg.mem_of_node? hn
    exact selected?_of_node? hn

theorem Holds.outgoing_eq (hh : h.Holds nodes edges) (id : String) :
    h.outgoing id = edges.filter (·.source = id) := by
  rw [outgoing, hh.edges_eq]

theorem Holds.node?_eq_of_nodes (hh : h.Holds g.nodes edges) (hg : g.Keyed) (id : String) :
    h.node? id = g.node? id := by
  rw [hh.toKeyed.node?_eq, hg.node?_eq, hh.nodes_eq]

theorem Keyed.source_of_selected? (hg : g.Keyed) (he : g.selected? id = some edge) :
    edge.source = id := by
  obtain ⟨node, hn, he⟩ := Option.bind_eq_some_iff.mp he
  exact (nextEdge?_eq_some he).2.trans (hg.mem_of_node? hn).2

/-- The edge, if it is added last, is the one that a run follows from the node. -/
def Reroutes (g : Graph) (id : String) (edge : Edge) : Prop :=
  edge.source = id ∧ ∃ node, g.node? id = some node ∧ node.kind.Prefers (g.outgoing id) edge

/-- From `g` to `h` an edge was added, and a run follows it or goes on as before. -/
structure Rerouted (g h : Graph) (id : String) (edge : Edge) : Prop where
  taken : g.Reroutes id edge → h.selected? id = some edge
  kept : ¬ g.Reroutes id edge → h.selected? id = g.selected? id

theorem rerouted_addEdge (hg : g.Keyed) (ha : g.addEdge edge check = .ok h) (id : String) :
    Rerouted g h id edge := by
  obtain ⟨-, -, -, hh⟩ := addEdge_eq_ok hg ha
  have hout : h.outgoing id = g.outgoing id ++ [edge].filter (·.source = id) := by
    rw [hh.outgoing_eq, List.filter_append]
    rfl
  have hselected := hh.toKeyed.selected?_eq id
  rw [hh.node?_eq_of_nodes hg, hout] at hselected
  constructor
  · rintro ⟨hs, node, hn, hp⟩
    rw [hselected, hn, Option.map_some, Option.bind_some]
    simpa [hs] using Kind.pick_concat_of_prefers hp
  · intro hr
    rw [hselected, hg.selected?_eq]
    by_cases hs : edge.source = id
    · cases hn : g.node? id with
      | none => rfl
      | some node =>
        have hp : ¬ node.kind.Prefers (g.outgoing id) edge := fun hp => hr ⟨hs, node, hn, hp⟩
        rw [Option.map_some, Option.bind_some, Option.bind_some]
        simpa [hs] using Kind.pick_concat_of_not_prefers hp
    · simp [hs]

theorem selected?_of_filter {keep : Edge → Bool} (hg : g.Keyed)
    (hh : h.Holds nodes (g.edges.filter keep)) (hn : h.node? id = g.node? id)
    (hk : ∀ e ∈ g.selected? id, keep e = true) : h.selected? id = g.selected? id := by
  have hout : h.outgoing id = (g.outgoing id).filter keep := by
    rw [hh.outgoing_eq, outgoing, List.filter_filter, List.filter_filter]
    exact List.filter_congr fun e _ => Bool.and_comm _ _
  rw [hg.selected?_eq] at hk
  rw [hh.toKeyed.selected?_eq, hg.selected?_eq, hn, hout]
  cases hnode : g.node? id with
  | none => rfl
  | some node =>
    rw [hnode, Option.map_some, Option.bind_some] at hk
    exact Kind.pick_filter hk

theorem selected?_removeEdge (hg : g.Keyed) (hk : ∀ e ∈ g.selected? id, e.id ≠ other) :
    (g.removeEdge other).selected? id = g.selected? id := by
  have hh := removeEdge_holds hg other
  exact selected?_of_filter hg hh (hh.node?_eq_of_nodes hg id) fun e he => by simpa using hk e he

/-- The edge that is followed leaves the node, so that it goes only with the node or its target. -/
theorem selected?_removeNode (hg : g.Keyed) (hne : other ≠ id)
    (hk : ∀ e ∈ g.selected? id, e.target ≠ other) :
    (g.removeNode other).selected? id = g.selected? id := by
  by_cases hmem : other ∈ g.nodeIds
  · have hh := removeNode_holds hg hmem
    have hn : (g.removeNode other).node? id = g.node? id := by
      rw [hh.toKeyed.node?_eq, hg.node?_eq, hh.nodes_eq]
      refine find?_filter_of_keep fun node hnode => ?_
      have hid : node.id = id := by simpa using List.find?_some hnode
      simpa [hid] using Ne.symm hne
    refine selected?_of_filter hg hh hn fun e he => ?_
    have hs : e.source ≠ other := hg.source_of_selected? he ▸ Ne.symm hne
    simpa using ⟨hs, hk e he⟩
  · rw [removeNode_of_not_mem hg hmem]

theorem selected?_addNode (hg : g.Sound) (ha : g.addNode node = .ok h) (id : String) :
    h.selected? id = g.selected? id := by
  obtain ⟨-, hh⟩ := addNode_eq_ok hg.toKeyed ha
  have hout : h.outgoing id = g.outgoing id := hh.outgoing_eq id
  have hnode := hh.toKeyed.node?_eq id
  rw [hh.nodes_eq, List.find?_append, ← hg.node?_eq] at hnode
  rw [hh.toKeyed.selected?_eq, hg.selected?_eq, hout, hnode]
  cases hn : g.node? id with
  | some old => rfl
  | none =>
    -- No edge leaves a node before it is there, so that a new node goes nowhere.
    have hnone : g.outgoing id = [] := by
      refine List.filter_eq_nil_iff.mpr fun e he hs => ?_
      obtain ⟨source, hsource⟩ := hg.exists_node? (hg.fitting.source_mem e he)
      rw [of_decide_eq_true hs, hn] at hsource
      cases hsource
    rw [hnone, Option.map_none, Option.bind_none, Option.none_or]
    cases [node].find? (·.id = id) with
    | none => rfl
    | some new => cases hb : new.kind.isBranching <;> simp [Kind.pick]

theorem SameOutline.selected?_eq (ho : g.SameOutline h) (hg : g.Keyed) (hh : h.Keyed)
    (id : String) : g.selected? id = h.selected? id := by
  have hout : g.outgoing id = h.outgoing id := by rw [outgoing, outgoing, ho.edges_eq]
  have hkind : (g.node? id).map Node.kind = (h.node? id).map Node.kind := by
    have houtline := congrArg (Option.map Prod.snd) (ho.node? hg hh id)
    rw [Option.map_map, Option.map_map] at houtline
    exact houtline
  rw [hg.selected?_eq, hh.selected?_eq, hout, hkind]

/-- The edit neither takes away the edge that a run follows from the node nor adds one that it would
follow instead. -/
def Edit.Spares (id : String) (g : Graph) : Edit → Prop
  | .removeNode other => other ≠ id ∧ ∀ e ∈ g.selected? id, e.target ≠ other
  | .removeEdge other => ∀ e ∈ g.selected? id, e.id ≠ other
  | .addEdge edge _ => ¬ g.Reroutes id edge
  | .connect source target handle => ¬ g.Reroutes id (g.connection source target handle)
  | .addNode _ | .updatePayload .. | .moveNode .. | .copy => True

theorem selected?_edit (hg : g.Sound) (hs : e.Spares id g) (hh : g.edit e = .ok h) :
    h.selected? id = g.selected? id := by
  have hcontent : e.isContent = true → h.selected? id = g.selected? id := by
    intro hc
    have ho := hg.toKeyed.sameOutline_tryEdit hc
    obtain ⟨_, _, -, hholds⟩ := change_of_edit hg.toKeyed hh
    rw [tryEdit_of_ok hh] at ho
    exact ho.selected?_eq hholds.toKeyed hg.toKeyed id
  cases e with
  | addNode node => exact selected?_addNode hg hh id
  | removeNode other =>
    cases hh
    exact selected?_removeNode hg.toKeyed hs.1 hs.2
  | updatePayload | moveNode => exact hcontent rfl
  | addEdge edge check => exact (rerouted_addEdge hg.toKeyed hh id).kept hs
  | connect source target handle =>
    obtain ⟨⟨k, edge⟩, hc, rfl⟩ := map_eq_ok.mp hh
    obtain ⟨rfl, ha⟩ := connect_eq_ok hc
    exact (rerouted_addEdge hg.toKeyed ha id).kept hs
  | removeEdge other =>
    cases hh
    exact selected?_removeEdge hg.toKeyed hs
  | copy =>
    obtain rfl := Except.ok.inj ((copy_eq hg.toKeyed).symm.trans hh)
    rfl

theorem selected?_editAll (hg : g.Sound) {edits : List Edit} (hm : ∀ e ∈ edits, e.IsMade)
    (hs : g.Along (Edit.Spares id) edits) : (g.editAll edits).selected? id = g.selected? id :=
  hg.editAll_eq (fun hg _ => selected?_edit hg) hm hs

/-- How the edge that a run follows from a node depends on the edits of its graph. -/
structure SteadyChoice (g : Graph) (id : String) : Prop where
  added : ∀ {edge check h}, g.addEdge edge check = .ok h → Rerouted g h id edge
  connected : ∀ {source target handle h edge}, g.connect source target handle = .ok (h, edge) →
    Rerouted g h id edge
  edge_removed : ∀ other, (∀ e ∈ g.selected? id, e.id ≠ other) →
    (g.removeEdge other).selected? id = g.selected? id
  node_removed : ∀ other, other ≠ id → (∀ e ∈ g.selected? id, e.target ≠ other) →
    (g.removeNode other).selected? id = g.selected? id
  spared : ∀ edits, (∀ e ∈ edits, e.IsMade) → g.Along (Edit.Spares id) edits →
    (g.editAll edits).selected? id = g.selected? id
  any_order : ∀ edge node, g.node? id = some node → node.kind.isBranching = true →
    (g.outgoing id).filter (·.handle = some firstBranch) = [edge] →
    ∀ (h : Graph) (n : Node), h.Built → h.node? id = some n → n.kind = node.kind →
      (h.outgoing id).Perm (g.outgoing id) → h.selected? id = some edge

theorem Built.steadyChoice (hg : g.Built) (id : String) : g.SteadyChoice id := by
  have hkeyed := hg.sound.toKeyed
  refine ⟨fun ha => rerouted_addEdge hkeyed ha id, ?_, fun _ => selected?_removeEdge hkeyed,
    fun _ => selected?_removeNode hkeyed, fun _ => selected?_editAll hg.sound, ?_⟩
  · intro source target handle h edge hc
    obtain ⟨-, ha⟩ := connect_eq_ok hc
    exact rerouted_addEdge hkeyed ha id
  · intro edge node _ hb hone h n hh hn hkind hp
    rw [hh.sound.toKeyed.selected?_eq, hn, Option.map_some, Option.bind_some]
    exact Kind.pick_of_perm (hkind ▸ hb) hp hone

/-- The press is given up with the way to it, and what is graded still goes to the jar. -/
def pressless : List Edit :=
  [.moveNode "grade" .origin, .addEdge ⟨"late", "grade", "press", some "branch-0"⟩ false,
    .removeEdge "soft", .removeNode "press"]

theorem graded_steadyChoice : graded.Built ∧ (∀ e ∈ pressless, e.IsMade) ∧
    graded.Along (Edit.Spares "grade") pressless ∧
    graded.selected? "grade" = some ⟨"firm", "grade", "jar", some "branch-0"⟩ ∧
    (graded.editAll pressless).selected? "grade" = graded.selected? "grade" ∧
    graded.Reroutes "press" ⟨"juice", "press", "jar", none⟩ ∧ graded.SteadyChoice "grade" := by
  have hm : ∀ e ∈ pressless, e.IsMade := by decide
  have hsoft : ∀ e ∈ (graded.editAll (pressless.take 2)).selected? "grade", e.id ≠ "soft" := by
    decide
  have hpress : ∀ e ∈ (graded.editAll (pressless.take 3)).selected? "grade",
      e.target ≠ "press" := by decide
  have hs : graded.Along (Edit.Spares "grade") pressless := by
    refine ⟨trivial, ?_, hsoft, ⟨by decide, hpress⟩, trivial⟩
    rintro ⟨-, node, hn, hempty | ⟨-, -, hfree⟩⟩
    · exact absurd hempty (by decide)
    · exact hfree ⟨"firm", "grade", "jar", some "branch-0"⟩ (by decide) rfl
  have hsteady := built_graded.steadyChoice "grade"
  exact ⟨built_graded, hm, hs, by decide, hsteady.spared _ hm hs,
    ⟨rfl, _, rfl, .inl rfl⟩, hsteady⟩

end Graph

end Flowsheet
