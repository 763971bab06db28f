import Flowsheet.Proofs.Simulation.Course
import Mathlib.Data.List.Chain

/-! The way that a graph prescribes: from its first start node along the selected edges, until there
is no edge or the edge leads to an end. The history of a run without a limit is such a way, and the
other parts of the session say where it has got to. -/

namespace Flowsheet

namespace Graph

open Simulation (Course)

variable {g : Graph} {node : Node} {id next : String} {ids : List String}

/-- The edge that a run follows from the node with the id. -/
def selected? (g : Graph) (id : String) : Option Edge :=
  (g.node? id).bind g.nextEdge?

structure Way (g : Graph) (ids : List String) : Prop where
  first_eq : ids ≠ [] → ids.head? = g.startNode?.map Node.id
  linked : ids.IsChain fun v w => (g.selected? v).map Edge.target = some w
  no_end : ∀ id ∈ ids, ∃ node, g.node? id = some node ∧ node.kind ≠ .finish

theorem way_nil (g : Graph) : g.Way [] :=
  ⟨fun h => absurd rfl h, .nil, by simp⟩

theorem way_start (hg : g.Keyed) (hs : g.startNode? = some node) : g.Way [node.id] := by
  obtain ⟨hmem, hkind⟩ := List.mem_filter.mp (List.mem_of_mem_head? hs)
  refine ⟨fun _ => by rw [hs]; rfl, .singleton _, ?_⟩
  intro id hid
  rw [List.mem_singleton.mp hid]
  refine ⟨node, hg.node?_of_mem hmem, ?_⟩
  rw [of_decide_eq_true hkind]
  exact Kind.noConfusion

theorem Way.append (hw : g.Way (ids ++ [id]))
    (hnext : (g.selected? id).map Edge.target = some next) (hn : g.node? next = some node)
    (hkind : node.kind ≠ .finish) : g.Way (ids ++ [id] ++ [next]) where
  first_eq _ := by
    have hne : ids ++ [id] ≠ [] := List.append_ne_nil_of_right_ne_nil ids (List.cons_ne_nil id [])
    rw [List.head?_append_of_ne_nil _ hne]
    exact hw.first_eq hne
  linked := by
    rw [List.isChain_append]
    refine ⟨hw.linked, .singleton _, ?_⟩
    intro v hv w hw'
    rw [List.getLast?_concat] at hv
    cases hv
    cases hw'
    exact hnext
  no_end v hv := by
    rcases List.mem_append.mp hv with hv | hv
    · exact hw.no_end v hv
    · rw [List.mem_singleton.mp hv]
      exact ⟨node, hn, hkind⟩

theorem selected?_of_node? (hn : g.node? id = some node) : g.selected? id = g.nextEdge? node := by
  rw [selected?, hn, Option.bind_some]

theorem nextEdge?_eq_none_iff : g.nextEdge? node = none ↔ g.outgoing node.id = [] := by
  unfold nextEdge?
  constructor
  · intro h
    exact List.head?_eq_none_iff.mp (Option.or_eq_none_iff.mp h).2
  · intro h
    simp [h]

/-- What a course says of the edge that a run follows from the node. -/
inductive Leads (g : Graph) (node : Node) : Course → Prop
  | deadEnd (he : g.nextEdge? node = none) : Leads g node .deadEnd
  | finish {edge : Edge} {target : Node} (he : g.nextEdge? node = some edge)
      (ht : g.node? edge.target = some target) (hk : target.kind = .finish) :
      Leads g node (.finish edge.id edge.target)
  | onward {edge : Edge} {target : Node} (he : g.nextEdge? node = some edge)
      (ht : g.node? edge.target = some target) (hk : target.kind ≠ .finish) :
      Leads g node (.onward edge.id edge.target)

theorem Sound.leads (hg : g.Sound) (node : Node) : g.Leads node (g.course node) := by
  unfold course
  cases he : g.nextEdge? node with
  | none => exact .deadEnd he
  | some edge =>
    obtain ⟨target, ht⟩ := hg.exists_target he
    simp only [ht, (hg.mem_of_node? ht).2]
    split
    · next hk => exact .finish he ht hk
    · next hk => exact .onward he ht hk

end Graph

namespace Simulation

variable {g : Graph} {options : Options} {s : Session}

/-- The history of the session is a way through the graph, and the session stands where it leads. -/
structure Session.Prescribed (g : Graph) (s : Session) : Prop where
  count_eq : s.stepCount = s.history.length
  way : g.Way s.history
  running : s.phase = .running → ∀ last, s.history.getLast? = some last →
    ∃ edge target, g.selected? last = some edge ∧ g.node? edge.target = some target ∧
      target.kind ≠ .finish ∧ s.activeEdge = some edge.id ∧ s.activeNode = some edge.target
  halted : s.phase = .halted → ∀ last, s.history.getLast? = some last → g.outgoing last = []
  completed : s.phase = .completed → ∃ last edge target, s.history.getLast? = some last ∧
    g.selected? last = some edge ∧ g.node? edge.target = some target ∧ target.kind = .finish ∧
    s.activeEdge = some edge.id ∧ s.endNode = some edge.target ∧ edge.target ∉ s.history

/-- The node that is to be executed next continues the way. -/
structure Session.OnWay (g : Graph) (s : Session) : Prop extends s.Prescribed g where
  goes_on : ∀ id, pending? s = some id → g.Way (s.history ++ [id])

theorem onWay_start (hg : g.Keyed) (seed : List (String × Value)) :
    (start g seed).1.OnWay g := by
  unfold start
  cases hk : g.ofKind .start with
  | nil => exact ⟨⟨rfl, g.way_nil, by simp, by simp [Session.idle], by simp⟩, by simp [pending?]⟩
  | cons first rest =>
    have hfirst : g.startNode? = some first := by rw [Graph.startNode?, hk, List.head?_cons]
    refine ⟨⟨rfl, g.way_nil, by simp [Session.idle], by simp, by simp⟩, ?_⟩
    intro id hid
    cases hid
    exact Graph.way_start hg hfirst

/-- The executed node ends the way, and its course is where the session then stands. -/
theorem Session.OnWay.executed (ho : options.historyLimit = none) (hg : g.Sound)
    (hs : s.OnWay g) (hr : s.phase = .running) {node : Node} (hn : g.node? node.id = some node)
    (hway : g.Way (s.history ++ [node.id])) (e : Effect) :
    ((g.course node).applyTo (executed options s node e)).OnWay g := by
  have hcount : s.stepCount + 1 = ((s.history ++ [node.id]).length : Int) := by
    rw [hs.count_eq, List.length_append, List.length_singleton]
    rfl
  have hlast : (s.history ++ [node.id]).getLast? = some node.id := List.getLast?_concat
  have hl := hg.leads node
  generalize g.course node = course at hl ⊢
  unfold Simulation.executed
  rw [trim_of_none ho]
  cases hl with
  | deadEnd he =>
    refine ⟨⟨hcount, hway, by simp [Course.applyTo, halt], ?_, by simp [Course.applyTo, halt]⟩,
      by simp [Course.applyTo, halt, pending?]⟩
    intro _ last hlast'
    cases hlast.symm.trans hlast'
    exact Graph.nextEdge?_eq_none_iff.mp he
  | finish he ht hk =>
    refine ⟨⟨hcount, hway, by simp [Course.applyTo], by simp [Course.applyTo], ?_⟩,
      by simp [Course.applyTo, pending?]⟩
    intro _
    refine ⟨node.id, _, _, hlast, (Graph.selected?_of_node? hn).trans he, ht, hk, rfl, rfl, ?_⟩
    intro hmem
    obtain ⟨other, ho', hk'⟩ := hway.no_end _ hmem
    cases ht.symm.trans ho'
    exact hk' hk
  | @onward edge target he ht hk =>
    have hnext : g.selected? node.id = some edge := (Graph.selected?_of_node? hn).trans he
    refine ⟨⟨hcount, hway, ?_, by simp [Course.applyTo, hr], by simp [Course.applyTo, hr]⟩, ?_⟩
    · intro _ last hlast'
      cases hlast.symm.trans hlast'
      exact ⟨edge, target, hnext, ht, hk, rfl, rfl⟩
    · intro id hid
      obtain ⟨-, hid⟩ := pending?_eq_some hid
      cases hid
      exact hway.append (congrArg (Option.map Edge.target) hnext) ht hk

theorem Session.OnWay.next (ho : options.historyLimit = none) (hg : g.Sound) (hs : s.OnWay g) :
    (next options g s).OnWay g := by
  cases hp : pending? s with
  | none =>
    rw [next_resting hp]
    exact hs
  | some id =>
    -- The node is in the graph because the way goes on with it.
    have hway := hs.goes_on id hp
    obtain ⟨node, hn, -⟩ := hway.no_end id (by simp)
    obtain ⟨-, rfl⟩ := hg.mem_of_node? hn
    rw [next_of_node hp hn]
    exact hs.executed ho hg (pending?_eq_some hp).1 hn hway _

theorem Session.OnWay.iterate (ho : options.historyLimit = none) (hg : g.Sound) (hs : s.OnWay g)
    (steps : Nat) : ((Simulation.next options g)^[steps] s).OnWay g := by
  induction steps with
  | zero => exact hs
  | succ steps ih =>
    rw [Function.iterate_succ_apply']
    exact ih.next ho hg

namespace Player

theorem prescribed_played (p : Player) (hp : p.graph.Built) (ho : p.options.historyLimit = none)
    (seed : List (String × Value)) (steps : Nat) : (p.played seed steps).Prescribed p.graph := by
  rw [played_eq hp.sound]
  exact ((onWay_start hp.sound.toKeyed seed).iterate ho hp.sound steps).toPrescribed

/-- Soft fruit would be pressed, but the grading sends all of it to the jar. -/
def graded : Graph :=
  Graph.empty.editAll
    [.addNode ⟨"pick", .start, .empty .items, .origin⟩,
      .addNode ⟨"grade", .decision, .empty .decision, .origin⟩,
      .addNode ⟨"press", .process, .empty .process, .origin⟩,
      .addNode ⟨"jar", .finish, .empty .items, .origin⟩,
      .connect "pick" "grade" none, .addEdge ⟨"soft", "grade", "press", some "branch-1"⟩ false,
      .addEdge ⟨"firm", "grade", "jar", some "branch-0"⟩ false]

theorem built_graded : graded.Built :=
  Graph.Built.empty.editAll (by decide)

theorem graded_prescribed : graded.Built ∧ Options.unlimited.historyLimit = none ∧
    ((ofGraph graded .unlimited).played [] 2).history = ["pick", "grade"] ∧
    ((ofGraph graded .unlimited).played [] 2).activeEdge = some "firm" ∧
    ∀ steps, ((ofGraph graded .unlimited).played [] steps).Prescribed graded :=
  ⟨built_graded, rfl, by decide, by decide,
    prescribed_played (ofGraph graded .unlimited) built_graded rfl []⟩

end Player

end Simulation

end Flowsheet
