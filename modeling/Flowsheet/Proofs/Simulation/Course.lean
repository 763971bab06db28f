import Flowsheet.Proofs.Graph.Integrity
import Flowsheet.Proofs.Simulation.Lifecycle
import Mathlib.Logic.Function.Iterate

/-! Where a run goes after a node: nowhere, to an end, or on. On a sound graph nothing else can
happen, so that a step is a total function of the session and a run repeats it. -/

namespace Flowsheet

namespace Simulation

/-- How a run goes on after a node, by the ids of the edge and of the node it leads to. -/
inductive Course where
  | deadEnd
  | finish (edge last : String)
  | onward (edge next : String)

namespace Course

def applyTo (s : Session) : Course → Session
  | .deadEnd => halt s
  | .finish edge last => { s with
      phase := .completed, activeNode := none, activeEdge := some edge, endNode := some last }
  | .onward edge next => { s with activeNode := some next, activeEdge := some edge }

def next? : Course → Option String
  | .onward _ next => some next
  | _ => none

end Course

end Simulation

/-- What a run reads of a node to find its way. -/
def Node.outline (node : Node) : String × Kind := (node.id, node.kind)

namespace Graph

open Simulation

variable {g h : Graph} {node m n : Node} {edge : Edge}

/-- No edge of a sound graph lacks its target. -/
def course (g : Graph) (node : Node) : Course :=
  match g.nextEdge? node with
  | none => .deadEnd
  | some edge => match g.node? edge.target with
    | none => .deadEnd
    | some target =>
      if target.kind = .finish then .finish edge.id target.id else .onward edge.id target.id

theorem nextEdge?_congr (hout : ∀ id, g.outgoing id = h.outgoing id)
    (hn : m.outline = n.outline) : g.nextEdge? m = h.nextEdge? n := by
  obtain ⟨hid, hkind⟩ := Prod.mk.inj hn
  simp only [nextEdge?, hout, hid, hkind]

/-- The way on is read from the edges at the node and the outline of the node that one leads to. -/
theorem course_congr (hnode : ∀ id, (g.node? id).map Node.outline = (h.node? id).map Node.outline)
    (hout : ∀ id, g.outgoing id = h.outgoing id) (hn : m.outline = n.outline) :
    g.course m = h.course n := by
  unfold course
  rw [nextEdge?_congr hout hn]
  cases h.nextEdge? n with
  | none => rfl
  | some edge =>
    have htarget := hnode edge.target
    cases hl : g.node? edge.target <;> cases hr : h.node? edge.target <;> rw [hl, hr] at htarget
    · simp only [hl, hr]
    · cases htarget
    · cases htarget
    · obtain ⟨hid, hkind⟩ := Prod.mk.inj (Option.some.inj htarget)
      simp only [hl, hr, hid, hkind]

theorem nextEdge?_eq_some (he : g.nextEdge? node = some edge) :
    edge ∈ g.edges ∧ edge.source = node.id := by
  have hmem : edge ∈ g.outgoing node.id := by
    rcases Option.or_eq_some_iff.mp he with hbranch | ⟨-, hfirst⟩
    · split at hbranch
      · exact List.mem_of_find?_eq_some hbranch
      · cases hbranch
    · exact List.mem_of_mem_head? hfirst
  obtain ⟨hedge, hsource⟩ := List.mem_filter.mp hmem
  exact ⟨hedge, of_decide_eq_true hsource⟩

theorem Sound.exists_target (hg : g.Sound) (he : g.nextEdge? node = some edge) :
    ∃ target, g.node? edge.target = some target :=
  hg.exists_node? (hg.fitting.target_mem edge (nextEdge?_eq_some he).1)

theorem findNode_of_node? {id : String} (hn : g.node? id = some node) :
    g.findNode id = .ok node := by
  rw [findNode, hn]

theorem Keyed.next?_course_mem (hg : g.Keyed) {id : String}
    (hn : (g.course node).next? = some id) : id ∈ g.nodeIds := by
  unfold course at hn
  split at hn
  · cases hn
  · split at hn
    · cases hn
    · next target ht =>
      split at hn
      · cases hn
      · cases hn
        exact List.mem_map_of_mem (hg.mem_of_node? ht).1

end Graph

namespace Simulation

variable {g : Graph} {options : Options} {s : Session}

theorem follow_eq (hg : g.Sound) (s : Session) (node : Node) :
    ∃ notices, follow g s node = .ok ((g.course node).applyTo s, notices) := by
  unfold follow Graph.course
  cases he : g.nextEdge? node with
  | none => exact ⟨_, rfl⟩
  | some edge =>
    obtain ⟨target, ht⟩ := hg.exists_target he
    simp only [Graph.findNode_of_node? ht, ht, ok_bind]
    split <;> exact ⟨_, rfl⟩

/-- The session after one more step. -/
def next (options : Options) (g : Graph) (s : Session) : Session :=
  match pending? s with
  | none => s
  | some id => match g.node? id with
    | none => halt s
    | some node => (g.course node).applyTo (executed options s node (effect node s.vars))

theorem next_resting (hp : pending? s = none) : next options g s = s := by
  rw [next, hp]

theorem next_of_lost {id : String} (hp : pending? s = some id) (hn : g.node? id = none) :
    next options g s = halt s := by
  simp only [next, hp, hn]

theorem next_of_node {id : String} {node : Node} (hp : pending? s = some id)
    (hn : g.node? id = some node) :
    next options g s = (g.course node).applyTo (executed options s node (effect node s.vars)) := by
  simp only [next, hp, hn]

theorem step_eq (hg : g.Sound) (options : Options) (s : Session) :
    ∃ notices, step options g s = .ok (next options g s, notices) := by
  unfold step
  cases hp : pending? s with
  | none => exact ⟨_, by rw [next_resting hp]⟩
  | some id =>
    cases hn : g.node? id with
    | none =>
      simp only [hn, next_of_lost hp hn]
      exact ⟨_, rfl⟩
    | some node =>
      obtain ⟨notices, hf⟩ :=
        follow_eq hg (executed options s node (effect node s.vars)) node
      simp only [hn, next_of_node hp hn]
      exact ⟨_, bind_eq_ok.mpr ⟨_, hf, rfl⟩⟩

/-- A session that no longer runs is not changed by the steps that are left. -/
theorem run_eq (hg : g.Sound) (options : Options) (s : Session) (n : Nat) :
    ∃ notices, run options g s n = .ok ((next options g)^[n] s, notices) := by
  induction n generalizing s with
  | zero => exact ⟨_, rfl⟩
  | succ n ih =>
    unfold run
    rw [Function.iterate_succ_apply]
    by_cases hr : s.phase = .running
    · obtain ⟨early, hs⟩ := step_eq hg options s
      obtain ⟨later, hl⟩ := ih (next options g s)
      rw [if_pos hr]
      exact ⟨_, bind_eq_ok.mpr ⟨_, hs, bind_eq_ok.mpr ⟨_, hl, rfl⟩⟩⟩
    · have hrest : next options g s = s := next_resting (pending?_of_not_running hr)
      rw [if_neg hr, hrest, Function.iterate_fixed hrest]
      exact ⟨_, rfl⟩

namespace Player

variable {p : Player}

theorem perform_step (hp : p.graph.Sound) : ∃ notices,
    p.perform .step = .ok ({ p with session := next p.options p.graph p.session }, notices) := by
  obtain ⟨notices, hs⟩ := step_eq hp p.options p.session
  exact ⟨notices, map_eq_ok.mpr ⟨_, hs, rfl⟩⟩

theorem tryCommand_step (hp : p.graph.Sound) :
    p.tryCommand .step = { p with session := next p.options p.graph p.session } := by
  obtain ⟨notices, hs⟩ := perform_step hp
  rw [tryCommand, hs]

theorem playAll_steps (hp : p.graph.Sound) (n : Nat) :
    p.playAll (List.replicate n .step) =
      { p with session := (next p.options p.graph)^[n] p.session } := by
  induction n generalizing p with
  | zero => rfl
  | succ n ih =>
    rw [List.replicate_succ, playAll, List.foldl_cons, tryCommand_step hp]
    exact ih (p := { p with session := next p.options p.graph p.session }) hp

/-- A run makes the same steps as those steps made one by one. -/
theorem perform_run (hp : p.graph.Sound) (n : Nat) : ∃ notices,
    p.perform (.run n) = .ok (p.playAll (List.replicate n .step), notices) := by
  obtain ⟨notices, hr⟩ := run_eq hp p.options p.session n
  rw [playAll_steps hp]
  exact ⟨notices, map_eq_ok.mpr ⟨_, hr, rfl⟩⟩

/-- The session after a start and so many steps. -/
def played (p : Player) (seed : List (String × Value)) (steps : Nat) : Session :=
  (p.playAll (.start seed :: List.replicate steps .step)).session

theorem played_eq (hp : p.graph.Sound) (seed : List (String × Value)) (steps : Nat) :
    p.played seed steps = (next p.options p.graph)^[steps] (start p.graph seed).1 := by
  have hsteps := playAll_steps (p := { p with session := (start p.graph seed).1 }) hp steps
  exact congrArg Player.session hsteps

end Player

end Simulation

end Flowsheet
