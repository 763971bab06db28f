import Flowsheet.Proofs.Simulation.Course

/-! Where a run goes does not depend on what its nodes hold. Two runs are compared, over graphs that
differ in payloads and positions, from different seeds, and with such edits made at any time. -/

namespace Flowsheet

namespace Graph

variable {g h : Graph} {id : String} {m n : Node} {e : Edit}

structure SameOutline (g h : Graph) : Prop where
  nodes_eq : g.nodes.map Node.outline = h.nodes.map Node.outline
  edges_eq : g.edges = h.edges

theorem SameOutline.symm (ho : g.SameOutline h) : h.SameOutline g :=
  ⟨ho.nodes_eq.symm, ho.edges_eq.symm⟩

theorem SameOutline.trans {k : Graph} (ho : g.SameOutline h) (hk : h.SameOutline k) :
    g.SameOutline k :=
  ⟨ho.nodes_eq.trans hk.nodes_eq, ho.edges_eq.trans hk.edges_eq⟩

theorem Keyed.map_outline_node? (hg : g.Keyed) (id : String) :
    (g.node? id).map Node.outline = (g.nodes.map Node.outline).find? (·.1 = id) := by
  rw [hg.node?_eq, List.find?_map]
  rfl

theorem map_outline_ofKind (g : Graph) (kind : Kind) :
    (g.ofKind kind).map Node.outline = (g.nodes.map Node.outline).filter (·.2 = kind) := by
  rw [List.filter_map]
  rfl

namespace SameOutline

theorem node? (ho : g.SameOutline h) (hg : g.Keyed) (hh : h.Keyed) (id : String) :
    (g.node? id).map Node.outline = (h.node? id).map Node.outline := by
  rw [hg.map_outline_node?, hh.map_outline_node?, ho.nodes_eq]

theorem course (ho : g.SameOutline h) (hg : g.Keyed) (hh : h.Keyed) (hn : m.outline = n.outline) :
    g.course m = h.course n := by
  have hout : ∀ id, g.outgoing id = h.outgoing id := fun id => by
    rw [outgoing, outgoing, ho.edges_eq]
  exact course_congr (ho.node? hg hh) hout hn

end SameOutline

def Edit.isContent : Edit → Bool
  | .updatePayload .. | .moveNode .. => true
  | _ => false

theorem Change.outline (hg : g.Keyed) {nodes : List Node} {edges : List Edge}
    (hc : Change g e nodes edges) (he : e.isContent = true) :
    nodes.map Node.outline = g.nodes.map Node.outline ∧ edges = g.edges := by
  cases hc with
  | unchanged => exact ⟨rfl, rfl⟩
  | updatePayload hnode => exact ⟨hg.map_replaced hnode rfl rfl, rfl⟩
  | moveNode hnode => exact ⟨hg.map_replaced hnode rfl rfl, rfl⟩
  | addEdge _ _ _ _ hedge => rcases hedge with rfl | ⟨rfl, -⟩ <;> cases he
  | addNode | removeNode | removeEdge => cases he

theorem Keyed.sameOutline_tryEdit (hg : g.Keyed) (he : e.isContent = true) :
    (g.tryEdit e).SameOutline g := by
  obtain ⟨nodes, edges, hc, hh⟩ := change_tryEdit hg e
  obtain ⟨hnodes, hedges⟩ := hc.outline hg he
  exact ⟨by rw [hh.nodes_eq, hnodes], hh.edges_eq.trans hedges⟩

theorem Edit.isMade_of_isContent (he : e.isContent = true) : e.IsMade := by
  cases e with
  | addNode => cases he
  | _ => trivial

end Graph

namespace Simulation

variable {g h : Graph} {options : Options} {s t : Session}

/-- A session without the values that it computed. -/
structure Control where
  phase : Phase
  activeNode : Option String
  activeEdge : Option String
  stepCount : Int
  history : List String
  endNode : Option String

def Session.control (s : Session) : Control where
  phase := s.phase
  activeNode := s.activeNode
  activeEdge := s.activeEdge
  stepCount := s.stepCount
  history := s.history
  endNode := s.endNode

theorem pending?_of_control (hs : s.control = t.control) : pending? s = pending? t :=
  congrArg (fun c : Control => if c.phase = .running then c.activeNode else none) hs

theorem control_halt (hs : s.control = t.control) : (halt s).control = (halt t).control :=
  congrArg (fun c : Control => { c with phase := .halted, activeNode := none, activeEdge := none })
    hs

theorem control_applyTo (hs : s.control = t.control) (course : Course) :
    (course.applyTo s).control = (course.applyTo t).control := by
  cases course with
  | deadEnd => exact control_halt hs
  | finish edge last =>
    exact congrArg (fun c : Control => { c with
      phase := .completed, activeNode := none, activeEdge := some edge, endNode := some last }) hs
  | onward edge next =>
    exact congrArg (fun c : Control => { c with activeNode := some next, activeEdge := some edge })
      hs

/-- The effect of the node is not looked at. -/
theorem control_executed (hs : s.control = t.control) {m n : Node} (hn : m.id = n.id)
    (left right : Effect) :
    (executed options s m left).control = (executed options t n right).control := by
  rw [executed, executed, hn]
  exact congrArg (fun c : Control => { c with
    stepCount := c.stepCount + 1, history := options.trim (c.history ++ [n.id]) }) hs

theorem control_next (hg : g.Keyed) (hh : h.Keyed) (ho : g.SameOutline h)
    (hs : s.control = t.control) : (next options g s).control = (next options h t).control := by
  have hpending := pending?_of_control hs
  cases hp : pending? s with
  | none => rwa [next_resting hp, next_resting (hpending ▸ hp)]
  | some id =>
    have hq : pending? t = some id := hpending ▸ hp
    have hnode := ho.node? hg hh id
    -- The node is in both graphs or in neither.
    cases hm : g.node? id <;> cases hn : h.node? id <;> rw [hm, hn] at hnode
    · rw [next_of_lost hp hm, next_of_lost hq hn]
      exact control_halt hs
    · cases hnode
    · cases hnode
    · have houtline := Option.some.inj hnode
      rw [next_of_node hp hm, next_of_node hq hn, ho.course hg hh houtline]
      exact control_applyTo (control_executed hs (Prod.mk.inj houtline).1 _ _) _

theorem control_iterate (hg : g.Keyed) (hh : h.Keyed) (ho : g.SameOutline h)
    (hs : s.control = t.control) (k : Nat) :
    ((next options g)^[k] s).control = ((next options h)^[k] t).control := by
  induction k with
  | zero => exact hs
  | succ k ih =>
    rw [Function.iterate_succ_apply', Function.iterate_succ_apply']
    exact control_next hg hh ho ih

theorem control_start (ho : g.SameOutline h) (left right : List (String × Value)) :
    (start g left).1.control = (start h right).1.control := by
  have hkind : (g.ofKind .start).map Node.outline = (h.ofKind .start).map Node.outline := by
    rw [Graph.map_outline_ofKind, Graph.map_outline_ofKind, ho.nodes_eq]
  unfold start
  cases hl : g.ofKind .start <;> cases hr : h.ofKind .start <;> rw [hl, hr] at hkind
  · rfl
  · cases hkind
  · cases hkind
  · obtain ⟨hfirst, -⟩ := List.cons.inj hkind
    simp only [Session.control, (Prod.mk.inj hfirst).1]

/-- Two histories of commands that differ in their seeds only, and in edits of what the nodes hold, which
each of them makes at any time. -/
inductive Parallel : List Command → List Command → Prop
  | nil : Parallel [] []
  | start {cs ds : List Command} (left right : List (String × Value)) (hc : Parallel cs ds) :
      Parallel (.start left :: cs) (.start right :: ds)
  | both {cs ds : List Command} {c : Command} (he : ∀ e, c ≠ .edit e) (hc : Parallel cs ds) :
      Parallel (c :: cs) (c :: ds)
  | left {cs ds : List Command} {e : Graph.Edit} (he : e.isContent = true) (hc : Parallel cs ds) :
      Parallel (.edit e :: cs) ds
  | right {cs ds : List Command} {e : Graph.Edit} (he : e.isContent = true)
      (hc : Parallel cs ds) : Parallel cs (.edit e :: ds)

theorem Parallel.steps (k : Nat) : Parallel (List.replicate k .step) (List.replicate k .step) := by
  induction k with
  | zero => exact .nil
  | succ k ih => exact .both (fun _ => Command.noConfusion) ih

namespace Player

variable {p q : Player}

/-- The two players cannot be told apart by where they are and where they will go. -/
structure Alike (p q : Player) : Prop where
  left_sound : p.graph.Sound
  right_sound : q.graph.Sound
  outline : p.graph.SameOutline q.graph
  options_eq : p.options = q.options
  control_eq : p.session.control = q.session.control

theorem tryCommand_run (hp : p.graph.Sound) (steps : Nat) :
    p.tryCommand (.run steps) =
      { p with session := (next p.options p.graph)^[steps] p.session } := by
  obtain ⟨notices, hr⟩ := perform_run hp steps
  rw [tryCommand, hr, playAll_steps hp]

theorem tryCommand_edit (p : Player) (e : Graph.Edit) :
    p.tryCommand (.edit e) = { p with graph := p.graph.tryEdit e } := by
  unfold tryCommand Graph.tryEdit
  cases he : p.graph.edit e <;> simp only [perform, he, Except.map]

theorem alike_start (hp : p.graph.Sound) (hq : q.graph.Sound)
    (ho : p.graph.SameOutline q.graph) (hopt : p.options = q.options)
    (left right : List (String × Value)) :
    Alike (p.tryCommand (.start left)) (q.tryCommand (.start right)) :=
  ⟨hp, hq, ho, hopt, control_start ho left right⟩

namespace Alike

theorem symm (ha : Alike p q) : Alike q p :=
  ⟨ha.right_sound, ha.left_sound, ha.outline.symm, ha.options_eq.symm, ha.control_eq.symm⟩

theorem iterate (ha : Alike p q) (steps : Nat) :
    Alike { p with session := (next p.options p.graph)^[steps] p.session }
      { q with session := (next q.options q.graph)^[steps] q.session } where
  left_sound := ha.left_sound
  right_sound := ha.right_sound
  outline := ha.outline
  options_eq := ha.options_eq
  control_eq := by
    rw [ha.options_eq]
    exact control_iterate ha.left_sound.toKeyed ha.right_sound.toKeyed ha.outline ha.control_eq steps

theorem both (ha : Alike p q) {c : Command} (he : ∀ e, c ≠ .edit e) :
    Alike (p.tryCommand c) (q.tryCommand c) := by
  cases c with
  | start seed => exact alike_start ha.left_sound ha.right_sound ha.outline ha.options_eq seed seed
  | step =>
    rw [tryCommand_step ha.left_sound, tryCommand_step ha.right_sound]
    exact ha.iterate 1
  | run steps =>
    rw [tryCommand_run ha.left_sound, tryCommand_run ha.right_sound]
    exact ha.iterate steps
  | stop => exact { ha with control_eq := rfl }
  | setOptions options => exact { ha with options_eq := rfl }
  | edit e => exact absurd rfl (he e)

theorem left (ha : Alike p q) {e : Graph.Edit} (he : e.isContent = true) :
    Alike (p.tryCommand (.edit e)) q := by
  rw [tryCommand_edit]
  exact { ha with
    left_sound := ha.left_sound.tryEdit (Graph.Edit.isMade_of_isContent he)
    outline := (ha.left_sound.toKeyed.sameOutline_tryEdit he).trans ha.outline }

theorem playAll (ha : Alike p q) {cs ds : List Command} (hc : Parallel cs ds) :
    Alike (p.playAll cs) (q.playAll ds) := by
  induction hc generalizing p q with
  | nil => exact ha
  | start left right _ ih =>
    exact ih (alike_start ha.left_sound ha.right_sound ha.outline ha.options_eq left right)
  | both he _ ih => exact ih (ha.both he)
  | left he _ ih => exact ih (ha.left he)
  | right he _ ih => exact ih (ha.symm.left he).symm

end Alike

/-- Where a run is and where it goes are the same on graphs of one outline, whatever their nodes hold
and whatever the seeds are, also if the nodes are edited on the way and not at the same times. -/
theorem control_independent (p q : Player) (hp : p.graph.Built) (hq : q.graph.Built)
    (ho : p.graph.SameOutline q.graph) (hopt : p.options = q.options)
    (left right : List (String × Value)) :
    (∀ steps, (p.played left steps).control = (q.played right steps).control) ∧
    ∀ cs ds, Parallel cs ds → (p.playAll (.start left :: cs)).session.control =
      (q.playAll (.start right :: ds)).session.control := by
  have hstart := alike_start hp.sound hq.sound ho hopt left right
  have hparallel : ∀ cs ds, Parallel cs ds → (p.playAll (.start left :: cs)).session.control =
      (q.playAll (.start right :: ds)).session.control :=
    fun cs ds hc => (hstart.playAll hc).control_eq
  exact ⟨fun steps => hparallel _ _ (.steps steps), hparallel⟩

/-- Crates are filled, counted and shipped. -/
def counted (expression : String) : Graph :=
  Graph.empty.editAll
    [.addNode ⟨"fill", .start, .empty .items, .origin⟩,
      .addNode ⟨"count", .mathAdd, .ofBody (.math (some expression) none) "" "", .origin⟩,
      .addNode ⟨"ship", .finish, .empty .items, .origin⟩,
      .connect "fill" "count" none, .connect "count" "ship" none]

theorem built_counted (expression : String) : (counted expression).Built := by
  refine Graph.Built.empty.editAll fun e he => ?_
  simp only [List.mem_cons, List.not_mem_nil, or_false] at he
  rcases he with rfl | rfl | rfl | rfl | rfl
  · exact ⟨none, rfl⟩
  · exact ⟨some (.ofBody (.math (some expression) none) "" ""), rfl⟩
  · exact ⟨none, rfl⟩
  · trivial
  · trivial

/-- The count is broken in the second graph, and its crates are shipped all the same. -/
theorem broken_count_shipped :
    (counted "\x7b\x7bcrates\x7d\x7d + 1").Built ∧ (counted "(").Built ∧
    (counted "\x7b\x7bcrates\x7d\x7d + 1").SameOutline (counted "(") ∧
    ((ofGraph (counted "(") .unlimited).played [] 2).lastError.isSome = true ∧
    ∀ left right steps,
      ((ofGraph (counted "\x7b\x7bcrates\x7d\x7d + 1") .unlimited).played left steps).control =
        ((ofGraph (counted "(") .unlimited).played right steps).control := by
  have ho : (counted "\x7b\x7bcrates\x7d\x7d + 1").SameOutline (counted "(") :=
    ⟨by decide, by decide⟩
  exact ⟨built_counted _, built_counted _, ho, by decide +kernel, fun left right =>
    (control_independent (ofGraph (counted "\x7b\x7bcrates\x7d\x7d + 1") .unlimited)
      (ofGraph (counted "(") .unlimited) (built_counted _) (built_counted _) ho rfl left right).1⟩

end Player

end Simulation

end Flowsheet
