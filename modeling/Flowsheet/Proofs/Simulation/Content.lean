import Flowsheet.Proofs.Simulation.Course

/-! What a run reads of its graph: which start node is the first, the kind of each node with the
formula of a math node, and the edges that leave each node in their order. Two runs are compared over
graphs that agree on this and on the values that their display nodes give. -/

namespace Flowsheet

/-- The template and the name of its result, as they stand in the payload. -/
def Node.formula? (node : Node) : Option (Option String × Option String) :=
  match node.payload.body with
  | .math expression resultName => some (expression, resultName)
  | _ => none

def Node.content (node : Node) : Kind × Option (Option String × Option String) :=
  (node.kind, if node.kind.isMath then node.formula? else none)

namespace Graph

structure SameContent (g h : Graph) : Prop where
  start_eq : g.startNode?.map Node.id = h.startNode?.map Node.id
  content_eq : ∀ id, (g.node? id).map Node.content = (h.node? id).map Node.content
  outgoing_eq : ∀ id, g.outgoing id = h.outgoing id

variable {g h : Graph} {m n : Node}

def keyedContent (node : Node) : String × Kind × Option (Option String × Option String) :=
  (node.id, node.content)

theorem Keyed.map_content_node? (hg : g.Keyed) (id : String) :
    (g.node? id).map Node.content =
      ((g.nodes.map keyedContent).find? (·.1 = id)).map Prod.snd := by
  rw [hg.node?_eq, List.find?_map, Option.map_map]
  rfl

/-- The order of the nodes does not matter, nor how edges that leave different nodes are mixed. -/
theorem sameContent_of_perm (hg : g.Keyed) (hh : h.Keyed)
    (hstart : g.startNode?.map Node.id = h.startNode?.map Node.id)
    (hnodes : (g.nodes.map keyedContent).Perm (h.nodes.map keyedContent))
    (hedges : ∀ e ∈ g.edges ++ h.edges, g.outgoing e.source = h.outgoing e.source) :
    g.SameContent h where
  start_eq := hstart
  content_eq id := by
    have hnd : ((h.nodes.map keyedContent).map Prod.fst).Nodup := by
      rw [List.map_map]
      exact hh.nodeIds_nodup
    rw [hg.map_content_node?, hh.map_content_node?, find?_of_perm hnodes hnd]
  outgoing_eq id := by
    by_cases hid : ∃ e ∈ g.edges ++ h.edges, e.source = id
    · obtain ⟨e, he, rfl⟩ := hid
      exact hedges e he
    · have hnone : ∀ e ∈ g.edges ++ h.edges, ¬ decide (e.source = id) = true := by
        intro e he hs
        exact hid ⟨e, he, of_decide_eq_true hs⟩
      have hleft : g.outgoing id = [] := List.filter_eq_nil_iff.mpr fun e he =>
        hnone e (List.mem_append_left _ he)
      have hright : h.outgoing id = [] := List.filter_eq_nil_iff.mpr fun e he =>
        hnone e (List.mem_append_right _ he)
      rw [hleft, hright]

namespace SameContent

theorem kind_eq (hn : m.content = n.content) : m.kind = n.kind := (Prod.mk.inj hn).1

/-- A node is in both graphs or in neither, and then under the same id with the same content. -/
theorem node?_cases (hc : g.SameContent h) (hg : g.Keyed) (hh : h.Keyed) (id : String) :
    (g.node? id = none ∧ h.node? id = none) ∨
      ∃ m n, g.node? id = some m ∧ h.node? id = some n ∧ m.id = n.id ∧ m.content = n.content := by
  have hcontent := hc.content_eq id
  cases hm : g.node? id <;> cases hn : h.node? id <;> rw [hm, hn] at hcontent
  · exact .inl ⟨rfl, rfl⟩
  · cases hcontent
  · cases hcontent
  · next m n =>
    have hid : m.id = n.id := (hg.mem_of_node? hm).2.trans (hh.mem_of_node? hn).2.symm
    exact .inr ⟨m, n, rfl, rfl, hid, Option.some.inj hcontent⟩

theorem map_outline_node? (hc : g.SameContent h) (hg : g.Keyed) (hh : h.Keyed) (id : String) :
    (g.node? id).map Node.outline = (h.node? id).map Node.outline := by
  rcases hc.node?_cases hg hh id with ⟨hl, hr⟩ | ⟨m, n, hl, hr, hid, hcontent⟩
  · rw [hl, hr]
  · rw [hl, hr]
    exact congrArg some (Prod.ext hid (kind_eq hcontent))

theorem course_eq (hc : g.SameContent h) (hg : g.Keyed) (hh : h.Keyed) (hid : m.id = n.id)
    (hn : m.content = n.content) : g.course m = h.course n :=
  course_congr (hc.map_outline_node? hg hh) hc.outgoing_eq (Prod.ext hid (kind_eq hn))

end SameContent

end Graph

namespace Simulation

variable {g h : Graph} {options : Options} {s : Session} {vars other : Variables} {m n : Node}

theorem template?_eq (node : Node) : template? node =
    if node.kind.isMath then node.formula?.bind fun formula => formula.1.filter (· ≠ "")
    else none := by
  unfold template? Node.formula?
  cases node.kind.isMath <;> cases node.payload.body <;> rfl

theorem resultName_eq (node : Node) : resultName node = node.formula?.bind Prod.snd := by
  unfold resultName Node.formula?
  cases node.payload.body <;> rfl

/-- A relation of variables which are read alike and stay so when the same name is set in both. -/
structure Respected (R : Variables → Variables → Prop) : Prop where
  get?_eq : ∀ vars other, R vars other → ∀ name, vars.get? name = other.get? name
  set : ∀ vars other, R vars other → ∀ name v, R (vars.set name v) (other.set name v)

theorem respected_eq : Respected Eq where
  get?_eq _ _ he name := by rw [he]
  set _ _ he name v := by rw [he]

/-- The same values under the same names, perhaps in another order. -/
def SameValues (vars other : Variables) : Prop :=
  ∀ name, vars.get? name = other.get? name

theorem respected_sameValues : Respected SameValues where
  get?_eq _ _ hv := hv
  set vars other hv name v key := by
    have hkey := hv key
    rw [Table.get?_set, Table.get?_set, hkey]

section

variable {R : Variables → Variables → Prop}

theorem effect_congr (hR : Respected R) (hv : R vars other) (hn : m.content = n.content) :
    effect m vars = effect n other := by
  have hget : vars.get? = other.get? := funext (hR.get?_eq vars other hv)
  have hkind := Graph.SameContent.kind_eq hn
  have hformula := (Prod.mk.inj hn).2
  rw [hkind] at hformula
  unfold effect
  rw [template?_eq, template?_eq, resultName_eq, resultName_eq, hkind, hget]
  cases hmath : n.kind.isMath with
  | false => rfl
  | true =>
    rw [hmath, if_pos rfl, if_pos rfl] at hformula
    rw [hformula]

theorem related_applyTo (hR : Respected R) (hv : R vars other) (e : Effect) :
    R (e.applyTo vars) (e.applyTo other) := by
  cases e with
  | assigned name value => exact hR.set vars other hv name _
  | nothing | failed => exact hv

theorem related_setAll (hR : Respected R) (hv : R vars other) (seed : List (String × Value)) :
    R (vars.setAll seed) (other.setAll seed) := by
  induction seed generalizing vars other with
  | nil => exact hv
  | cons entry seed ih => exact ih (hR.set vars other hv entry.1 entry.2)

/-- The sessions are equal but for their variables, and these are related. -/
def Session.Like (R : Variables → Variables → Prop) (s t : Session) : Prop :=
  ∃ vars, R s.vars vars ∧ t = { s with vars }

theorem like_applyTo (course : Course) {t : Session} (hs : s.Like R t) :
    (course.applyTo s).Like R (course.applyTo t) := by
  obtain ⟨vars, hv, rfl⟩ := hs
  cases course <;> exact ⟨vars, hv, rfl⟩

theorem like_start (hR : Respected R) (hc : g.SameContent h) (hv : R (g.seeded []) (h.seeded []))
    (seed : List (String × Value)) : (start g seed).1.Like R (start h seed).1 := by
  have hseed : R (g.seeded seed) (h.seeded seed) := related_setAll hR hv seed
  have hstart := hc.start_eq
  unfold Graph.startNode? at hstart
  unfold start
  cases hl : g.ofKind .start <;> cases hr : h.ofKind .start <;> rw [hl, hr] at hstart
  · exact ⟨h.seeded seed, hseed, rfl⟩
  · cases hstart
  · cases hstart
  · have hid := Option.some.inj hstart
    refine ⟨h.seeded seed, hseed, ?_⟩
    simp only [hid]

theorem like_next (hR : Respected R) (hc : g.SameContent h) (hg : g.Keyed) (hh : h.Keyed)
    {t : Session} (hs : s.Like R t) : (next options g s).Like R (next options h t) := by
  obtain ⟨vars, hv, rfl⟩ := hs
  have hpending : pending? { s with vars } = pending? s := rfl
  cases hp : pending? s with
  | none =>
    rw [next_resting hp, next_resting (hpending.trans hp)]
    exact ⟨vars, hv, rfl⟩
  | some id =>
    have hq := hpending.trans hp
    rcases hc.node?_cases hg hh id with ⟨hm, hn⟩ | ⟨m, n, hm, hn, hids, hcontent⟩
    · rw [next_of_lost hp hm, next_of_lost hq hn]
      exact ⟨vars, hv, rfl⟩
    · have heffect : effect m s.vars = effect n vars := effect_congr hR hv hcontent
      have hcourse := hc.course_eq hg hh hids hcontent
      have hafter : R ((effect n vars).applyTo s.vars) ((effect n vars).applyTo vars) :=
        related_applyTo hR hv _
      rw [next_of_node hp hm, next_of_node hq hn, hcourse, heffect]
      refine like_applyTo _ ⟨(effect n vars).applyTo vars, hafter, ?_⟩
      simp only [executed, hids]

theorem like_iterate (hR : Respected R) (hc : g.SameContent h) (hg : g.Keyed) (hh : h.Keyed)
    {t : Session} (hs : s.Like R t) (steps : Nat) :
    ((next options g)^[steps] s).Like R ((next options h)^[steps] t) := by
  induction steps with
  | zero => exact hs
  | succ steps ih =>
    rw [Function.iterate_succ_apply', Function.iterate_succ_apply']
    exact like_next hR hc hg hh ih

theorem Session.Like.eq {t : Session} (hs : s.Like Eq t) : s = t := by
  obtain ⟨vars, rfl, rfl⟩ := hs
  rfl

end

namespace Player

theorem like_played {R : Variables → Variables → Prop} (hR : Respected R) (hg : g.Sound)
    (hh : h.Sound) (hc : g.SameContent h) (hv : R (g.seeded []) (h.seeded []))
    (options : Options) (seed : List (String × Value)) (steps : Nat) :
    ((ofGraph g options).played seed steps).Like R ((ofGraph h options).played seed steps) := by
  have hstart := like_start hR hc hv seed
  rw [played_eq hg, played_eq hh]
  exact like_iterate hR hc hg.toKeyed hh.toKeyed hstart steps

/-- Two graphs of the same content that give the same variables have the same sessions. If they give
these in different orders, only the order of the variables can differ. -/
theorem played_of_sameContent (g h : Graph) (hg : g.Built) (hh : h.Built) (hc : g.SameContent h)
    (options : Options) (seed : List (String × Value)) (steps : Nat) :
    (g.seeded [] = h.seeded [] →
      (ofGraph g options).played seed steps = (ofGraph h options).played seed steps) ∧
    (SameValues (g.seeded []) (h.seeded []) →
      ((ofGraph g options).played seed steps).Like SameValues
        ((ofGraph h options).played seed steps)) := by
  constructor
  · intro hv
    exact (like_played respected_eq hg.sound hh.sound hc hv options seed steps).eq
  · intro hv
    exact like_played respected_sameValues hg.sound hh.sound hc hv options seed steps

/-- Fruit is weighed until the grading sends it to the jar. -/
def weighing : Graph :=
  Graph.empty.editAll
    [.addNode ⟨"pick", .start, .empty .items, .origin⟩,
      .addNode ⟨"scale", .display, .ofBody (.display (.ofEntries [("load", .int 2)])) "" "", .origin⟩,
      .addNode ⟨"weigh", .mathMultiply,
        .ofBody (.math (some "3 * \x7b\x7bload\x7d\x7d") (some "load")) "" "", .origin⟩,
      .addNode ⟨"grade", .decision, .empty .decision, .origin⟩,
      .addNode ⟨"jar", .finish, .empty .items, .origin⟩,
      .connect "pick" "weigh" none, .connect "weigh" "grade" none, .connect "grade" "weigh" none,
      .connect "grade" "jar" none]

/-- The same process, drawn from its end and with captions. -/
def redrawn : Graph :=
  Graph.empty.editAll
    [.addNode ⟨"jar", .finish, .ofBody (.items []) "Jar" "", .origin⟩,
      .addNode ⟨"grade", .decision, .ofBody (.decision ["firm", "soft"]) "Grade" "", .origin⟩,
      .addNode ⟨"weigh", .mathMultiply,
        .ofBody (.math (some "3 * \x7b\x7bload\x7d\x7d") (some "load")) "Weigh" "", .origin⟩,
      .addNode ⟨"scale", .display, .ofBody (.display (.ofEntries [("load", .int 2)])) "" "", .origin⟩,
      .addNode ⟨"pick", .start, .empty .items, .origin⟩, .moveNode "pick" ⟨.ofInt 40, .zero⟩,
      .connect "grade" "weigh" none, .connect "weigh" "grade" none, .connect "grade" "jar" none,
      .connect "pick" "weigh" none]

theorem built_weighing : weighing.Built :=
  Graph.Built.empty.editAll (by decide)

theorem built_redrawn : redrawn.Built :=
  Graph.Built.empty.editAll (by decide)

theorem sameContent_redrawn : weighing.SameContent redrawn :=
  Graph.sameContent_of_perm built_weighing.sound.toKeyed built_redrawn.sound.toKeyed (by decide)
    (by decide) (by decide)

theorem redrawn_played : weighing.Built ∧ redrawn.Built ∧ weighing.SameContent redrawn ∧
    weighing.nodeIds ≠ redrawn.nodeIds ∧
    ((ofGraph redrawn .unlimited).played [] 4).vars.number "load" = .ofInt 18 ∧
    ∀ options seed steps,
      (ofGraph weighing options).played seed steps = (ofGraph redrawn options).played seed steps := by
  have hload : weighing.seeded [] = redrawn.seeded [] := rfl
  refine ⟨built_weighing, built_redrawn, sameContent_redrawn, by decide, by decide +kernel, ?_⟩
  intro options seed steps
  exact (played_of_sameContent weighing redrawn built_weighing built_redrawn sameContent_redrawn
    options seed steps).1 hload

end Player

end Simulation

end Flowsheet
