import Flowsheet.Proofs.Simulation.Course
import Mathlib.Data.Finset.Card
import Mathlib.Data.Finset.Image

/-! A run on a graph that is not edited ends within as many steps as the graph has nodes, or never.
The node that follows is told by the node before it alone, and the nodes run out. -/

namespace Flowsheet

section Iterate

variable {α : Type} {f : Option α → Option α} {x : Option α}

theorem isSome_iterate_of_le (hf : f none = none) {i j : Nat} (hij : i ≤ j)
    (hj : (f^[j] x).isSome = true) : (f^[i] x).isSome = true := by
  by_contra hi
  have hnone := Option.not_isSome_iff_eq_none.mp hi
  rw [← Nat.sub_add_cancel hij, Function.iterate_add_apply, hnone, Function.iterate_fixed hf] at hj
  cases hj

/-- What comes back to a value goes round for ever. -/
theorem isSome_iterate_of_return (hf : f none = none) {i j : Nat} (hij : i < j)
    (he : f^[i] x = f^[j] x) (hj : (f^[j] x).isSome = true) (k : Nat) :
    (f^[k] x).isSome = true := by
  induction k using Nat.strongRecOn with
  | ind k ih =>
    by_cases hk : k ≤ j
    · exact isSome_iterate_of_le hf hk hj
    · have hback := ih (k - j + i) (by omega)
      rw [← Nat.sub_add_cancel (show j ≤ k by omega), Function.iterate_add_apply, ← he,
        ← Function.iterate_add_apply]
      exact hback

/-- A partial function that is repeated goes on for ever once it went on for as many times as there
are values, because it came back to one of them. -/
theorem isSome_iterate [DecidableEq α] (hf : f none = none) {values : List α}
    (hv : ∀ k a, f^[k] x = some a → a ∈ values)
    (hlast : (f^[values.length] x).isSome = true) (k : Nat) : (f^[k] x).isSome = true := by
  have hmaps : ∀ i ∈ Finset.range (values.length + 1),
      f^[i] x ∈ values.toFinset.image some := by
    intro i hi
    have hle : i ≤ values.length := by simpa [Nat.lt_succ_iff] using hi
    obtain ⟨a, ha⟩ := Option.isSome_iff_exists.mp (isSome_iterate_of_le hf hle hlast)
    rw [ha]
    exact Finset.mem_image_of_mem some (List.mem_toFinset.mpr (hv i a ha))
  -- One stage more than there are values, so two of the stages agree.
  have hcard : (values.toFinset.image some).card < (Finset.range (values.length + 1)).card := by
    rw [Finset.card_range]
    exact Nat.lt_succ_of_le (Finset.card_image_le.trans (List.toFinset_card_le values))
  obtain ⟨i, hi, j, hj, hne, he⟩ := Finset.exists_ne_map_eq_of_card_lt_of_maps_to hcard hmaps
  rw [Finset.mem_range] at hi hj
  have hreached : ∀ {n}, n < values.length + 1 → (f^[n] x).isSome = true := fun hn =>
    isSome_iterate_of_le hf (Nat.le_of_lt_succ hn) hlast
  rcases Nat.lt_or_gt_of_ne hne with hlt | hgt
  · exact isSome_iterate_of_return hf hlt he (hreached hj) k
  · exact isSome_iterate_of_return hf hgt he.symm (hreached hi) k

end Iterate

/-- The node that a run executes after the given one. -/
def Graph.successor? (g : Graph) (id : String) : Option String :=
  (g.node? id).bind fun node => (g.course node).next?

theorem Graph.Keyed.successor?_mem {g : Graph} (hg : g.Keyed) {id next : String}
    (hs : g.successor? id = some next) : next ∈ g.nodeIds := by
  obtain ⟨node, -, hc⟩ := Option.bind_eq_some_iff.mp hs
  exact hg.next?_course_mem hc

namespace Simulation

variable {g : Graph} {options : Options} {s : Session}

theorem pending?_next (options : Options) (g : Graph) (s : Session) :
    pending? (next options g s) = (pending? s).bind g.successor? := by
  cases hp : pending? s with
  | none =>
    rw [next_resting hp]
    exact hp
  | some id =>
    obtain ⟨hr, -⟩ := pending?_eq_some hp
    rw [Option.bind_some, Graph.successor?]
    cases hn : g.node? id with
    | none =>
      rw [next_of_lost hp hn]
      rfl
    | some node =>
      rw [next_of_node hp hn, Option.bind_some]
      cases g.course node with
      | deadEnd => rfl
      | finish edge last => rfl
      | onward edge next => exact if_pos hr

theorem pending?_iterate (options : Options) (g : Graph) (s : Session) (k : Nat) :
    pending? ((next options g)^[k] s) = (·.bind g.successor?)^[k] (pending? s) := by
  have hsteps : Function.Semiconj pending? (next options g) (·.bind g.successor?) :=
    pending?_next options g
  exact hsteps.iterate_right k s

theorem pending?_iterate_mem (hg : g.Keyed) (hs : ∀ id, pending? s = some id → id ∈ g.nodeIds)
    (k : Nat) (id : String) (hk : (·.bind g.successor?)^[k] (pending? s) = some id) :
    id ∈ g.nodeIds := by
  cases k with
  | zero => exact hs id hk
  | succ k =>
    rw [Function.iterate_succ_apply'] at hk
    obtain ⟨before, -, hnext⟩ := Option.bind_eq_some_iff.mp hk
    exact hg.successor?_mem hnext

theorem pending?_start_mem {seed : List (String × Value)} {id : String}
    (hp : pending? (start g seed).1 = some id) : id ∈ g.nodeIds := by
  unfold start at hp
  cases hk : g.ofKind .start with
  | nil =>
    rw [hk] at hp
    cases hp
  | cons first rest =>
    rw [hk] at hp
    cases hp
    have hmem : first ∈ g.ofKind .start := hk ▸ List.mem_cons_self
    exact List.mem_map_of_mem (List.mem_filter.mp hmem).1

theorem Session.Coherent.running_iff_pending (hs : s.Coherent) :
    s.phase = .running ↔ (pending? s).isSome = true := by
  unfold pending?
  split
  · exact hs.running_iff
  · next hr => exact iff_of_false hr (by simp)

theorem next_phase_ne_idle (hs : s.phase ≠ .idle) : (next options g s).phase ≠ .idle := by
  cases hp : pending? s with
  | none => rwa [next_resting hp]
  | some id =>
    cases hn : g.node? id with
    | none =>
      rw [next_of_lost hp hn]
      exact Phase.noConfusion
    | some node =>
      rw [next_of_node hp hn]
      cases g.course node with
      | deadEnd => exact Phase.noConfusion
      | finish edge last => exact Phase.noConfusion
      | onward edge next => exact hs

namespace Player

variable {p : Player}

theorem coherent_played (p : Player) (seed : List (String × Value)) (steps : Nat) :
    (p.played seed steps).Coherent :=
  coherent_playAll (.start p.graph seed) (List.replicate steps .step)

theorem played_phase_ne_idle (hp : p.graph.Sound) (seed : List (String × Value)) (steps : Nat) :
    (p.played seed steps).phase ≠ .idle := by
  rw [played_eq hp]
  induction steps with
  | zero =>
    rw [Function.iterate_zero_apply, start]
    cases p.graph.ofKind .start <;> exact Phase.noConfusion
  | succ steps ih =>
    rw [Function.iterate_succ_apply']
    exact next_phase_ne_idle ih

theorem running_played (hp : p.graph.Sound) {seed : List (String × Value)}
    (hlast : (p.played seed p.graph.nodes.length).phase = .running) (steps : Nat) :
    (p.played seed steps).phase = .running := by
  rw [(p.coherent_played seed _).running_iff_pending, played_eq hp, pending?_iterate] at hlast ⊢
  have hlength : p.graph.nodeIds.length = p.graph.nodes.length := List.length_map _
  rw [← hlength] at hlast
  exact isSome_iterate rfl
    (pending?_iterate_mem hp.toKeyed fun _ hs => pending?_start_mem hs) hlast steps

/-- A run that still goes on after as many steps as the graph has nodes goes on for ever, and one
that ends does so within that many. Several steps at once are the same steps one by one. -/
theorem bounded_run (p : Player) (hp : p.graph.Built) (seed : List (String × Value)) :
    ((p.played seed p.graph.nodes.length).phase = .running →
      ∀ steps, (p.played seed steps).phase = .running) ∧
    (∀ steps, (p.played seed steps).isTerminal = true →
      ∃ early ≤ p.graph.nodes.length, (p.played seed early).isTerminal = true) ∧
    ∀ steps, ∃ notices,
      p.perform (.run steps) = .ok (p.playAll (List.replicate steps .step), notices) := by
  refine ⟨running_played hp.sound, fun steps hend => ?_, perform_run hp.sound⟩
  refine ⟨p.graph.nodes.length, Nat.le_refl _, ?_⟩
  have hidle := played_phase_ne_idle hp.sound seed p.graph.nodes.length
  have hrunning : (p.played seed p.graph.nodes.length).phase ≠ .running := by
    intro hr
    rw [Session.isTerminal, running_played hp.sound hr steps] at hend
    cases hend
  cases hphase : (p.played seed p.graph.nodes.length).phase with
  | idle => exact absurd hphase hidle
  | running => exact absurd hphase hrunning
  | halted => simp [Session.isTerminal, hphase]
  | completed => simp [Session.isTerminal, hphase]

/-- What is pressed goes back to where it is mixed, and there is no end. -/
def cycled : Graph :=
  Graph.empty.editAll
    [.addNode ⟨"mix", .start, .empty .items, .origin⟩,
      .addNode ⟨"press", .process, .empty .process, .origin⟩,
      .connect "mix" "press" none, .connect "press" "mix" none]

/-- The way back is taken out. -/
def straightened : Graph :=
  cycled.tryEdit (.removeEdge "e-press-mix")

theorem built_cycled : cycled.Built :=
  Graph.Built.empty.editAll (by decide)

/-- One of the two runs ends with the last of the steps that there may be, and the other one never
does. -/
theorem cycled_bounded_run : cycled.Built ∧ cycled.nodes.length = 2 ∧
    (∀ steps, ((ofGraph cycled .unlimited).played [] steps).phase = .running) ∧
    straightened.Built ∧ straightened.nodes.length = 2 ∧
    ((ofGraph straightened .unlimited).played [] 1).isTerminal = false ∧
    ∃ early ≤ 2, ((ofGraph straightened .unlimited).played [] early).isTerminal = true := by
  have hstraight : straightened.Built := built_cycled.edited trivial
  have hlast : ((ofGraph cycled .unlimited).played [] 2).phase = .running := by decide
  have hend : ((ofGraph straightened .unlimited).played [] 7).isTerminal = true := by decide
  exact ⟨built_cycled, by decide,
    (bounded_run (ofGraph cycled .unlimited) built_cycled []).1 hlast, hstraight, by decide,
    by decide, (bounded_run (ofGraph straightened .unlimited) hstraight []).2.1 7 hend⟩

end Player

end Simulation

end Flowsheet
