import Flowsheet.Proofs.Graph.Chronicle
import Flowsheet.Proofs.Simulation.Control
import Flowsheet.Proofs.Simulation.Snapshot
import Mathlib.Data.List.Induction

/-! Where the variables of a new session are from. A name has the value that was set last, by the
seed or else by the last display node that has it, and it stands where it was set first. Other nodes
have no part in this, and neither have edits of them. -/

namespace Flowsheet

theorem flatMap_filter_of_nil {α β : Type} {xs : List α} {keep : α → Bool} {f : α → List β}
    (hnil : ∀ x ∈ xs, ¬ keep x = true → f x = []) : (xs.filter keep).flatMap f = xs.flatMap f := by
  induction xs with
  | nil => rfl
  | cons x xs ih =>
    obtain ⟨hx, hxs⟩ := List.forall_mem_cons.mp hnil
    by_cases hk : keep x = true
    · rw [List.filter_cons_of_pos hk, List.flatMap_cons, List.flatMap_cons, ih hxs]
    · rw [List.filter_cons_of_neg hk, List.flatMap_cons, hx hk, List.nil_append, ih hxs]

namespace Table

variable {α : Type}

theorem get?_setAll (t : Table α) (entries : List (String × α)) (name : String) :
    (t.setAll entries).get? name = (entries.reverse.lookup name).or (t.get? name) := by
  induction entries generalizing t with
  | nil => rfl
  | cons entry rest ih =>
    have hrest : (t.setAll (entry :: rest)).get? name =
        (rest.reverse.lookup name).or ((t.set entry.1 entry.2).get? name) := ih _
    rw [hrest, get?_set, List.reverse_cons, List.lookup_append, Option.or_assoc, lookup_cons_ite]
    split <;> rfl

/-- A key stands only once in a table, so that it may be looked up from either end. -/
theorem lookup_reverse_entries (t : Table α) (name : String) :
    t.entries.reverse.lookup name = t.get? name := by
  have hall := get?_setAll empty t.entries name
  rw [get?_empty, Option.or_none] at hall
  rw [← hall]
  exact congrArg (get? · name) t.ofEntries_entries

theorem lookup_reverse_flatMap (tables : List (Table α)) (name : String) :
    (tables.flatMap entries).reverse.lookup name = tables.reverse.findSome? (·.get? name) := by
  induction tables with
  | nil => rfl
  | cons t tables ih =>
    rw [List.flatMap_cons, List.reverse_append, List.lookup_append, ih, lookup_reverse_entries,
      List.reverse_cons, List.findSome?_append, List.findSome?_singleton]

theorem ofEntries_append (entries more : List (String × α)) :
    ofEntries (entries ++ more) = (ofEntries entries).setAll more :=
  List.foldl_append

theorem keys_ofEntries (entries : List (String × α)) :
    (ofEntries entries).keys = (entries.map Prod.fst).eraseDups := by
  -- From the right, since the last entry adds its key only if none before it did.
  induction entries using List.reverseRecOn with
  | nil => rfl
  | append_singleton entries entry ih =>
    have hset : (ofEntries entries).setAll [entry] = (ofEntries entries).set entry.1 entry.2 := rfl
    rw [ofEntries_append, hset, keys_set, ih, List.map_append, List.eraseDups_append]
    simp only [List.mem_eraseDups]
    split
    · next hmem => simp [List.removeAll, hmem]
    · next hmem => simp [List.removeAll, hmem, List.eraseDups_cons]

end Table

theorem Kind.shape_eq_display_iff {kind : Kind} : kind.shape = .display ↔ kind = .display := by
  cases kind <;> decide

/-- The values of a display node. No other node shows any, whatever else it keeps. -/
def Node.shown (node : Node) : Table Value :=
  match node.kind, node.payload.body with
  | .display, .display values => values
  | _, _ => .empty

theorem Node.shown_of_ne {node : Node} (hk : node.kind ≠ .display) : node.shown = .empty := by
  unfold shown
  split
  · next hkind _ => exact absurd hkind hk
  · rfl

theorem Node.entries_shown {node : Node} (hs : node.payload.shape = node.kind.shape) :
    node.shown.entries = node.displayed := by
  by_cases hk : node.kind = .display
  · unfold shown displayed
    rw [hk]
    cases node.payload.body <;> rfl
  · have hne : node.payload.body.shape ≠ .display := fun hd =>
      hk (Kind.shape_eq_display_iff.mp (hs.symm.trans hd))
    rw [shown_of_ne hk]
    unfold displayed
    split
    · next hb => exact absurd (congrArg Body.shape hb) hne
    · rfl

namespace Graph

open Simulation (start vars_start)

variable {g h : Graph} {id name : String} {node : Node} {payload : Payload} {e : Edit}
  {seed : Table Value} {value : Value}

theorem Sound.flatMap_displayed (hg : g.Sound) :
    g.nodes.flatMap Node.displayed = (g.nodes.map Node.shown).flatMap Table.entries := by
  rw [List.flatMap_map]
  exact List.flatMap_congr fun n hn => (Node.entries_shown (hg.fitting.shape_eq n hn)).symm

/-- The value is that of the last node that shows the name. -/
def ShowsLast (g : Graph) (name : String) (value : Value) : Prop :=
  ∃ before node after, g.nodes = before ++ node :: after ∧
    node.shown.get? name = some value ∧ ∀ n ∈ after, n.shown.get? name = none

theorem findSome?_reverse_eq_some_iff :
    g.nodes.reverse.findSome? (·.shown.get? name) = some value ↔ g.ShowsLast name value := by
  rw [List.findSome?_eq_some_iff]
  constructor
  · rintro ⟨after, node, before, heq, hv, hafter⟩
    refine ⟨before.reverse, node, after.reverse, ?_, hv, fun n hn => hafter n (by simpa using hn)⟩
    simpa using congrArg List.reverse heq
  · rintro ⟨before, node, after, heq, hv, hafter⟩
    exact ⟨after.reverse, node, before.reverse, by simp [heq], hv,
      fun n hn => hafter n (by simpa using hn)⟩

/-- Where a variable has its value from when a session begins. -/
inductive Gives (g : Graph) (seed : Table Value) (name : String) (value : Value) : Prop
  | seed (hs : seed.get? name = some value)
  | display (hs : seed.get? name = none) (hl : g.ShowsLast name value)

theorem gives_iff : g.Gives seed name value ↔
    (seed.get? name).or (g.nodes.reverse.findSome? (·.shown.get? name)) = some value := by
  rw [Option.or_eq_some_iff, findSome?_reverse_eq_some_iff]
  exact ⟨fun | .seed hs => .inl hs | .display hs hl => .inr ⟨hs, hl⟩,
    fun | .inl hs => .seed hs | .inr ⟨hs, hl⟩ => .display hs hl⟩

/-- The variables of a new session: their values, their names and the order of these. -/
structure Seeded (g : Graph) (seed : Table Value) : Prop where
  value_iff : ∀ name value,
    (start g seed.entries).1.vars.get? name = some value ↔ g.Gives seed name value
  keys_eq : (start g seed.entries).1.vars.keys =
    (g.nodes.flatMap (·.shown.keys) ++ seed.keys).eraseDups

theorem Sound.vars_start (hg : g.Sound) (seed : Table Value) :
    (start g seed.entries).1.vars =
      .ofEntries ((g.nodes.map Node.shown).flatMap Table.entries ++ seed.entries) := by
  rw [Simulation.vars_start, ← hg.flatMap_displayed]
  exact (Table.ofEntries_append ..).symm

theorem Sound.seeded (hg : g.Sound) (seed : Table Value) : g.Seeded seed := by
  constructor
  · intro name value
    rw [hg.vars_start, Table.ofEntries, Table.get?_setAll, Table.get?_empty, Option.or_none,
      List.reverse_append, List.lookup_append, Table.lookup_reverse_entries,
      Table.lookup_reverse_flatMap, ← List.map_reverse, List.findSome?_map, gives_iff]
    rfl
  · rw [hg.vars_start, Table.keys_ofEntries, List.map_append, List.map_flatMap, List.flatMap_map]
    rfl

theorem Sound.sameOutline_editAll (hg : g.Sound) {edits : List Edit}
    (hc : ∀ e ∈ edits, e.isContent = true) : (g.editAll edits).SameOutline g := by
  have hall : (g.editAll edits).Sound ∧ (g.editAll edits).SameOutline g := by
    refine editAll_keeps (P := fun h => h.Sound ∧ h.SameOutline g) ?_ ⟨hg, rfl, rfl⟩
    rintro e he h ⟨hsound, hsame⟩
    exact ⟨hsound.tryEdit (Edit.isMade_of_isContent (hc e he)),
      (hsound.sameOutline_tryEdit (hc e he)).trans hsame⟩
  exact hall.2

/-- The edit leaves the display nodes as they are, but perhaps at another place of the canvas. -/
def Edit.SparesDisplays (g : Graph) : Edit → Prop
  | .addNode node => node.kind ≠ .display
  | .removeNode id | .updatePayload id _ => ∀ node, g.node? id = some node → node.kind ≠ .display
  | .moveNode .. | .addEdge .. | .connect .. | .removeEdge _ | .copy => True

theorem Sound.flatMap_shown_edit (hg : g.Sound) (hs : e.SparesDisplays g) (hh : g.edit e = .ok h) :
    (h.nodes.map Node.shown).flatMap Table.entries =
      (g.nodes.map Node.shown).flatMap Table.entries := by
  obtain ⟨nodes, edges, hc, hholds⟩ := change_of_edit hg.toKeyed hh
  rw [hholds.nodes_eq]
  -- Whatever comes, goes or changes shows nothing, or stays where it was.
  cases hc with
  | unchanged | addEdge | removeEdge => rfl
  | addNode =>
    rw [List.map_append, List.flatMap_append, List.map_singleton, Node.shown_of_ne hs]
    exact List.append_nil _
  | removeNode id =>
    rw [List.flatMap_map, List.flatMap_map]
    refine flatMap_filter_of_nil fun n hmem hgone => ?_
    have hid : n.id = id := by simpa using hgone
    rw [Node.shown_of_ne (hs n (hid ▸ hg.node?_of_mem hmem))]
    rfl
  | @updatePayload id old payload hnode =>
    have hkind := hs old hnode
    have hnone : ({ old with payload } : Node).shown = .empty := Node.shown_of_ne hkind
    have hsame : (replaced g.nodes { old with payload }).map Node.shown = g.nodes.map Node.shown :=
      hg.map_replaced hnode rfl (hnone.trans (Node.shown_of_ne hkind).symm)
    rw [hsame]
  | @moveNode id old position hnode =>
    have hsame : (replaced g.nodes { old with position }).map Node.shown = g.nodes.map Node.shown :=
      hg.map_replaced hnode rfl rfl
    rw [hsame]

theorem Sound.vars_start_editAll (hg : g.Sound) {edits : List Edit} (hm : ∀ e ∈ edits, e.IsMade)
    (hs : g.Along Edit.SparesDisplays edits) (seed : Table Value) :
    (start (g.editAll edits) seed.entries).1.vars = (start g seed.entries).1.vars := by
  refine hg.editAll_eq (f := fun g => (start g seed.entries).1.vars) ?_ hm hs
  intro g h e hg he hs hh
  have hsound : h.Sound := tryEdit_of_ok hh ▸ hg.tryEdit he
  rw [hsound.vars_start, hg.vars_start, hg.flatMap_shown_edit hs hh]

theorem Keyed.nodes_updatePayload (hg : g.Keyed) (hu : g.updatePayload id payload = .ok (h, node)) :
    h.nodes = g.nodes.map fun n => if id = n.id then { n with payload } else n := by
  obtain ⟨old, hold, -, hh⟩ := updatePayload_eq_ok hg hu
  rw [hh.nodes_eq]
  exact replaced_eq_map hg hold (fun n => { n with payload }) rfl

/-- How the variables of a new session depend on the nodes, the seed and the edits before. -/
structure SeedsInOrder (g : Graph) (seed : Table Value) : Prop extends g.Seeded seed where
  others_silent : ∀ node ∈ g.nodes, node.kind ≠ .display → node.displayed = []
  edited : ∀ edits, (∀ e ∈ edits, e.isContent = true) →
    (g.editAll edits).nodes.map Node.outline = g.nodes.map Node.outline ∧
      (g.editAll edits).Seeded seed
  updated : ∀ {id payload h node}, g.updatePayload id payload = .ok (h, node) →
    (h.nodes = g.nodes.map fun n => if id = n.id then { n with payload } else n) ∧ h.Seeded seed
  spared : ∀ edits, (∀ e ∈ edits, e.IsMade) → g.Along Edit.SparesDisplays edits →
    (start (g.editAll edits) seed.entries).1.vars = (start g seed.entries).1.vars

theorem Built.seedsInOrder (hg : g.Built) (seed : Table Value) : g.SeedsInOrder seed where
  toSeeded := hg.sound.seeded seed
  others_silent node hn hk := by
    rw [← Node.entries_shown (hg.sound.fitting.shape_eq node hn), Node.shown_of_ne hk]
    rfl
  edited edits hc := by
    have hb : (g.editAll edits).Built := hg.editAll fun e he => Edit.isMade_of_isContent (hc e he)
    exact ⟨(hg.sound.sameOutline_editAll hc).nodes_eq, hb.sound.seeded seed⟩
  updated {id payload h node} hu := by
    have hedit : g.edit (.updatePayload id payload) = .ok h := by rw [edit, hu]; rfl
    have hb : h.Built := tryEdit_of_ok hedit ▸ hg.edited trivial
    exact ⟨hg.sound.toKeyed.nodes_updatePayload hu, hb.sound.seeded seed⟩
  spared _ hm hs := hg.sound.vars_start_editAll hm hs seed

/-- Two scales that show the same load, and a note that keeps values without showing them. -/
def weighed : Graph :=
  Graph.empty.editAll
    [.addNode ⟨"first", .display,
        .ofBody (.display (.ofEntries [("load", .int 1), ("tare", .int 2)])) "" "", .origin⟩,
      .addNode ⟨"note", .action,
        ⟨"", "", "", "", .ofEntries [("values", .object [("load", .int 9)])], .basic⟩, .origin⟩,
      .addNode ⟨"second", .display,
        .ofBody (.display (.ofEntries [("gross", .int 3), ("load", .int 4)])) "" "", .origin⟩]

/-- The first scale is read again and moved, and is still the first. -/
def reweighed : List Edit :=
  [.updatePayload "first" (.ofBody (.display (.ofEntries [("load", .int 5), ("net", .int 6)])) "" ""),
    .moveNode "first" .origin, .updatePayload "first" (.empty .basic)]

theorem weighed_seedsInOrder : weighed.Built ∧ (∀ e ∈ reweighed, e.isContent = true) ∧
    weighed.Along Edit.SparesDisplays [.moveNode "second" .origin, .removeNode "note"] ∧
    (start weighed [("tare", .int 7), ("crew", .int 8)]).1.vars.entries =
      [("load", .int 4), ("tare", .int 7), ("gross", .int 3), ("crew", .int 8)] ∧
    (start (weighed.editAll reweighed) []).1.vars.entries =
      [("load", .int 4), ("net", .int 6), ("gross", .int 3)] ∧
    weighed.SeedsInOrder (.ofEntries [("tare", .int 7), ("crew", .int 8)]) := by
  have hb : weighed.Built := Built.empty.editAll (by decide)
  have hs : weighed.Along Edit.SparesDisplays [.moveNode "second" .origin, .removeNode "note"] := by
    refine ⟨trivial, fun node hn => ?_, trivial⟩
    cases hn
    decide
  exact ⟨hb, by decide, hs, rfl, rfl, hb.seedsInOrder _⟩

end Graph

end Flowsheet
